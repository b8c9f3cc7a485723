import ExactCalc.Proofs.Numeral.Places
import ExactCalc.Proofs.Root.Loops

/-!
# Roots of perfect powers

The search among the integers compares the error of the middle with that at the end it moved last.
While both are on one side of the root the comparison tells which half the root is in. Across the
root it does not: where the middle has the smaller error the search passes the root, and never comes
back. So a root that is an integer is found if and only if no round is misled in this way, and a
root that is passed is missed for good, since Newton's method only meets numbers above it.
-/
namespace ExactCalc.Power

open StateTransition

namespace Narrowing

/-- The end of the interval that was moved last. -/
def moved (s : Narrowing) : Int := if s.rising then s.lower else s.upper

/-- The middle of the interval, whose error is compared in the next round. -/
def middle (s : Narrowing) : Int := (s.upper - s.lower) / 2 + s.lower

/-- The next round passes the root: the middle and the end that was moved last are on different
sides of it, and the middle has the smaller error. -/
structure Misled (error : Int → Rat) (root : Int) (s : Narrowing) : Prop where
  wide : 1 < s.upper - s.lower
  across : s.moved < root ∧ root < s.middle ∨ s.middle < root ∧ root < s.moved
  nearer : error s.middle < s.last

/-- The errors of the integers from zero on fall down to the root and rise after it. -/
structure Valley (error : Int → Rat) (root : Int) : Prop where
  falls : ∀ x y, 0 ≤ x → x < y → y ≤ root → error y < error x
  rises : ∀ x y, root ≤ x → x < y → error x < error y

/-- The interval holds the root, and the error that is kept is that of the end moved last. -/
structure Encloses (error : Int → Rat) (root : Int) (s : Narrowing) : Prop where
  nonneg : 0 ≤ s.lower
  lower : s.lower ≤ root
  upper : root ≤ s.upper
  last : s.last = error s.moved

variable {error : Int → Rat} {root bound : Int} {s t last : Narrowing}

theorem mem_round (made : t ∈ s.round error) :
    1 < s.upper - s.lower ∧
      (s.rising = decide (error s.middle < s.last) ∧
          t = ⟨s.middle, s.upper, true, error s.middle⟩ ∨
        s.rising ≠ decide (error s.middle < s.last) ∧
          t = ⟨s.lower, s.middle, false, error s.middle⟩) := by
  unfold round at made
  split at made
  next => cases made
  next wide =>
    refine ⟨not_le.mp wide, ?_⟩
    dsimp only at made
    split at made <;> cases made
    next moved => exact .inl ⟨moved, rfl⟩
    next turned => exact .inr ⟨turned, rfl⟩

/-- A round that is not misled keeps the root in the interval. -/
theorem Encloses.round (valley : Valley error root) (encloses : s.Encloses error root)
    (made : t ∈ s.round error) (straight : ¬s.Misled error root) : t.Encloses error root := by
  obtain ⟨nonneg, lower, upper, kept⟩ := encloses
  obtain ⟨wide, changed⟩ := mem_round made
  have inside : s.lower < s.middle ∧ s.middle < s.upper := by
    unfold middle
    omega
  have honest (across : s.moved < root ∧ root < s.middle ∨ s.middle < root ∧ root < s.moved) :
      error s.moved ≤ error s.middle :=
    kept ▸ not_lt.mp fun nearer => straight ⟨wide, across, nearer⟩
  rw [kept] at changed
  -- The end moved last is the lower one after a rise and the upper one after a fall. On its side of
  -- the root the comparison is right; across the root `honest` is what keeps the root inside.
  cases rising : s.rising with
  | true =>
    have moved : s.moved = s.lower := if_pos rising
    rw [moved] at honest changed
    rw [rising] at changed
    rcases changed with ⟨closer, rfl⟩ | ⟨farther, rfl⟩
    · have closer : error s.middle < error s.lower := by simpa using closer.symm
      refine ⟨nonneg.trans inside.1.le, ?_, upper, rfl⟩
      by_contra past
      have past : root < s.middle := not_le.mp past
      rcases lower.lt_or_eq with before | same
      · exact closer.not_ge (honest (.inl ⟨before, past⟩))
      · exact (closer.trans (same ▸ valley.rises _ _ le_rfl past)).false
    · have farther : ¬error s.middle < error s.lower := by simpa using farther
      refine ⟨nonneg, lower, ?_, rfl⟩
      by_contra short
      exact farther (valley.falls _ _ nonneg inside.1 (not_le.mp short).le)
  | false =>
    have moved : s.moved = s.upper := if_neg (by simp [rising])
    rw [moved] at honest changed
    rw [rising] at changed
    rcases changed with ⟨farther, rfl⟩ | ⟨closer, rfl⟩
    · have farther : ¬error s.middle < error s.upper := by simpa using farther
      refine ⟨nonneg.trans inside.1.le, ?_, upper, rfl⟩
      by_contra past
      exact farther (valley.rises _ _ (not_le.mp past).le inside.2)
    · have closer : error s.middle < error s.upper := by simpa using closer
      refine ⟨nonneg, lower, ?_, rfl⟩
      by_contra short
      have short : s.middle < root := not_le.mp short
      rcases upper.lt_or_eq with after | same
      · exact closer.not_ge (honest (.inr ⟨short, after⟩))
      · exact (closer.trans (same ▸ valley.falls _ _ (by omega) short le_rfl)).false

/-- A round that is misled leaves the root outside. -/
theorem Misled.lost (misled : s.Misled error root) (made : t ∈ s.round error) :
    t.upper < root ∨ root < t.lower := by
  obtain ⟨-, across, nearer⟩ := misled
  obtain ⟨wide, changed⟩ := mem_round made
  have inside : s.lower < s.middle ∧ s.middle < s.upper := by
    unfold middle
    omega
  rw [decide_eq_true nearer] at changed
  unfold moved at across
  rcases changed with ⟨rising, rfl⟩ | ⟨falling, rfl⟩
  · rw [if_pos rising] at across
    dsimp only
    omega
  · rw [if_neg falling] at across
    dsimp only
    omega

/-- The search never leaves its interval. -/
theorem within_of_reaches (ordered : s.lower ≤ s.upper) (reached : Reaches (round error) s t) :
    s.lower ≤ t.lower ∧ t.lower ≤ t.upper ∧ t.upper ≤ s.upper := by
  induction reached with
  | refl => exact ⟨le_rfl, ordered, le_rfl⟩
  | tail _ made ih =>
    obtain ⟨lower, between, upper, -⟩ := round_narrower error _ _ made
    exact ⟨ih.1.trans lower, between, upper.trans ih.2.2⟩

/-- A search of which no round is misled keeps the root. -/
theorem Encloses.reaches (valley : Valley error root) (encloses : s.Encloses error root)
    (straight : ∀ u, Reaches (Narrowing.round error) s u → ¬u.Misled error root)
    (reached : Reaches (Narrowing.round error) s t) : t.Encloses error root := by
  induction reached with
  | refl => exact encloses
  | tail reached made ih => exact ih.round valley made (straight _ reached)

/-- If the last interval holds the root, its better end is the root. -/
theorem Encloses.better (valley : Valley error root) (encloses : last.Encloses error root)
    (stops : Narrowing.round error last = none) : last.better error = root := by
  obtain ⟨nonneg, lower, upper, -⟩ := encloses
  have narrow : last.upper - last.lower ≤ 1 := by
    by_contra wide
    unfold Narrowing.round at stops
    rw [if_neg wide] at stops
    dsimp only at stops
    split at stops <;> cases stops
  unfold Narrowing.better
  split
  next chosen =>
    by_contra other
    have rises := valley.rises last.lower last.upper (by omega) (by omega)
    exact chosen.elim (fun same => by omega) rises.not_gt
  next chosen =>
    by_contra other
    have falls := valley.falls last.lower last.upper nonneg (by omega) (by omega)
    exact chosen (.inr falls)

/-- A search that starts with the root in its interval ends with the root if and only if no round
is misled. -/
theorem better_eq_iff (valley : Valley error root) (encloses : s.Encloses error root)
    (ends : last ∈ eval (round error) s) :
    last.better error = root ↔ ∀ t, Reaches (round error) s t → ¬t.Misled error root := by
  obtain ⟨reached, stops⟩ := mem_eval.mp ends
  refine ⟨fun found t reachedThere misled => ?_, fun straight =>
    (encloses.reaches valley straight reached).better valley stops⟩
  -- What a misled round leaves does not hold the root, and no later round leaves that again.
  obtain ⟨u, made⟩ : ∃ u, t.round error = some u := by
    unfold round
    rw [if_neg (not_le.mpr misled.wide)]
    dsimp only
    split <;> exact ⟨_, rfl⟩
  have later : Reaches (round error) u last := by
    rw [reaches_eval (reachedThere.tail made)] at ends
    exact (mem_eval.mp ends).1
  obtain ⟨lower, between, upper⟩ :=
    within_of_reaches (round_narrower error t u made).ordered later
  have lost := misled.lost made
  unfold better at found
  split at found <;> omega

/-- A search whose interval ends at the root keeps it. -/
theorem Encloses.better_of_upper (valley : Valley error root) (encloses : s.Encloses error root)
    (upper : s.upper ≤ root) (ends : last ∈ eval (Narrowing.round error) s) :
    last.better error = root := by
  refine (better_eq_iff valley encloses ends).mpr fun t reached misled => ?_
  have within := within_of_reaches (encloses.lower.trans encloses.upper) reached
  have across := misled.across
  unfold moved middle at across
  split at across <;> omega

theorem encloses_first (valley : Valley error root) (nonneg : 0 ≤ root) (below : root ≤ bound) :
    (first error 0 bound).Encloses error root := by
  have half : 0 ≤ (bound - 0) / 2 + 0 := by omega
  unfold first
  dsimp only
  split
  next closer =>
    refine ⟨by dsimp only; omega, ?_, below, rfl⟩
    by_contra past
    exact closer.not_gt (valley.rises _ _ (Int.lt_add_one_iff.mp (not_le.mp past)) (by omega))
  next farther =>
    refine ⟨le_rfl, nonneg, ?_, rfl⟩
    by_contra short
    exact farther (valley.falls _ _ half (by omega) (not_le.mp short))

/-- While the halves of the bound are not below the root, the upper end runs through them. -/
theorem reaches_half (valley : Valley error root) (positive : 0 < root) (j : ℕ)
    (above : root ≤ bound / 2 ^ (j + 1)) :
    Reaches (round error) (first error 0 bound)
      ⟨0, bound / 2 ^ (j + 1), false, error (bound / 2 ^ (j + 1))⟩ := by
  induction j with
  | zero =>
    rw [zero_add, pow_one] at above ⊢
    have rises := valley.rises (bound / 2) (bound / 2 + 1) above (by omega)
    have start : first error 0 bound = ⟨0, bound / 2, false, error (bound / 2)⟩ := by
      simp only [first, sub_zero, add_zero, if_neg rises.not_gt]
    rw [start]
    exact .refl
  | succ j ih =>
    have halved : bound / 2 ^ (j + 1 + 1) = bound / 2 ^ (j + 1) / 2 := by
      rw [pow_succ, Int.ediv_ediv_of_nonneg (by positivity)]
    rw [halved] at above ⊢
    generalize bound / 2 ^ (j + 1) = upper at above ih ⊢
    have rises := valley.rises (upper / 2) upper above (by omega)
    refine (ih (by omega)).tail ?_
    have wide : ¬upper - 0 ≤ 1 := by omega
    simp only [round, sub_zero] at wide ⊢
    simp [wide, rises]

end Narrowing

section Search

open Narrowing

variable {root degree : ℕ}

theorem powerError_eq (radicand : ℚ) (degree : ℕ) (x : ℤ) :
    powerError radicand degree x = |(x : ℚ) ^ degree - radicand| := by
  rw [powerError, abs_eq, whole_eq_pow]

theorem valley_powerError (root : ℕ) (proper : 0 < degree) :
    Valley (powerError ((root : ℚ) ^ degree) degree) root where
  falls x y nonneg less upTo := by
    have start : (0 : ℚ) ≤ x := Int.cast_nonneg nonneg
    have step : (x : ℚ) ^ degree < (y : ℚ) ^ degree :=
      pow_lt_pow_left₀ (Int.cast_lt.mpr less) start proper.ne'
    have below : (y : ℚ) ^ degree ≤ (root : ℚ) ^ degree :=
      pow_le_pow_left₀ (start.trans (Int.cast_le.mpr less.le)) (by exact_mod_cast upTo) _
    rw [powerError_eq, powerError_eq, abs_of_nonpos (by linarith), abs_of_nonpos (by linarith)]
    linarith
  rises x y from_root less := by
    have root_le : (root : ℚ) ≤ x := by exact_mod_cast from_root
    have above : (root : ℚ) ^ degree ≤ (x : ℚ) ^ degree :=
      pow_le_pow_left₀ (Nat.cast_nonneg _) root_le _
    have step : (x : ℚ) ^ degree < (y : ℚ) ^ degree :=
      pow_lt_pow_left₀ (Int.cast_lt.mpr less) ((Nat.cast_nonneg _).trans root_le) proper.ne'
    rw [powerError_eq, powerError_eq, abs_of_nonneg (by linarith), abs_of_nonneg (by linarith)]
    linarith

/-- Of two numbers on both sides of the root, the one below has the smaller error if their powers
are above that of the root on average. -/
theorem powerError_lt_of_sum {x y : ℕ} (below : x ≤ root) (above : root ≤ y)
    (nearer : 2 * root ^ degree < y ^ degree + x ^ degree) :
    powerError ((root : ℚ) ^ degree) degree x < powerError ((root : ℚ) ^ degree) degree y := by
  have short : (x : ℚ) ^ degree ≤ (root : ℚ) ^ degree := by
    exact_mod_cast Nat.pow_le_pow_left below degree
  have past : (root : ℚ) ^ degree ≤ (y : ℚ) ^ degree := by
    exact_mod_cast Nat.pow_le_pow_left above degree
  have sum : 2 * (root : ℚ) ^ degree < (y : ℚ) ^ degree + (x : ℚ) ^ degree := by
    exact_mod_cast nearer
  rw [powerError_eq, powerError_eq, Int.cast_natCast, Int.cast_natCast,
    abs_of_nonpos (by linarith), abs_of_nonneg (by linarith)]
  linarith

theorem bounds_pow (root degree : ℕ) :
    bounds ((root : ℚ) ^ degree) = (0, (root : ℤ) ^ degree) := by
  have integer : (root : ℚ) ^ degree = ((root ^ degree : ℕ) : ℚ) := (Nat.cast_pow _ _).symm
  have notNegative : ¬((root : ℚ) ^ degree < 0) := not_lt.mpr (by positivity)
  rw [bounds, if_neg notNegative, integer, truncate, Rat.num_natCast, Rat.den_natCast]
  simp

variable (proper : 0 < degree)

include proper

theorem encloses_first_pow (root : ℕ) :
    (first (powerError ((root : ℚ) ^ degree) degree) 0 ((root : ℤ) ^ degree)).Encloses
      (powerError ((root : ℚ) ^ degree) degree) root := by
  refine encloses_first (valley_powerError root proper) (Int.natCast_nonneg _) ?_
  exact_mod_cast Nat.le_self_pow proper.ne' root

/-- The search for a root that is a natural number finds it if and only if no round is misled. -/
theorem nearbyInteger_pow_iff (root : ℕ) :
    nearbyInteger ((root : ℚ) ^ degree) degree = root ↔
      ∀ s, Reaches (Narrowing.round (powerError ((root : ℚ) ^ degree) degree))
        (first (powerError ((root : ℚ) ^ degree) degree) 0 ((root : ℤ) ^ degree)) s →
          ¬s.Misled (powerError ((root : ℚ) ^ degree) degree) root := by
  obtain ⟨last, ends, found⟩ := nearbyInteger_eq ((root : ℚ) ^ degree) degree
  rw [bounds_pow] at ends
  rw [found]
  exact better_eq_iff (valley_powerError root proper) (encloses_first_pow proper root) ends

/-- A root that the radicand comes to by halving it is found. -/
theorem nearbyInteger_pow_of_half (positive : 0 < root) {j : ℕ}
    (half : root ^ degree / 2 ^ j = root) :
    nearbyInteger ((root : ℚ) ^ degree) degree = root := by
  have valley := valley_powerError root proper
  have start := encloses_first_pow proper root
  obtain ⟨last, ends, found⟩ := nearbyInteger_eq ((root : ℚ) ^ degree) degree
  rw [bounds_pow] at ends
  rw [found]
  have halfway : (root : ℤ) ^ degree / 2 ^ j = root := by exact_mod_cast half
  cases j with
  | zero =>
    have within := (first_narrower (powerError ((root : ℚ) ^ degree) degree)
      (by positivity : (0 : ℤ) < (root : ℤ) ^ degree)).upper
    rw [pow_zero, Int.ediv_one] at halfway
    exact start.better_of_upper valley (within.trans halfway.le) ends
  | succ j =>
    have reached := reaches_half valley (by exact_mod_cast positive) j halfway.ge
    rw [reaches_eval reached] at ends
    rw [halfway] at ends
    refine Encloses.better_of_upper valley ⟨le_rfl, Int.natCast_nonneg _, le_rfl, rfl⟩ le_rfl ends

/-- A root that halving the radicand steps over is missed if the half below it is nearer. -/
theorem nearbyInteger_pow_ne_of_half (positive : 0 < root) {j : ℕ}
    (past : root < root ^ degree / 2 ^ (j + 1))
    (short : root ^ degree / 2 ^ (j + 2) < root)
    (nearer : 2 * root ^ degree <
      (root ^ degree / 2 ^ (j + 1)) ^ degree + (root ^ degree / 2 ^ (j + 2)) ^ degree) :
    nearbyInteger ((root : ℚ) ^ degree) degree ≠ root := by
  have halved : root ^ degree / 2 ^ (j + 2) = root ^ degree / 2 ^ (j + 1) / 2 := by
    rw [pow_succ 2 (j + 1), Nat.div_div_eq_div_mul]
  rw [halved] at short nearer
  have reached : Reaches (Narrowing.round (powerError ((root : ℚ) ^ degree) degree))
      (first (powerError ((root : ℚ) ^ degree) degree) 0 ((root : ℤ) ^ degree))
      ⟨0, (root ^ degree / 2 ^ (j + 1) : ℕ), false,
        powerError ((root : ℚ) ^ degree) degree (root ^ degree / 2 ^ (j + 1) : ℕ)⟩ := by
    push_cast
    exact reaches_half (valley_powerError root proper) (by exact_mod_cast positive) j
      (by exact_mod_cast past.le)
  generalize root ^ degree / 2 ^ (j + 1) = upper at reached past short nearer
  intro found
  refine (nearbyInteger_pow_iff proper root).mp found _ reached ⟨?_, ?_, ?_⟩
  · dsimp only
    omega
  · refine .inr ⟨?_, Int.ofNat_lt.mpr past⟩
    simp only [middle]
    omega
  · have middle : middle ⟨0, (upper : ℤ), false,
        powerError ((root : ℚ) ^ degree) degree upper⟩ = (upper / 2 : ℕ) := by
      simp only [middle]
      omega
    rw [middle]
    exact powerError_lt_of_sum short.le past.le nearer

end Search

section Roots

variable {k degree : ℕ} {a : Accuracy}

theorem root_of_found (positive : 0 < k)
    (found : nearbyInteger ((k : ℚ) ^ degree) degree = k) :
    root a ((k : ℚ) ^ degree) degree = k := by
  have large : 1 ≤ |(k : ℚ) ^ degree| := by
    rw [abs_of_nonneg (by positivity)]
    exact one_le_pow₀ (by exact_mod_cast positive)
  have met := root_eq_nearbyInteger (a := a) large (by rw [found, Int.cast_natCast])
  rwa [found, Int.cast_natCast] at met

/-- Newton's method does not start from a root that the search passes. -/
theorem start_ne_of_missed (proper : 0 < degree)
    (missed : nearbyInteger ((k : ℚ) ^ degree) degree ≠ k) :
    max (nearbyInteger ((k : ℚ) ^ degree) degree : ℚ) 1 ≠ k := by
  rcases max_choice (nearbyInteger ((k : ℚ) ^ degree) degree : ℚ) 1 with guess | one
  · rw [guess]
    exact_mod_cast missed
  · rw [one]
    intro same
    obtain rfl : k = 1 := by exact_mod_cast same.symm
    exact missed (nearbyInteger_pow_of_half proper one_pos (j := 0) (by simp))

/-- A root that the search passes is not met any more: Newton's method ends above it. -/
theorem lt_root_of_missed (proper : 2 ≤ degree) (positive : 0 < k) (scaled : 0 < a.scale)
    (radix : 0 < a.radix) (missed : nearbyInteger ((k : ℚ) ^ degree) degree ≠ k) :
    (k : ℚ) < root a ((k : ℚ) ^ degree) degree := by
  have power : 1 ≤ (k : ℚ) ^ degree := one_le_pow₀ (by exact_mod_cast positive)
  have nonneg : (0 : ℚ) ≤ (k : ℚ) ^ degree := zero_le_one.trans power
  have large : 1 ≤ |(k : ℚ) ^ degree| := by rwa [abs_of_nonneg nonneg]
  have wellPosed : (rootProblem a ((k : ℚ) ^ degree) degree).WellPosed :=
    wellPosed_rootProblem a (zero_lt_one.trans_le power).ne' (by omega) scaled radix
  have magnitude : (rootProblem a ((k : ℚ) ^ degree) degree).magnitude = (k : ℚ) ^ degree := by
    rw [rootProblem, abs_eq, abs_of_nonneg nonneg]
  have guessNonneg : (0 : ℚ) ≤ nearbyInteger ((k : ℚ) ^ degree) degree :=
    Int.cast_nonneg (nearbyInteger_nonneg degree power)
  have notGuess : (nearbyInteger ((k : ℚ) ^ degree) degree : ℚ) ≠ k := by exact_mod_cast missed
  have same_pow {x : ℚ} (start : 0 ≤ x) : x ^ degree = (k : ℚ) ^ degree ↔ x = k :=
    pow_left_inj₀ start (Nat.cast_nonneg k) (by omega)
  have solved := root_eq_solve (a := a) large (mt (same_pow guessNonneg).mp notGuess)
  rw [if_neg nonneg.not_gt, one_mul, abs_of_nonneg guessNonneg] at solved
  have startPositive : (0 : ℚ) < max (nearbyInteger ((k : ℚ) ^ degree) degree : ℚ) 1 :=
    zero_lt_one.trans_le (le_max_right _ _)
  have above := wellPosed.magnitude_lt_solve_pow proper startPositive fun met =>
    start_ne_of_missed (by omega) missed ((same_pow startPositive.le).mp (met.trans magnitude))
  rw [magnitude, ← solved] at above
  have solvedPositive := (wellPosed.isRoot_solve startPositive).pos
  exact lt_of_pow_lt_pow_left₀ degree (solved ▸ solvedPositive.le) above

/-- What is found is above the root by no more than one unit of the last place. -/
theorem root_le_of_power (proper : 0 < degree) (scaled : 0 < a.scale) (radix : 0 < a.radix) :
    root a ((k : ℚ) ^ degree) degree ≤ k + 1 / a.scale := by
  have notNegative : ¬((k : ℚ) ^ degree < 0) := not_lt.mpr (by positivity)
  have found := isRootOf_root a ((k : ℚ) ^ degree) degree proper scaled radix
    fun negative => absurd negative notNegative
  have near := (found.near proper (Nat.cast_nonneg k) (by simp)).2
  rw [Rat.mkRat_eq_div, Int.cast_one] at near
  refine (le_abs_self _).trans ?_
  exact_mod_cast near

/-- A number above an integer by no more than a unit of the place after the last does not end
within the precision. -/
theorem isExact_of_near {precision radix : ℕ} {y : ℚ} (digits : 2 ≤ radix) (above : k < y)
    (near : y ≤ k + 1 / radix ^ (precision + 1)) :
    NumberStyle.isExact radix precision y = false := by
  have two_le : (2 : ℚ) ≤ radix := by exact_mod_cast digits
  have weight : (0 : ℚ) < radix ^ precision := by positivity
  have guard : 1 / (radix : ℚ) ^ (precision + 1) * radix ^ precision < 1 := by
    rw [pow_succ', one_div_mul_eq_div, div_lt_one (by positivity)]
    exact lt_mul_left weight (by linarith)
  have past : (((k * radix ^ precision : ℕ) : ℤ) : ℚ) < y * radix ^ precision := by
    push_cast
    exact mul_lt_mul_of_pos_right above weight
  have before : y * radix ^ precision < (((k * radix ^ precision : ℕ) : ℤ) : ℚ) + 1 := by
    push_cast
    linarith [mul_le_mul_of_nonneg_right near weight.le]
  exact NumberStyle.isExact_of_between past before

/-- The power is the root of a power of the root. -/
theorem power_of_perfect {d n : ℕ} (proper : 2 ≤ d) (lowest : n.Coprime d) (k : ℕ) :
    power a ((k : ℚ) ^ d) (n / d) = .ok (root a (((k ^ n : ℕ) : ℚ) ^ d) d) := by
  have divisor : (0 : ℤ) < d := by exact_mod_cast (by omega : 0 < d)
  have numerator := Rat.num_div_eq_of_coprime (a := n) divisor (by simpa using lowest)
  have denominator := Rat.den_div_eq_of_coprime (a := n) divisor (by simpa using lowest)
  rw [Int.cast_natCast, Int.cast_natCast] at numerator denominator
  rw [Nat.cast_inj] at denominator
  have notNegative : ¬((n : ℚ) / d < 0) := not_lt.mpr (by positivity)
  have powers : ((k : ℚ) ^ d) ^ n = ((k ^ n : ℕ) : ℚ) ^ d := by
    rw [Nat.cast_pow, ← pow_mul, ← pow_mul, mul_comm]
  refine (power_eq_ok_iff (by omega)).mpr ⟨fun negative => absurd negative notNegative, ?_, ?_⟩
  · rw [if_neg notNegative]
    exact fun negative => absurd negative (not_lt.mpr (by positivity))
  · rw [if_neg notNegative, numerator, denominator, Int.natAbs_natCast, powers]

end Roots

/-- The root of a perfect power is exact if and only if no round of the search among the integers
is misled. It is exact if the radicand comes to the root by halving, and is not if halving steps
over the root and the half below is nearer. A root that is exact is shown with its digits alone. One
that is not lies above the exact one by no more than one unit of the place after the last, and is
shown with all places of the precision. -/
theorem perfect_power_exact_iff (k d n precision radix : ℕ) (positive : 0 < k) (proper : 2 ≤ d)
    (lowest : n.Coprime d) (digits : 2 ≤ radix) :
    let r := k ^ n
    let R := r ^ d
    let error := powerError ((r : ℚ) ^ d) d
    ∃ y, power (.shown precision radix) ((k : ℚ) ^ d) (n / d) = .ok y ∧
      (y = r ↔ ∀ s, Reaches (Narrowing.round error) (Narrowing.first error 0 R) s →
        ¬s.Misled error r) ∧
      ((∃ j, R / 2 ^ j = r) → y = r) ∧
      ((∃ j, r < R / 2 ^ (j + 1) ∧ R / 2 ^ (j + 2) < r ∧
        2 * R < (R / 2 ^ (j + 1)) ^ d + (R / 2 ^ (j + 2)) ^ d) → y ≠ r) ∧
      ∀ style : NumberStyle, style.radix = radix →
        (y = r → style.render precision y = style.whole r) ∧
        (y ≠ r → r < y ∧ y ≤ r + 1 / radix ^ (precision + 1) ∧
          (Literal.fractionPart (style.render precision y)).length = precision) := by
  intro r R error
  have rootPositive : 0 < r := Nat.pow_pos positive
  have degree : 0 < d := by omega
  have someRadix : 0 < (Accuracy.shown precision radix).radix := by change 0 < radix; omega
  have scaled : 0 < (Accuracy.shown precision radix).scale := Nat.pow_pos someRadix
  have success := power_of_perfect (a := .shown precision radix) proper lowest k
  have exact_iff : root (.shown precision radix) ((r : ℚ) ^ d) d = r ↔
      nearbyInteger ((r : ℚ) ^ d) d = r := by
    refine ⟨fun same => ?_, root_of_found rootPositive⟩
    by_contra missed
    exact (lt_root_of_missed proper rootPositive scaled someRadix missed).ne' same
  have searched := nearbyInteger_pow_iff degree r
  refine ⟨_, success, ?_, ?_, ?_, ?_⟩
  · rw [exact_iff, searched]
    simp only [R, Nat.cast_pow, error]
  · rintro ⟨j, half⟩
    exact exact_iff.mpr (nearbyInteger_pow_of_half degree rootPositive half)
  · rintro ⟨j, past, short, nearer⟩
    exact mt exact_iff.mp (nearbyInteger_pow_ne_of_half degree rootPositive past short nearer)
  · rintro style rfl
    refine ⟨fun same => ?_, fun other => ?_⟩
    · rw [same]
      exact NumberStyle.render_natCast digits precision r
    · have above := lt_root_of_missed proper rootPositive scaled someRadix (mt exact_iff.mpr other)
      have below := root_le_of_power (k := r) (a := .shown precision style.radix) degree scaled
        someRadix
      have scale : ((Accuracy.shown precision style.radix).scale : ℚ) =
          style.radix ^ (precision + 1) := Nat.cast_pow _ _
      rw [scale] at below
      exact ⟨above, below, NumberStyle.length_fractionPart_render digits
        (isExact_of_near digits above below)⟩

/-- The square root of one hundred, to ten places, is found by the search. -/
theorem perfect_power_exact_iff_hundred :
    power (.shown 10 10) 100 (1 / 2) = .ok 10 ∧
      (∀ s, Reaches (Narrowing.round (powerError 100 2))
        (Narrowing.first (powerError 100 2) 0 100) s → ¬s.Misled (powerError 100 2) 10) ∧
      ({} : NumberStyle).render 10 10 = ['1', '0'] := by
  obtain ⟨y, success, found, -, -, shown⟩ :=
    perfect_power_exact_iff 10 2 1 10 10 (by decide) (by decide) (by decide) (by decide)
  have evaluated : power (.shown 10 10) 100 (1 / 2) = .ok 10 := by decide +kernel
  norm_num at success found shown
  rw [evaluated] at success
  obtain rfl : (10 : ℚ) = y := Except.ok.inj success
  have digits : ({} : NumberStyle).whole 10 = ['1', '0'] := by decide +kernel
  exact ⟨evaluated, found.mp rfl, ((shown {} rfl).1 rfl).trans digits⟩

/-- The square root of nine, to ten places, is missed: the search steps from four to two, which is
nearer, and ends there. -/
theorem square_root_of_nine_missed :
    power (.shown 10 10) 9 (1 / 2) =
        .ok (mkRat 72000000000948000000006241 24000000000316000000000000) ∧
      ({} : NumberStyle).render 10
        (mkRat 72000000000948000000006241 24000000000316000000000000) = "3.0000000000".toList ∧
      ¬∀ k d n precision radix : ℕ, 0 < k → 2 ≤ d → 0 < n → n.Coprime d → 2 ≤ radix →
        power (.shown precision radix) ((k : ℚ) ^ d) (n / d) = .ok ((k : ℚ) ^ n) := by
  have evaluated : power (.shown 10 10) 9 (1 / 2) =
      .ok (mkRat 72000000000948000000006241 24000000000316000000000000) := by decide +kernel
  refine ⟨evaluated, by decide +kernel, fun exact => ?_⟩
  have three := exact 3 2 1 10 10 (by decide) (by decide) (by decide) (by decide) (by decide)
  norm_num at three
  rw [evaluated] at three
  exact absurd (Except.ok.inj three) (by decide +kernel)

end ExactCalc.Power
