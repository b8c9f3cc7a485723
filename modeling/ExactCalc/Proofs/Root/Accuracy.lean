import Mathlib.Data.Real.Basic
import Mathlib.Data.Sign.Basic
import ExactCalc.Power
import ExactCalc.Proofs.Numeral.Display
import ExactCalc.Proofs.Root.GridFloor
import ExactCalc.Proofs.Root.IntegerSearch
import ExactCalc.Proofs.Root.Newton

/-!
# Roots are accurate

Whatever way a root is found, it has the sign of the radicand, and its magnitude is at or above
the true root by no more than one unit of the last place. A root that is an integer or a grid
point is met exactly; any other comes from Newton's method.
-/
namespace ExactCalc.Power

/-- The number `y` has the sign of the radicand, and its magnitude is at or above the root of the
radicand's by no more than the tolerance. -/
structure IsRootOf (radicand : ℚ) (degree : ℕ) (tolerance y : ℚ) : Prop where
  sign : SignType.sign y = SignType.sign radicand
  above : |radicand| ≤ |y| ^ degree
  within : max (|y| - tolerance) 0 ^ degree ≤ |radicand|

variable {radicand tolerance y : ℚ} {degree : ℕ}

/-- A number whose power has the magnitude of the radicand is its root. -/
theorem IsRootOf.of_pow_eq (nonneg : 0 ≤ tolerance)
    (sign : SignType.sign y = SignType.sign radicand) (exact : |y| ^ degree = |radicand|) :
    IsRootOf radicand degree tolerance y := by
  refine ⟨sign, exact.ge, ?_⟩
  rw [← exact]
  refine pow_le_pow_left₀ (le_max_right _ _) (max_le ?_ (abs_nonneg y)) _
  linarith

/-- The true root of the magnitude is at most the tolerance below. -/
theorem IsRootOf.near (found : IsRootOf radicand degree tolerance y) (proper : 0 < degree)
    {root : ℝ} (nonneg : 0 ≤ root) (isRoot : root ^ degree = |(radicand : ℝ)|) :
    root ≤ |(y : ℝ)| ∧ |(y : ℝ)| ≤ root + tolerance := by
  have above : root ^ degree ≤ |(y : ℝ)| ^ degree := by
    rw [isRoot]
    exact_mod_cast found.above
  have within : max (|(y : ℝ)| - tolerance) 0 ^ degree ≤ root ^ degree := by
    rw [isRoot]
    exact_mod_cast found.within
  have low := le_of_pow_le_pow_left₀ proper.ne' (abs_nonneg _) above
  have high := le_of_pow_le_pow_left₀ proper.ne' nonneg within
  exact ⟨low, sub_le_iff_le_add.mp ((le_max_left _ _).trans high)⟩

/-- A magnitude with the sign of the radicand. -/
theorem sign_signed {x : ℚ} (nonneg : 0 ≤ x) (zero : x = 0 ↔ radicand = 0) :
    SignType.sign ((if radicand < 0 then -1 else 1) * x) = SignType.sign radicand := by
  rcases lt_trichotomy radicand 0 with negative | rfl | positive
  · have above : 0 < x := nonneg.lt_of_ne fun zeroX => negative.ne (zero.mp zeroX.symm)
    rw [if_pos negative, neg_one_mul, sign_neg (by linarith), sign_neg negative]
  · simp [zero.mpr rfl]
  · have above : 0 < x := nonneg.lt_of_ne fun zeroX => positive.ne' (zero.mp zeroX.symm)
    rw [if_neg positive.not_gt, one_mul, sign_pos above, sign_pos positive]

theorem abs_signed {x : ℚ} (nonneg : 0 ≤ x) :
    |(if radicand < 0 then -1 else 1) * x| = x := by
  split <;> simp [abs_of_nonneg nonneg]

/-- Below one, a grid point that is met exactly is the root. -/
theorem isRootOf_of_grid {x : ℚ} (tolerated : 0 ≤ tolerance) (proper : 0 < degree)
    (nonneg : 0 ≤ x) (exact : x ^ degree = |radicand|) :
    IsRootOf radicand degree tolerance ((if radicand < 0 then -1 else 1) * x) := by
  refine .of_pow_eq tolerated (sign_signed nonneg ?_) (by rw [abs_signed nonneg, exact])
  rw [← pow_eq_zero_iff proper.ne', exact, abs_eq_zero]

/-- An integer whose power is the radicand is the root. For a negative radicand the degree is odd,
so that the integer is negative by itself. -/
theorem isRootOf_of_integer {x : ℚ} (tolerated : 0 ≤ tolerance) (proper : 0 < degree)
    (nonneg : 0 ≤ radicand → 0 ≤ x) (real : radicand < 0 → Odd degree)
    (exact : x ^ degree = radicand) : IsRootOf radicand degree tolerance x := by
  refine .of_pow_eq tolerated ?_ (by rw [← abs_pow, exact])
  rcases lt_trichotomy radicand 0 with negative | rfl | positive
  · have below : x < 0 := (real negative).pow_neg_iff.mp (exact.trans_lt negative)
    rw [sign_neg below, sign_neg negative]
  · rw [(pow_eq_zero_iff proper.ne').mp exact]
  · have nonzero : x ≠ 0 := by
      rintro rfl
      rw [zero_pow proper.ne'] at exact
      exact positive.ne exact
    rw [sign_pos ((nonneg positive.le).lt_of_ne nonzero.symm), sign_pos positive]

/-- What Newton's method finds for the magnitude of a radicand is the root. -/
theorem isRootOf_of_newton {p : RootProblem} {x : ℚ} (nonzero : radicand ≠ 0)
    (magnitude : p.magnitude = |radicand|) (found : p.IsRoot x) :
    IsRootOf radicand p.degree p.tolerance ((if radicand < 0 then -1 else 1) * x) := by
  have zero : x = 0 ↔ radicand = 0 := iff_of_false found.pos.ne' nonzero
  refine ⟨sign_signed found.pos.le zero, ?_, ?_⟩ <;> rw [abs_signed found.pos.le, ← magnitude]
  · exact found.above
  · exact found.within

theorem startBelowOne_exact {magnitude x : ℚ} {scale : ℕ}
    (start : startBelowOne magnitude degree scale = .exact x) : 0 ≤ x ∧ x ^ degree = magnitude := by
  unfold startBelowOne at start
  dsimp only at start
  split at start
  next met =>
    cases start
    rw [whole_eq_pow] at met
    exact ⟨Rat.mkRat_nonneg (Int.natCast_nonneg _) _, met⟩
  next => cases start

/-- A grid search that ends without the root was for a positive magnitude: zero is on the grid. -/
theorem startBelowOne_approximate {magnitude x : ℚ} {scale : ℕ} (nonneg : 0 ≤ magnitude)
    (proper : 0 < degree) (scaled : 0 < scale)
    (start : startBelowOne magnitude degree scale = .approximate x) : 0 < magnitude ∧ 0 < x := by
  unfold startBelowOne at start
  dsimp only at start
  split at start
  next => cases start
  next inexact =>
    cases start
    rw [whole_eq_pow] at inexact
    constructor
    · refine nonneg.lt_of_ne fun zero => inexact ?_
      have below := gridFloor_pow_le degree scale nonneg proper
      refine le_antisymm below (zero ▸ pow_nonneg ?_ _)
      exact Rat.mkRat_nonneg (Int.natCast_nonneg _) _
    · rw [Rat.mkRat_eq_div]
      positivity

theorem startAmongIntegers_exact {x : ℚ} (start : startAmongIntegers radicand degree = .exact x) :
    (1 ≤ radicand → 0 ≤ x) ∧ x ^ degree = radicand := by
  unfold startAmongIntegers at start
  dsimp only at start
  split at start
  next met =>
    cases start
    rw [whole_eq_pow] at met
    exact ⟨fun large => Int.cast_nonneg (nearbyInteger_nonneg degree large), met⟩
  next => cases start

theorem startAmongIntegers_approximate {x : ℚ}
    (start : startAmongIntegers radicand degree = .approximate x) : 0 < x := by
  unfold startAmongIntegers at start
  dsimp only at start
  split at start
  next => cases start
  next =>
    cases start
    split
    · exact one_pos
    · positivity

theorem wellPosed_rootProblem (a : Accuracy) (nonzero : radicand ≠ 0) (proper : 0 < degree)
    (scaled : 0 < a.scale) (radix : 0 < a.radix) : (rootProblem a radicand degree).WellPosed where
  magnitude := by simpa [rootProblem, abs_eq] using nonzero
  degree := proper
  tolerance := by
    simpa [rootProblem, Rat.mkRat_eq_div] using scaled
  grid := by
    have scale : (a.scale : ℚ) ≠ 0 := Nat.cast_ne_zero.mpr scaled.ne'
    have many : (1 : ℚ) ≤ a.radix := Nat.one_le_cast.mpr radix
    have points : (rootProblem a radicand degree).tolerance * (rootProblem a radicand degree).grid =
        a.radix * degree := by
      simp only [rootProblem, Rat.mkRat_eq_div]
      push_cast
      field_simp
    rw [points]
    exact le_mul_of_one_le_left (Nat.cast_nonneg _) many

/-- The root of a radicand that has one is accurate. -/
theorem isRootOf_root (a : Accuracy) (radicand : ℚ) (degree : ℕ) (proper : 0 < degree)
    (scaled : 0 < a.scale) (radix : 0 < a.radix) (real : radicand < 0 → Odd degree) :
    IsRootOf radicand degree (mkRat 1 a.scale) (root a radicand degree) := by
  have tolerated : 0 ≤ mkRat 1 a.scale := by simp [Rat.mkRat_eq_div]
  have newton {start : ℚ} (nonzero : radicand ≠ 0) (startPositive : 0 < start) :=
    isRootOf_of_newton nonzero (abs_eq radicand)
      ((wellPosed_rootProblem a nonzero proper scaled radix).isRoot_solve startPositive)
  dsimp only [root]
  by_cases small : radicand.abs < 1
  · rw [if_pos small]
    cases start : startBelowOne radicand.abs degree a.scale with
    | exact x =>
      obtain ⟨nonneg, met⟩ := startBelowOne_exact start
      exact isRootOf_of_grid tolerated proper nonneg (met.trans (abs_eq radicand))
    | approximate x =>
      obtain ⟨magnitude, startPositive⟩ :=
        startBelowOne_approximate Rat.abs_nonneg proper scaled start
      rw [abs_eq, abs_pos] at magnitude
      exact newton magnitude startPositive
  · rw [if_neg small]
    rw [abs_eq, not_lt] at small
    cases start : startAmongIntegers radicand degree with
    | exact x =>
      obtain ⟨nonneg, met⟩ := startAmongIntegers_exact start
      refine isRootOf_of_integer tolerated proper (fun notNegative => nonneg ?_) real met
      rwa [abs_of_nonneg notNegative] at small
    | approximate x =>
      have nonzero : radicand ≠ 0 := abs_pos.mp (zero_lt_one.trans_le small)
      exact newton nonzero (startAmongIntegers_approximate start)

/-- A power with a fractional exponent is accurate to one place more than the precision. With `R`
for the number whose root it is, it has the sign of `R`, and its magnitude is at or above the root
of the magnitude of `R` by no more than one unit of that place. -/
theorem root_accuracy (precision radix : ℕ) (base exponent y : ℚ) (digits : 2 ≤ radix)
    (fractional : 2 ≤ exponent.den)
    (success : power (.shown precision radix) base exponent = .ok y) :
    let R : ℚ := (if exponent < 0 then base⁻¹ else base) ^ exponent.num.natAbs
    SignType.sign y = SignType.sign R ∧ |R| ≤ |y| ^ exponent.den ∧
      max (|y| - 1 / radix ^ (precision + 1)) 0 ^ exponent.den ≤ |R| ∧
      ∀ root : ℝ, 0 ≤ root → root ^ exponent.den = |(R : ℝ)| →
        root ≤ |(y : ℝ)| ∧ |(y : ℝ)| ≤ root + 1 / radix ^ (precision + 1) := by
  intro R
  have isRadicand : radicand base exponent = R := whole_eq_pow _ _
  have scale : (Accuracy.shown precision radix).scale = radix ^ (precision + 1) := rfl
  unfold power at success
  rw [isRadicand, if_neg (by omega : exponent.den ≠ 1)] at success
  split at success
  next => cases success
  split at success
  next => cases success
  next real =>
    cases success
    have found := isRootOf_root (.shown precision radix) R exponent.den (by omega)
      (scale ▸ Nat.pow_pos (by omega)) (by change 0 < radix; omega) fun negative =>
        Nat.not_even_iff_odd.mp fun even => real ⟨negative, Nat.even_iff.mp even⟩
    rw [Rat.mkRat_eq_div, scale] at found
    push_cast at found
    refine ⟨found.sign, found.above, found.within, fun root nonneg isRoot => ?_⟩
    simpa using found.near (by omega) nonneg isRoot

/-- The cube root of minus three, in binary and to two places. -/
theorem root_accuracy_cube_root :
    power (.shown 1 2) (-3) (mkRat 1 3) = .ok (mkRat (-331) 225) ∧
      SignType.sign (mkRat (-331) 225) = SignType.sign ((-3 : ℚ) ^ 1) ∧
      |(-3 : ℚ) ^ 1| ≤ |mkRat (-331) 225| ^ 3 ∧
      max (|mkRat (-331) 225| - 1 / 2 ^ 2) 0 ^ 3 ≤ |(-3 : ℚ) ^ 1| := by
  have evaluated : power (.shown 1 2) (-3) (mkRat 1 3) = .ok (mkRat (-331) 225) := by
    decide +kernel
  have accurate := root_accuracy 1 2 (-3) (mkRat 1 3) (mkRat (-331) 225) (by decide) (by decide)
    evaluated
  have notInverted : ¬mkRat 1 3 < 0 := by decide
  rw [if_neg notInverted] at accurate
  exact ⟨evaluated, accurate.1, accurate.2.1, accurate.2.2.1⟩

end ExactCalc.Power
