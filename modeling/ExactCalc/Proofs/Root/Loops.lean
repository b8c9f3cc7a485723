import Mathlib.Computability.StateTransition
import ExactCalc.Proofs.Root.Divisors
import ExactCalc.Proofs.Root.Ways

/-!
# The searches for a root end

Three loops look for a root: the bisection of the grid, the search among the integers, and Newton's
method. Each is given here by its rounds. The first two narrow an interval in every round. The
third steps from the start to grid points at or above the root, each lower than the one before. So
all of them end, and with what the calculator answers.
-/
namespace ExactCalc.Power

open StateTransition

/-- A loop that has made a round ends where it ends after the round. -/
theorem mem_eval_of_round {σ : Type} {round : σ → Option σ} {first next last : σ}
    (made : round first = some next) (ends : last ∈ eval round next) : last ∈ eval round first := by
  rwa [reaches_eval (Relation.ReflTransGen.single made)]

/-- A loop ends where it makes no round. -/
theorem mem_eval_of_none {σ : Type} {round : σ → Option σ} {last : σ}
    (stops : round last = none) : last ∈ eval round last :=
  mem_eval.mpr ⟨.refl, stops⟩

/-- One interval is a proper part of another. -/
structure Narrower (inner outer : ℤ × ℤ) : Prop where
  lower : outer.1 ≤ inner.1
  ordered : inner.1 ≤ inner.2
  upper : inner.2 ≤ outer.2
  shorter : inner.2 - inner.1 < outer.2 - outer.1

/-- Every round of a loop narrows its interval, and the loop ends. -/
structure NarrowsTo {σ : Type} (round : σ → Option σ) (interval : σ → ℤ × ℤ) (first last : σ) :
    Prop where
  narrower : ∀ s, ∀ t ∈ round s, Narrower (interval t) (interval s)
  ends : last ∈ eval round first

/-- A round of the bisection of the grid: the middle takes the place of the end that is on its side
of the root. -/
def bisectRound (magnitude : Rat) (degree scale : Nat) (ends : Nat × Nat) : Option (Nat × Nat) :=
  if ends.2 - ends.1 ≤ 1 then none
  else
    let middle := (ends.1 + ends.2) / 2
    if atMostRoot magnitude degree scale middle then some (middle, ends.2)
    else some (ends.1, middle)

theorem bisectRound_narrower (magnitude : Rat) (degree scale : Nat) (s : Nat × Nat) :
    ∀ t ∈ bisectRound magnitude degree scale s,
      Narrower ((t.1 : ℤ), (t.2 : ℤ)) ((s.1 : ℤ), (s.2 : ℤ)) := by
  intro t made
  unfold bisectRound at made
  split at made
  next => cases made
  dsimp only at made
  split at made <;> cases made <;> constructor <;> dsimp only <;> omega

theorem mem_eval_bisectRound (magnitude : Rat) (degree scale lower upper : Nat) :
    ∃ above, (bisect magnitude degree scale lower upper, above) ∈
      eval (bisectRound magnitude degree scale) (lower, upper) := by
  fun_induction bisect magnitude degree scale lower upper with
  | case1 lower upper narrow => exact ⟨upper, mem_eval_of_none (if_pos narrow)⟩
  | case2 lower upper wide middle below ih =>
    obtain ⟨above, ends⟩ := ih
    exact ⟨above, mem_eval_of_round ((if_neg wide).trans (if_pos below)) ends⟩
  | case3 lower upper wide middle notBelow ih =>
    obtain ⟨above, ends⟩ := ih
    exact ⟨above, mem_eval_of_round ((if_neg wide).trans (if_neg notBelow)) ends⟩

/-- The search among the integers before a round: its interval, whether the lower end was moved
last, and the error at the end that was moved. -/
structure Narrowing where
  lower : Int
  upper : Int
  rising : Bool
  last : Rat
  deriving DecidableEq, Repr

namespace Narrowing

def interval (s : Narrowing) : ℤ × ℤ := (s.lower, s.upper)

/-- The search after its first comparison, of the middle with the integer after it. -/
def first (error : Int → Rat) (lower upper : Int) : Narrowing :=
  let middle := (upper - lower) / 2 + lower
  if error (middle + 1) < error middle then ⟨middle + 1, upper, true, error (middle + 1)⟩
  else ⟨lower, middle, false, error middle⟩

/-- A round of the search: the middle takes the place of the lower end if its error is less and the
lower end was moved last, or neither; otherwise of the upper end. -/
def round (error : Int → Rat) (s : Narrowing) : Option Narrowing :=
  if s.upper - s.lower ≤ 1 then none
  else
    let middle := (s.upper - s.lower) / 2 + s.lower
    if s.rising = decide (error middle < s.last) then some ⟨middle, s.upper, true, error middle⟩
    else some ⟨s.lower, middle, false, error middle⟩

theorem first_narrower (error : Int → Rat) {lower upper : Int} (ordered : lower < upper) :
    Narrower (first error lower upper).interval (lower, upper) := by
  dsimp only [first]
  split <;> constructor <;> dsimp only [interval] <;> omega

theorem round_narrower (error : Int → Rat) (s : Narrowing) :
    ∀ t ∈ s.round error, Narrower t.interval s.interval := by
  intro t made
  unfold round at made
  split at made
  next => cases made
  dsimp only at made
  split at made <;> cases made <;> constructor <;> dsimp only [interval] <;> omega

theorem mem_eval_round (error : Int → Rat) (s : Narrowing) :
    ∃ last ∈ eval (round error) s,
      narrow error s.lower s.upper s.rising s.last = last.interval := by
  obtain ⟨lower, upper, rising, last⟩ := s
  dsimp only
  fun_induction narrow error lower upper rising last with
  | case1 lower upper rising last narrow =>
    exact ⟨_, mem_eval_of_none (if_pos narrow), rfl⟩
  | case2 lower upper last wide middle errorThere ih =>
    obtain ⟨final, ends, found⟩ := ih
    exact ⟨final, mem_eval_of_round ((if_neg wide).trans (if_pos rfl)) ends, found⟩
  | case3 lower upper rising last wide middle errorThere turned ih =>
    obtain ⟨final, ends, found⟩ := ih
    exact ⟨final, mem_eval_of_round ((if_neg wide).trans (if_neg turned)) ends, found⟩

end Narrowing

namespace RootProblem

/-- A round of Newton's method: the grid point at or above the step, unless the step is accepted. -/
def round (p : RootProblem) (x : Rat) : Option Rat :=
  if p.accepts (p.improve x) then none else some (mkRat (p.gridCeiling (p.improve x)) p.grid)

/-- A point of the grid at or above the root. -/
structure Above (p : RootProblem) (x : ℚ) : Prop where
  onGrid : ∃ point : ℕ, x = mkRat point p.grid
  pos : 0 < x
  above : p.magnitude ≤ x ^ p.degree

/-- After the first round all numbers are grid points at or above the root, each lower than the one
before, no step divides by zero, and the loop ends. -/
structure DescendsTo (p : RootProblem) (start y : ℚ) : Prop where
  pos : 0 < start
  above : ∀ x, Reaches₁ p.round start x → p.Above x
  lower : ∀ x, Reaches₁ p.round start x → ∀ next ∈ p.round x, next < x
  divisors : ∀ x, Reaches p.round start x → ∀ d ∈ p.stepDivisors x, d ≠ 0
  ends : ∃ x ∈ eval p.round start, p.improve x = y

namespace WellPosed

variable {p : RootProblem} {x next start : ℚ}

theorem above_of_round (wellPosed : p.WellPosed) (positive : 0 < x) (made : next ∈ p.round x) :
    p.Above next := by
  have steps := wellPosed.improve_pos positive
  unfold round at made
  split at made <;> cases made
  exact ⟨⟨_, rfl⟩, steps.trans_le (wellPosed.le_gridCeiling _),
    wellPosed.magnitude_le_gridCeiling_pow steps (wellPosed.magnitude_le_improve_pow positive)⟩

/-- One round from a grid point at or above the root leads to a lower one. -/
theorem lt_of_round (wellPosed : p.WellPosed) (above : p.Above x) (made : next ∈ p.round x) :
    next < x := by
  obtain ⟨⟨point, rfl⟩, positive, above⟩ := above
  unfold round at made
  split at made <;> cases made
  next refused =>
    have lower := wellPosed.gridCeiling_improve_lt positive above refused
    rw [Rat.mkRat_eq_div, Rat.mkRat_eq_div]
    exact div_lt_div_of_pos_right (by exact_mod_cast lower) wellPosed.grid_pos

/-- Any number of rounds from a positive start, but at least one. -/
theorem above_of_reaches (wellPosed : p.WellPosed) (positive : 0 < start)
    (reached : Reaches₁ p.round start x) : p.Above x := by
  induction reached with
  | single made => exact wellPosed.above_of_round positive made
  | tail _ made ih => exact wellPosed.above_of_round ih.pos made

theorem mem_eval_descend (wellPosed : p.WellPosed) (point : ℕ)
    (above : p.Above (mkRat point p.grid)) :
    ∃ x ∈ eval p.round (mkRat point p.grid), p.improve x = p.descend point := by
  fun_induction p.descend point with
  | case1 point step accepted => exact ⟨_, mem_eval_of_none (if_pos accepted), rfl⟩
  | case2 point step refused lower ih =>
    have made : p.round (mkRat point p.grid) = some (mkRat (p.gridCeiling step) p.grid) :=
      if_neg refused
    obtain ⟨x, ends, found⟩ := ih (wellPosed.above_of_round above.pos made)
    exact ⟨x, mem_eval_of_round made ends, found⟩
  | case3 point step refused notLower =>
    exact absurd (wellPosed.gridCeiling_improve_lt above.pos above.above refused) notLower

/-- From any positive start Newton's method descends to what the calculator takes for the root. -/
theorem descendsTo_solve (wellPosed : p.WellPosed) (positive : 0 < start) :
    p.DescendsTo start (p.solve start) := by
  refine ⟨positive, fun x => wellPosed.above_of_reaches positive,
    fun x reached next => wellPosed.lt_of_round (wellPosed.above_of_reaches positive reached),
    fun x reached d member => ?_, ?_⟩
  · have positiveThere : 0 < x := by
      rcases Relation.reflTransGen_iff_eq_or_transGen.mp reached with rfl | later
      · exact positive
      · exact (wellPosed.above_of_reaches positive later).pos
    exact (wellPosed.stepDivisors_pos positiveThere d member).ne'
  · by_cases accepted : p.accepts (p.improve start) = true
    · exact ⟨start, mem_eval_of_none (if_pos accepted), (if_pos accepted).symm⟩
    · have made : p.round start = some (mkRat (p.gridCeiling (p.improve start)) p.grid) :=
        if_neg accepted
      obtain ⟨x, ends, found⟩ :=
        wellPosed.mem_eval_descend _ (wellPosed.above_of_round positive made)
      exact ⟨x, mem_eval_of_round made ends, found.trans (if_neg accepted).symm⟩

end WellPosed
end RootProblem

/-- The end of the interval with the smaller error, and the lower one if there is none. -/
def Narrowing.better (error : Int → Rat) (s : Narrowing) : Int :=
  if s.lower = s.upper ∨ error s.upper < error s.lower then s.upper else s.lower

/-- The interval in which an integer near the root is looked for. -/
def bounds (radicand : Rat) : ℤ × ℤ :=
  if radicand < 0 then (truncate radicand, 0) else (0, truncate radicand)

variable {radicand : ℚ} {degree : ℕ}

theorem bounds_lt (large : 1 ≤ |radicand|) : (bounds radicand).1 < (bounds radicand).2 := by
  unfold bounds
  split
  next negative =>
    rw [abs_of_neg negative] at large
    have below := one_le_truncate large
    rw [truncate_neg] at below
    dsimp only
    omega
  next notNegative =>
    rw [abs_of_nonneg (not_lt.mp notNegative)] at large
    exact one_le_truncate large

theorem Narrowing.startNarrowing_eq (error : Int → Rat) (lower upper : Int) :
    startNarrowing error lower upper =
      narrow error (first error lower upper).lower (first error lower upper).upper
        (first error lower upper).rising (first error lower upper).last := by
  dsimp only [startNarrowing, first]
  split <;> rfl

/-- The integer near the root is the better end of the interval to which the search narrows. -/
theorem nearbyInteger_eq (radicand : ℚ) (degree : ℕ) :
    ∃ last ∈ eval (Narrowing.round (powerError radicand degree))
        (Narrowing.first (powerError radicand degree) (bounds radicand).1 (bounds radicand).2),
      nearbyInteger radicand degree = last.better (powerError radicand degree) := by
  obtain ⟨last, ends, found⟩ := Narrowing.mem_eval_round (powerError radicand degree)
    (Narrowing.first (powerError radicand degree) (bounds radicand).1 (bounds radicand).2)
  rw [← Narrowing.startNarrowing_eq] at found
  have same : (if radicand < 0
      then startNarrowing (powerError radicand degree) (truncate radicand) 0
      else startNarrowing (powerError radicand degree) 0 (truncate radicand)) = last.interval := by
    rw [← found, bounds]
    split <;> rfl
  refine ⟨last, ends, ?_⟩
  dsimp only [nearbyInteger]
  rw [same]
  rfl

variable {a : Accuracy}

section Searches

variable (proper : 0 < degree) (scaled : 0 < a.scale) (radix : 0 < a.radix)

include proper scaled radix

/-- The root of a radicand below one: the bisection ends with a grid point that is the root or comes
just before the start of Newton's method. -/
theorem root_below_one (small : |radicand| < 1) :
    ∃ below above, (below, above) ∈ eval (bisectRound |radicand| degree a.scale) (0, a.scale) ∧
      (mkRat below a.scale ^ degree = |radicand| ∧
          root a radicand degree = (if radicand < 0 then -1 else 1) * mkRat below a.scale ∨
        ∃ x, (rootProblem a radicand degree).DescendsTo (mkRat (below + 1) a.scale) x ∧
          root a radicand degree = (if radicand < 0 then -1 else 1) * x) := by
  obtain ⟨above, ends⟩ := mem_eval_bisectRound |radicand| degree a.scale 0 a.scale
  refine ⟨gridFloor |radicand| degree a.scale, above, ends, ?_⟩
  rw [← abs_eq] at small ⊢
  by_cases met : mkRat (gridFloor radicand.abs degree a.scale) a.scale ^ degree = radicand.abs
  · have start : startBelowOne radicand.abs degree a.scale = .exact _ :=
      if_pos ((whole_eq_pow _ _).trans met)
    refine .inl ⟨met, ?_⟩
    simp only [root, if_pos small, start]
  · have start : startBelowOne radicand.abs degree a.scale = .approximate _ :=
      if_neg fun exact => met ((whole_eq_pow _ _).symm.trans exact)
    obtain ⟨magnitude, positive⟩ := startBelowOne_approximate Rat.abs_nonneg proper scaled start
    rw [abs_eq, abs_pos] at magnitude
    have wellPosed := wellPosed_rootProblem a magnitude proper scaled radix
    refine .inr ⟨_, wellPosed.descendsTo_solve positive, ?_⟩
    simp only [root, if_pos small, start]

/-- The root of any other radicand: the search among the integers ends with one that is the root or
from whose magnitude Newton's method starts. -/
theorem root_from_one (large : 1 ≤ |radicand|) :
    ∃ last ∈ eval (Narrowing.round (powerError radicand degree))
        (Narrowing.first (powerError radicand degree) (bounds radicand).1 (bounds radicand).2),
      let guess := last.better (powerError radicand degree)
      (guess : ℚ) ^ degree = radicand ∧ root a radicand degree = guess ∨
        ∃ x, (rootProblem a radicand degree).DescendsTo (max |(guess : ℚ)| 1) x ∧
          root a radicand degree = (if radicand < 0 then -1 else 1) * x := by
  obtain ⟨last, ends, found⟩ := nearbyInteger_eq radicand degree
  refine ⟨last, ends, ?_⟩
  rw [← found]
  by_cases met : (nearbyInteger radicand degree : ℚ) ^ degree = radicand
  · exact .inl ⟨met, root_eq_nearbyInteger large met⟩
  · have nonzero : radicand ≠ 0 := abs_pos.mp (zero_lt_one.trans_le large)
    have wellPosed := wellPosed_rootProblem a nonzero proper scaled radix
    have positive : 0 < max |(nearbyInteger radicand degree : ℚ)| 1 :=
      zero_lt_one.trans_le (le_max_right _ _)
    exact .inr ⟨_, wellPosed.descendsTo_solve positive, root_eq_solve large met⟩

end Searches

/-- Each loop that looks for a root ends. The bisection and the search among the integers narrow
their intervals in every round. After its first round Newton's method only meets points of its grid
at or above the root, and each is lower than the one before. Nothing on the way divides by zero. -/
theorem root_finding_ends (precision radix : ℕ) (base exponent y : ℚ) (digits : 2 ≤ radix)
    (fractional : 2 ≤ exponent.den)
    (success : power (.shown precision radix) base exponent = .ok y) :
    let R : ℚ := (if exponent < 0 then base⁻¹ else base) ^ exponent.num.natAbs
    let d := exponent.den
    let scale := radix ^ (precision + 1)
    let sign : ℚ := if R < 0 then -1 else 1
    let newton : RootProblem := ⟨|R|, d, 1 / scale, scale * radix * d⟩
    (∀ δ ∈ divisors (.shown precision radix) base exponent, δ ≠ 0) ∧
      (|R| < 1 → ∃ below above,
        NarrowsTo (bisectRound |R| d scale) (fun s => (↑s.1, ↑s.2)) (0, scale) (below, above) ∧
          (mkRat below scale ^ d = |R| ∧ y = sign * mkRat below scale ∨
            ∃ x, newton.DescendsTo (mkRat (below + 1) scale) x ∧ y = sign * x)) ∧
      (1 ≤ |R| → ∃ first last,
        first = Narrowing.first (powerError R d) (bounds R).1 (bounds R).2 ∧
          Narrower first.interval (bounds R) ∧
          NarrowsTo (Narrowing.round (powerError R d)) Narrowing.interval first last ∧
          (let guess : ℚ := last.better (powerError R d)
           guess ^ d = R ∧ y = guess ∨
            ∃ x, newton.DescendsTo (max |guess| 1) x ∧ y = sign * x)) := by
  intro R d scale sign newton
  have isRoot : y = root (.shown precision radix) R d := root_of_power fractional success
  have proper : 0 < d := by omega
  have someRadix : 0 < (Accuracy.shown precision radix).radix := by change 0 < radix; omega
  have scaled : 0 < (Accuracy.shown precision radix).scale := Nat.pow_pos someRadix
  have isNewton : rootProblem (.shown precision radix) R d = newton := by
    have unit : mkRat 1 (Accuracy.shown precision radix).scale = 1 / (scale : ℚ) := by
      rw [Rat.mkRat_eq_div, Int.cast_one]
      rfl
    rw [rootProblem, abs_eq, unit]
    rfl
  refine ⟨divisors_ne_zero scaled someRadix base exponent, fun small => ?_, fun large => ?_⟩
  · obtain ⟨below, above, ends, found⟩ := root_below_one proper scaled someRadix small
    rw [← isRoot, isNewton] at found
    exact ⟨below, above, ⟨bisectRound_narrower _ _ _, ends⟩, found⟩
  · obtain ⟨last, ends, found⟩ := root_from_one proper scaled someRadix large
    rw [← isRoot, isNewton] at found
    exact ⟨_, last, rfl, Narrowing.first_narrower _ (bounds_lt large),
      ⟨Narrowing.round_narrower _, ends⟩, found⟩

/-- For the cube root of minus three, in binary and to two places, the search among the integers
stops after its first comparison, with minus one; Newton's method starts from one. -/
theorem root_finding_ends_cube_root :
    power (.shown 1 2) (-3) (mkRat 1 3) = .ok (mkRat (-331) 225) ∧
      ∃ x, (⟨3, 3, 1 / 4, 24⟩ : RootProblem).DescendsTo 1 x ∧ mkRat (-331) 225 = -1 * x := by
  have evaluated : power (.shown 1 2) (-3) (mkRat 1 3) = .ok (mkRat (-331) 225) := by
    decide +kernel
  have ends := root_finding_ends 1 2 (-3) (mkRat 1 3) (mkRat (-331) 225) (by decide) (by decide)
    evaluated
  have radicand : (if mkRat 1 3 < 0 then (-3 : ℚ)⁻¹ else -3) ^ (mkRat 1 3).num.natAbs = -3 := by
    decide +kernel
  have degree : (mkRat 1 3).den = 3 := by decide
  have magnitude : |(-3 : ℚ)| = 3 := by norm_num
  rw [radicand, degree] at ends
  have begins : Narrowing.first (powerError (-3) 3) (bounds (-3)).1 (bounds (-3)).2 =
      ⟨-1, 0, true, 2⟩ := by decide +kernel
  obtain ⟨_, last, rfl, -, ⟨-, stops⟩, found⟩ := ends.2.2 (by rw [magnitude]; norm_num)
  rw [begins] at stops
  have isLast : last = ⟨-1, 0, true, 2⟩ := Part.mem_unique stops (mem_eval_of_none rfl)
  rw [isLast, magnitude] at found
  have better : Narrowing.better (powerError (-3) 3) ⟨-1, 0, true, 2⟩ = -1 := by decide +kernel
  rw [better] at found
  refine ⟨evaluated, ?_⟩
  rcases found with ⟨exact, -⟩ | ⟨x, descends, value⟩
  · norm_num at exact
  · have negative : (-3 : ℚ) < 0 := by norm_num
    rw [if_pos negative] at value
    norm_num at descends
    exact ⟨x, descends, value⟩

end ExactCalc.Power
