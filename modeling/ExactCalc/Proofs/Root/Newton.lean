import Mathlib.Algebra.Order.Ring.Pow
import Mathlib.Data.Rat.Cast.Order
import Mathlib.Tactic.FieldSimp
import Mathlib.Tactic.GCongr
import Mathlib.Tactic.Linarith
import Mathlib.Tactic.Positivity
import Mathlib.Tactic.Ring
import ExactCalc.Power.Newton

/-!
# Newton steps bracket the root

A Newton step lands at or above the root from any positive number, by Bernoulli's inequality. From
there on the partner of a step lies at or below the root, so that a step that is accepted is
within the tolerance. Steps that are not accepted descend by more than one grid point, so that the
search ends with a step that is.
-/
namespace ExactCalc.Power.RootProblem

/-- Bernoulli's inequality is strict from the second power on, other than at one. -/
theorem one_add_mul_sub_lt_pow {x : ℚ} {n : ℕ} (nonneg : 0 ≤ x) (moved : x ≠ 1) (proper : 2 ≤ n) :
    1 + n * (x - 1) < x ^ n := by
  obtain ⟨n, rfl⟩ := Nat.exists_eq_add_of_le' proper
  have bernoulli : 1 + ((n + 1 : ℕ) : ℚ) * (x - 1) ≤ x ^ (n + 1) :=
    one_add_mul_sub_le_pow (by linarith) _
  have square : 0 < ((n + 1 : ℕ) : ℚ) * (x - 1) ^ 2 :=
    mul_pos (by positivity) (sq_pos_of_ne_zero (sub_ne_zero.mpr moved))
  calc 1 + ((n + 2 : ℕ) : ℚ) * (x - 1)
      < x * (1 + ((n + 1 : ℕ) : ℚ) * (x - 1)) := by push_cast at square ⊢; linarith
    _ ≤ x * x ^ (n + 1) := mul_le_mul_of_nonneg_left bernoulli nonneg
    _ = x ^ (n + 2) := (pow_succ' x (n + 1)).symm

/-- What a search for a root can work with: a positive magnitude, and a grid that has at least as
many points within the tolerance as the degree says. -/
structure WellPosed (p : RootProblem) : Prop where
  magnitude : 0 < p.magnitude
  degree : 0 < p.degree
  tolerance : 0 < p.tolerance
  grid : (p.degree : ℚ) ≤ p.tolerance * p.grid

/-- The number `y` is at or above the root of the magnitude by no more than the tolerance. -/
structure IsRoot (p : RootProblem) (y : ℚ) : Prop where
  pos : 0 < y
  above : p.magnitude ≤ y ^ p.degree
  within : max (y - p.tolerance) 0 ^ p.degree ≤ p.magnitude

theorem partner_mul (p : RootProblem) {x : ℚ} (positive : 0 < x) :
    p.partner x * x ^ (p.degree - 1) = p.magnitude := by
  have power : x ^ (p.degree - 1) ≠ 0 := (pow_pos positive _).ne'
  rw [partner, div_mul_cancel₀ _ power]

namespace WellPosed

variable {p : RootProblem} {x : ℚ}

theorem pow_degree (wellPosed : p.WellPosed) (x : ℚ) :
    x ^ p.degree = x * x ^ (p.degree - 1) := by
  rw [← pow_succ', Nat.sub_add_cancel wellPosed.degree]

theorem degree_ne_zero (wellPosed : p.WellPosed) : (p.degree : ℚ) ≠ 0 :=
  Nat.cast_ne_zero.mpr wellPosed.degree.ne'

theorem partner_pos (wellPosed : p.WellPosed) (positive : 0 < x) : 0 < p.partner x :=
  div_pos wellPosed.magnitude (pow_pos positive _)

/-- A Newton step goes a part of the way from `x` to its partner, one over the degree. -/
theorem improve_eq (wellPosed : p.WellPosed) (positive : 0 < x) :
    p.improve x = x - (x - p.partner x) / p.degree := by
  have degree := wellPosed.degree_ne_zero
  have power : x ^ (p.degree - 1) ≠ 0 := (pow_pos positive _).ne'
  rw [improve, partner, wellPosed.pow_degree, Nat.cast_sub wellPosed.degree]
  field_simp
  ring

theorem improve_pos (wellPosed : p.WellPosed) (positive : 0 < x) : 0 < p.improve x := by
  have degree : (0 : ℚ) < p.degree := Nat.cast_pos.mpr wellPosed.degree
  have magnitude := wellPosed.magnitude
  unfold improve
  positivity

/-- A step, as a multiple of the number it is made from, is to one as Bernoulli's inequality has it
for the ratio of the magnitude and the number's power. -/
theorem one_add_improve_ratio (wellPosed : p.WellPosed) (positive : 0 < x) :
    1 + p.degree * (p.improve x / x - 1) = p.magnitude / x ^ p.degree := by
  have degree := wellPosed.degree_ne_zero
  rw [wellPosed.improve_eq positive, wellPosed.pow_degree, ← partner_mul p positive]
  field_simp
  ring

/-- From any positive number a Newton step lands at or above the root. -/
theorem magnitude_le_improve_pow (wellPosed : p.WellPosed) (positive : 0 < x) :
    p.magnitude ≤ p.improve x ^ p.degree := by
  have power : 0 < x ^ p.degree := pow_pos positive _
  have bernoulli : 1 + p.degree * (p.improve x / x - 1) ≤ (p.improve x / x) ^ p.degree := by
    refine one_add_mul_sub_le_pow ?_ _
    have := div_pos (wellPosed.improve_pos positive) positive
    linarith
  rw [wellPosed.one_add_improve_ratio positive, div_pow] at bernoulli
  exact (div_le_div_iff_of_pos_right power).mp bernoulli

/-- From a positive number that is not the root a Newton step lands above the root. -/
theorem magnitude_lt_improve_pow (wellPosed : p.WellPosed) (proper : 2 ≤ p.degree)
    (positive : 0 < x) (other : x ^ p.degree ≠ p.magnitude) :
    p.magnitude < p.improve x ^ p.degree := by
  have power : 0 < x ^ p.degree := pow_pos positive _
  have ratio := wellPosed.one_add_improve_ratio positive
  have moved : p.improve x / x ≠ 1 := by
    intro still
    rw [still, sub_self, mul_zero, add_zero, eq_div_iff power.ne', one_mul] at ratio
    exact other ratio
  have bernoulli := one_add_mul_sub_lt_pow (div_pos (wellPosed.improve_pos positive) positive).le
    moved proper
  rw [ratio, div_pow] at bernoulli
  exact (div_lt_div_iff_of_pos_right power).mp bernoulli

/-- The partner of a number at or above the root is not above it. -/
theorem partner_le (wellPosed : p.WellPosed) (positive : 0 < x)
    (above : p.magnitude ≤ x ^ p.degree) : p.partner x ≤ x := by
  rw [partner, div_le_iff₀ (pow_pos positive _), ← wellPosed.pow_degree]
  exact above

/-- A number at or above the root that is accepted is the root within the tolerance. -/
theorem isRoot_of_accepts (wellPosed : p.WellPosed) (positive : 0 < x)
    (above : p.magnitude ≤ x ^ p.degree) (accepted : p.accepts x = true) : p.IsRoot x := by
  refine ⟨positive, above, ?_⟩
  have bracket : x - p.partner x ≤ p.tolerance := of_decide_eq_true accepted
  have lower : max (x - p.tolerance) 0 ≤ p.partner x :=
    max_le (by linarith) (wellPosed.partner_pos positive).le
  have upper : max (x - p.tolerance) 0 ≤ x :=
    lower.trans (wellPosed.partner_le positive above)
  have nonneg : 0 ≤ max (x - p.tolerance) 0 := le_max_right _ _
  calc max (x - p.tolerance) 0 ^ p.degree
      = max (x - p.tolerance) 0 * max (x - p.tolerance) 0 ^ (p.degree - 1) := by
        exact wellPosed.pow_degree _
    _ ≤ p.partner x * x ^ (p.degree - 1) := by
        have := (wellPosed.partner_pos positive).le
        gcongr
    _ = p.magnitude := partner_mul p positive

theorem grid_pos (wellPosed : p.WellPosed) : (0 : ℚ) < p.grid := by
  have degree : (0 : ℚ) < p.degree := Nat.cast_pos.mpr wellPosed.degree
  exact pos_of_mul_pos_right (degree.trans_le wellPosed.grid) wellPosed.tolerance.le

theorem le_gridCeiling (wellPosed : p.WellPosed) (x : ℚ) :
    x ≤ mkRat (p.gridCeiling x) p.grid := by
  have ceiling : x * p.grid ≤ (p.gridCeiling x : ℤ) :=
    Rat.le_ceil.trans (Int.cast_le.mpr (Int.self_le_toNat _))
  rw [Rat.mkRat_eq_div]
  exact (le_div_iff₀ wellPosed.grid_pos).mpr ceiling

/-- Rounding up to the grid stays at or above the root. -/
theorem magnitude_le_gridCeiling_pow (wellPosed : p.WellPosed) (positive : 0 < x)
    (above : p.magnitude ≤ x ^ p.degree) :
    p.magnitude ≤ mkRat (p.gridCeiling x) p.grid ^ p.degree :=
  above.trans (pow_le_pow_left₀ positive.le (wellPosed.le_gridCeiling x) _)

/-- The bracket of a step is no wider than that of the number from which the step was made. -/
theorem bracket_improve_le (wellPosed : p.WellPosed) (positive : 0 < x)
    (above : p.magnitude ≤ x ^ p.degree) :
    p.improve x - p.partner (p.improve x) ≤ x - p.partner x := by
  have degree : (0 : ℚ) < p.degree := Nat.cast_pos.mpr wellPosed.degree
  have steps := wellPosed.improve_pos positive
  have down : p.improve x ≤ x := by
    rw [wellPosed.improve_eq positive]
    have := div_nonneg (sub_nonneg.mpr (wellPosed.partner_le positive above)) degree.le
    linarith
  have up : p.partner x ≤ p.partner (p.improve x) := by
    have := wellPosed.magnitude.le
    unfold partner
    gcongr
  linarith

/-- A step that is not accepted leads to a lower grid point. -/
theorem gridCeiling_improve_lt (wellPosed : p.WellPosed) {point : ℕ}
    (positive : (0 : ℚ) < mkRat point p.grid)
    (above : p.magnitude ≤ mkRat point p.grid ^ p.degree)
    (refused : ¬p.accepts (p.improve (mkRat point p.grid)) = true) :
    p.gridCeiling (p.improve (mkRat point p.grid)) < point := by
  have degree : (0 : ℚ) < p.degree := Nat.cast_pos.mpr wellPosed.degree
  have onGrid : mkRat point p.grid * p.grid = point := by
    rw [Rat.mkRat_eq_div, Int.cast_natCast, div_mul_cancel₀ _ wellPosed.grid_pos.ne']
  have occupied : (0 : ℚ) < point := by
    rw [← onGrid]
    exact mul_pos positive wellPosed.grid_pos
  rw [Nat.cast_pos] at occupied
  have wide : p.tolerance < mkRat point p.grid - p.partner (mkRat point p.grid) :=
    (not_le.mp fun narrow => refused (decide_eq_true narrow)).trans_le
      (wellPosed.bracket_improve_le positive above)
  have oneDown : 1 ≤ (mkRat point p.grid - p.partner (mkRat point p.grid)) / p.degree * p.grid := by
    rw [div_mul_eq_mul_div, one_le_div degree]
    exact wellPosed.grid.trans (mul_le_mul_of_nonneg_right wide.le wellPosed.grid_pos.le)
  have below : p.improve (mkRat point p.grid) * p.grid ≤ ((point - 1 : ℤ) : ℚ) := by
    rw [wellPosed.improve_eq positive, sub_mul, onGrid]
    push_cast
    linarith
  have ceiling := Rat.ceil_le_iff.mpr below
  unfold gridCeiling
  omega

/-- The descent ends with the root, from any grid point at or above it. -/
theorem isRoot_descend (wellPosed : p.WellPosed) (point : ℕ)
    (positive : (0 : ℚ) < mkRat point p.grid)
    (above : p.magnitude ≤ mkRat point p.grid ^ p.degree) : p.IsRoot (p.descend point) := by
  fun_induction p.descend point with
  | case1 point x accepted =>
    exact wellPosed.isRoot_of_accepts (wellPosed.improve_pos positive)
      (wellPosed.magnitude_le_improve_pow positive) accepted
  | case2 point x refused lower ih =>
    have steps : 0 < x := wellPosed.improve_pos positive
    exact ih (steps.trans_le (wellPosed.le_gridCeiling x))
      (wellPosed.magnitude_le_gridCeiling_pow steps (wellPosed.magnitude_le_improve_pow positive))
  | case3 point x refused notLower =>
    -- The fallback is never taken: on so fine a grid a refused step leads down.
    exact absurd (wellPosed.gridCeiling_improve_lt positive above refused) notLower

/-- The search ends with the root, from any positive start. -/
theorem isRoot_solve (wellPosed : p.WellPosed) {start : ℚ} (positive : 0 < start) :
    p.IsRoot (p.solve start) := by
  have steps := wellPosed.improve_pos positive
  have above := wellPosed.magnitude_le_improve_pow positive
  dsimp only [solve]
  split
  next accepted => exact wellPosed.isRoot_of_accepts steps above accepted
  next refused =>
    exact wellPosed.isRoot_descend _ (steps.trans_le (wellPosed.le_gridCeiling _))
      (wellPosed.magnitude_le_gridCeiling_pow steps above)

/-- The descent from a grid point above the root ends above the root. -/
theorem magnitude_lt_descend_pow (wellPosed : p.WellPosed) (proper : 2 ≤ p.degree) (point : ℕ)
    (positive : (0 : ℚ) < mkRat point p.grid)
    (above : p.magnitude < mkRat point p.grid ^ p.degree) :
    p.magnitude < p.descend point ^ p.degree := by
  fun_induction p.descend point with
  | case1 point x accepted => exact wellPosed.magnitude_lt_improve_pow proper positive above.ne'
  | case2 point x refused lower ih =>
    have steps : 0 < x := wellPosed.improve_pos positive
    have stepsAbove := wellPosed.magnitude_lt_improve_pow proper positive above.ne'
    exact ih (steps.trans_le (wellPosed.le_gridCeiling x))
      (stepsAbove.trans_le (pow_le_pow_left₀ steps.le (wellPosed.le_gridCeiling x) _))
  | case3 point x refused notLower =>
    exact wellPosed.magnitude_lt_improve_pow proper positive above.ne'

/-- From a positive start that is not the root the search ends above the root. -/
theorem magnitude_lt_solve_pow (wellPosed : p.WellPosed) (proper : 2 ≤ p.degree)
    (positive : 0 < x) (other : x ^ p.degree ≠ p.magnitude) :
    p.magnitude < p.solve x ^ p.degree := by
  have steps := wellPosed.improve_pos positive
  have above := wellPosed.magnitude_lt_improve_pow proper positive other
  dsimp only [solve]
  split
  next => exact above
  next =>
    exact wellPosed.magnitude_lt_descend_pow proper _ (steps.trans_le (wellPosed.le_gridCeiling _))
      (above.trans_le (pow_le_pow_left₀ steps.le (wellPosed.le_gridCeiling _) _))

end WellPosed
end ExactCalc.Power.RootProblem
