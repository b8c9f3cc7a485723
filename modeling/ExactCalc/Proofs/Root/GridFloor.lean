import Mathlib.Algebra.Order.Field.Basic
import Mathlib.Data.Rat.Cast.Order
import Mathlib.Data.Rat.Lemmas
import Mathlib.Order.Bounds.Basic
import Mathlib.Tactic.GCongr
import Mathlib.Tactic.Positivity
import ExactCalc.Power.GridFloor

/-!
# The bisection finds the floor of the root

The lower end of the interval is a grid point at or below the root before and after each step, and
the upper end is one above it. Only middles are compared with the root; that the first upper end is
above it holds because the magnitude is below one. So the bisection ends with the last grid point
at or below the root.
-/
namespace ExactCalc.Power

theorem atMostRoot_zero {magnitude : Rat} (degree scale : Nat) (nonneg : 0 ≤ magnitude)
    (proper : 0 < degree) : atMostRoot magnitude degree scale 0 = true := by
  obtain ⟨d, rfl⟩ := Nat.exists_eq_succ_of_ne_zero (Nat.ne_of_gt proper)
  simpa [atMostRoot, Rat.pow_succ] using nonneg

theorem atMostRoot_bisect (magnitude : Rat) (degree scale lower upper : Nat)
    (below : atMostRoot magnitude degree scale lower = true) :
    atMostRoot magnitude degree scale (bisect magnitude degree scale lower upper) = true := by
  fun_induction bisect magnitude degree scale lower upper with
  | case1 => exact below
  | case2 lower upper wide middle moved ih => exact ih moved
  | case3 lower upper wide middle kept ih => exact ih below

/-- The grid point that is found is at or below the root. -/
theorem gridFloor_pow_le {magnitude : Rat} (degree scale : Nat) (nonneg : 0 ≤ magnitude)
    (proper : 0 < degree) :
    mkRat (gridFloor magnitude degree scale) scale ^ degree ≤ magnitude :=
  of_decide_eq_true (atMostRoot_bisect magnitude degree scale 0 scale
    (atMostRoot_zero degree scale nonneg proper))

variable {magnitude : ℚ} {degree scale lower upper : ℕ}

/-- Multiplied out, a grid point is compared with the root in integers. -/
theorem atMostRoot_iff_cross (scaled : 0 < scale) (k : ℕ) :
    atMostRoot magnitude degree scale k = true ↔
      (k : ℤ) ^ degree * magnitude.den ≤ magnitude.num * (scale : ℤ) ^ degree := by
  have points : (0 : ℚ) < (scale : ℚ) ^ degree := pow_pos (Nat.cast_pos.mpr scaled) _
  have denominator : (0 : ℚ) < magnitude.den := Nat.cast_pos.mpr magnitude.den_pos
  have quotient : magnitude = magnitude.num / magnitude.den := (Rat.num_div_den magnitude).symm
  rw [atMostRoot, decide_eq_true_iff, Rat.mkRat_eq_div, div_pow]
  conv_lhs => rw [quotient, Int.cast_natCast, div_le_div_iff₀ points denominator]
  norm_cast

/-- The last point of the grid, which is one, is above the root of a magnitude below one. -/
theorem not_atMostRoot_scale (small : magnitude < 1) (scaled : 0 < scale) :
    ¬atMostRoot magnitude degree scale scale = true := by
  have points : (0 : ℤ) < (scale : ℤ) ^ degree := pow_pos (Int.natCast_pos.mpr scaled) _
  have proper : magnitude.num < magnitude.den := Rat.num_lt_denom_iff.mpr small
  rw [atMostRoot_iff_cross scaled, mul_comm, not_le]
  exact mul_lt_mul_of_pos_right proper points

/-- The root is between two grid points, at or above the lower and below the upper one. -/
structure Straddles (magnitude : ℚ) (degree scale lower upper : ℕ) : Prop where
  ordered : lower < upper
  below : atMostRoot magnitude degree scale lower = true
  above : ¬atMostRoot magnitude degree scale upper = true

namespace Straddles

/-- A middle at or below the root takes the place of the lower end. -/
theorem raise (straddles : Straddles magnitude degree scale lower upper)
    (wide : ¬upper - lower ≤ 1)
    (below : atMostRoot magnitude degree scale ((lower + upper) / 2) = true) :
    Straddles magnitude degree scale ((lower + upper) / 2) upper :=
  ⟨by omega, below, straddles.above⟩

/-- A middle above the root takes the place of the upper end. -/
theorem reduce (straddles : Straddles magnitude degree scale lower upper)
    (wide : ¬upper - lower ≤ 1)
    (above : ¬atMostRoot magnitude degree scale ((lower + upper) / 2) = true) :
    Straddles magnitude degree scale lower ((lower + upper) / 2) :=
  ⟨by omega, straddles.below, above⟩

/-- The bisection ends next to the root, inside the interval. -/
theorem bisect (straddles : Straddles magnitude degree scale lower upper) :
    Straddles magnitude degree scale (Power.bisect magnitude degree scale lower upper)
        (Power.bisect magnitude degree scale lower upper + 1) ∧
      Power.bisect magnitude degree scale lower upper < upper := by
  fun_induction Power.bisect magnitude degree scale lower upper with
  | case1 lower upper narrow =>
    have ordered := straddles.ordered
    have adjacent : upper = lower + 1 := by omega
    exact ⟨adjacent ▸ straddles, ordered⟩
  | case2 lower upper wide middle below ih => exact ih (straddles.raise wide below)
  | case3 lower upper wide middle above ih =>
    have found := ih (straddles.reduce wide above)
    exact ⟨found.1, by omega⟩

end Straddles

section Floor

variable (nonneg : 0 ≤ magnitude) (small : magnitude < 1) (proper : 0 < degree) (scaled : 0 < scale)

include nonneg small proper scaled

/-- The root is between the grid point that is found and the next one, and the grid point that is
found is before the last. -/
theorem straddles_gridFloor :
    Straddles magnitude degree scale (gridFloor magnitude degree scale)
        (gridFloor magnitude degree scale + 1) ∧
      gridFloor magnitude degree scale < scale :=
  Straddles.bisect
    ⟨scaled, atMostRoot_zero degree scale nonneg proper, not_atMostRoot_scale small scaled⟩

/-- The grid point after the one that is found is above the root. -/
theorem lt_gridFloor_succ_pow :
    magnitude < ((gridFloor magnitude degree scale + 1 : ℕ) / scale : ℚ) ^ degree := by
  have above := (straddles_gridFloor nonneg small proper scaled).1.above
  rwa [atMostRoot, decide_eq_true_iff, not_le, Rat.mkRat_eq_div, Int.cast_natCast] at above

/-- Of all grid points at or below the root, the last one is found. -/
theorem isGreatest_gridFloor :
    IsGreatest {k : ℤ | (k / scale : ℚ) ^ degree ≤ magnitude}
      (gridFloor magnitude degree scale) := by
  constructor
  · have below := gridFloor_pow_le degree scale nonneg proper
    rwa [Rat.mkRat_eq_div] at below
  · intro k atMost
    have above := lt_gridFloor_succ_pow nonneg small proper scaled
    by_contra beyond
    have next : ((gridFloor magnitude degree scale + 1 : ℕ) : ℚ) ≤ k := by
      have later : ((gridFloor magnitude degree scale + 1 : ℕ) : ℤ) ≤ k := by omega
      exact_mod_cast later
    have power : ((gridFloor magnitude degree scale + 1 : ℕ) / scale : ℚ) ^ degree ≤
        (k / scale : ℚ) ^ degree := by gcongr
    exact above.not_ge (power.trans atMost)

end Floor

end ExactCalc.Power
