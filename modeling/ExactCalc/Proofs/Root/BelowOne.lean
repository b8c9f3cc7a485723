import Mathlib.Analysis.SpecialFunctions.Pow.Real
import ExactCalc.Proofs.Root.Exponents
import ExactCalc.Proofs.Root.Rounding

/-!
# Roots of radicands below one

The grid has as many points to one as the guard place has units. Where the root of a radicand below
one is a grid point, the bisection finds it and the power is exact. Elsewhere the bisection ends
just below the root, and Newton's method starts just above it, from the next grid point.
-/
namespace ExactCalc.Power

variable {magnitude radicand base exponent : ℚ} {degree scale k : ℕ} {a : Accuracy}

/-- A root that is a grid point is the grid point that is found. -/
theorem gridFloor_eq (small : magnitude < 1) (proper : 0 < degree) (scaled : 0 < scale)
    (met : (k / scale : ℚ) ^ degree = magnitude) : gridFloor magnitude degree scale = k := by
  have positive : (0 : ℚ) < scale := Nat.cast_pos.mpr scaled
  have nonneg : 0 ≤ magnitude := by
    rw [← met]
    positivity
  have greatest := isGreatest_gridFloor nonneg small proper scaled
  have atLeast : (k : ℤ) ≤ gridFloor magnitude degree scale :=
    greatest.2 (by simpa using met.le)
  have atMost : (gridFloor magnitude degree scale / scale : ℚ) ≤ k / scale := by
    have below : (gridFloor magnitude degree scale / scale : ℚ) ^ degree ≤ magnitude := by
      simpa using greatest.1
    exact le_of_pow_le_pow_left₀ proper.ne' (by positivity) (below.trans met.ge)
  rw [div_le_div_iff_of_pos_right positive, Nat.cast_le] at atMost
  omega

theorem startBelowOne_of_met (small : magnitude < 1) (proper : 0 < degree) (scaled : 0 < scale)
    (met : (k / scale : ℚ) ^ degree = magnitude) :
    startBelowOne magnitude degree scale = .exact (k / scale) := by
  have found : whole (mkRat k scale) degree = magnitude := by
    rw [whole_eq_pow, Rat.mkRat_eq_div, Int.cast_natCast, met]
  dsimp only [startBelowOne]
  rw [gridFloor_eq small proper scaled met, if_pos found, Rat.mkRat_eq_div, Int.cast_natCast]

theorem startBelowOne_of_missed (missed : ∀ k : ℕ, (k / scale : ℚ) ^ degree ≠ magnitude) :
    startBelowOne magnitude degree scale =
      .approximate ((gridFloor magnitude degree scale + 1) / scale) := by
  have notFound : whole (mkRat (gridFloor magnitude degree scale) scale) degree ≠ magnitude := by
    rw [whole_eq_pow, Rat.mkRat_eq_div, Int.cast_natCast]
    exact missed _
  dsimp only [startBelowOne]
  rw [if_neg notFound, Rat.mkRat_eq_div]
  push_cast
  rfl

/-- A root that is a grid point is what the root is, with the sign of the radicand. -/
theorem root_eq_of_met (small : |radicand| < 1) (proper : 0 < degree) (scaled : 0 < a.scale)
    (met : (k / a.scale : ℚ) ^ degree = |radicand|) :
    root a radicand degree = (if radicand < 0 then -1 else 1) * (k / a.scale) := by
  have start := startBelowOne_of_met small proper scaled met
  rw [← abs_eq] at small start
  simp only [root, if_pos small, start]

/-- Any other root is what Newton's method ends with, from where the bisection lets it start. -/
theorem root_eq_of_approximate {x : ℚ} (small : |radicand| < 1)
    (start : startBelowOne |radicand| degree a.scale = .approximate x) :
    root a radicand degree =
      (if radicand < 0 then -1 else 1) * (rootProblem a radicand degree).solve x := by
  rw [← abs_eq] at small start
  simp only [root, if_pos small, start]

/-- For an integer exponent the power is its radicand. -/
theorem power_eq_radicand (integral : exponent.den = 1) (defined : exponent < 0 → base ≠ 0) :
    power a base exponent =
      .ok ((if exponent < 0 then base⁻¹ else base) ^ exponent.num.natAbs) := by
  rw [power_eq_zpow integral fun undefined => defined undefined.2 undefined.1,
    ← radicand_eq_zpow, radicand_eq]

theorem sign_mul_abs_eq (v : ℚ) : (if v < 0 then -1 else 1) * |v| = v := by
  split
  next negative => rw [abs_of_neg negative, neg_one_mul, neg_neg]
  next nonneg => rw [abs_of_nonneg (not_lt.mp nonneg), one_mul]

/-- A power whose root is a grid point is that root, also where no root is looked for. -/
theorem power_of_met (isRadicand : (if exponent < 0 then base⁻¹ else base) ^ exponent.num.natAbs =
      radicand) (defined : exponent < 0 → base ≠ 0) (real : radicand < 0 → Odd exponent.den)
    (small : |radicand| < 1) (scaled : 0 < a.scale)
    (met : (k / a.scale : ℚ) ^ exponent.den = |radicand|) :
    power a base exponent = .ok ((if radicand < 0 then -1 else 1) * (k / a.scale)) := by
  rcases Nat.lt_or_ge exponent.den 2 with integral | fractional
  · have one : exponent.den = 1 := by
      have := exponent.den_pos
      omega
    rw [one, pow_one] at met
    rw [power_eq_radicand one defined, isRadicand, met, sign_mul_abs_eq]
  · rw [← root_eq_of_met small exponent.den_pos scaled met]
    subst isRadicand
    exact (power_eq_ok_iff fractional).mpr ⟨defined, real, rfl⟩

section TrueRoot

variable {root : ℝ} (nonneg : 0 ≤ root)

include nonneg

/-- A true root is no grid point below zero. -/
theorem exists_natCast_of_root_eq (scaled : 0 < scale) {k : ℤ} (onGrid : root = k / scale) :
    ∃ n : ℕ, k = n := by
  refine Int.eq_ofNat_of_zero_le ?_
  by_contra negative
  have below : (k : ℝ) / scale < 0 :=
    div_neg_of_neg_of_pos (Int.cast_lt_zero.mpr (not_le.mp negative)) (Nat.cast_pos.mpr scaled)
  exact (onGrid ▸ below).not_ge nonneg

variable (isRoot : root ^ degree = magnitude)

include isRoot

theorem magnitude_nonneg : 0 ≤ magnitude := by
  have power : (0 : ℝ) ≤ magnitude := isRoot ▸ pow_nonneg nonneg _
  exact_mod_cast power

/-- The true root is a grid point if and only if the power of a grid point is the magnitude. -/
theorem root_eq_div_iff (proper : 0 < degree) (k : ℕ) :
    root = k / scale ↔ (k / scale : ℚ) ^ degree = magnitude := by
  have point : (0 : ℝ) ≤ k / scale := by positivity
  rw [← pow_left_inj₀ nonneg point proper.ne', isRoot, eq_comm, ← Rat.cast_inj (α := ℝ)]
  push_cast
  rfl

/-- The true root lies between the grid point that is found and the next one. -/
theorem root_between (small : magnitude < 1) (proper : 0 < degree) (scaled : 0 < scale) :
    (gridFloor magnitude degree scale / scale : ℝ) ≤ root ∧
      root < (gridFloor magnitude degree scale + 1) / scale := by
  have magnitudeNonneg := magnitude_nonneg nonneg isRoot
  have floor := isGreatest_gridFloor magnitudeNonneg small proper scaled
  have next := lt_gridFloor_succ_pow magnitudeNonneg small proper scaled
  have below : (((gridFloor magnitude degree scale / scale : ℚ) ^ degree : ℚ) : ℝ) ≤ magnitude :=
    Rat.cast_le.mpr (by simpa using floor.1)
  have above := Rat.cast_lt (K := ℝ) |>.mpr next
  push_cast at below above
  rw [← isRoot] at below above
  exact ⟨le_of_pow_le_pow_left₀ proper.ne' nonneg below,
    lt_of_pow_lt_pow_left₀ degree (by positivity) above⟩

end TrueRoot

/-- The bisection of a grid finds the last grid point at or below the root of a magnitude below one.
So where the root of a radicand below one is a point of the grid of the guard place, the power is
that root with the sign of the radicand. Elsewhere Newton's method starts above the root, by no more
than one unit of the guard place; for an integer exponent no root is looked for. -/
theorem bisection_finds_root_floor :
    (∀ (magnitude : ℚ) (degree scale : ℕ), 0 ≤ magnitude → magnitude < 1 → 1 ≤ degree → 1 ≤ scale →
      IsGreatest {k : ℤ | (k / scale : ℚ) ^ degree ≤ magnitude}
          (gridFloor magnitude degree scale) ∧
        gridFloor magnitude degree scale < scale) ∧
    ∀ (precision radix : ℕ) (base exponent : ℚ), 1 ≤ radix → (exponent < 0 → base ≠ 0) →
      let R : ℚ := (if exponent < 0 then base⁻¹ else base) ^ exponent.num.natAbs
      let d := exponent.den
      let scale := radix ^ (precision + 1)
      let root : ℝ := |(R : ℝ)| ^ (d : ℝ)⁻¹
      let sign : ℚ := if R < 0 then -1 else 1
      let newton : RootProblem := ⟨|R|, d, 1 / scale, scale * radix * d⟩
      |R| < 1 → (R < 0 → Odd d) →
        (∀ k : ℤ, root = k / scale →
          power (.shown precision radix) base exponent = .ok (sign * (k / scale))) ∧
        (2 ≤ d → (∀ k : ℤ, root ≠ k / scale) →
          ∃ start : ℚ, startBelowOne |R| d scale = .approximate start ∧
            root < start ∧ start ≤ root + 1 / scale ∧
            power (.shown precision radix) base exponent = .ok (sign * newton.solve start)) := by
  refine ⟨fun magnitude degree scale nonneg small proper scaled =>
    ⟨isGreatest_gridFloor nonneg small proper scaled,
      (straddles_gridFloor nonneg small proper scaled).2⟩, ?_⟩
  intro precision radix base exponent positive defined R d scale root sign newton small real
  have proper : 0 < d := exponent.den_pos
  have scaled : 0 < scale := Nat.pow_pos positive
  have nonneg : 0 ≤ root := Real.rpow_nonneg (abs_nonneg _) _
  have isRoot : root ^ d = ((|R| : ℚ) : ℝ) := by
    rw [Rat.cast_abs]
    exact Real.rpow_inv_natCast_pow (abs_nonneg _) proper.ne'
  refine ⟨fun k onGrid => ?_, fun fractional offGrid => ?_⟩
  · obtain ⟨k, rfl⟩ := exists_natCast_of_root_eq nonneg scaled onGrid
    rw [Int.cast_natCast] at onGrid ⊢
    exact power_of_met (a := .shown precision radix) rfl defined real small scaled
      ((root_eq_div_iff nonneg isRoot proper k).mp onGrid)
  · have missed (k : ℕ) : (k / scale : ℚ) ^ d ≠ |R| := fun met =>
      offGrid k (by simpa using (root_eq_div_iff nonneg isRoot proper k).mpr met)
    have start := startBelowOne_of_missed missed
    have isPower := (power_eq_ok_iff (a := .shown precision radix) fractional).mpr
      ⟨defined, real, rfl⟩
    obtain ⟨below, above⟩ := root_between nonneg isRoot small proper scaled
    refine ⟨_, start, ?_, ?_, ?_⟩
    · push_cast
      exact above
    · push_cast
      rw [add_div]
      exact add_le_add_left below _
    · rw [isPower, root_eq_of_approximate (a := .shown precision radix) small start,
        rootProblem_shown]

/-- On the grid of tenths the square root of a quarter is met, and that of a half lies between
points seven and eight, from which Newton's method starts. -/
theorem bisection_finds_root_floor_tenths :
    IsGreatest {k : ℤ | (k / 10 : ℚ) ^ 2 ≤ 1 / 2} 7 ∧
      power (.shown 0 10) (1 / 4) (1 / 2) = .ok (1 / 2) ∧
      √(1 / 2) < 8 / 10 ∧ 8 / 10 ≤ √(1 / 2) + 1 / 10 ∧
      power (.shown 0 10) (1 / 2) (1 / 2) =
        .ok (RootProblem.solve ⟨1 / 2, 2, 1 / 10, 200⟩ (8 / 10)) := by
  obtain ⟨floor, roots⟩ := bisection_finds_root_floor
  have found : gridFloor (1 / 2) 2 10 = 7 := by decide +kernel
  have next : startBelowOne (1 / 2) 2 10 = .approximate (8 / 10) := by decide +kernel
  have grid : 10 ^ (0 + 1) = 10 := by decide
  have squareRoot (v : ℚ) (nonneg : 0 ≤ v) : |(v : ℝ)| ^ ((2 : ℕ) : ℝ)⁻¹ = √v := by
    rw [abs_of_nonneg (by exact_mod_cast nonneg), Real.sqrt_eq_rpow, Nat.cast_ofNat, one_div]
  have greatest := (floor (1 / 2) 2 10 (by norm_num) (by norm_num) (by decide) (by decide)).1
  have quarter := roots 0 10 (1 / 4) (1 / 2) (by decide) (by norm_num)
  have half := roots 0 10 (1 / 2) (1 / 2) (by decide) (by norm_num)
  rw [found] at greatest
  rw [radicand_half, half_den, grid] at quarter half
  dsimp only at quarter half
  rw [squareRoot _ (by norm_num), abs_of_pos (by norm_num), if_neg (by norm_num)] at quarter half
  simp only [one_mul] at quarter half
  have met : √((1 / 4 : ℚ) : ℝ) = (5 : ℤ) / (10 : ℕ) := by
    rw [Real.sqrt_eq_iff_mul_self_eq (by norm_num) (by norm_num)]
    norm_num
  have missed (k : ℤ) : √((1 / 2 : ℚ) : ℝ) ≠ k / (10 : ℕ) := by
    intro met
    have square := Real.sq_sqrt (show (0 : ℝ) ≤ (1 / 2 : ℚ) by norm_num)
    rw [met] at square
    push_cast at square
    have units : (k : ℝ) ^ 2 = 50 := by linarith
    have between : (k : ℚ) ^ 2 ≠ (50 : ℕ) := sq_ne_of_between 7 (by decide) (by decide) k
    exact between (by exact_mod_cast units)
  have exact := (quarter (by norm_num) (by norm_num)).1 5 met
  obtain ⟨start, starts, above, near, solved⟩ := (half (by norm_num) (by norm_num)).2 le_rfl missed
  obtain rfl : 8 / 10 = start := Start.approximate.inj (next.symm.trans starts)
  push_cast at greatest above near
  have point : ((5 : ℤ) : ℚ) / (10 : ℕ) = 1 / 2 := by norm_num
  have newton : 10 * 10 * 2 = 200 := by decide
  rw [point] at exact
  rw [newton] at solved
  exact ⟨greatest, exact, above, near, solved⟩

end ExactCalc.Power
