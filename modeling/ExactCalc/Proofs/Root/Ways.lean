import ExactCalc.Proofs.Root.Accuracy

/-!
# The ways a power is found

A power with a fractional exponent is the root of its radicand, and there is none in two cases only:
zero is not inverted, and a negative number has no root of even degree. The root of a radicand of
one or more in magnitude is the integer that the search ends with, if that is the root, and is found
by Newton's method otherwise.
-/
namespace ExactCalc.Power

variable {a : Accuracy} {base exponent radicand y : ℚ} {degree : ℕ}

theorem radicand_eq (base exponent : ℚ) :
    Power.radicand base exponent =
      (if exponent < 0 then base⁻¹ else base) ^ exponent.num.natAbs :=
  whole_eq_pow _ _

/-- A power with a fractional exponent is a root, unless zero is inverted or the radicand is
negative and the degree even. -/
theorem power_eq_ok_iff (fractional : 2 ≤ exponent.den) :
    let R : ℚ := (if exponent < 0 then base⁻¹ else base) ^ exponent.num.natAbs
    power a base exponent = .ok y ↔
      (exponent < 0 → base ≠ 0) ∧ (R < 0 → Odd exponent.den) ∧ y = root a R exponent.den := by
  intro R
  have isRadicand : Power.radicand base exponent = R := radicand_eq base exponent
  unfold power
  rw [isRadicand, if_neg (by omega : exponent.den ≠ 1)]
  split
  next undefined => simp [undefined.1, undefined.2]
  next defined =>
    have inverts : exponent < 0 → base ≠ 0 := fun negative zero => defined ⟨negative, zero⟩
    split
    next imaginary =>
      simp [imaginary.1, Nat.not_odd_iff_even.mpr (Nat.even_iff.mpr imaginary.2)]
    next real =>
      have odd : R < 0 → Odd exponent.den := fun negative =>
        Nat.not_even_iff_odd.mp fun even => real ⟨negative, Nat.even_iff.mp even⟩
      simp only [Except.ok.injEq, eq_comm (a := y)]
      exact ⟨fun same => ⟨inverts, odd, same⟩, fun all => all.2.2⟩

/-- A power with a fractional exponent is a root. -/
theorem root_of_power (fractional : 2 ≤ exponent.den) (success : power a base exponent = .ok y) :
    y = root a ((if exponent < 0 then base⁻¹ else base) ^ exponent.num.natAbs) exponent.den :=
  ((power_eq_ok_iff fractional).mp success).2.2

/-- A power with a fractional exponent is its radicand's root to one place more than is shown. -/
theorem isRootOf_of_power {precision radix : ℕ} (digits : 2 ≤ radix) (fractional : 2 ≤ exponent.den)
    (success : power (.shown precision radix) base exponent = .ok y) :
    IsRootOf ((if exponent < 0 then base⁻¹ else base) ^ exponent.num.natAbs) exponent.den
      (1 / radix ^ (precision + 1)) y := by
  obtain ⟨-, real, rfl⟩ := (power_eq_ok_iff fractional).mp success
  have scale : (Accuracy.shown precision radix).scale = radix ^ (precision + 1) := rfl
  have found := isRootOf_root (.shown precision radix) _ exponent.den (by omega)
    (scale ▸ Nat.pow_pos (by omega)) (by change 0 < radix; omega) real
  rw [Rat.mkRat_eq_div, scale] at found
  push_cast at found
  exact found

/-- The magnitude of an integer that is not the root, or one if it is zero. -/
theorem magnitude_eq_max (guess : ℤ) :
    (if guess = 0 then 1 else (guess.natAbs : ℚ)) = max |(guess : ℚ)| 1 := by
  split
  next zero => simp [zero]
  next nonzero =>
    have large : (1 : ℚ) ≤ |(guess : ℚ)| := by exact_mod_cast Int.one_le_abs nonzero
    rw [max_eq_left large, Nat.cast_natAbs, Int.cast_abs]

/-- An integer that is the root is what the root is. -/
theorem root_eq_nearbyInteger (large : 1 ≤ |radicand|)
    (met : (nearbyInteger radicand degree : ℚ) ^ degree = radicand) :
    root a radicand degree = nearbyInteger radicand degree := by
  have notSmall : ¬radicand.abs < 1 := by rwa [abs_eq, not_lt]
  have start : startAmongIntegers radicand degree = .exact _ :=
    if_pos ((whole_eq_pow _ _).trans met)
  simp only [root, if_neg notSmall, start]

/-- From an integer that is not the root Newton's method starts, or from one if it is zero. -/
theorem root_eq_solve (large : 1 ≤ |radicand|)
    (missed : (nearbyInteger radicand degree : ℚ) ^ degree ≠ radicand) :
    root a radicand degree = (if radicand < 0 then -1 else 1) *
      (rootProblem a radicand degree).solve (max |(nearbyInteger radicand degree : ℚ)| 1) := by
  have notSmall : ¬radicand.abs < 1 := by rwa [abs_eq, not_lt]
  have start : startAmongIntegers radicand degree =
      .approximate (max |(nearbyInteger radicand degree : ℚ)| 1) := by
    rw [← magnitude_eq_max]
    exact if_neg fun exact => missed ((whole_eq_pow _ _).symm.trans exact)
  simp only [root, if_neg notSmall, start]

/-- What Newton's method is given, to one place more than is shown. -/
theorem rootProblem_shown (precision radix : ℕ) (radicand : ℚ) (degree : ℕ) :
    rootProblem (.shown precision radix) radicand degree =
      ⟨|radicand|, degree, 1 / (radix ^ (precision + 1) : ℕ),
        radix ^ (precision + 1) * radix * degree⟩ := by
  have unit : mkRat 1 (Accuracy.shown precision radix).scale =
      1 / (radix ^ (precision + 1) : ℕ) := by
    rw [Rat.mkRat_eq_div, Int.cast_one]
    rfl
  rw [rootProblem, abs_eq, unit]
  rfl

end ExactCalc.Power
