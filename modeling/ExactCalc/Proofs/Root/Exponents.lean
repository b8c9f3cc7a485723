import ExactCalc.Proofs.Reading.Evaluation
import ExactCalc.Proofs.Root.Ways

/-!
# Powers in expressions

An expression raises to an integer exponent without looking for a root, and looks for zero to a
negative power by itself. Both agree with `Power.power`, which inverts the base first and looks at
the sign of the radicand. A negative number has no root of even degree: the exponent is reduced, so
that its numerator is odd then and the radicand negative as well.
-/
namespace ExactCalc

namespace Power

variable {a : Accuracy} {base exponent : ℚ} {e : MathError}

/-- A reduced exponent with an even denominator has an odd numerator. -/
theorem odd_num_of_even_den (even : Even exponent.den) : Odd exponent.num.natAbs := by
  refine Nat.not_even_iff_odd.mp fun evenToo => ?_
  have shared : 2 ∣ exponent.num.natAbs.gcd exponent.den :=
    Nat.dvd_gcd evenToo.two_dvd even.two_dvd
  rw [exponent.reduced] at shared
  exact absurd shared (by decide)

/-- For a root of even degree the radicand is negative exactly if the base is. -/
theorem radicand_neg_iff (even : Even exponent.den) : radicand base exponent < 0 ↔ base < 0 := by
  rw [radicand_eq, (odd_num_of_even_den even).pow_neg_iff]
  split
  next => exact inv_lt_zero
  next => exact Iff.rfl

/-- There is no power in two cases only: zero is not inverted, and a negative number has no root of
even degree. -/
theorem power_eq_error_iff :
    power a base exponent = .error e ↔
      e = .divisionByZero ∧ base = 0 ∧ exponent < 0 ∨
        e = .imaginaryResult ∧ base < 0 ∧ Even exponent.den := by
  have imaginary : exponent.den ≠ 1 ∧ radicand base exponent < 0 ∧ exponent.den % 2 = 0 ↔
      base < 0 ∧ Even exponent.den := by
    rw [← Nat.even_iff]
    constructor
    · rintro ⟨-, below, even⟩
      exact ⟨(radicand_neg_iff even).mp below, even⟩
    · rintro ⟨below, even⟩
      refine ⟨fun integral => ?_, (radicand_neg_iff even).mpr below, even⟩
      rw [integral] at even
      exact absurd even (by decide)
  unfold power
  split
  next undefined =>
    have real : ¬(base < 0 ∧ Even exponent.den) := fun both => both.1.ne undefined.2
    simp [undefined.1, undefined.2, eq_comm (a := e)]
  next defined =>
    have inverted : ¬(base = 0 ∧ exponent < 0) := fun both => defined ⟨both.2, both.1⟩
    split
    next integral =>
      have real : ¬(base < 0 ∧ Even exponent.den) := fun both =>
        (imaginary.mpr both).1 integral
      simp [inverted, real]
    next fractional =>
      split
      next negative =>
        simp [inverted, imaginary.mp ⟨fractional, negative⟩, eq_comm (a := e)]
      next nonneg =>
        have real : ¬(base < 0 ∧ Even exponent.den) := fun both =>
          nonneg (imaginary.mpr both).2
        simp [inverted, real]

/-- The inverse of the base is taken before the power, with the same result as after it. -/
theorem radicand_eq_zpow (base exponent : ℚ) : radicand base exponent = base ^ exponent.num := by
  have signs : exponent < 0 ↔ exponent.num < 0 := Rat.num_neg.symm
  rw [radicand_eq]
  split
  next negative =>
    have magnitude : -(exponent.num.natAbs : ℤ) = exponent.num := by
      have := signs.mp negative
      omega
    rw [inv_pow, ← zpow_natCast, ← zpow_neg, magnitude]
  next nonneg =>
    have magnitude : (exponent.num.natAbs : ℤ) = exponent.num := by
      have := mt signs.mpr nonneg
      omega
    rw [← zpow_natCast, magnitude]

/-- An integer power is exact, to any accuracy. -/
theorem power_eq_zpow (integral : exponent.den = 1) (defined : ¬(base = 0 ∧ exponent < 0)) :
    power a base exponent = .ok (base ^ exponent.num) := by
  unfold power
  rw [if_neg fun undefined => defined undefined.symm, if_pos integral, radicand_eq_zpow]

end Power

/-- The path that an expression takes for an integer exponent leads to the same result. -/
theorem BinaryOp.raise_eq_power (a : Accuracy) (base exponent : ℚ) :
    raise a base exponent = Power.power a base exponent := by
  unfold raise
  split
  next => rfl
  next integral =>
    have integral : exponent.den = 1 := not_not.mp integral
    split
    next undefined => exact (Power.power_eq_error_iff.mpr (.inl ⟨rfl, undefined⟩)).symm
    next defined =>
      rw [Power.power_eq_zpow integral defined, Power.integral_eq_zpow]

namespace Expr

/-- A power in an expression has the value of `Power.power`, and if there is none it is refused for
the same reason at its operator. It divides by zero exactly if zero is raised to a negative power,
it is imaginary exactly if a root of even degree is taken of a negative number, and nothing else
goes wrong. An integer power is exact, the same to any accuracy. -/
theorem exponent_agrees_with_power (load : Located Text → Except Failure Rat) (a : Accuracy)
    (s : Span) {left right : Expr} {base exponent : ℚ} (onLeft : left.eval load a = .ok base)
    (onRight : right.eval load a = .ok exponent) :
    (∀ v, (binary .exponent s left right).eval load a = .ok v ↔
      Power.power a base exponent = .ok v) ∧
    (∀ failure, (binary .exponent s left right).eval load a = .error failure ↔
      ∃ e, Power.power a base exponent = .error e ∧ failure = .refused (.math e s)) ∧
    (∀ e, Power.power a base exponent = .error e ↔
      e = .divisionByZero ∧ base = 0 ∧ exponent < 0 ∨
        e = .imaginaryResult ∧ base < 0 ∧ Even exponent.den) ∧
    (∀ n : ℤ, exponent = n → ¬(base = 0 ∧ n < 0) →
      (binary .exponent s left right).eval load a = .ok (base ^ n)) := by
  have raised : (binary .exponent s left right).eval load a =
      MathError.blame s (Power.power a base exponent) := by
    rw [eval, onLeft, onRight, ← BinaryOp.raise_eq_power]
    rfl
  rw [raised]
  refine ⟨fun v => MathError.blame_eq_ok, fun failure => ?_, fun e => Power.power_eq_error_iff,
    fun n same defined => ?_⟩
  · rw [MathError.blame, mapError_eq_error_iff]
    simp only [eq_comm (a := failure)]
  · subst same
    have exact : Power.power a base n = .ok (base ^ n) :=
      Power.power_eq_zpow (Rat.den_intCast n) (by rwa [Int.cast_lt_zero])
    rw [exact]
    rfl

/-- The square root of `-4` is imaginary, which is blamed on the operator, and `2` to the power of
`-3` is an eighth. -/
theorem exponent_agrees_with_power_imaginary :
    let load := VariableStore.load (none : Option Memory)
    ((number (-4) ⟨0, 2⟩).eval load {} = .ok (-4) ∧
      (number (1 / 2) ⟨3, 2⟩).eval load {} = .ok (1 / 2) ∧
      (binary .exponent ⟨2, 1⟩ (number (-4) ⟨0, 2⟩) (number (1 / 2) ⟨3, 2⟩)).eval load {} =
        .error (.refused (.math .imaginaryResult ⟨2, 1⟩))) ∧
    (number 2 ⟨0, 1⟩).eval load {} = .ok 2 ∧ (number (-3) ⟨2, 2⟩).eval load {} = .ok (-3) ∧
      (binary .exponent ⟨1, 1⟩ (number 2 ⟨0, 1⟩) (number (-3) ⟨2, 2⟩)).eval load {} =
        .ok (1 / 8) := by
  intro load
  have base : (number (-4) ⟨0, 2⟩).eval load {} = .ok (-4) := rfl
  have degree : (number (1 / 2) ⟨3, 2⟩).eval load {} = .ok (1 / 2) := rfl
  have two : (number 2 ⟨0, 1⟩).eval load {} = .ok 2 := rfl
  have minusThree : (number (-3) ⟨2, 2⟩).eval load {} = .ok (-3) := rfl
  refine ⟨⟨base, degree, ?_⟩, two, minusThree, ?_⟩
  · obtain ⟨-, refused, reasons, -⟩ := exponent_agrees_with_power load {} ⟨2, 1⟩ base degree
    have half : Even (1 / 2 : ℚ).den := by decide +kernel
    exact (refused _).mpr ⟨_, (reasons _).mpr (.inr ⟨rfl, by norm_num, half⟩), rfl⟩
  · obtain ⟨-, -, -, exact⟩ := exponent_agrees_with_power load {} ⟨1, 1⟩ two minusThree
    have eighth : (2 : ℚ) ^ (-3 : ℤ) = 1 / 8 := by norm_num
    rw [exact (-3) (by norm_num) (by norm_num), eighth]

end Expr
end ExactCalc
