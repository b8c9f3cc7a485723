import ExactCalc.Proofs.Root.Ways

/-!
# Odd roots of negative numbers

Newton's method and the bisection of the grid work on the magnitude of the radicand, so that for
them a negative number has the negated root of its magnitude. The integers are searched on the side
of the radicand, and the two searches need not stop equally far from zero: each rounds its middles
down and takes the lower end of two that are equally near. Where they do, the roots are each other's
negatives; elsewhere they differ by at most one unit of the place after the last.
-/
namespace ExactCalc.Power

variable {radicand tolerance y z : ℚ} {degree : ℕ} {a : Accuracy}

/-- Two roots of one magnitude are no farther apart in magnitude than the tolerance. -/
theorem IsRootOf.abs_sub_abs_le {other : ℚ} (proper : 0 < degree)
    (found : IsRootOf radicand degree tolerance y) (foundToo : IsRootOf other degree tolerance z)
    (alike : |radicand| = |other|) : |(|y| - |z|)| ≤ tolerance := by
  have first : max (|y| - tolerance) 0 ≤ |z| := le_of_pow_le_pow_left₀ proper.ne' (abs_nonneg z)
    (found.within.trans (alike.le.trans foundToo.above))
  have second : max (|z| - tolerance) 0 ≤ |y| := le_of_pow_le_pow_left₀ proper.ne' (abs_nonneg y)
    (foundToo.within.trans (alike.ge.trans found.above))
  have firstNear := (le_max_left _ _).trans first
  have secondNear := (le_max_left _ _).trans second
  exact abs_sub_le_iff.mpr ⟨by linarith, by linarith⟩

theorem rootProblem_neg (radicand : ℚ) :
    rootProblem a (-radicand) degree = rootProblem a radicand degree := by
  simp only [rootProblem, abs_eq, abs_neg]

theorem root_neg_of_lt_one (positive : 0 < radicand) (small : radicand < 1) :
    root a (-radicand) degree = -root a radicand degree := by
  have negative : -radicand < 0 := neg_neg_of_pos positive
  have smallToo : |radicand| < 1 := by rwa [abs_of_pos positive]
  simp only [root, rootProblem_neg, abs_eq, abs_neg, if_pos smallToo, if_pos negative,
    if_neg positive.not_gt]
  cases startBelowOne |radicand| degree a.scale with
  | exact x => simp
  | approximate x => simp

/-- Where the searches stop equally far from zero, the roots are each other's negatives. -/
theorem root_neg_of_one_le (odd : Odd degree) (large : 1 ≤ radicand)
    (alike : |nearbyInteger (-radicand) degree| = |nearbyInteger radicand degree|) :
    root a (-radicand) degree = -root a radicand degree := by
  have positive : 0 < radicand := zero_lt_one.trans_le large
  have negative : -radicand < 0 := neg_neg_of_pos positive
  have largeAbs : 1 ≤ |radicand| := by rwa [abs_of_pos positive]
  have largeNeg : 1 ≤ |-radicand| := by rwa [abs_neg]
  have opposite : nearbyInteger (-radicand) degree = -nearbyInteger radicand degree := by
    have nonneg := nearbyInteger_nonneg degree large
    have nonpos : nearbyInteger (-radicand) degree ≤ 0 :=
      nearbyInteger_nonpos degree (by rwa [neg_neg])
    rw [abs_of_nonneg nonneg, abs_of_nonpos nonpos] at alike
    omega
  have power : (nearbyInteger (-radicand) degree : ℚ) ^ degree =
      -(nearbyInteger radicand degree : ℚ) ^ degree := by
    rw [opposite, Int.cast_neg, odd.neg_pow]
  by_cases met : (nearbyInteger radicand degree : ℚ) ^ degree = radicand
  · rw [root_eq_nearbyInteger largeAbs met,
      root_eq_nearbyInteger largeNeg (power.trans (congrArg _ met)), opposite, Int.cast_neg]
  · have missed : (nearbyInteger (-radicand) degree : ℚ) ^ degree ≠ -radicand := by
      rw [power]
      exact fun same => met (neg_inj.mp same)
    rw [root_eq_solve largeAbs met, root_eq_solve largeNeg missed, rootProblem_neg, opposite,
      Int.cast_neg, abs_neg, if_pos negative, if_neg positive.not_gt, one_mul, neg_one_mul]

/-- What the root of a negative number has to do with that of its magnitude, for an odd degree. -/
theorem root_neg_near (odd : Odd degree) (positive : 0 < radicand) (scaled : 0 < a.scale)
    (radix : 0 < a.radix) :
    |root a (-radicand) degree + root a radicand degree| ≤ 1 / a.scale := by
  have found := isRootOf_root a radicand degree odd.pos scaled radix fun _ => odd
  have foundNeg := isRootOf_root a (-radicand) degree odd.pos scaled radix fun _ => odd
  have near := foundNeg.abs_sub_abs_le odd.pos found (abs_neg radicand)
  have above : 0 < root a radicand degree := by
    rw [← sign_eq_one_iff, found.sign, sign_pos positive]
  have below : root a (-radicand) degree < 0 := by
    rw [← sign_eq_neg_one_iff, foundNeg.sign, sign_neg (neg_neg_of_pos positive)]
  rw [Rat.mkRat_eq_div, Int.cast_one, abs_of_neg below, abs_of_pos above] at near
  rwa [← abs_neg, neg_add']

/-- For an odd degree a negative base has a power if its magnitude has one, and it is the negated
power, or the power itself for an even numerator, to one unit of the place after the last. The two
are equal for an even numerator, for a radicand below one, and where the searches among the integers
stop equally far from zero. -/
theorem odd_root_of_negative (precision radix : ℕ) (base exponent : ℚ) (positive : 0 < base)
    (digits : 2 ≤ radix) (proper : 3 ≤ exponent.den) (odd : Odd exponent.den) :
    let R : ℚ := (if exponent < 0 then base⁻¹ else base) ^ exponent.num.natAbs
    let d := exponent.den
    ∃ y z, power (.shown precision radix) (-base) exponent = .ok y ∧
      power (.shown precision radix) base exponent = .ok z ∧
      |y - (-1) ^ exponent.num * z| ≤ 1 / radix ^ (precision + 1) ∧
      (Even exponent.num ∨ R < 1 ∨ |nearbyInteger (-R) d| = |nearbyInteger R d| →
        y = (-1) ^ exponent.num * z) := by
  intro R d
  have someRadix : 0 < (Accuracy.shown precision radix).radix := by change 0 < radix; omega
  have scaled : 0 < (Accuracy.shown precision radix).scale := Nat.pow_pos someRadix
  have scale : ((Accuracy.shown precision radix).scale : ℚ) = radix ^ (precision + 1) :=
    Nat.cast_pow _ _
  have inverted : (if exponent < 0 then (-base)⁻¹ else -base) =
      -(if exponent < 0 then base⁻¹ else base) := by
    split
    · exact inv_neg
    · rfl
  have aboveZero : 0 < (if exponent < 0 then base⁻¹ else base) := by
    split
    · exact inv_pos.mpr positive
    · exact positive
  have radicandPositive : 0 < R := pow_pos aboveZero _
  have powerOf (b : ℚ) (nonzero : b ≠ 0) : power (.shown precision radix) b exponent =
      .ok (root (.shown precision radix)
        ((if exponent < 0 then b⁻¹ else b) ^ exponent.num.natAbs) d) :=
    (power_eq_ok_iff (by omega)).mpr ⟨fun _ => nonzero, fun _ => odd, rfl⟩
  refine ⟨_, _, powerOf _ (neg_ne_zero.mpr positive.ne'), powerOf _ positive.ne', ?_⟩
  rw [inverted]
  change |root _ _ d - _ * root _ R d| ≤ _ ∧ (_ → root _ _ d = _ * root _ R d)
  rcases Int.even_or_odd exponent.num with even | oddPower
  · rw [(Int.natAbs_even.mpr even).neg_pow, even.neg_one_zpow, one_mul, sub_self, abs_zero]
    exact ⟨by positivity, fun _ => rfl⟩
  · rw [(Int.natAbs_odd.mpr oddPower).neg_pow, oddPower.neg_one_zpow, neg_one_mul, sub_neg_eq_add,
      ← scale]
    refine ⟨root_neg_near odd radicandPositive scaled someRadix, ?_⟩
    rintro (even | small | alike)
    · exact absurd even (Int.not_even_iff_odd.mpr oddPower)
    · exact root_neg_of_lt_one radicandPositive small
    · rcases lt_or_ge R 1 with small | large
      · exact root_neg_of_lt_one radicandPositive small
      · exact root_neg_of_one_le odd large alike

/-- The cube roots of three and minus three, in binary and to two places: both searches stop next
to zero. -/
theorem odd_root_of_negative_three :
    power (.shown 1 2) 3 (mkRat 1 3) = .ok (mkRat 331 225) ∧
      power (.shown 1 2) (-3) (mkRat 1 3) = .ok (-mkRat 331 225) := by
  have degree : (mkRat 1 3).den = 3 := by decide
  have numerator : (mkRat 1 3).num = 1 := by decide
  have notNegative : ¬mkRat 1 3 < 0 := by decide
  obtain ⟨y, z, ofNegative, ofPositive, -, opposite⟩ := odd_root_of_negative 1 2 3 (mkRat 1 3)
    (by decide) (by decide) degree.ge (degree ▸ by decide)
  have alike : |nearbyInteger (-3 ^ 1) 3| = |nearbyInteger (3 ^ 1) 3| := by decide +kernel
  have evaluated : power (.shown 1 2) 3 (mkRat 1 3) = .ok (mkRat 331 225) := by decide +kernel
  rw [if_neg notNegative, numerator, degree] at opposite
  have same := opposite (.inr (.inr alike))
  rw [zpow_one, neg_one_mul] at same
  obtain rfl := Except.ok.inj (ofPositive.symm.trans evaluated)
  exact ⟨evaluated, same ▸ ofNegative⟩

/-- The cube root of minus twenty-seven, to ten places, is missed by a search that finds the cube
root of twenty-seven. -/
theorem cube_root_of_negative_missed :
    power (.shown 10 10) 27 (1 / 3) = .ok 3 ∧
      power (.shown 10 10) (-27) (1 / 3) =
        .ok (mkRat (-5062507509319819364389723661676586771) 1687502503105678227168810750000000000) ∧
      ¬∀ (base exponent : ℚ) (precision radix : ℕ), 0 < base → 3 ≤ exponent.den →
        Odd exponent.den → 2 ≤ radix → ∃ y z,
          power (.shown precision radix) (-base) exponent = .ok y ∧
            power (.shown precision radix) base exponent = .ok z ∧
            y = (-1) ^ exponent.num * z := by
  have ofPositive : power (.shown 10 10) 27 (1 / 3) = .ok 3 := by decide +kernel
  have ofNegative : power (.shown 10 10) (-27) (1 / 3) = .ok
      (mkRat (-5062507509319819364389723661676586771) 1687502503105678227168810750000000000) := by
    decide +kernel
  refine ⟨ofPositive, ofNegative, fun opposite => ?_⟩
  have degree : (1 / 3 : ℚ).den = 3 := by decide +kernel
  have numerator : (1 / 3 : ℚ).num = 1 := by decide +kernel
  obtain ⟨y, z, first, second, same⟩ := opposite 27 (1 / 3) 10 10 (by decide) degree.ge
    (degree ▸ by decide) (by decide)
  obtain rfl := Except.ok.inj (ofNegative.symm.trans first)
  obtain rfl := Except.ok.inj (ofPositive.symm.trans second)
  rw [numerator] at same
  exact absurd same (by decide +kernel)

end ExactCalc.Power
