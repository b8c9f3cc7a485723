import ExactCalc.Proofs.Numeral.Places
import ExactCalc.Proofs.Root.Ways

/-!
# How roots are shown

A root that is found lies above the true root by no more than one unit of the place after the last
that is shown, the guard. So the last digit shown is right unless the true root lies below a half by
less than the guard, and may then be one too large. A root that does not end within the places shown
is shown with all of them, unless it lies below a number with so many places by less than the guard:
then that number may be found, and be shown as if it were exact.
-/
namespace ExactCalc.Power

variable {radicand tolerance y scale bound : ℚ} {degree : ℕ}

theorem IsRootOf.le_of_le (found : IsRootOf radicand degree tolerance y) (nonneg : 0 ≤ scale)
    (below : |y| * scale ≤ bound) : |radicand| * scale ^ degree ≤ bound ^ degree :=
  calc |radicand| * scale ^ degree
      ≤ |y| ^ degree * scale ^ degree :=
        mul_le_mul_of_nonneg_right found.above (pow_nonneg nonneg _)
    _ = (|y| * scale) ^ degree := (mul_pow _ _ _).symm
    _ ≤ bound ^ degree :=
        pow_le_pow_left₀ (mul_nonneg (abs_nonneg y) nonneg) below _

theorem IsRootOf.lt_of_lt (found : IsRootOf radicand degree tolerance y) (proper : 0 < degree)
    (nonneg : 0 ≤ scale) (below : |y| * scale < bound) :
    |radicand| * scale ^ degree < bound ^ degree :=
  (found.le_of_le nonneg le_rfl).trans_lt
    (pow_lt_pow_left₀ below (mul_nonneg (abs_nonneg y) nonneg) proper.ne')

/-- What is found is above the true root by no more than the guard. -/
theorem IsRootOf.sub_le_of_le (found : IsRootOf radicand degree tolerance y) (nonneg : 0 ≤ scale)
    (above : bound ≤ |y| * scale) (guarded : 0 ≤ bound - tolerance * scale) :
    (bound - tolerance * scale) ^ degree ≤ |radicand| * scale ^ degree :=
  calc (bound - tolerance * scale) ^ degree
      ≤ ((|y| - tolerance) * scale) ^ degree :=
        pow_le_pow_left₀ guarded (by linarith) _
    _ ≤ (max (|y| - tolerance) 0 * scale) ^ degree := by
        refine pow_le_pow_left₀ (by linarith) ?_ _
        exact mul_le_mul_of_nonneg_right (le_max_left _ _) nonneg
    _ = max (|y| - tolerance) 0 ^ degree * scale ^ degree := mul_pow _ _ _
    _ ≤ |radicand| * scale ^ degree :=
        mul_le_mul_of_nonneg_right found.within (pow_nonneg nonneg _)

/-- The guard, in units of the last place shown. -/
theorem guard_eq (precision : ℕ) {radix : ℕ} (digits : 2 ≤ radix) :
    1 / (radix : ℚ) ^ (precision + 1) * radix ^ precision = 1 / radix := by
  have positive : (0 : ℚ) < radix := by exact_mod_cast (by omega : 0 < radix)
  field_simp
  exact (pow_succ _ _).symm

theorem guard_le_half {radix : ℕ} (digits : 2 ≤ radix) : 1 / (radix : ℚ) ≤ 1 / 2 :=
  one_div_le_one_div_of_le two_pos (by exact_mod_cast digits)

theorem half_den : (1 / 2 : ℚ).den = 2 := by decide +kernel

/-- A square root is that of the base. -/
theorem radicand_half (base : ℚ) :
    (if (1 / 2 : ℚ) < 0 then base⁻¹ else base) ^ (1 / 2 : ℚ).num.natAbs = base := by
  have numerator : (1 / 2 : ℚ).num.natAbs = 1 := by decide +kernel
  rw [if_neg (by decide +kernel), numerator, pow_one]

/-- The number of units of the last place that a root is rounded to is not too small, and at most
one too large: the true root is at or above the half before it, less the guard. If no half is above
the true root by the guard or less, the number is the right one. -/
theorem root_rounds_within_guard (precision radix : ℕ) (base exponent y : ℚ) (digits : 2 ≤ radix)
    (fractional : 2 ≤ exponent.den)
    (success : power (.shown precision radix) base exponent = .ok y) :
    let R : ℚ := (if exponent < 0 then base⁻¹ else base) ^ exponent.num.natAbs
    let d := exponent.den
    let X := |R| * (2 * radix ^ precision) ^ d
    let m := NumberStyle.roundedMagnitude radix precision y
    X < (2 * m + 1) ^ d ∧ (1 ≤ m → (2 * m - 1 - 2 / radix) ^ d ≤ X) ∧
      ((∀ h : ℕ, X < (2 * h + 1) ^ d → X < (2 * h + 1 - 2 / radix) ^ d) →
        1 ≤ m → (2 * m - 1) ^ d ≤ X) := by
  intro R d X m
  have found := isRootOf_of_power digits fractional success
  have weight : (0 : ℚ) ≤ 2 * radix ^ precision := by positivity
  have guard : 1 / (radix : ℚ) ^ (precision + 1) * (2 * radix ^ precision) = 2 / radix := by
    rw [mul_left_comm, guard_eq precision digits, mul_one_div]
  have half := guard_le_half digits
  obtain ⟨atMost, lessThan⟩ := NumberStyle.roundedMagnitude_bounds radix precision y
  change (m : ℚ) ≤ |y| * radix ^ precision + 1 / 2 at atMost
  change |y| * radix ^ precision + 1 / 2 < (m : ℚ) + 1 at lessThan
  have above (nonzero : 1 ≤ m) : (2 * m - 1 - 2 / radix) ^ d ≤ X := by
    have one_le : (1 : ℚ) ≤ m := by exact_mod_cast nonzero
    have twice : 2 / (radix : ℚ) = 2 * (1 / radix) := by ring
    have halfway : 2 * (m : ℚ) - 1 ≤ |y| * (2 * radix ^ precision) := by linarith
    have near := found.sub_le_of_le weight halfway (by rw [guard, twice]; linarith)
    rwa [guard] at near
  refine ⟨found.lt_of_lt (by omega) weight (by linarith), above, fun clear nonzero => ?_⟩
  -- Otherwise the half below `m` is above the true root, by less than the guard.
  by_contra short
  have previous : ((m - 1 : ℕ) : ℚ) = m - 1 := by rw [Nat.cast_sub nonzero, Nat.cast_one]
  have odd : 2 * (m - 1 : ℚ) + 1 = 2 * m - 1 := by ring
  have cleared := clear (m - 1)
  rw [previous, odd] at cleared
  exact (above nonzero).not_gt (cleared (not_le.mp short))

/-- The square root of two, to one place: no half is close above it. -/
theorem root_rounds_within_guard_two :
    power (.shown 1 10) 2 (1 / 2) = .ok (mkRat 17 12) ∧
      NumberStyle.roundedMagnitude 10 1 (mkRat 17 12) = 14 ∧
      (2 * 14 - 1 : ℚ) ^ 2 ≤ 800 ∧ 800 < (2 * 14 + 1 : ℚ) ^ 2 := by
  have evaluated : power (.shown 1 10) 2 (1 / 2) = .ok (mkRat 17 12) := by decide +kernel
  have units : NumberStyle.roundedMagnitude 10 1 (mkRat 17 12) = 14 := by decide +kernel
  obtain ⟨below, -, above⟩ :=
    root_rounds_within_guard 1 10 2 (1 / 2) (mkRat 17 12) (by decide) half_den.ge evaluated
  rw [radicand_half, half_den, units] at below above
  have radicand : |(2 : ℚ)| * (2 * 10 ^ 1) ^ 2 = 800 := by norm_num
  simp only [radicand, Nat.cast_ofNat] at below above
  have clear (h : ℕ) (past : (800 : ℚ) < (2 * h + 1) ^ 2) :
      (800 : ℚ) < (2 * h + 1 - 2 / 10) ^ 2 := by
    have half : 14 ≤ h := by
      by_contra short
      have before : (h : ℚ) ≤ 13 := by exact_mod_cast Nat.lt_succ_iff.mp (not_le.mp short)
      nlinarith
    have after : (14 : ℚ) ≤ h := by exact_mod_cast half
    nlinarith
  exact ⟨evaluated, units, above clear (by decide), below⟩

/-- The square root of 1.0000000001, to ten places, is below a half of the last of them, and what is
found is that half, which is rounded up. -/
theorem root_rounded_up_past_half :
    power (.shown 10 10) (mkRat 10000000001 10000000000) (1 / 2) =
        .ok (mkRat 20000000001 20000000000) ∧
      NumberStyle.roundedMagnitude 10 10 (mkRat 20000000001 20000000000) = 10000000001 ∧
      ({} : NumberStyle).render 10 (mkRat 20000000001 20000000000) = "1.0000000001".toList ∧
      ¬∀ (base exponent y : ℚ) (precision radix : ℕ), 2 ≤ exponent.den → 2 ≤ radix →
        power (.shown precision radix) base exponent = .ok y →
          let R : ℚ := (if exponent < 0 then base⁻¹ else base) ^ exponent.num.natAbs
          let m := NumberStyle.roundedMagnitude radix precision y
          (1 ≤ m → (2 * m - 1 : ℚ) ^ exponent.den ≤ |R| * (2 * radix ^ precision) ^ exponent.den) ∧
            |R| * (2 * radix ^ precision) ^ exponent.den < (2 * m + 1 : ℚ) ^ exponent.den := by
  have evaluated : power (.shown 10 10) (mkRat 10000000001 10000000000) (1 / 2) =
      .ok (mkRat 20000000001 20000000000) := by decide +kernel
  have units : NumberStyle.roundedMagnitude 10 10 (mkRat 20000000001 20000000000) =
      10000000001 := by decide +kernel
  refine ⟨evaluated, units, by decide +kernel, fun rounds => ?_⟩
  obtain ⟨atLeast, -⟩ := rounds _ _ _ 10 10 half_den.ge (by decide) evaluated
  rw [radicand_half, half_den, units] at atLeast
  exact absurd (atLeast (by decide)) (by decide +kernel)

/-- A number with so many places that is found for a root without is above the root, by the guard
or less. -/
theorem IsRootOf.window_of_units {precision radix k : ℕ}
    (found : IsRootOf radicand degree (1 / radix ^ (precision + 1)) y) (proper : 0 < degree)
    (digits : 2 ≤ radix) (inexact : ∀ k : ℤ, (k / radix ^ precision : ℚ) ^ degree ≠ |radicand|)
    (units : |y| * radix ^ precision = k) :
    (k - 1 / radix) ^ degree ≤ |radicand| * (radix ^ precision) ^ degree ∧
      |radicand| * (radix ^ precision) ^ degree < k ^ degree := by
  have positive : (0 : ℚ) < radix := by exact_mod_cast (by omega : 0 < radix)
  have weight : (0 : ℚ) < radix ^ precision := by positivity
  have below : |radicand| * (radix ^ precision) ^ degree < k ^ degree := by
    refine (found.le_of_le weight.le units.le).lt_of_ne fun same => inexact k ?_
    rw [div_pow, Int.cast_natCast, ← same, mul_div_assoc, div_self (pow_pos weight _).ne', mul_one]
  have nonzero : k ≠ 0 := by
    rintro rfl
    rw [Nat.cast_zero, zero_pow proper.ne'] at below
    exact below.not_ge (by positivity)
  have one_le : (1 : ℚ) ≤ k := by exact_mod_cast Nat.one_le_iff_ne_zero.mpr nonzero
  have guard := guard_eq precision digits
  have half := guard_le_half digits
  have near := found.sub_le_of_le weight.le units.ge (by rw [guard]; linarith)
  rw [guard] at near
  exact ⟨near, below⟩

/-- A number between two adjacent squares is not a square. -/
theorem sq_ne_of_between (n : ℕ) {units : ℕ} (above : n ^ 2 < units) (below : units < (n + 1) ^ 2)
    (k : ℤ) : (k : ℚ) ^ 2 ≠ units := by
  intro square
  refine Nat.not_exists_sq' above below ⟨k.natAbs, ?_⟩
  have magnitude : (k.natAbs : ℤ) ^ 2 = units := by
    rw [Int.natAbs_sq]
    exact_mod_cast square
  exact_mod_cast magnitude

/-- Let a root not end within so many places. Then what is found does not either, and is shown with
all of them, if no number with so many places is above the true root by the guard or less. In any
case a number with so many places that is found is above the true root, by the guard or less. -/
theorem inexact_root_shows_places (precision radix : ℕ) (base exponent y : ℚ) (digits : 2 ≤ radix)
    (fractional : 2 ≤ exponent.den)
    (success : power (.shown precision radix) base exponent = .ok y) :
    let R : ℚ := (if exponent < 0 then base⁻¹ else base) ^ exponent.num.natAbs
    let d := exponent.den
    let X := |R| * (radix ^ precision) ^ d
    (∀ k : ℤ, (k / radix ^ precision : ℚ) ^ d ≠ |R|) →
      (∀ k : ℕ, |y| * radix ^ precision = k → (k - 1 / radix) ^ d ≤ X ∧ X < k ^ d) ∧
      ((∀ k : ℕ, X < k ^ d → X < (k - 1 / radix) ^ d) →
        (∀ k : ℤ, y * radix ^ precision ≠ k) ∧
          ∀ style : NumberStyle, style.radix = radix →
            (Literal.fractionPart (style.render precision y)).length = precision) := by
  intro R d X inexact
  have found := isRootOf_of_power digits fractional success
  have weight : (0 : ℚ) ≤ radix ^ precision := by positivity
  have onGrid (k : ℕ) (units : |y| * radix ^ precision = k) :
      (k - 1 / radix) ^ d ≤ X ∧ X < k ^ d :=
    found.window_of_units (by omega) digits inexact units
  refine ⟨onGrid, fun clear => ?_⟩
  have offGrid : ∀ k : ℤ, y * radix ^ precision ≠ k := by
    intro k units
    have magnitude : |y| * radix ^ precision = k.natAbs := by
      rw [Nat.cast_natAbs, Int.cast_abs, ← units, abs_mul, abs_of_nonneg weight]
    obtain ⟨near, below⟩ := onGrid _ magnitude
    exact near.not_gt (clear _ below)
  refine ⟨offGrid, ?_⟩
  rintro style rfl
  refine NumberStyle.length_fractionPart_render digits ?_
  rw [← Bool.not_eq_true, NumberStyle.isExact_iff]
  rintro ⟨k, units⟩
  exact offGrid k units

/-- The square root of two, to one place: no number with one place is close above it. -/
theorem inexact_root_shows_places_two :
    power (.shown 1 10) 2 (1 / 2) = .ok (mkRat 17 12) ∧
      (Literal.fractionPart (({} : NumberStyle).render 1 (mkRat 17 12))).length = 1 := by
  have evaluated : power (.shown 1 10) 2 (1 / 2) = .ok (mkRat 17 12) := by decide +kernel
  have shown :=
    inexact_root_shows_places 1 10 2 (1 / 2) (mkRat 17 12) (by decide) half_den.ge evaluated
  rw [radicand_half, half_den] at shown
  simp only [abs_two, Nat.cast_ofNat, pow_one] at shown
  have inexact (k : ℤ) : (k / 10 : ℚ) ^ 2 ≠ 2 := by
    rw [div_pow, Ne, div_eq_iff (by norm_num)]
    have square : (k : ℚ) ^ 2 ≠ (200 : ℕ) := sq_ne_of_between 14 (by decide) (by decide) k
    exact_mod_cast square
  have clear (k : ℕ) (past : (2 : ℚ) * 10 ^ 2 < k ^ 2) : (2 : ℚ) * 10 ^ 2 < (k - 1 / 10) ^ 2 := by
    have unit : 15 ≤ k := by
      by_contra short
      have before : (k : ℚ) ≤ 14 := by exact_mod_cast Nat.lt_succ_iff.mp (not_le.mp short)
      nlinarith
    have after : (15 : ℚ) ≤ k := by exact_mod_cast unit
    nlinarith
  exact ⟨evaluated, ((shown inexact).2 clear).2 _ rfl⟩

/-- The square root of 1.000002, to ten places, is found as 1.000001, which is above it, and is
shown with six places alone. -/
theorem inexact_root_shown_as_exact :
    power (.shown 10 10) (mkRat 1000002 1000000) (1 / 2) = .ok (mkRat 1000001 1000000) ∧
      ({} : NumberStyle).render 10 (mkRat 1000001 1000000) = "1.000001".toList ∧
      ¬∀ (base exponent y : ℚ) (precision radix : ℕ), 2 ≤ exponent.den → 1 ≤ precision →
        2 ≤ radix → power (.shown precision radix) base exponent = .ok y →
          let R : ℚ := (if exponent < 0 then base⁻¹ else base) ^ exponent.num.natAbs
          (∀ k : ℤ, (k / radix ^ precision : ℚ) ^ exponent.den ≠ |R|) →
            (∀ k : ℤ, y * radix ^ precision ≠ k) ∧
              ∀ style : NumberStyle, style.radix = radix →
                (Literal.fractionPart (style.render precision y)).length = precision := by
  have evaluated : power (.shown 10 10) (mkRat 1000002 1000000) (1 / 2) =
      .ok (mkRat 1000001 1000000) := by decide +kernel
  refine ⟨evaluated, by decide +kernel, fun padded => ?_⟩
  have shown := padded _ _ _ 10 10 half_den.ge (by decide) (by decide) evaluated
  rw [radicand_half, half_den] at shown
  have inexact (k : ℤ) : (k / (10 : ℕ) ^ 10 : ℚ) ^ 2 ≠ |mkRat 1000002 1000000| := by
    have radicand : |mkRat 1000002 1000000| * ((10 : ℕ) ^ 10) ^ 2 =
        (100000200000000000000 : ℕ) := by decide +kernel
    rw [div_pow, Ne, div_eq_iff (by norm_num), radicand]
    exact sq_ne_of_between 10000009999 (by decide) (by decide) k
  exact (shown inexact).1 10000010000 (by decide +kernel)

end ExactCalc.Power
