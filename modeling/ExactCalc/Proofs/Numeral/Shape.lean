import ExactCalc.Proofs.Numeral.Places

/-!
# The shape of rendered numbers

A rendered number is a sign, the digits of its whole part and, after a point, its places. None of
these depends on how the number is styled: commas only part the whole digits in groups of three and
capitals only change letters. Whether places are padded or trimmed depends on the number before it
is rounded, and the sign also on the number that it is rounded to.
-/
namespace ExactCalc

namespace Positional

variable {radix n : Nat}

/-- A row of digits is the notation of a number in a radix: its digits denote the number, and no
zero stands before other digits. -/
structure IsNotation (radix n : Nat) (digits : List Nat) : Prop where
  lt_radix : ∀ d ∈ digits, d < radix
  denotes : value radix digits = n
  nonempty : digits ≠ []
  noLeadingZero : ∀ rest, digits = 0 :: rest → rest = []

theorem isNotation_digits (two_le : 2 ≤ radix) (n : Nat) :
    IsNotation radix n (digits radix n) where
  lt_radix _ member := lt_of_mem_digits two_le member
  denotes := value_digits two_le n
  nonempty := digits_ne_nil two_le n
  noLeadingZero rest split := by
    rw [digits] at split
    split at split
    next => simpa using split.symm
    next nonzero =>
      rw [digitsReversed_eq two_le] at split
      have last := Nat.getLast_digit_ne_zero radix nonzero
      have reversed : Nat.digits radix n = rest.reverse ++ [0] := by
        rw [← List.reverse_reverse (Nat.digits radix n), split, List.reverse_cons]
      simp [reversed] at last

end Positional

namespace NumberStyle

open Positional

/-- A text is parted by a mark in groups of three, of which only the first may be shorter. -/
def Grouped (mark : Char) (text parted : Text) : Prop :=
  ∃ (first : Text) (later : List Text),
    text = first ++ later.flatten ∧ parted = first ++ later.flatMap (mark :: ·) ∧
      1 ≤ first.length ∧ first.length ≤ 3 ∧ ∀ group ∈ later, group.length = 3

/-- Commas part a text in groups of three. -/
theorem grouped_group (mark : Char) {text : Text} (nonempty : text ≠ []) :
    Grouped mark text (group mark text) := by
  induction text with
  | nil => exact absurd rfl nonempty
  | cons c rest ih =>
    by_cases last : rest = []
    · subst last
      exact ⟨[c], [], rfl, rfl, Nat.le_refl 1, Nat.le_add_left 1 2, by simp⟩
    obtain ⟨first, later, isText, isParted, atLeast, atMost, three⟩ := ih last
    have length : rest.length = first.length + 3 * later.length := by
      have groups : (later.map List.length).sum = later.length * 3 := by
        rw [List.map_congr_left three, List.map_const', List.sum_replicate_nat]
      rw [isText, List.length_append, List.length_flatten, groups]
      omega
    unfold group
    split
    next full =>
      -- The first group of the rest is full, and the character makes a group by itself.
      have isFull : first.length = 3 := by omega
      refine ⟨[c], first :: later, ?_, ?_, Nat.le_refl 1, Nat.le_add_left 1 2, ?_⟩
      · simp [isText]
      · simp [isParted]
      · simpa [isFull] using three
    next short =>
      have room : first.length < 3 := by
        by_contra full
        exact short ⟨last, by omega⟩
      refine ⟨c :: first, later, ?_, ?_, Nat.le_add_left 1 _, room, three⟩
      · simp [isText]
      · simp [isParted]

/-- A natural number is written as its digits in a radix, and with commas as the same digits parted
in groups of three. -/
structure IsWhole (radix n : Nat) (whole : Bool → Text) : Prop where
  digits : ∃ digits, IsNotation radix n digits ∧ whole false = digits.map Digit.toChar
  commas : Grouped ',' (whole false) (whole true)

/-- The places of a number that is rounded to so many units of the last one: digits of the part of
the units that makes no whole. The last places may be left out where they are zero, and are left out
only if the number did not have to be rounded. -/
structure IsFraction (radix precision units : Nat) (v : ℚ) (fraction : Text) : Prop where
  digits : ∃ digits, fraction = digits.map Digit.toChar ∧ (∀ d ∈ digits, d < radix) ∧
    ∃ missing, digits.length + missing = precision ∧
      value radix digits * radix ^ missing = units % radix ^ precision
  padded : (¬∃ n : ℤ, v * radix ^ precision = n) → fraction.length = precision
  trimmed : (∃ n : ℤ, v * radix ^ precision = n) → fraction.getLast? ≠ some '0'

variable {radix : Nat}

theorem isWhole_whole (two_le : 2 ≤ radix) (n : Nat) :
    IsWhole radix n fun commas => (⟨radix, commas, false⟩ : NumberStyle).whole n where
  digits := ⟨_, isNotation_digits two_le n, rfl⟩
  commas := grouped_group ',' (List.map_eq_nil_iff.not.mpr (digits_ne_nil two_le n))

/-- The places of a number are those of the units that it is rounded to. -/
theorem isFraction_places (two_le : 2 ≤ radix) (precision units : Nat) (v : ℚ) :
    IsFraction radix precision units v ((⟨radix, false, false⟩ : NumberStyle).places precision
      (units % radix ^ precision) (isExact radix precision v)) := by
  have bound : units % radix ^ precision < radix ^ precision :=
    Nat.mod_lt _ (Nat.pow_pos (by omega))
  refine ⟨exists_digits_places two_le bound _, fun inexact => ?_, fun exact => ?_⟩
  · rw [← isExact_iff, Bool.not_eq_true] at inexact
    rw [inexact]
    exact length_places two_le bound
  · rw [isExact_iff.mpr exact]
    unfold places
    split
    next => simp
    next => exact Text.getLast?_dropTrailing _

theorem roundedMagnitude_eq_floor (radix precision : Nat) (v : ℚ) :
    roundedMagnitude radix precision v = ⌊|v| * radix ^ precision + 1 / 2⌋₊ := by
  have units := roundedMagnitude_eq radix precision v
  rw [weight_eq, Nat.cast_pow] at units
  rw [← Int.floor_toNat, ← units, Int.toNat_natCast]

/-- A number rounded to a precision is written from parts that no style changes, with and without
commas and with and without capital letters: a minus sign if the number is below zero and not
rounded to zero, the whole part of the units that it is rounded to, and its places after a point if
there are any. -/
def IsRounding (radix precision : Nat) (v : ℚ) (written : Bool → Bool → Text) : Prop :=
  ∃ (units : Nat) (whole : Bool → Text) (fraction : Text),
    units = ⌊|v| * radix ^ precision + 1 / 2⌋₊ ∧
    IsWhole radix (units / radix ^ precision) whole ∧
    IsFraction radix precision units v fraction ∧
    ∀ commas upper, written commas upper =
      Text.cased upper ((if v < 0 ∧ units ≠ 0 then ['-'] else []) ++ whole commas ++
        (if fraction = [] then [] else '.' :: fraction))

/-- A fraction is written from parts that no style changes: a minus sign if it is below zero, its
numerator, and its denominator after a bar unless it is an integer. -/
def IsQuotient (radix : Nat) (v : ℚ) (written : Bool → Bool → Text) : Prop :=
  ∃ above below : Bool → Text,
    IsWhole radix v.num.natAbs above ∧ IsWhole radix v.den below ∧
    ∀ commas upper, written commas upper =
      Text.cased upper ((if v < 0 then ['-'] else []) ++ above commas ++
        (if v.isInt then [] else '/' :: below commas))

theorem isRounding_render (two_le : 2 ≤ radix) (precision : Nat) (v : ℚ) :
    IsRounding radix precision v fun commas upper =>
      (⟨radix, commas, upper⟩ : NumberStyle).render precision v := by
  refine ⟨_, _, _, roundedMagnitude_eq_floor radix precision v, isWhole_whole two_le _,
    isFraction_places two_le precision _ v, fun commas upper => ?_⟩
  have minus := Text.cased_cons upper (show '-'.toUpper = '-' by rfl)
  have point := Text.cased_cons upper (show '.'.toUpper = '.' by rfl)
  simp only [render, whole_eq radix commas upper, places_eq radix commas upper, weight_eq,
    Text.cased_append, apply_ite (Text.cased upper), Text.cased_nil, Text.cased_eq_nil_iff, minus,
    point, List.append_assoc]
  congr 2
  split
  next empty => rw [empty, Text.cased_nil]; rfl
  next => rfl

theorem isQuotient_renderFraction (two_le : 2 ≤ radix) (v : ℚ) :
    IsQuotient radix v fun commas upper =>
      (⟨radix, commas, upper⟩ : NumberStyle).renderFraction v := by
  refine ⟨_, _, isWhole_whole two_le _, isWhole_whole two_le _, fun commas upper => ?_⟩
  have integral : v.isInt = true ↔ v.den = 1 := by simp [Rat.isInt]
  have minus := Text.cased_cons upper (show '-'.toUpper = '-' by rfl)
  have bar := Text.cased_cons upper (show '/'.toUpper = '/' by rfl)
  simp only [renderFraction, whole_eq radix commas upper, Text.cased_append,
    apply_ite (Text.cased upper), Text.cased_nil, minus, bar, integral]

/-- In every radix a number is written from the same parts in all styles, whether it is rounded to a
precision or written as a fraction. -/
theorem shape_of_rendered {radix : Nat} (two_le : 2 ≤ radix) (precision : Nat) (v : ℚ) :
    IsRounding radix precision v (fun commas upper =>
        (⟨radix, commas, upper⟩ : NumberStyle).render precision v) ∧
      IsQuotient radix v (fun commas upper =>
        (⟨radix, commas, upper⟩ : NumberStyle).renderFraction v) :=
  ⟨isRounding_render two_le precision v, isQuotient_renderFraction two_le v⟩

/-- Rounding to two places carries into a fourth digit before the point, which a comma parts from
the others. -/
theorem shape_of_rendered_carry :
    2 ≤ 10 ∧
    (IsRounding 10 2 (mkRat (-999999) 1000) (fun commas upper =>
        (⟨10, commas, upper⟩ : NumberStyle).render 2 (mkRat (-999999) 1000)) ∧
      IsQuotient 10 (mkRat (-999999) 1000) (fun commas upper =>
        (⟨10, commas, upper⟩ : NumberStyle).renderFraction (mkRat (-999999) 1000))) ∧
    (⟨10, true, false⟩ : NumberStyle).render 2 (mkRat (-999999) 1000) = "-1,000.00".toList ∧
    (⟨10, true, false⟩ : NumberStyle).renderFraction (mkRat (-999999) 1000) =
      "-999,999/1,000".toList :=
  ⟨by decide, shape_of_rendered (by decide) 2 _, by decide +kernel, by decide +kernel⟩

end NumberStyle
end ExactCalc
