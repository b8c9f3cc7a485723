import ExactCalc.Proofs.Numeral.Shape

/-!
# Numerals and numbers

A numeral is told by its characters: digits of the radix, in one case of letter, of which the first
is no zero unless it stands alone. It denotes the sum of its digits, each weighed by the radix to
the power of its place. Every number is written as a numeral that denotes it, and every numeral is
what is written of the number that it denotes, in every radix up to the number of digit characters.
The reader of literals reads a numeral as its number unless its digits are too many.
-/
namespace ExactCalc

namespace Digit

variable {radix digit : Nat} {upper : Bool} {c : Char}

/-- The digit characters, each in the place of the digit that it stands for. -/
def characters : Text := "0123456789abcdefghijklmnopqrstuvwxyz".toList

/-- The digit that a character stands for, in either case of letter. -/
def rank (c : Char) : Nat := characters.idxOf c.toLower

/-- The character that stands for a digit, in either case of letter. -/
def cased (upper : Bool) (digit : Nat) : Char :=
  if upper then (toChar digit).toUpper else toChar digit

theorem characters_eq : characters = (List.range 36).map toChar := by decide

theorem rank_cased (bound : digit < 36) : rank (cased upper digit) = digit := by
  have each : ∀ d : Fin 36, rank (cased false d) = d ∧ rank (cased true d) = d := by decide
  cases upper with
  | false => exact (each ⟨digit, bound⟩).1
  | true => exact (each ⟨digit, bound⟩).2

theorem cased_eq_zero_iff : cased upper digit = '0' ↔ digit = 0 := by
  have isZero : toChar digit = '0' ↔ digit = 0 :=
    ⟨eq_zero_of_toChar, fun zero => by rw [zero]; rfl⟩
  cases upper with
  | false => exact isZero
  | true => exact (toUpper_eq_iff (by decide)).trans isZero

end Digit

namespace Text

theorem cased_map (upper : Bool) (digits : List Nat) :
    cased upper (digits.map Digit.toChar) = digits.map (Digit.cased upper) := by
  cases upper with
  | false => rfl
  | true => exact List.map_map

/-- The digit characters of a radix are the characters of the digits below it. -/
theorem mem_cased_characters_iff {radix : Nat} {upper : Bool} {c : Char} (bound : radix ≤ 36) :
    c ∈ cased upper (Digit.characters.take radix) ↔ ∃ d < radix, Digit.cased upper d = c := by
  rw [Digit.characters_eq, ← List.map_take, List.take_range, Nat.min_eq_left bound, cased_map,
    List.mem_map]
  simp only [List.mem_range]

/-- A text is a numeral of a radix: it consists of digits of the radix in one case of letter, and
either is zero or begins with another digit. -/
structure IsNumeral (radix : Nat) (upper : Bool) (text : Text) : Prop where
  digits : ∀ c ∈ text, c ∈ cased upper (Digit.characters.take radix)
  leading : text = ['0'] ∨ ∃ first rest, text = first :: rest ∧ first ≠ '0'

/-- The number that a numeral denotes: its last digit counts once, and each digit counts for the
radix times what the digit after it counts for. -/
def positionalValue (radix : Nat) (text : Text) : Nat :=
  Nat.ofDigits radix (text.reverse.map Digit.rank)

/-- The digits that the characters of a numeral stand for. -/
theorem IsNumeral.rank_lt_and_cased {radix : Nat} {upper : Bool} {text : Text} (bound : radix ≤ 36)
    (numeral : IsNumeral radix upper text) :
    ∀ c ∈ text, Digit.rank c < radix ∧ Digit.cased upper (Digit.rank c) = c := by
  intro c member
  obtain ⟨d, small, rfl⟩ := (mem_cased_characters_iff bound).mp (numeral.digits c member)
  rw [Digit.rank_cased (small.trans_le bound)]
  exact ⟨small, rfl⟩

theorem positionalValue_eq (radix : Nat) (text : Text) :
    positionalValue radix text = Positional.value radix (text.map Digit.rank) := by
  rw [positionalValue, List.map_reverse, Positional.value_eq_ofDigits]

end Text

namespace Positional

variable {radix n : Nat} {upper : Bool} {digits : List Nat} {text : Text}

open Text

/-- A number has one notation in a radix, which is that of its digits. -/
theorem IsNotation.eq_digits (two_le : 2 ≤ radix) (isNotation : IsNotation radix n digits) :
    digits = Positional.digits radix n := by
  obtain ⟨small, denotes, nonempty, noLeadingZero⟩ := isNotation
  obtain ⟨first, rest, rfl⟩ := List.exists_cons_of_ne_nil nonempty
  by_cases zero : first = 0
  · obtain rfl := zero
    obtain rfl := noLeadingZero rest rfl
    obtain rfl : n = 0 := by simpa [value] using denotes.symm
    rfl
  · have reversed : Nat.digits radix n = (first :: rest).reverse := by
      rw [← denotes, value_eq_ofDigits]
      refine Nat.digits_ofDigits radix two_le _ (fun d member => ?_) fun _ => ?_
      · exact small d (List.mem_reverse.mp member)
      · simpa using zero
    have nonzero : n ≠ 0 := by
      rintro rfl
      simp at reversed
    rw [Positional.digits, if_neg nonzero, digitsReversed_eq two_le, reversed, List.reverse_reverse]

theorem map_rank_map_cased (bound : radix ≤ 36) (small : ∀ d ∈ digits, d < radix) :
    (digits.map (Digit.cased upper)).map Digit.rank = digits := by
  rw [List.map_map]
  refine (List.map_congr_left fun d member => ?_).trans (List.map_id digits)
  exact Digit.rank_cased ((small d member).trans_le bound)

/-- The characters of a notation are a numeral of its number. -/
theorem IsNotation.isNumeral (bound : radix ≤ 36) (isNotation : IsNotation radix n digits) :
    IsNumeral radix upper (digits.map (Digit.cased upper)) ∧
      positionalValue radix (digits.map (Digit.cased upper)) = n := by
  refine ⟨⟨fun c member => ?_, ?_⟩, ?_⟩
  · obtain ⟨d, inside, rfl⟩ := List.mem_map.mp member
    exact (mem_cased_characters_iff bound).mpr ⟨d, isNotation.lt_radix d inside, rfl⟩
  · obtain ⟨first, rest, split⟩ := List.exists_cons_of_ne_nil isNotation.nonempty
    by_cases zero : first = 0
    · obtain rfl := isNotation.noLeadingZero rest (split.trans (by rw [zero]))
      left
      rw [split, zero, List.map_singleton, Digit.cased_eq_zero_iff.mpr rfl]
    · right
      refine ⟨Digit.cased upper first, rest.map (Digit.cased upper), by rw [split]; rfl, ?_⟩
      exact mt Digit.cased_eq_zero_iff.mp zero
  · rw [positionalValue_eq, map_rank_map_cased bound isNotation.lt_radix, isNotation.denotes]

/-- The digits of a numeral are a notation of the number that it denotes. -/
theorem isNotation_of_isNumeral (bound : radix ≤ 36) (numeral : IsNumeral radix upper text) :
    IsNotation radix (positionalValue radix text) (text.map Digit.rank) := by
  have digits := numeral.rank_lt_and_cased bound
  refine ⟨fun d member => ?_, (positionalValue_eq radix text).symm, ?_, fun rest split => ?_⟩
  · obtain ⟨c, inside, rfl⟩ := List.mem_map.mp member
    exact (digits c inside).1
  · rw [Ne, List.map_eq_nil_iff]
    rintro rfl
    rcases numeral.leading with zero | ⟨first, rest, split, -⟩
    · cases zero
    · cases split
  · rcases numeral.leading with rfl | ⟨first, later, rfl, nonzero⟩
    · exact (List.cons.inj split).2.symm
    · have zero : Digit.rank first = 0 := (List.cons.inj split).1
      have isFirst := (digits first List.mem_cons_self).2
      rw [zero, Digit.cased_eq_zero_iff.mpr rfl] at isFirst
      exact absurd isFirst.symm nonzero

end Positional

namespace NumberStyle

open Text

variable {style : NumberStyle}

theorem plain_eq_map (style : NumberStyle) (n : Nat) :
    style.plain n = (Positional.digits style.radix n).map (Digit.cased style.upper) :=
  (style.plain_eq n).trans (cased_map _ _)

theorem ofInt_natCast (style : NumberStyle) (n : Nat) : style.ofInt n = .ok (style.plain n) :=
  if_neg (Int.natCast_nonneg n).not_gt

/-- What is written of a number is a numeral that denotes it. -/
theorem isNumeral_plain (two_le : 2 ≤ style.radix) (bound : style.radix ≤ 36) (n : Nat) :
    IsNumeral style.radix style.upper (style.plain n) ∧
      positionalValue style.radix (style.plain n) = n := by
  rw [plain_eq_map]
  exact (Positional.isNotation_digits two_le n).isNumeral bound

/-- A numeral is what is written of the number that it denotes. -/
theorem plain_positionalValue (two_le : 2 ≤ style.radix) (bound : style.radix ≤ 36) {text : Text}
    (numeral : IsNumeral style.radix style.upper text) :
    style.plain (positionalValue style.radix text) = text := by
  have digits := numeral.rank_lt_and_cased bound
  rw [plain_eq_map, ← (Positional.isNotation_of_isNumeral bound numeral).eq_digits two_le,
    List.map_map]
  exact (List.map_congr_left fun c member => (digits c member).2).trans (List.map_id text)

/-- The reader of literals reads what is written of a number as the number, unless it has too many
digits. -/
theorem read_plain (readable : style.Readable) (n : Nat) :
    Literal.read style.radix (style.plain n) =
      if Positional.Converts style.radix (style.plain n).length then .ok (n : ℚ)
      else .error (.overlong (style.plain n).length) := by
  have denotes := denotes_plain readable n
  have count := digitCount_plain readable n
  split
  next few => exact Literal.read_eq_ok_iff.mpr ⟨denotes, denotes.fits_iff.mpr (count ▸ few)⟩
  next many =>
    refine Literal.read_eq_error_iff.mpr (.inr ⟨fun fits => many ?_, by rw [count]⟩)
    exact count ▸ denotes.fits_iff.mp fits

/-- In every radix that has enough digit characters, and in either case of letter, the numerals and
the natural numbers correspond one to one: what is written of a number is a numeral that denotes it,
and a numeral is what is written of the number that it denotes. Up to radix sixteen the reader of
literals reads what is written of a number as the number, unless it has too many digits to be
converted. -/
theorem numerals_correspond (style : NumberStyle) (two_le : 2 ≤ style.radix)
    (bound : style.radix ≤ 36) :
    (∀ n : ℕ, ∃ text, style.ofInt n = .ok text ∧ IsNumeral style.radix style.upper text ∧
      positionalValue style.radix text = n) ∧
    (∀ text, IsNumeral style.radix style.upper text →
      style.ofInt (positionalValue style.radix text) = .ok text) ∧
    (style.radix ≤ 16 → ∀ (n : ℕ) (text : Text), style.ofInt n = .ok text →
      Literal.read style.radix text =
        if Positional.Converts style.radix text.length then .ok (n : ℚ)
        else .error (.overlong text.length)) := by
  refine ⟨fun n => ?_, fun text numeral => ?_, fun readable n text written => ?_⟩
  · exact ⟨style.plain n, style.ofInt_natCast n, isNumeral_plain two_le bound n⟩
  · rw [ofInt_natCast, plain_positionalValue two_le bound numeral]
  · rw [ofInt_natCast] at written
    obtain rfl := Except.ok.inj written
    exact read_plain ⟨two_le, readable⟩ n

/-- In radix sixteen and capital letters 2748 is written as `ABC`, which denotes it and is read as
it. -/
theorem numerals_correspond_hexadecimal :
    let style : NumberStyle := ⟨16, true, true⟩
    style.ofInt 2748 = .ok "ABC".toList ∧ IsNumeral 16 true "ABC".toList ∧
      positionalValue 16 "ABC".toList = 2748 ∧ Literal.read 16 "ABC".toList = .ok 2748 := by
  intro style
  have digits : "ABC".toList.all (cased true (Digit.characters.take 16)).contains = true := by
    decide
  have numeral : IsNumeral 16 true "ABC".toList :=
    ⟨fun c member => List.contains_iff_mem.mp (List.all_eq_true.mp digits c member),
      .inr ⟨'A', "BC".toList, rfl, by decide⟩⟩
  have denotes : positionalValue 16 "ABC".toList = 2748 := by decide +kernel
  obtain ⟨-, writes, reads⟩ := numerals_correspond style (by decide) (by decide)
  have written : style.ofInt (positionalValue 16 "ABC".toList) = .ok "ABC".toList :=
    writes _ numeral
  rw [denotes] at written
  have read := reads (by decide) 2748 _ written
  exact ⟨written, numeral, denotes, read.trans (if_pos (.inr (by decide)))⟩

/-- What is written of ten to the power 4300 has one digit too many to be read. -/
theorem power_of_ten_unread :
    ∃ text, ({} : NumberStyle).ofInt ((10 ^ 4300 : ℕ) : ℤ) = .ok text ∧
      IsNumeral 10 false text ∧ positionalValue 10 text = 10 ^ 4300 ∧
      Literal.read 10 text = .error (.overlong 4301) := by
  have readable : ({} : NumberStyle).Readable := ⟨by decide, by decide⟩
  have numeral : IsNumeral 10 false (({} : NumberStyle).plain (10 ^ 4300)) ∧
      positionalValue 10 (({} : NumberStyle).plain (10 ^ 4300)) = 10 ^ 4300 :=
    isNumeral_plain readable.two_le (readable.le_sixteen.trans (by decide)) _
  have length : (({} : NumberStyle).plain (10 ^ 4300)).length = 4301 := by
    rw [plain_eq_map, List.length_map, Positional.digits_pow (by decide), List.length_cons,
      List.length_replicate]
  refine ⟨_, ofInt_natCast _ _, numeral.1, numeral.2, ?_⟩
  have read := read_plain readable (10 ^ 4300)
  rw [length] at read
  exact read.trans (if_neg (by decide))

end NumberStyle
end ExactCalc
