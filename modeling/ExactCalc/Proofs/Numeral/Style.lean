import Mathlib.Data.List.DropRight
import Mathlib.Data.List.TakeWhile
import ExactCalc.Numeral.Display
import ExactCalc.Proofs.Numeral.Positional

/-!
# Digits in every style

Capital letters are a last touch: padding with zeros, leaving zeros out and putting commas in do the
same to a text in small letters. So whatever the style is, the text in front of the point and the
places after it are the characters of the same digits.
-/
namespace ExactCalc

namespace Digit

/-- The character of a code is no other character than the one with this code. -/
theorem ofNat_ne {n : Nat} {mark : Char} (other : n ≠ mark.toNat) (proper : mark ≠ Char.ofNat 0) :
    Char.ofNat n ≠ mark := by
  by_cases valid : n.isValidChar
  · rw [Char.ofNat, dif_pos valid]
    exact fun same => other (congrArg Char.toNat same)
  · rw [Char.ofNat, dif_neg valid]
    exact fun same => proper same.symm

theorem toChar_ne_point (digit : Nat) : toChar digit ≠ '.' := by
  have zero : '0'.toNat = 48 := rfl
  have a : 'a'.toNat = 97 := rfl
  have point : '.'.toNat = 46 := rfl
  unfold toChar
  rw [zero, a]
  split <;> exact ofNat_ne (by omega) (by decide)

theorem eq_zero_of_toChar {digit : Nat} (isZero : toChar digit = '0') : digit = 0 := by
  have zero : '0'.toNat = 48 := rfl
  have a : 'a'.toNat = 97 := rfl
  unfold toChar at isZero
  rw [zero, a] at isZero
  by_contra nonzero
  split at isZero <;> exact ofNat_ne (by omega) (by decide) isZero

/-- A character before the letters is no capital letter. -/
theorem toUpper_eq_iff {c mark : Char} (before : mark.toNat < 'A'.toNat) :
    c.toUpper = mark ↔ c = mark := by
  unfold Char.toUpper
  split
  next letter =>
    have first : 97 ≤ c.toNat := UInt32.le_iff_toNat_le.mp letter.1
    have last : c.toNat ≤ 122 := UInt32.le_iff_toNat_le.mp letter.2
    have a : 'A'.toNat = 65 := rfl
    have down : ('A'.val - 'a'.val).toNat = 2 ^ 32 - 32 := rfl
    constructor
    · intro same
      have value := congrArg (·.val.toNat) same
      simp only [UInt32.toNat_add, down] at value
      change (c.toNat + _) % _ = mark.toNat at value
      omega
    · rintro rfl
      omega
  next => exact Iff.rfl

end Digit

namespace Text

/-- What is dropped at the end of a text are zeros. -/
theorem dropTrailing_append (text : Text) :
    ∃ k, text = dropTrailing (· = '0') text ++ List.replicate k '0' := by
  refine ⟨(text.reverse.takeWhile (· = '0')).length, ?_⟩
  have zeros : text.reverse.takeWhile (· = '0') =
      List.replicate (text.reverse.takeWhile (· = '0')).length '0' := by
    refine List.eq_replicate_of_mem fun c member => ?_
    simpa using List.mem_takeWhile_imp member
  have split := List.takeWhile_append_dropWhile (p := (· = '0')) (l := text.reverse)
  rw [zeros] at split
  have reversed := congrArg List.reverse split
  rw [List.reverse_append, List.reverse_replicate, List.reverse_reverse] at reversed
  exact reversed.symm

theorem dropTrailing_idem (p : Char → Bool) (text : Text) :
    dropTrailing p (dropTrailing p text) = dropTrailing p text :=
  List.rdropWhile_idempotent p text

/-- No zero is left at the end. -/
theorem getLast?_dropTrailing (text : Text) :
    (dropTrailing (· = '0') text).getLast? ≠ some '0' := by
  intro last
  obtain ⟨before, split⟩ := List.getLast?_eq_some_iff.mp last
  have kept := List.rdropWhile_last_not (fun c => decide (c = '0')) text
    (show dropTrailing (· = '0') text ≠ [] by simp [split])
  change ¬decide ((dropTrailing (· = '0') text).getLast _ = '0') = true at kept
  simp [split] at kept

/-- A text in capital letters or as it is. -/
def cased (upper : Bool) (text : Text) : Text := if upper then raised text else text

theorem cased_nil (upper : Bool) : cased upper [] = [] := by
  cases upper <;> rfl

/-- A character that is no small letter stands in either case. -/
theorem cased_cons (upper : Bool) {c : Char} (unlettered : c.toUpper = c) (text : Text) :
    cased upper (c :: text) = c :: cased upper text := by
  cases upper with
  | false => rfl
  | true => simp [cased, raised, unlettered]

theorem cased_append (upper : Bool) (first second : Text) :
    cased upper (first ++ second) = cased upper first ++ cased upper second := by
  cases upper with
  | false => rfl
  | true => exact List.map_append

theorem cased_eq_nil_iff {upper : Bool} {text : Text} : cased upper text = [] ↔ text = [] := by
  cases upper with
  | false => exact Iff.rfl
  | true => exact List.map_eq_nil_iff

theorem leftpad_cased (upper : Bool) (places : Nat) (text : Text) :
    (cased upper text).leftpad places '0' = cased upper (text.leftpad places '0') := by
  cases upper with
  | false => rfl
  | true => simp [cased, raised, List.leftpad]

theorem dropTrailing_cased (upper : Bool) (text : Text) :
    dropTrailing (· = '0') (cased upper text) = cased upper (dropTrailing (· = '0') text) := by
  cases upper with
  | false => rfl
  | true =>
    have same : ((fun c => decide (c = '0')) ∘ Char.toUpper) = fun c => decide (c = '0') := by
      funext c
      simp [Digit.toUpper_eq_iff]
    simp only [cased, raised, dropTrailing, if_true]
    rw [← List.map_reverse, List.dropWhile_map, same, List.map_reverse]

end Text

namespace NumberStyle

open Positional

variable {style : NumberStyle}

theorem group_cased (upper : Bool) (text : Text) :
    group ',' (Text.cased upper text) = Text.cased upper (group ',' text) := by
  cases upper with
  | false => rfl
  | true =>
    induction text with
    | nil => rfl
    | cons c rest ih =>
      have step := ih
      simp only [Text.cased, Text.raised, if_true] at step ⊢
      simp only [group, List.map_cons, ne_eq, List.map_eq_nil_iff, List.length_map, step]
      split
      next => rfl
      next => rfl

theorem plain_eq (style : NumberStyle) (n : Nat) :
    style.plain n = Text.cased style.upper ((digits style.radix n).map Digit.toChar) := rfl

theorem whole_eq (radix : Nat) (commas upper : Bool) (n : Nat) :
    (⟨radix, commas, upper⟩ : NumberStyle).whole n =
      Text.cased upper ((⟨radix, commas, false⟩ : NumberStyle).whole n) := by
  cases commas with
  | false => rfl
  | true => exact group_cased upper (write radix n)

theorem places_eq (radix : Nat) (commas upper : Bool) (precision n : Nat) (exact : Bool) :
    (⟨radix, commas, upper⟩ : NumberStyle).places precision n exact =
      Text.cased upper ((⟨radix, false, false⟩ : NumberStyle).places precision n exact) := by
  have padded : ((⟨radix, commas, upper⟩ : NumberStyle).plain n).leftpad precision '0' =
      Text.cased upper ((write radix n).leftpad precision '0') :=
    Text.leftpad_cased upper precision (write radix n)
  unfold places
  rw [padded]
  by_cases none : precision = 0
  · simp [none, Text.cased_nil]
  · cases exact with
    | false => simp [none, plain]
    | true => simpa [none, plain] using Text.dropTrailing_cased upper _

/-- Padded with zeros, a number still has its value. -/
theorem exists_padded_digits (two_le : 2 ≤ style.radix) {n places : Nat} (positive : 0 < places)
    (bound : n < weight style.radix places) :
    ∃ digits, (style.plain n).leftpad places '0' =
        Text.cased style.upper (digits.map Digit.toChar) ∧
      (∀ d ∈ digits, d < style.radix) ∧ digits.length = places ∧
        value style.radix digits = n := by
  have short := length_digits_le two_le positive bound
  refine ⟨(digits style.radix n).leftpad places 0, ?_, ?_, ?_, ?_⟩
  · rw [plain_eq, Text.leftpad_cased]
    simp [List.leftpad, Digit.toChar]
  · intro d member
    rcases List.mem_append.mp member with zero | digit
    · obtain rfl := (List.mem_replicate.mp zero).2
      omega
    · exact lt_of_mem_digits two_le digit
  · rw [List.length_leftpad]
    exact Nat.max_eq_left short
  · rw [List.leftpad, value_append, value_replicate_zero, value_digits two_le]
    omega

/-- The places after the point, with or without the zeros at their end, denote their number when
the places that are left out are made up for. -/
theorem exists_digits_places (two_le : 2 ≤ style.radix) {precision n : Nat}
    (bound : n < weight style.radix precision) (exact : Bool) :
    ∃ digits, style.places precision n exact = Text.cased style.upper (digits.map Digit.toChar) ∧
      (∀ d ∈ digits, d < style.radix) ∧
      ∃ missing, digits.length + missing = precision ∧
        value style.radix digits * weight style.radix missing = n := by
  rcases Nat.eq_zero_or_pos precision with rfl | positive
  · have zero : n = 0 := Nat.lt_one_iff.mp bound
    exact ⟨[], (Text.cased_nil _).symm, by simp, 0, rfl, by simp [zero, value]⟩
  obtain ⟨digits, padded, small, length, denotes⟩ := exists_padded_digits two_le positive bound
  unfold places
  rw [if_neg positive.ne']
  cases exact with
  | false => exact ⟨digits, padded, small, 0, length, by simpa [weight] using denotes⟩
  | true =>
    simp only [padded, if_true, Text.dropTrailing_cased]
    obtain ⟨k, split⟩ := Text.dropTrailing_append (digits.map Digit.toChar)
    obtain ⟨kept, zeros, rfl, isKept, areZeros⟩ := List.map_eq_append_iff.mp split
    obtain rfl : zeros = List.replicate k 0 := by
      obtain ⟨many, each⟩ := List.eq_replicate_iff.mp areZeros
      refine List.eq_replicate_iff.mpr ⟨by simpa using many, fun d member => ?_⟩
      exact Digit.eq_zero_of_toChar (each _ (List.mem_map_of_mem member))
    refine ⟨kept, by rw [isKept], fun d member => small d (List.mem_append_left _ member), k, ?_,
      ?_⟩
    · simpa using length
    · simpa [value_append, value_replicate_zero] using denotes

end NumberStyle
end ExactCalc
