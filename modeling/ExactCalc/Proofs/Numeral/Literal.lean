import Mathlib.Data.List.TakeWhile
import Mathlib.Data.Rat.Lemmas
import ExactCalc.Numeral.Literal
import ExactCalc.Proofs.Numeral.Positional

/-!
# What a number literal denotes

`Literal.Denotes` says what literals there are and what they denote, without a reader:
`value?_eq_some` says that these are the words that have a value, which is what they denote.
`read_eq_ok_iff` and `read_eq_error_iff` say that reading a word gives its value, unless the word is
no literal or has more digits than can be converted.
-/
namespace ExactCalc

namespace Digit

/-- The digits below sixteen are read back from their characters, in either case of letter. -/
theorem ofChar?_toChar {digit : Nat} (bound : digit < 16) :
    ofChar? (toChar digit) = some digit ∧ ofChar? (toChar digit).toUpper = some digit := by
  have all : ∀ d : Fin 16,
      ofChar? (toChar d) = some d.val ∧ ofChar? (toChar d).toUpper = some d.val := by
    decide
  exact all ⟨digit, bound⟩

theorem read?_eq_some {radix digit : Nat} {c : Char} :
    read? radix c = some digit ↔ ofChar? c = some digit ∧ digit < radix := by
  simp [read?, Option.filter_eq_some_iff]

/-- The digits of a radix are read back from their characters, in either case of letter. -/
theorem read?_toChar {radix digit : Nat} (readable : radix ≤ 16) (small : digit < radix) :
    read? radix (toChar digit) = some digit ∧ read? radix (toChar digit).toUpper = some digit := by
  obtain ⟨lower, upper⟩ := ofChar?_toChar (Nat.lt_of_lt_of_le small readable)
  exact ⟨read?_eq_some.mpr ⟨lower, small⟩, read?_eq_some.mpr ⟨upper, small⟩⟩

theorem read?_none {radix : Nat} {c : Char} (noDigit : ofChar? c = none) :
    read? radix c = none := by
  simp [read?, noDigit]

/-- Only ASCII characters are digits. -/
theorem isAscii_of_ofChar? {c : Char} {digit : Nat} (isDigit : ofChar? c = some digit) :
    Text.isAscii c = true := by
  have bound (low high : Char) (within : low ≤ c ∧ c ≤ high) : c.toNat ≤ high.toNat := within.2
  simp only [Text.isAscii, decide_eq_true_eq]
  unfold ofChar? at isDigit
  split at isDigit
  next within => exact Nat.lt_of_le_of_lt (bound _ _ within) (by decide)
  split at isDigit
  next within => exact Nat.lt_of_le_of_lt (bound _ _ within) (by decide)
  split at isDigit
  next within => exact Nat.lt_of_le_of_lt (bound _ _ within) (by decide)
  next => cases isDigit

end Digit

namespace Literal

variable {radix : Nat}

/-- The characters of a text are the digits of a row, one for one. -/
def Spells (radix : Nat) (text : Text) (digits : List Nat) : Prop :=
  text.map (Digit.read? radix) = digits.map some

/-- A word without its underscores. -/
def bare (word : Text) : Text := word.filter (· ≠ '_')

/-- A word is a literal of a value. Without its underscores it consists of digits with at most one
point among them, and has at least one digit. Its value is the integer of all digits, divided by the
radix to the number of those after the point. -/
def Denotes (radix : Nat) (word : Text) (v : Rat) : Prop :=
  ∃ (whole fraction : Text) (digits : List Nat),
    (bare word = whole ++ '.' :: fraction ∨ bare word = whole ∧ fraction = []) ∧
    Spells radix (whole ++ fraction) digits ∧ digits ≠ [] ∧
    v = (Positional.value radix digits : Rat) / (Positional.weight radix fraction.length : Nat)

namespace Spells

theorem append {text text' : Text} {digits digits' : List Nat} (first : Spells radix text digits)
    (second : Spells radix text' digits') : Spells radix (text ++ text') (digits ++ digits') := by
  unfold Spells at *
  simp [first, second]

theorem length_eq {text : Text} {digits : List Nat} (spells : Spells radix text digits) :
    text.length = digits.length := by
  simpa using congrArg List.length spells

/-- Every character of a row of digits is one. -/
theorem char {text : Text} {digits : List Nat} (spells : Spells radix text digits) :
    ∀ c ∈ text, ∃ d, Digit.read? radix c = some d := by
  intro c member
  have read : Digit.read? radix c ∈ digits.map some := spells ▸ List.mem_map_of_mem member
  obtain ⟨d, -, same⟩ := List.mem_map.mp read
  exact ⟨d, same.symm⟩

theorem lt_radix {text : Text} {digits : List Nat} (spells : Spells radix text digits) :
    ∀ d ∈ digits, d < radix := by
  intro d member
  have listed : some d ∈ text.map (Digit.read? radix) := spells ▸ List.mem_map_of_mem member
  obtain ⟨c, -, read⟩ := List.mem_map.mp listed
  exact (Digit.read?_eq_some.mp read).2

end Spells

theorem mapM_eq_some_iff {text : Text} {digits : List Nat} :
    text.mapM (Digit.read? radix) = some digits ↔ Spells radix text digits := by
  unfold Spells
  induction text generalizing digits with
  | nil => cases digits <;> simp
  | cons c text ih =>
    cases digits with
    | nil => simp [List.mapM_cons, Option.bind_eq_some_iff]
    | cons d digits => simp [List.mapM_cons, Option.bind_eq_some_iff, ih]

theorem ne_point_of_read {c : Char} {d : Nat} (read : Digit.read? radix c = some d) : c ≠ '.' := by
  rintro rfl
  simp [Digit.read?_none (c := '.') rfl] at read

/-- No digit is a point or an underscore. -/
theorem Spells.unmarked {text : Text} {digits : List Nat} (spells : Spells radix text digits) :
    ∀ c ∈ text, c ≠ '.' ∧ c ≠ '_' := by
  intro c member
  obtain ⟨d, read⟩ := spells.char c member
  refine ⟨ne_point_of_read read, ?_⟩
  rintro rfl
  simp [Digit.read?_none (c := '_') rfl] at read

theorem spells_replicate {c : Char} {d : Nat} (read : Digit.read? radix c = some d) (k : Nat) :
    Spells radix (List.replicate k c) (List.replicate k d) := by
  simp [Spells, read]

/-- Zeros spell zeros. -/
theorem spells_zeros (positive : 0 < radix) (k : Nat) :
    Spells radix (List.replicate k '0') (List.replicate k 0) :=
  spells_replicate (Digit.read?_eq_some.mpr ⟨rfl, positive⟩) k

/-- What stands before the first point of a text, or all of a text without one. -/
def wholePart (text : Text) : Text := text.takeWhile (· ≠ '.')

/-- What stands after the first point of a text. -/
def fractionPart (text : Text) : Text := (text.dropWhile (· ≠ '.')).drop 1

theorem eq_parts (text : Text) :
    text = wholePart text ++ '.' :: fractionPart text ∨
      text = wholePart text ∧ fractionPart text = [] := by
  have split : wholePart text ++ text.dropWhile (· ≠ '.') = text :=
    List.takeWhile_append_dropWhile
  rw [fractionPart]
  cases after : text.dropWhile (· ≠ '.') with
  | nil =>
    rw [after, List.append_nil] at split
    exact .inr ⟨split.symm, rfl⟩
  | cons c later =>
    have found : text.dropWhile (· ≠ '.') ≠ [] := by
      rw [after]
      exact List.cons_ne_nil _ _
    have stops := List.head_dropWhile_not (· ≠ '.') found
    simp only [after, List.head_cons, decide_eq_false_iff_not, not_not] at stops
    subst stops
    rw [after] at split
    exact .inl split.symm

theorem takeWhile_no_point {whole : Text} (noPoint : ∀ c ∈ whole, c ≠ '.') :
    whole.takeWhile (· ≠ '.') = whole ∧ whole.dropWhile (· ≠ '.') = [] := by
  refine ⟨List.takeWhile_eq_self_iff.mpr ?_, List.dropWhile_eq_nil_iff.mpr ?_⟩ <;>
    simpa using noPoint

theorem parts_append {whole : Text} (noPoint : ∀ c ∈ whole, c ≠ '.') (fraction : Text) :
    wholePart (whole ++ '.' :: fraction) = whole ∧
      fractionPart (whole ++ '.' :: fraction) = fraction := by
  obtain ⟨taken, dropped⟩ := takeWhile_no_point noPoint
  have all : ∀ c ∈ whole, decide (c ≠ '.') = true := by simpa using noPoint
  constructor
  · rw [wholePart, List.takeWhile_append_of_pos all]
    simp
  · rw [fractionPart, List.dropWhile_append_of_pos all]
    simp

theorem parts_of_no_point {whole : Text} (noPoint : ∀ c ∈ whole, c ≠ '.') :
    wholePart whole = whole ∧ fractionPart whole = [] := by
  obtain ⟨taken, dropped⟩ := takeWhile_no_point noPoint
  exact ⟨taken, by rw [fractionPart, dropped]; rfl⟩

/-- The reader splits a word at the point and reads the digits of both parts as one row. -/
theorem value?_eq_some_iff_parts {word : Text} {v : Rat} :
    value? radix word = some v ↔
      ∃ digits, digits ≠ [] ∧
        Spells radix (wholePart (bare word) ++ fractionPart (bare word)) digits ∧
        v = (Positional.value radix digits : Rat) /
          (Positional.weight radix (fractionPart (bare word)).length : Nat) := by
  simp only [← mapM_eq_some_iff]
  unfold value? wholePart fractionPart bare
  dsimp only
  generalize List.mapM (Digit.read? radix) _ = row
  split
  next first rest =>
    rw [Rat.mkRat_eq_div, Int.cast_natCast]
    constructor
    · intro accepted
      cases accepted
      exact ⟨first :: rest, by simp, rfl, rfl⟩
    · rintro ⟨digits, -, read, rfl⟩
      cases read
      rfl
  next noDigits =>
    constructor
    · intro accepted
      cases accepted
    · rintro ⟨digits, nonempty, read, -⟩
      obtain ⟨first, rest, rfl⟩ := List.exists_cons_of_ne_nil nonempty
      exact absurd read (noDigits first rest)

/-- The words that have a value are the literals, and it is what they denote. -/
theorem value?_eq_some {word : Text} {v : Rat} :
    value? radix word = some v ↔ Denotes radix word v := by
  rw [value?_eq_some_iff_parts]
  constructor
  · rintro ⟨digits, nonempty, spells, rfl⟩
    exact ⟨_, _, digits, eq_parts _, spells, nonempty, rfl⟩
  · rintro ⟨whole, fraction, digits, split, spells, nonempty, rfl⟩
    have noPoint : ∀ c ∈ whole, c ≠ '.' := fun c member =>
      ne_point_of_read (spells.char c (List.mem_append_left _ member)).choose_spec
    have parts : wholePart (bare word) = whole ∧
        fractionPart (bare word) = fraction := by
      rcases split with kept | ⟨kept, rfl⟩
      · rw [kept]
        exact parts_append noPoint fraction
      · rw [kept]
        exact parts_of_no_point noPoint
    refine ⟨digits, nonempty, ?_, ?_⟩
    · rw [parts.1, parts.2]
      exact spells
    · rw [parts.2]

theorem bare_of_no_underscore {word : Text} (none : ∀ c ∈ word, c ≠ '_') : bare word = word :=
  List.filter_eq_self.mpr (by simpa using none)

/-- A row of digits is a literal of the integer that they denote. -/
theorem Spells.denotes {text : Text} {digits : List Nat} (spells : Spells radix text digits)
    (nonempty : digits ≠ []) : Denotes radix text (Positional.value radix digits : Rat) := by
  have same : bare text = text :=
    bare_of_no_underscore fun c member => (spells.unmarked c member).2
  refine ⟨text, [], digits, .inr ⟨same, rfl⟩, by rwa [List.append_nil], nonempty, ?_⟩
  exact (div_one _).symm

theorem value?_eq_none {word : Text} : value? radix word = none ↔ ∀ v, ¬Denotes radix word v := by
  simp only [Option.eq_none_iff_forall_ne_some, ne_eq, value?_eq_some]

theorem digitCount_append (word word' : Text) :
    digitCount (word ++ word') = digitCount word + digitCount word' := by
  rw [digitCount, List.filter_append, List.length_append, digitCount, digitCount]

theorem digitCount_le_of_sublist {word word' : Text} (inside : word.Sublist word') :
    digitCount word ≤ digitCount word' := (inside.filter _).length_le

theorem digitCount_le_length (word : Text) : digitCount word ≤ word.length :=
  List.length_filter_le _ word

/-- Underscores do not count. -/
theorem digitCount_bare (word : Text) : digitCount (bare word) = digitCount word := by
  simp only [digitCount, bare, List.filter_filter]
  congr 2
  funext c
  by_cases underscore : c = '_' <;> simp [underscore]

/-- Every digit counts, a zero in front like any other. -/
theorem digitCount_replicate {c : Char} (digit : c ≠ '_' ∧ c ≠ '.') (k : Nat) :
    digitCount (List.replicate k c) = k := by
  simp [digitCount, digit]

/-- A row of digits has as many digits as characters. -/
theorem Spells.digitCount_eq {text : Text} {digits : List Nat} (spells : Spells radix text digits) :
    digitCount text = digits.length := by
  rw [digitCount, List.filter_eq_self.mpr, spells.length_eq]
  intro c member
  simpa using (spells.unmarked c member).symm

/-- A word has few enough digits to be read, if it is a literal at all. -/
def Fits (radix : Nat) (word : Text) : Prop :=
  ∀ v, Denotes radix word v → Positional.Converts radix (digitCount word)

theorem Denotes.fits_iff {word : Text} {v : Rat} (denotes : Denotes radix word v) :
    Fits radix word ↔ Positional.Converts radix (digitCount word) :=
  ⟨fun fits => fits v denotes, fun converts _ _ => converts⟩

/-- A word that does not fit has more digits than are converted. -/
theorem lt_digitCount_of_not_fits {word : Text} (long : ¬Fits radix word) :
    Positional.digitLimit < digitCount word := by
  by_contra few
  exact long fun _ _ => .inr (not_lt.mp few)

/-- A literal that fits is read as what it denotes, and no other word is read. -/
theorem read_eq_ok_iff {word : Text} {v : Rat} :
    read radix word = .ok v ↔ Denotes radix word v ∧ Fits radix word := by
  rw [read]
  cases value : value? radix word with
  | none => simp [value?_eq_none.mp value v]
  | some w =>
    have denotes := value?_eq_some.mp value
    rw [denotes.fits_iff, ← value?_eq_some, value]
    by_cases converts : Positional.Converts radix (digitCount word) <;> simp [converts]

/-- Reading fails for a word that is no literal and for a literal that does not fit. -/
theorem read_eq_error_iff {word : Text} {reason : Unread} :
    read radix word = .error reason ↔
      (∀ v, ¬Denotes radix word v) ∧ reason = .malformed ∨
        ¬Fits radix word ∧ reason = .overlong (digitCount word) := by
  rw [read]
  cases value : value? radix word with
  | none =>
    have noLiteral := value?_eq_none.mp value
    have fits : Fits radix word := fun v denotes => absurd denotes (noLiteral v)
    simp [noLiteral, fits, eq_comm]
  | some w =>
    have denotes := value?_eq_some.mp value
    have literal : ¬∀ v, ¬Denotes radix word v := fun none => none w denotes
    rw [denotes.fits_iff]
    by_cases converts : Positional.Converts radix (digitCount word) <;>
      simp [converts, literal, eq_comm]

/-- Every character of a literal is a digit, a point or an underscore. -/
theorem Denotes.char {word : Text} {v : Rat} (denotes : Denotes radix word v) :
    ∀ c ∈ word, c = '_' ∨ c = '.' ∨ ∃ d, Digit.read? radix c = some d := by
  obtain ⟨whole, fraction, digits, split, spells, -, -⟩ := denotes
  intro c member
  by_cases underscore : c = '_'
  · exact .inl underscore
  have kept : c ∈ bare word := List.mem_filter.mpr ⟨member, by simpa using underscore⟩
  have found : c = '.' ∨ c ∈ whole ++ fraction := by
    rcases split with same | ⟨same, rfl⟩
    · rw [same] at kept
      simp only [List.mem_append, List.mem_cons] at kept ⊢
      tauto
    · rw [same] at kept
      exact .inr (List.mem_append_left _ kept)
  exact .inr (found.imp_right fun inside => spells.char c inside)

/-- What a short word denotes has a small numerator and a small denominator. -/
theorem Denotes.lt_weight {word : Text} {v : Rat} {k : Nat} (two_le : 2 ≤ radix)
    (denotes : Denotes radix word v) (short : word.length ≤ k) :
    v.num.natAbs < Positional.weight radix k ∧ v.den < Positional.weight radix k := by
  rw [Positional.weight_eq]
  obtain ⟨whole, fraction, digits, split, spells, nonempty, same⟩ := denotes
  have length := spells.length_eq
  rw [List.length_append] at length
  have some : 0 < digits.length := List.length_pos_iff.mpr nonempty
  have bare_le : (bare word).length ≤ k := (List.length_filter_le _ word).trans short
  -- A point stands before the places, and a literal without places has a digit.
  obtain ⟨few, fewPlaces⟩ : digits.length ≤ k ∧ fraction.length < k := by
    rcases split with parts | ⟨parts, rfl⟩ <;>
      simp only [parts, List.length_append, List.length_cons, List.length_nil] at * <;> omega
  have row : Positional.value radix digits < radix ^ k :=
    (Positional.value_lt two_le spells.lt_radix).trans_le (Nat.pow_le_pow_right (by omega) few)
  have weight : radix ^ fraction.length < radix ^ k := Nat.pow_lt_pow_right two_le fewPlaces
  have positive : 0 < radix ^ fraction.length := Nat.pow_pos (by omega)
  have asFraction : v = Rat.divInt (Positional.value radix digits : ℕ)
      (radix ^ fraction.length : ℕ) := by
    rw [same, Rat.divInt_eq_div]
    rfl
  have above : v.num.natAbs ∣ Positional.value radix digits := by
    rw [← Int.natAbs_natCast (Positional.value radix digits), Int.natAbs_dvd_natAbs, asFraction]
    exact Rat.num_dvd _ (by exact_mod_cast positive.ne')
  have below : v.den ∣ radix ^ fraction.length := by
    rw [asFraction, ← Int.natCast_dvd_natCast]
    exact Rat.den_dvd _ _
  refine ⟨?_, (Nat.le_of_dvd positive below).trans_lt weight⟩
  rcases Nat.eq_zero_or_pos (Positional.value radix digits) with zero | nonzero
  · rw [asFraction, zero]
    simpa using row.trans_le' (Nat.zero_le _)
  · exact (Nat.le_of_dvd nonzero above).trans_lt row

/-- Words that are alike without their underscores are literals of the same number. -/
theorem Denotes.of_bare_eq {word word' : Text} {v : Rat} (denotes : Denotes radix word v)
    (same : bare word' = bare word) : Denotes radix word' v := by
  obtain ⟨whole, fraction, digits, split, rest⟩ := denotes
  exact ⟨whole, fraction, digits, same ▸ split, rest⟩

/-- A literal is not empty. -/
theorem Denotes.ne_nil {word : Text} {v : Rat} (denotes : Denotes radix word v) : word ≠ [] := by
  obtain ⟨whole, fraction, digits, split, spells, nonempty, -⟩ := denotes
  rintro rfl
  rcases split with same | ⟨same, rfl⟩
  · simp [bare] at same
  · obtain rfl : whole = [] := same.symm
    exact nonempty (List.length_eq_zero_iff.mp spells.length_eq.symm)

end Literal
end ExactCalc
