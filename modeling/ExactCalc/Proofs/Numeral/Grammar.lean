import ExactCalc.Proofs.Numeral.Literal
import ExactCalc.Proofs.Numeral.Positional

/-!
# The grammar of number literals

`Literal.Grammatical` says which words are literals by counting and looking at single characters:
at most one point, at least one digit and no other characters, underscores apart. `denotes_iff` says
that these are the literals, and what they denote. A number has many literals: underscores may stand
anywhere, letters may be small or capital, and zeros may stand in front of it and at the end of its
places.
-/
namespace ExactCalc

namespace Digit

variable {radix : Nat} {c : Char}

/-- What holds of the first 128 characters holds of every ASCII character. -/
theorem of_ascii {P : Char → Prop} (each : ∀ n : Fin 128, P (Char.ofNat n))
    (ascii : Text.isAscii c = true) : P c := by
  have bound : c.toNat < 128 := by simpa [Text.isAscii] using ascii
  have holds := each ⟨c.toNat, bound⟩
  rwa [Char.ofNat_toNat] at holds

/-- A character stands for a digit of a radix. From ten on it is a letter, small or capital. -/
def Stands (radix : Nat) (c : Char) (digit : Nat) : Prop :=
  digit < radix ∧ (c = toChar digit ∨ c = (toChar digit).toUpper)

theorem eq_toChar_of_ofChar? {digit : Nat} (isDigit : ofChar? c = some digit) :
    c = toChar digit ∨ c = (toChar digit).toUpper := by
  have each : ∀ n : Fin 128, ∀ d ∈ ofChar? (Char.ofNat n),
      Char.ofNat n = toChar d ∨ Char.ofNat n = (toChar d).toUpper := by
    decide
  have all : ∀ d ∈ ofChar? c, c = toChar d ∨ c = (toChar d).toUpper :=
    of_ascii (P := fun c => ∀ d ∈ ofChar? c, c = toChar d ∨ c = (toChar d).toUpper) each
      (isAscii_of_ofChar? isDigit)
  exact all digit isDigit

/-- Up to radix sixteen the digits that are read are those that a character stands for. -/
theorem read?_eq_some_iff_stands (readable : radix ≤ 16) {digit : Nat} :
    read? radix c = some digit ↔ Stands radix c digit := by
  constructor
  · intro read
    obtain ⟨isDigit, bound⟩ := read?_eq_some.mp read
    exact ⟨bound, eq_toChar_of_ofChar? isDigit⟩
  · rintro ⟨bound, rfl | rfl⟩
    · exact (read?_toChar readable bound).1
    · exact (read?_toChar readable bound).2

theorem toLower_of_not_ascii (foreign : ¬Text.isAscii c = true) : c.toLower = c := by
  unfold Char.toLower
  split
  next capital =>
    refine absurd ?_ foreign
    have last := UInt32.le_iff_toNat_le.mp capital.2
    exact decide_eq_true (Nat.lt_of_le_of_lt last (by decide))
  next => rfl

/-- A letter stands for the same digit as its small one. -/
theorem ofChar?_toLower (c : Char) : ofChar? c.toLower = ofChar? c := by
  by_cases ascii : Text.isAscii c = true
  · exact of_ascii (P := fun c => ofChar? c.toLower = ofChar? c) (by decide) ascii
  · rw [toLower_of_not_ascii ascii]

theorem read?_toLower (radix : Nat) (c : Char) : read? radix c.toLower = read? radix c := by
  rw [read?, read?, ofChar?_toLower]

/-- Points and underscores are no letters. -/
theorem toLower_eq_iff {mark : Char} (isMark : mark = '.' ∨ mark = '_') :
    c.toLower = mark ↔ c = mark := by
  by_cases ascii : Text.isAscii c = true
  · rcases isMark with rfl | rfl
    · exact of_ascii (P := fun c => c.toLower = '.' ↔ c = '.') (by decide) ascii
    · exact of_ascii (P := fun c => c.toLower = '_' ↔ c = '_') (by decide) ascii
  · rw [toLower_of_not_ascii ascii]

end Digit

namespace Literal

variable {radix : Nat} {word : Text} {v : Rat}

/-- A literal by its characters: underscores apart it has at most one point, at least one digit and
nothing else. -/
structure Grammatical (radix : Nat) (word : Text) : Prop where
  point : (bare word).count '.' ≤ 1
  digit : ∃ c ∈ bare word, c ≠ '.'
  digits : ∀ c ∈ bare word, c ≠ '.' → ∃ d, Digit.Stands radix c d

/-- The characters of a literal that stand for digits, before its point and after it. -/
def digitChars (word : Text) : Text := (bare word).filter (· ≠ '.')

/-- Without a second point the two parts of a text are all of it but the point. -/
theorem parts_eq_filter {text : Text} (point : text.count '.' ≤ 1) :
    wholePart text ++ fractionPart text = text.filter (· ≠ '.') := by
  have noPoint : ∀ c ∈ wholePart text, c ≠ '.' := fun c member => by
    simpa using List.mem_takeWhile_imp member
  have keep {part : Text} (absent : ∀ c ∈ part, c ≠ '.') : part.filter (· ≠ '.') = part :=
    List.filter_eq_self.mpr (by simpa using absent)
  rcases eq_parts text with split | ⟨split, empty⟩
  · rw [split, List.count_append, List.count_cons_self] at point
    have noSecond : ∀ c ∈ fractionPart text, c ≠ '.' := by
      rintro c member rfl
      have := List.count_pos_iff.mpr member
      omega
    conv_rhs => rw [split, List.filter_append, List.filter_cons_of_neg (by simp)]
    rw [keep noPoint, keep noSecond]
  · rw [empty, List.append_nil]
    conv_rhs => rw [split, keep noPoint]

theorem count_point_le_one {text : Text}
    (noPoint : ∀ c ∈ wholePart text ++ fractionPart text, c ≠ '.') : text.count '.' ≤ 1 := by
  have absent {part : Text} (within : part ⊆ wholePart text ++ fractionPart text) :
      part.count '.' = 0 :=
    List.count_eq_zero.mpr fun member => noPoint _ (within member) rfl
  rcases eq_parts text with split | ⟨split, -⟩
  · rw [split, List.count_append, List.count_cons_self, absent (List.subset_append_left _ _),
      absent (List.subset_append_right _ _)]
  · rw [split, absent (List.subset_append_left _ _)]
    exact Nat.zero_le 1

theorem spells_iff_stands (readable : radix ≤ 16) {text : Text} {digits : List Nat} :
    Spells radix text digits ↔ List.Forall₂ (Digit.Stands radix) text digits := by
  rw [Spells, ← List.forall₂_eq_eq_eq, List.forall₂_map_left_iff, List.forall₂_map_right_iff]
  simp only [Digit.read?_eq_some_iff_stands readable]

theorem exists_spells {text : Text} (each : ∀ c ∈ text, ∃ d, Digit.read? radix c = some d) :
    ∃ digits, Spells radix text digits := by
  refine ⟨text.map fun c => (Digit.read? radix c).getD 0, ?_⟩
  rw [Spells, List.map_map]
  refine List.map_congr_left fun c member => ?_
  obtain ⟨d, read⟩ := each c member
  simp [read]

theorem denotes_iff_parts :
    Denotes radix word v ↔
      ∃ digits, digits ≠ [] ∧
        Spells radix (wholePart (bare word) ++ fractionPart (bare word)) digits ∧
        v = (Positional.value radix digits : Rat) /
          (Positional.weight radix (fractionPart (bare word)).length : Nat) :=
  value?_eq_some.symm.trans value?_eq_some_iff_parts

/-- The literals by their characters are those that denote a number: the integer that all digits
denote, over the weight of those after the point. -/
theorem denotes_iff (readable : radix ≤ 16) :
    Denotes radix word v ↔
      Grammatical radix word ∧
        ∃ digits, List.Forall₂ (Digit.Stands radix) (digitChars word) digits ∧
          v = (Positional.value radix digits : Rat) /
            (Positional.weight radix (fractionPart (bare word)).length : Nat) := by
  rw [denotes_iff_parts]
  constructor
  · rintro ⟨digits, nonempty, spells, same⟩
    have point := count_point_le_one fun c member => (spells.unmarked c member).1
    rw [parts_eq_filter point] at spells
    have stands := (spells_iff_stands readable).mp spells
    refine ⟨⟨point, ?_, fun c member noPoint => ?_⟩, digits, stands, same⟩
    · have present : (bare word).filter (· ≠ '.') ≠ [] := by
        intro empty
        rw [empty] at spells
        exact nonempty (List.length_eq_zero_iff.mp spells.length_eq.symm)
      obtain ⟨c, member⟩ := List.exists_mem_of_ne_nil _ present
      obtain ⟨within, noPoint⟩ := List.mem_filter.mp member
      exact ⟨c, within, by simpa using noPoint⟩
    · obtain ⟨d, read⟩ := spells.char c (List.mem_filter.mpr ⟨member, by simpa using noPoint⟩)
      exact ⟨d, (Digit.read?_eq_some_iff_stands readable).mp read⟩
  · rintro ⟨grammatical, digits, stands, same⟩
    have spells := (spells_iff_stands readable).mpr stands
    rw [digitChars, ← parts_eq_filter grammatical.point] at spells
    refine ⟨digits, ?_, spells, same⟩
    rintro rfl
    obtain ⟨c, member, noPoint⟩ := grammatical.digit
    have listed : c ∈ digitChars word :=
      List.mem_filter.mpr ⟨member, by simpa using noPoint⟩
    rw [List.forall₂_nil_right_iff.mp stands] at listed
    cases listed

/-- A literal by its characters denotes a number. -/
theorem Grammatical.exists_denotes (readable : radix ≤ 16) (grammatical : Grammatical radix word) :
    ∃ v, Denotes radix word v := by
  have each : ∀ c ∈ digitChars word, ∃ d, Digit.read? radix c = some d := by
    intro c member
    obtain ⟨within, noPoint⟩ := List.mem_filter.mp member
    obtain ⟨d, stands⟩ := grammatical.digits c within (by simpa using noPoint)
    exact ⟨d, (Digit.read?_eq_some_iff_stands readable).mpr stands⟩
  obtain ⟨digits, spells⟩ := exists_spells each
  exact ⟨_, (denotes_iff readable).mpr
    ⟨grammatical, digits, (spells_iff_stands readable).mp spells, rfl⟩⟩

theorem bare_zeros (k : Nat) : bare (List.replicate k '0') = List.replicate k '0' := by
  simp [bare]

/-- An underscore is not counted, and neither is the size of a letter. -/
theorem digitCount_underscore (before after : Text) :
    digitCount (before ++ '_' :: after) = digitCount (before ++ after) := by
  rw [digitCount_append, digitCount_append, digitCount, digitCount, digitCount,
    List.filter_cons_of_neg (by simp)]

theorem digitCount_lowered (word : Text) : digitCount (Text.lowered word) = digitCount word := by
  have same (c : Char) :
      decide (c.toLower ≠ '_' ∧ c.toLower ≠ '.') = decide (c ≠ '_' ∧ c ≠ '.') := by
    simp [Digit.toLower_eq_iff]
  simp only [digitCount, Text.lowered, List.filter_map, Function.comp_def, same, List.length_map]

namespace Denotes

theorem insert_underscore {before after : Text} (denotes : Denotes radix (before ++ after) v) :
    Denotes radix (before ++ '_' :: after) v := by
  refine denotes.of_bare_eq ?_
  rw [bare, bare, List.filter_append, List.filter_append, List.filter_cons_of_neg (by simp)]

/-- A literal and the same one in small letters denote the same number. -/
theorem lowered_iff : Denotes radix (Text.lowered word) v ↔ Denotes radix word v := by
  have noPoint (c : Char) : decide (c.toLower ≠ '.') = decide (c ≠ '.') := by
    simp [Digit.toLower_eq_iff (.inl rfl)]
  have noUnderscore (c : Char) : decide (c.toLower ≠ '_') = decide (c ≠ '_') := by
    simp [Digit.toLower_eq_iff (.inr rfl)]
  have kept : bare (Text.lowered word) = Text.lowered (bare word) := by
    simp only [bare, Text.lowered, List.filter_map, Function.comp_def, noUnderscore]
  have whole (text : Text) : wholePart (Text.lowered text) = Text.lowered (wholePart text) := by
    simp only [wholePart, Text.lowered, List.takeWhile_map, Function.comp_def, noPoint]
  have fraction (text : Text) :
      fractionPart (Text.lowered text) = Text.lowered (fractionPart text) := by
    simp only [fractionPart, Text.lowered, List.dropWhile_map, List.map_drop, Function.comp_def,
      noPoint]
  have spells (text : Text) (digits : List Nat) :
      Spells radix (Text.lowered text) digits ↔ Spells radix text digits := by
    simp only [Spells, Text.lowered, List.map_map, Function.comp_def, Digit.read?_toLower]
  have joined (text text' : Text) :
      Text.lowered text ++ Text.lowered text' = Text.lowered (text ++ text') := by
    simp [Text.lowered]
  have length (text : Text) : (Text.lowered text).length = text.length := List.length_map _
  simp only [denotes_iff_parts, kept, whole, fraction, joined, spells, length]

theorem of_lowered_eq {word' : Text} (denotes : Denotes radix word v)
    (same : Text.lowered word' = Text.lowered word) : Denotes radix word' v :=
  lowered_iff.mp (same ▸ lowered_iff.mpr denotes)

/-- Zeros in front of a literal do not count. -/
theorem leading_zeros (positive : 0 < radix) (denotes : Denotes radix word v) (k : Nat) :
    Denotes radix (List.replicate k '0' ++ word) v := by
  obtain ⟨whole, fraction, digits, split, spells, nonempty, rfl⟩ := denotes
  refine ⟨List.replicate k '0' ++ whole, fraction, List.replicate k 0 ++ digits, ?_, ?_, ?_, ?_⟩
  · rw [bare, List.filter_append, ← bare, ← bare, bare_zeros]
    exact split.imp (fun same => by rw [same, List.append_assoc])
      (And.imp_left fun same => by rw [same])
  · rw [List.append_assoc]
    exact (spells_zeros positive k).append spells
  · simp [nonempty]
  · rw [Positional.value_append, Positional.value_replicate_zero, Nat.zero_mul, Nat.zero_add]

/-- Zeros at the end of the places of a literal do not count. -/
theorem trailing_zeros (positive : 0 < radix) (denotes : Denotes radix word v) (point : '.' ∈ word)
    (k : Nat) : Denotes radix (word ++ List.replicate k '0') v := by
  obtain ⟨whole, fraction, digits, split, spells, nonempty, rfl⟩ := denotes
  have kept : '.' ∈ bare word := List.mem_filter.mpr ⟨point, by decide⟩
  have split : bare word = whole ++ '.' :: fraction := split.resolve_right fun parts =>
    (spells.unmarked '.' (List.mem_append_left _ (parts.1 ▸ kept))).1 rfl
  have nonzero : ((Positional.weight radix k : Nat) : ℚ) ≠ 0 :=
    Nat.cast_ne_zero.mpr (Nat.pow_pos positive).ne'
  refine ⟨whole, fraction ++ List.replicate k '0', digits ++ List.replicate k 0, .inl ?_, ?_, ?_,
    ?_⟩
  · rw [bare, List.filter_append, ← bare, ← bare, bare_zeros, split]
    simp
  · rw [← List.append_assoc]
    exact spells.append (spells_zeros positive k)
  · simp [nonempty]
  · -- Both the integer of all digits and the weight of the places grow by the weight of the zeros.
    have weights : Positional.weight radix (fraction.length + k) =
        Positional.weight radix fraction.length * Positional.weight radix k := pow_add _ _ _
    rw [Positional.value_append, Positional.value_replicate_zero, List.length_replicate,
      Nat.add_zero, List.length_append, List.length_replicate, weights, Nat.cast_mul, Nat.cast_mul,
      mul_div_mul_right _ _ nonzero]

end Denotes
end Literal
end ExactCalc
