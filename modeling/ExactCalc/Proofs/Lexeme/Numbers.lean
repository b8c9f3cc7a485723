import ExactCalc.Proofs.Lexeme.Line
import ExactCalc.Proofs.Numeral.Grammar

/-!
# Words that are numbers

A line that is a single word is read as a number exactly if the word is a literal of the radix, with
the number that the literal denotes. A word that is no literal, no variable and no keyword is to
blame as a whole.
-/
namespace ExactCalc.Line

variable {radix : Nat} {word : Text}

/-- A line is read as a number that takes up the whole line. -/
def IsNumber (radix : Nat) (line : Text) (v : ℚ) : Prop :=
  Line.read radix line = .ok (.expression [⟨.number v, ⟨0, line.length⟩⟩])

section Word

variable (nonempty : word ≠ []) (ascii : ∀ c ∈ word, Text.isAscii c = true)
  (inside : ∀ c ∈ word, Text.isWordChar c = true)

include nonempty ascii inside

/-- A word is read as a number if it is a literal of that number and fits. -/
theorem isNumber_iff {v : ℚ} :
    IsNumber radix word v ↔ Literal.Fits radix word ∧ Literal.Denotes radix word v := by
  rw [← Token.denotes_number, IsNumber, read_eq_expression, Text.tokens_eq_ok, Text.Fits,
    Text.lexemes_word nonempty inside, List.forall₂_cons, and_iff_left List.Forall₂.nil,
    List.forall_mem_singleton]
  exact ⟨fun ⟨_, _, fits, _, denotes⟩ => ⟨fits, denotes⟩,
    fun ⟨fits, denotes⟩ => ⟨ascii, noSlash_word inside, fits, rfl, denotes⟩⟩

omit nonempty ascii in
/-- A word that is no literal, no variable and no keyword is no token. -/
theorem not_denotes_word (noVariable : word.head? ≠ some '$')
    (noKeyword : Token.ofKeyword? word = none) (noLiteral : ∀ v, ¬Literal.Denotes radix word v) :
    ¬∃ t, Token.Denotes radix word t := by
  rintro ⟨t, denotes⟩
  cases denotes with
  | symbol symbol =>
    exact Text.not_symbol_of_isWordChar (inside _ List.mem_cons_self)
      (Option.isSome_iff_exists.mpr ⟨t, symbol⟩)
  | var name => exact noVariable rfl
  | keyword keyword => simp [noKeyword] at keyword
  | number literal => exact noLiteral _ literal

end Word

/-- A literal with few enough digits is read as its number. -/
theorem isNumber_of_denotes {v : ℚ} (denotes : Literal.Denotes radix word v)
    (few : Positional.Converts radix (Literal.digitCount word)) : IsNumber radix word v :=
  (isNumber_iff denotes.ne_nil (fun c member => (denotes.isWordChar c member).2)
    fun c member => (denotes.isWordChar c member).1).mpr ⟨denotes.fits_iff.mpr few, denotes⟩

/-- A word of ASCII characters that is no variable and no keyword is read as a number exactly if,
underscores apart, it has at most one point, at least one digit and nothing else but digits of the
radix, in small or capital letters, and not too many digits to be converted. The number is what all
digits denote, divided by the radix to the number of digits after the point. A word of another form
is to blame, and one with too many digits is a defect. The number stays the same where an underscore
is put anywhere, letters are written small or capital, zeros are put in front, or zeros are put at
the end after a point, as long as the zeros do not make the digits too many. -/
theorem word_is_number_iff_grammatical (radix : ℕ) (word : Text) (two_le : 2 ≤ radix)
    (readable : radix ≤ 16) (nonempty : word ≠ []) (ascii : ∀ c ∈ word, Text.isAscii c = true)
    (inside : ∀ c ∈ word, Text.isWordChar c = true) (noVariable : word.head? ≠ some '$')
    (noKeyword : Token.ofKeyword? word = none) :
    ((∃ v, IsNumber radix word v) ↔
      Literal.Grammatical radix word ∧ Positional.Converts radix (Literal.digitCount word)) ∧
    (∀ v, IsNumber radix word v →
      ∃ digits, List.Forall₂ (Digit.Stands radix) (Literal.digitChars word) digits ∧
        v = (Positional.value radix digits : ℚ) /
          (radix : ℚ) ^ (Literal.fractionPart (Literal.bare word)).length) ∧
    (¬Literal.Grammatical radix word →
      Line.read radix word =
        .error (.refused (.lexical ⟨.invalidNumber word, ⟨0, word.length⟩⟩))) ∧
    (Literal.Grammatical radix word →
      ¬Positional.Converts radix (Literal.digitCount word) →
        Line.read radix word = .error (.defect (.unreadable (Literal.digitCount word)))) ∧
    ∀ v, IsNumber radix word v →
      (∀ before after, word = before ++ after → IsNumber radix (before ++ '_' :: after) v) ∧
      (∀ word', Text.lowered word' = Text.lowered word → IsNumber radix word' v) ∧
      (∀ k, Positional.Converts radix (k + Literal.digitCount word) →
        IsNumber radix (List.replicate k '0' ++ word) v) ∧
      ('.' ∈ word → ∀ k, Positional.Converts radix (Literal.digitCount word + k) →
        IsNumber radix (word ++ List.replicate k '0') v) := by
  have positive : 0 < radix := by omega
  have zeros (k : ℕ) : Literal.digitCount (List.replicate k '0') = k :=
    Literal.digitCount_replicate (by decide) k
  have isNumber_iff (v : ℚ) : IsNumber radix word v ↔
      Literal.Denotes radix word v ∧ Positional.Converts radix (Literal.digitCount word) := by
    rw [isNumber_iff nonempty ascii inside, and_comm]
    exact and_congr_right fun denotes => denotes.fits_iff
  simp only [isNumber_iff]
  refine ⟨⟨?_, fun ⟨grammatical, few⟩ => ?_⟩, fun v ⟨denotes, _⟩ => ?_, fun noLiteral => ?_,
    fun grammatical many => ?_, fun v ⟨denotes, few⟩ => ⟨?_, fun word' same => ?_, fun k few => ?_,
      fun point k few => ?_⟩⟩
  · rintro ⟨v, denotes, few⟩
    exact ⟨((Literal.denotes_iff readable).mp denotes).1, few⟩
  · obtain ⟨v, denotes⟩ := grammatical.exists_denotes readable
    exact ⟨v, denotes, few⟩
  · obtain ⟨-, digits, stands, same⟩ := (Literal.denotes_iff readable).mp denotes
    rw [Positional.weight_eq, Nat.cast_pow] at same
    exact ⟨digits, stands, same⟩
  · have meaningless : ¬∃ t, Token.Denotes radix word t :=
      not_denotes_word inside noVariable noKeyword fun v denotes =>
        noLiteral ((Literal.denotes_iff readable).mp denotes).1
    exact read_word_eq_error nonempty ascii inside (.meaningless meaningless)
  · obtain ⟨v, denotes⟩ := grammatical.exists_denotes readable
    exact read_eq_unreadable denotes many
  · rintro before after rfl
    rw [← Literal.digitCount_underscore] at few
    exact isNumber_of_denotes denotes.insert_underscore few
  · rw [← Literal.digitCount_lowered, ← same, Literal.digitCount_lowered] at few
    exact isNumber_of_denotes (denotes.of_lowered_eq same) few
  · rw [← zeros k, ← Literal.digitCount_append] at few
    exact isNumber_of_denotes (denotes.leading_zeros positive k) few
  · rw [← zeros k, ← Literal.digitCount_append] at few
    exact isNumber_of_denotes (denotes.trailing_zeros positive point k) few

/-- The word `_1F.8` is a number in radix sixteen, the same with a small letter and with one more
zero, and `1.2.3` is none in radix ten. -/
theorem word_is_number_iff_grammatical_hexadecimal :
    (IsNumber 16 "_1F.8".toList (63 / 2) ∧ Literal.Grammatical 16 "_1F.8".toList ∧
      IsNumber 16 "_1f.8".toList (63 / 2) ∧ IsNumber 16 "_1F.80".toList (63 / 2)) ∧
    ¬Literal.Grammatical 10 "1.2.3".toList ∧
      Line.read 10 "1.2.3".toList =
        .error (.refused (.lexical ⟨.invalidNumber "1.2.3".toList, ⟨0, 5⟩⟩)) := by
  have isNumber : IsNumber 16 "_1F.8".toList (63 / 2) := by
    unfold IsNumber
    decide +kernel
  have chars : ∀ word ∈ ["_1F.8".toList, "1.2.3".toList],
      word.all Text.isAscii = true ∧ word.all Text.isWordChar = true := by decide
  obtain ⟨ascii, inside⟩ := chars "_1F.8".toList (by decide)
  obtain ⟨accepted, -, -, -, same⟩ := word_is_number_iff_grammatical 16 "_1F.8".toList (by decide)
    (by decide) (by decide) (List.all_eq_true.mp ascii) (List.all_eq_true.mp inside) (by decide)
    (by decide)
  obtain ⟨-, small, -, zeros⟩ := same _ isNumber
  obtain ⟨ascii, inside⟩ := chars "1.2.3".toList (by decide)
  obtain ⟨-, -, refused, -⟩ := word_is_number_iff_grammatical 10 "1.2.3".toList (by decide)
    (by decide) (by decide) (List.all_eq_true.mp ascii) (List.all_eq_true.mp inside) (by decide)
    (by decide)
  have twoPoints : ¬Literal.Grammatical 10 "1.2.3".toList := fun literal =>
    absurd literal.point (by decide)
  exact ⟨⟨isNumber, (accepted.mp ⟨_, isNumber⟩).1, small _ (by decide),
    zeros (by decide) 1 (.inr (by decide))⟩, twoPoints, refused twoPoints⟩

/-- The number one is no number any more with 4300 zeros in front. -/
theorem zeros_before_one_unread :
    IsNumber 10 ['1'] 1 ∧ Literal.Grammatical 10 (List.replicate 4300 '0' ++ ['1']) ∧
      (∀ v, ¬IsNumber 10 (List.replicate 4300 '0' ++ ['1']) v) ∧
      Line.read 10 (List.replicate 4300 '0' ++ ['1']) = .error (.defect (.unreadable 4301)) := by
  have one : Literal.Denotes 10 ['1'] 1 := Literal.value?_eq_some.mp (by decide +kernel)
  have padded := one.leading_zeros (by decide) 4300
  have count : Literal.digitCount (List.replicate 4300 '0' ++ ['1']) = 4301 := by
    rw [Literal.digitCount_append, Literal.digitCount_replicate (by decide)]
    rfl
  have many : ¬Positional.Converts 10 (Literal.digitCount (List.replicate 4300 '0' ++ ['1'])) := by
    rw [count]
    decide
  have unread := read_eq_unreadable padded many
  refine ⟨isNumber_of_denotes one (.inr (by decide)),
    ((Literal.denotes_iff (by decide)).mp padded).1, fun v isNumber => ?_, count ▸ unread⟩
  cases unread.symm.trans isNumber

end ExactCalc.Line
