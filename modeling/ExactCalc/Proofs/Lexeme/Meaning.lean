import ExactCalc.Line
import ExactCalc.Proofs.Lexeme.Cut
import ExactCalc.Proofs.Numeral.Literal
import ExactCalc.Proofs.Result

/-!
# What lexemes mean

`Token.Denotes` says which token a lexeme stands for: a symbol for its token, a word that begins
with a dollar sign for a variable, a keyword for its token and a literal for its number. No lexeme
stands for two tokens, so that the order in which a word is tried does not matter. A lexeme becomes
the token that it stands for, unless it is a literal with more digits than can be converted.
-/
namespace ExactCalc

namespace Digit

theorem ofChar?_of_isBlank {c : Char} (blank : Text.isBlank c = true) : ofChar? c = none := by
  simp only [Text.isBlank, Bool.or_eq_true, decide_eq_true_eq] at blank
  rcases blank with (((rfl | rfl) | rfl) | rfl) | rfl <;> rfl

theorem ofChar?_of_symbol {c : Char} {t : Token} (symbol : Token.ofSymbol? c = some t) :
    ofChar? c = none := by
  unfold Token.ofSymbol? at symbol
  split at symbol
  all_goals first | rfl | cases symbol

/-- Digits are made into words. -/
theorem isWordChar_of_ofChar? {c : Char} {digit : Nat} (isDigit : ofChar? c = some digit) :
    Text.isWordChar c = true := by
  refine Text.isWordChar_of_neither (fun blank => ?_) (fun symbol => ?_)
  · simp [ofChar?_of_isBlank blank] at isDigit
  · obtain ⟨t, symbol⟩ := Option.isSome_iff_exists.mp symbol
    simp [ofChar?_of_symbol symbol] at isDigit

end Digit

/-- Literals are words of ASCII characters. -/
theorem Literal.Denotes.isWordChar {radix : Nat} {word : Text} {v : Rat}
    (denotes : Denotes radix word v) :
    ∀ c ∈ word, Text.isWordChar c = true ∧ Text.isAscii c = true := by
  intro c member
  rcases denotes.char c member with rfl | rfl | ⟨d, read⟩
  · decide
  · decide
  · have isDigit := (Digit.read?_eq_some.mp read).1
    exact ⟨Digit.isWordChar_of_ofChar? isDigit, Digit.isAscii_of_ofChar? isDigit⟩

namespace Token

/-- What token a lexeme stands for in a radix. -/
inductive Denotes (radix : Nat) : Text → Token → Prop where
  | symbol {c : Char} {t : Token} (symbol : ofSymbol? c = some t) : Denotes radix [c] t
  | var (name : Text) : Denotes radix ('$' :: name) (.var ('$' :: name))
  | keyword {word : Text} {t : Token} (keyword : ofKeyword? word = some t) : Denotes radix word t
  | number {word : Text} {v : Rat} (literal : Literal.Denotes radix word v) :
      Denotes radix word (.number v)

variable {radix : Nat} {word : Text}

theorem word_of_keyword {t : Token} (keyword : ofKeyword? word = some t) :
    word = ['s', 'q', 'r', 't'] ∨ word = ['a', 'b', 's'] ∨ word = ['m', 'a', 'x'] ∨
      word = ['m', 'i', 'n'] := by
  unfold ofKeyword? at keyword
  split at keyword
  next same => exact .inl same
  split at keyword
  next same => exact .inr (.inl same)
  split at keyword
  next same => exact .inr (.inr (.inl same))
  split at keyword
  next same => exact .inr (.inr (.inr same))
  next => cases keyword

/-- Every keyword has a letter that is no digit. -/
theorem letter_of_keyword {t : Token} (keyword : ofKeyword? word = some t) :
    's' ∈ word ∨ 'm' ∈ word := by
  rcases word_of_keyword keyword with rfl | rfl | rfl | rfl <;> simp

/-- A literal is no keyword and no variable. -/
theorem literal_apart {v : Rat} (literal : Literal.Denotes radix word v) :
    ofKeyword? word = none ∧ word.head? ≠ some '$' := by
  have outside (c : Char) (member : c ∈ word) (noDigit : Digit.ofChar? c = none)
      (noMark : c ≠ '_' ∧ c ≠ '.') : False := by
    rcases literal.char c member with rfl | rfl | ⟨d, read⟩
    · exact noMark.1 rfl
    · exact noMark.2 rfl
    · simp [Digit.read?_none noDigit] at read
  constructor
  · refine Option.eq_none_iff_forall_ne_some.mpr fun t keyword => ?_
    rcases letter_of_keyword keyword with member | member
    · exact outside _ member rfl (by decide)
    · exact outside _ member rfl (by decide)
  · intro dollar
    exact outside '$' (List.mem_of_mem_head? dollar) rfl (by decide)

/-- Only literals are numbers. -/
theorem denotes_number {v : Rat} :
    Denotes radix word (.number v) ↔ Literal.Denotes radix word v := by
  refine ⟨fun denotes => ?_, .number⟩
  cases denotes with
  | symbol symbol =>
    unfold ofSymbol? at symbol
    split at symbol <;> cases symbol
  | keyword keyword =>
    rcases word_of_keyword keyword with rfl | rfl | rfl | rfl <;> cases keyword
  | number literal => exact literal

/-- A word is no symbol. -/
theorem ofText_word (noSymbol : ∀ c, word = [c] → ofSymbol? c = none) :
    ofText radix word = ofWord radix word := by
  unfold ofText
  split
  next c => rw [noSymbol c rfl]
  next => rfl

theorem fits_of_not_literal (noLiteral : ∀ v, ¬Literal.Denotes radix word v) :
    Literal.Fits radix word := fun v literal => absurd literal (noLiteral v)

theorem fits_of_symbol {c : Char} {t : Token} (symbol : ofSymbol? c = some t) :
    Literal.Fits radix [c] := by
  refine fits_of_not_literal fun v literal => ?_
  have inside := (literal.isWordChar c List.mem_cons_self).1
  exact Text.not_symbol_of_isWordChar inside (Option.isSome_iff_exists.mpr ⟨t, symbol⟩)

theorem ofWord_eq_ok {t : Token} (means : ofWord radix word = .ok t) :
    Denotes radix word t ∧ Literal.Fits radix word := by
  unfold ofWord at means
  split at means
  next dollar =>
    obtain ⟨name, rfl⟩ := List.head?_eq_some_iff.mp dollar
    cases means
    exact ⟨.var name, fits_of_not_literal fun v literal => (literal_apart literal).2 dollar⟩
  split at means
  next keyword found =>
    cases means
    refine ⟨.keyword found, fits_of_not_literal fun v literal => ?_⟩
    simp [(literal_apart literal).1] at found
  next =>
    obtain ⟨v, read, rfl⟩ := map_eq_ok_iff.mp means
    exact (Literal.read_eq_ok_iff.mp read).imp_left .number

/-- A lexeme becomes the token that it stands for, if there is one and the lexeme fits. -/
theorem ofText_eq_ok {lexeme : Text} {t : Token} :
    ofText radix lexeme = .ok t ↔ Denotes radix lexeme t ∧ Literal.Fits radix lexeme := by
  constructor
  · intro means
    unfold ofText at means
    split at means
    next c =>
      split at means
      next symbol found =>
        cases means
        exact ⟨.symbol found, fits_of_symbol found⟩
      next => exact ofWord_eq_ok means
    next => exact ofWord_eq_ok means
  · rintro ⟨denotes, fits⟩
    cases denotes with
    | symbol symbol => simp [ofText, symbol]
    | var name =>
      rw [ofText_word (by rintro c ⟨⟩; rfl)]
      rfl
    | keyword keyword =>
      have long : ∀ c, lexeme ≠ [c] := by
        rintro c rfl
        rcases letter_of_keyword keyword with member | member <;>
          (rw [← List.mem_singleton.mp member] at keyword; cases keyword)
      have noDollar : lexeme.head? ≠ some '$' := fun dollar => by
        obtain ⟨name, rfl⟩ := List.head?_eq_some_iff.mp dollar
        simp [ofKeyword?] at keyword
      rw [ofText_word fun c alone => absurd alone (long c)]
      simp [ofWord, noDollar, keyword]
    | number literal =>
      have noSymbol : ∀ c, lexeme = [c] → ofSymbol? c = none := by
        rintro c rfl
        exact (Text.isWordChar_iff.mp (literal.isWordChar c (by simp)).1).2
      obtain ⟨noKeyword, noDollar⟩ := literal_apart literal
      rw [ofText_word noSymbol]
      simp [ofWord, noDollar, noKeyword, Literal.read_eq_ok_iff.mpr ⟨literal, fits⟩, Except.map]

/-- What is no token is taken for a number, and fails as one. -/
theorem read_of_ofText {lexeme : Text} {reason : Literal.Unread}
    (fails : ofText radix lexeme = .error reason) : Literal.read radix lexeme = .error reason := by
  have ofWord_fails {word : Text} (fails : ofWord radix word = .error reason) :
      Literal.read radix word = .error reason := by
    unfold ofWord at fails
    split at fails
    next => cases fails
    split at fails
    next => cases fails
    next => exact map_eq_error_iff.mp fails
  unfold ofText at fails
  split at fails
  next c =>
    split at fails
    next => cases fails
    next => exact ofWord_fails fails
  next => exact ofWord_fails fails

/-- A lexeme fails that stands for no token, and a literal that does not fit. -/
theorem ofText_eq_error {lexeme : Text} {reason : Literal.Unread} :
    ofText radix lexeme = .error reason ↔
      (¬∃ t, Denotes radix lexeme t) ∧ reason = .malformed ∨
        ¬Literal.Fits radix lexeme ∧ reason = .overlong (Literal.digitCount lexeme) := by
  constructor
  · intro fails
    rcases Literal.read_eq_error_iff.mp (read_of_ofText fails) with ⟨noLiteral, rfl⟩ | overlong
    · refine .inl ⟨fun ⟨t, denotes⟩ => ?_, rfl⟩
      have means := ofText_eq_ok.mpr ⟨denotes, fits_of_not_literal noLiteral⟩
      cases fails.symm.trans means
    · exact .inr overlong
  · intro fails
    cases means : ofText radix lexeme with
    | ok t =>
      obtain ⟨denotes, fits⟩ := ofText_eq_ok.mp means
      rcases fails with ⟨meaningless, -⟩ | ⟨long, -⟩
      · exact absurd ⟨t, denotes⟩ meaningless
      · exact absurd fits long
    | error reason' =>
      rcases fails with ⟨meaningless, rfl⟩ | ⟨long, rfl⟩
      · have noLiteral : ∀ v, ¬Literal.Denotes radix lexeme v :=
          fun v literal => meaningless ⟨_, .number literal⟩
        rcases Literal.read_eq_error_iff.mp (read_of_ofText means) with ⟨-, rfl⟩ | ⟨long, -⟩
        · rfl
        · exact absurd (fits_of_not_literal noLiteral) long
      · rcases Literal.read_eq_error_iff.mp (read_of_ofText means) with ⟨noLiteral, -⟩ | ⟨-, rfl⟩
        · exact absurd (fits_of_not_literal noLiteral) long
        · rfl

end Token
end ExactCalc
