import ExactCalc.Proofs.Lexeme.Slice

/-!
# Lexemes without their places

What a text means does not depend on where its lexemes stand, and texts that are put together, with
symbols and blanks between them, have the lexemes of their parts.
-/
namespace ExactCalc.Text

/-- The lexemes of a text, without their places. -/
def words (text : Text) : List Text := (lexemes text).map (·.val)

theorem words_eq (offset : Nat) (text : Text) :
    (lexemesFrom offset text).map (·.val) = words text := by
  rw [words, lexemes, ← Nat.zero_add offset, lexemesFrom_shift, List.map_map]
  rfl

/-- A character of a text that is no blank stands in one of its lexemes. -/
theorem exists_mem_words {text : Text} {c : Char} (member : c ∈ text)
    (noBlank : isBlank c = false) : ∃ word ∈ words text, c ∈ word := by
  obtain ⟨i, found⟩ := List.mem_iff_getElem?.mp member
  obtain ⟨x, listed, starts, stops⟩ := exists_mem_lexemes found noBlank
  refine ⟨x.val, List.mem_map_of_mem listed, ?_⟩
  rw [(isLexeme_of_mem listed).text, Span.slice]
  refine List.mem_of_getElem? (i := i - x.span.start) ?_
  have within : i - x.span.start < x.span.width := by
    simp only [Span.stop] at stops
    omega
  rw [List.getElem?_take_of_lt within, List.getElem?_drop, Nat.add_sub_cancel' starts, found]

/-- A text that does not begin with a word character ends the last word of the text before it. -/
theorem words_append {text rest : Text} (apart : ∀ c ∈ rest.head?, ¬isWordChar c = true) :
    words (text ++ rest) = words text ++ words rest := by
  have cut := (cut_lexemesFrom 0 text).append apart (cut_lexemesFrom _ rest)
  rw [words, lexemes, cut.lexemesFrom_eq, List.map_append, words_eq, words_eq]

theorem words_symbol {c : Char} {rest : Text} (symbol : (Token.ofSymbol? c).isSome = true) :
    words (c :: rest) = [c] :: words rest := by
  rw [words, lexemes, lexemesFrom_symbol symbol, List.map_cons, words_eq]

/-- Blanks in front of a text add nothing. -/
theorem words_blanks {blanks : Text} (blank : ∀ c ∈ blanks, isBlank c = true) (text : Text) :
    words (blanks ++ text) = words text := by
  rw [words, lexemes, lexemesFrom_blanks blank, words_eq]

theorem words_word {word : Text} (nonempty : word ≠ [])
    (inside : ∀ c ∈ word, isWordChar c = true) : words word = [word] := by
  rw [words, lexemes_word nonempty inside]
  rfl

/-- After a text, a symbol stands for itself, with or without blanks before it. -/
theorem words_append_symbol {text blanks rest : Text} {c : Char}
    (blank : ∀ d ∈ blanks, isBlank d = true) (symbol : (Token.ofSymbol? c).isSome = true) :
    words (text ++ (blanks ++ c :: rest)) = words text ++ [c] :: words rest := by
  rw [words_append, words_blanks blank, words_symbol symbol]
  cases blanks with
  | nil =>
    rintro d ⟨⟩ word
    exact not_symbol_of_isWordChar word symbol
  | cons d blanks =>
    rintro _ ⟨⟩
    exact not_isWordChar_of_isBlank (blank d List.mem_cons_self)

section Fits

variable {radix : Nat} {text : Text}

theorem fits_iff_words : text.Fits radix ↔ ∀ word ∈ words text, Literal.Fits radix word :=
  List.forall_mem_map.symm

/-- Only words can have too many digits. -/
theorem fits_symbol {c : Char} (symbol : (Token.ofSymbol? c).isSome = true) :
    Fits radix (c :: text) ↔ text.Fits radix := by
  obtain ⟨t, means⟩ := Option.isSome_iff_exists.mp symbol
  rw [fits_iff_words, fits_iff_words, words_symbol symbol, List.forall_mem_cons]
  exact and_iff_right (Token.fits_of_symbol means)

theorem fits_literal {v : Rat} (denotes : Literal.Denotes radix text v) :
    text.Fits radix ↔ Positional.Converts radix (Literal.digitCount text) := by
  rw [fits_iff_words, words_word denotes.ne_nil fun c member => (denotes.isWordChar c member).1,
    List.forall_mem_singleton, denotes.fits_iff]

/-- Blanks in front of a text have no digits. -/
theorem fits_blanks {blanks : Text} (blank : ∀ c ∈ blanks, isBlank c = true) :
    Fits radix (blanks ++ text) ↔ text.Fits radix := by
  rw [fits_iff_words, fits_iff_words, words_blanks blank]

theorem fits_append {rest : Text} (apart : ∀ c ∈ rest.head?, ¬isWordChar c = true) :
    Fits radix (text ++ rest) ↔ text.Fits radix ∧ rest.Fits radix := by
  simp only [fits_iff_words, words_append apart, List.forall_mem_append]

theorem fits_append_symbol {blanks rest : Text} {c : Char}
    (blank : ∀ d ∈ blanks, isBlank d = true) (symbol : (Token.ofSymbol? c).isSome = true) :
    Fits radix (text ++ (blanks ++ c :: rest)) ↔ text.Fits radix ∧ rest.Fits radix := by
  have alike : Fits radix (c :: rest) ↔ rest.Fits radix := fits_symbol symbol
  rw [← alike]
  simp only [fits_iff_words, words_append_symbol blank symbol, words_symbol symbol,
    List.forall_mem_append]

/-- Texts between commas, up to the parenthesis that closes. -/
theorem fits_listed {before after : Text} (blankBefore : ∀ c ∈ before, isBlank c = true)
    (blankAfter : ∀ c ∈ after, isBlank c = true) {texts : List Text}
    (each : ∀ text ∈ texts, text.Fits radix) :
    Fits radix (List.intercalate (before ++ ',' :: after) texts ++ [')']) := by
  have closed : Fits radix [')'] := (fits_symbol rfl).mpr nofun
  induction texts with
  | nil => exact closed
  | cons text texts ih =>
    rw [List.forall_mem_cons] at each
    have others := ih each.2
    cases texts with
    | nil =>
      rw [List.intercalate_singleton, fits_append (by simp; decide)]
      exact ⟨each.1, closed⟩
    | cons next texts =>
      rw [List.intercalate_cons_cons]
      simp only [List.append_assoc, List.cons_append]
      rw [fits_append_symbol blankBefore rfl, fits_blanks blankAfter]
      exact ⟨each.1, others⟩

theorem fits_called {before after : Text} (blankBefore : ∀ c ∈ before, isBlank c = true)
    (blankAfter : ∀ c ∈ after, isBlank c = true) {name : Text} {t : Token}
    (keyword : Token.ofKeyword? name = some t) {texts : List Text}
    (each : ∀ text ∈ texts, text.Fits radix) :
    Fits radix (name ++ '(' :: (List.intercalate (before ++ ',' :: after) texts ++ [')'])) := by
  have alone : words name = [name] := by
    rcases Token.word_of_keyword keyword with rfl | rfl | rfl | rfl <;> decide
  have noLiteral (v : Rat) : ¬Literal.Denotes radix name v := by
    intro literal
    rw [(Token.literal_apart literal).1] at keyword
    cases keyword
  rw [fits_append (by rintro c ⟨⟩; decide), fits_symbol rfl]
  refine ⟨?_, fits_listed blankBefore blankAfter each⟩
  rw [fits_iff_words, alone, List.forall_mem_singleton]
  exact Token.fits_of_not_literal noLiteral

end Fits

end ExactCalc.Text
