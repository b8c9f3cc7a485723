import ExactCalc.Token.Lexeme

/-!
# Cutting a line into lexemes

A lexeme is a stretch of a line that is one symbol, or a run of word characters that is as long as
it can be. `mem_lexemes` says that the lexemes of a line are exactly these stretches, each with its
own span and text, and `pairwise_lexemes` that they come in the order in which they stand. The
proofs follow `Cut`, the cutting of a text from left to right.
-/
namespace ExactCalc.Text

/-- Whether a word character stands at an offset of a line. -/
def HasWordAt (source : Text) (i : Nat) : Prop := ∃ c, source[i]? = some c ∧ isWordChar c = true

/-- A stretch of a line that is one symbol. -/
structure IsSymbol (source : Text) (s : Span) : Prop where
  width : s.width = 1
  symbol : ∃ c, source[s.start]? = some c ∧ (Token.ofSymbol? c).isSome = true

/-- A stretch of word characters that no word character of the line continues at either end. -/
structure IsRun (source : Text) (s : Span) : Prop where
  nonempty : 0 < s.width
  inside : ∀ i, s.start ≤ i → i < s.stop → HasWordAt source i
  before : ∀ i, i + 1 = s.start → ¬HasWordAt source i
  after : ¬HasWordAt source s.stop

/-- A lexeme of a line: a symbol or a longest run of word characters, with its text. -/
structure IsLexeme (source : Text) (x : Located Text) : Prop where
  text : x.val = x.span.slice source
  kind : IsSymbol source x.span ∨ IsRun source x.span

theorem ofSymbol?_of_isBlank {c : Char} (blank : isBlank c = true) : Token.ofSymbol? c = none := by
  simp only [isBlank, Bool.or_eq_true, decide_eq_true_eq] at blank
  rcases blank with (((rfl | rfl) | rfl) | rfl) | rfl <;> rfl

theorem isWordChar_iff {c : Char} :
    isWordChar c = true ↔ isBlank c = false ∧ Token.ofSymbol? c = none := by
  simp [isWordChar]

/-- A character is a blank, a symbol or a word character. -/
theorem isWordChar_of_neither {c : Char} (noBlank : ¬isBlank c = true)
    (noSymbol : ¬(Token.ofSymbol? c).isSome = true) : isWordChar c = true := by
  simpa [isWordChar_iff] using And.intro noBlank noSymbol

theorem not_symbol_of_isWordChar {c : Char} (word : isWordChar c = true) :
    ¬(Token.ofSymbol? c).isSome = true := by
  simp [(isWordChar_iff.mp word).2]

theorem not_blank_of_symbol {c : Char} (symbol : (Token.ofSymbol? c).isSome = true) :
    isBlank c = false := by
  refine Bool.eq_false_iff.mpr fun blank => ?_
  simp [ofSymbol?_of_isBlank blank] at symbol

theorem not_isWordChar_of_isBlank {c : Char} (blank : isBlank c = true) : ¬isWordChar c = true := by
  simp [isWordChar, blank]

theorem isAscii_of_isBlank {c : Char} (blank : isBlank c = true) : isAscii c = true := by
  simp only [isBlank, Bool.or_eq_true, decide_eq_true_eq] at blank
  rcases blank with (((rfl | rfl) | rfl) | rfl) | rfl <;> rfl

namespace IsLexeme

variable {source : Text} {x y : Located Text}

theorem width_pos (lexeme : IsLexeme source x) : 0 < x.span.width := by
  rcases lexeme.kind with symbol | run
  · have := symbol.width
    omega
  · exact run.nonempty

theorem not_blank_start (lexeme : IsLexeme source x) :
    ∃ c, source[x.span.start]? = some c ∧ isBlank c = false := by
  rcases lexeme.kind with symbol | run
  · obtain ⟨c, found, isSymbol⟩ := symbol.symbol
    exact ⟨c, found, not_blank_of_symbol isSymbol⟩
  · have wide := run.nonempty
    have first := run.inside x.span.start (Nat.le_refl _) (by simp [Span.stop, wide])
    obtain ⟨c, found, word⟩ := first
    exact ⟨c, found, (isWordChar_iff.mp word).1⟩

end IsLexeme

/-- A run and a symbol share no character. -/
theorem IsRun.disjoint_symbol {source : Text} {s t : Span} {i : Nat} (run : IsRun source s)
    (symbol : IsSymbol source t) (inRun : s.start ≤ i ∧ i < s.stop)
    (inSymbol : t.start ≤ i ∧ i < t.stop) : False := by
  have here : i = t.start := by
    have := symbol.width
    simp only [Span.stop] at inSymbol
    omega
  obtain ⟨c, found, word⟩ := run.inside i inRun.1 inRun.2
  obtain ⟨d, same, isSymbol⟩ := symbol.symbol
  rw [here, same] at found
  cases found
  exact not_symbol_of_isWordChar word isSymbol

/-- Of two runs with a common character neither begins before the other. -/
theorem IsRun.start_le {source : Text} {s t : Span} {i : Nat} (first : IsRun source s)
    (second : IsRun source t) (inFirst : s.start ≤ i ∧ i < s.stop)
    (inSecond : t.start ≤ i ∧ i < t.stop) : t.start ≤ s.start := by
  refine Nat.not_lt.mp fun later => second.before (t.start - 1) (by omega) ?_
  exact first.inside _ (by omega) (by omega)

/-- Of two runs with a common character neither ends before the other. -/
theorem IsRun.stop_le {source : Text} {s t : Span} {i : Nat} (first : IsRun source s)
    (second : IsRun source t) (inFirst : s.start ≤ i ∧ i < s.stop)
    (inSecond : t.start ≤ i ∧ i < t.stop) : s.stop ≤ t.stop := by
  refine Nat.not_lt.mp fun later => second.after ?_
  exact first.inside _ (by omega) (by omega)

/-- Two lexemes with a common character are the same. -/
theorem IsLexeme.eq_of_common {source : Text} {x y : Located Text} {i : Nat}
    (first : IsLexeme source x) (second : IsLexeme source y)
    (inFirst : x.span.start ≤ i ∧ i < x.span.stop)
    (inSecond : y.span.start ≤ i ∧ i < y.span.stop) : x = y := by
  have spans : x.span.start = y.span.start ∧ x.span.width = y.span.width := by
    rcases first.kind with symbol | run <;> rcases second.kind with symbol' | run'
    · have := symbol.width
      have := symbol'.width
      simp only [Span.stop] at inFirst inSecond
      omega
    · exact (run'.disjoint_symbol symbol inSecond inFirst).elim
    · exact (run.disjoint_symbol symbol' inFirst inSecond).elim
    · have := run.start_le run' inFirst inSecond
      have := run'.start_le run inSecond inFirst
      have := run.stop_le run' inFirst inSecond
      have := run'.stop_le run inSecond inFirst
      simp only [Span.stop] at *
      omega
  obtain ⟨xText, xStart, xWidth⟩ := x
  obtain ⟨yText, yStart, yWidth⟩ := y
  obtain ⟨rfl, rfl⟩ : xStart = yStart ∧ xWidth = yWidth := spans
  have sameText : xText = yText := first.text.trans second.text.symm
  rw [sameText]

/-- The cutting of a text that starts at an offset: blanks are left out, a symbol is a lexeme, and
so is a word, up to the next character that is not of the word. -/
inductive Cut : Nat → Text → List (Located Text) → Prop where
  | done (offset : Nat) : Cut offset [] []
  | blank {offset : Nat} {c : Char} {rest : Text} {later : List (Located Text)}
      (isBlank : isBlank c = true) (after : Cut (offset + 1) rest later) :
      Cut offset (c :: rest) later
  | symbol {offset : Nat} {c : Char} {rest : Text} {later : List (Located Text)}
      (isSymbol : (Token.ofSymbol? c).isSome = true) (after : Cut (offset + 1) rest later) :
      Cut offset (c :: rest) (⟨[c], ⟨offset, 1⟩⟩ :: later)
  | word {offset : Nat} {text : Text} {later : List (Located Text)} (word rest : Text)
      (split : text = word ++ rest) (nonempty : word ≠ [])
      (inside : ∀ c ∈ word, isWordChar c = true) (ends : ∀ c ∈ rest.head?, ¬isWordChar c = true)
      (after : Cut (offset + word.length) rest later) :
      Cut offset text (⟨word, ⟨offset, word.length⟩⟩ :: later)

theorem lexemesFrom_blank {offset : Nat} {c : Char} {rest : Text} (blank : isBlank c = true) :
    lexemesFrom offset (c :: rest) = lexemesFrom (offset + 1) rest := by
  simp [lexemesFrom, blank]

theorem lexemesFrom_symbol {offset : Nat} {c : Char} {rest : Text}
    (symbol : (Token.ofSymbol? c).isSome = true) :
    lexemesFrom offset (c :: rest) = ⟨[c], ⟨offset, 1⟩⟩ :: lexemesFrom (offset + 1) rest := by
  have noBlank := not_blank_of_symbol symbol
  have noWord : isWordChar c = false := Bool.eq_false_iff.mpr fun word =>
    not_symbol_of_isWordChar word symbol
  simp [lexemesFrom, noBlank, noWord]

theorem lexemesFrom_word (word rest : Text) (nonempty : word ≠ [])
    (inside : ∀ c ∈ word, isWordChar c = true) (ends : ∀ c ∈ rest.head?, ¬isWordChar c = true)
    (offset : Nat) :
    lexemesFrom offset (word ++ rest) =
      ⟨word, ⟨offset, word.length⟩⟩ :: lexemesFrom (offset + word.length) rest := by
  induction word generalizing offset with
  | nil => exact absurd rfl nonempty
  | cons c others ih =>
    have isWord : isWordChar c = true := inside c (by simp)
    have noBlank := (isWordChar_iff.mp isWord).1
    cases others with
    | nil =>
      have last : rest.head?.any isWordChar = false := by
        cases rest with
        | nil => rfl
        | cons d rest => simpa using ends d rfl
      simp [lexemesFrom, noBlank, last]
    | cons d others =>
      have later := ih (by simp) (fun e member => inside e (by simp [member])) (offset + 1)
      have next : isWordChar d = true := inside d (by simp)
      rw [List.cons_append] at later
      have widths : offset + 1 + (others.length + 1) = offset + (others.length + 1 + 1) := by omega
      rw [List.cons_append, List.cons_append, lexemesFrom, later]
      simp [noBlank, isWord, next, widths]

/-- A word is one lexeme. -/
theorem lexemes_word {word : Text} (nonempty : word ≠ [])
    (inside : ∀ c ∈ word, isWordChar c = true) : lexemes word = [⟨word, ⟨0, word.length⟩⟩] := by
  have cut := lexemesFrom_word word [] nonempty inside (by simp) 0
  rwa [List.append_nil] at cut

theorem Cut.lexemesFrom_eq {offset : Nat} {text : Text} {lexemes : List (Located Text)}
    (cut : Cut offset text lexemes) : lexemesFrom offset text = lexemes := by
  induction cut with
  | done offset => rfl
  | blank isBlank _ ih => rw [lexemesFrom_blank isBlank, ih]
  | symbol isSymbol _ ih => rw [lexemesFrom_symbol isSymbol, ih]
  | word word rest split nonempty inside ends _ ih =>
    rw [split, lexemesFrom_word word rest nonempty inside ends, ih]

/-- Every text can be cut. -/
theorem exists_cut (text : Text) (offset : Nat) : ∃ lexemes, Cut offset text lexemes := by
  induction text generalizing offset with
  | nil => exact ⟨[], .done offset⟩
  | cons c rest ih =>
    obtain ⟨later, cut⟩ := ih (offset + 1)
    by_cases blank : isBlank c = true
    · exact ⟨later, .blank blank cut⟩
    by_cases symbol : (Token.ofSymbol? c).isSome = true
    · exact ⟨_, .symbol symbol cut⟩
    have word : isWordChar c = true := isWordChar_of_neither blank symbol
    by_cases ends : ∀ d ∈ rest.head?, ¬isWordChar d = true
    · exact ⟨_, .word [c] rest rfl (by simp) (by simpa using word) ends cut⟩
    · -- The word goes on: the rest begins with the rest of the word.
      have next : ∀ d ∈ rest.head?, isWordChar d = true := by
        cases rest with
        | nil => simp
        | cons d later => simpa using ends
      cases cut with
      | done => simp at ends
      | blank isBlank _ => exact absurd (next _ rfl) (not_isWordChar_of_isBlank isBlank)
      | symbol isSymbol _ => exact absurd isSymbol (not_symbol_of_isWordChar (next _ rfl))
      | word others after split _ inside ends cut =>
        rw [Nat.add_assoc, Nat.add_comm 1] at cut
        refine ⟨_, .word (c :: others) after (by rw [split]; rfl) (by simp) ?_ ends cut⟩
        simpa using ⟨word, inside⟩

theorem cut_lexemesFrom (offset : Nat) (text : Text) :
    Cut offset text (lexemesFrom offset text) := by
  obtain ⟨lexemes, cut⟩ := exists_cut text offset
  rwa [cut.lexemesFrom_eq]

/-- A text that does not begin with a word character ends the last word of the text before it. -/
theorem Cut.append {offset : Nat} {text rest : Text} {earlier later : List (Located Text)}
    (cut : Cut offset text earlier) (apart : ∀ c ∈ rest.head?, ¬isWordChar c = true)
    (after : Cut (offset + text.length) rest later) :
    Cut offset (text ++ rest) (earlier ++ later) := by
  induction cut with
  | done offset => exact after
  | @blank offset d text _ isBlank _ ih =>
    rw [show offset + (d :: text).length = offset + 1 + text.length by simp; omega] at after
    exact .blank isBlank (ih after)
  | @symbol offset d text _ isSymbol _ ih =>
    rw [show offset + (d :: text).length = offset + 1 + text.length by simp; omega] at after
    exact .symbol isSymbol (ih after)
  | @word offset text _ word others split nonempty inside ends _ ih =>
    subst split
    rw [show offset + (word ++ others).length = offset + word.length + others.length by simp; omega]
      at after
    refine .word word (others ++ rest) (List.append_assoc _ _ _) nonempty inside ?_ (ih after)
    cases others with
    | nil => exact apart
    | cons d others => exact ends

/-- The character of a line at an offset after its first part. -/
theorem getElem?_after (before text : Text) (i : Nat) :
    (before ++ text)[before.length + i]? = text[i]? := by
  rw [List.getElem?_append_right (Nat.le_add_right _ _), Nat.add_sub_cancel_left]

/-- A word between characters that are not of it is a run. -/
theorem isRun_word {before word rest : Text} (nonempty : word ≠ [])
    (inside : ∀ c ∈ word, isWordChar c = true) (ends : ∀ c ∈ rest.head?, ¬isWordChar c = true)
    (begins : ∀ c ∈ before.getLast?, ¬isWordChar c = true) :
    IsRun (before ++ (word ++ rest)) ⟨before.length, word.length⟩ where
  nonempty := List.length_pos_iff.mpr nonempty
  inside := by
    intro i (later : before.length ≤ i) (earlier : i < before.length + word.length)
    obtain ⟨j, rfl⟩ := Nat.exists_eq_add_of_le later
    have bound : j < word.length := by omega
    refine ⟨word[j], ?_, inside _ (List.getElem_mem bound)⟩
    rw [getElem?_after, List.getElem?_append_left bound, List.getElem?_eq_getElem bound]
  before := by
    rintro i (last : i + 1 = before.length) ⟨c, found, isWord⟩
    rw [List.getElem?_append_left (by omega)] at found
    refine begins c ?_ isWord
    rw [List.getLast?_eq_getElem?, show before.length - 1 = i by omega, found]
    rfl
  after := by
    rintro ⟨c, found, isWord⟩
    have next : rest[0]? = some c := by
      rw [← getElem?_after word rest 0, ← getElem?_after before (word ++ rest)]
      exact found
    exact ends c (by rw [List.head?_eq_getElem?, next]; rfl) isWord

theorem slice_append (before middle after : Text) :
    Span.slice ⟨before.length, middle.length⟩ (before ++ (middle ++ after)) = middle := by
  simp [Span.slice]

/-- All that is cut out of the end of a line is a lexeme of the line, unless a word of the part
before it goes on. -/
theorem Cut.isLexeme {offset : Nat} {text : Text} {lexemes : List (Located Text)}
    (cut : Cut offset text lexemes) (before : Text) (length : before.length = offset)
    (apart : ∀ c ∈ before.getLast?, isWordChar c = true → ∀ d ∈ text.head?, ¬isWordChar d = true) :
    ∀ x ∈ lexemes, offset ≤ x.span.start ∧ IsLexeme (before ++ text) x := by
  induction cut generalizing before with
  | done => simp
  | @blank offset c rest later isBlank _ ih =>
    have noWord := not_isWordChar_of_isBlank isBlank
    intro x member
    obtain ⟨bound, lexeme⟩ := ih (before ++ [c]) (by simp [length]) (by simp [noWord]) x member
    rw [List.append_assoc] at lexeme
    exact ⟨by omega, lexeme⟩
  | @symbol offset c rest later isSymbol _ ih =>
    have noWord : ¬isWordChar c = true := fun word => not_symbol_of_isWordChar word isSymbol
    subst length
    rintro x (_ | ⟨_, member⟩)
    · refine ⟨Nat.le_refl _, (slice_append before [c] rest).symm, .inl ⟨rfl, c, ?_, isSymbol⟩⟩
      exact getElem?_after before (c :: rest) 0
    · obtain ⟨bound, lexeme⟩ := ih (before ++ [c]) (by simp) (by simp [noWord]) x member
      rw [List.append_assoc] at lexeme
      exact ⟨by omega, lexeme⟩
  | @word offset text later word rest split nonempty inside ends _ ih =>
    subst length split
    rintro x (_ | ⟨_, member⟩)
    · obtain ⟨c, others, rfl⟩ := List.exists_cons_of_ne_nil nonempty
      have begins : ∀ d ∈ before.getLast?, ¬isWordChar d = true := fun d last word =>
        apart d last word c rfl (inside c (by simp))
      exact ⟨Nat.le_refl _, (slice_append before _ rest).symm,
        .inr (isRun_word nonempty inside ends begins)⟩
    · obtain ⟨bound, lexeme⟩ := ih (before ++ word) (by simp) (fun _ _ _ => ends) x member
      rw [List.append_assoc] at lexeme
      exact ⟨by omega, lexeme⟩

/-- Lexemes are cut out in the order in which they stand. -/
theorem Cut.pairwise {offset : Nat} {text : Text} {lexemes : List (Located Text)}
    (cut : Cut offset text lexemes) :
    lexemes.Pairwise (fun x y => x.span.stop ≤ y.span.start) ∧
      ∀ x ∈ lexemes, offset ≤ x.span.start := by
  induction cut with
  | done => simp
  | blank _ _ ih => exact ⟨ih.1, fun x member => by have := ih.2 x member; omega⟩
  | symbol _ _ ih =>
    refine ⟨List.pairwise_cons.mpr ⟨fun x member => ih.2 x member, ih.1⟩, ?_⟩
    rintro x (_ | ⟨_, member⟩)
    · exact Nat.le_refl _
    · have := ih.2 x member
      omega
  | word word rest _ _ _ _ _ ih =>
    refine ⟨List.pairwise_cons.mpr ⟨fun x member => ih.2 x member, ih.1⟩, ?_⟩
    rintro x (_ | ⟨_, member⟩)
    · exact Nat.le_refl _
    · have := ih.2 x member
      omega

/-- Nothing is left out but blanks. -/
theorem Cut.covers {offset : Nat} {text : Text} {lexemes : List (Located Text)}
    (cut : Cut offset text lexemes) {i : Nat} {c : Char} (found : text[i]? = some c)
    (noBlank : isBlank c = false) :
    ∃ x ∈ lexemes, x.span.start ≤ offset + i ∧ offset + i < x.span.stop := by
  induction cut generalizing i with
  | done => simp at found
  | blank isBlank _ ih =>
    cases i with
    | zero =>
      cases found
      simp [isBlank] at noBlank
    | succ i =>
      obtain ⟨x, member, bounds⟩ := ih found
      exact ⟨x, member, by omega⟩
  | symbol _ _ ih =>
    cases i with
    | zero => exact ⟨_, List.mem_cons_self, Nat.le_refl _, Nat.lt_succ_self _⟩
    | succ i =>
      obtain ⟨x, member, bounds⟩ := ih found
      exact ⟨x, List.mem_cons_of_mem _ member, by omega⟩
  | @word offset text later word rest split _ _ _ _ ih =>
    subst split
    by_cases within : i < word.length
    · exact ⟨_, List.mem_cons_self, Nat.le_add_right _ _, Nat.add_lt_add_left within _⟩
    · obtain ⟨j, rfl⟩ := Nat.exists_eq_add_of_le (Nat.not_lt.mp within)
      rw [getElem?_after] at found
      obtain ⟨x, member, bounds⟩ := ih found
      exact ⟨x, List.mem_cons_of_mem _ member, by omega⟩

theorem pairwise_lexemes (source : Text) :
    (lexemes source).Pairwise fun x y => x.span.stop ≤ y.span.start :=
  (cut_lexemesFrom 0 source).pairwise.1

/-- A character of a line that is no blank belongs to a lexeme. -/
theorem exists_mem_lexemes {source : Text} {i : Nat} {c : Char} (found : source[i]? = some c)
    (noBlank : isBlank c = false) :
    ∃ x ∈ lexemes source, x.span.start ≤ i ∧ i < x.span.stop := by
  simpa [lexemes] using (cut_lexemesFrom 0 source).covers found noBlank

theorem isLexeme_of_mem {source : Text} {x : Located Text} (member : x ∈ lexemes source) :
    IsLexeme source x :=
  ((cut_lexemesFrom 0 source).isLexeme [] rfl (by simp) x member).2

/-- The lexemes of a line are its symbols and its longest runs of word characters. -/
theorem mem_lexemes {source : Text} {x : Located Text} :
    x ∈ lexemes source ↔ IsLexeme source x := by
  refine ⟨isLexeme_of_mem, fun lexeme => ?_⟩
  obtain ⟨c, found, noBlank⟩ := lexeme.not_blank_start
  obtain ⟨y, member, bounds⟩ := exists_mem_lexemes found noBlank
  have start : x.span.start ≤ x.span.start ∧ x.span.start < x.span.stop :=
    ⟨Nat.le_refl _, Nat.lt_add_of_pos_right lexeme.width_pos⟩
  rwa [lexeme.eq_of_common (isLexeme_of_mem member) start bounds]

end ExactCalc.Text
