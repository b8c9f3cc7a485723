import ExactCalc.Proofs.Lexeme.Words

/-!
# Replacing lexemes

A text in parentheses may be put in the place of lexemes of a line. There it is cut into its own
lexemes, and what is around it is cut as it was: neither parenthesis joins a word, and what stood
apart stays apart.
-/
namespace ExactCalc.Text

/-- A text that starts at an offset, with another in the place of each of the spans, which stand in
it from left to right. The last is replaced first, so that those before it keep their places. -/
def replaced (offset : Nat) (new : Text) (spans : List Span) (text : Text) : Text :=
  spans.foldr
    (fun s text => text.take (s.start - offset) ++ (new ++ text.drop (s.stop - offset))) text

example : replaced 0 "(2)".toList [⟨0, 2⟩, ⟨3, 2⟩] "$x+$x".toList = "(2)+(2)".toList := by decide

def parenthesized (text : Text) : Text := '(' :: (text ++ [')'])

variable (new : Text)

/-- What stands before all of the spans stays. -/
theorem replaced_append (offset : Nat) (before rest : Text) {spans : List Span}
    (later : ∀ s ∈ spans, offset + before.length ≤ s.start) :
    replaced offset new spans (before ++ rest) =
      before ++ replaced (offset + before.length) new spans rest := by
  induction spans with
  | nil => rfl
  | cons s spans ih =>
    have here := later s List.mem_cons_self
    have start : s.start - offset = before.length + (s.start - (offset + before.length)) := by omega
    have stop : s.stop - offset = before.length + (s.stop - (offset + before.length)) := by
      have := s.start_le_stop
      omega
    have inside := ih fun s member => later s (List.mem_cons_of_mem _ member)
    unfold replaced at inside ⊢
    rw [List.foldr_cons, List.foldr_cons, inside, start, stop, List.take_length_add_append,
      List.drop_length_add_append, List.append_assoc]

/-- A lexeme at the start of the text is replaced as a whole. -/
theorem replaced_cons (offset : Nat) (word rest : Text) {spans : List Span}
    (later : ∀ s ∈ spans, offset + word.length ≤ s.start) :
    replaced offset new (⟨offset, word.length⟩ :: spans) (word ++ rest) =
      new ++ replaced (offset + word.length) new spans rest := by
  have inside := replaced_append new offset word rest later
  unfold replaced at inside ⊢
  rw [List.foldr_cons, inside]
  simp [Span.stop]

variable {new}

theorem mem_replaced {offset : Nat} {spans : List Span} {text : Text} {c : Char}
    (member : c ∈ replaced offset new spans text) : c ∈ new ∨ c ∈ text := by
  induction spans with
  | nil => exact .inr member
  | cons s spans ih =>
    rw [replaced, List.foldr_cons, List.mem_append, List.mem_append] at member
    rcases member with earlier | here | later
    · exact ih (List.mem_of_mem_take earlier)
    · exact .inl here
    · exact ih (List.mem_of_mem_drop later)

/-- A replaced text begins as it did or with what has been put in. -/
theorem head?_replaced {offset : Nat} {spans : List Span} {text : Text} (nonempty : new ≠ [])
    {c : Char} (first : c ∈ (replaced offset new spans text).head?) :
    c ∈ new.head? ∨ c ∈ text.head? := by
  induction spans with
  | nil => exact .inr first
  | cons s spans ih =>
    obtain ⟨d, others, rfl⟩ := List.exists_cons_of_ne_nil nonempty
    rw [replaced, List.foldr_cons, ← replaced, List.head?_append, List.head?_take] at first
    split at first
    next => exact .inl first
    next =>
      cases inside : (replaced offset (d :: others) spans text).head? with
      | none => exact .inl (by simpa [inside] using first)
      | some e => exact ih (by simpa [inside] using first)

theorem words_parenthesized_append (text rest : Text) :
    words (parenthesized text ++ rest) = ['('] :: (words text ++ [')'] :: words rest) := by
  rw [parenthesized, List.cons_append, words_symbol rfl, List.append_assoc]
  exact congrArg _ (words_append_symbol (List.forall_mem_nil _) rfl)

theorem words_parenthesized (text : Text) :
    words (parenthesized text) = ['('] :: (words text ++ [[')']]) := by
  rw [← List.append_nil (parenthesized text), words_parenthesized_append]
  rfl

theorem fits_parenthesized {radix : Nat} {text : Text} :
    (parenthesized text).Fits radix ↔ text.Fits radix := by
  rw [parenthesized, fits_symbol rfl, ← List.nil_append [')'],
    fits_append_symbol (List.forall_mem_nil _) rfl]
  exact and_iff_left nofun

/-- The words of a text in which picked lexemes are replaced are those of what is put in, where a
lexeme is picked, and the lexeme itself where it is not. -/
theorem Cut.words_replaced {offset : Nat} {text : Text} {lexemes : List (Located Text)}
    (cut : Cut offset text lexemes) (inner : Text) (pick : Located Text → Bool) :
    words (replaced offset (parenthesized inner) ((lexemes.filter pick).map (·.span)) text) =
      lexemes.flatMap fun x => if pick x then words (parenthesized inner) else [x.val] := by
  have spans {later : List (Located Text)} {n : Nat} (bound : ∀ x ∈ later, n ≤ x.span.start) :
      ∀ s ∈ (later.filter pick).map (·.span), n ≤ s.start := by
    rintro s member
    obtain ⟨x, picked, rfl⟩ := List.mem_map.mp member
    exact bound x (List.mem_of_mem_filter picked)
  -- A lexeme at the start of what is left is replaced or stands in front of the rest.
  have first (word : Text) {rest : Text} {offset : Nat} {later : List (Located Text)}
      (bound : ∀ x ∈ later, offset + word.length ≤ x.span.start)
      (apart : ∀ t : Text, (∀ c ∈ t.head?, c ∈ (parenthesized inner).head? ∨ c ∈ rest.head?) →
        words (word ++ t) = word :: words t)
      (ih : words (replaced (offset + word.length) (parenthesized inner)
        ((later.filter pick).map (·.span)) rest) = later.flatMap fun x =>
          if pick x then words (parenthesized inner) else [x.val]) :
      words (replaced offset (parenthesized inner)
        (((⟨word, ⟨offset, word.length⟩⟩ :: later : List (Located Text)).filter pick).map (·.span))
          (word ++ rest)) =
        (⟨word, ⟨offset, word.length⟩⟩ :: later : List (Located Text)).flatMap fun x =>
          if pick x then words (parenthesized inner) else [x.val] := by
    rw [List.flatMap_cons, ← ih]
    by_cases picked : pick ⟨word, ⟨offset, word.length⟩⟩ = true
    · rw [List.filter_cons_of_pos picked, List.map_cons, replaced_cons _ _ _ _ (spans bound),
        words_parenthesized_append, words_parenthesized, if_pos picked]
      simp
    · rw [List.filter_cons_of_neg picked, replaced_append _ _ _ _ (spans bound), if_neg picked]
      exact apart _ fun c => head?_replaced (List.cons_ne_nil _ _)
  induction cut with
  | done => rfl
  | @blank offset c rest later isBlank after ih =>
    have ahead := replaced_append (parenthesized inner) offset [c] rest
      (spans after.pairwise.2)
    rw [List.singleton_append] at ahead
    rw [ahead, words_blanks (by simpa using isBlank)]
    exact ih
  | @symbol offset c rest later isSymbol after ih =>
    exact first [c] after.pairwise.2 (fun t _ => words_symbol isSymbol) ih
  | @word offset text later word rest split nonempty inside ends after ih =>
    subst split
    refine first word after.pairwise.2 (fun t heads => ?_) ih
    rw [words_append, words_word nonempty inside, List.singleton_append]
    intro c member
    rcases heads c member with here | here
    · cases here
      decide
    · exact ends c here

end ExactCalc.Text
