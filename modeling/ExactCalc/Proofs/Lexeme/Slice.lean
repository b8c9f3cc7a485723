import ExactCalc.Proofs.Lexeme.Line
import ExactCalc.Proofs.Reading.Places

/-!
# Lexemes of a slice

A line that is cut at the start of one lexeme and at the end of another has the lexemes between them
as before, only further left, and the tokens that these stand for.
-/
namespace ExactCalc

namespace Located

variable {α β : Type}

/-- Located values are told by their values and their spans. -/
theorem ext_maps {xs ys : List (Located α)} (values : xs.map (·.val) = ys.map (·.val))
    (spans : xs.map (·.span) = ys.map (·.span)) : xs = ys := by
  induction xs generalizing ys with
  | nil => exact (List.map_eq_nil_iff.mp values.symm).symm
  | cons x xs ih =>
    obtain ⟨y, ys, rfl, value, values⟩ := List.map_eq_cons_iff.mp values.symm
    obtain ⟨span, spans⟩ := List.cons.inj spans
    rw [ih values.symm spans]
    exact congrArg (· :: ys) (by cases x; cases y; cases value; cases span; rfl)

theorem Hull.of_spans {s : Span} {xs : List (Located α)} {ys : List (Located β)}
    (hull : Hull s xs) (same : xs.map (·.span) = ys.map (·.span)) : Hull s ys := by
  obtain ⟨⟨x, first, starts⟩, y, last, stops⟩ := hull
  have heads := congrArg List.head? same
  have lasts := congrArg List.getLast? same
  rw [List.head?_map, List.head?_map, Option.mem_def.mp first] at heads
  rw [List.getLast?_map, List.getLast?_map, Option.mem_def.mp last] at lasts
  obtain ⟨x', first', sameFirst⟩ := Option.map_eq_some_iff.mp heads.symm
  obtain ⟨y', last', sameLast⟩ := Option.map_eq_some_iff.mp lasts.symm
  exact ⟨⟨x', first', by rw [sameFirst, starts]⟩, y', last', by rw [sameLast, stops]⟩

end Located

namespace Text

open Located

/-- The place of a text decides the places of its lexemes and nothing else. -/
theorem Cut.shift {offset : Nat} {text : Text} {lexemes : List (Located Text)} (k : Nat)
    (cut : Cut offset text lexemes) : Cut (offset + k) text (lexemes.map (·.shift k)) := by
  induction cut with
  | done offset => exact .done _
  | @blank offset c rest later isBlank _ ih =>
    rw [Nat.add_right_comm] at ih
    exact .blank isBlank ih
  | @symbol offset c rest later isSymbol _ ih =>
    rw [Nat.add_right_comm] at ih
    exact .symbol isSymbol ih
  | @word offset text later word rest split nonempty inside ends _ ih =>
    rw [Nat.add_right_comm] at ih
    exact .word word rest split nonempty inside ends ih

theorem lexemesFrom_shift (offset k : Nat) (text : Text) :
    lexemesFrom (offset + k) text = (lexemesFrom offset text).map (·.shift k) :=
  ((cut_lexemesFrom offset text).shift k).lexemesFrom_eq

/-- From the start of a lexeme on, a text is cut as it was. -/
theorem Cut.drop {offset : Nat} {text : Text} {earlier later : List (Located Text)}
    {x : Located Text} (cut : Cut offset text (earlier ++ x :: later)) :
    Cut x.span.start (text.drop (x.span.start - offset)) (x :: later) := by
  generalize all : earlier ++ x :: later = lexemes at cut
  induction cut generalizing earlier with
  | done => simp at all
  | @blank offset c rest others isBlank after ih =>
    have bound := after.pairwise.2 x (by simp [← all])
    have step : x.span.start - offset = x.span.start - (offset + 1) + 1 := by omega
    rw [step, List.drop_succ_cons]
    exact ih all
  | @symbol offset c rest others isSymbol after ih =>
    cases earlier with
    | nil =>
      cases all
      simpa using Cut.symbol isSymbol after
    | cons first earlier =>
      obtain ⟨rfl, tails⟩ := List.cons.inj all
      have bound := after.pairwise.2 x (by simp [← tails])
      have step : x.span.start - offset = x.span.start - (offset + 1) + 1 := by omega
      rw [step, List.drop_succ_cons]
      exact ih tails
  | @word offset text others word rest split nonempty inside ends after ih =>
    subst split
    cases earlier with
    | nil =>
      cases all
      simpa using Cut.word word rest rfl nonempty inside ends after
    | cons first earlier =>
      obtain ⟨rfl, tails⟩ := List.cons.inj all
      have bound := after.pairwise.2 x (by simp [← tails])
      have step : x.span.start - offset =
          word.length + (x.span.start - (offset + word.length)) := by
        omega
      rw [step, List.drop_length_add_append]
      exact ih tails

/-- Up to the end of a lexeme, a text is cut as it was. -/
theorem Cut.take {offset : Nat} {text : Text} {earlier later : List (Located Text)}
    {x : Located Text} (cut : Cut offset text (earlier ++ x :: later)) :
    Cut offset (text.take (x.span.stop - offset)) (earlier ++ [x]) := by
  generalize all : earlier ++ x :: later = lexemes at cut
  induction cut generalizing earlier with
  | done => simp at all
  | @blank offset c rest others isBlank after ih =>
    have bound := after.pairwise.2 x (by simp [← all])
    have wide := x.span.start_le_stop
    have step : x.span.stop - offset = x.span.stop - (offset + 1) + 1 := by omega
    rw [step, List.take_succ_cons]
    exact .blank isBlank (ih all)
  | @symbol offset c rest others isSymbol after ih =>
    cases earlier with
    | nil =>
      cases all
      simpa [Span.stop] using Cut.symbol isSymbol (.done _)
    | cons first earlier =>
      obtain ⟨rfl, tails⟩ := List.cons.inj all
      have bound := after.pairwise.2 x (by simp [← tails])
      have wide := x.span.start_le_stop
      have step : x.span.stop - offset = x.span.stop - (offset + 1) + 1 := by omega
      rw [step, List.take_succ_cons]
      exact .symbol isSymbol (ih tails)
  | @word offset text others word rest split nonempty inside ends after ih =>
    subst split
    cases earlier with
    | nil =>
      cases all
      simpa [Span.stop] using
        Cut.word word [] (List.append_nil _).symm nonempty inside (by simp) (.done _)
    | cons first earlier =>
      obtain ⟨rfl, tails⟩ := List.cons.inj all
      have bound := after.pairwise.2 x (by simp [← tails])
      have wide := x.span.start_le_stop
      have step : x.span.stop - offset = word.length + (x.span.stop - (offset + word.length)) := by
        omega
      rw [step, List.take_length_add_append]
      refine .word word _ rfl nonempty inside ?_ (ih tails)
      intro c first
      rw [List.head?_take] at first
      split at first
      next => cases first
      next => exact ends c first

/-- The lexemes of a slice that begins and ends with a lexeme are those of the line, in their old
places. -/
theorem Cut.slice {line : Text} {earlier middle later : List (Located Text)} {s : Span}
    (cut : Cut 0 line (earlier ++ (middle ++ later))) (hull : Hull s middle) :
    Cut s.start (s.slice line) middle := by
  obtain ⟨⟨x, first, starts⟩, y, last, stops⟩ := hull
  obtain ⟨rest, rfl⟩ := List.head?_eq_some_iff.mp first
  have begun : Cut s.start (line.drop s.start) (x :: rest ++ later) := starts ▸ cut.drop
  obtain ⟨others, split⟩ := List.getLast?_eq_some_iff.mp last
  rw [split, List.append_assoc] at begun
  have ended := begun.take
  rw [stops, Span.stop, Nat.add_sub_cancel_left] at ended
  rw [split]
  exact ended

variable {radix : Nat} {line : Text}

/-- A part of the tokens of a line stands for a part of its lexemes. -/
theorem exists_lexemes_of_part {before part after : List (Located Token)}
    (read : line.tokens radix = .ok (before ++ (part ++ after))) :
    ∃ earlier middle later, lexemes line = earlier ++ (middle ++ later) ∧
      List.Forall₂ (fun x t => t.span = x.span ∧ Token.Denotes radix x.val t.val) middle part := by
  have each := (tokens_eq_ok.mp read).2
  have rest := List.forall₂_drop_append _ before _ each
  refine ⟨(lexemes line).take before.length, ((lexemes line).drop before.length).take part.length,
    ((lexemes line).drop before.length).drop part.length, ?_,
    List.forall₂_take_append _ part after rest⟩
  rw [List.take_append_drop, List.take_append_drop]

/-- A slice that begins and ends with a token has the tokens of the line, further left. -/
theorem tokens_slice {before part after : List (Located Token)} {s : Span}
    (read : line.tokens radix = .ok (before ++ (part ++ after))) (hull : Hull s part) :
    ∃ own, (s.slice line).tokens radix = .ok own ∧ own.map (·.shift s.start) = part := by
  obtain ⟨earlier, middle, later, split, each⟩ := exists_lexemes_of_part read
  have cut : Cut 0 line (earlier ++ (middle ++ later)) := split ▸ cut_lexemesFrom 0 line
  have moved : (lexemes (s.slice line)).map (·.shift s.start) = middle := by
    rw [lexemes, ← lexemesFrom_shift, Nat.zero_add]
    exact (cut.slice (hull.of_spans (map_span_eq each))).lexemesFrom_eq
  have spans := map_span_eq each
  rw [← moved, List.forall₂_map_left_iff] at each
  have values : List.Forall₂ (fun x t => Token.Denotes radix x.val t) (lexemes (s.slice line))
      (part.map (·.val)) :=
    List.forall₂_map_right_iff.mpr (each.imp fun _ _ both => both.2)
  have fits : (s.slice line).Fits radix := fun x member =>
    (tokens_eq_ok.mp read).1 (x.shift s.start) (by
      rw [split, ← moved]
      simp [List.mem_map_of_mem member])
  obtain ⟨own, found, same⟩ := exists_tokens_of_values fits values
  refine ⟨own, found, ext_maps ?_ ?_⟩
  · rw [← same, List.map_map]
    rfl
  · calc (own.map (·.shift s.start)).map (·.span)
        = (own.map (·.span)).map (·.shift s.start) := by
          rw [List.map_map, List.map_map]
          rfl
      _ = ((lexemes (s.slice line)).map (·.shift s.start)).map (·.span) := by
          rw [map_span_tokens found, List.map_map, List.map_map]
          rfl
      _ = part.map (·.span) := by rw [moved, spans]

/-- Blanks at the start of a text are no part of a lexeme. -/
theorem lexemesFrom_blanks {blanks : Text} (blank : ∀ c ∈ blanks, isBlank c = true) (offset : Nat)
    (text : Text) :
    lexemesFrom offset (blanks ++ text) = lexemesFrom (offset + blanks.length) text := by
  induction blanks generalizing offset with
  | nil => rfl
  | cons c blanks ih =>
    rw [List.cons_append, lexemesFrom_blank (blank c List.mem_cons_self),
      ih (fun d member => blank d (List.mem_cons_of_mem _ member)), List.length_cons,
      Nat.add_right_comm, Nat.add_assoc]

theorem lexemesFrom_dropWhile (offset : Nat) (text : Text) :
    lexemesFrom offset text =
      lexemesFrom (offset + (text.takeWhile isBlank).length) (text.dropWhile isBlank) := by
  rw [← lexemesFrom_blanks fun c member => (List.mem_takeWhile_imp member),
    List.takeWhile_append_dropWhile]

/-- A line whose first character after blanks is a slash begins with a division, if its lexemes
stand for tokens. -/
theorem noSlash_of_denotes {values : List Token}
    (each : List.Forall₂ (fun x t => Token.Denotes radix x.val t) (lexemes line) values)
    (begins : values.head? ≠ some (.binary .divide)) :
    (line.dropWhile isBlank).head? ≠ some '/' := by
  intro slash
  obtain ⟨rest, starts⟩ := List.head?_eq_some_iff.mp slash
  rw [lexemes, lexemesFrom_dropWhile, starts, lexemesFrom_symbol rfl,
    List.forall₂_cons_left_iff] at each
  obtain ⟨t, later, denotes, -, rfl⟩ := each
  have isDivision : Except.ok (Token.binary .divide) = Except.ok t :=
    Token.ofText_eq_ok.mpr ⟨denotes, Token.fits_of_symbol rfl⟩
  exact begins (congrArg some (Except.ok.inj isDivision).symm)

theorem noSlash_of_tokens {tokens : List (Located Token)} (read : line.tokens radix = .ok tokens)
    (begins : tokens.head?.map (·.val) ≠ some (.binary .divide)) :
    (line.dropWhile isBlank).head? ≠ some '/' := by
  have each := (tokens_eq_ok.mp read).2
  have denotes : List.Forall₂ (fun x t => Token.Denotes radix x.val t) (lexemes line)
      (tokens.map (·.val)) := List.forall₂_map_right_iff.mpr (each.imp fun _ _ both => both.2)
  refine noSlash_of_denotes denotes ?_
  rwa [List.head?_map]

end Text
end ExactCalc
