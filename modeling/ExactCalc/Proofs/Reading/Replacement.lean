import ExactCalc.Proofs.Lexeme.Replacement
import ExactCalc.Proofs.Lexeme.Spelling
import ExactCalc.Proofs.Reading.Filling

/-!
# Replacing a variable in a line

Where the uses of a variable in a line are replaced by a text in parentheses, the line is read as
before, with the tokens of the text in the place of the variable. Only places are others. A lexeme
that cannot be read makes both lines fail. If the text itself cannot be read, it makes the replaced
line fail, unless something to its left does.
-/
namespace ExactCalc

namespace Text

/-- The place of the lexeme that an assignment assigns to. -/
def assigned? : List (Located Text) → Option Span
  | target :: ⟨['='], _⟩ :: _ => some target.span
  | _ => none

/-- Whether a lexeme stands for a variable and not in the place that is assigned to. -/
def isUse (radix : Nat) (name : Text) (target : Option Span) (x : Located Text) : Bool :=
  Token.ofText radix x.val = .ok (.var name) ∧ target ≠ some x.span

/-- The places where a line uses a variable: where the tokens of the line are the variable, but for
the one that is assigned to. A line that is not all ASCII has no tokens. -/
def uses (radix : Nat) (name line : Text) : List Span :=
  if line.all isAscii then
    ((lexemes line).filter (isUse radix name (assigned? (lexemes line)))).map (·.span)
  else []

/-- Not the target of an assignment, but the same variable to the right of it. -/
example : uses 10 "$x".toList "$x = $y*$x".toList = [⟨8, 2⟩] := by decide

/-- Lexemes with others in the place of a variable. -/
def fillWords (radix : Nat) (name : Text) (new : List Text) (words : List Text) : List Text :=
  words.flatMap fun word =>
    if Token.ofText radix word = .ok (.var name) then new else [word]

/-- The lexemes of a line with others in the place of a variable, which stays where it is assigned
to. -/
def fillLine (radix : Nat) (name : Text) (new : List Text) : List Text → List Text
  | target :: ['='] :: rest => target :: ['='] :: fillWords radix name new rest
  | words => fillWords radix name new words

variable {radix : Nat} {name : Text}

/-- Among lexemes that are not assigned to, the uses of a variable are picked by what they say. -/
theorem flatMap_isUse (new : List Text) (target : Option Span) {xs : List (Located Text)}
    (others : ∀ x ∈ xs, target ≠ some x.span) :
    (xs.flatMap fun x => if isUse radix name target x then new else [x.val]) =
      fillWords radix name new (xs.map (·.val)) := by
  induction xs with
  | nil => rfl
  | cons x xs ih =>
    have here : isUse radix name target x =
        decide (Token.ofText radix x.val = .ok (.var name)) := by
      simp [isUse, others x List.mem_cons_self]
    rw [List.flatMap_cons, ih fun y member => others y (List.mem_cons_of_mem _ member), here]
    simp only [decide_eq_true_eq]
    rfl

/-- The replaced line has the lexemes of the new text in the place of the variable. -/
theorem words_replaced_uses (radix : Nat) (name inner : Text) {line : Text}
    (ascii : ∀ c ∈ line, isAscii c = true) :
    words (replaced 0 (parenthesized inner) (uses radix name line) line) =
      fillLine radix name (words (parenthesized inner)) (words line) := by
  have cut : Cut 0 line (lexemes line) := cut_lexemesFrom 0 line
  have ordered := pairwise_lexemes line
  have wide : ∀ x ∈ lexemes line, 0 < x.span.width := fun x member =>
    (isLexeme_of_mem member).width_pos
  rw [uses, if_pos (List.all_eq_true.mpr ascii), cut.words_replaced, words]
  unfold fillLine
  split
  next target rest written =>
    obtain ⟨⟨first, s⟩, _, all, rfl, later⟩ := List.map_eq_cons_iff.mp written
    obtain ⟨⟨_, t⟩, others, rfl, rfl, rfl⟩ := List.map_eq_cons_iff.mp later
    rw [all] at ordered wide ⊢
    have apart : ∀ x ∈ others, some s ≠ some x.span := by
      rintro x member same
      have after := (List.pairwise_cons.mp ordered).1 x (List.mem_cons_of_mem _ member)
      have := wide _ List.mem_cons_self
      rw [← Option.some.inj same] at after
      simp only [Span.stop] at after this
      omega
    have kept : isUse radix name (some s) ⟨first, s⟩ = false := by simp [isUse]
    have sign : isUse radix name (some s) ⟨['='], t⟩ = false := by
      simp [isUse, Token.ofText, Token.ofSymbol?]
    simp only [List.flatMap_cons, assigned?, kept, sign]
    rw [flatMap_isUse _ _ apart]
    rfl
  next noTarget =>
    have none : assigned? (lexemes line) = none := by
      unfold assigned?
      split
      next target s rest all => exact (noTarget _ _ (congrArg (List.map Located.val) all)).elim
      next => rfl
    rw [none]
    exact flatMap_isUse _ _ fun _ _ => (Option.some_ne_none _).symm

/-- A line that is not all ASCII has nothing to replace. -/
theorem replaced_of_foreign (radix : Nat) (name new : Text) {line : Text}
    (foreign : ¬∀ c ∈ line, isAscii c = true) :
    replaced 0 new (uses radix name line) line = line := by
  have noUses : uses radix name line = [] :=
    if_neg fun all => foreign (List.all_eq_true.mp all)
  rw [noUses]
  rfl

/-- The first lexeme of a line begins with the first character after blanks. -/
theorem Cut.head_words {offset : Nat} {text : Text} {lexemes : List (Located Text)}
    (cut : Cut offset text lexemes) :
    lexemes.head?.bind (·.val.head?) = (text.dropWhile isBlank).head? := by
  induction cut with
  | done => rfl
  | blank isBlank _ ih => rw [List.dropWhile_cons_of_pos isBlank, ih]
  | symbol isSymbol _ _ =>
    rw [List.dropWhile_cons_of_neg (by simp [not_blank_of_symbol isSymbol])]
    rfl
  | word word rest split nonempty inside _ _ _ =>
    obtain ⟨c, others, rfl⟩ := List.exists_cons_of_ne_nil nonempty
    have noBlank := (isWordChar_iff.mp (inside c List.mem_cons_self)).1
    rw [split, List.cons_append, List.dropWhile_cons_of_neg (by simp [noBlank])]
    rfl

theorem head_words (line : Text) :
    (words line).head?.bind List.head? = (line.dropWhile isBlank).head? := by
  rw [← Cut.head_words (cut_lexemesFrom 0 line), words, List.head?_map, Option.bind_map]
  rfl

/-- A replaced line is a command only if the line is one. -/
theorem noSlash_replaced (inner : Text) {line : Text} (ascii : ∀ c ∈ line, isAscii c = true)
    (noSlash : (line.dropWhile isBlank).head? ≠ some '/') :
    ((replaced 0 (parenthesized inner) (uses radix name line) line).dropWhile isBlank).head? ≠
      some '/' := by
  rw [← head_words] at noSlash ⊢
  rw [words_replaced_uses radix name inner ascii]
  unfold fillLine
  split
  next target rest written =>
    rw [written] at noSlash
    exact noSlash
  next =>
    cases written : words line with
    | nil => nofun
    | cons word rest =>
      rw [written] at noSlash
      rw [fillWords, List.flatMap_cons]
      split
      · rw [words_parenthesized]
        simp
      · exact noSlash

end Text

open Statement

variable {radix : Nat} {name : Text} {c : Expr} {new : List Text}

namespace Token

theorem ofLexemes_nowhere {words : List Text} {tokens : List Token}
    (denotes : List.Forall₂ (Denotes radix) words tokens)
    (fits : ∀ word ∈ words, Literal.Fits radix word) :
    (words.map Located.nowhere).mapM (ofLexeme radix) = .ok (tokens.map Located.nowhere) := by
  refine mapM_eq_ok_iff.mpr (List.forall₂_map_left_iff.mpr (List.forall₂_map_right_iff.mpr ?_))
  induction denotes with
  | nil => exact .nil
  | cons denotes _ ih =>
    obtain ⟨first, others⟩ := List.forall_mem_cons.mp fits
    exact .cons (ofLexeme_eq_ok.mpr ⟨first, rfl, denotes⟩) (ih others)

/-- A lexeme that stands nowhere is read as it is in its place. -/
theorem ofLexeme_nowhere (x : Located Text) :
    ([x.val].map Located.nowhere).mapM (ofLexeme radix) =
      bimap (Failure.relocate .nowhere) (fun t => [t.val].map Located.nowhere)
        (ofLexeme radix x) := by
  rw [List.map_singleton, List.mapM_cons,
    show Located.nowhere x.val = x.relocate .nowhere from rfl, ofLexeme_relocate]
  cases ofLexeme radix x <;> rfl

/-- What stands for one lexeme in the replaced line. -/
theorem ofLexeme_fill (denotes : List.Forall₂ (Denotes radix) new (block c))
    (fits : ∀ word ∈ new, Literal.Fits radix word) (x : Located Text) :
    ((if ofText radix x.val = .ok (.var name) then new else [x.val]).map Located.nowhere).mapM
        (ofLexeme radix) =
      bimap (Failure.relocate .nowhere)
        (fun t => (if t.val = .var name then block c else [t.val]).map Located.nowhere)
        (ofLexeme radix x) := by
  have alone : ([x.val].map Located.nowhere).mapM (ofLexeme radix) = _ := ofLexeme_nowhere x
  cases means : ofText radix x.val with
  | error reason =>
    rw [if_neg nofun, alone]
    simp only [ofLexeme, means, bimap_error]
  | ok t =>
    have read : ofLexeme radix x = .ok ⟨t, x.span⟩ := by simp only [ofLexeme, means]
    rw [read, bimap_ok] at alone ⊢
    by_cases same : t = .var name
    · rw [if_pos (congrArg Except.ok same), if_pos same, ofLexemes_nowhere denotes fits]
    · rw [if_neg fun found => same (Except.ok.inj found), if_neg same, alone]

theorem ofLexemes_fill (denotes : List.Forall₂ (Denotes radix) new (block c))
    (fits : ∀ word ∈ new, Literal.Fits radix word) (xs : List (Located Text)) :
    ((Text.fillWords radix name new (xs.map (·.val))).map Located.nowhere).mapM (ofLexeme radix) =
      bimap (Failure.relocate .nowhere)
        (fun tokens => (fillTokens name c (tokens.map (·.val))).map Located.nowhere)
        (xs.mapM (ofLexeme radix)) := by
  induction xs with
  | nil => rfl
  | cons x xs ih =>
    unfold Text.fillWords at ih ⊢
    rw [List.map_cons, List.flatMap_cons, List.map_append, List.mapM_append,
      ofLexeme_fill denotes fits, ih, List.mapM_cons]
    refine bimap_bind fun t => bimap_bind fun ts => congrArg Except.ok ?_
    simp only [fillTokens, List.map_cons, List.flatMap_cons, List.map_append]

/-- Where new lexemes cannot be read, those before their first place decide whether it is they that
fail. -/
theorem ofLexemes_fill_unread {f : Failure}
    (unread : (new.map Located.nowhere).mapM (ofLexeme radix) = .error f) {xs : List (Located Text)}
    (used : ∃ x ∈ xs, ofText radix x.val = .ok (.var name)) :
    ∃ e, ((Text.fillWords radix name new (xs.map (·.val))).map Located.nowhere).mapM
        (ofLexeme radix) = .error e ∧
      (e = f ∨ ∃ e', xs.mapM (ofLexeme radix) = .error e' ∧ e = e'.relocate .nowhere) := by
  induction xs with
  | nil => simp at used
  | cons x xs ih =>
    unfold Text.fillWords at ih ⊢
    rw [List.map_cons, List.flatMap_cons, List.map_append, List.mapM_append, List.mapM_cons]
    by_cases here : ofText radix x.val = .ok (.var name)
    · rw [if_pos here, unread]
      exact ⟨f, rfl, .inl rfl⟩
    · rw [if_neg here, ofLexeme_nowhere]
      cases ofLexeme radix x with
      | error e => exact ⟨_, rfl, .inr ⟨e, rfl, rfl⟩⟩
      | ok t =>
        obtain ⟨e, fails, first⟩ := ih (by simpa [here] using used)
        refine ⟨e, by rw [fails]; rfl, first.imp_right fun ⟨e', failed, same⟩ => ⟨e', ?_, same⟩⟩
        rw [failed]
        rfl

theorem fillStatement_assign (t : Token) (rest : List Token) :
    fillStatement name c (t :: .assign :: rest) = t :: .assign :: fillTokens name c rest := by
  cases t <;> simp [fillStatement, fillTokens]

/-- Lexemes of which the second is no sign of an assignment assign to nothing. -/
theorem fillLine_of_not_assign {xs : List (Located Text)}
    (noAssign : ¬∃ x s rest, xs = x :: ⟨['='], s⟩ :: rest) :
    Text.assigned? xs = none ∧
      Text.fillLine radix name new (xs.map (·.val)) =
        Text.fillWords radix name new (xs.map (·.val)) := by
  constructor
  · unfold Text.assigned?
    split
    next target s rest => exact absurd ⟨target, s, rest, rfl⟩ noAssign
    next => rfl
  · unfold Text.fillLine
    split
    next target rest written =>
      obtain ⟨x, _, rfl, -, later⟩ := List.map_eq_cons_iff.mp written
      obtain ⟨⟨_, s⟩, rest, rfl, rfl, -⟩ := List.map_eq_cons_iff.mp later
      exact absurd ⟨x, s, rest, rfl⟩ noAssign
    next => rfl

/-- Behind an assignment, the lexemes of the replaced line are read after the target and the sign,
which are kept. -/
theorem ofLexemes_fillLine_assign (x : Located Text) (s : Span) (rest : List (Located Text)) :
    ((Text.fillLine radix name new ((x :: ⟨['='], s⟩ :: rest : List (Located Text)).map
        (·.val))).map Located.nowhere).mapM (ofLexeme radix) =
      bimap (Failure.relocate .nowhere) (Located.relocate .nowhere) (ofLexeme radix x) >>= fun t =>
        ((Text.fillWords radix name new (rest.map (·.val))).map Located.nowhere).mapM
          (ofLexeme radix) >>= fun ts => .ok (t :: Located.nowhere .assign :: ts) := by
  have filled : Text.fillLine radix name new
      ((x :: ⟨['='], s⟩ :: rest : List (Located Text)).map (·.val)) =
        x.val :: ['='] :: Text.fillWords radix name new (rest.map (·.val)) := rfl
  rw [filled, List.map_cons, List.map_cons, List.mapM_cons, List.mapM_cons,
    show Located.nowhere x.val = x.relocate .nowhere from rfl, ofLexeme_relocate,
    show ofLexeme radix (Located.nowhere ['=']) = .ok (Located.nowhere .assign) from rfl]
  cases ofLexeme radix x with
  | error e => rfl
  | ok t => cases ((Text.fillWords radix name new _).map _).mapM (ofLexeme radix) <;> rfl

/-- The lexemes of the replaced line stand for the filled tokens, or fail where those of the line
do. -/
theorem ofLexemes_fillLine (denotes : List.Forall₂ (Denotes radix) new (block c))
    (fits : ∀ word ∈ new, Literal.Fits radix word) (xs : List (Located Text)) :
    ((Text.fillLine radix name new (xs.map (·.val))).map Located.nowhere).mapM (ofLexeme radix) =
      bimap (Failure.relocate .nowhere)
        (fun tokens => (fillStatement name c (tokens.map (·.val))).map Located.nowhere)
        (xs.mapM (ofLexeme radix)) := by
  by_cases assigns : ∃ x s rest, xs = x :: ⟨['='], s⟩ :: rest
  · obtain ⟨x, s, rest, rfl⟩ := assigns
    have sign : ofLexeme radix ⟨['='], s⟩ = .ok ⟨.assign, s⟩ := rfl
    rw [ofLexemes_fillLine_assign, List.mapM_cons, List.mapM_cons, sign,
      ofLexemes_fill denotes fits]
    refine bimap_bind fun t => ?_
    cases rest.mapM (ofLexeme radix) with
    | error e => rfl
    | ok ts =>
      have whole : fillStatement name c (t.val :: .assign :: ts.map (·.val)) =
          t.val :: .assign :: fillTokens name c (ts.map (·.val)) := fillStatement_assign t.val _
      exact congrArg (fun values => Except.ok (List.map Located.nowhere values)) whole.symm
  · rw [(fillLine_of_not_assign assigns).2, ofLexemes_fill denotes fits]
    cases read : xs.mapM (ofLexeme radix) with
    | error e => rfl
    | ok tokens =>
      refine congrArg (fun values => Except.ok (List.map Located.nowhere values)) ?_
      unfold fillStatement
      split
      next target rest written =>
        -- Only the sign itself stands for the sign of an assignment.
        obtain ⟨t, _, rfl, -, later⟩ := List.map_eq_cons_iff.mp written
        obtain ⟨u, others, rfl, sign, -⟩ := List.map_eq_cons_iff.mp later
        obtain ⟨x, _, -, after, all⟩ := List.forall₂_cons_right_iff.mp (mapM_eq_ok_iff.mp read)
        obtain ⟨⟨_, s⟩, rest, means, -, second⟩ := List.forall₂_cons_right_iff.mp after
        have spelled := (sign ▸ (ofLexeme_eq_ok.mp means).2.2).eq_spelling rfl
        exact absurd ⟨x, s, rest, by rw [all, second, ← spelled]⟩ assigns
      next => rfl

/-- Where the new lexemes cannot be read and the variable is used, the replaced line fails as they
do, unless the line fails before its first use of the variable. -/
theorem ofLexemes_fillLine_unread {f : Failure}
    (unread : (new.map Located.nowhere).mapM (ofLexeme radix) = .error f) {xs : List (Located Text)}
    (used : ∃ x ∈ xs, Text.isUse radix name (Text.assigned? xs) x = true) :
    ∃ e, ((Text.fillLine radix name new (xs.map (·.val))).map Located.nowhere).mapM
        (ofLexeme radix) = .error e ∧
      (e = f ∨ ∃ e', xs.mapM (ofLexeme radix) = .error e' ∧ e = e'.relocate .nowhere) := by
  obtain ⟨x, member, uses⟩ := used
  obtain ⟨isName, notTarget⟩ := of_decide_eq_true uses
  by_cases assigns : ∃ x s rest, xs = x :: ⟨['='], s⟩ :: rest
  · obtain ⟨first, s, rest, rfl⟩ := assigns
    have later : x ∈ rest := by
      rcases List.mem_cons.mp member with rfl | behind
      · exact absurd rfl notTarget
      · rcases List.mem_cons.mp behind with rfl | later
        · cases isName
        · exact later
    obtain ⟨e, fails, first'⟩ := ofLexemes_fill_unread unread ⟨x, later, isName⟩
    have sign : ofLexeme radix ⟨['='], s⟩ = .ok ⟨.assign, s⟩ := rfl
    rw [ofLexemes_fillLine_assign, fails, List.mapM_cons, List.mapM_cons, sign]
    cases ofLexeme radix first with
    | error e' => exact ⟨_, rfl, .inr ⟨e', rfl, rfl⟩⟩
    | ok t =>
      refine ⟨e, rfl, first'.imp_right fun ⟨e', failed, same⟩ => ⟨e', ?_, same⟩⟩
      rw [failed]
      rfl
  · rw [(fillLine_of_not_assign assigns).2]
    exact ofLexemes_fill_unread unread ⟨x, member, isName⟩

end Token

/-- A text in parentheses stands for the tokens of its expression in parentheses. -/
theorem denotes_block {text : Text}
    (denotes : List.Forall₂ (Token.Denotes radix) (Text.words text) c.tokens) :
    List.Forall₂ (Token.Denotes radix) (Text.words (Text.parenthesized text)) (block c) := by
  rw [Text.words_parenthesized]
  exact .cons (.symbol rfl) (List.rel_append denotes (.cons (.symbol rfl) .nil))

/-- With its variable replaced a line is read as the filled tokens, or fails where it failed, but
for places. -/
theorem Text.tokens_replaced {inner : Text}
    (denotes : List.Forall₂ (Token.Denotes radix) (words (parenthesized inner)) (block c))
    (fits : (parenthesized inner).Fits radix) {line : Text} (ascii : ∀ x ∈ line, isAscii x = true) :
    bimap (Failure.relocate .nowhere) (List.map (Located.relocate .nowhere))
        ((replaced 0 (parenthesized inner) (uses radix name line) line).tokens radix) =
      bimap (Failure.relocate .nowhere)
        (fun tokens => (fillStatement name c (tokens.map (·.val))).map Located.nowhere)
        (line.tokens radix) := by
  rw [Text.tokens, ← Token.ofLexemes_relocate, Located.map_relocate_nowhere]
  have lexemes := words_replaced_uses radix name inner ascii
  rw [words] at lexemes
  rw [lexemes]
  exact Token.ofLexemes_fillLine denotes (List.forall_mem_map.mpr fits) _

/-- With its variable replaced by a text that cannot be read, a line that uses the variable fails as
the text does, unless it fails before the first use. -/
theorem Text.tokens_replaced_unread {inner : Text} {f : Failure}
    (unread : ((words (parenthesized inner)).map Located.nowhere).mapM (Token.ofLexeme radix) =
      .error f)
    {line : Text} (ascii : ∀ x ∈ line, isAscii x = true) (used : uses radix name line ≠ []) :
    ∃ e, (replaced 0 (parenthesized inner) (uses radix name line) line).tokens radix = .error e ∧
      (e.relocate .nowhere = f ∨
        ∃ e', line.tokens radix = .error e' ∧ e.relocate .nowhere = e'.relocate .nowhere) := by
  have inLine : ∃ x ∈ lexemes line, isUse radix name (assigned? (lexemes line)) x = true := by
    rw [uses, if_pos (List.all_eq_true.mpr ascii)] at used
    simpa [List.filter_eq_nil_iff] using used
  obtain ⟨e, fails, first⟩ := Token.ofLexemes_fillLine_unread unread inLine
  have moved := Token.ofLexemes_relocate (m := .nowhere) radix
    (lexemes (replaced 0 (parenthesized inner) (uses radix name line) line))
  have lexemes := words_replaced_uses radix name inner ascii
  rw [words] at lexemes
  rw [Located.map_relocate_nowhere, lexemes] at moved
  have failed := moved.symm.trans fails
  rw [Text.tokens]
  cases read : List.mapM (Token.ofLexeme radix) (Text.lexemes _) with
  | ok tokens => simp [read] at failed
  | error e' =>
    rw [read, bimap_error] at failed
    cases failed
    exact ⟨e', rfl, first⟩

end ExactCalc
