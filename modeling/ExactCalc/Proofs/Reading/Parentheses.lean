import ExactCalc.Proofs.Lexeme.Line
import ExactCalc.Proofs.Reading.Standing

/-!
# Parentheses and their partners

In a balanced row of tokens no parenthesis is closed before it is opened and none stays open. The
tokens of an expression are balanced, and so are those of a level that has begun. Therefore the
tokens before a parenthesis that closes nothing are balanced, as they all belong to the outermost
level, and so are the tokens after the last parenthesis that is still open at the end. Neither
happens in a balanced row.
-/
namespace ExactCalc

open Located

namespace Token

/-- By how much a token changes the number of open parentheses. -/
def opens : Token → ℤ
  | openParen => 1
  | closeParen => -1
  | _ => 0

/-- How many more parentheses are opened than closed. -/
def depth (tokens : List Token) : ℤ := (tokens.map opens).sum

/-- Every parenthesis has its partner. -/
structure Balanced (tokens : List Token) : Prop where
  /-- Nowhere have more parentheses been closed than opened. -/
  nonneg : ∀ before after, tokens = before ++ after → 0 ≤ depth before
  /-- At the end no parenthesis is open. -/
  settled : depth tokens = 0

variable {tokens later : List Token}

@[simp] theorem depth_nil : depth [] = 0 := rfl

@[simp] theorem depth_cons (t : Token) (tokens : List Token) :
    depth (t :: tokens) = t.opens + depth tokens := by
  simp [depth]

@[simp] theorem depth_append (tokens later : List Token) :
    depth (tokens ++ later) = depth tokens + depth later := by
  simp [depth]

theorem balanced_nil : Balanced [] where
  nonneg before after split := by
    rw [(List.append_eq_nil_iff.mp split.symm).1, depth_nil]
  settled := rfl

theorem Balanced.append (first : Balanced tokens) (second : Balanced later) :
    Balanced (tokens ++ later) where
  nonneg before after split := by
    rcases List.append_eq_append_iff.mp split with ⟨more, rfl, rest⟩ | ⟨more, rest, -⟩
    · rw [depth_append, first.settled, zero_add]
      exact second.nonneg more after rest
    · exact first.nonneg before more rest
  settled := by rw [depth_append, first.settled, second.settled, zero_add]

/-- A token that is no parenthesis does not matter. -/
theorem Balanced.cons {t : Token} (plain : t.opens = 0) (rest : Balanced tokens) :
    Balanced (t :: tokens) where
  nonneg before after split := by
    rcases List.cons_eq_append_iff.mp split with ⟨rfl, -⟩ | ⟨more, rfl, splitRest⟩
    · exact le_rfl
    · rw [depth_cons, plain, zero_add]
      exact rest.nonneg more after splitRest
  settled := by rw [depth_cons, plain, rest.settled, zero_add]

/-- A balanced row in parentheses is balanced. -/
theorem Balanced.enclosed (inside : Balanced tokens) :
    Balanced (openParen :: (tokens ++ [closeParen])) where
  nonneg before after split := by
    rcases List.cons_eq_append_iff.mp split with ⟨rfl, -⟩ | ⟨more, rfl, opened⟩
    · exact le_rfl
    rw [depth_cons]
    rcases List.append_eq_append_iff.mp opened with ⟨last, rfl, closed⟩ | ⟨rest, within, -⟩
    · -- All of the row stands before, and perhaps the closing parenthesis, too.
      rw [depth_append, inside.settled, zero_add]
      rcases List.cons_eq_append_iff.mp closed with ⟨rfl, -⟩ | ⟨nothing, rfl, ended⟩
      · exact Int.one_nonneg
      · rw [(List.append_eq_nil_iff.mp ended.symm).1]
        exact le_rfl
    · exact Int.add_nonneg Int.one_nonneg (inside.nonneg more rest within)
  settled := by
    rw [depth_cons, depth_append, inside.settled]
    rfl

/-- A parenthesis that is closed after a balanced row has no partner. -/
theorem not_balanced_of_close (before : Balanced tokens) :
    ¬Balanced (tokens ++ closeParen :: later) := by
  intro balanced
  have below := balanced.nonneg (tokens ++ [closeParen]) later (List.append_cons _ _ _)
  rw [depth_append, before.settled] at below
  exact absurd below (by decide)

/-- A parenthesis that is opened before a balanced row has no partner. -/
theorem not_balanced_of_open (after : Balanced later) :
    ¬Balanced (tokens ++ openParen :: later) := by
  intro balanced
  have above := balanced.nonneg tokens _ rfl
  have settled := balanced.settled
  rw [depth_append, depth_cons, after.settled] at settled
  simp only [opens] at settled
  omega

end Token

open Token (Balanced)

theorem UnaryOp.opens_token (op : UnaryOp) : op.token.opens = 0 := by
  cases op <;> rfl

namespace Expr

mutual

theorem balanced_tokens : (e : Expr) → Balanced e.tokens
  | .number _ _ => Token.balanced_nil.cons rfl
  | .var _ _ => Token.balanced_nil.cons rfl
  | .unary op _ operand => (balanced_tokens operand).cons op.opens_token
  | .binary _ _ left right => (balanced_tokens left).append ((balanced_tokens right).cons rfl)
  | .apply _ _ operand => (balanced_tokens operand).cons rfl
  | .call _ _ _ _ operands => (balanced_argumentTokens operands).enclosed.cons rfl
  | .parens _ _ inner => (balanced_tokens inner).enclosed

theorem balanced_argumentTokens : (es : List Expr) → Balanced (argumentTokens es)
  | [] => Token.balanced_nil
  | [e] => balanced_tokens e
  | e :: next :: rest =>
    (balanced_tokens e).append ((balanced_argumentTokens (next :: rest)).cons rfl)

end

/-- The tokens that an expression stands on are balanced. -/
theorem StandsOn.balanced {e : Expr} {tokens : List (Located Token)} (stands : e.StandsOn tokens) :
    Balanced (tokens.map (·.val)) := by
  rw [StandsOn.values e tokens stands]
  exact e.balanced_tokens

end Expr

theorem Item.RowStandsOn.balanced {row : List Item} {tokens : List (Located Token)}
    (stands : RowStandsOn row tokens) : Balanced (tokens.map (·.val)) := by
  induction row generalizing tokens with
  | nil =>
    obtain rfl := stands
    exact Token.balanced_nil
  | cons item row ih =>
    obtain ⟨before, after, rfl, here, later⟩ := stands
    rw [List.map_append]
    refine Token.Balanced.append ?_ (ih later)
    cases item with
    | operand e => exact Expr.StandsOn.balanced here
    | operator op s =>
      obtain rfl := here
      exact Token.balanced_nil.cons rfl

namespace GrammarError

/-- What is blamed for having no partner is a parenthesis: one that closes after a balanced row, or
one that opens before a balanced row. -/
def Unpartnered (tokens : List (Located Token)) (s : Span) : GrammarError → Prop
  | mismatchedClose =>
    ∃ before after, tokens = before ++ ⟨.closeParen, s⟩ :: after ∧ Balanced (before.map (·.val))
  | mismatchedOpen =>
    ∃ before after, tokens = before ++ ⟨.openParen, s⟩ :: after ∧ Balanced (after.map (·.val))
  | _ => True

variable {tokens : List (Located Token)} {s : Span} {e : GrammarError}

/-- A balanced row in front changes nothing. -/
theorem Unpartnered.append {front : List (Located Token)} (balanced : Balanced (front.map (·.val)))
    (blamed : e.Unpartnered tokens s) : e.Unpartnered (front ++ tokens) s := by
  cases e with
  | mismatchedClose =>
    obtain ⟨before, after, rfl, closed⟩ := blamed
    refine ⟨front ++ before, after, (List.append_assoc _ _ _).symm, ?_⟩
    rw [List.map_append]
    exact balanced.append closed
  | mismatchedOpen =>
    obtain ⟨before, after, rfl, opened⟩ := blamed
    exact ⟨front ++ before, after, (List.append_assoc _ _ _).symm, opened⟩
  | _ => trivial

/-- In a balanced row every parenthesis has a partner. -/
theorem Unpartnered.not_balanced (blamed : e.Unpartnered tokens s)
    (mismatched : e = .mismatchedClose ∨ e = .mismatchedOpen) :
    ¬Balanced (tokens.map (·.val)) := by
  rcases mismatched with rfl | rfl
  · obtain ⟨before, after, rfl, closed⟩ := blamed
    rw [List.map_append]
    exact Token.not_balanced_of_close closed
  · obtain ⟨before, after, rfl, opened⟩ := blamed
    rw [List.map_append]
    exact Token.not_balanced_of_open opened

end GrammarError

/-- The defects of a row have nothing to do with parentheses. -/
theorem Item.unpartnered_of_toExpr? {row : List Item} {e : Located GrammarError}
    (failed : toExpr? row = .error e) (tokens : List (Located Token)) :
    e.val.Unpartnered tokens e.span := by
  unfold toExpr? single? at failed
  split at failed <;> cases failed <;> trivial

namespace Statement

theorem Awaiting.opens_located (a : Awaiting) : a.located.val.opens = 0 := by
  cases a with
  | unary op s => exact op.opens_token
  | func f s => rfl

/-- The tokens of a level are balanced: a parenthesis that is still open begins a level of its
own. -/
theorem Level.StandsOn.balanced {level : Level} {tokens : List (Located Token)}
    (stands : level.StandsOn tokens) : Balanced (tokens.map (·.val)) := by
  obtain ⟨before, rfl, onItems⟩ := stands.items
  rw [List.map_append]
  refine onItems.balanced.append ?_
  generalize level.awaiting.reverse = awaiting
  induction awaiting with
  | nil => exact Token.balanced_nil
  | cons a rest ih => exact ih.cons a.opens_located

theorem Level.unpartnered_of_finish {level : Level} {e : Located GrammarError}
    (failed : level.finish = .error e) (tokens : List (Located Token)) :
    e.val.Unpartnered tokens e.span := by
  unfold finish at failed
  split at failed
  next a rest _ =>
    cases failed
    cases a <;> trivial
  next => exact Item.unpartnered_of_toExpr? failed tokens

theorem EachWithComma.balanced {es : List Expr} {tokens : List (Located Token)}
    (each : EachWithComma es tokens) : Balanced (tokens.map (·.val)) := by
  induction es generalizing tokens with
  | nil =>
    obtain rfl := each
    exact Token.balanced_nil
  | cons e rest ih =>
    obtain ⟨before, s, after, rfl, onFirst, later⟩ := each
    rw [List.map_append]
    exact onFirst.balanced.append ((ih later).cons rfl)

variable {r : Reader} {tokens : List (Located Token)} {token : Located Token}
  {e : Located GrammarError}

theorem Reader.unpartnered_of_finishLevel (failed : r.finishLevel = .error e)
    (tokens : List (Located Token)) : e.val.Unpartnered tokens e.span := by
  rcases bind_eq_error_iff.mp failed with early | ⟨found, -, late⟩
  · exact Level.unpartnered_of_finish early tokens
  · split at late <;> cases late
    trivial

theorem Reader.unpartnered_of_comma {span : Span} (failed : r.comma span = .error e)
    (tokens : List (Located Token)) : e.val.Unpartnered tokens e.span := by
  rcases bind_eq_error_iff.mp failed with early | ⟨found, -, late⟩
  · exact unpartnered_of_finishLevel early tokens
  · split at late <;> cases late <;> trivial

/-- A parenthesis closes nothing where only the outermost level has begun. -/
theorem Reader.StandsOn.unpartnered_of_closeParen {span : Span} (stands : r.StandsOn tokens)
    (failed : r.closeParen span = .error e) (later : List (Located Token)) :
    e.val.Unpartnered (tokens ++ ⟨.closeParen, span⟩ :: later) e.span := by
  rcases bind_eq_error_iff.mp failed with early | ⟨found, -, late⟩
  · exact unpartnered_of_finishLevel early _
  split at late
  next => cases late
  next =>
    cases late
    trivial
  next => cases late
  next outermost =>
    cases late
    obtain ⟨_, after, rfl, outer, level⟩ := stands
    rw [outermost] at outer
    obtain rfl := outer
    exact ⟨after, later, rfl, level.balanced⟩

theorem Reader.StandsOn.unpartnered_of_step (stands : r.StandsOn tokens)
    (failed : r.step token = .error e) (later : List (Located Token)) :
    e.val.Unpartnered (tokens ++ token :: later) e.span := by
  obtain ⟨token, span⟩ := token
  cases token with
  | number value => cases failed
  | var name => cases failed
  | unary w => cases failed
  | func f => cases failed
  | openParen => cases failed
  | assign =>
    cases failed
    trivial
  | binary op =>
    simp only [Reader.step, Reader.operator] at failed
    split at failed <;> cases failed
    trivial
  | comma => exact unpartnered_of_comma failed _
  | closeParen => exact stands.unpartnered_of_closeParen failed later

/-- The innermost parenthesis that is still open has only its own level after it. -/
theorem Reader.StandsOn.unpartnered_of_finish (stands : r.StandsOn tokens)
    (failed : r.finish = .error e) : e.val.Unpartnered tokens e.span := by
  rcases bind_eq_error_iff.mp failed with early | ⟨found, -, late⟩
  · exact unpartnered_of_finishLevel early _
  obtain ⟨before, inner, rfl, outer, level⟩ := stands
  split at late
  next => cases late
  next =>
    cases late
    trivial
  next openSpan enclosing others around =>
    cases late
    rw [around] at outer
    obtain ⟨front, middle, _, rfl, -, -, rfl, -⟩ := outer
    exact ⟨front ++ middle, inner, by simp, level.balanced⟩
  next f nameSpan openSpan operands comma enclosing others around =>
    cases late
    rw [around] at outer
    obtain ⟨front, middle, _, rfl, -, -, ⟨arguments, rfl, each, -⟩, -⟩ := outer
    refine ⟨front ++ (middle ++ [⟨.func f, nameSpan⟩]), arguments ++ inner, by simp, ?_⟩
    rw [List.map_append]
    exact each.balanced.append level.balanced

/-- The tokens of a target are no parentheses. -/
theorem exists_splitTarget (tokens : List (Located Token)) :
    ∃ front, tokens = front ++ (splitTarget tokens).2 ∧ Balanced (front.map (·.val)) := by
  unfold splitTarget
  split
  next name span assignSpan rest =>
    exact ⟨[⟨.var name, span⟩, ⟨.assign, assignSpan⟩], rfl, (Token.balanced_nil.cons rfl).cons rfl⟩
  next => exact ⟨[], rfl, Token.balanced_nil⟩

theorem balanced_of_read {s : Statement} (read : Statement.read tokens = .ok s) :
    Balanced (tokens.map (·.val)) := by
  obtain ⟨front, split, plain⟩ := exists_splitTarget tokens
  rw [split, List.map_append]
  exact plain.append (standsOn_of_read read).balanced

theorem unpartnered_of_readExpr (failed : readExpr tokens = .error e) :
    e.val.Unpartnered tokens e.span := by
  rcases bind_eq_error_iff.mp failed with early | ⟨after, run, late⟩
  · obtain ⟨earlier, token, later, between, rfl, run, fails⟩ := exists_of_foldlM_eq_error early
    exact (Reader.standsOn_start.run earlier run).unpartnered_of_step fails later
  · exact (Reader.standsOn_start.run tokens run).unpartnered_of_finish late

theorem unpartnered_of_read (failed : Statement.read tokens = .error e) :
    e.val.Unpartnered tokens e.span := by
  obtain ⟨front, split, plain⟩ := exists_splitTarget tokens
  rcases bind_eq_error_iff.mp failed with failed | ⟨_, -, late⟩
  · rw [split]
    exact (unpartnered_of_readExpr failed).append plain
  · cases late

/-- The tokens of a line that is an expression are balanced. If a parenthesis that closes is blamed
for having no partner, the token in that place is one, and the tokens before it are balanced; if one
that opens is, the token in that place is one, and the tokens after it are balanced. In a balanced
line neither is blamed. -/
theorem blamed_parenthesis_has_no_partner (radix : ℕ) (line : Text) (tokens : List (Located Token))
    (read : Line.read radix line = .ok (.expression tokens)) :
    (tokens.map (·.span)).Nodup ∧
    (∀ s, Statement.read tokens = .ok s → Balanced (tokens.map (·.val))) ∧
    (∀ span, Statement.read tokens = .error ⟨.mismatchedClose, span⟩ →
      ∃ before after, tokens = before ++ ⟨.closeParen, span⟩ :: after ∧
        Balanced (before.map (·.val))) ∧
    (∀ span, Statement.read tokens = .error ⟨.mismatchedOpen, span⟩ →
      ∃ before after, tokens = before ++ ⟨.openParen, span⟩ :: after ∧
        Balanced (after.map (·.val))) ∧
    (Balanced (tokens.map (·.val)) → ∀ span,
      Statement.read tokens ≠ .error ⟨.mismatchedClose, span⟩ ∧
        Statement.read tokens ≠ .error ⟨.mismatchedOpen, span⟩) := by
  obtain ⟨-, -, tokenized⟩ := Line.read_eq_expression.mp read
  refine ⟨Text.nodup_spans tokenized, fun s => balanced_of_read, fun span => unpartnered_of_read,
    fun span => unpartnered_of_read, fun balanced span => ⟨fun failed => ?_, fun failed => ?_⟩⟩
  · exact (unpartnered_of_read failed).not_balanced (.inl rfl) balanced
  · exact (unpartnered_of_read failed).not_balanced (.inr rfl) balanced

/-- The last parenthesis of `2*(1+3))` closes nothing, and of those that are open at the end of
`max((1),(2` the last is blamed. -/
theorem blamed_parenthesis_has_no_partner_last :
    (∃ tokens span before after, Line.read 10 "2*(1+3))".toList = .ok (.expression tokens) ∧
      Statement.read tokens = .error ⟨.mismatchedClose, span⟩ ∧ span = ⟨7, 1⟩ ∧
      tokens = before ++ ⟨.closeParen, span⟩ :: after ∧ Balanced (before.map (·.val))) ∧
    ∃ tokens span before after, Line.read 10 "max((1),(2".toList = .ok (.expression tokens) ∧
      Statement.read tokens = .error ⟨.mismatchedOpen, span⟩ ∧ span = ⟨8, 1⟩ ∧
      tokens = before ++ ⟨.openParen, span⟩ :: after ∧ Balanced (after.map (·.val)) := by
  have closed : Line.read 10 "2*(1+3))".toList = .ok (.expression [⟨.number 2, ⟨0, 1⟩⟩,
      ⟨.binary .multiply, ⟨1, 1⟩⟩, ⟨.openParen, ⟨2, 1⟩⟩, ⟨.number 1, ⟨3, 1⟩⟩,
      ⟨.binary .add, ⟨4, 1⟩⟩, ⟨.number 3, ⟨5, 1⟩⟩, ⟨.closeParen, ⟨6, 1⟩⟩,
      ⟨.closeParen, ⟨7, 1⟩⟩]) := by decide +kernel
  have opened : Line.read 10 "max((1),(2".toList = .ok (.expression [⟨.func .max, ⟨0, 3⟩⟩,
      ⟨.openParen, ⟨3, 1⟩⟩, ⟨.openParen, ⟨4, 1⟩⟩, ⟨.number 1, ⟨5, 1⟩⟩, ⟨.closeParen, ⟨6, 1⟩⟩,
      ⟨.comma, ⟨7, 1⟩⟩, ⟨.openParen, ⟨8, 1⟩⟩, ⟨.number 2, ⟨9, 1⟩⟩]) := by decide +kernel
  constructor
  · obtain ⟨before, after, split, balanced⟩ :=
      (blamed_parenthesis_has_no_partner 10 _ _ closed).2.2.1 ⟨7, 1⟩ rfl
    exact ⟨_, _, before, after, closed, rfl, rfl, split, balanced⟩
  · obtain ⟨before, after, split, balanced⟩ :=
      (blamed_parenthesis_has_no_partner 10 _ _ opened).2.2.2.1 ⟨8, 1⟩ rfl
    exact ⟨_, _, before, after, opened, rfl, rfl, split, balanced⟩

end Statement
end ExactCalc
