import Mathlib.Data.List.Chain
import Mathlib.Logic.Relation
import ExactCalc.Proofs.Reading.Places
import ExactCalc.Proofs.Reading.Row

/-!
# Where the defects of a row are

Folding negations and joining tiers are repeated steps of two kinds, `Negates` and `Joins`. Each
step leaves the row standing on the same tokens. After the pass for a tier no operator of the tier
has operands on both sides, and later passes do not bring one back, so that a reduced row in which
something is left over begins with a defect: an operator that misses an operand, or two operands
without an operator. The defect is reported at the tokens that are to blame for it.
-/
namespace ExactCalc

/-- The last token of an operand. -/
def Token.EndsOperand : Token → Prop
  | number _ | var _ | closeParen => True
  | _ => False

/-- The first token of an operand that follows another one: a minus sign there is an operator. -/
def Token.BeginsOperand : Token → Prop
  | number _ | var _ | unary _ | func _ | openParen => True
  | _ => False

/-- The token that an operator is written with. -/
def Operator.token : Operator → Token
  | unary op => op.token
  | binary op => .binary op

/-- A defect of a row of tokens is reported where it is: at the token that the error names, or from
a parenthesis to the one that closes it, or between two tokens of which one ends an operand and the
next begins another. The absence of an expression has no place in the line. -/
def GrammarError.StandsAt (tokens : List (Located Token)) (s : Span) : GrammarError → Prop
  | noInput => s = ⟨0, 0⟩
  | unexpectedToken t =>
    ⟨t, s⟩ ∈ tokens ∧ (t = .assign ∨ t = .comma ∨ ∃ op, t = .binary op)
  | mismatchedOpen => ⟨.openParen, s⟩ ∈ tokens
  | mismatchedClose => ⟨.closeParen, s⟩ ∈ tokens
  | emptyParens =>
    ∃ openSpan closeSpan, [⟨.openParen, openSpan⟩, ⟨.closeParen, closeSpan⟩] <:+: tokens ∧
      s = openSpan.cover closeSpan
  | missingOperand op => ⟨op.token, s⟩ ∈ tokens
  | commaWithoutOperandBefore => ⟨.comma, s⟩ ∈ tokens
  | commaWithoutOperandAfter => ⟨.comma, s⟩ ∈ tokens
  | missingArgument f => ⟨.func f, s⟩ ∈ tokens
  | missingOperator =>
    ∃ t u, [t, u] <:+: tokens ∧ t.val.EndsOperand ∧ u.val.BeginsOperand ∧
      s.start = t.span.stop ∧ s.stop = u.span.start
  | unrankedOperator _ => False

theorem GrammarError.StandsAt.of_part {e : GrammarError} {s : Span}
    {part tokens : List (Located Token)} (stands : e.StandsAt part s) (isPart : part <:+: tokens) :
    e.StandsAt tokens s := by
  cases e with
  | noInput => exact stands
  | unexpectedToken t => exact ⟨isPart.subset stands.1, stands.2⟩
  | emptyParens =>
    obtain ⟨openSpan, closeSpan, inside, same⟩ := stands
    exact ⟨openSpan, closeSpan, inside.trans isPart, same⟩
  | missingOperator =>
    obtain ⟨t, u, inside, between⟩ := stands
    exact ⟨t, u, inside.trans isPart, between⟩
  | unrankedOperator op => exact stands
  | mismatchedOpen => exact isPart.subset stands
  | mismatchedClose => exact isPart.subset stands
  | missingOperand op => exact isPart.subset stands
  | commaWithoutOperandBefore => exact isPart.subset stands
  | commaWithoutOperandAfter => exact isPart.subset stands
  | missingArgument f => exact isPart.subset stands

namespace Expr

/-- What the tokens of an expression begin with. -/
theorem head_tokens : (e : Expr) →
    ∃ t ∈ e.tokens.head?, t.BeginsOperand ∨ ∃ op, t = .binary op
  | number _ _ => ⟨_, rfl, .inl trivial⟩
  | var _ _ => ⟨_, rfl, .inl trivial⟩
  | unary .negate _ _ => ⟨_, rfl, .inr ⟨_, rfl⟩⟩
  | unary (.word _) _ _ => ⟨_, rfl, .inl trivial⟩
  | binary _ _ left _ => by
    obtain ⟨t, first, begins⟩ := head_tokens left
    exact ⟨t, by simp [tokens, Option.mem_def.mp first], begins⟩
  | apply _ _ _ => ⟨_, rfl, .inl trivial⟩
  | call _ _ _ _ _ => ⟨_, rfl, .inl trivial⟩
  | parens _ _ _ => ⟨_, rfl, .inl trivial⟩

/-- What the tokens of an expression end with. -/
theorem last_tokens (e : Expr) : ∃ t ∈ e.tokens.getLast?, t.EndsOperand := by
  cases e with
  | number value s => exact ⟨_, rfl, trivial⟩
  | var name s => exact ⟨_, rfl, trivial⟩
  | unary op s operand =>
    obtain ⟨t, last, ends⟩ := last_tokens operand
    exact ⟨t, by simp [tokens, List.getLast?_cons, Option.mem_def.mp last], ends⟩
  | binary op s left right =>
    obtain ⟨t, last, ends⟩ := last_tokens right
    exact ⟨t, by simp [tokens, List.getLast?_cons, Option.mem_def.mp last], ends⟩
  | apply f s operand =>
    obtain ⟨t, last, ends⟩ := last_tokens operand
    exact ⟨t, by simp [tokens, List.getLast?_cons, Option.mem_def.mp last], ends⟩
  | call f s openSpan closeSpan operands =>
    exact ⟨.closeParen, by simp [tokens, List.getLast?_cons], trivial⟩
  | parens openSpan closeSpan inner =>
    exact ⟨.closeParen, by simp [tokens, List.getLast?_cons], trivial⟩

theorem head_tokens_binary (op : BinaryOp) (s : Span) (left right : Expr) :
    (binary op s left right).tokens.head? = left.tokens.head? := by
  obtain ⟨t, first, -⟩ := head_tokens left
  simp [tokens, Option.mem_def.mp first]

/-- No expression begins with a division. -/
theorem head_tokens_ne_divide : (e : Expr) → e.tokens.head? ≠ some (.binary .divide)
  | number _ _ => nofun
  | var _ _ => nofun
  | unary .negate _ _ => nofun
  | unary (.word _) _ _ => nofun
  | binary op s left right => head_tokens_binary op s left right ▸ head_tokens_ne_divide left
  | apply _ _ _ => nofun
  | call _ _ _ _ _ => nofun
  | parens _ _ _ => nofun

end Expr

namespace Item

open Located Relation

def StandsOn : Item → List (Located Token) → Prop
  | operand e, tokens => e.StandsOn tokens
  | operator op s, tokens => tokens = [⟨.binary op, s⟩]

/-- The items of a row stand on tokens one after the other. -/
def RowStandsOn : List Item → List (Located Token) → Prop
  | [], tokens => tokens = []
  | item :: row, tokens =>
    ∃ before after, tokens = before ++ after ∧ item.StandsOn before ∧ RowStandsOn row after

theorem rowStandsOn_append {row later : List Item} {tokens : List (Located Token)} :
    RowStandsOn (row ++ later) tokens ↔
      ∃ before after, tokens = before ++ after ∧ RowStandsOn row before ∧
        RowStandsOn later after := by
  induction row generalizing tokens with
  | nil => simp [RowStandsOn]
  | cons item row ih =>
    simp only [List.cons_append, RowStandsOn, ih]
    constructor
    · rintro ⟨first, _, rfl, stands, before, after, rfl, onRow, onLater⟩
      exact ⟨first ++ before, after, (List.append_assoc _ _ _).symm,
        ⟨first, before, rfl, stands, onRow⟩, onLater⟩
    · rintro ⟨_, after, rfl, ⟨first, before, rfl, stands, onRow⟩, onLater⟩
      exact ⟨first, before ++ after, List.append_assoc _ _ _, stands, before, after, rfl, onRow,
        onLater⟩

/-- A minus sign that nothing or an operator stands before joins the operand after it. -/
inductive Negates : List Item → List Item → Prop where
  | step (before after : List Item) (s : Span) (e : Expr)
      (begins : operandExpected before.reverse = true) :
      Negates (before ++ operator .subtract s :: operand e :: after)
        (before ++ operand (.unary .negate s e) :: after)

/-- An operator joins the operands on its two sides. -/
inductive Joins : List Item → List Item → Prop where
  | step (before after : List Item) (op : BinaryOp) (s : Span) (left right : Expr) :
      Joins (before ++ operand left :: operator op s :: operand right :: after)
        (before ++ operand (.binary op s left right) :: after)

theorem sweepNegations_steps (held : Option Expr) (left done : List Item) :
    ReflTransGen Negates (left.reverse ++ putBack held done) (sweepNegations held left done) := by
  fun_induction sweepNegations held left done with
  | case1 => exact .refl
  | case2 held e left done ih => simpa using ih
  | case3 op s left done ih => simpa using ih
  | case4 op s left done e negates ih =>
    obtain ⟨rfl, begins⟩ := negates
    refine .head ?_ ih
    have step := Negates.step left.reverse done s e (by rwa [List.reverse_reverse])
    simpa using step
  | case5 op s left done e keeps ih => simpa using ih

theorem foldNegations_steps (row : List Item) :
    ReflTransGen Negates row (foldNegations row) := by
  simpa [foldNegations] using sweepNegations_steps none row.reverse []

/-- An item that is added to a row joins with it or stays beside it. -/
theorem join_steps (tier : List BinaryOp) (row : List Item) (item : Item) (later : List Item) :
    ReflTransGen Joins (row.reverse ++ item :: later) ((join tier row item).reverse ++ later) := by
  unfold join
  split
  next right op s left rest =>
    split
    next =>
      have step := Joins.step rest.reverse later op s left right
      exact .single (by simpa using step)
    next => simpa using ReflTransGen.refl
  next => simpa using ReflTransGen.refl

theorem reduceTier_steps (row : List Item) (tier : List BinaryOp) :
    ReflTransGen Joins row (reduceTier row tier) := by
  have joined (begun : List Item) :
      ReflTransGen Joins (begun.reverse ++ row) (row.foldl (join tier) begun).reverse := by
    induction row generalizing begun with
    | nil => simpa using ReflTransGen.refl
    | cons item row ih => exact (join_steps tier begun item row).trans (ih _)
  simpa [reduceTier] using joined []

theorem reduceTiers_steps (tiers : List (List BinaryOp)) (row : List Item) :
    ReflTransGen Joins row (tiers.foldl reduceTier row) := by
  induction tiers generalizing row with
  | nil => exact .refl
  | cons tier tiers ih => exact (reduceTier_steps row tier).trans (ih _)

/-- What each step keeps, all steps keep. -/
theorem steps_keep {r : List Item → List Item → Prop} {P : List Item → Prop}
    (keeps : ∀ row row', r row row' → P row → P row') {row row' : List Item}
    (steps : ReflTransGen r row row') (holds : P row) : P row' := by
  induction steps with
  | refl => exact holds
  | tail _ step ih => exact keeps _ _ step ih

/-- A reduced row has what all steps keep. -/
theorem reduce_keeps {P : List Item → Prop}
    (negates : ∀ row row', Negates row row' → P row → P row')
    (joins : ∀ row row', Joins row row' → P row → P row') {row : List Item} (holds : P row) :
    P (reduce row) :=
  steps_keep joins (reduceTiers_steps BinaryOp.tiers _)
    (steps_keep negates (foldNegations_steps row) holds)

theorem Negates.rowStandsOn {row row' : List Item} {tokens : List (Located Token)}
    (step : Negates row row') (stands : RowStandsOn row tokens) : RowStandsOn row' tokens := by
  obtain ⟨before, after, s, e⟩ := step
  rw [rowStandsOn_append] at stands ⊢
  obtain ⟨first, _, rfl, onBefore, _, _, rfl, rfl, operandTokens, rest, rfl, onOperand, onAfter⟩ :=
    stands
  exact ⟨first, _, rfl, onBefore, _ :: operandTokens, rest, rfl, ⟨operandTokens, rfl, onOperand⟩,
    onAfter⟩

theorem Joins.rowStandsOn {row row' : List Item} {tokens : List (Located Token)}
    (step : Joins row row') (stands : RowStandsOn row tokens) : RowStandsOn row' tokens := by
  obtain ⟨before, after, op, s, left, right⟩ := step
  rw [rowStandsOn_append] at stands ⊢
  obtain ⟨first, _, rfl, onBefore, leftTokens, _, rfl, onLeft, _, _, rfl, rfl, rightTokens, rest,
    rfl, onRight, onAfter⟩ := stands
  exact ⟨first, _, rfl, onBefore, leftTokens ++ _ :: rightTokens, rest, by simp,
    ⟨leftTokens, rightTokens, rfl, onLeft, onRight⟩, onAfter⟩

/-- After an operand stands no operand that begins with an operator: a minus sign there is one. -/
def MayFollow : Item → Item → Prop
  | operand _, operand e => ∀ op, e.tokens.head? ≠ some (.binary op)
  | _, _ => True

/-- What may follow one operand may follow any. -/
theorem MayFollow.after {e e' : Expr} {item : Item} (follows : MayFollow (operand e) item) :
    MayFollow (operand e') item := by
  cases item with
  | operand _ => exact follows
  | operator _ _ => trivial

/-- The operands of a row are parted by their first tokens. -/
def Parted (row : List Item) : Prop := row.IsChain MayFollow

theorem Negates.parted {row row' : List Item} (step : Negates row row') (parted : Parted row) :
    Parted row' := by
  obtain ⟨before, after, s, e, begins⟩ := step
  simp only [Parted, List.isChain_append, List.isChain_cons] at parted ⊢
  obtain ⟨onLeft, ⟨-, next, onRight⟩, -⟩ := parted
  refine ⟨onLeft, ⟨fun item isNext => (next item isNext).after, onRight⟩,
    fun last isLast first isFirst => ?_⟩
  cases last with
  | operator op s => trivial
  | operand e' =>
    obtain ⟨others, rfl⟩ := List.getLast?_eq_some_iff.mp isLast
    simp [operandExpected] at begins

theorem Joins.parted {row row' : List Item} (step : Joins row row') (parted : Parted row) :
    Parted row' := by
  obtain ⟨before, after, op, s, left, right⟩ := step
  simp only [Parted, List.isChain_append, List.isChain_cons] at parted ⊢
  obtain ⟨onLeft, ⟨-, -, next, onRight⟩, junction⟩ := parted
  refine ⟨onLeft, ⟨fun item isNext => (next item isNext).after, onRight⟩,
    fun last isLast first isFirst => ?_⟩
  have begins := junction last isLast (operand left) rfl
  cases isFirst
  cases last with
  | operator op s => trivial
  | operand e =>
    intro other
    rw [Expr.head_tokens_binary]
    exact begins other

/-- Somewhere in the row the operator has operands on both sides. -/
def Joinable (op : BinaryOp) (row : List Item) : Prop :=
  ∃ left s right, [operand left, operator op s, operand right] <:+: row

theorem Joinable.of_part {op : BinaryOp} {part row : List Item} (joinable : Joinable op part)
    (isPart : part <:+: row) : Joinable op row := by
  obtain ⟨left, s, right, inside⟩ := joinable
  exact ⟨left, s, right, inside.trans isPart⟩

theorem joinable_reverse {op : BinaryOp} {row : List Item} :
    Joinable op row.reverse ↔ Joinable op row := by
  constructor
  · rintro ⟨left, s, right, inside⟩
    exact ⟨right, s, left, List.reverse_infix.mp (by simpa using inside)⟩
  · rintro ⟨left, s, right, inside⟩
    exact ⟨right, s, left, by simpa using List.reverse_infix.mpr inside⟩

theorem joinable_cons {op : BinaryOp} {item : Item} {row : List Item} :
    Joinable op (item :: row) ↔
      (∃ left s right rest, item = operand left ∧ row = operator op s :: operand right :: rest) ∨
        Joinable op row := by
  constructor
  · rintro ⟨left, s, right, inside⟩
    rcases List.infix_cons_iff.mp inside with first | later
    · obtain ⟨rest, split⟩ := first
      cases split
      exact .inl ⟨left, s, right, rest, rfl, rfl⟩
    · exact .inr ⟨left, s, right, later⟩
  · rintro (⟨left, s, right, rest, rfl, rfl⟩ | later)
    · exact ⟨left, s, right, [], rest, rfl⟩
    · exact later.of_part (List.suffix_cons item row).isInfix

/-- A step does not bring an operator between two operands. -/
theorem Joins.joinable {row row' : List Item} (step : Joins row row') {op : BinaryOp}
    (joinable : Joinable op row') : Joinable op row := by
  obtain ⟨before, after, other, s, left, right⟩ := step
  induction before with
  | nil =>
    rcases joinable_cons.mp joinable with ⟨_, s', next, rest, -, rfl⟩ | later
    · exact ⟨right, s', next, [operand left, operator other s], rest, rfl⟩
    · exact later.of_part (List.suffix_append [operand left, operator other s, operand right]
        after).isInfix
  | cons item before ih =>
    refine joinable_cons.mpr ?_
    rcases joinable_cons.mp joinable with ⟨first, s', next, rest, isOperand, split⟩ | later
    · left
      match before with
      | [] => cases split
      | [_] =>
        cases split
        exact ⟨first, s', left, _, isOperand, rfl⟩
      | _ :: _ :: before =>
        cases split
        exact ⟨first, s', next, _, isOperand, rfl⟩
    · exact .inr (ih later)

/-- In a row that a tier is joined in, given with the last item first, no operator of the tier is
left between two operands. -/
theorem not_joinable_join {tier : List BinaryOp} {row : List Item} {item : Item} {op : BinaryOp}
    (member : op ∈ tier) (settled : ¬Joinable op row) : ¬Joinable op (join tier row item) := by
  have beside (apart : ∀ right other s left rest, item = operand right →
      row = operator other s :: operand left :: rest → other ∉ tier) :
      ¬Joinable op (item :: row) := by
    intro joinable
    rcases joinable_cons.mp joinable with ⟨right, s, left, rest, isOperand, split⟩ | later
    · exact apart right op s left rest isOperand split member
    · exact settled later
  unfold join
  split
  next right other s left rest =>
    split
    next =>
      intro joinable
      rcases joinable_cons.mp joinable with ⟨_, s', next, rest, -, rfl⟩ | later
      · exact settled ⟨left, s', next, [operator other s], rest, rfl⟩
      · exact settled (later.of_part (List.suffix_append [operator other s, operand left]
          rest).isInfix)
    next outside =>
      refine beside fun right' other' s' left' rest' _ split => ?_
      cases split
      exact outside
  next apart =>
    refine beside fun right other s left rest isOperand split => ?_
    exact absurd split (apart right other s left rest isOperand)

theorem not_joinable_reduceTier {tier : List BinaryOp} (row : List Item) {op : BinaryOp}
    (member : op ∈ tier) : ¬Joinable op (reduceTier row tier) := by
  have settled (begun : List Item) (start : ¬Joinable op begun) :
      ¬Joinable op (row.foldl (join tier) begun) := by
    induction row generalizing begun with
    | nil => exact start
    | cons item row ih => exact ih _ (not_joinable_join member start)
  rw [reduceTier, joinable_reverse]
  refine settled [] ?_
  rintro ⟨left, s, right, inside⟩
  cases List.infix_nil.mp inside

/-- No operator of the tiers is left between two operands. -/
theorem not_joinable_of_tiers {tiers : List (List BinaryOp)} {op : BinaryOp} (row : List Item)
    (ranked : ∃ tier ∈ tiers, op ∈ tier) : ¬Joinable op (tiers.foldl reduceTier row) := by
  induction tiers generalizing row with
  | nil => simp at ranked
  | cons tier tiers ih =>
    obtain ⟨own, listed, member⟩ := ranked
    rcases List.mem_cons.mp listed with rfl | later
    · exact steps_keep (fun _ _ step settled => settled ∘ step.joinable)
        (reduceTiers_steps tiers _) (not_joinable_reduceTier row member)
    · exact ih _ ⟨own, later, member⟩

theorem not_joinable_reduce (op : BinaryOp) (row : List Item) : ¬Joinable op (reduce row) :=
  not_joinable_of_tiers _ (by cases op <;> decide)

/-- Two operands side by side are parted by a gap between the last token of the first and the first
token of the second. -/
theorem gap_of_operands {e e' : Expr} {before after : List (Located Token)}
    (stands : e.StandsOn before) (stands' : e'.StandsOn after) (ordered : Ordered (before ++ after))
    (parted : MayFollow (operand e) (operand e')) :
    GrammarError.missingOperator.StandsAt (before ++ after) (e.span.gap e'.span) := by
  have parts := List.pairwise_append.mp ordered
  have hull := Expr.StandsOn.hull e before stands parts.1
  have hull' := Expr.StandsOn.hull e' after stands' parts.2.1
  have apart := hull.stop_le_start hull' ordered
  obtain ⟨-, t, last, stops⟩ := hull
  obtain ⟨⟨u, first, starts⟩, -⟩ := hull'
  obtain ⟨earlier, rfl⟩ := List.getLast?_eq_some_iff.mp last
  obtain ⟨later, rfl⟩ := List.head?_eq_some_iff.mp first
  have ends : t.val.EndsOperand := by
    obtain ⟨value, isLast, ends⟩ := e.last_tokens
    rw [← Expr.StandsOn.values e _ stands] at isLast
    simp only [List.map_append, List.map_cons, List.map_nil, List.getLast?_concat,
      Option.mem_def, Option.some.injEq] at isLast
    rwa [isLast]
  have begins : u.val.BeginsOperand := by
    obtain ⟨value, isFirst, begins⟩ := e'.head_tokens
    have noOperator : ∀ op, value ≠ .binary op := by
      rintro op rfl
      exact parted op isFirst
    rw [← Expr.StandsOn.values e' _ stands'] at isFirst
    simp only [List.map_cons, List.head?_cons, Option.mem_def, Option.some.injEq] at isFirst
    rw [isFirst]
    exact begins.resolve_right fun ⟨op, same⟩ => noOperator op same
  have wide := e.span.start_le_stop
  have wide' := e'.span.start_le_stop
  refine ⟨t, u, ⟨earlier, later, by simp⟩, ends, begins, ?_, ?_⟩
  · simp only [Span.gap, Span.upTo]
    omega
  · simp only [Span.gap, Span.upTo, Span.stop] at *
    omega

/-- What is reported of a row that is no expression stands at the tokens that are to blame. -/
theorem standsAt_of_toExpr? {row : List Item} {tokens : List (Located Token)}
    {e : Located GrammarError} (stands : RowStandsOn row tokens) (ordered : Ordered tokens)
    (parted : Parted row) (failed : toExpr? row = .error e) : e.val.StandsAt tokens e.span := by
  have stands := reduce_keeps (P := (RowStandsOn · tokens)) (fun _ _ step => step.rowStandsOn)
    (fun _ _ step => step.rowStandsOn) stands
  have parted := reduce_keeps (P := Parted) (fun _ _ step => step.parted)
    (fun _ _ step => step.parted) parted
  have settled (op : BinaryOp) := not_joinable_reduce op row
  unfold toExpr? at failed
  generalize reduce row = reduced at *
  unfold single? at failed
  split at failed
  next => cases failed
  next op s later =>
    cases failed
    obtain ⟨_, rest, rfl, rfl, -⟩ := stands
    exact List.mem_cons_self
  next => cases failed
  next e e' later =>
    cases failed
    obtain ⟨before, _, rfl, onFirst, after, rest, rfl, onSecond, -⟩ := stands
    have follows : MayFollow (operand e) (operand e') := (List.isChain_cons_cons.mp parted).1
    have isPart : before ++ after <:+: before ++ (after ++ rest) :=
      ⟨[], rest, by simp⟩
    exact (gap_of_operands onFirst onSecond (ordered.of_part isPart) follows).of_part isPart
  next left op s right later =>
    exact absurd ⟨left, s, right, [], later, rfl⟩ (settled op)
  next e op s later _ =>
    cases failed
    obtain ⟨before, _, rfl, -, _, rest, rfl, rfl, -⟩ := stands
    exact List.mem_append_right before List.mem_cons_self

/-- The expression of a row stands on its tokens. -/
theorem standsOn_of_toExpr? {row : List Item} {tokens : List (Located Token)} {e : Expr}
    (stands : RowStandsOn row tokens) (denotes : toExpr? row = .ok (some e)) :
    e.StandsOn tokens := by
  have reduced := reduce_keeps (P := (RowStandsOn · tokens)) (fun _ _ step => step.rowStandsOn)
    (fun _ _ step => step.rowStandsOn) stands
  rw [single?_eq_some denotes] at reduced
  obtain ⟨before, _, rfl, stands, rfl⟩ := reduced
  rwa [List.append_nil]

/-- Only a row without tokens has no expression and no defect. -/
theorem tokens_eq_nil_of_toExpr? {row : List Item} {tokens : List (Located Token)}
    (stands : RowStandsOn row tokens) (absent : toExpr? row = .ok none) : tokens = [] := by
  have reduced := reduce_keeps (P := (RowStandsOn · tokens)) (fun _ _ step => step.rowStandsOn)
    (fun _ _ step => step.rowStandsOn) stands
  rwa [single?_eq_none absent] at reduced

end Item
end ExactCalc
