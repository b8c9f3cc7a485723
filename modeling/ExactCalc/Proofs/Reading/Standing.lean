import ExactCalc.Proofs.Reading.Defects
import ExactCalc.Proofs.Result

/-!
# Reading keeps places

The reader between two tokens stands on the tokens that it has read: the row of each level, what
awaits an operand and each open parenthesis have the places of their tokens. Each token that is
read is added at the end, so that the expression at the end stands on all of them. A token that
cannot be read, and an end that comes too early, are reported where they are to blame.
-/
namespace ExactCalc.Statement

open Located

/-- The token of what awaits an operand, in its place. -/
def Awaiting.located : Awaiting → Located Token
  | unary op s => ⟨op.token, s⟩
  | func f s => ⟨.func f, s⟩

/-- A level stands on the tokens of its items and then of what awaits an operand. A minus sign only
awaits one after something else that does. -/
structure Level.StandsOn (level : Level) (tokens : List (Located Token)) : Prop where
  items : ∃ before, tokens = before ++ level.awaiting.reverse.map Awaiting.located ∧
    Item.RowStandsOn level.items.reverse before
  parted : Item.Parted level.items.reverse
  begins : ∀ a ∈ level.awaiting.getLast?, ∀ op, a.located.val ≠ .binary op

/-- Arguments that each have a comma after them. -/
def EachWithComma : List Expr → List (Located Token) → Prop
  | [], tokens => tokens = []
  | e :: rest, tokens =>
    ∃ before s after, tokens = before ++ ⟨.comma, s⟩ :: after ∧
      e.StandsOn before ∧ EachWithComma rest after

def Opening.StandsOn : Opening → List (Located Token) → Prop
  | group openSpan, tokens => tokens = [⟨.openParen, openSpan⟩]
  | call f nameSpan openSpan operands comma, tokens =>
    ∃ arguments, tokens = ⟨.func f, nameSpan⟩ :: ⟨.openParen, openSpan⟩ :: arguments ∧
      EachWithComma operands.reverse arguments ∧
      arguments.getLast? = comma.map fun s => ⟨.comma, s⟩

/-- No function awaits the operand, so that a parenthesis is not that of its arguments. -/
def Level.AdmitsGroup (level : Level) : Prop := ∀ f s rest, level.awaiting ≠ .func f s :: rest

/-- The open parentheses, the innermost first, with the levels that they stand in. -/
def OuterStandsOn : List (Opening × Level) → List (Located Token) → Prop
  | [], tokens => tokens = []
  | (opening, level) :: outer, tokens =>
    ∃ before middle after, tokens = before ++ (middle ++ after) ∧ OuterStandsOn outer before ∧
      level.StandsOn middle ∧ opening.StandsOn after ∧
      ∀ openSpan, opening = .group openSpan → level.AdmitsGroup

def Reader.StandsOn (r : Reader) (tokens : List (Located Token)) : Prop :=
  ∃ before after, tokens = before ++ after ∧ OuterStandsOn r.outer before ∧ r.level.StandsOn after

theorem Level.standsOn_empty : Level.StandsOn {} [] :=
  ⟨⟨[], rfl, rfl⟩, .nil, by simp⟩

theorem Reader.standsOn_start : Reader.StandsOn {} [] := ⟨[], [], rfl, rfl, Level.standsOn_empty⟩

theorem Awaiting.located_ne_openParen (a : Awaiting) : a.located.val ≠ .openParen := by
  match a with
  | unary .negate _ => nofun
  | unary (.word _) _ => nofun
  | func _ _ => nofun

theorem Awaiting.standsOn_complete (a : Awaiting) {operand : Expr} {tokens : List (Located Token)}
    (stands : operand.StandsOn tokens)
    (bare : ∀ f s, a = .func f s → tokens.head?.map (·.val) ≠ some .openParen) :
    (a.complete operand).StandsOn (a.located :: tokens) := by
  cases a with
  | unary op s => exact ⟨tokens, rfl, stands⟩
  | func f s => exact ⟨tokens, rfl, stands, bare f s rfl⟩

/-- What awaits an operand stands before it, the innermost nearest to it. -/
theorem standsOn_completed (awaiting : List Awaiting) {operand : Expr}
    {tokens : List (Located Token)} (stands : operand.StandsOn tokens)
    (bare : ∀ f s rest, awaiting = .func f s :: rest →
      tokens.head?.map (·.val) ≠ some .openParen) :
    (awaiting.foldl Awaiting.complete operand).StandsOn
      (awaiting.reverse.map Awaiting.located ++ tokens) := by
  induction awaiting generalizing operand tokens with
  | nil => exact stands
  | cons a rest ih =>
    have completed := a.standsOn_complete stands fun f s isFunc => bare f s rest (by rw [isFunc])
    have later := ih completed fun _ _ _ _ => by simpa using a.located_ne_openParen
    simpa using later

/-- An operand that begins with no operator is added to a level at the end of its tokens. -/
theorem Level.StandsOn.supply {level : Level} {before after : List (Located Token)} {operand : Expr}
    (stands : level.StandsOn before) (operandStands : operand.StandsOn after)
    (primary : ∀ op, after.head?.map (·.val) ≠ some (.binary op))
    (bare : ∀ f s rest, level.awaiting = .func f s :: rest →
      after.head?.map (·.val) ≠ some .openParen) :
    (level.supply operand).StandsOn (before ++ after) := by
  obtain ⟨⟨first, rfl, onItems⟩, parted, begins⟩ := stands
  have completed := standsOn_completed level.awaiting operandStands bare
  have values := Expr.StandsOn.values _ _ completed
  refine ⟨⟨_, (List.append_nil _).symm, ?_⟩, ?_, by simp [Level.supply]⟩
  · simp only [Level.supply, List.reverse_cons, List.append_assoc]
    exact Item.rowStandsOn_append.mpr ⟨first, _, rfl, onItems, _, [], (List.append_nil _).symm,
      completed, rfl⟩
  · simp only [Level.supply, List.reverse_cons, Item.Parted]
    refine List.isChain_append.mpr ⟨parted, List.isChain_singleton _, ?_⟩
    rintro last isLast _ ⟨⟩
    cases last with
    | operator op s => trivial
    | operand e =>
      -- The outermost of what awaits the operand comes first, or else the operand itself.
      intro op
      rw [← values]
      cases outermost : level.awaiting.getLast? with
      | none =>
        have none : level.awaiting = [] := List.getLast?_eq_none_iff.mp outermost
        simpa [none] using primary op
      | some a =>
        obtain ⟨inner, split⟩ := List.getLast?_eq_some_iff.mp outermost
        simpa [split] using begins a outermost op

theorem Reader.StandsOn.supply {r : Reader} {tokens after : List (Located Token)} {operand : Expr}
    (stands : r.StandsOn tokens) (operandStands : operand.StandsOn after)
    (primary : ∀ op, after.head?.map (·.val) ≠ some (.binary op))
    (bare : after.head?.map (·.val) ≠ some .openParen) :
    (r.supply operand).StandsOn (tokens ++ after) := by
  obtain ⟨before, middle, rfl, outer, level⟩ := stands
  exact ⟨before, middle ++ after, List.append_assoc _ _ _, outer,
    level.supply operandStands primary fun _ _ _ _ => bare⟩

theorem Reader.StandsOn.await {r : Reader} {tokens : List (Located Token)} {a : Awaiting}
    (stands : r.StandsOn tokens)
    (begins : r.level.awaiting = [] → ∀ op, a.located.val ≠ .binary op) :
    (r.await a).StandsOn (tokens ++ [a.located]) := by
  obtain ⟨before, _, rfl, outer, ⟨items, rfl, onItems⟩, parted, outermost⟩ := stands
  refine ⟨before, _, List.append_assoc _ _ _, outer, ⟨items, by simp [Reader.await], onItems⟩,
    parted, ?_⟩
  intro b isLast
  cases waiting : r.level.awaiting with
  | nil =>
    simp only [Reader.await, waiting, List.getLast?_singleton, Option.mem_def,
      Option.some.injEq] at isLast
    exact isLast ▸ begins waiting
  | cons c rest =>
    simp only [Reader.await, waiting, List.getLast?_cons_cons] at isLast
    exact outermost b (by rwa [waiting])

theorem Level.StandsOn.of_finish {level : Level} {tokens : List (Located Token)} {e : Option Expr}
    (stands : level.StandsOn tokens) (finished : level.finish = .ok e) :
    (∀ root ∈ e, root.StandsOn tokens) ∧ (e = none → tokens = []) := by
  obtain ⟨⟨before, rfl, onItems⟩, -, -⟩ := stands
  unfold finish at finished
  split at finished
  next => cases finished
  next done =>
    rw [done, List.reverse_nil, List.map_nil, List.append_nil]
    cases e with
    | none => exact ⟨by simp, fun _ => Item.tokens_eq_nil_of_toExpr? onItems finished⟩
    | some e =>
      refine ⟨?_, by simp⟩
      rintro root ⟨⟩
      exact Item.standsOn_of_toExpr? onItems finished

theorem Level.StandsOn.standsAt {level : Level} {tokens : List (Located Token)}
    {e : Located GrammarError} (stands : level.StandsOn tokens) (ordered : Ordered tokens)
    (failed : level.finish = .error e) : e.val.StandsAt tokens e.span := by
  obtain ⟨⟨before, rfl, onItems⟩, parted, -⟩ := stands
  unfold finish at failed
  split at failed
  next a rest waiting =>
    cases failed
    have member : a.located ∈ before ++ level.awaiting.reverse.map Awaiting.located := by
      simp [waiting]
    cases a with
    | unary op s => exact member
    | func f s => exact member
  next done =>
    rw [done, List.reverse_nil, List.map_nil, List.append_nil] at ordered ⊢
    exact Item.standsAt_of_toExpr? onItems ordered parted failed

/-- The level that ends is an expression or empty. It is not empty after a comma. -/
theorem Reader.StandsOn.of_finishLevel {r : Reader} {tokens : List (Located Token)}
    {e : Option Expr} (stands : r.StandsOn tokens) (finished : r.finishLevel = .ok e) :
    ∃ before after, tokens = before ++ after ∧ OuterStandsOn r.outer before ∧
      (∀ root ∈ e, root.StandsOn after) ∧ (e = none → after = []) ∧
      ∀ f nameSpan openSpan operands comma level outer,
        r.outer = (.call f nameSpan openSpan operands (some comma), level) :: outer → e ≠ none := by
  obtain ⟨before, after, rfl, outer, level⟩ := stands
  obtain ⟨found, ended, rest⟩ := bind_eq_ok_iff.mp finished
  obtain ⟨onAfter, absent⟩ := level.of_finish ended
  refine ⟨before, after, rfl, outer, ?_⟩
  split at rest
  next => cases rest
  next allowed =>
    cases rest
    refine ⟨onAfter, absent, ?_⟩
    rintro f nameSpan openSpan operands comma level outer inside rfl
    exact allowed f nameSpan openSpan operands comma level outer rfl inside

theorem Reader.StandsOn.finishLevel_standsAt {r : Reader} {tokens : List (Located Token)}
    {e : Located GrammarError} (stands : r.StandsOn tokens) (ordered : Ordered tokens)
    (failed : r.finishLevel = .error e) : e.val.StandsAt tokens e.span := by
  obtain ⟨before, after, rfl, outer, level⟩ := stands
  have isPart : after <:+: before ++ after := (List.suffix_append before after).isInfix
  rcases bind_eq_error_iff.mp failed with early | ⟨found, -, late⟩
  · exact (level.standsAt (ordered.of_part isPart) early).of_part isPart
  · split at late
    next f nameSpan openSpan operands comma inner rest around =>
      cases late
      rw [around] at outer
      obtain ⟨_, _, _, rfl, -, -, ⟨arguments, rfl, -, isLast⟩, -⟩ := outer
      have member : ⟨.comma, comma⟩ ∈ arguments := List.mem_of_getLast? isLast
      exact List.mem_append_left _ (List.mem_append_right _ (List.mem_append_right _
        (List.mem_cons_of_mem _ (List.mem_cons_of_mem _ member))))
    next => cases late

/-- One more argument and a comma after it. -/
theorem EachWithComma.concat {es : List Expr} {e : Expr} {tokens after : List (Located Token)}
    (each : EachWithComma es tokens) (stands : e.StandsOn after) (s : Span) :
    EachWithComma (es ++ [e]) (tokens ++ (after ++ [⟨.comma, s⟩])) := by
  induction es generalizing tokens with
  | nil =>
    obtain rfl := each
    exact ⟨after, s, [], rfl, stands, rfl⟩
  | cons first rest ih =>
    obtain ⟨before, between, middle, rfl, onFirst, later⟩ := each
    exact ⟨before, between, _, by simp, onFirst, ih later⟩

/-- The last argument has no comma after it. -/
theorem EachWithComma.last {es : List Expr} {e : Expr} {tokens after : List (Located Token)}
    (each : EachWithComma es tokens) (stands : e.StandsOn after) :
    Expr.ArgumentsStandOn (es ++ [e]) (tokens ++ after) := by
  induction es generalizing tokens with
  | nil =>
    obtain rfl := each
    exact stands
  | cons first rest ih =>
    obtain ⟨before, between, middle, rfl, onFirst, later⟩ := each
    have joined := ih later
    rw [List.append_assoc, List.cons_append]
    cases rest with
    | nil => exact ⟨before, between, middle ++ after, rfl, onFirst, joined⟩
    | cons second rest => exact ⟨before, between, middle ++ after, rfl, onFirst, joined⟩

/-- A call that is closed stands on its name, its arguments and its parentheses. Without a last
argument there is none, as no comma may stand before the parenthesis. -/
theorem Opening.StandsOn.closed {f : Func} {nameSpan openSpan : Span} {operands : List Expr}
    {comma : Option Span} {last : Option Expr} {tokens after : List (Located Token)}
    (stands : (call f nameSpan openSpan operands comma).StandsOn tokens)
    (onLast : ∀ e ∈ last, e.StandsOn after) (absent : last = none → after = [] ∧ comma = none)
    (closeSpan : Span) :
    (Expr.call f nameSpan openSpan closeSpan (last.toList ++ operands).reverse).StandsOn
      (tokens ++ (after ++ [⟨.closeParen, closeSpan⟩])) := by
  obtain ⟨arguments, rfl, each, isLast⟩ := stands
  refine ⟨arguments ++ after, by simp, ?_⟩
  cases last with
  | some e => simpa using each.last (onLast e rfl)
  | none =>
    obtain ⟨rfl, rfl⟩ := absent rfl
    obtain rfl : arguments = [] := List.getLast?_eq_none_iff.mp isLast
    cases reversed : operands.reverse with
    | nil => simp [reversed, Expr.ArgumentsStandOn]
    | cons first rest =>
      obtain ⟨before, _, _, split, -⟩ := reversed ▸ each
      cases before <;> cases split

theorem Reader.StandsOn.operator {r after : Reader} {tokens : List (Located Token)} {op : BinaryOp}
    {span : Span} (stands : r.StandsOn tokens) (read : r.operator op span = .ok after) :
    after.StandsOn (tokens ++ [⟨.binary op, span⟩]) := by
  cases waiting : r.level.awaiting with
  | nil =>
    simp only [Reader.operator, waiting] at read
    cases read
    obtain ⟨before, _, rfl, outer, ⟨items, rfl, onItems⟩, parted, -⟩ := stands
    refine ⟨before, items ++ [⟨.binary op, span⟩], by simp [waiting], outer, ?_⟩
    refine ⟨⟨_, (List.append_nil _).symm, ?_⟩, ?_, by simp⟩
    · rw [List.reverse_cons]
      exact Item.rowStandsOn_append.mpr ⟨items, _, rfl, onItems, _, [], rfl, rfl, rfl⟩
    · rw [List.reverse_cons]
      refine List.isChain_append.mpr ⟨parted, List.isChain_singleton _, ?_⟩
      rintro last - _ ⟨⟩
      cases last <;> trivial
  | cons a rest =>
    cases op <;> simp only [Reader.operator, waiting] at read <;> cases read
    exact stands.await (a := .unary .negate span) (by simp [waiting])

theorem Reader.StandsOn.openParen {r : Reader} {tokens : List (Located Token)}
    (stands : r.StandsOn tokens) (span : Span) :
    (r.openParen span).StandsOn (tokens ++ [⟨.openParen, span⟩]) := by
  obtain ⟨before, _, rfl, outer, ⟨items, rfl, onItems⟩, parted, outermost⟩ := stands
  unfold Reader.openParen
  split
  next f nameSpan awaiting waiting =>
    refine ⟨_, [], (List.append_nil _).symm, ?_, Level.standsOn_empty⟩
    refine ⟨before, _, _, ?_, outer, ⟨⟨items, rfl, onItems⟩, parted, ?_⟩,
      ⟨[], rfl, rfl, rfl⟩, nofun⟩
    · simp [waiting, Awaiting.located]
    · intro a isLast
      refine outermost a ?_
      rw [waiting, List.getLast?_cons, Option.mem_def.mp isLast]
      rfl
  next group =>
    refine ⟨_, [], (List.append_nil _).symm, ?_, Level.standsOn_empty⟩
    exact ⟨before, _, _, List.append_assoc _ _ _, outer, ⟨⟨items, rfl, onItems⟩, parted, outermost⟩,
      rfl, fun _ _ => group⟩

theorem Reader.StandsOn.comma {r after : Reader} {tokens : List (Located Token)} {span : Span}
    (stands : r.StandsOn tokens) (read : r.comma span = .ok after) :
    after.StandsOn (tokens ++ [⟨.comma, span⟩]) := by
  obtain ⟨e, ended, rest⟩ := bind_eq_ok_iff.mp read
  obtain ⟨_, inner, rfl, outer, onInner, -⟩ := stands.of_finishLevel ended
  split at rest
  next e f nameSpan openSpan operands previous level others around =>
    cases rest
    rw [around] at outer
    obtain ⟨before, middle, _, rfl, further, onLevel, ⟨arguments, rfl, each, -⟩, -⟩ := outer
    refine ⟨_, [], (List.append_nil _).symm, ?_, Level.standsOn_empty⟩
    refine ⟨before, middle, _, ?_, further, onLevel, ⟨arguments ++ (inner ++ [⟨.comma, span⟩]), rfl,
      ?_, by simp⟩, nofun⟩
    · simp
    · rw [List.reverse_cons]
      exact each.concat (onInner e rfl) span
  next => cases rest
  next => cases rest

/-- What an open parenthesis begins with, which is the name of the function whose arguments it
opens. -/
def Opening.first : Opening → Token
  | group _ => .openParen
  | call f _ _ _ _ => .func f

theorem Opening.StandsOn.head?_eq {opening : Opening} {tokens : List (Located Token)}
    (stands : opening.StandsOn tokens) : tokens.head?.map (·.val) = some opening.first := by
  cases opening with
  | group openSpan =>
    obtain rfl := stands
    rfl
  | call f nameSpan openSpan operands comma =>
    obtain ⟨_, rfl, -⟩ := stands
    rfl

/-- The operand that a closed parenthesis makes, in the level that the parenthesis stands in. -/
theorem OuterStandsOn.closed {opening : Opening} {level : Level} {others : List (Opening × Level)}
    {tokens after : List (Located Token)} {operand : Expr}
    (stands : OuterStandsOn ((opening, level) :: others) tokens)
    (closes : ∀ part, opening.StandsOn part → operand.StandsOn (part ++ after)) :
    (Reader.mk (level.supply operand) others).StandsOn (tokens ++ after) := by
  obtain ⟨before, middle, part, rfl, further, onLevel, onOpening, admits⟩ := stands
  have first : (part ++ after).head?.map (·.val) = some opening.first := by
    rw [List.head?_append, Option.map_or, onOpening.head?_eq, Option.some_or]
  refine ⟨before, middle ++ (part ++ after), by simp, further,
    onLevel.supply (closes part onOpening) ?_ ?_⟩
  · intro op
    rw [first]
    cases opening <;> nofun
  · intro f s rest waiting
    rw [first]
    cases opening with
    | group openSpan => exact absurd waiting (admits openSpan rfl f s rest)
    | call => nofun

theorem Reader.StandsOn.closeParen {r after : Reader} {tokens : List (Located Token)} {span : Span}
    (stands : r.StandsOn tokens) (read : r.closeParen span = .ok after) :
    after.StandsOn (tokens ++ [⟨.closeParen, span⟩]) := by
  obtain ⟨e, ended, rest⟩ := bind_eq_ok_iff.mp read
  obtain ⟨_, inner, rfl, outer, onInner, absent, argument⟩ := stands.of_finishLevel ended
  rw [List.append_assoc]
  split at rest
  next e openSpan level others around =>
    cases rest
    rw [around] at outer
    refine outer.closed ?_
    rintro _ rfl
    exact ⟨inner, rfl, onInner e rfl⟩
  next => cases rest
  next last _ _ f nameSpan openSpan operands comma level others around =>
    cases rest
    rw [around] at outer
    refine outer.closed fun part onOpening => onOpening.closed onInner ?_ span
    rintro noLast
    refine ⟨absent noLast, Option.eq_none_iff_forall_ne_some.mpr ?_⟩
    rintro s rfl
    exact argument f nameSpan openSpan operands s level others around noLast
  next => cases rest

/-- A token that is read is added at the end. -/
theorem Reader.StandsOn.step {r after : Reader} {tokens : List (Located Token)}
    {token : Located Token} (stands : r.StandsOn tokens) (read : r.step token = .ok after) :
    after.StandsOn (tokens ++ [token]) := by
  obtain ⟨token, span⟩ := token
  cases token with
  | number value =>
    cases read
    exact stands.supply rfl nofun nofun
  | var name =>
    cases read
    exact stands.supply rfl nofun nofun
  | unary w =>
    cases read
    exact stands.await (a := .unary (.word w) span) nofun
  | func f =>
    cases read
    exact stands.await (a := .func f span) nofun
  | binary op => exact stands.operator read
  | openParen =>
    cases read
    exact stands.openParen span
  | closeParen => exact stands.closeParen read
  | comma => exact stands.comma read
  | assign => cases read

theorem Reader.StandsOn.comma_standsAt {r : Reader} {tokens : List (Located Token)} {span : Span}
    {e : Located GrammarError} (stands : r.StandsOn tokens) (ordered : Ordered tokens)
    (failed : r.comma span = .error e) : e.val.StandsAt (tokens ++ [⟨.comma, span⟩]) e.span := by
  have isPart : tokens <:+: tokens ++ [⟨.comma, span⟩] := (List.prefix_append tokens _).isInfix
  have last : ⟨.comma, span⟩ ∈ tokens ++ [⟨Token.comma, span⟩] := by simp
  rcases bind_eq_error_iff.mp failed with early | ⟨found, ended, late⟩
  · exact (stands.finishLevel_standsAt ordered early).of_part isPart
  · split at late
    next => cases late
    next =>
      cases late
      exact last
    next =>
      cases late
      exact ⟨last, .inr (.inl rfl)⟩

/-- Parentheses with nothing between them are blamed together, so that they are side by side. -/
theorem Reader.StandsOn.closeParen_standsAt {r : Reader} {tokens : List (Located Token)}
    {span : Span} {e : Located GrammarError} (stands : r.StandsOn tokens) (ordered : Ordered tokens)
    (failed : r.closeParen span = .error e) :
    e.val.StandsAt (tokens ++ [⟨.closeParen, span⟩]) e.span := by
  have isPart : tokens <:+: tokens ++ [⟨.closeParen, span⟩] := (List.prefix_append tokens _).isInfix
  rcases bind_eq_error_iff.mp failed with early | ⟨found, ended, late⟩
  · exact (stands.finishLevel_standsAt ordered early).of_part isPart
  · obtain ⟨_, inner, rfl, outer, -, absent, -⟩ := stands.of_finishLevel ended
    split at late
    next => cases late
    next openSpan level others around =>
      cases late
      obtain rfl := absent rfl
      rw [around] at outer
      obtain ⟨before, middle, _, rfl, -, -, rfl, -⟩ := outer
      exact ⟨openSpan, span, ⟨before ++ middle, [], by simp⟩, rfl⟩
    next => cases late
    next =>
      cases late
      exact List.mem_append_right _ List.mem_cons_self

/-- A token that cannot be read is to blame itself, or a token before it is. -/
theorem Reader.StandsOn.step_standsAt {r : Reader} {tokens : List (Located Token)}
    {token : Located Token} {e : Located GrammarError} (stands : r.StandsOn tokens)
    (ordered : Ordered tokens) (failed : r.step token = .error e) :
    e.val.StandsAt (tokens ++ [token]) e.span := by
  have last : token ∈ tokens ++ [token] := by simp
  obtain ⟨token, span⟩ := token
  cases token with
  | number value => cases failed
  | var name => cases failed
  | unary w => cases failed
  | func f => cases failed
  | openParen => cases failed
  | assign =>
    cases failed
    exact ⟨last, .inl rfl⟩
  | binary op =>
    obtain rfl : e = ⟨.unexpectedToken (.binary op), span⟩ := by
      simp only [Reader.step, Reader.operator] at failed
      split at failed <;> cases failed
      rfl
    exact ⟨last, .inr (.inr ⟨op, rfl⟩)⟩
  | comma => exact stands.comma_standsAt ordered failed
  | closeParen => exact stands.closeParen_standsAt ordered failed

/-- Tokens read one after the other are stood on, and the first that cannot be read has all before
it stood on. -/
theorem Reader.StandsOn.run {r after : Reader} {before : List (Located Token)}
    (tokens : List (Located Token)) (stands : r.StandsOn before)
    (read : tokens.foldlM Reader.step r = .ok after) : after.StandsOn (before ++ tokens) := by
  induction tokens generalizing r before with
  | nil =>
    cases read
    rwa [List.append_nil]
  | cons token rest ih =>
    rw [List.foldlM_cons] at read
    obtain ⟨between, first, later⟩ := bind_eq_ok_iff.mp read
    simpa using ih (stands.step first) later

theorem Reader.StandsOn.run_standsAt {r : Reader} {before : List (Located Token)}
    {e : Located GrammarError} (tokens : List (Located Token)) (stands : r.StandsOn before)
    (ordered : Ordered (before ++ tokens)) (failed : tokens.foldlM Reader.step r = .error e) :
    e.val.StandsAt (before ++ tokens) e.span := by
  obtain ⟨earlier, token, later, between, rfl, run, fails⟩ := exists_of_foldlM_eq_error failed
  rw [List.append_cons earlier, ← List.append_assoc, ← List.append_assoc] at ordered ⊢
  have isPart : before ++ earlier ++ [token] <:+: before ++ earlier ++ [token] ++ later :=
    (List.prefix_append _ later).isInfix
  have begun : Ordered (before ++ earlier) := (List.pairwise_append.mp (ordered.of_part isPart)).1
  exact ((stands.run earlier run).step_standsAt begun fails).of_part isPart

theorem Reader.StandsOn.finish {r : Reader} {tokens : List (Located Token)} {e : Expr}
    (stands : r.StandsOn tokens) (finished : r.finish = .ok e) : e.StandsOn tokens := by
  obtain ⟨found, ended, rest⟩ := bind_eq_ok_iff.mp finished
  obtain ⟨_, inner, rfl, outer, onInner, -⟩ := stands.of_finishLevel ended
  split at rest
  next root outermost =>
    cases rest
    rw [outermost] at outer
    obtain rfl := outer
    exact onInner e rfl
  all_goals cases rest

theorem Reader.StandsOn.finish_standsAt {r : Reader} {tokens : List (Located Token)}
    {e : Located GrammarError} (stands : r.StandsOn tokens) (ordered : Ordered tokens)
    (failed : r.finish = .error e) : e.val.StandsAt tokens e.span := by
  rcases bind_eq_error_iff.mp failed with early | ⟨found, ended, late⟩
  · exact stands.finishLevel_standsAt ordered early
  obtain ⟨before, after, rfl, outer, -⟩ := stands
  split at late
  next => cases late
  next =>
    cases late
    rfl
  next openSpan level others around =>
    cases late
    rw [around] at outer
    obtain ⟨_, _, _, rfl, -, -, rfl, -⟩ := outer
    simp [GrammarError.StandsAt]
  next f nameSpan openSpan operands comma level others around =>
    cases late
    rw [around] at outer
    obtain ⟨_, _, _, rfl, -, -, ⟨arguments, rfl, -⟩, -⟩ := outer
    simp [GrammarError.StandsAt]

theorem splitTarget_suffix (tokens : List (Located Token)) : (splitTarget tokens).2 <:+ tokens := by
  unfold splitTarget
  split
  next name span assignSpan rest =>
    exact (List.suffix_cons _ rest).trans (List.suffix_cons _ _)
  next => exact List.suffix_refl tokens

/-- The expression of a statement stands on its tokens. -/
theorem standsOn_of_read {tokens : List (Located Token)} {s : Statement}
    (read : Statement.read tokens = .ok s) : s.root.StandsOn (splitTarget tokens).2 := by
  obtain ⟨root, found, rest⟩ := bind_eq_ok_iff.mp read
  cases rest
  obtain ⟨after, run, finished⟩ := bind_eq_ok_iff.mp found
  exact (Reader.standsOn_start.run _ run).finish finished

/-- What keeps tokens from being a statement stands at the tokens that are to blame. -/
theorem standsAt_of_read {tokens : List (Located Token)} {e : Located GrammarError}
    (failed : Statement.read tokens = .error e) (ordered : Ordered tokens) :
    e.val.StandsAt tokens e.span := by
  have isPart := (splitTarget_suffix tokens).isInfix
  have ordered := ordered.of_part isPart
  refine GrammarError.StandsAt.of_part ?_ isPart
  rcases bind_eq_error_iff.mp failed with failed | ⟨_, -, late⟩
  · rcases bind_eq_error_iff.mp failed with early | ⟨after, run, late⟩
    · exact Reader.standsOn_start.run_standsAt _ ordered early
    · exact (Reader.standsOn_start.run _ run).finish_standsAt ordered late
  · cases late

end ExactCalc.Statement
