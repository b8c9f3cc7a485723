import ExactCalc.Proofs.Reading.Layout
import ExactCalc.Proofs.Result

/-!
# Reading undoes writing

The tokens of an expression that respects the tiers are read as that expression, wherever they
stand. Where nothing awaits an operand they become the layout of the expression at the end of the
row, and the end of the level reduces the layout. Where something awaits an operand they become
that operand. What follows the expression does not matter, so that the statement can be used inside
of parentheses and arguments.
-/
namespace ExactCalc

namespace Expr

theorem tier?_erase (e : Expr) : e.erase.tier? = e.tier? := by
  cases e <;> rfl

mutual

/-- Whether an expression respects the tiers does not depend on places. -/
theorem isTiered_erase : (e : Expr) → (e.erase.IsTiered ↔ e.IsTiered)
  | number _ _ => Iff.rfl
  | var _ _ => Iff.rfl
  | unary _ _ operand => by simp [erase, IsTiered, tier?_erase, isTiered_erase operand]
  | binary _ _ left right => by
    simp [erase, IsTiered, tier?_erase, isTiered_erase left, isTiered_erase right]
  | apply _ _ operand => by simp [erase, IsTiered, tier?_erase, isTiered_erase operand]
  | call _ _ _ _ operands => by simp [erase, IsTiered, allTiered_eraseAll operands]
  | parens _ _ inner => by simp [erase, IsTiered, isTiered_erase inner]

theorem allTiered_eraseAll : (es : List Expr) → (AllTiered (eraseAll es) ↔ AllTiered es)
  | [] => Iff.rfl
  | e :: rest => by simp [eraseAll, AllTiered, isTiered_erase e, allTiered_eraseAll rest]

end

theorem IsTiered.of_erase {e read : Expr} (tiered : e.IsTiered) (same : read.erase = e.erase) :
    read.IsTiered := by
  rw [← isTiered_erase, same, isTiered_erase]
  exact tiered

end Expr

namespace Statement

open Item

/-- A level with one more expression, which stays flat unless something awaits it. -/
def Level.absorb (level : Level) (e : Expr) : Level :=
  match level.awaiting with
  | [] => ⟨(layout e).reverse ++ level.items, []⟩
  | _ :: _ => level.supply e

theorem Level.absorb_operand (level : Level) (e : Expr) (single : layout e = [operand e]) :
    level.absorb e = level.supply e := by
  unfold absorb
  split
  next done => simp [supply, single, done]
  next => rfl

/-- Nothing awaits an expression whose halves an operator joins, and no function awaits one that
begins with a parenthesis. -/
structure Level.Admits (level : Level) (e : Expr) : Prop where
  joined : level.awaiting ≠ [] → e.tier? = none
  argument : ∀ f s rest, level.awaiting = .func f s :: rest → e.tokens.head? ≠ some .openParen

theorem Level.admits_of_done {level : Level} (done : level.awaiting = []) (e : Expr) :
    level.Admits e :=
  ⟨fun awaits => absurd done awaits, fun f s rest func => by simp [done] at func⟩

theorem Level.admits_unary (items : List Item) (op : UnaryOp) (s : Span) (rest : List Awaiting)
    {e : Expr} (alone : e.tier? = none) : Level.Admits ⟨items, .unary op s :: rest⟩ e :=
  ⟨fun _ => alone, fun f s rest func => by simp at func⟩

theorem Reader.run_cons {r : Reader} {token : Located Token} (between : Reader)
    (first : r.step token = .ok between) (rest : List (Located Token)) :
    (token :: rest).foldlM Reader.step r = rest.foldlM Reader.step between := by
  rw [List.foldlM_cons, first]
  rfl

theorem Reader.run_append {r between : Reader} {tokens : List (Located Token)}
    (first : tokens.foldlM Reader.step r = .ok between) (rest : List (Located Token)) :
    (tokens ++ rest).foldlM Reader.step r = rest.foldlM Reader.step between := by
  rw [List.foldlM_append, first]
  rfl

/-- A level that is the layout of an expression ends as that expression. -/
theorem Reader.finishLevel_layout (e : Expr) (tiered : e.IsTiered)
    (outer : List (Opening × Level)) :
    (Reader.mk ⟨(layout e).reverse, []⟩ outer).finishLevel = .ok (some e) := by
  simp only [finishLevel, Level.finish, List.reverse_reverse, toExpr?_layout e tiered]
  rfl

theorem Reader.step_close_group (e : Expr) (tiered : e.IsTiered) (openSpan span : Span)
    (level : Level) (outer : List (Opening × Level)) :
    (Reader.mk ⟨(layout e).reverse, []⟩ ((.group openSpan, level) :: outer)).step
        ⟨.closeParen, span⟩ =
      .ok ⟨level.supply (.parens openSpan span e), outer⟩ := by
  simp only [step, closeParen, finishLevel_layout e tiered]
  rfl

theorem Reader.step_close_call (e : Expr) (tiered : e.IsTiered) (f : Func)
    (nameSpan openSpan span : Span) (operands : List Expr) (comma : Option Span) (level : Level)
    (outer : List (Opening × Level)) :
    (Reader.mk ⟨(layout e).reverse, []⟩
        ((.call f nameSpan openSpan operands comma, level) :: outer)).step ⟨.closeParen, span⟩ =
      .ok ⟨level.supply (.call f nameSpan openSpan span (operands.reverse ++ [e])), outer⟩ := by
  simp only [step, closeParen, finishLevel_layout e tiered]
  simp [bind, Except.bind]

/-- A call may have no arguments at all. -/
theorem Reader.step_close_empty_call (f : Func) (nameSpan openSpan span : Span) (level : Level)
    (outer : List (Opening × Level)) :
    (Reader.mk {} ((.call f nameSpan openSpan [] none, level) :: outer)).step ⟨.closeParen, span⟩ =
      .ok ⟨level.supply (.call f nameSpan openSpan span []), outer⟩ :=
  rfl

theorem Reader.step_comma_call (e : Expr) (tiered : e.IsTiered) (f : Func)
    (nameSpan openSpan span : Span) (operands : List Expr) (comma : Option Span) (level : Level)
    (outer : List (Opening × Level)) :
    (Reader.mk ⟨(layout e).reverse, []⟩
        ((.call f nameSpan openSpan operands comma, level) :: outer)).step ⟨.comma, span⟩ =
      .ok ⟨{}, (.call f nameSpan openSpan (e :: operands) (some span), level) :: outer⟩ := by
  simp only [step, Reader.comma, finishLevel_layout e tiered]
  rfl

/-- A parenthesis opens a group where no function awaits an operand. -/
theorem Reader.openParen_group (r : Reader) (span : Span)
    (noFunction : ∀ f s rest, r.level.awaiting ≠ .func f s :: rest) :
    r.openParen span = ⟨{}, (.group span, r.level) :: r.outer⟩ := by
  unfold openParen
  split
  next f s rest func => exact absurd func (noFunction f s rest)
  next => rfl

/-- Wherever an expression is admitted, its tokens add it to the level, up to places, and change
nothing else. -/
def Reads (e : Expr) : Prop :=
  ∀ (r : Reader) (tokens : List (Located Token)), tokens.map (·.val) = e.tokens →
    r.level.Admits e →
    ∃ e', e'.erase = e.erase ∧ tokens.foldlM Reader.step r = .ok ⟨r.level.absorb e', r.outer⟩

/-- The tokens of arguments and a close parenthesis complete the call that they belong to. Only a
call without any argument may end without one. -/
def ReadsArguments (es : List Expr) : Prop :=
  ∀ (f : Func) (nameSpan openSpan : Span) (before : List Expr) (comma : Option Span)
    (level : Level) (outer : List (Opening × Level)) (tokens : List (Located Token)),
    (es = [] → before = [] ∧ comma = none) →
    tokens.map (·.val) = Expr.argumentTokens es ++ [.closeParen] →
    ∃ es' span, Expr.eraseAll es' = Expr.eraseAll es ∧
      tokens.foldlM Reader.step ⟨{}, (.call f nameSpan openSpan before comma, level) :: outer⟩ =
        .ok ⟨level.supply (.call f nameSpan openSpan span (before.reverse ++ es')), outer⟩

theorem reads_number (value : Rat) (s : Span) : Reads (.number value s) := by
  intro r tokens written _
  obtain ⟨⟨_, span⟩, _, rfl, rfl, last⟩ := List.map_eq_cons_iff.mp written
  cases List.map_eq_nil_iff.mp last
  exact ⟨.number value span, rfl, by rw [r.level.absorb_operand _ rfl]; rfl⟩

theorem reads_var (name : Text) (s : Span) : Reads (.var name s) := by
  intro r tokens written _
  obtain ⟨⟨_, span⟩, _, rfl, rfl, last⟩ := List.map_eq_cons_iff.mp written
  cases List.map_eq_nil_iff.mp last
  exact ⟨.var name span, rfl, by rw [r.level.absorb_operand _ rfl]; rfl⟩

/-- A minus sign is an item of the row where nothing awaits an operand, and awaits one itself
where something does. -/
theorem reads_negation (s : Span) (e : Expr) (alone : e.tier? = none) (reads : Reads e) :
    Reads (.unary .negate s e) := by
  intro r tokens written _
  have written : tokens.map (·.val) = .binary .subtract :: e.tokens := written
  obtain ⟨⟨_, span⟩, rest, rfl, rfl, later⟩ := List.map_eq_cons_iff.mp written
  cases awaits : r.level.awaiting with
  | nil =>
    have first : r.step ⟨.binary .subtract, span⟩ =
        .ok ⟨⟨operator .subtract span :: r.level.items, []⟩, r.outer⟩ := by
      simp [Reader.step, Reader.operator, awaits]
    obtain ⟨e', same, run⟩ :=
      reads ⟨⟨operator .subtract span :: r.level.items, []⟩, r.outer⟩ rest later
        (Level.admits_of_done rfl e)
    refine ⟨.unary .negate span e', by simp [Expr.erase, same], ?_⟩
    rw [Reader.run_cons _ first, run]
    simp [Level.absorb, awaits, layout]
  | cons a before =>
    have first : r.step ⟨.binary .subtract, span⟩ = .ok (r.await (.unary .negate span)) := by
      simp [Reader.step, Reader.operator, awaits]
    obtain ⟨e', same, run⟩ := reads (r.await (.unary .negate span)) rest later
      (Level.admits_unary _ _ _ _ alone)
    refine ⟨.unary .negate span e', by simp [Expr.erase, same], ?_⟩
    rw [Reader.run_cons _ first, run]
    simp only [Level.absorb, awaits]
    rfl

theorem reads_unaryWord (w : UnaryWord) (s : Span) (e : Expr) (alone : e.tier? = none)
    (reads : Reads e) : Reads (.unary (.word w) s e) := by
  intro r tokens written _
  obtain ⟨⟨_, span⟩, rest, rfl, rfl, later⟩ := List.map_eq_cons_iff.mp written
  obtain ⟨e', same, run⟩ := reads (r.await (.unary (.word w) span)) rest later
    (Level.admits_unary _ _ _ _ alone)
  refine ⟨.unary (.word w) span e', by simp [Expr.erase, same], ?_⟩
  rw [Reader.run_cons (r.await (.unary (.word w) span)) rfl, run,
    r.level.absorb_operand _ rfl]
  rfl

theorem reads_apply (f : Func) (s : Span) (e : Expr) (alone : e.tier? = none)
    (bare : e.tokens.head? ≠ some .openParen) (reads : Reads e) : Reads (.apply f s e) := by
  intro r tokens written _
  obtain ⟨⟨_, span⟩, rest, rfl, rfl, later⟩ := List.map_eq_cons_iff.mp written
  obtain ⟨e', same, run⟩ := reads (r.await (.func f span)) rest later
    ⟨fun _ => alone, fun _ _ _ _ => bare⟩
  refine ⟨.apply f span e', by simp [Expr.erase, same], ?_⟩
  rw [Reader.run_cons (r.await (.func f span)) rfl, run, r.level.absorb_operand _ rfl]
  rfl

/-- Both halves are read into the same row, with the operator between them. -/
theorem reads_binary (op : BinaryOp) (s : Span) (left right : Expr) (readsLeft : Reads left)
    (readsRight : Reads right) : Reads (.binary op s left right) := by
  intro r tokens written admits
  have done : r.level.awaiting = [] := by
    cases awaits : r.level.awaiting with
    | nil => rfl
    | cons a before => cases admits.joined (by simp [awaits])
  obtain ⟨tokensLeft, _, rfl, writtenLeft, later⟩ := List.map_eq_append_iff.mp written
  obtain ⟨⟨_, span⟩, tokensRight, rfl, rfl, writtenRight⟩ := List.map_eq_cons_iff.mp later
  obtain ⟨left', sameLeft, runLeft⟩ :=
    readsLeft r tokensLeft writtenLeft (Level.admits_of_done done left)
  obtain ⟨right', sameRight, runRight⟩ :=
    readsRight ⟨⟨operator op span :: ((layout left').reverse ++ r.level.items), []⟩, r.outer⟩
      tokensRight writtenRight (Level.admits_of_done rfl right)
  refine ⟨.binary op span left' right', by simp [Expr.erase, sameLeft, sameRight], ?_⟩
  simp only [Level.absorb, done] at runLeft
  rw [Reader.run_append runLeft, Reader.run_cons _ rfl, runRight]
  simp [Level.absorb, done, layout]

theorem reads_parens (openSpan closeSpan : Span) (e : Expr) (tiered : e.IsTiered)
    (reads : Reads e) : Reads (.parens openSpan closeSpan e) := by
  intro r tokens written admits
  obtain ⟨⟨_, openSpan⟩, _, rfl, rfl, opened⟩ := List.map_eq_cons_iff.mp written
  obtain ⟨inside, _, rfl, writtenInside, closed⟩ := List.map_eq_append_iff.mp opened
  obtain ⟨⟨_, span⟩, _, rfl, rfl, last⟩ := List.map_eq_cons_iff.mp closed
  cases List.map_eq_nil_iff.mp last
  obtain ⟨e', same, run⟩ := reads ⟨{}, (.group openSpan, r.level) :: r.outer⟩ inside writtenInside
    (Level.admits_of_done rfl e)
  have noFunction : ∀ f s rest, r.level.awaiting ≠ .func f s :: rest := fun f s rest func =>
    admits.argument f s rest func rfl
  have opened : r.step ⟨.openParen, openSpan⟩ = .ok ⟨{}, (.group openSpan, r.level) :: r.outer⟩ :=
    congrArg Except.ok (r.openParen_group openSpan noFunction)
  refine ⟨.parens openSpan span e', by simp [Expr.erase, same], ?_⟩
  simp only [Level.absorb, List.append_nil] at run
  rw [Reader.run_cons _ opened, Reader.run_append run,
    Reader.run_cons _ (Reader.step_close_group e' (tiered.of_erase same) openSpan span _ _),
    r.level.absorb_operand _ rfl]
  rfl

/-- A function in front of a parenthesis does not await an operand: it is the call that the
parenthesis opens. -/
theorem reads_call (f : Func) (s openSpan closeSpan : Span) (es : List Expr)
    (reads : ReadsArguments es) : Reads (.call f s openSpan closeSpan es) := by
  intro r tokens written _
  obtain ⟨⟨_, nameSpan⟩, _, rfl, rfl, named⟩ := List.map_eq_cons_iff.mp written
  obtain ⟨⟨_, openSpan⟩, rest, rfl, rfl, later⟩ := List.map_eq_cons_iff.mp named
  obtain ⟨es', span, same, run⟩ :=
    reads f nameSpan openSpan [] none r.level r.outer rest (by simp) later
  refine ⟨.call f nameSpan openSpan span es', by simp [Expr.erase, same], ?_⟩
  rw [Reader.run_cons (r.await (.func f nameSpan)) rfl, Reader.run_cons _ rfl,
    r.level.absorb_operand _ rfl]
  exact run

theorem readsArguments_nil : ReadsArguments [] := by
  intro f nameSpan openSpan before comma level outer tokens fresh written
  obtain ⟨rfl, rfl⟩ := fresh rfl
  obtain ⟨⟨_, span⟩, _, rfl, rfl, last⟩ := List.map_eq_cons_iff.mp written
  cases List.map_eq_nil_iff.mp last
  refine ⟨[], span, rfl, ?_⟩
  rw [Reader.run_cons _ (Reader.step_close_empty_call f nameSpan openSpan span level outer)]
  rfl

/-- An argument is the last one or has a comma after it. -/
theorem readsArguments_cons (e : Expr) (rest : List Expr) (tiered : e.IsTiered) (reads : Reads e)
    (readsRest : ReadsArguments rest) : ReadsArguments (e :: rest) := by
  intro f nameSpan openSpan before comma level outer tokens _ written
  have first (inside : List (Located Token)) (writtenInside : inside.map (·.val) = e.tokens) :
      ∃ e', e'.erase = e.erase ∧
        inside.foldlM Reader.step ⟨{}, (.call f nameSpan openSpan before comma, level) :: outer⟩ =
          .ok ⟨⟨(layout e').reverse, []⟩,
            (.call f nameSpan openSpan before comma, level) :: outer⟩ := by
    obtain ⟨e', same, run⟩ := reads ⟨{}, (.call f nameSpan openSpan before comma, level) :: outer⟩
      inside writtenInside (Level.admits_of_done rfl e)
    exact ⟨e', same, by simpa [Level.absorb] using run⟩
  cases rest with
  | nil =>
    obtain ⟨inside, _, rfl, writtenInside, closed⟩ := List.map_eq_append_iff.mp written
    obtain ⟨⟨_, span⟩, _, rfl, rfl, last⟩ := List.map_eq_cons_iff.mp closed
    cases List.map_eq_nil_iff.mp last
    obtain ⟨e', same, run⟩ := first inside writtenInside
    refine ⟨[e'], span, by simp [Expr.eraseAll, same], ?_⟩
    rw [Reader.run_append run, Reader.run_cons _
      (Reader.step_close_call e' (tiered.of_erase same) f nameSpan openSpan span before comma _ _)]
    rfl
  | cons next rest =>
    have written : tokens.map (·.val) =
        e.tokens ++ .comma :: (Expr.argumentTokens (next :: rest) ++ [.closeParen]) := by
      simpa [Expr.argumentTokens] using written
    obtain ⟨inside, _, rfl, writtenInside, parted⟩ := List.map_eq_append_iff.mp written
    obtain ⟨⟨_, span⟩, later, rfl, rfl, writtenLater⟩ := List.map_eq_cons_iff.mp parted
    obtain ⟨e', same, run⟩ := first inside writtenInside
    obtain ⟨es', closeSpan, sameRest, runRest⟩ := readsRest f nameSpan openSpan
      (e' :: before) (some span) level outer later (by simp) writtenLater
    refine ⟨e' :: es', closeSpan, by simp [Expr.eraseAll, same, sameRest], ?_⟩
    rw [Reader.run_append run, Reader.run_cons _
      (Reader.step_comma_call e' (tiered.of_erase same) f nameSpan openSpan span before comma _ _),
      runRest]
    simp

mutual

/-- All expressions that respect the tiers are read from their tokens. -/
theorem reads_of_tiered : (e : Expr) → e.IsTiered → e.IsPlain → Reads e
  | .number value s, _, _ => reads_number value s
  | .var name s, _, _ => reads_var name s
  | .unary .negate s e, tiered, plain =>
    reads_negation s e tiered.1 (reads_of_tiered e tiered.2 plain)
  | .unary (.word w) s e, tiered, plain =>
    reads_unaryWord w s e tiered.1 (reads_of_tiered e tiered.2 plain)
  | .binary op s left right, tiered, plain =>
    reads_binary op s left right (reads_of_tiered left tiered.2.2.1 plain.1)
      (reads_of_tiered right tiered.2.2.2 plain.2)
  | .apply f s e, tiered, plain =>
    reads_apply f s e tiered.1 plain.1 (reads_of_tiered e tiered.2 plain.2)
  | .call f s openSpan closeSpan es, tiered, plain =>
    reads_call f s openSpan closeSpan es (readsArguments_of_tiered es tiered plain)
  | .parens openSpan closeSpan e, tiered, plain =>
    reads_parens openSpan closeSpan e tiered (reads_of_tiered e tiered plain)

theorem readsArguments_of_tiered : (es : List Expr) → Expr.AllTiered es → Expr.AllPlain es →
    ReadsArguments es
  | [], _, _ => readsArguments_nil
  | e :: rest, tiered, plain =>
    readsArguments_cons e rest tiered.1 (reads_of_tiered e tiered.1 plain.1)
      (readsArguments_of_tiered rest tiered.2 plain.2)

end

theorem UnaryOp.token_ne_assign (op : UnaryOp) : Token.assign ≠ op.token := by
  cases op <;> simp [UnaryOp.token]

mutual

/-- The sign of an assignment stands in no expression. -/
theorem assign_not_mem : (e : Expr) → Token.assign ∉ e.tokens
  | .number _ _ => by simp [Expr.tokens]
  | .var _ _ => by simp [Expr.tokens]
  | .unary op _ e => by simp [Expr.tokens, UnaryOp.token_ne_assign op, assign_not_mem e]
  | .binary _ _ left right => by simp [Expr.tokens, assign_not_mem left, assign_not_mem right]
  | .apply _ _ e => by simp [Expr.tokens, assign_not_mem e]
  | .call _ _ _ _ es => by simp [Expr.tokens, assign_not_mem_arguments es]
  | .parens _ _ e => by simp [Expr.tokens, assign_not_mem e]

theorem assign_not_mem_arguments : (es : List Expr) → Token.assign ∉ Expr.argumentTokens es
  | [] => by simp [Expr.argumentTokens]
  | [e] => by simp [Expr.argumentTokens, assign_not_mem e]
  | e :: next :: rest => by
    simp [Expr.argumentTokens, assign_not_mem e, assign_not_mem_arguments (next :: rest)]

end

/-- Without the sign of an assignment there is no target. -/
theorem splitTarget_of_not_mem {tokens : List (Located Token)}
    (absent : Token.assign ∉ tokens.map (·.val)) : splitTarget tokens = (none, tokens) := by
  unfold splitTarget
  split
  next => simp at absent
  next => rfl

theorem readExpr_of_tokens (e : Expr) (tiered : e.IsTiered) (plain : e.IsPlain)
    (tokens : List (Located Token)) (written : tokens.map (·.val) = e.tokens) :
    ∃ e', readExpr tokens = .ok e' ∧ e'.erase = e.erase := by
  obtain ⟨e', same, run⟩ := reads_of_tiered e tiered plain {} tokens written
    (Level.admits_of_done rfl e)
  have finished : (Reader.mk ⟨(layout e').reverse, []⟩ []).finish = .ok e' := by
    simp only [Reader.finish, Reader.finishLevel_layout e' (tiered.of_erase same)]
    rfl
  simp only [Level.absorb, List.append_nil] at run
  exact ⟨e', bind_eq_ok_iff.mpr ⟨_, run, finished⟩, same⟩

/-- Every statement that respects the tiers, and in which no function takes a parenthesis that is
not that of its arguments, is read from its tokens, wherever they stand. -/
theorem read_of_tokens (s : Statement) (tiered : s.root.IsTiered) (plain : s.root.IsPlain)
    (tokens : List (Located Token)) (written : tokens.map (·.val) = s.tokens) :
    ∃ s', Statement.read tokens = .ok s' ∧ s'.target.map (·.val) = s.target.map (·.val) ∧
      s'.root.erase = s.root.erase := by
  obtain ⟨target, root⟩ := s
  cases target with
  | none =>
    obtain ⟨root', success, same⟩ := readExpr_of_tokens root tiered plain tokens written
    have noTarget : splitTarget tokens = (none, tokens) :=
      splitTarget_of_not_mem (by rw [written]; exact assign_not_mem root)
    have accepted : Statement.read tokens = .ok ⟨none, root'⟩ := by
      simp only [Statement.read, noTarget, success]
      rfl
    exact ⟨⟨none, root'⟩, accepted, rfl, same⟩
  | some name =>
    obtain ⟨⟨_, nameSpan⟩, _, rfl, rfl, named⟩ := List.map_eq_cons_iff.mp written
    obtain ⟨⟨_, span⟩, rest, rfl, rfl, later⟩ := List.map_eq_cons_iff.mp named
    obtain ⟨root', success, same⟩ := readExpr_of_tokens root tiered plain rest later
    have accepted : Statement.read (⟨.var name.val, nameSpan⟩ :: ⟨.assign, span⟩ :: rest) =
        .ok ⟨some ⟨name.val, nameSpan⟩, root'⟩ := by
      simp only [Statement.read, splitTarget, success]
      rfl
    exact ⟨⟨some ⟨name.val, nameSpan⟩, root'⟩, accepted, rfl, same⟩

/-- An assignment of `-2 % 3 - max -$y`, in which each minus sign but the second is a negation. -/
theorem read_of_tokens_assignment :
    ∃ s, Statement.read
      [⟨.var ['$', 'x'], ⟨0, 2⟩⟩, ⟨.assign, ⟨2, 1⟩⟩, ⟨.binary .subtract, ⟨3, 1⟩⟩,
        ⟨.number 2, ⟨4, 1⟩⟩, ⟨.binary .modulus, ⟨5, 1⟩⟩, ⟨.number 3, ⟨6, 1⟩⟩,
        ⟨.binary .subtract, ⟨7, 1⟩⟩, ⟨.func .max, ⟨8, 3⟩⟩, ⟨.binary .subtract, ⟨11, 1⟩⟩,
        ⟨.var ['$', 'y'], ⟨12, 2⟩⟩] = .ok s ∧
      s.target.map (·.val) = some ['$', 'x'] ∧
      s.root.erase =
        .binary .subtract ⟨0, 0⟩
          (.binary .modulus ⟨0, 0⟩ (.unary .negate ⟨0, 0⟩ (.number 2 ⟨0, 0⟩)) (.number 3 ⟨0, 0⟩))
          (.apply .max ⟨0, 0⟩ (.unary .negate ⟨0, 0⟩ (.var ['$', 'y'] ⟨0, 0⟩))) :=
  read_of_tokens
    ⟨some ⟨['$', 'x'], ⟨0, 0⟩⟩,
      .binary .subtract ⟨0, 0⟩
        (.binary .modulus ⟨0, 0⟩ (.unary .negate ⟨0, 0⟩ (.number 2 ⟨0, 0⟩)) (.number 3 ⟨0, 0⟩))
        (.apply .max ⟨0, 0⟩ (.unary .negate ⟨0, 0⟩ (.var ['$', 'y'] ⟨0, 0⟩)))⟩
    (by simp [Expr.IsTiered, Expr.tier?, BinaryOp.tier])
    (by simp [Expr.IsPlain, Expr.tokens, UnaryOp.token]) _ rfl

end Statement
end ExactCalc
