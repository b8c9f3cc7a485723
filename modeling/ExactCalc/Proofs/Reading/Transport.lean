import ExactCalc.Proofs.Result
import ExactCalc.Statement

/-!
# Reading under a change of trees

No step of the reader looks at a place or into an operand to decide what to do. A change of trees
that moves all places in one way and keeps the operators, the parentheses and the functions as they
are therefore passes through every stage: from the changed row or reader comes the change of what
comes from the row or reader, and an error is the same error at the moved place. What such a change
makes of a variable is left open, and so is a function in front of one.
-/
namespace ExactCalc

/-- A way to move places that keeps what covers two spans and what lies between them. -/
structure Relocation where
  place : Span → Span
  cover : ∀ a b, place (a.cover b) = (place a).cover (place b)
  gap : ∀ a b, place (a.gap b) = (place a).gap (place b)

def Located.relocate {α : Type} (m : Relocation) (x : Located α) : Located α :=
  ⟨x.val, m.place x.span⟩

/-- The error of a line without input is at the start of the line, wherever anything else is. -/
def GrammarError.relocate (m : Relocation) (e : Located GrammarError) : Located GrammarError :=
  if e.val = .noInput then ⟨.noInput, ⟨0, 0⟩⟩ else Located.relocate m e

/-- A change of trees that moves places and does not touch how trees are built, but for variables
and functions in front of a variable. -/
structure Expr.Rebuilds (m : Relocation) (g : Expr → Expr) : Prop where
  span : ∀ e, (g e).span = m.place e.span
  number : ∀ v s, g (.number v s) = .number v (m.place s)
  unary : ∀ op s e, g (.unary op s e) = .unary op (m.place s) (g e)
  binary : ∀ op s left right,
    g (.binary op s left right) = .binary op (m.place s) (g left) (g right)
  apply : ∀ f s e, (∀ name t, e ≠ .var name t) → g (.apply f s e) = .apply f (m.place s) (g e)
  call : ∀ f s openSpan closeSpan es, g (.call f s openSpan closeSpan es) =
    .call f (m.place s) (m.place openSpan) (m.place closeSpan) (es.map g)
  parens : ∀ openSpan closeSpan e, g (.parens openSpan closeSpan e) =
    .parens (m.place openSpan) (m.place closeSpan) (g e)

/-- A change of trees that only moves a variable, also behind a function. -/
structure Expr.Moves (m : Relocation) (g : Expr → Expr) (name : Text) : Prop where
  var : ∀ s, g (.var name s) = .var name (m.place s)
  apply : ∀ f t s, g (.apply f t (.var name s)) = .apply f (m.place t) (.var name (m.place s))

variable {m : Relocation} {g : Expr → Expr}

namespace Item

def transport (m : Relocation) (g : Expr → Expr) : Item → Item
  | operand e => operand (g e)
  | operator op s => operator op (m.place s)

theorem operandExpected_transport (left : List Item) :
    operandExpected (left.map (transport m g)) = operandExpected left := by
  match left with
  | [] => rfl
  | operand _ :: _ => rfl
  | operator _ _ :: _ => rfl

theorem putBack_transport (held : Option Expr) (row : List Item) :
    putBack (held.map g) (row.map (transport m g)) = (putBack held row).map (transport m g) := by
  cases held <;> rfl

theorem sweepNegations_transport (rebuilds : Expr.Rebuilds m g) (held : Option Expr)
    (left done : List Item) :
    sweepNegations (held.map g) (left.map (transport m g)) (done.map (transport m g)) =
      (sweepNegations held left done).map (transport m g) := by
  fun_induction sweepNegations held left done with
  | case1 held done => exact putBack_transport held done
  | case2 held e left done ih =>
    rw [← ih, ← putBack_transport]
    rfl
  | case3 op s left done ih => exact ih
  | case4 op s left done e negates ih =>
    rw [← ih, Option.map_some, Option.map_some, rebuilds.unary]
    simp [sweepNegations, transport, operandExpected_transport, negates]
  | case5 op s left done e keeps ih =>
    rw [← ih]
    simp [sweepNegations, transport, operandExpected_transport, keeps]

theorem foldNegations_transport (rebuilds : Expr.Rebuilds m g) (row : List Item) :
    foldNegations (row.map (transport m g)) = (foldNegations row).map (transport m g) := by
  unfold foldNegations
  rw [← List.map_reverse]
  exact sweepNegations_transport rebuilds none row.reverse []

theorem join_transport (rebuilds : Expr.Rebuilds m g) (tier : List BinaryOp) (row : List Item)
    (item : Item) :
    join tier (row.map (transport m g)) (transport m g item) =
      (join tier row item).map (transport m g) := by
  match item, row with
  | .operand right, .operator op s :: .operand left :: rest =>
    simp only [join, List.map_cons, transport]
    split
    · simp [transport, rebuilds.binary]
    · rfl
  | .operator _ _, _ => rfl
  | .operand _, [] => rfl
  | .operand _, .operand _ :: _ => rfl
  | .operand _, [.operator _ _] => rfl
  | .operand _, .operator _ _ :: .operator _ _ :: _ => rfl

theorem reduceTier_transport (rebuilds : Expr.Rebuilds m g) (row : List Item)
    (tier : List BinaryOp) :
    reduceTier (row.map (transport m g)) tier = (reduceTier row tier).map (transport m g) := by
  have joined (begun : List Item) :
      (row.map (transport m g)).foldl (join tier) (begun.map (transport m g)) =
        (row.foldl (join tier) begun).map (transport m g) := by
    induction row generalizing begun with
    | nil => rfl
    | cons item row ih =>
      rw [List.map_cons, List.foldl_cons, join_transport rebuilds, ih, List.foldl_cons]
  unfold reduceTier
  rw [List.map_reverse, ← joined]
  rfl

theorem reduce_transport (rebuilds : Expr.Rebuilds m g) (row : List Item) :
    reduce (row.map (transport m g)) = (reduce row).map (transport m g) := by
  simp only [reduce, BinaryOp.tiers, List.foldl_cons, List.foldl_nil,
    foldNegations_transport rebuilds, reduceTier_transport rebuilds]

theorem single?_transport (rebuilds : Expr.Rebuilds m g) (row : List Item) :
    single? (row.map (transport m g)) =
      bimap (GrammarError.relocate m) (Option.map g) (single? row) := by
  match row with
  | [] => rfl
  | .operator op s :: _ => rfl
  | [.operand e] => rfl
  | .operand e :: .operand e' :: _ =>
    simp only [single?, List.map_cons, transport, rebuilds.span, ← m.gap]
    rfl
  | [.operand _, .operator op s] => rfl
  | .operand _ :: .operator op s :: .operand _ :: _ => rfl
  | .operand _ :: .operator op s :: .operator _ _ :: _ => rfl

/-- The changed row denotes the changed expression. -/
theorem toExpr?_transport (rebuilds : Expr.Rebuilds m g) (row : List Item) :
    toExpr? (row.map (transport m g)) =
      bimap (GrammarError.relocate m) (Option.map g) (toExpr? row) := by
  rw [toExpr?, reduce_transport rebuilds, single?_transport rebuilds, toExpr?]

end Item

namespace Statement

def Awaiting.relocate (m : Relocation) : Awaiting → Awaiting
  | unary op s => unary op (m.place s)
  | func f s => func f (m.place s)

def Level.transport (m : Relocation) (g : Expr → Expr) (level : Level) : Level :=
  ⟨level.items.map (Item.transport m g), level.awaiting.map (Awaiting.relocate m)⟩

def Opening.transport (m : Relocation) (g : Expr → Expr) : Opening → Opening
  | group openSpan => group (m.place openSpan)
  | call f nameSpan openSpan operands comma =>
    call f (m.place nameSpan) (m.place openSpan) (operands.map g) (comma.map m.place)

def Reader.transport (m : Relocation) (g : Expr → Expr) (r : Reader) : Reader :=
  ⟨r.level.transport m g,
    r.outer.map fun entry => (entry.1.transport m g, entry.2.transport m g)⟩

theorem Awaiting.unmet_relocate (a : Awaiting) :
    (a.relocate m).unmet = GrammarError.relocate m a.unmet := by
  cases a <;> rfl

/-- An operand completes what awaits it. Only a function right in front of it can tell what it is:
what is completed is no variable. -/
theorem Awaiting.foldl_complete (rebuilds : Expr.Rebuilds m g) (awaiting : List Awaiting)
    {e : Expr} (applied : ∀ f s, g (.apply f s e) = .apply f (m.place s) (g e)) :
    (awaiting.map (Awaiting.relocate m)).foldl Awaiting.complete (g e) =
      g (awaiting.foldl Awaiting.complete e) := by
  induction awaiting generalizing e with
  | nil => rfl
  | cons a rest ih =>
    have first : (a.relocate m).complete (g e) = g (a.complete e) := by
      cases a with
      | unary op s => exact (rebuilds.unary op s e).symm
      | func f s => exact (applied f s).symm
    rw [List.map_cons, List.foldl_cons, List.foldl_cons, first]
    refine ih fun f s => rebuilds.apply f s _ fun name t same => ?_
    cases a <;> cases same

theorem Level.supply_transport (rebuilds : Expr.Rebuilds m g) (level : Level) {e : Expr}
    (applied : ∀ f s, g (.apply f s e) = .apply f (m.place s) (g e)) :
    (level.transport m g).supply (g e) = (level.supply e).transport m g := by
  simp only [Level.supply, Level.transport, Awaiting.foldl_complete rebuilds _ applied,
    List.map_cons, List.map_nil, Item.transport]

theorem Level.finish_transport (rebuilds : Expr.Rebuilds m g) (level : Level) :
    (level.transport m g).finish =
      bimap (GrammarError.relocate m) (Option.map g) level.finish := by
  obtain ⟨items, awaiting⟩ := level
  cases awaiting with
  | nil =>
    simp only [Level.transport, Level.finish, List.map_nil, ← List.map_reverse,
      Item.toExpr?_transport rebuilds]
  | cons a rest =>
    simp only [Level.transport, Level.finish, List.map_cons, Awaiting.unmet_relocate, bimap_error]

namespace Reader

theorem supply_transport (rebuilds : Expr.Rebuilds m g) (r : Reader) {e : Expr}
    (applied : ∀ f s, g (.apply f s e) = .apply f (m.place s) (g e)) :
    (r.transport m g).supply (g e) = (r.supply e).transport m g := by
  simp only [Reader.supply, Reader.transport, Level.supply_transport rebuilds _ applied]

theorem operator_transport (r : Reader) (op : BinaryOp) (s : Span) :
    (r.transport m g).operator op (m.place s) =
      bimap (GrammarError.relocate m) (Reader.transport m g) (r.operator op s) := by
  obtain ⟨⟨items, awaiting⟩, outer⟩ := r
  cases awaiting with
  | nil => cases op <;> rfl
  | cons a rest => cases op <;> rfl

theorem openParen_transport (r : Reader) (s : Span) :
    (r.transport m g).openParen (m.place s) = (r.openParen s).transport m g := by
  obtain ⟨⟨items, awaiting⟩, outer⟩ := r
  match awaiting with
  | [] => rfl
  | .func _ _ :: _ => rfl
  | .unary _ _ :: _ => rfl

theorem finishLevel_transport (rebuilds : Expr.Rebuilds m g) (r : Reader) :
    (r.transport m g).finishLevel =
      bimap (GrammarError.relocate m) (Option.map g) r.finishLevel := by
  obtain ⟨level, outer⟩ := r
  unfold finishLevel
  rw [Reader.transport, Level.finish_transport rebuilds]
  refine bimap_bind fun e => ?_
  match e, outer with
  | some _, _ => rfl
  | none, [] => rfl
  | none, (.group _, _) :: _ => rfl
  | none, (.call _ _ _ _ none, _) :: _ => rfl
  | none, (.call _ _ _ _ (some _), _) :: _ => rfl

/-- What is done at the end of a level depends on whether anything stands in it, and on whether it
is in parentheses, in a call or in neither. -/
theorem level_cases {motive : Option Expr → List (Opening × Level) → Prop}
    (nothing : motive none []) (whole : ∀ e, motive (some e) [])
    (emptyGroup : ∀ s level rest, motive none ((.group s, level) :: rest))
    (group : ∀ e s level rest, motive (some e) ((.group s, level) :: rest))
    (noArgument : ∀ f nameSpan openSpan operands comma level rest,
      motive none ((.call f nameSpan openSpan operands comma, level) :: rest))
    (argument : ∀ e f nameSpan openSpan operands comma level rest,
      motive (some e) ((.call f nameSpan openSpan operands comma, level) :: rest))
    (e : Option Expr) (outer : List (Opening × Level)) : motive e outer :=
  match e, outer with
  | none, [] => nothing
  | some e, [] => whole e
  | none, (.group s, level) :: rest => emptyGroup s level rest
  | some e, (.group s, level) :: rest => group e s level rest
  | none, (.call f n o operands comma, level) :: rest =>
    noArgument f n o operands comma level rest
  | some e, (.call f n o operands comma, level) :: rest =>
    argument e f n o operands comma level rest

theorem comma_transport (rebuilds : Expr.Rebuilds m g) (r : Reader) (s : Span) :
    (r.transport m g).comma (m.place s) =
      bimap (GrammarError.relocate m) (Reader.transport m g) (r.comma s) := by
  unfold comma
  rw [finishLevel_transport rebuilds]
  refine bimap_bind fun e => ?_
  obtain ⟨level, outer⟩ := r
  cases e, outer using level_cases <;> rfl

theorem closeParen_transport (rebuilds : Expr.Rebuilds m g) (r : Reader) (s : Span) :
    (r.transport m g).closeParen (m.place s) =
      bimap (GrammarError.relocate m) (Reader.transport m g) (r.closeParen s) := by
  unfold closeParen
  rw [finishLevel_transport rebuilds]
  refine bimap_bind fun e => ?_
  obtain ⟨level, outer⟩ := r
  match e, outer with
  | none, [] => rfl
  | some _, [] => rfl
  | none, (.group openSpan, _) :: _ =>
    simp only [Reader.transport, Opening.transport, List.map_cons, Option.map_none, bimap_error,
      ← m.cover]
    rfl
  | some e, (.group openSpan, level) :: rest =>
    have closed := Level.supply_transport rebuilds level (e := .parens openSpan s e)
      fun f t => rebuilds.apply f t _ nofun
    rw [rebuilds.parens] at closed
    simp only [Reader.transport, Opening.transport, List.map_cons, Option.map_some, bimap_ok,
      closed]
  | e, (.call f nameSpan openSpan operands comma, level) :: rest =>
    have closed := Level.supply_transport rebuilds level
      (e := .call f nameSpan openSpan s (e.toList ++ operands).reverse)
      fun f t => rebuilds.apply f t _ nofun
    rw [rebuilds.call] at closed
    have listed : ((e.map g).toList ++ operands.map g).reverse =
        (e.toList ++ operands).reverse.map g := by
      cases e <;> simp
    cases e <;>
      simp only [Reader.transport, Opening.transport, List.map_cons, bimap_ok, listed, closed]

/-- The changed reader takes the moved token as the reader takes the token, unless the token is a
variable of which the change makes something else. -/
theorem step_transport (rebuilds : Expr.Rebuilds m g) (r : Reader) (t : Located Token)
    (moves : ∀ name, t.val = .var name → Expr.Moves m g name) :
    (r.transport m g).step (t.relocate m) =
      bimap (GrammarError.relocate m) (Reader.transport m g) (r.step t) := by
  obtain ⟨token, s⟩ := t
  cases token with
  | var name =>
    obtain ⟨var, apply⟩ := moves name rfl
    have supplied := r.supply_transport rebuilds (e := .var name s) fun f t => by
      rw [apply, var]
    rw [var] at supplied
    exact congrArg Except.ok supplied
  | number v =>
    have supplied := r.supply_transport rebuilds (e := .number v s)
      fun f t => rebuilds.apply f t _ nofun
    rw [rebuilds.number] at supplied
    exact congrArg Except.ok supplied
  | binary op => exact operator_transport r op s
  | unary w => rfl
  | func f => rfl
  | assign => rfl
  | comma => exact comma_transport rebuilds r s
  | openParen => exact congrArg Except.ok (openParen_transport r s)
  | closeParen => exact closeParen_transport rebuilds r s

theorem finish_transport (rebuilds : Expr.Rebuilds m g) (r : Reader) :
    (r.transport m g).finish = bimap (GrammarError.relocate m) g r.finish := by
  unfold finish
  rw [finishLevel_transport rebuilds]
  refine bimap_bind fun e => ?_
  obtain ⟨level, outer⟩ := r
  cases e, outer using level_cases <;> rfl

/-- The changed reader takes for each token what stands for that token. -/
theorem run_transport {b : Located Token → List (Located Token)} (r : Reader)
    (tokens : List (Located Token))
    (each : ∀ t ∈ tokens, ∀ r : Reader, (b t).foldlM step (r.transport m g) =
      bimap (GrammarError.relocate m) (Reader.transport m g) (r.step t)) :
    (tokens.flatMap b).foldlM step (r.transport m g) =
      bimap (GrammarError.relocate m) (Reader.transport m g) (tokens.foldlM step r) := by
  induction tokens generalizing r with
  | nil => rfl
  | cons t rest ih =>
    rw [List.flatMap_cons, List.foldlM_append, List.foldlM_cons, each t List.mem_cons_self]
    exact bimap_bind fun r => ih r fun t' member => each t' (List.mem_cons_of_mem _ member)

/-- Moved tokens, in which no variable is of those that the change makes something else of. -/
theorem run_map_relocate (rebuilds : Expr.Rebuilds m g) (r : Reader)
    (tokens : List (Located Token))
    (moves : ∀ t ∈ tokens, ∀ name, t.val = .var name → Expr.Moves m g name) :
    (tokens.map (Located.relocate m)).foldlM step (r.transport m g) =
      bimap (GrammarError.relocate m) (Reader.transport m g) (tokens.foldlM step r) := by
  rw [List.map_eq_flatMap]
  refine run_transport r tokens fun t member r => ?_
  simp only [List.foldlM_cons, List.foldlM_nil, bind_pure]
  exact step_transport rebuilds r t (moves t member)

end Reader

/-- What stands for tokens, each by itself, is read as the change of what the tokens are read as. -/
theorem readExpr_transport (rebuilds : Expr.Rebuilds m g)
    {b : Located Token → List (Located Token)} (tokens : List (Located Token))
    (each : ∀ t ∈ tokens, ∀ r : Reader, (b t).foldlM Reader.step (r.transport m g) =
      bimap (GrammarError.relocate m) (Reader.transport m g) (r.step t)) :
    readExpr (tokens.flatMap b) = bimap (GrammarError.relocate m) g (readExpr tokens) := by
  have run := Reader.run_transport {} tokens each
  rw [readExpr, show ({} : Reader) = Reader.transport m g {} from rfl, run]
  exact bimap_bind (Reader.finish_transport rebuilds)

end Statement
end ExactCalc
