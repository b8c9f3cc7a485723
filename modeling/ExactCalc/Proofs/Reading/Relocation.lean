import ExactCalc.Line
import ExactCalc.Proofs.Reading.Transport
import ExactCalc.Statement.Execution

/-!
# Tokens in other places

Tokens that are moved are read as the same statement with its places moved, or refused with the same
error at the moved place. The statement has the same value, or fails for the same reason, whatever
is known of its variables. Two ways to move all places are to the right and to no place at all.
-/
namespace ExactCalc

variable {m : Relocation}

namespace Relocation

/-- To the right. -/
def shift (k : Nat) : Relocation where
  place := Span.shift k
  cover a b := by
    simp only [Span.shift, Span.cover, Span.upTo, Span.stop, Span.mk.injEq]
    omega
  gap a b := by
    simp only [Span.shift, Span.gap, Span.upTo, Span.stop, Span.mk.injEq]
    omega

/-- To no place: nothing can be told from where it stands. -/
def nowhere : Relocation where
  place _ := ⟨0, 0⟩
  cover _ _ := rfl
  gap _ _ := rfl

end Relocation

/-- A value that stands nowhere. -/
def Located.nowhere {α : Type} (x : α) : Located α := ⟨x, ⟨0, 0⟩⟩

theorem Located.map_relocate_nowhere {α : Type} (xs : List (Located α)) :
    xs.map (Located.relocate .nowhere) = (xs.map (·.val)).map Located.nowhere := by
  rw [List.map_map]
  rfl

/-- The refusal of a line without input is at the start of the line, wherever anything else is. -/
def Refusal.relocate (m : Relocation) (r : Refusal) : Refusal :=
  if r.cause = .grammar .noInput then ⟨r.cause, some ⟨0, 0⟩⟩ else ⟨r.cause, r.span.map m.place⟩

def Failure.relocate (m : Relocation) : Failure → Failure
  | .refused r => .refused (r.relocate m)
  | f => f

theorem Token.unread_relocate (x : Located Text) (reason : Literal.Unread) :
    unread (x.relocate m) reason = (unread x reason).relocate m := by
  cases reason <;> rfl

theorem Token.ofLexeme_relocate (radix : Nat) (x : Located Text) :
    ofLexeme radix (x.relocate m) =
      bimap (Failure.relocate m) (Located.relocate m) (ofLexeme radix x) := by
  unfold ofLexeme
  rw [show (x.relocate m).val = x.val from rfl]
  cases ofText radix x.val with
  | ok token => rfl
  | error reason => exact congrArg Except.error (unread_relocate x reason)

theorem Token.ofLexemes_relocate (radix : Nat) (xs : List (Located Text)) :
    (xs.map (Located.relocate m)).mapM (ofLexeme radix) =
      bimap (Failure.relocate m) (List.map (Located.relocate m)) (xs.mapM (ofLexeme radix)) :=
  mapM_bimap (ofLexeme_relocate radix) xs

namespace Expr

mutual

/-- The expression with its places moved. -/
def relocate (m : Relocation) : Expr → Expr
  | number v s => number v (m.place s)
  | var name s => var name (m.place s)
  | unary op s operand => unary op (m.place s) (operand.relocate m)
  | binary op s left right => binary op (m.place s) (left.relocate m) (right.relocate m)
  | apply f s operand => apply f (m.place s) (operand.relocate m)
  | call f s openSpan closeSpan operands =>
    call f (m.place s) (m.place openSpan) (m.place closeSpan) (relocateAll m operands)
  | parens openSpan closeSpan inner =>
    parens (m.place openSpan) (m.place closeSpan) (inner.relocate m)

def relocateAll (m : Relocation) : List Expr → List Expr
  | [] => []
  | e :: rest => e.relocate m :: relocateAll m rest

end

theorem relocateAll_eq_map (m : Relocation) (es : List Expr) :
    relocateAll m es = es.map (relocate m) := by
  induction es with
  | nil => rfl
  | cons e rest ih => rw [relocateAll, ih, List.map_cons]

theorem span_relocate (m : Relocation) (e : Expr) : (e.relocate m).span = m.place e.span := by
  induction e using span.induct with
  | case1 => rfl
  | case2 => rfl
  | case3 op s operand ih => simp only [relocate, span, m.cover, ih]
  | case4 op s left right left_ih right_ih => simp only [relocate, span, m.cover, left_ih, right_ih]
  | case5 f s operand ih => simp only [relocate, span, m.cover, ih]
  | case6 f name opened closed operands => simp only [relocate, span, m.cover]
  | case7 opened closed inner => simp only [relocate, span, m.cover]

theorem rebuilds_relocate (m : Relocation) : Rebuilds m (relocate m) where
  span := span_relocate m
  number _ _ := rfl
  unary _ _ _ := rfl
  binary _ _ _ _ := rfl
  apply _ _ _ _ := rfl
  call _ _ _ _ es := by rw [relocate, relocateAll_eq_map]
  parens _ _ _ := rfl

end Expr

namespace Statement

/-- The statement with its places moved. -/
def relocate (m : Relocation) (s : Statement) : Statement :=
  ⟨s.target.map (Located.relocate m), s.root.relocate m⟩

theorem readExpr_relocate (tokens : List (Located Token)) :
    readExpr (tokens.map (Located.relocate m)) =
      bimap (GrammarError.relocate m) (Expr.relocate m) (readExpr tokens) := by
  have run := Reader.run_map_relocate (Expr.rebuilds_relocate m) {} tokens
    fun _ _ _ _ => ⟨fun _ => rfl, fun _ _ _ => rfl⟩
  rw [readExpr, show ({} : Reader) = Reader.transport m (Expr.relocate m) {} from rfl, run]
  exact bimap_bind (Reader.finish_transport (Expr.rebuilds_relocate m))

theorem splitTarget_relocate (tokens : List (Located Token)) :
    splitTarget (tokens.map (Located.relocate m)) =
      ((splitTarget tokens).1.map (Located.relocate m),
        (splitTarget tokens).2.map (Located.relocate m)) := by
  cases tokens with
  | nil => rfl
  | cons first rest =>
    obtain ⟨t, s⟩ := first
    cases rest with
    | nil => cases t <;> rfl
    | cons second rest =>
      obtain ⟨u, s'⟩ := second
      cases t <;> cases u <;> rfl

/-- Moved tokens are read as the moved statement. -/
theorem read_relocate (tokens : List (Located Token)) :
    read (tokens.map (Located.relocate m)) =
      bimap (GrammarError.relocate m) (Statement.relocate m) (read tokens) := by
  unfold read
  rw [splitTarget_relocate]
  rcases splitTarget tokens with ⟨target, rest⟩
  dsimp only
  rw [readExpr_relocate]
  exact bimap_bind fun _ => rfl

end Statement

theorem MathError.blame_relocate {α : Type} (s : Span) (result : Except MathError α) :
    blame (m.place s) result = bimap (Failure.relocate m) id (blame s result) := by
  cases result <;> rfl

namespace Expr

variable {g : Expr → Expr} {load : Located Text → Except Failure Rat} {a : Accuracy}

mutual

/-- A change of trees that keeps how trees are built keeps what they are worth, if it does so for
variables and for functions in front of a variable. -/
theorem eval_transport (rebuilds : Rebuilds m g)
    (var : ∀ name s, (g (.var name s)).eval load a =
      bimap (Failure.relocate m) id (load ⟨name, s⟩))
    (applied : ∀ f s name t, (g (.apply f s (.var name t))).eval load a =
      bimap (Failure.relocate m) id ((apply f s (.var name t)).eval load a)) :
    (e : Expr) → (g e).eval load a = bimap (Failure.relocate m) id (e.eval load a)
  | .number v s => by
    rw [rebuilds.number]
    rfl
  | .var name s => var name s
  | .unary op s e => by
    rw [rebuilds.unary, eval, eval_transport rebuilds var applied e]
    exact bimap_bind fun x => MathError.blame_relocate s _
  | .binary op s left right => by
    rw [rebuilds.binary, eval, eval_transport rebuilds var applied left]
    refine bimap_bind fun x => ?_
    rw [eval_transport rebuilds var applied right]
    exact bimap_bind fun y => MathError.blame_relocate s _
  | .apply f s e => by
    by_cases bare : ∃ name t, e = .var name t
    · obtain ⟨name, t, rfl⟩ := bare
      exact applied f s name t
    · rw [rebuilds.apply f s e fun name t same => bare ⟨name, t, same⟩, eval,
        eval_transport rebuilds var applied e]
      exact bimap_bind fun x => MathError.blame_relocate s _
  | .call f s openSpan closeSpan es => by
    rw [rebuilds.call, eval, evalAll_transport rebuilds var applied es]
    exact bimap_bind fun xs => MathError.blame_relocate s _
  | .parens openSpan closeSpan e => by
    rw [rebuilds.parens, eval, eval_transport rebuilds var applied e, eval]

theorem evalAll_transport (rebuilds : Rebuilds m g)
    (var : ∀ name s, (g (.var name s)).eval load a =
      bimap (Failure.relocate m) id (load ⟨name, s⟩))
    (applied : ∀ f s name t, (g (.apply f s (.var name t))).eval load a =
      bimap (Failure.relocate m) id ((apply f s (.var name t)).eval load a)) :
    (es : List Expr) →
      evalAll load a (es.map g) = bimap (Failure.relocate m) id (evalAll load a es)
  | [] => rfl
  | e :: rest => by
    rw [List.map_cons, evalAll, eval_transport rebuilds var applied e]
    refine bimap_bind fun x => ?_
    rw [evalAll_transport rebuilds var applied rest]
    exact bimap_bind fun xs => rfl

end

/-- An expression that is moved has the same value, or is refused at the moved place. -/
theorem eval_relocate
    (moves : ∀ name, load (name.relocate m) = bimap (Failure.relocate m) id (load name))
    (e : Expr) :
    (e.relocate m).eval load a = bimap (Failure.relocate m) id (e.eval load a) := by
  refine eval_transport (rebuilds_relocate m) (fun name s => moves ⟨name, s⟩) ?_ e
  intro f s name t
  simp only [relocate, eval]
  rw [show load ⟨name, m.place t⟩ = _ from moves ⟨name, t⟩]
  exact bimap_bind fun x => MathError.blame_relocate s _

end Expr

/-- What the store in memory knows of a variable does not depend on where the variable stands. -/
theorem VariableStore.load_relocate (store : Option Memory) (name : Located Text) :
    load store (name.relocate m) = bimap (Failure.relocate m) id (load store name) := by
  unfold load
  cases store with
  | none => rfl
  | some memory =>
    simp only [Located.relocate, Option.map_some, fetch]
    cases memory.value? name.val <;> rfl

end ExactCalc
