import ExactCalc.Proofs.Result
import ExactCalc.Proofs.Session.Failure

/-!
# What expression lines do

An expression line marks the variables it mentions. If it then has a value, the value is displayed,
and an assignment writes it into the store; otherwise nothing else happens. Marks do not change what
variables are worth, so that the value is the one that the expression has before the line.
-/
namespace ExactCalc

/-- What a statement results in: nothing is written before its value is known. -/
theorem Statement.execute_eq (statement : Statement) (a : Accuracy) (line : Option Int)
    (store : Option Memory) :
    (statement.execute a line).outcome store =
      match statement.root.eval (VariableStore.load store) a, statement.target with
      | .error e, _ => (.error e, store)
      | .ok v, none => (.ok v, store)
      | .ok v, some name =>
        match VariableStore.assign store name v line with
        | .ok m => (.ok v, some m)
        | .error e => (.error e, store) := by
  obtain ⟨target, root⟩ := statement
  unfold execute
  simp only [Effect.outcome_bind, Effect.outcome_get, Effect.outcome_ofResult]
  cases root.eval (VariableStore.load store) a with
  | error e => rfl
  | ok v =>
    cases target with
    | none => rfl
    | some name =>
      simp only [Effect.outcome_bind, Effect.outcome_get, Effect.outcome_ofResult]
      cases VariableStore.assign store name v line with
      | error e => rfl
      | ok m => rfl

namespace Session

variable {commands : Registry} {number : Option Int} {session : Session}

/-- Marks do not change what variables are worth. -/
theorem load_touch (names : List Text) :
    VariableStore.load (session.touch number names).store = VariableStore.load session.store := by
  funext name
  unfold touch VariableStore.load
  cases session.store with
  | none => rfl
  | some m => simp [VariableStore.fetch]

theorem outcome_onStore {α : Type} (x : Effect (Option Memory) α) (session : Session) :
    (onStore x).outcome session =
      ((x.outcome session.store).1, ⟨session.settings, (x.outcome session.store).2⟩) := rfl

/-- An expression is marked, read, evaluated and displayed, in this order. -/
theorem runExpression_eq {tokens : List (Located Token)} {statement : Statement}
    (read : Statement.read tokens = .ok statement) :
    (runExpression number tokens).outcome session =
      match (statement.execute session.accuracy number).outcome
        (session.touch number (mentioned tokens)).store with
      | (.ok v, store) => (.ok (session.settings.display v), ⟨session.settings, store⟩)
      | (.error e, store) => (.error e, ⟨session.settings, store⟩) := by
  have nonempty : tokens ≠ [] := by
    rintro rfl
    cases read
  unfold runExpression evaluate
  simp only [Effect.outcome_bind, Effect.outcome_modify, nonempty, if_false, read,
    mapError_ok, Effect.checked_ok, Effect.outcome_pure, Effect.outcome_get, outcome_onStore]
  have same : (session.touch number (mentioned tokens)).accuracy = session.accuracy := rfl
  rw [same]
  rcases (statement.execute session.accuracy number).outcome
    (session.touch number (mentioned tokens)).store with ⟨result, store⟩
  cases result <;> rfl

theorem runExpression_refused {tokens : List (Located Token)} {e : Located GrammarError}
    (nonempty : tokens ≠ []) (unread : Statement.read tokens = .error e) :
    (runExpression number tokens).outcome session =
      (.error (.refused (.grammar e)), session.touch number (mentioned tokens)) := by
  unfold runExpression evaluate
  simp [Effect.outcome_bind, nonempty, unread, mapError_error, Effect.checked_error]

/-- Tokens that are no statement are marked and nothing else. -/
theorem runExpression_unread {tokens : List (Located Token)} {e : Located GrammarError}
    (unread : Statement.read tokens = .error e) :
    ((runExpression number tokens).outcome session).2 =
      session.touch number (mentioned tokens) := by
  by_cases empty : tokens = []
  · subst empty
    rfl
  · rw [runExpression_refused empty unread]

theorem calculate_expression {line : Text} {tokens : List (Located Token)}
    (asExpression : Line.read session.settings.radix.toNat line = .ok (.expression tokens)) :
    session.calculate commands number line = (runExpression number tokens).outcome session := by
  rw [calculate_eq, asExpression]

/-- An expression line without a target displays its value. -/
theorem calculate_of_value {line : Text} {tokens : List (Located Token)} {statement : Statement}
    {v : Rat}
    (asExpression : Line.read session.settings.radix.toNat line = .ok (.expression tokens))
    (read : Statement.read tokens = .ok statement) (noTarget : statement.target = none)
    (value : statement.root.eval (VariableStore.load session.store) session.accuracy = .ok v) :
    session.calculate commands number line =
      (.ok (session.settings.display v), session.touch number (mentioned tokens)) := by
  rw [calculate_expression asExpression, runExpression_eq read, Statement.execute_eq, load_touch]
  simp only [value, noTarget]
  rfl

/-- An assignment that has a value displays it and writes it into the store. -/
theorem calculate_of_assignment {line : Text} {tokens : List (Located Token)}
    {statement : Statement} {name : Located Text} {m : Memory} {v : Rat}
    (asExpression : Line.read session.settings.radix.toNat line = .ok (.expression tokens))
    (read : Statement.read tokens = .ok statement) (target : statement.target = some name)
    (stored : session.store = some m)
    (value : statement.root.eval (VariableStore.load session.store) session.accuracy = .ok v) :
    session.calculate commands number line =
      (.ok (session.settings.display v),
        ⟨session.settings,
          some ((m.touchAll number (mentioned tokens)).update name.val v number)⟩) := by
  rw [calculate_expression asExpression, runExpression_eq read, Statement.execute_eq, load_touch]
  simp only [value, target]
  rw [touch, stored]
  rfl

/-- An expression line that assigns nothing changes nothing but marks. -/
theorem calculate_of_no_assignment {line : Text} {tokens : List (Located Token)}
    (asExpression : Line.read session.settings.radix.toNat line = .ok (.expression tokens))
    (noAssignment : ∀ statement name v, Statement.read tokens = .ok statement →
      statement.target = some name →
      statement.root.eval (VariableStore.load session.store) session.accuracy ≠ .ok v) :
    (session.calculate commands number line).2 = session.touch number (mentioned tokens) := by
  rw [calculate_expression asExpression]
  cases read : Statement.read tokens with
  | error e => exact runExpression_unread read
  | ok statement =>
    rw [runExpression_eq read, Statement.execute_eq, load_touch]
    cases value : statement.root.eval (VariableStore.load session.store) session.accuracy with
    | error e => rfl
    | ok v =>
      cases target : statement.target with
      | none => rfl
      | some name => exact absurd value (noAssignment statement name v read target)

end Session
end ExactCalc
