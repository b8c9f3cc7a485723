import ExactCalc.Proofs.Lexeme.Line
import ExactCalc.Proofs.Reading.Relocation
import ExactCalc.Proofs.Session.Outcome

/-!
# Expression lines in other places

An expression line whose lexemes are moved is answered as before. If it is refused, the place to
blame moves with the lexemes.
-/
namespace ExactCalc

open Effect

variable {m : Relocation}

theorem Refusal.relocate_grammar (e : Located GrammarError) :
    Refusal.grammar (GrammarError.relocate m e) = (Refusal.grammar e).relocate m := by
  unfold GrammarError.relocate
  split
  next same => simp [Refusal.relocate, Refusal.grammar, same]
  next other => simp [Refusal.relocate, Refusal.grammar, Located.relocate, other]

/-- The failure without the place that is to blame. -/
def Failure.unplaced : Failure → Failure
  | .refused r => .refused ⟨r.cause, none⟩
  | f => f

theorem Failure.unplaced_relocate (f : Failure) : (f.relocate m).unplaced = f.unplaced := by
  cases f with
  | refused r =>
    simp only [Failure.relocate, Refusal.relocate]
    split <;> rfl
  | _ => rfl

/-- Results are told apart without places as they are where places are moved. -/
theorem Failure.mapError_unplaced_relocate {α : Type} (result : Except Failure α) :
    (bimap (Failure.relocate m) id result).mapError Failure.unplaced =
      result.mapError Failure.unplaced := by
  cases result with
  | error f => exact congrArg Except.error f.unplaced_relocate
  | ok x => rfl

/-- A statement that has the same target and is worth the same but for the places of its errors
leaves the same store. -/
theorem Statement.execute_relocate {statement moved : Statement} {a : Accuracy} {line : Option Int}
    {store : Option Memory} (target : moved.target = statement.target.map (Located.relocate m))
    (value : moved.root.eval (VariableStore.load store) a =
      bimap (Failure.relocate m) id (statement.root.eval (VariableStore.load store) a)) :
    (moved.execute a line).outcome store =
      (bimap (Failure.relocate m) id ((statement.execute a line).outcome store).1,
        ((statement.execute a line).outcome store).2) := by
  rw [execute_eq, execute_eq, value, target]
  cases statement.root.eval (VariableStore.load store) a with
  | error e => rfl
  | ok v =>
    cases statement.target with
    | none => rfl
    | some name =>
      cases store with
      | none => rfl
      | some memory => rfl

namespace Session

theorem failsAs_onStore {α : Type} {f : Failure → Failure} {x x' : Effect (Option Memory) α}
    (fails : FailsAs f x x') : FailsAs f (onStore x) (onStore x') := by
  intro session
  rw [outcome_onStore, outcome_onStore, fails session.store]

theorem mentioned_relocate (tokens : List (Located Token)) :
    mentioned (tokens.map (Located.relocate m)) = mentioned tokens := by
  rw [mentioned, List.filterMap_map]
  rfl

theorem failsAs_evaluate (number : Option Int) (tokens : List (Located Token)) :
    FailsAs (Failure.relocate m) (evaluate number tokens)
      (evaluate number (tokens.map (Located.relocate m))) := by
  refine failsAs_ofResult (h := Statement.relocate m) ?_ fun statement _ => ?_
  · rw [Statement.read_relocate]
    cases Statement.read tokens with
    | error e =>
      exact congrArg (fun r => Except.error (Failure.refused r)) (Refusal.relocate_grammar e)
    | ok statement => rfl
  · refine infallible_get.failsAs.bind fun session => failsAs_onStore fun store => ?_
    exact Statement.execute_relocate rfl
      (Expr.eval_relocate (VariableStore.load_relocate store) statement.root)

theorem failsAs_runExpression (number : Option Int) (tokens : List (Located Token)) :
    FailsAs (Failure.relocate m) (runExpression number tokens)
      (runExpression number (tokens.map (Located.relocate m))) := by
  unfold runExpression
  rw [mentioned_relocate]
  refine (infallible_modify _).failsAs.bind fun _ => ?_
  simp only [List.map_eq_nil_iff]
  split
  · exact (infallible_pure _).failsAs
  · refine (failsAs_evaluate number tokens).bind fun value => ?_
    exact (infallible_get.bind fun _ => infallible_pure _).failsAs

/-- Answer an expression line by what its lexemes are read as. -/
def runTokens (number : Option Int) (read : Except Failure (List (Located Token))) :
    Effect Session Text :=
  ofResult read >>= runExpression number

theorem failsAs_runTokens (number : Option Int) (read : Except Failure (List (Located Token))) :
    FailsAs (Failure.relocate m) (runTokens number read)
      (runTokens number (bimap (Failure.relocate m) (List.map (Located.relocate m)) read)) :=
  failsAs_ofResult rfl fun tokens _ => failsAs_runExpression number tokens

theorem calculate_runTokens {commands : Registry} {number : Option Int} {session : Session}
    {line : Text} (ascii : ∀ c ∈ line, Text.isAscii c = true)
    (noSlash : (line.dropWhile Text.isBlank).head? ≠ some '/') :
    session.calculate commands number line =
      (runTokens number (line.tokens session.settings.radix.toNat)).outcome session := by
  rw [calculate_eq, Line.read_eq_tokens _ ascii noSlash]
  cases line.tokens session.settings.radix.toNat <;> rfl

end Session
end ExactCalc
