import ExactCalc.Fault

/-!
# Effects

An effect acts on a state and may fail on the way. It leaves a state in either case, and what it
has changed before it fails stays changed: nothing is taken back. Whether a failure leaves
something half done is therefore a question of the order in which an effect checks and writes.
-/
namespace ExactCalc

/-- A computation on a state that may fail on the way. -/
abbrev Effect (σ α : Type) := ExceptT Failure (StateM σ) α

namespace Effect

variable {σ α β : Type}

/-- What an effect results in, and the state that it leaves. -/
def outcome (x : Effect σ α) (s : σ) : Except Failure α × σ := StateT.run (ExceptT.run x) s

/-- Go on with a result, or fail as it does. -/
def ofResult (result : Except Failure α) : Effect σ α := ExceptT.mk (pure result)

/-- Go on with what a check results in, or refuse as it does. -/
def checked (result : Except Refusal α) : Effect σ α := ofResult (result.mapError .refused)

@[simp] theorem outcome_pure (a : α) (s : σ) : outcome (pure a) s = (.ok a, s) := rfl

@[simp] theorem outcome_throw (e : Failure) (s : σ) :
    outcome (throw e : Effect σ α) s = (.error e, s) := rfl

@[simp] theorem outcome_ofResult (result : Except Failure α) (s : σ) :
    outcome (ofResult result) s = (result, s) := rfl

@[simp] theorem outcome_get (s : σ) : outcome (get : Effect σ σ) s = (.ok s, s) := rfl

@[simp] theorem outcome_modify (f : σ → σ) (s : σ) :
    outcome (modify f : Effect σ Unit) s = (.ok (), f s) := rfl

/-- An effect goes on from the state that the one before it leaves, unless that one fails. -/
theorem outcome_bind (x : Effect σ α) (next : α → Effect σ β) (s : σ) :
    outcome (x >>= next) s =
      match outcome x s with
      | (.ok a, s') => outcome (next a) s'
      | (.error e, s') => (.error e, s') := by
  change StateT.run (ExceptT.run x >>= ExceptT.bindCont next) s = _
  rw [StateT.run_bind]
  rcases h : StateT.run (ExceptT.run x) s with ⟨result, s'⟩
  cases result <;> simp [outcome, h] <;> rfl

end Effect
end ExactCalc
