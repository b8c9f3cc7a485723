import ExactCalc.Expr.Written
import ExactCalc.Proofs.Result
import ExactCalc.Statement.Execution

/-!
# Values do not depend on places

Where an expression stands in its line decides what is blamed for an error and nothing else: the
value that it has, if it has one, is that of every expression that differs from it in places only.
-/
namespace ExactCalc

theorem MathError.blame_eq_ok {α : Type} {span : Span} {result : Except MathError α} {x : α} :
    MathError.blame span result = .ok x ↔ result = .ok x := mapError_eq_ok_iff

namespace Expr

/-- A variable has the same value wherever it stands. -/
def Placeless (load : Located Text → Except Failure Rat) : Prop :=
  ∀ name s s' v, load ⟨name, s⟩ = .ok v ↔ load ⟨name, s'⟩ = .ok v

variable {load : Located Text → Except Failure Rat}

mutual

/-- An expression has the value that it has without its places. -/
theorem eval_erase (placeless : Placeless load) (a : Accuracy) :
    (e : Expr) → ∀ v, e.erase.eval load a = .ok v ↔ e.eval load a = .ok v
  | .number _ _ => fun _ => Iff.rfl
  | .var name s => fun v => placeless name ⟨0, 0⟩ s v
  | .unary _ _ operand => fun v => by
    simp only [erase, eval, bind_eq_ok_iff, MathError.blame_eq_ok, eval_erase placeless a operand]
  | .binary _ _ left right => fun v => by
    simp only [erase, eval, bind_eq_ok_iff, MathError.blame_eq_ok, eval_erase placeless a left,
      eval_erase placeless a right]
  | .apply _ _ operand => fun v => by
    simp only [erase, eval, bind_eq_ok_iff, MathError.blame_eq_ok, eval_erase placeless a operand]
  | .call _ _ _ _ operands => fun v => by
    simp only [erase, eval, bind_eq_ok_iff, MathError.blame_eq_ok,
      evalAll_erase placeless a operands]
  | .parens _ _ inner => fun v => by
    simp only [erase, eval, eval_erase placeless a inner]

theorem evalAll_erase (placeless : Placeless load) (a : Accuracy) :
    (es : List Expr) → ∀ vs, evalAll load a (eraseAll es) = .ok vs ↔ evalAll load a es = .ok vs
  | [] => fun _ => Iff.rfl
  | e :: rest => fun vs => by
    simp only [eraseAll, evalAll, bind_eq_ok_iff, eval_erase placeless a e,
      evalAll_erase placeless a rest]

end

/-- Expressions that differ in places only have the same value. -/
theorem eval_of_erase_eq (placeless : Placeless load) {a : Accuracy} {e e' : Expr} {v : Rat}
    (same : e'.erase = e.erase) (value : e.eval load a = .ok v) : e'.eval load a = .ok v := by
  rw [← eval_erase placeless a e', same]
  exact (eval_erase placeless a e v).mpr value

end Expr

/-- The store in memory knows variables by their names. -/
theorem VariableStore.placeless_load (store : Option Memory) :
    Expr.Placeless (VariableStore.load store) := by
  intro name s s' v
  unfold VariableStore.load
  cases store with
  | none => simp
  | some m => cases found : m.value? name <;> simp [VariableStore.fetch, found]

end ExactCalc
