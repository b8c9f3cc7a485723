import ExactCalc.Effect
import ExactCalc.Power
import ExactCalc.Statement
import ExactCalc.Variables

/-!
# Execution of statements

An expression is evaluated from left to right, operands before their operator, and the first error
ends it. An assignment writes the store only after the whole expression has a value, so that a
statement that fails leaves the store as it was. A statement runs once: a second run is refused,
whether or not the first succeeded.
-/
namespace ExactCalc

/-- The remainder of a division whose quotient is cut to an integer, so that it has the sign of
the dividend. -/
def truncatedRemainder (dividend divisor : Rat) : Rat :=
  dividend - divisor * (Power.truncate (dividend / divisor) : Rat)

/-- The value of a power in an expression. An integer exponent needs no root. -/
def BinaryOp.raise (a : Accuracy) (base exponent : Rat) : Except MathError Rat :=
  if exponent.den ≠ 1 then Power.power a base exponent
  else if base = 0 ∧ exponent < 0 then .error .divisionByZero
  else .ok (Power.integral base exponent.num)

def BinaryOp.value (a : Accuracy) (op : BinaryOp) (left right : Rat) : Except MathError Rat :=
  match op with
  | .add => .ok (left + right)
  | .subtract => .ok (left - right)
  | .multiply => .ok (left * right)
  | .divide => if right = 0 then .error .divisionByZero else .ok (left / right)
  | .modulus =>
    if right = 0 then .error .divisionByZero else .ok (truncatedRemainder left right)
  | .exponent => raise a left right

def UnaryOp.value (op : UnaryOp) (operand : Rat) : Except MathError Rat :=
  match op with
  | .negate => .ok (-operand)
  | .word .absolute => .ok operand.abs
  | .word .squareRoot => .error .unsupported

def Func.choose (f : Func) (x y : Rat) : Rat :=
  match f with
  | .max => if x < y then y else x
  | .min => if y < x then y else x

def Func.value (f : Func) : List Rat → Except MathError Rat
  | [] => .error (.argumentsNeeded f)
  | x :: rest => .ok (rest.foldl f.choose x)

def MathError.blame {α : Type} (span : Span) (result : Except MathError α) : Except Failure α :=
  result.mapError fun e => .refused (.math e span)

namespace Expr

mutual

/-- The value of an expression, with the values of its variables from `load`. -/
def eval (load : Located Text → Except Failure Rat) (a : Accuracy) : Expr → Except Failure Rat
  | number value _ => .ok value
  | var name s => load ⟨name, s⟩
  | unary op s operand => do
    let x ← eval load a operand
    MathError.blame s (op.value x)
  | binary op s left right => do
    let x ← eval load a left
    let y ← eval load a right
    MathError.blame s (op.value a x y)
  | apply f s operand => do
    let x ← eval load a operand
    MathError.blame s (f.value [x])
  | call f s _ _ operands => do
    let xs ← evalAll load a operands
    MathError.blame s (f.value xs)
  | parens _ _ inner => eval load a inner

def evalAll (load : Located Text → Except Failure Rat) (a : Accuracy) :
    List Expr → Except Failure (List Rat)
  | [] => .ok []
  | e :: rest => do
    let x ← eval load a e
    let xs ← evalAll load a rest
    return x :: xs

end

end Expr

namespace VariableStore

/-- Without a store no variable can be used. -/
def unavailable (name : Located Text) : Failure :=
  .refused ⟨.capability .noVariableStore, some name.span⟩

/-- The value of a variable that stands at some place of the line. -/
def load {σ : Type} [VariableStore σ] (store : Option σ) (name : Located Text) :
    Except Failure Rat :=
  match store.map fun s => fetch s name.val with
  | none => .error (unavailable name)
  | some (.error (.refused r)) => .error (.refused r)
  | some (.error (.broken text)) => .error (.outage (.load name.val text))
  | some (.ok none) => .error (.refused (.math (.unknownVariable name.val) name.span))
  | some (.ok (some value)) => .ok value

def assign {σ : Type} [VariableStore σ] (store : Option σ) (name : Located Text) (value : Rat)
    (line : Option Int) : Except Failure σ :=
  match store.map fun s => save s name.val value line with
  | none => .error (unavailable name)
  | some (.error (.refused r)) => .error (.refused r)
  | some (.error (.broken text)) => .error (.outage (.save name.val text))
  | some (.ok store) => .ok store

end VariableStore

namespace Statement

/-- Evaluate a statement and, for an assignment, store its value. -/
def execute {σ : Type} [VariableStore σ] (statement : Statement) (a : Accuracy)
    (line : Option Int) : Effect (Option σ) Rat := do
  let value ← Effect.ofResult (statement.root.eval (VariableStore.load (← get)) a)
  match statement.target with
  | none => return value
  | some name =>
    set (some (← Effect.ofResult (VariableStore.assign (← get) name value line)))
    return value

/-- A statement, and whether it has run. -/
structure Once where
  statement : Statement
  hasRun : Bool := false

def Once.execute {σ : Type} [VariableStore σ] (once : Once) (a : Accuracy) (line : Option Int)
    (store : Option σ) : Except Failure Rat × Option σ × Once :=
  if once.hasRun then (.error (.defect .alreadyRun), store, once)
  else
    let (result, after) := (once.statement.execute a line).outcome store
    (result, after, ⟨once.statement, true⟩)

/-- Run a statement several times, up to the first failure: what each run results in, and the
store at the end. -/
def Once.attempts {σ : Type} [VariableStore σ] (a : Accuracy) (line : Option Int) :
    Nat → Option σ → Once → List (Except Failure Rat) × Option σ
  | 0, store, _ => ([], store)
  | n + 1, store, once =>
    match once.execute a line store with
    | (.ok value, store, once) =>
      let (later, final) := attempts a line n store once
      (.ok value :: later, final)
    | (.error e, store, _) => ([.error e], store)

end Statement
end ExactCalc
