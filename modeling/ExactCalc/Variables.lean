import ExactCalc.Fault

/-!
# Variables

A variable store answers with the value of a variable and takes a new one; either may fail for
reasons of its own. The store in memory keeps with each value the number of the input line that
last wrote the variable or mentioned it, which is its use mark.
-/
namespace ExactCalc

/-- Why a store does not answer: trouble of its own, or a refusal that it passes on. -/
inductive StoreFault where
  | broken (text : Text)
  | refused (r : Refusal)
  deriving DecidableEq, Repr

/-- What evaluation needs from the place where variables live. -/
class VariableStore (σ : Type) where
  /-- The value of a variable, if it has one. -/
  fetch : σ → Text → Except StoreFault (Option Rat)
  /-- The store with a variable set to a value by the line of that number. -/
  save : σ → Text → Rat → Option Int → Except StoreFault σ

/-- A store that answers everything with the same fault. -/
structure FaultyStore where
  fault : StoreFault

instance : VariableStore FaultyStore where
  fetch store _ := .error store.fault
  save store _ _ _ := .error store.fault

structure Variable where
  value : Rat
  lastUsed : Option Int
  deriving DecidableEq, Repr

/-- The variables of a session, in the order in which they were first set. -/
structure Memory where
  entries : List (Text × Variable) := []
  deriving DecidableEq, Repr

namespace Memory

def get? (m : Memory) (name : Text) : Option Variable := m.entries.lookup name

def value? (m : Memory) (name : Text) : Option Rat := (m.get? name).map (·.value)

/-- Change the entry of a variable that has one. -/
def modify (m : Memory) (name : Text) (f : Variable → Variable) : Memory :=
  ⟨m.entries.map fun entry => if entry.1 = name then (name, f entry.2) else entry⟩

/-- Set a variable and its use mark. -/
def update (m : Memory) (name : Text) (value : Rat) (line : Option Int) : Memory :=
  if (m.get? name).isSome then m.modify name fun _ => ⟨value, line⟩
  else ⟨m.entries ++ [(name, ⟨value, line⟩)]⟩

/-- Mark a variable as used by a line, if it is set. -/
def touch (m : Memory) (line : Option Int) (name : Text) : Memory :=
  m.modify name fun v => ⟨v.value, line⟩

def touchAll (m : Memory) (line : Option Int) (names : List Text) : Memory :=
  names.foldl (fun m name => m.touch line name) m

/-- Forget a variable, if it is set. -/
def purge (m : Memory) (name : Text) : Memory := ⟨m.entries.filter fun entry => entry.1 ≠ name⟩

/-- The names of all variables that are set, in ascending order. -/
def names (m : Memory) : List Text := Text.sorted (m.entries.map (·.1))

end Memory

instance : VariableStore Memory where
  fetch m name := .ok (m.value? name)
  save m name value line := .ok (m.update name value line)

end ExactCalc
