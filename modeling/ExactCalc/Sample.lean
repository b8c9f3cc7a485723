import ExactCalc.Numeral.Display

/-!
# Sample expressions

Sample expressions are made at random, each together with its value: sums of products of numbers,
negations, parentheses and calls of `max` and `min`, with irregular spacing and underscores in
longer numbers. All chance comes from a tape of numbers that are drawn one after the other, so
that a tape determines its samples. After its end the tape goes on with 999.
-/
namespace ExactCalc

/-- An expression and its value. -/
structure Sample where
  source : Text
  value : Int
  deriving DecidableEq, Repr

namespace Sample

/-- A computation that draws from a tape. -/
abbrev Draw (α : Type) := StateM (List Nat) α

/-- The next number of the tape. -/
def draw : Draw Nat := fun tape =>
  match tape with
  | [] => (999, [])
  | t :: rest => (t, rest)

/-- A number below a thousand, for a chance in thousandths. -/
def perMille : Draw Nat := return (← draw) % 1000

/-- A number from `low` to `high`. -/
def between (low high : Nat) : Draw Nat := return low + (← draw) % (high - low + 1)

def spaces : Draw Text := return List.replicate ([0, 0, 0, 1, 1, 2].getD ((← draw) % 6) 0) ' '

def iterate (step : Sample → Draw Sample) : Nat → Sample → Draw Sample
  | 0, sample => return sample
  | n + 1, sample => do iterate step n (← step sample)

def several (make : Draw Sample) : Nat → Draw (List Sample)
  | 0 => return []
  | n + 1 => do
    let first ← make
    return first :: (← several make n)

/-- A number literal. Longer ones may have underscores between groups of three digits. -/
def number : Draw Sample := do
  let size ← between 1 7
  let value ← between 0 (Positional.weight 10 size)
  let digits := Positional.decimal value
  if 3 < digits.length then
    let grouped := (← perMille) < 300
    return ⟨if grouped then NumberStyle.group '_' digits else digits, value⟩
  return ⟨digits, value⟩

/-- A sample in parentheses. -/
def parenthesized (sum : Draw Sample) : Draw Sample := do
  let inner ← sum
  let before ← spaces
  let after ← spaces
  return ⟨['('] ++ before ++ inner.source ++ after ++ [')'], inner.value⟩

/-- The extreme value of numbers of which there is a first. -/
def extreme (greatest : Bool) (first : Int) (rest : List Int) : Int :=
  rest.foldl (fun x y => if (if greatest then x < y else y < x) then y else x) first

/-- A call of a function with one to three arguments. -/
def call (sum : Draw Sample) : Draw Sample := do
  let greatest := (← draw) % 2 = 0
  let count ← between 1 3
  let first ← sum
  let rest ← several sum (count - 1)
  let before ← spaces
  let after ← spaces
  let name : Text := if greatest then ['m', 'a', 'x'] else ['m', 'i', 'n']
  let arguments := List.intercalate (before ++ [','] ++ after) ((first :: rest).map (·.source))
  return ⟨name ++ ['('] ++ arguments ++ [')'], extreme greatest first.value (rest.map (·.value))⟩

def negate (sample : Sample) : Sample := ⟨'-' :: sample.source, -sample.value⟩

/-- The number of minus signs before a factor, and the tape after them. A draw stands for a minus
sign when it falls into the range; the first that does not is left on the tape. -/
def minusSigns (low : Nat) : List Nat → Nat × List Nat
  | [] => (0, [])
  | t :: rest =>
    if low ≤ t % 1000 ∧ t % 1000 < 320 then
      let (signs, left) := minusSigns low rest
      (signs + 1, left)
    else (0, t :: rest)

/-- A factor: minus signs, then parentheses or a call, if sums may stand inside, or a number. -/
def factor (sum? : Option (Draw Sample)) : Draw Sample := do
  let signs ← minusSigns (if sum?.isSome then 220 else 0)
  let kind ← perMille
  let sample ←
    match sum? with
    | none => number
    | some sum => if kind < 150 then parenthesized sum else if kind < 220 then call sum else number
  return Nat.repeat negate signs sample

/-- A sample, an operator between spaces and another sample. -/
def joined (operator : Char) (left right : Sample) (value : Int) : Draw Sample := do
  let before ← spaces
  let after ← spaces
  return ⟨left.source ++ before ++ [operator] ++ after ++ right.source, value⟩

/-- A product of one to three factors. -/
def product (sum? : Option (Draw Sample)) : Draw Sample := do
  let first ← factor sum?
  let count ← between 0 2
  iterate (fun left => do
    let right ← factor sum?
    joined '*' left right (left.value * right.value)) count first

/-- A sum of one to four products. -/
def sumOf (sum? : Option (Draw Sample)) : Draw Sample := do
  let first ← product sum?
  let count ← between 0 3
  iterate (fun left => do
    let right ← product sum?
    if (← perMille) < 500 then joined '+' left right (left.value + right.value)
    else joined '-' left right (left.value - right.value)) count first

/-- A sum in which parentheses and calls are nested at most so deep. -/
def nested : Nat → Draw Sample
  | 0 => sumOf none
  | depth + 1 => sumOf (some (nested depth))

/-- The samples that a tape determines. -/
def fromTape (tape : List Nat) (count : Nat) : List Sample :=
  (several (nested 3) count tape).1

end Sample
end ExactCalc
