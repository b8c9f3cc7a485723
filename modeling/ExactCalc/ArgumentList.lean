import ExactCalc.Line

/-!
# Lists of arguments

Some commands take a list of variable names and some a list of integers. Either list is read from
the tokens of the argument text; blanks between the items are optional where tokens end anyway.
-/
namespace ExactCalc.ArgumentList

/-- The largest integer that a list may hold. -/
def largest : Nat := 0x7fffffffffffffff

/-- The word that stands for a command where none may stand: its name with the slash. -/
def slashed (c : CommandLine) : Text := '/' :: c.name.val

/-- A word that is no number is no variable either. -/
def asVariable : Failure → Failure
  | .refused ⟨.lexical (.invalidNumber word), span⟩ =>
    .refused ⟨.lexical (.invalidVariable word), span⟩
  | other => other

/-- The name of the variable that a token is; any other token is blamed by its own text. -/
def nameOf (source : Text) (token : Located Token) : Except Failure (Located Text) :=
  match token.val with
  | .var name => .ok ⟨name, token.span⟩
  | _ => .error (.refused (.lexical ⟨.invalidVariable (token.span.slice source), token.span⟩))

def names (source : Text) : Except Failure (List (Located Text)) :=
  match Line.read 10 source with
  | .error e => .error (asVariable e)
  | .ok (.command c) => .error (.refused (.lexical ⟨.invalidVariable (slashed c), c.name.span⟩))
  | .ok (.expression tokens) => tokens.mapM (nameOf source)

/-- Whether a number can be written with its numerator and denominator in decimal. -/
def IsWritable (value : Rat) : Prop :=
  value.num.natAbs < Positional.weight 10 Positional.digitLimit ∧
    value.den < Positional.weight 10 Positional.digitLimit

instance (value : Rat) : Decidable (IsWritable value) := inferInstanceAs (Decidable (_ ∧ _))

/-- The integer of an unsigned number. A message about a fraction has to write it. -/
def magnitude (value : Rat) (span : Span) : Except Failure Nat :=
  if value.den ≠ 1 then
    if IsWritable value then .error (.refused (.argument (.fractional value) span))
    else .error (.defect .unwritable)
  else if value.num > largest then .error (.refused (.argument .integerTooLarge span))
  else .ok value.num.toNat

/-- The integers of a row of tokens, where a minus sign may have been read just before. -/
def signedIntegers (sign : Option Span) :
    List (Located Token) → Except Failure (List (Located Int))
  | [] =>
    match sign with
    | some s => .error (.refused (.argument .signWithoutInteger s))
    | none => .ok []
  | ⟨.binary .subtract, span⟩ :: rest =>
    match sign with
    | some s => .error (.refused (.argument .consecutiveSigns (s.cover span)))
    | none => signedIntegers (some span) rest
  | ⟨.number value, span⟩ :: rest => do
    let n ← magnitude value span
    let item : Located Int :=
      match sign with
      | some s => ⟨-n, s.cover span⟩
      | none => ⟨n, span⟩
    return item :: (← signedIntegers none rest)
  | ⟨token, span⟩ :: _ => .error (.refused (.argument (.notAnInteger token) span))

/-- Read a list of integers in a radix. The magnitude of each is at most `largest`. -/
def integers (radix : Nat) (source : Text) : Except Failure (List (Located Int)) :=
  match Line.read radix source with
  | .error e => .error e
  | .ok (.command c) => .error (.refused (.lexical ⟨.invalidNumber (slashed c), c.name.span⟩))
  | .ok (.expression tokens) => signedIntegers none tokens

end ExactCalc.ArgumentList
