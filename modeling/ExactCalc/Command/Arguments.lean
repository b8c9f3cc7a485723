import ExactCalc.ArgumentList

/-!
# Arguments of commands

The arguments of a command are the text after its name, and each command reads that text in its
own way: as integers, as variable names, or as one word. The places of what is read, and of what
is refused, are places in the whole line.
-/
namespace ExactCalc.Command

/-- Read a list from argument text, with its places in the whole line. -/
def inLine {α : Type} (arguments : Located Text)
    (read : Text → Except Failure (List (Located α))) : Except Failure (List (Located α)) :=
  match read arguments.val with
  | .ok items => .ok (items.map (·.shift arguments.span.start))
  | .error e => .error (e.shift arguments.span.start)

/-- The integers among the arguments of a command, which are always in radix ten. -/
def integers (arguments : Located Text) : Except Failure (List (Located Int)) :=
  inLine arguments (ArgumentList.integers 10)

def names (arguments : Located Text) : Except Failure (List (Located Text)) :=
  inLine arguments ArgumentList.names

/-- The arguments of a command as one word, whose case does not matter. -/
def word (arguments : Located Text) : Text :=
  Text.lowered (Text.trim Text.isSpacing arguments.val)

/-- The error of arguments that are one too many, from the first of them to the last. -/
def tooMany (first last : Located Int) : Refusal :=
  .argument .tooManyArguments (first.span.cover last.span)

def boolean? (arguments : Located Text) : Except Failure (Option Bool) :=
  if word arguments = [] then .ok none
  else if word arguments = ['t'] ∨ word arguments = ['t', 'r', 'u', 'e'] then .ok (some true)
  else if word arguments = ['f'] ∨ word arguments = ['f', 'a', 'l', 's', 'e'] then .ok (some false)
  else .error (.refused (.argument .notABoolean arguments.span))

def radix? (arguments : Located Text) : Except Failure (Option Int) := do
  match ← integers arguments with
  | [] => .ok none
  | [radix] =>
    if radix.val < 2 then .error (.refused (.argument .radixTooSmall radix.span))
    else if 16 < radix.val then .error (.refused (.argument .radixTooLarge radix.span))
    else .ok (some radix.val)
  | first :: second :: rest => .error (.refused (tooMany first (rest.getLastD second)))

end ExactCalc.Command
