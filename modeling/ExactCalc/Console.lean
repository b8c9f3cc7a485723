import ExactCalc.Session.Calculate

/-!
# The console

The console prints what a line of input answers. A failure is printed with its wording and, where
a part of the line is to blame, with that line and a mark under the part. Lines that are read one
after the other are numbered from zero, those that fail included. A defect is not printed: it ends
the conversation, and what was printed before stays printed.
-/
namespace ExactCalc.Console

/-- What one line prints, and whether it succeeded. -/
structure Printed where
  succeeded : Bool
  out : Text
  err : Text
  deriving DecidableEq, Repr

/-- A text on lines of its own. -/
def ended (text : Text) : Text := text ++ ['\n']

/-- The line with a mark under what is to blame, if anything is. -/
def pointed (failure : Failure) (line : Text) : Text :=
  match failure with
  | .refused r => if r.span.isSome then ended (r.pointer line) else []
  | _ => []

def report (failure : Failure) (line : Text) : Text :=
  ended ("Error: ".toList ++ failure.message) ++ pointed failure line

/-- What is printed of an answer. Of an empty one it is nothing. -/
def printedAnswer (output : Text) : Printed := ⟨true, if output = [] then [] else ended output, []⟩

/-- What is printed of a failure. A report goes where results go, unless errors are kept apart. -/
def printedFailure (separate : Bool) (failure : Failure) (line : Text) : Printed :=
  if separate then ⟨false, [], report failure line⟩ else ⟨false, report failure line, []⟩

/-- What is printed of what a line is answered with, or the defect that no report is made of. -/
def printedResult (separate : Bool) (line : Text) : Except Failure Text → Except Defect Printed
  | .ok output => .ok (printedAnswer output)
  | .error (.defect d) => .error d
  | .error failure => .ok (printedFailure separate failure line)

/-- Answer one line: what is printed, and the session after it. -/
def runLine (commands : Registry) (number : Option Int) (separate : Bool) (line : Text)
    (session : Session) : Except Defect Printed × Session :=
  let (answer, after) := session.calculate commands number line
  (printedResult separate line answer, after)

/-- The characters that end a line, which are no part of it. -/
def isLineEnd (c : Char) : Bool := c = '\r' || c = '\n'

/-- What is printed before each line is read from a terminal. -/
def prompt : Text := ['#', ' ']

def promptFor (interactive : Bool) : Text := if interactive then prompt else []

/-- How far a conversation has come: the number of the next line, the session, and the defect that
ended it, if one did. -/
structure Conversation where
  number : Nat := 0
  session : Session
  defect : Option Defect := none
  deriving DecidableEq, Repr

section Loop

variable {m : Type → Type} [Monad m]

/-- Answer the next line and prompt for one more. -/
def step (print : Text → m Unit) (commands : Registry) (interactive : Bool) (line : Text)
    (c : Conversation) : m (ForInStep Conversation) :=
  match runLine commands (some c.number) false (Text.dropTrailing isLineEnd line) c.session with
  | (.ok printed, after) => do
    print printed.out
    print (promptFor interactive)
    return .yield ⟨c.number + 1, after, none⟩
  | (.error d, after) => return .done ⟨c.number, after, some d⟩

/-- Answer lines, wherever they come from and however they are printed. -/
def converseOn {ρ : Type} [ForIn m ρ Text] (print : Text → m Unit) (commands : Registry)
    (interactive : Bool) (lines : ρ) (session : Session) : m Conversation := do
  print (promptFor interactive)
  forIn lines { session := session } (step print commands interactive)

end Loop

/-- Printing that only keeps what is printed. -/
def record (text : Text) : StateM Text Unit := modify (· ++ text)

/-- Answer all lines of an input, beginning without variables: how the conversation ends, and all
that is printed. -/
def converse (commands : Registry) (interactive : Bool) (settings : Settings) (input : Text) :
    Conversation × Text :=
  (converseOn record commands interactive (Text.lines input) ⟨settings, some {}⟩).run []

end ExactCalc.Console
