import ExactCalc.Command.Answer
import ExactCalc.Statement.Execution

/-!
# Answering lines

Each line of input is answered by a text or a failure and leaves a new session. A line that fails
changes nothing but use marks: an expression marks the variables it mentions before anything else
can go wrong with it, and a command of the calculator writes only when nothing can go wrong with it
any more.
-/
namespace ExactCalc.Session

def runCommand (commands : Registry) (line : Option Int) (c : CommandLine) :
    Effect Session Text := do
  let d ← Effect.checked (commands.lookup c.name)
  let reply ← Command.run d.action commands c.arguments
  modify (·.touch line reply.touched)
  return reply.output

def mentioned (tokens : List (Located Token)) : List Text :=
  tokens.filterMap fun token =>
    match token.val with
    | .var name => some name
    | _ => none

def onStore {α : Type} (x : Effect (Option Memory) α) : Effect Session α :=
  ExceptT.mk fun session =>
    let (result, store) := x.outcome session.store
    (result, { session with store := store })

def evaluate (line : Option Int) (tokens : List (Located Token)) : Effect Session Rat := do
  let statement ← Effect.checked ((Statement.read tokens).mapError .grammar)
  onStore (statement.execute (← get).accuracy line)

/-- Run an expression. No tokens are no expression, and no error. -/
def runExpression (line : Option Int) (tokens : List (Located Token)) : Effect Session Text := do
  modify (·.touch line (mentioned tokens))
  if tokens = [] then return []
  let value ← evaluate line tokens
  return (← get).settings.display value

/-- Answer one line of input, whose number is given for the use marks. -/
def respond (commands : Registry) (number : Option Int) (line : Text) : Effect Session Text := do
  match ← Effect.ofResult (Line.read (← get).settings.radix.toNat line) with
  | .command c => runCommand commands number c
  | .expression tokens => runExpression number tokens

/-- What one line of input is answered with, and the session after it. -/
def calculate (commands : Registry) (number : Option Int) (line : Text) (session : Session) :
    Except Failure Text × Session :=
  (respond commands number line).outcome session

/-- Answer lines one after the other. The first has the given number and each later one the next;
lines without numbers stay without. With each answer comes the session after it. -/
def answers (commands : Registry) (number : Option Int) (session : Session) :
    List Text → List (Except Failure Text × Session)
  | [] => []
  | line :: rest =>
    let answered := session.calculate commands number line
    answered :: answers commands (number.map (· + 1)) answered.2 rest

end ExactCalc.Session
