import ExactCalc.Console
import ExactCalc.Options

/-!
# The program

The program reads its command line and then either answers the one line that is given there or
all lines of its input. Where it prints and where the lines come from is left open, so that it runs
on a terminal as well as on texts.
-/
namespace ExactCalc

/-- The two streams that a program prints to, for results and for errors. -/
structure Streams (m : Type → Type) where
  out : Text → m Unit
  err : Text → m Unit

namespace Program

variable {m : Type → Type} [Monad m]

/-- Answer a line that the command line gives, with errors apart from results. -/
def answerOne (streams : Streams m) (settings : Settings) (line : Text) :
    m (Except Defect Nat) := do
  match (Console.runLine .default (some 0) true line ⟨settings, some {}⟩).1 with
  | .ok printed =>
    streams.out printed.out
    streams.err printed.err
    return .ok (if printed.succeeded then 0 else 1)
  | .error d => return .error d

/-- Answer the lines of the input, with errors among the results. -/
def answerAll {ρ : Type} [ForIn m ρ Text] (streams : Streams m) (settings : Settings)
    (interactive : Bool) (lines : ρ) : m (Except Defect Nat) := do
  let ended ← Console.converseOn streams.out .default interactive lines ⟨settings, some {}⟩
  match ended.defect with
  | none => return .ok 0
  | some d => return .error d

/-- Run the program on the words of the command line and the lines of an input, which may be a
terminal. It ends with an exit status, unless a defect breaks it off. -/
def run {ρ : Type} [ForIn m ρ Text] (streams : Streams m) (words : List Text)
    (interactive : Bool) (lines : ρ) : m (Except Defect Nat) := do
  match Options.read words with
  | .error fault =>
    streams.err (Options.usage ++ Console.ended fault.message)
    return .ok 2
  | .ok .help =>
    streams.out Options.usage
    return .ok 0
  | .ok (.calculate o) =>
    match o.input with
    | some line => answerOne streams o.settings line
    | none => answerAll streams o.settings interactive lines

end Program
end ExactCalc
