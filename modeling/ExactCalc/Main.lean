import ExactCalc.Program

/-!
# The executable

The program on the standard streams.
-/
namespace ExactCalc

def printTo (stream : IO.FS.Stream) (text : Text) : IO Unit := do
  stream.putStr (String.ofList text)
  stream.flush

/-- The lines of a stream, which are read one by one when they are asked for. -/
structure StreamLines where
  stream : IO.FS.Stream

/-- Go through the lines of a stream until it ends. -/
partial def StreamLines.go {β : Type} (lines : StreamLines) (state : β)
    (visit : Text → β → IO (ForInStep β)) : IO β := do
  let line ← lines.stream.getLine
  if line.isEmpty then return state
  match ← visit line.toList state with
  | .done state => return state
  | .yield state => lines.go state visit

instance : ForIn IO StreamLines Text where
  forIn := StreamLines.go

end ExactCalc

open ExactCalc in
def main (words : List String) : IO UInt32 := do
  let input ← IO.getStdin
  let streams : Streams IO := ⟨printTo (← IO.getStdout), printTo (← IO.getStderr)⟩
  match ← Program.run streams (words.map String.toList) (← input.isTty) (StreamLines.mk input) with
  | .ok status => return status.toUInt32
  | .error d =>
    streams.err (Console.ended d.message)
    return 1
