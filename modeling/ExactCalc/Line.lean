import ExactCalc.Fault
import ExactCalc.Token.Lexeme

/-!
# Lines

A line whose first character after blanks is a slash is a command: the word after the slash names
it and the text after the next blank is its arguments, left as they are. Any other line is an
expression and is read into tokens, one for each lexeme.
-/
namespace ExactCalc

/-- A command line. The span of the name takes in the slash. -/
structure CommandLine where
  name : Located Text
  arguments : Located Text
  deriving DecidableEq, Repr

inductive Line where
  | command (c : CommandLine)
  | expression (tokens : List (Located Token))
  deriving DecidableEq, Repr

/-- The command that a line is, if it is one. -/
def CommandLine.ofText? (line : Text) : Option CommandLine :=
  let indent := (line.takeWhile Text.isBlank).length
  match line.dropWhile Text.isBlank with
  | '/' :: rest =>
    let name := rest.takeWhile (!Text.isBlank ·)
    let nameSpan : Span := ⟨indent, name.length + 1⟩
    let arguments := (rest.dropWhile (!Text.isBlank ·)).drop 1
    let width := arguments.length
    some ⟨⟨name, nameSpan⟩, ⟨arguments, ⟨line.length - width, width⟩⟩⟩
  | _ => none

/-- The first character that is not ASCII, as an error in its place. -/
def Text.foreign? (line : Text) : Option (Located LexicalError) :=
  (line.findIdx? (!isAscii ·)).map fun i => ⟨.nonAscii, ⟨i, 1⟩⟩

/-- How a lexeme fails that is no token. The word is refused if it is no number, but nothing
catches a number that is too long. -/
def Token.unread (lexeme : Located Text) : Literal.Unread → Failure
  | .malformed => .refused (.lexical ⟨.invalidNumber lexeme.val, lexeme.span⟩)
  | .overlong digits => .defect (.unreadable digits)

/-- The token of a lexeme in its place. A word that is none is taken for a number. -/
def Token.ofLexeme (radix : Nat) (lexeme : Located Text) : Except Failure (Located Token) :=
  match ofText radix lexeme.val with
  | .ok token => .ok ⟨token, lexeme.span⟩
  | .error reason => .error (unread lexeme reason)

def Text.tokens (radix : Nat) (line : Text) : Except Failure (List (Located Token)) :=
  (lexemes line).mapM (Token.ofLexeme radix)

/-- Read a line with the numbers in a radix. A line that is not all ASCII is refused first. -/
def Line.read (radix : Nat) (line : Text) : Except Failure Line :=
  match line.foreign?, CommandLine.ofText? line with
  | some e, _ => .error (.refused (.lexical e))
  | none, some c => .ok (.command c)
  | none, none => (line.tokens radix).map .expression

end ExactCalc
