import ExactCalc.Span
import ExactCalc.Token

/-!
# What can go wrong

A refusal is the user's to mend: it has a cause and, nearly always, the span of the line to blame.
The causes are grouped by what finds them: reading the text, the order of the tokens, arithmetic,
a missing variable store, or the arguments of a command. A failure is a refusal, trouble outside
the calculator, or a defect, which nothing in the calculator reports. `message` gives the wording
of each.
-/
namespace ExactCalc

/-- Text that is not made of tokens. -/
inductive LexicalError where
  | nonAscii
  | invalidNumber (word : Text)
  | invalidVariable (word : Text)
  deriving DecidableEq, Repr

/-- What an operand can be missing from. -/
inductive Operator where
  | unary (op : UnaryOp)
  | binary (op : BinaryOp)
  deriving DecidableEq, Repr

/-- Tokens in an order that is no expression. -/
inductive GrammarError where
  | noInput
  | unexpectedToken (token : Token)
  | mismatchedOpen
  | mismatchedClose
  | emptyParens
  | missingOperand (op : Operator)
  | commaWithoutOperandBefore
  | commaWithoutOperandAfter
  | missingArgument (f : Func)
  | missingOperator
  /-- An operator that belongs to no tier. -/
  | unrankedOperator (op : BinaryOp)
  deriving DecidableEq, Repr

/-- Values that an operation does not take. -/
inductive MathError where
  | unknownVariable (name : Text)
  | divisionByZero
  | argumentsNeeded (f : Func)
  | unsupported
  | imaginaryResult
  deriving DecidableEq, Repr

/-- A part of the calculator that was not provided. -/
inductive CapabilityError where
  | noVariableStore
  deriving DecidableEq, Repr

/-- Arguments that a command does not take, or words from outside the calculator. -/
inductive ArgumentError where
  | consecutiveSigns
  | notAnInteger (token : Token)
  | fractional (value : Rat)
  | integerTooLarge
  | signWithoutInteger
  | tooManyArguments
  | notABoolean
  | radixTooSmall
  | radixTooLarge
  | precisionOutOfRange
  | extraOutOfRange
  | sumOutOfRange
  | unknownCommand (name : Text)
  | worded (text : Text)
  deriving DecidableEq, Repr

/-- Why a line is refused. -/
inductive Cause where
  | lexical (e : LexicalError)
  | grammar (e : GrammarError)
  | math (e : MathError)
  | capability (e : CapabilityError)
  | argument (e : ArgumentError)
  deriving DecidableEq, Repr

/-- A refused line: the cause, and what part of the line is to blame. -/
structure Refusal where
  cause : Cause
  span : Option Span
  deriving DecidableEq, Repr

/-- Trouble that is not the user's: a store that does not answer, or a command that breaks down.
The text is whatever the other side said. -/
inductive Outage where
  | load (name : Text) (text : Text)
  | save (name : Text) (text : Text)
  | command (text : Text)
  deriving DecidableEq, Repr

/-- A failure that is no report to the user: whoever asked for a result has to deal with it. -/
inductive Defect where
  /-- The statement had already run. -/
  | alreadyRun
  /-- The blame was put on offsets that are no span. -/
  | misplaced (e : InvalidSpan)
  /-- A number has so many digits that it cannot be read. -/
  | unreadable (digits : Nat)
  /-- A number has too many digits to be written into a message. -/
  | unwritable
  /-- A command that was added broke in a way of its own. -/
  | foreign (text : Text)
  deriving DecidableEq, Repr

/-- Why there is no result. -/
inductive Failure where
  | refused (r : Refusal)
  | outage (o : Outage)
  | defect (d : Defect)
  deriving DecidableEq, Repr

def LexicalError.message : LexicalError → Text
  | .nonAscii => "Non-ASCII data in input".toList
  | .invalidNumber word => "Unable to parse number: '".toList ++ word ++ "'".toList
  | .invalidVariable word => "Invalid variable name: '".toList ++ word ++ "'".toList

def Operator.label : Operator → Text
  | .unary op => op.label
  | .binary op => op.label

def GrammarError.message : GrammarError → Text
  | .noInput => "No input".toList
  | .unexpectedToken token => "Unexpected token encountered: ".toList ++ token.label
  | .mismatchedOpen => "Mismatched open parenthesis".toList
  | .mismatchedClose => "Mismatched close parenthesis".toList
  | .emptyParens => "Empty parentheses".toList
  | .missingOperand op => op.label ++ " is missing a required operand".toList
  | .commaWithoutOperandBefore => "Comma must follow an operand".toList
  | .commaWithoutOperandAfter => "Comma must be followed by an operand".toList
  | .missingArgument f =>
    "Functions without parentheses are assumed to have a single argument, ".toList ++
      "but none was found for ".toList ++ f.label
  | .missingOperator => "Missing an operator between two consecutive operands".toList
  | .unrankedOperator op => op.label ++ " has no tier".toList

def MathError.message : MathError → Text
  | .unknownVariable name => "Unknown variable: ".toList ++ name
  | .divisionByZero => "Cannot divide by 0".toList
  | .argumentsNeeded f => f.label ++ " has no arguments but requires them".toList
  | .unsupported => "Encountered operation that is not yet supported".toList
  | .imaginaryResult => "Result would be an imaginary number".toList

def CapabilityError.message : CapabilityError → Text
  | .noVariableStore => "Variable store unavailable".toList

def ArgumentError.message : ArgumentError → Text
  | .consecutiveSigns => "Two negative signs in a row".toList
  | .notAnInteger token => "Expected integer, found ".toList ++ token.label
  | .fractional value =>
    "Expected an integer, found decimal: ".toList ++ NumberStyle.exact value
  | .integerTooLarge => "Value must be representable as a 64-bit signed integer".toList
  | .signWithoutInteger => "Found negative sign without value".toList
  | .tooManyArguments => "Too many arguments".toList
  | .notABoolean => "Invalid argument".toList
  | .radixTooSmall => "Radix cannot be less than 2".toList
  | .radixTooLarge => "Radix cannot be greater than 16".toList
  | .precisionOutOfRange => "Precision must be between 0 and 255".toList
  | .extraOutOfRange => "Extra must be between 0 and 255".toList
  | .sumOutOfRange => "Sum of precision and extra must not exceed 255".toList
  | .unknownCommand name => "No such command: '".toList ++ name ++ "'".toList
  | .worded text => text

def Cause.message : Cause → Text
  | .lexical e => e.message
  | .grammar e => e.message
  | .math e => e.message
  | .capability e => e.message
  | .argument e => e.message

def Outage.message : Outage → Text
  | .load name text => "failed to load variable ".toList ++ name ++ ": ".toList ++ text
  | .save name text => "failed to store variable ".toList ++ name ++ ": ".toList ++ text
  | .command text => text

/-- How the message about a number begins that is not converted. -/
def overLimit : Text :=
  "Exceeds the limit (".toList ++ Positional.decimal Positional.digitLimit ++
    " digits) for integer string conversion".toList

def Defect.message : Defect → Text
  | .alreadyRun => "syntax tree has already been executed".toList
  | .misplaced e => e.message
  | .unreadable digits =>
    overLimit ++ ": value has ".toList ++ Positional.decimal digits ++ " digits".toList
  | .unwritable => overLimit
  | .foreign text => text

def Failure.message : Failure → Text
  | .refused r => r.cause.message
  | .outage o => o.message
  | .defect d => d.message

namespace Refusal

def lexical (e : Located LexicalError) : Refusal := ⟨.lexical e.val, some e.span⟩

def grammar (e : Located GrammarError) : Refusal := ⟨.grammar e.val, some e.span⟩

def math (e : MathError) (span : Span) : Refusal := ⟨.math e, some span⟩

def argument (e : ArgumentError) (span : Span) : Refusal := ⟨.argument e, some span⟩

/-- The refusal of a text that starts further right in the line. -/
def shift (offset : Nat) (r : Refusal) : Refusal := ⟨r.cause, r.span.map (Span.shift offset)⟩

/-- The line with a mark under the span to blame: a caret under its first character and tildes
under the others. Without a span it is the line alone. -/
def pointer (r : Refusal) (line : Text) : Text :=
  match r.span with
  | none => line
  | some s =>
    line ++ '\n' :: List.replicate s.start ' ' ++ '^' :: List.replicate (s.width - 1) '~'

end Refusal

/-- The failure of a text that starts further right in the line. Only a refusal has a place. -/
def Failure.shift (offset : Nat) : Failure → Failure
  | .refused r => .refused (r.shift offset)
  | other => other

end ExactCalc
