import ExactCalc.Numeral.Display

/-!
# Tokens

A token is a variable, a number, an operator, a function name or a punctuation mark. Ten tokens
are written with one character each; the others are words. `label` is what a message calls an
operator, a function or a token.
-/
namespace ExactCalc

/-- The operators that stand between two operands. -/
inductive BinaryOp where
  | add | subtract | multiply | divide | modulus | exponent
  deriving DecidableEq, Repr

/-- The words that stand before one operand. -/
inductive UnaryWord where
  | squareRoot | absolute
  deriving DecidableEq, Repr

/-- The operators that have one operand: a word, or a minus sign read as negation. -/
inductive UnaryOp where
  | negate
  | word (w : UnaryWord)
  deriving DecidableEq, Repr

/-- The functions of any number of arguments. -/
inductive Func where
  | max | min
  deriving DecidableEq, Repr

/-- What an expression is written with. -/
inductive Token where
  | var (name : Text)
  | number (value : Rat)
  | binary (op : BinaryOp)
  | unary (w : UnaryWord)
  | func (f : Func)
  | assign | comma | openParen | closeParen
  deriving DecidableEq, Repr

def BinaryOp.label : BinaryOp → Text
  | .add => "Addition Operator (+)".toList
  | .subtract => "Subtraction Operator (-)".toList
  | .multiply => "Multiplication Operator (*)".toList
  | .divide => "Division Operator (/)".toList
  | .modulus => "Modulus Operator (%)".toList
  | .exponent => "Exponentiation Operator (^)".toList

def UnaryWord.label : UnaryWord → Text
  | .squareRoot => "Square Root Operator (sqrt)".toList
  | .absolute => "Absolute Value Operator (abs)".toList

def UnaryOp.label : UnaryOp → Text
  | .negate => "Negation Operator (-)".toList
  | .word w => w.label

def Func.label : Func → Text
  | .max => "Max Function".toList
  | .min => "Min Function".toList

namespace Token

def label : Token → Text
  | .var name => "Variable '".toList ++ name ++ "'".toList
  | .number value => "Number (".toList ++ NumberStyle.exact value ++ ")".toList
  | .binary op => op.label
  | .unary w => w.label
  | .func f => f.label
  | .assign => "Assignment Operator (=)".toList
  | .comma => "Comma".toList
  | .openParen => "Open Parenthesis".toList
  | .closeParen => "Close Parenthesis".toList

/-- The tokens that are written with one character. -/
def ofSymbol? : Char → Option Token
  | '+' => some (.binary .add)
  | '-' => some (.binary .subtract)
  | '*' => some (.binary .multiply)
  | '/' => some (.binary .divide)
  | '%' => some (.binary .modulus)
  | '^' => some (.binary .exponent)
  | '(' => some .openParen
  | ')' => some .closeParen
  | '=' => some .assign
  | ',' => some .comma
  | _ => none

/-- The words with a meaning of their own. -/
def ofKeyword? (word : Text) : Option Token :=
  if word = ['s', 'q', 'r', 't'] then some (.unary .squareRoot)
  else if word = ['a', 'b', 's'] then some (.unary .absolute)
  else if word = ['m', 'a', 'x'] then some (.func .max)
  else if word = ['m', 'i', 'n'] then some (.func .min)
  else none

end Token
end ExactCalc
