import ExactCalc.Proofs.Lexeme.Meaning

/-!
# How tokens are spelled

All tokens but numbers are written in one way only.
-/
namespace ExactCalc

/-- The character that a binary operator is written with. -/
def BinaryOp.symbol : BinaryOp → Char
  | add => '+'
  | subtract => '-'
  | multiply => '*'
  | divide => '/'
  | modulus => '%'
  | exponent => '^'

def UnaryWord.word : UnaryWord → Text
  | squareRoot => ['s', 'q', 'r', 't']
  | absolute => ['a', 'b', 's']

def Func.word : Func → Text
  | max => ['m', 'a', 'x']
  | min => ['m', 'i', 'n']

def Operator.spelling : Operator → Text
  | unary .negate => ['-']
  | unary (.word w) => w.word
  | binary op => [op.symbol]

namespace Token

/-- How a token is written. Numbers may be written in more than one way. -/
def spelling? : Token → Option Text
  | var name => some name
  | number _ => none
  | binary op => some [op.symbol]
  | unary w => some w.word
  | func f => some f.word
  | assign => some ['=']
  | comma => some [',']
  | openParen => some ['(']
  | closeParen => some [')']

theorem Denotes.eq_spelling {radix : Nat} {text word : Text} {t : Token}
    (denotes : Denotes radix text t) (spelling : t.spelling? = some word) : text = word := by
  refine Option.some.inj (Eq.trans ?_ spelling)
  cases denotes with
  | var name => rfl
  | number literal => cases spelling
  | symbol symbol =>
    unfold ofSymbol? at symbol
    split at symbol <;> cases symbol <;> rfl
  | keyword keyword =>
    rcases word_of_keyword keyword with rfl | rfl | rfl | rfl <;> cases keyword <;> rfl

theorem Denotes.var_head {radix : Nat} {text name : Text}
    (denotes : Denotes radix text (.var name)) : name.head? = some '$' := by
  cases denotes with
  | var name => rfl
  | symbol symbol =>
    unfold ofSymbol? at symbol
    split at symbol <;> cases symbol
  | keyword keyword =>
    rcases word_of_keyword keyword with rfl | rfl | rfl | rfl <;> cases keyword

end Token
end ExactCalc
