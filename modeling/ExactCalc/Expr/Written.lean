import ExactCalc.Statement

/-!
# Written expressions

How trees relate to the tokens that they are read from. `Expr.tokens` writes a tree out again.
`Expr.IsTiered` says which trees respect the tiers of the operators, so that no parentheses are
missing where the tree is written, and `Expr.IsPlain` that no operand is taken for the arguments of
a function. `Expr.erase` forgets all places, for trees that differ in nothing else.
-/
namespace ExactCalc

def UnaryOp.token : UnaryOp → Token
  | .negate => .binary .subtract
  | .word w => .unary w

/-- The number of a binary operator's tier; the tightest is zero. -/
def BinaryOp.tier : BinaryOp → Nat
  | .exponent => 0
  | .modulus => 1
  | .multiply | .divide => 2
  | .add | .subtract => 3

namespace Expr

mutual

/-- The tokens that an expression is written with. -/
def tokens : Expr → List Token
  | number value _ => [.number value]
  | var name _ => [.var name]
  | unary op _ operand => op.token :: operand.tokens
  | binary op _ left right => left.tokens ++ .binary op :: right.tokens
  | apply f _ operand => .func f :: operand.tokens
  | call f _ _ _ operands => .func f :: .openParen :: (argumentTokens operands ++ [.closeParen])
  | parens _ _ inner => .openParen :: (inner.tokens ++ [.closeParen])

def argumentTokens : List Expr → List Token
  | [] => []
  | [e] => e.tokens
  | e :: rest => e.tokens ++ .comma :: argumentTokens rest

end

/-- The tier of the binary operator that joins the two halves of an expression. Any other expression
holds together by itself. -/
def tier? : Expr → Option Nat
  | binary op _ _ _ => some op.tier
  | _ => none

mutual

/-- Whether an expression respects the tiers. On the left of a binary operator stands no operator
of a looser tier, on its right none of a looser or the same tier, and neither a unary operator nor
a function without parentheses stands before a binary operator's expression. -/
def IsTiered : Expr → Prop
  | number _ _ => True
  | var _ _ => True
  | unary _ _ operand => operand.tier? = none ∧ operand.IsTiered
  | binary op _ left right =>
    (∀ t ∈ left.tier?, t ≤ op.tier) ∧ (∀ t ∈ right.tier?, t < op.tier) ∧
      left.IsTiered ∧ right.IsTiered
  | apply _ _ operand => operand.tier? = none ∧ operand.IsTiered
  | call _ _ _ _ operands => AllTiered operands
  | parens _ _ inner => inner.IsTiered

def AllTiered : List Expr → Prop
  | [] => True
  | e :: rest => e.IsTiered ∧ AllTiered rest

end

mutual

/-- Whether every function that is written without parentheses stands before an operand that does
not begin with one, which would be read as the parenthesis of its arguments. -/
def IsPlain : Expr → Prop
  | number _ _ => True
  | var _ _ => True
  | unary _ _ operand => operand.IsPlain
  | binary _ _ left right => left.IsPlain ∧ right.IsPlain
  | apply _ _ operand => operand.tokens.head? ≠ some .openParen ∧ operand.IsPlain
  | call _ _ _ _ operands => AllPlain operands
  | parens _ _ inner => inner.IsPlain

def AllPlain : List Expr → Prop
  | [] => True
  | e :: rest => e.IsPlain ∧ AllPlain rest

end

mutual

/-- The expression with all places at the start of the line. -/
def erase : Expr → Expr
  | number value _ => number value ⟨0, 0⟩
  | var name _ => var name ⟨0, 0⟩
  | unary op _ operand => unary op ⟨0, 0⟩ operand.erase
  | binary op _ left right => binary op ⟨0, 0⟩ left.erase right.erase
  | apply f _ operand => apply f ⟨0, 0⟩ operand.erase
  | call f _ _ _ operands => call f ⟨0, 0⟩ ⟨0, 0⟩ ⟨0, 0⟩ (eraseAll operands)
  | parens _ _ inner => parens ⟨0, 0⟩ ⟨0, 0⟩ inner.erase

def eraseAll : List Expr → List Expr
  | [] => []
  | e :: rest => e.erase :: eraseAll rest

end

end Expr

def Statement.tokens (s : Statement) : List Token :=
  match s.target with
  | none => s.root.tokens
  | some name => .var name.val :: .assign :: s.root.tokens

end ExactCalc
