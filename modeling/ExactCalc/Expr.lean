import ExactCalc.Span
import ExactCalc.Token

/-!
# Expressions

An expression tree keeps the place of everything it was read from: its leaves, its operators, the
names of its functions and its parentheses. Parentheses are nodes of their own. A function stands
either before one operand (`apply`) or before a list of operands in parentheses (`call`).
-/
namespace ExactCalc

/-- An expression tree. -/
inductive Expr where
  | number (value : Rat) (span : Span)
  | var (name : Text) (span : Span)
  | unary (op : UnaryOp) (opSpan : Span) (operand : Expr)
  | binary (op : BinaryOp) (opSpan : Span) (left right : Expr)
  | apply (f : Func) (nameSpan : Span) (operand : Expr)
  | call (f : Func) (nameSpan openSpan closeSpan : Span) (operands : List Expr)
  | parens (openSpan closeSpan : Span) (inner : Expr)
  deriving Repr

namespace Expr

/-- The span of an expression: the smallest that holds all it was read from. -/
def span : Expr → Span
  | number _ s => s
  | var _ s => s
  | unary _ s operand => s.cover operand.span
  | binary _ s left right => s.cover (left.span.cover right.span)
  | apply _ s operand => s.cover operand.span
  | call _ s openSpan closeSpan _ => s.cover (openSpan.cover closeSpan)
  | parens openSpan closeSpan _ => openSpan.cover closeSpan

end Expr
end ExactCalc
