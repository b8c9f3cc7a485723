import ExactCalc.Expr
import ExactCalc.Fault

/-!
# Flat expressions

Between its parentheses and commas an expression is a flat row of operands and binary operators.
The row becomes a tree in two stages. First a minus sign that cannot be a subtraction, because
nothing or an operator stands before it, joins the operand after it as a negation. Then the
operators are joined with their operands tier by tier, the tightest tier first and each tier from
left to right. Only a row in which operands and operators alternate ends as one operand; of any
other row the leftmost defect is reported.
-/
namespace ExactCalc

/-- An operand or an operator of a flat expression. -/
inductive Item where
  | operand (e : Expr)
  | operator (op : BinaryOp) (span : Span)
  deriving Repr

/-- The tiers of operators, from the tightest to the loosest. -/
def BinaryOp.tiers : List (List BinaryOp) :=
  [[.exponent], [.modulus], [.multiply, .divide], [.add, .subtract]]

namespace Item

/-- Whether an operator after these items (the nearest first) stands where an operand begins. -/
def operandExpected : List Item → Bool
  | [] => true
  | .operator _ _ :: _ => true
  | .operand _ :: _ => false

def putBack (held : Option Expr) (row : List Item) : List Item :=
  match held with
  | some e => .operand e :: row
  | none => row

/-- Fold negations from the right. The first argument is the operand that stands next on the
right, the second the items on the left, the nearest first, and the third the finished items. -/
def sweepNegations (held : Option Expr) : List Item → List Item → List Item
  | [], done => putBack held done
  | .operand e :: left, done => sweepNegations (some e) left (putBack held done)
  | .operator op s :: left, done =>
    match held with
    | none => sweepNegations none left (.operator op s :: done)
    | some e =>
      if op = .subtract ∧ operandExpected left then
        sweepNegations (some (.unary .negate s e)) left done
      else sweepNegations none left (.operator op s :: .operand e :: done)

/-- Turn every minus sign that cannot be a subtraction, and that a chain of such signs connects to
an operand, into a negation of that operand. -/
def foldNegations (row : List Item) : List Item := sweepNegations none row.reverse []

/-- Add an item to the right of a row, given with the last item first. An operand joins the
operator and the operand before it when the operator is of the tier. -/
def join (tier : List BinaryOp) (row : List Item) (item : Item) : List Item :=
  match item, row with
  | .operand right, .operator op s :: .operand left :: rest =>
    if op ∈ tier then .operand (.binary op s left right) :: rest else item :: row
  | _, _ => item :: row

/-- Join the operators of one tier with their operands, from left to right. -/
def reduceTier (row : List Item) (tier : List BinaryOp) : List Item :=
  (row.foldl (join tier) []).reverse

def reduce (row : List Item) : List Item :=
  BinaryOp.tiers.foldl reduceTier (foldNegations row)

/-- The one operand of a reduced row, or nothing for an empty row, or the leftmost defect. -/
def single? : List Item → Except (Located GrammarError) (Option Expr)
  | [] => .ok none
  | .operator op s :: _ => .error ⟨.missingOperand (.binary op), s⟩
  | [.operand e] => .ok (some e)
  | .operand e :: .operand e' :: _ => .error ⟨.missingOperator, e.span.gap e'.span⟩
  | .operand _ :: .operator op s :: .operand _ :: _ => .error ⟨.unrankedOperator op, s⟩
  | .operand _ :: .operator op s :: _ => .error ⟨.missingOperand (.binary op), s⟩

/-- The expression that a flat row denotes, if the row is not empty. -/
def toExpr? (row : List Item) : Except (Located GrammarError) (Option Expr) :=
  single? (reduce row)

end Item
end ExactCalc
