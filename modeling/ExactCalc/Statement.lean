import ExactCalc.Expr.Item

/-!
# Statements

A statement is an expression, with or without a variable that its value is assigned to. Tokens are
read from left to right. The reader keeps the row of items of the innermost open parenthesis,
what awaits the next operand (unary words, functions and the minus signs among them), and a stack
of the parentheses that are still open, each with the row it stands in. The stack has no bound, so
that expressions may be nested to any depth.
-/
namespace ExactCalc

/-- An expression and the variable that it is assigned to. -/
structure Statement where
  target : Option (Located Text)
  root : Expr
  deriving Repr

namespace Statement

/-- What awaits the operand to its right. -/
inductive Awaiting where
  | unary (op : UnaryOp) (span : Span)
  | func (f : Func) (span : Span)
  deriving DecidableEq, Repr

namespace Awaiting

/-- The expression that the operand completes. -/
def complete (operand : Expr) : Awaiting → Expr
  | unary op s => .unary op s operand
  | func f s => .apply f s operand

/-- The error when no operand comes. -/
def unmet : Awaiting → Located GrammarError
  | unary op s => ⟨.missingOperand (.unary op), s⟩
  | func f s => ⟨.missingArgument f, s⟩

end Awaiting

/-- An expression that has begun: its items, the last one first, and what awaits an operand, the
innermost first. -/
structure Level where
  items : List Item := []
  awaiting : List Awaiting := []
  deriving Repr

/-- An open parenthesis: of a group, or of the arguments of a function. The latter come with the
arguments read so far, the last one first, and the comma after them. -/
inductive Opening where
  | group (openSpan : Span)
  | call (f : Func) (nameSpan openSpan : Span) (operands : List Expr) (comma : Option Span)
  deriving Repr

/-- The reader between two tokens: the innermost level, and the open parentheses with the levels
that they stand in, the innermost first. -/
structure Reader where
  level : Level := {}
  outer : List (Opening × Level) := []
  deriving Repr

/-- A level with one more operand, which completes all that awaited one. -/
def Level.supply (level : Level) (operand : Expr) : Level :=
  ⟨.operand (level.awaiting.foldl Awaiting.complete operand) :: level.items, []⟩

/-- The expression of a level that has ended. -/
def Level.finish (level : Level) : Except (Located GrammarError) (Option Expr) :=
  match level.awaiting with
  | awaiting :: _ => .error awaiting.unmet
  | [] => Item.toExpr? level.items.reverse

namespace Reader

def supply (r : Reader) (operand : Expr) : Reader := ⟨r.level.supply operand, r.outer⟩

def await (r : Reader) (awaiting : Awaiting) : Reader :=
  ⟨⟨r.level.items, awaiting :: r.level.awaiting⟩, r.outer⟩

/-- Read a binary operator. Where an operand is awaited, only a minus sign may stand, and it is a
negation. -/
def operator (r : Reader) (op : BinaryOp) (span : Span) :
    Except (Located GrammarError) Reader :=
  match r.level.awaiting, op with
  | [], _ => .ok ⟨⟨.operator op span :: r.level.items, []⟩, r.outer⟩
  | _ :: _, .subtract => .ok (r.await (.unary .negate span))
  | _ :: _, _ => .error ⟨.unexpectedToken (.binary op), span⟩

/-- Read an open parenthesis. Right after a function it opens the arguments of that function. -/
def openParen (r : Reader) (span : Span) : Reader :=
  match r.level.awaiting with
  | .func f nameSpan :: awaiting =>
    ⟨{}, (.call f nameSpan span [] none, ⟨r.level.items, awaiting⟩) :: r.outer⟩
  | _ => ⟨{}, (.group span, r.level) :: r.outer⟩

/-- The expression of the innermost level once that level has ended. After the comma of an
argument list it may not be absent. -/
def finishLevel (r : Reader) : Except (Located GrammarError) (Option Expr) := do
  match ← r.level.finish, r.outer with
  | none, (.call _ _ _ _ (some comma), _) :: _ => .error ⟨.commaWithoutOperandAfter, comma⟩
  | e, _ => .ok e

/-- Read a comma, which only parts the arguments of a function. -/
def comma (r : Reader) (span : Span) : Except (Located GrammarError) Reader := do
  match ← r.finishLevel, r.outer with
  | some e, (.call f nameSpan openSpan operands _, level) :: outer =>
    .ok ⟨{}, (.call f nameSpan openSpan (e :: operands) (some span), level) :: outer⟩
  | none, (.call .., _) :: _ => .error ⟨.commaWithoutOperandBefore, span⟩
  | _, _ => .error ⟨.unexpectedToken .comma, span⟩

/-- Read a close parenthesis. -/
def closeParen (r : Reader) (span : Span) : Except (Located GrammarError) Reader := do
  match ← r.finishLevel, r.outer with
  | some e, (.group openSpan, level) :: outer =>
    .ok ⟨level.supply (.parens openSpan span e), outer⟩
  | none, (.group openSpan, _) :: _ => .error ⟨.emptyParens, openSpan.cover span⟩
  | e, (.call f nameSpan openSpan operands _, level) :: outer =>
    let all := (e.toList ++ operands).reverse
    .ok ⟨level.supply (.call f nameSpan openSpan span all), outer⟩
  | _, [] => .error ⟨.mismatchedClose, span⟩

def step (r : Reader) (token : Located Token) : Except (Located GrammarError) Reader :=
  match token.val with
  | .number value => .ok (r.supply (.number value token.span))
  | .var name => .ok (r.supply (.var name token.span))
  | .unary w => .ok (r.await (.unary (.word w) token.span))
  | .func f => .ok (r.await (.func f token.span))
  | .binary op => r.operator op token.span
  | .openParen => .ok (r.openParen token.span)
  | .closeParen => r.closeParen token.span
  | .comma => r.comma token.span
  | .assign => .error ⟨.unexpectedToken .assign, token.span⟩

/-- The expression that has been read when no token is left. Without any, the start of the line is
to blame. -/
def finish (r : Reader) : Except (Located GrammarError) Expr := do
  match ← r.finishLevel, r.outer with
  | some e, [] => .ok e
  | none, [] => .error ⟨.noInput, ⟨0, 0⟩⟩
  | _, (.group openSpan, _) :: _ => .error ⟨.mismatchedOpen, openSpan⟩
  | _, (.call _ _ openSpan _ _, _) :: _ => .error ⟨.mismatchedOpen, openSpan⟩

end Reader

/-- The variable that the tokens assign to, and the tokens of the expression. -/
def splitTarget : List (Located Token) → Option (Located Text) × List (Located Token)
  | ⟨.var name, span⟩ :: ⟨.assign, _⟩ :: rest => (some ⟨name, span⟩, rest)
  | tokens => (none, tokens)

def readExpr (tokens : List (Located Token)) : Except (Located GrammarError) Expr := do
  (← tokens.foldlM Reader.step {}).finish

def read (tokens : List (Located Token)) : Except (Located GrammarError) Statement := do
  let (target, rest) := splitTarget tokens
  return ⟨target, ← readExpr rest⟩

end Statement
end ExactCalc
