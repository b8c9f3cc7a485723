import ExactCalc.Proofs.Reading.Standing
import ExactCalc.Statement.Execution

/-!
# Expressions without a value

Evaluation ends at the first variable without a value and at the first operation that does not take
its operands. The refusal has the place of a token of the expression: that of the variable, or that
of the operation. The errors of reading are placed by `Statement.standsAt_of_read`; those of
evaluation are placed here, along the tree.
-/
namespace ExactCalc

open Located

/-- A value that an operation does not take is blamed on the token of the operation, and a variable
without a value on its own. -/
def MathError.StandsAt (tokens : List (Located Token)) (s : Span) : MathError → Prop
  | unknownVariable name => ⟨.var name, s⟩ ∈ tokens
  | divisionByZero => ∃ op ∈ [BinaryOp.divide, .modulus, .exponent], ⟨.binary op, s⟩ ∈ tokens
  | argumentsNeeded f => ⟨.func f, s⟩ ∈ tokens
  | unsupported => ⟨.unary .squareRoot, s⟩ ∈ tokens
  | imaginaryResult => ⟨.binary .exponent, s⟩ ∈ tokens

/-- Where on the tokens of an expression a cause stands. Text that is not made of tokens and the
arguments of commands are no matter of expressions. -/
def Cause.StandsAt (tokens : List (Located Token)) (s : Span) : Cause → Prop
  | grammar e => e.StandsAt tokens s
  | math e => e.StandsAt tokens s
  | capability .noVariableStore => ∃ name, ⟨.var name, s⟩ ∈ tokens
  | lexical _ => False
  | argument _ => False

theorem Cause.StandsAt.of_part {cause : Cause} {s : Span} {part tokens : List (Located Token)}
    (stands : cause.StandsAt part s) (isPart : part <:+: tokens) : cause.StandsAt tokens s := by
  match cause with
  | grammar e => exact GrammarError.StandsAt.of_part stands isPart
  | math (.unknownVariable name) => exact isPart.subset stands
  | math .divisionByZero =>
    obtain ⟨op, listed, member⟩ := stands
    exact ⟨op, listed, isPart.subset member⟩
  | math (.argumentsNeeded f) => exact isPart.subset stands
  | math .unsupported => exact isPart.subset stands
  | math .imaginaryResult => exact isPart.subset stands
  | capability .noVariableStore =>
    obtain ⟨name, member⟩ := stands
    exact ⟨name, isPart.subset member⟩

/-- A failure is a refusal that stands on the tokens. -/
def Failure.StandsOn (tokens : List (Located Token)) (f : Failure) : Prop :=
  ∃ cause s, f = .refused ⟨cause, some s⟩ ∧ cause.StandsAt tokens s

theorem Failure.StandsOn.of_part {f : Failure} {part tokens : List (Located Token)}
    (stands : f.StandsOn part) (isPart : part <:+: tokens) : f.StandsOn tokens := by
  obtain ⟨cause, s, same, stands⟩ := stands
  exact ⟨cause, s, same, stands.of_part isPart⟩

/-- An operation that does not take its operands is blamed at its token, with whatever stands around
it. -/
theorem MathError.standsOn_of_blame {α : Type} {result : Except MathError α} {t : Located Token}
    {f : Failure} (failed : MathError.blame t.span result = .error f)
    (stands : ∀ e, result = .error e → e.StandsAt [t] t.span)
    (before after : List (Located Token)) :
    f.StandsOn (before ++ t :: after) := by
  obtain ⟨e, refused, rfl⟩ := mapError_eq_error_iff.mp failed
  have own : Failure.StandsOn [t] (.refused (.math e t.span)) := ⟨_, _, rfl, stands e refused⟩
  exact own.of_part ⟨before, after, by simp⟩

theorem UnaryOp.standsAt_of_value (op : UnaryOp) (s : Span) (x : Rat) (e : MathError)
    (failed : op.value x = .error e) : e.StandsAt [⟨op.token, s⟩] s := by
  match op with
  | .negate => cases failed
  | .word .absolute => cases failed
  | .word .squareRoot =>
    cases failed
    exact List.mem_singleton_self _

/-- Only a power has a root to take, and only it and the divisions divide. -/
theorem BinaryOp.standsAt_of_value (a : Accuracy) (op : BinaryOp) (s : Span) (x y : Rat)
    (e : MathError) (failed : op.value a x y = .error e) : e.StandsAt [⟨.binary op, s⟩] s := by
  have atZero (divides : op ∈ [BinaryOp.divide, .modulus, .exponent]) :
      MathError.divisionByZero.StandsAt [⟨.binary op, s⟩] s :=
    ⟨op, divides, List.mem_singleton_self _⟩
  cases op with
  | add => cases failed
  | subtract => cases failed
  | multiply => cases failed
  | divide =>
    simp only [value] at failed
    split at failed <;> cases failed
    exact atZero (by decide)
  | modulus =>
    simp only [value] at failed
    split at failed <;> cases failed
    exact atZero (by decide)
  | exponent =>
    simp only [value, raise, Power.power] at failed
    repeat' split at failed
    all_goals cases failed
    · exact atZero (by decide)
    · exact List.mem_singleton_self _
    · exact atZero (by decide)

theorem Func.standsAt_of_value (f : Func) (s : Span) (xs : List Rat) (e : MathError)
    (failed : f.value xs = .error e) : e.StandsAt [⟨.func f, s⟩] s := by
  cases xs <;> cases failed
  exact List.mem_singleton_self _

namespace Expr

/-- A variable that has no value is to blame for it. -/
def LoadBlames (load : Located Text → Except Failure Rat) : Prop :=
  ∀ name f, load name = .error f → f.StandsOn [⟨.var name.val, name.span⟩]

variable {load : Located Text → Except Failure Rat}

mutual

/-- What keeps an expression from having a value stands on the tokens of the expression. -/
theorem StandsOn.of_eval (blames : LoadBlames load) (a : Accuracy) : (e : Expr) →
    (tokens : List (Located Token)) → e.StandsOn tokens → ∀ f, e.eval load a = .error f →
    f.StandsOn tokens
  | .number _ _, _, _ => nofun
  | .var name s, _, rfl => blames ⟨name, s⟩
  | .unary op s operand, _, ⟨rest, rfl, stands⟩ => by
    intro f failed
    rcases bind_eq_error_iff.mp failed with inner | ⟨x, -, here⟩
    · exact (StandsOn.of_eval blames a operand rest stands f inner).of_part
        (List.suffix_cons _ rest).isInfix
    · exact MathError.standsOn_of_blame here (op.standsAt_of_value s x) [] rest
  | .binary op s left right, _, ⟨before, after, rfl, onLeft, onRight⟩ => by
    intro f failed
    rcases bind_eq_error_iff.mp failed with inner | ⟨x, -, failed⟩
    · exact (StandsOn.of_eval blames a left before onLeft f inner).of_part
        (List.prefix_append before _).isInfix
    rcases bind_eq_error_iff.mp failed with inner | ⟨y, -, here⟩
    · exact (StandsOn.of_eval blames a right after onRight f inner).of_part
        ((List.suffix_cons _ after).trans (List.suffix_append before _)).isInfix
    · exact MathError.standsOn_of_blame here (op.standsAt_of_value a s x y) before after
  | .apply g s operand, _, ⟨rest, rfl, stands, _⟩ => by
    intro f failed
    rcases bind_eq_error_iff.mp failed with inner | ⟨x, -, here⟩
    · exact (StandsOn.of_eval blames a operand rest stands f inner).of_part
        (List.suffix_cons _ rest).isInfix
    · exact MathError.standsOn_of_blame here (g.standsAt_of_value s [x]) [] rest
  | .call g s openSpan closeSpan operands, _, ⟨inside, rfl, stand⟩ => by
    intro f failed
    rcases bind_eq_error_iff.mp failed with inner | ⟨xs, -, here⟩
    · exact (ArgumentsStandOn.of_evalAll blames a operands inside stand f inner).of_part
        (List.infix_append [_, _] inside [_])
    · exact MathError.standsOn_of_blame here (g.standsAt_of_value s xs) [] _
  | .parens openSpan closeSpan inner, _, ⟨inside, rfl, stands⟩ => fun f failed =>
    (StandsOn.of_eval blames a inner inside stands f failed).of_part
      (List.infix_append [_] inside [_])

theorem ArgumentsStandOn.of_evalAll (blames : LoadBlames load) (a : Accuracy) :
    (es : List Expr) → (tokens : List (Located Token)) → ArgumentsStandOn es tokens → ∀ f,
    evalAll load a es = .error f → f.StandsOn tokens
  | [], _, _ => nofun
  | [e], tokens, stands => by
    intro f failed
    rcases bind_eq_error_iff.mp failed with inner | ⟨x, -, rest⟩
    · exact StandsOn.of_eval blames a e tokens stands f inner
    · cases rest
  | e :: next :: rest, _, ⟨before, s, after, rfl, stands, later⟩ => by
    intro f failed
    rcases bind_eq_error_iff.mp failed with inner | ⟨x, -, failed⟩
    · exact (StandsOn.of_eval blames a e before stands f inner).of_part
        (List.prefix_append before _).isInfix
    rcases bind_eq_error_iff.mp failed with inner | ⟨xs, -, nothing⟩
    · exact (ArgumentsStandOn.of_evalAll blames a (next :: rest) after later f inner).of_part
        ((List.suffix_cons _ after).trans (List.suffix_append before _)).isInfix
    · cases nothing

end

end Expr

/-- The store in memory knows a variable or does not, and without a store none is known. -/
theorem VariableStore.load_blames (store : Option Memory) :
    Expr.LoadBlames (VariableStore.load store) := by
  intro name f failed
  cases store with
  | none =>
    cases failed
    exact ⟨_, name.span, rfl, name.val, List.mem_singleton_self _⟩
  | some m =>
    cases found : m.value? name.val with
    | none =>
      simp only [load, Option.map_some, fetch, found] at failed
      cases failed
      exact ⟨_, name.span, rfl, List.mem_singleton_self _⟩
    | some v => simp [load, fetch, found] at failed

end ExactCalc
