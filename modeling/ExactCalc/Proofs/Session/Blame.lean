import ExactCalc.Proofs.Lexeme.Line
import ExactCalc.Proofs.Lexeme.Spelling
import ExactCalc.Proofs.Reading.Valueless
import ExactCalc.Proofs.Session.Writes

/-!
# What text is to blame

An expression line that cannot be read or has no value is refused, and the refusal points at the
text that is to blame: the operator that misses an operand, the parenthesis without a partner, the
variable without a value, the gap between two operands. `Cause.Blames` says for each cause what
stands there, and `refusals_blame` that it does.
-/
namespace ExactCalc

theorem Token.spelling?_operator (op : Operator) : op.token.spelling? = some op.spelling := by
  match op with
  | .unary .negate => rfl
  | .unary (.word _) => rfl
  | .binary _ => rfl

namespace Span

theorem upTo_ends (s : Span) : upTo s.start s.stop = s :=
  ext_ends rfl (by simp [upTo, stop])

/-- A slice is made of the slices of two spans side by side. -/
theorem slice_upTo_append (line : Text) {start middle stop : Nat} (left : start ≤ middle)
    (right : middle ≤ stop) :
    (upTo start middle).slice line ++ (upTo middle stop).slice line =
      (upTo start stop).slice line := by
  have widths : stop - start = middle - start + (stop - middle) := by omega
  have next : middle = start + (middle - start) := by omega
  simp only [slice, upTo, widths, List.take_add, List.drop_drop, ← next]

theorem exists_of_mem_slice {s : Span} {source : Text} {c : Char} (member : c ∈ s.slice source) :
    ∃ i, s.start ≤ i ∧ i < s.stop ∧ source[i]? = some c := by
  obtain ⟨j, found⟩ := List.mem_iff_getElem?.mp member
  rw [slice, List.getElem?_take] at found
  split at found
  next bound =>
    rw [List.getElem?_drop] at found
    exact ⟨s.start + j, Nat.le_add_right _ _, Nat.add_lt_add_left bound _, found⟩
  next => cases found

end Span

namespace Text

variable {radix : Nat} {line : Text} {tokens : List (Located Token)}

/-- The text at the place of a token denotes the token. -/
theorem denotes_slice (read : line.tokens radix = .ok tokens) {t : Located Token}
    (member : t ∈ tokens) : Token.Denotes radix (t.span.slice line) t.val := by
  have each := (tokens_eq_ok.mp read).2
  obtain ⟨i, bound, rfl⟩ := List.mem_iff_getElem.mp member
  have inside : i < (lexemes line).length := each.length_eq ▸ bound
  obtain ⟨same, denotes⟩ := each.get inside bound
  have lexeme : IsLexeme line (lexemes line)[i] := isLexeme_of_mem (List.getElem_mem inside)
  simp only [List.get_eq_getElem] at same denotes
  rwa [same, ← lexeme.text]

/-- A token whose spelling is known is spelled at its place. -/
theorem slice_of_mem (read : line.tokens radix = .ok tokens) {t : Token} {s : Span} {word : Text}
    (member : ⟨t, s⟩ ∈ tokens) (spelling : t.spelling? = some word) : s.slice line = word :=
  (denotes_slice read member).eq_spelling spelling

/-- Between two tokens side by side are only blanks. -/
theorem isBlank_between (read : line.tokens radix = .ok tokens) {t u : Located Token}
    (adjacent : [t, u] <:+: tokens) :
    t.span.stop ≤ u.span.start ∧
      ∀ c ∈ (Span.upTo t.span.stop u.span.start).slice line, isBlank c = true := by
  obtain ⟨before, after, rfl⟩ := adjacent
  have ordered := pairwise_tokens read
  simp only [List.append_assoc, List.cons_append, List.nil_append, List.pairwise_append,
    List.pairwise_cons] at ordered
  obtain ⟨-, ⟨fromFirst, fromSecond, -⟩, earlier⟩ := ordered
  have apart : t.span.stop ≤ u.span.start := fromFirst u List.mem_cons_self
  refine ⟨apart, fun c member => ?_⟩
  obtain ⟨i, start, stop, found⟩ := Span.exists_of_mem_slice member
  simp only [Span.upTo, Span.stop] at start stop apart
  refine isBlank_of_outside read found fun v listed inside => ?_
  simp only [List.append_assoc, List.cons_append, List.nil_append, List.mem_append,
    List.mem_cons] at listed
  simp only [Span.stop] at inside
  rcases listed with left | rfl | rfl | right
  · have := earlier v left t List.mem_cons_self
    simp only [Span.stop] at this
    omega
  · omega
  · omega
  · have := fromSecond v right
    simp only [Span.stop] at this
    omega

/-- Two tokens side by side and the gap between them make up the text at the places of both. -/
theorem slice_cover_of_adjacent (read : line.tokens radix = .ok tokens) {t u : Located Token}
    (adjacent : [t, u] <:+: tokens) :
    (t.span.cover u.span).slice line =
      t.span.slice line ++
        ((Span.upTo t.span.stop u.span.start).slice line ++ u.span.slice line) := by
  have apart := (isBlank_between read adjacent).1
  have wide := t.span.start_le_stop
  have wide' := u.span.start_le_stop
  rw [Span.cover, Nat.min_eq_left (by omega), Nat.max_eq_right (by omega),
    ← Span.slice_upTo_append line wide (by omega), ← Span.slice_upTo_append line apart wide',
    Span.upTo_ends, Span.upTo_ends]

end Text

/-- What stands where a grammatical error is blamed. The tokens of the line are given for the
missing operator, which is blamed on a gap between two of them. -/
def GrammarError.Blames (line : Text) (tokens : List (Located Token)) (s : Span) :
    GrammarError → Prop
  | noInput => s = ⟨0, 0⟩
  | unexpectedToken t =>
    (t = .assign ∧ s.slice line = ['=']) ∨ (t = .comma ∧ s.slice line = [',']) ∨
      ∃ op, t = .binary op ∧ s.slice line = [op.symbol]
  | mismatchedOpen => s.slice line = ['(']
  | mismatchedClose => s.slice line = [')']
  | emptyParens =>
    ∃ blanks, s.slice line = '(' :: (blanks ++ [')']) ∧ ∀ c ∈ blanks, Text.isBlank c = true
  | missingOperand op => s.slice line = op.spelling
  | commaWithoutOperandBefore => s.slice line = [',']
  | commaWithoutOperandAfter => s.slice line = [',']
  | missingArgument f => s.slice line = f.word
  | missingOperator =>
    (∀ c ∈ s.slice line, Text.isBlank c = true) ∧
      ∃ t u, [t, u] <:+: tokens ∧ t.val.EndsOperand ∧ u.val.BeginsOperand ∧
        s.start = t.span.stop ∧ s.stop = u.span.start
  | unrankedOperator _ => False

/-- What stands where an error of evaluation is blamed. -/
def MathError.Blames (line : Text) (s : Span) : MathError → Prop
  | unknownVariable name => s.slice line = name ∧ name.head? = some '$'
  | divisionByZero => s.slice line ∈ [['/'], ['%'], ['^']]
  | argumentsNeeded f => s.slice line = f.word
  | unsupported => s.slice line = ['s', 'q', 'r', 't']
  | imaginaryResult => s.slice line = ['^']

/-- What stands in an expression line where a cause is blamed. -/
def Cause.Blames (line : Text) (tokens : List (Located Token)) (s : Span) : Cause → Prop
  | grammar e => e.Blames line tokens s
  | math e => e.Blames line s
  | capability .noVariableStore =>
    ⟨.var (s.slice line), s⟩ ∈ tokens ∧ (s.slice line).head? = some '$'
  | lexical _ => False
  | argument _ => False

section Places

variable {radix : Nat} {line : Text} {tokens : List (Located Token)} {s : Span}

theorem GrammarError.StandsAt.blames {e : GrammarError} (stands : e.StandsAt tokens s)
    (read : line.tokens radix = .ok tokens) : e.Blames line tokens s := by
  cases e with
  | noInput => exact stands
  | unexpectedToken t =>
    obtain ⟨member, rfl | rfl | ⟨op, rfl⟩⟩ := stands
    · exact .inl ⟨rfl, Text.slice_of_mem read member rfl⟩
    · exact .inr (.inl ⟨rfl, Text.slice_of_mem read member rfl⟩)
    · exact .inr (.inr ⟨op, rfl, Text.slice_of_mem read member rfl⟩)
  | mismatchedOpen => exact Text.slice_of_mem read stands rfl
  | mismatchedClose => exact Text.slice_of_mem read stands rfl
  | emptyParens =>
    obtain ⟨openSpan, closeSpan, adjacent, rfl⟩ := stands
    have opened : openSpan.slice line = ['('] :=
      Text.slice_of_mem read (adjacent.subset List.mem_cons_self) rfl
    have closes : ⟨.closeParen, closeSpan⟩ ∈ tokens := adjacent.subset (by simp)
    have closed : closeSpan.slice line = [')'] := Text.slice_of_mem read closes rfl
    refine ⟨_, ?_, (Text.isBlank_between read adjacent).2⟩
    rw [Text.slice_cover_of_adjacent read adjacent, opened, closed]
    rfl
  | missingOperand op => exact Text.slice_of_mem read stands (Token.spelling?_operator op)
  | commaWithoutOperandBefore => exact Text.slice_of_mem read stands rfl
  | commaWithoutOperandAfter => exact Text.slice_of_mem read stands rfl
  | missingArgument f => exact Text.slice_of_mem read stands rfl
  | missingOperator =>
    obtain ⟨t, u, adjacent, ends, begins, start, stop⟩ := stands
    have blanks := (Text.isBlank_between read adjacent).2
    rw [← start, ← stop, Span.upTo_ends] at blanks
    exact ⟨blanks, t, u, adjacent, ends, begins, start, stop⟩
  | unrankedOperator op => exact stands

theorem Cause.StandsAt.blames {cause : Cause} (stands : cause.StandsAt tokens s)
    (read : line.tokens radix = .ok tokens) : cause.Blames line tokens s := by
  match cause with
  | grammar e => exact GrammarError.StandsAt.blames stands read
  | math (.unknownVariable name) =>
    exact ⟨Text.slice_of_mem read stands rfl, (Text.denotes_slice read stands).var_head⟩
  | math .divisionByZero =>
    obtain ⟨op, listed, member⟩ := stands
    have slice := Text.slice_of_mem read member rfl
    simp only [MathError.Blames, Cause.Blames, slice]
    revert listed
    cases op <;> decide
  | math (.argumentsNeeded f) => exact Text.slice_of_mem read stands rfl
  | math .unsupported => exact Text.slice_of_mem read stands rfl
  | math .imaginaryResult => exact Text.slice_of_mem read stands rfl
  | capability .noVariableStore =>
    obtain ⟨name, member⟩ := stands
    obtain rfl := Text.slice_of_mem read member rfl
    exact ⟨member, (Text.denotes_slice read member).var_head⟩

end Places

/-- What keeps a statement from having a result stands on its tokens. -/
theorem Statement.standsOn_of_execute {tokens : List (Located Token)} {statement : Statement}
    {a : Accuracy} {number : Option Int} {store : Option Memory} {f : Failure}
    (read : Statement.read tokens = .ok statement)
    (failed : ((statement.execute a number).outcome store).1 = .error f) : f.StandsOn tokens := by
  have onRoot := standsOn_of_read read
  rw [execute_eq] at failed
  cases value : statement.root.eval (VariableStore.load store) a with
  | error e =>
    simp only [value, Except.error.injEq] at failed
    subst failed
    exact (Expr.StandsOn.of_eval (VariableStore.load_blames store) a _ _ onRoot e value).of_part
      (splitTarget_suffix tokens).isInfix
  | ok v =>
    cases target : statement.target with
    | none => simp [value, target] at failed
    | some name =>
      cases store with
      | some m => simp [value, target, VariableStore.assign, VariableStore.save] at failed
      | none =>
        simp only [value, target, VariableStore.assign, Option.map_none,
          Except.error.injEq] at failed
        subst failed
        exact ⟨_, name.span, rfl, name.val, target_mem read target⟩

/-- Where an expression line is refused, the text that is to blame stands. -/
theorem refusals_blame (radix : Nat) (line : Text) (tokens : List (Located Token))
    (read : Line.read radix line = .ok (.expression tokens)) :
    (∀ e, Statement.read tokens = .error e → e.val.Blames line tokens e.span) ∧
    ∀ statement, Statement.read tokens = .ok statement →
      ∀ (a : Accuracy) (number : Option Int) (store : Option Memory) (f : Failure),
        ((statement.execute a number).outcome store).1 = .error f →
        ∃ cause s, f = .refused ⟨cause, some s⟩ ∧ cause.Blames line tokens s := by
  obtain ⟨-, -, read⟩ := Line.read_eq_expression.mp read
  refine ⟨fun e failed => ?_, fun statement built a number store f failed => ?_⟩
  · exact (Statement.standsAt_of_read failed (Text.pairwise_tokens read)).blames read
  · obtain ⟨cause, s, same, stands⟩ := Statement.standsOn_of_execute built failed
    exact ⟨cause, s, same, stands.blames read⟩

/-- A missing operator is blamed on the blank between `2` and `$x`, and a missing store on the
variable. -/
theorem refusals_blame_gap_and_variable :
    (∃ tokens e, Line.read 10 "max(2 $x)".toList = .ok (.expression tokens) ∧
      Statement.read tokens = .error e ∧ e.val = .missingOperator ∧
      e.val.Blames "max(2 $x)".toList tokens e.span) ∧
    ∃ tokens statement f, Line.read 10 "-$x".toList = .ok (.expression tokens) ∧
      Statement.read tokens = .ok statement ∧
      ((statement.execute {} none).outcome (none : Option Memory)).1 = .error f ∧
      ∃ cause s, f = .refused ⟨cause, some s⟩ ∧ cause.Blames "-$x".toList tokens s := by
  have gap : Line.read 10 "max(2 $x)".toList = .ok (.expression [⟨.func .max, ⟨0, 3⟩⟩,
      ⟨.openParen, ⟨3, 1⟩⟩, ⟨.number 2, ⟨4, 1⟩⟩, ⟨.var ['$', 'x'], ⟨6, 2⟩⟩,
      ⟨.closeParen, ⟨8, 1⟩⟩]) := by decide +kernel
  have alone : Line.read 10 "-$x".toList = .ok (.expression [⟨.binary .subtract, ⟨0, 1⟩⟩,
      ⟨.var ['$', 'x'], ⟨1, 2⟩⟩]) := by decide +kernel
  exact ⟨⟨_, _, gap, rfl, rfl, (refusals_blame 10 _ _ gap).1 _ rfl⟩,
    ⟨_, _, _, alone, rfl, rfl, (refusals_blame 10 _ _ alone).2 _ rfl {} none none _ rfl⟩⟩

end ExactCalc
