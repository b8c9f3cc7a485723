import ExactCalc.Proofs.Reading.Defects
import ExactCalc.Proofs.Result

/-!
# Which rows are expressions

A flat row is an expression exactly if its operands and operators alternate once its negations are
folded. Joining the tiers makes one operand of every part that alternates, and what else there is
stays apart, so that the error of any other row is that of its leftmost defect. No operator is ever
left over between two operands, in a row or in any row that tokens are read as.
-/
namespace ExactCalc

open Located Relation

namespace Span

theorem cover_assoc (a b c : Span) : (a.cover b).cover c = a.cover (b.cover c) :=
  ext_ends (by simp [Nat.min_assoc]) (by simp [Nat.max_assoc])

/-- Between two spans of which the second does not begin before the first ends lies what is from
there to there. -/
theorem gap_of_le {a b : Span} (apart : a.stop ≤ b.start) : a.gap b = upTo a.stop b.start := by
  have := a.start_le_stop
  have := b.start_le_stop
  simp only [gap, upTo, Span.mk.injEq]
  omega

end Span

namespace Item

/-- Operands and operators alternate, with an operand at either end. -/
def Alternates : List Item → Prop
  | [.operand _] => True
  | .operand _ :: .operator _ _ :: row => Alternates row
  | _ => False

theorem Alternates.begins {row : List Item} (alternates : Alternates row) :
    ∃ e later, row = operand e :: later := by
  unfold Alternates at alternates
  split at alternates
  next e => exact ⟨e, [], rfl⟩
  next e op s later => exact ⟨e, _, rfl⟩
  next => exact alternates.elim

theorem Alternates.ends {row : List Item} (alternates : Alternates row) :
    ∃ e before, row = before ++ [operand e] := by
  fun_induction Alternates row with
  | case1 e => exact ⟨e, [], rfl⟩
  | case2 e op s row ih =>
    obtain ⟨last, before, rfl⟩ := ih alternates
    exact ⟨last, operand e :: operator op s :: before, rfl⟩
  | case3 => exact alternates.elim

/-- A row that alternates goes on alternating if, after an operator, another one follows. -/
theorem Alternates.operator_iff {before : List Item} (alternates : Alternates before)
    (op : BinaryOp) (s : Span) (after : List Item) :
    Alternates (before ++ operator op s :: after) ↔ Alternates after := by
  fun_induction Alternates before with
  | case1 e => rfl
  | case2 e op' s' row ih => exact ih alternates
  | case3 => exact alternates.elim

/-- No operand follows a row that alternates. -/
theorem Alternates.not_operand {before : List Item} (alternates : Alternates before) (e : Expr)
    (after : List Item) : ¬Alternates (before ++ operand e :: after) := by
  fun_induction Alternates before with
  | case1 e => exact id
  | case2 e op' s' row ih => exact ih alternates
  | case3 => exact alternates.elim

/-- The span of an item: of an operand all that it was read from. -/
def span : Item → Span
  | operand e => e.span
  | operator _ s => s

@[simp] theorem span_operand (e : Expr) : (operand e).span = e.span := rfl

@[simp] theorem span_operator (op : BinaryOp) (s : Span) : (operator op s).span = s := rfl

/-- The smallest span that holds all items of a row, if there are any. -/
def rowSpan : List Item → Span
  | [] => ⟨0, 0⟩
  | [item] => item.span
  | item :: row => item.span.cover (rowSpan row)

theorem rowSpan_cons (item : Item) {row : List Item} (nonempty : row ≠ []) :
    rowSpan (item :: row) = item.span.cover (rowSpan row) := by
  cases row with
  | nil => exact absurd rfl nonempty
  | cons => rfl

theorem rowSpan_append {row later : List Item} (nonempty : row ≠ []) (nonempty' : later ≠ []) :
    rowSpan (row ++ later) = (rowSpan row).cover (rowSpan later) := by
  induction row with
  | nil => exact absurd rfl nonempty
  | cons item row ih =>
    by_cases single : row = []
    · rw [single]
      exact rowSpan_cons item nonempty'
    · rw [List.cons_append, rowSpan_cons item (by simp [single]), ih single,
        rowSpan_cons item single, Span.cover_assoc]

/-- The items of the row follow each other in the line. -/
def InOrder (row : List Item) : Prop := row.Pairwise fun x y => x.span.stop ≤ y.span.start

/-- An item with its place. -/
def located (item : Item) : Located Item := ⟨item, item.span⟩

theorem ordered_located {row : List Item} : Ordered (row.map located) ↔ InOrder row :=
  List.pairwise_map

/-- The span of a row that is in order reaches from its first item to its last. -/
theorem hull_rowSpan {row : List Item} (nonempty : row ≠ []) (inOrder : InOrder row) :
    Hull (rowSpan row) (row.map located) := by
  induction row with
  | nil => exact absurd rfl nonempty
  | cons item row ih =>
    by_cases single : row = []
    · rw [single]
      exact Hull.single item.located
    · rw [rowSpan_cons item single]
      exact Hull.cons item.located (ih single inOrder.of_cons) (ordered_located.mpr inOrder)

/-- Between two parts of a row that is in order lies what is between the last item of the first and
the first item of the second. -/
theorem InOrder.gap_rowSpan {before after : List Item} {last first : Item}
    (inOrder : InOrder ((before ++ [last]) ++ first :: after)) :
    (rowSpan (before ++ [last])).gap (rowSpan (first :: after)) = last.span.gap first.span := by
  obtain ⟨onLeft, onRight, apart⟩ := List.pairwise_append.mp inOrder
  obtain ⟨-, x, isLast, stops⟩ := hull_rowSpan (by simp) onLeft
  obtain ⟨⟨y, isFirst, starts⟩, -⟩ := hull_rowSpan (List.cons_ne_nil first after) onRight
  rw [List.map_append, List.map_singleton, List.getLast?_concat] at isLast
  cases isLast
  cases isFirst
  have apart := apart last (by simp) first List.mem_cons_self
  rw [Span.gap_of_le apart, Span.gap_of_le (by rwa [← stops, ← starts]), ← stops, ← starts]
  rfl

theorem Negates.inOrder {row row' : List Item} (step : Negates row row') (inOrder : InOrder row) :
    InOrder row' := by
  obtain ⟨before, after, s, e, -⟩ := step
  obtain ⟨onLeft, onRight, apart⟩ := List.pairwise_append.mp inOrder
  obtain ⟨fromSign, onRight⟩ := List.pairwise_cons.mp onRight
  obtain ⟨fromOperand, onRight⟩ := List.pairwise_cons.mp onRight
  have sign : s.stop ≤ e.span.start := fromSign (operand e) List.mem_cons_self
  have wide := s.start_le_stop
  have wide' := e.span.start_le_stop
  refine List.pairwise_append.mpr ⟨onLeft, List.pairwise_cons.mpr ⟨fun item later => ?_, onRight⟩,
    fun item earlier other later => ?_⟩
  · have := fromOperand item later
    simp only [span_operand, Expr.span, Span.stop_cover] at this ⊢
    omega
  · rcases List.mem_cons.mp later with rfl | later
    · have : item.span.stop ≤ s.start :=
        apart item earlier (operator .subtract s) List.mem_cons_self
      simp only [span_operand, Expr.span, Span.start_cover]
      omega
    · exact apart item earlier other (by simp [later])

/-- An operand is made of a part that alternates and has its span, and an operator of itself. -/
def IsMadeOf : Item → List Item → Prop
  | operand e, part => Alternates part ∧ e.span = rowSpan part
  | operator op s, part => part = [operator op s]

/-- The items of a row are made of the parts of another row, one after the other. -/
def RowIsMadeOf : List Item → List Item → Prop
  | [], row => row = []
  | item :: items, row =>
    ∃ part later, row = part ++ later ∧ item.IsMadeOf part ∧ RowIsMadeOf items later

theorem rowIsMadeOf_self (row : List Item) : RowIsMadeOf row row := by
  induction row with
  | nil => rfl
  | cons item row ih =>
    refine ⟨[item], row, rfl, ?_, ih⟩
    cases item with
    | operand e => exact ⟨trivial, rfl⟩
    | operator op s => rfl

/-- Joined operands are made of what the two of them and the operator between them were made of. -/
theorem isMadeOf_binary {op : BinaryOp} {s : Span} {left right : Expr} {before after : List Item}
    (onLeft : (operand left).IsMadeOf before) (onRight : (operand right).IsMadeOf after) :
    (operand (.binary op s left right)).IsMadeOf (before ++ operator op s :: after) := by
  obtain ⟨alternates, sameLeft⟩ := onLeft
  obtain ⟨alternates', sameRight⟩ := onRight
  obtain ⟨_, _, rfl⟩ := alternates.begins
  obtain ⟨_, _, rfl⟩ := alternates'.begins
  refine ⟨(alternates.operator_iff op s _).mpr alternates', ?_⟩
  rw [rowSpan_append (List.cons_ne_nil _ _) (List.cons_ne_nil _ _),
    rowSpan_cons _ (List.cons_ne_nil _ _), Expr.span, sameLeft, sameRight, Span.cover_left_comm]
  rfl

theorem Joins.rowIsMadeOf {row row' original : List Item} (step : Joins row row')
    (made : RowIsMadeOf row original) : RowIsMadeOf row' original := by
  obtain ⟨before, after, op, s, left, right⟩ := step
  induction before generalizing original with
  | nil =>
    obtain ⟨first, _, rfl, onLeft, _, _, rfl, rfl, second, later, rfl, onRight, rest⟩ := made
    exact ⟨_, later, by simp, isMadeOf_binary onLeft onRight, rest⟩
  | cons item before ih =>
    obtain ⟨part, later, rfl, own, rest⟩ := made
    exact ⟨part, later, rfl, own, ih rest⟩

/-- A reduced row is made of the row with its negations folded. -/
theorem reduce_isMadeOf (row : List Item) : RowIsMadeOf (reduce row) (foldNegations row) :=
  steps_keep (P := (RowIsMadeOf · (foldNegations row))) (fun _ _ step => step.rowIsMadeOf)
    (reduceTiers_steps BinaryOp.tiers _) (rowIsMadeOf_self _)

/-- The error of the leftmost defect of a row: an operator at the start, an operator after which the
row ends or another operator stands, or two operands side by side. The parts before a defect
alternate. Where an operator is missing, the gap lies between the longest parts on both sides that
alternate. -/
inductive LeftmostDefect : List Item → Located GrammarError → Prop where
  | first (op : BinaryOp) (s : Span) (after : List Item) :
      LeftmostDefect (operator op s :: after) ⟨.missingOperand (.binary op), s⟩
  | operator {before after : List Item} (op : BinaryOp) (s : Span) (alternates : Alternates before)
      (unmet : after = [] ∨ ∃ other s' later, after = operator other s' :: later) :
      LeftmostDefect (before ++ operator op s :: after) ⟨.missingOperand (.binary op), s⟩
  | operands {before next after : List Item} (alternates : Alternates before)
      (alternates' : Alternates next)
      (longest : ∀ op s e later, after ≠ operator op s :: operand e :: later) :
      LeftmostDefect (before ++ (next ++ after))
        ⟨.missingOperator, (rowSpan before).gap (rowSpan next)⟩

/-- A row with a defect does not alternate. -/
theorem LeftmostDefect.not_alternates {row : List Item} {e : Located GrammarError}
    (defect : LeftmostDefect row e) : ¬Alternates row := by
  cases defect with
  | first op s after => exact id
  | operator op s alternates unmet =>
    rw [alternates.operator_iff]
    rcases unmet with rfl | ⟨other, s', later, rfl⟩
    · exact id
    · exact id
  | operands alternates alternates' =>
    obtain ⟨e, later, rfl⟩ := alternates'.begins
    exact alternates.not_operand e _

theorem LeftmostDefect.ne_nil {row : List Item} {error : Located GrammarError}
    (defect : LeftmostDefect row error) : row ≠ [] := by
  cases defect with
  | operands _ alternates' =>
    obtain ⟨e, later, rfl⟩ := alternates'.begins
    simp
  | _ => simp

theorem LeftmostDefect.ranked {row : List Item} {error : Located GrammarError}
    (defect : LeftmostDefect row error) (op : BinaryOp) : error.val ≠ .unrankedOperator op := by
  cases defect <;> nofun

/-- In a row that is in order, an operator is missing between the two operands that stand side by
side. -/
theorem LeftmostDefect.gap_eq {row : List Item} {s : Span}
    (defect : LeftmostDefect row ⟨.missingOperator, s⟩) (inOrder : InOrder row) :
    ∃ before e e' after, row = before ++ operand e :: operand e' :: after ∧
      Alternates (before ++ [operand e]) ∧ s = e.span.gap e'.span := by
  cases defect with
  | @operands _ _ after alternates alternates' =>
    obtain ⟨e, before, rfl⟩ := alternates.ends
    obtain ⟨e', next, rfl⟩ := alternates'.begins
    refine ⟨before, e, e', next ++ after, by simp, alternates, ?_⟩
    rw [← List.append_assoc] at inOrder
    exact InOrder.gap_rowSpan (List.pairwise_append.mp inOrder).1

/-- After an operator that has nothing to join on its right, a row ends or another operator
stands. -/
theorem unmet_of_not_joinable {e : Expr} {op : BinaryOp} {s : Span} {items row : List Item}
    (settled : ¬Joinable op (operand e :: operator op s :: items)) (made : RowIsMadeOf items row) :
    row = [] ∨ ∃ other s' later, row = operator other s' :: later := by
  cases items with
  | nil => exact .inl made
  | cons item items =>
    cases item with
    | operand right => exact absurd ⟨e, s, right, [], items, rfl⟩ settled
    | operator other s' =>
      obtain ⟨_, later, rfl, rfl, -⟩ := made
      exact .inr ⟨other, s', later, rfl⟩

/-- What the items after an operand are made of does not begin with an operator and an operand, if
nothing is left to be joined. -/
theorem longest_of_not_joinable {e : Expr} {items row : List Item}
    (settled : ∀ op, ¬Joinable op (operand e :: items)) (made : RowIsMadeOf items row)
    (op : BinaryOp) (s : Span) (right : Expr) (later : List Item) :
    row ≠ operator op s :: operand right :: later := by
  rintro rfl
  match items with
  | [] => cases made
  | .operand _ :: _ =>
    obtain ⟨part, rest, split, ⟨alternates, -⟩, -⟩ := made
    obtain ⟨_, _, rfl⟩ := alternates.begins
    cases split
  | .operator other s' :: items =>
    obtain ⟨_, rest, split, rfl, made⟩ := made
    cases split
    rcases unmet_of_not_joinable (settled op) made with nothing | ⟨_, _, _, operator⟩
    · cases nothing
    · cases operator

/-- What a row comes to: nothing if it is empty, an expression if it alternates, and else the error
of its leftmost defect. -/
inductive ComesTo (row : List Item) : Except (Located GrammarError) (Option Expr) → Prop where
  | nothing (empty : row = []) : ComesTo row (.ok none)
  | expression {e : Expr} (alternates : Alternates row) : ComesTo row (.ok (some e))
  | refusal {error : Located GrammarError} (defect : LeftmostDefect row error) :
      ComesTo row (.error error)

theorem single?_comesTo {items row : List Item} (settled : ∀ op, ¬Joinable op items)
    (made : RowIsMadeOf items row) : ComesTo row (single? items) := by
  match items with
  | [] => exact .nothing made
  | .operator op s :: items =>
    obtain ⟨_, later, rfl, rfl, -⟩ := made
    exact .refusal (.first op s later)
  | [.operand e] =>
    obtain ⟨part, _, rfl, ⟨alternates, -⟩, rfl⟩ := made
    rw [List.append_nil]
    exact .expression alternates
  | .operand e :: .operand e' :: items =>
    obtain ⟨part, _, rfl, ⟨alternates, same⟩, next, later, rfl, ⟨alternates', same'⟩, rest⟩ := made
    have settled (op : BinaryOp) : ¬Joinable op (operand e' :: items) := fun joinable =>
      settled op (joinable.of_part (List.suffix_cons _ _).isInfix)
    have defect := LeftmostDefect.operands alternates alternates'
      (longest_of_not_joinable settled rest)
    rw [← same, ← same'] at defect
    exact .refusal defect
  | .operand e :: .operator op s :: items =>
    obtain ⟨part, _, rfl, ⟨alternates, -⟩, _, later, rfl, rfl, rest⟩ := made
    have defect := LeftmostDefect.operator op s alternates
      (unmet_of_not_joinable (settled op) rest)
    match items with
    | [] => exact .refusal defect
    | .operator _ _ :: _ => exact .refusal defect
    | .operand right :: items => exact absurd ⟨e, s, right, [], items, rfl⟩ (settled op)

theorem toExpr?_comesTo (row : List Item) : ComesTo (foldNegations row) (toExpr? row) :=
  single?_comesTo (fun op => not_joinable_reduce op row) (reduce_isMadeOf row)

theorem foldNegations_eq_nil_iff {row : List Item} : foldNegations row = [] ↔ row = [] := by
  refine ⟨fun nothing => ?_, by rintro rfl; rfl⟩
  by_contra nonempty
  refine steps_keep (P := (· ≠ [])) (fun _ _ step _ => ?_) (foldNegations_steps row) nonempty
    nothing
  obtain ⟨before, after, s, e, -⟩ := step
  simp

theorem foldNegations_inOrder {row : List Item} (inOrder : InOrder row) :
    InOrder (foldNegations row) :=
  steps_keep (fun _ _ step => step.inOrder) (foldNegations_steps row) inOrder

end Item

namespace Statement

/-- A result that does not blame an operator for belonging to no tier. -/
def Ranked {α : Type} (result : Except (Located GrammarError) α) : Prop :=
  ∀ op s, result ≠ .error ⟨.unrankedOperator op, s⟩

theorem ranked_ok {α : Type} (x : α) : Ranked (.ok x) := nofun

theorem Ranked.bind {α β : Type} {step : Except (Located GrammarError) α}
    {next : α → Except (Located GrammarError) β} (first : Ranked step)
    (later : ∀ x, Ranked (next x)) : Ranked (step >>= next) := by
  intro op s failed
  rcases bind_eq_error_iff.mp failed with early | ⟨x, -, late⟩
  · exact first op s early
  · exact later x op s late

theorem ranked_toExpr? (row : List Item) : Ranked (Item.toExpr? row) := by
  intro op s failed
  have comesTo := Item.toExpr?_comesTo row
  rw [failed] at comesTo
  cases comesTo with
  | refusal defect => exact defect.ranked op rfl

namespace Reader

variable (r : Reader) (span : Span)

theorem ranked_finishLevel : Ranked r.finishLevel := by
  have ended : Ranked r.level.finish := by
    unfold Level.finish
    split
    next awaiting _ _ => cases awaiting <;> nofun
    next => exact ranked_toExpr? _
  refine ended.bind fun e => ?_
  split <;> nofun

theorem ranked_step (token : Located Token) : Ranked (r.step token) := by
  have operator (op : BinaryOp) : Ranked (r.operator op token.span) := by
    unfold Reader.operator
    split <;> nofun
  have comma : Ranked (r.comma token.span) := by
    refine r.ranked_finishLevel.bind fun e => ?_
    split <;> nofun
  have closeParen : Ranked (r.closeParen token.span) := by
    refine r.ranked_finishLevel.bind fun e => ?_
    split <;> nofun
  unfold step
  split
  case h_5 op _ => exact operator op
  case h_7 => exact closeParen
  case h_8 => exact comma
  all_goals nofun

theorem ranked_finish : Ranked r.finish := by
  refine r.ranked_finishLevel.bind fun e => ?_
  split <;> nofun

theorem ranked_run (tokens : List (Located Token)) : Ranked (tokens.foldlM step r) := by
  intro op s failed
  obtain ⟨_, token, _, before, -, -, fails⟩ := exists_of_foldlM_eq_error failed
  exact before.ranked_step token op s fails

end Reader

theorem ranked_read (tokens : List (Located Token)) : Ranked (Statement.read tokens) := by
  refine Ranked.bind (Ranked.bind (Reader.ranked_run {} _) fun r => r.ranked_finish) fun e => ?_
  exact ranked_ok _

/-- A flat row is no expression and no error exactly if it is empty, and an expression exactly if
its operands and operators alternate once its negations are folded. Any other row is refused for the
leftmost defect that it then has. Where an operator is missing and the items of the row follow each
other in the line, the gap between the two operands is to blame. An operator without a tier is
blamed neither in a row nor in any tokens, which are read as a statement or refused. -/
theorem rows_fail_at_leftmost_defect :
    (∀ row : List Item,
      (Item.toExpr? row = .ok none ↔ row = []) ∧
      ((∃ e, Item.toExpr? row = .ok (some e)) ↔ Item.Alternates (Item.foldNegations row)) ∧
      (row ≠ [] → ¬Item.Alternates (Item.foldNegations row) → ∃ error,
        Item.toExpr? row = .error error ∧
          Item.LeftmostDefect (Item.foldNegations row) error) ∧
      (∀ s, Item.toExpr? row = .error ⟨.missingOperator, s⟩ → Item.InOrder row →
        ∃ before e e' after,
          Item.foldNegations row = before ++ .operand e :: .operand e' :: after ∧
          Item.Alternates (before ++ [.operand e]) ∧ s = e.span.gap e'.span) ∧
      ∀ op s, Item.toExpr? row ≠ .error ⟨.unrankedOperator op, s⟩) ∧
    ∀ tokens : List (Located Token),
      (∃ statement, Statement.read tokens = .ok statement) ∨
        ∃ error, Statement.read tokens = .error error ∧
          ∀ op, error.val ≠ .unrankedOperator op := by
  refine ⟨fun row => ?_, fun tokens => ?_⟩
  · have comesTo := Item.toExpr?_comesTo row
    have ranked := ranked_toExpr? row
    rw [← @Item.foldNegations_eq_nil_iff row]
    generalize Item.toExpr? row = result at comesTo ranked
    cases comesTo with
    | nothing empty =>
      rw [empty]
      exact ⟨⟨fun _ => rfl, fun _ => rfl⟩, ⟨nofun, nofun⟩,
        fun nonempty => absurd (Item.foldNegations_eq_nil_iff.mp empty) nonempty, nofun, ranked⟩
    | expression alternates =>
      have nonempty : Item.foldNegations row ≠ [] := by
        intro empty
        exact (empty ▸ alternates : Item.Alternates [])
      exact ⟨⟨nofun, fun empty => absurd empty nonempty⟩, ⟨fun _ => alternates, fun _ => ⟨_, rfl⟩⟩,
        fun _ defective => absurd alternates defective, nofun, ranked⟩
    | @refusal error defect =>
      refine ⟨⟨nofun, fun empty => ?_⟩, ⟨nofun, fun alternates => ?_⟩,
        fun _ _ => ⟨error, rfl, defect⟩, ?_, ranked⟩
      · exact absurd empty defect.ne_nil
      · exact absurd alternates defect.not_alternates
      · rintro s ⟨⟩ inOrder
        exact defect.gap_eq (Item.foldNegations_inOrder inOrder)
  · cases read : Statement.read tokens with
    | ok statement => exact .inl ⟨statement, rfl⟩
    | error error =>
      refine .inr ⟨error, rfl, fun op same => ?_⟩
      exact ranked_read tokens op error.span (read.trans (by rw [← same]))

/-- In `-1 2*3` the blank before the second number is to blame, and in `1*+2` the first of the two
operators. -/
theorem rows_fail_at_leftmost_defect_gap :
    (∃ row : List Item, row = [.operator .subtract ⟨0, 1⟩, .operand (.number 1 ⟨1, 1⟩),
        .operand (.number 2 ⟨3, 1⟩), .operator .multiply ⟨4, 1⟩, .operand (.number 3 ⟨5, 1⟩)] ∧
      Item.toExpr? row = .error ⟨.missingOperator, ⟨2, 1⟩⟩ ∧ Item.InOrder row ∧
      ∃ before e e' after,
        Item.foldNegations row = before ++ .operand e :: .operand e' :: after ∧
        Item.Alternates (before ++ [.operand e]) ∧ (⟨2, 1⟩ : Span) = e.span.gap e'.span) ∧
    ∃ row : List Item, row = [.operand (.number 1 ⟨0, 1⟩), .operator .multiply ⟨1, 1⟩,
        .operator .add ⟨2, 1⟩, .operand (.number 2 ⟨3, 1⟩)] ∧
      row ≠ [] ∧ ¬Item.Alternates (Item.foldNegations row) ∧
      ∃ error, Item.toExpr? row = .error error ∧
        Item.LeftmostDefect (Item.foldNegations row) error := by
  refine ⟨⟨_, rfl, rfl, ?_, ?_⟩, ⟨_, rfl, List.cons_ne_nil _ _, id, ?_⟩⟩
  · unfold Item.InOrder
    decide
  · refine (rows_fail_at_leftmost_defect.1 _).2.2.2.1 ⟨2, 1⟩ rfl ?_
    unfold Item.InOrder
    decide
  · exact (rows_fail_at_leftmost_defect.1 _).2.2.1 (List.cons_ne_nil _ _) id

end Statement
end ExactCalc
