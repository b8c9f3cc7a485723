import Mathlib.Data.List.Forall2
import Mathlib.Data.List.Induction
import ExactCalc.Expr.Item

/-!
# Which minus signs are negations

Negations are folded by a sweep from the right, which holds the operand that stands next. `foldFrom`
folds them from left to right, and the sweep comes to the same row. Offset by offset, a minus sign
is a negation exactly when an operand is expected in its place and nothing but minus signs stands
between it and the next operand; the operand takes all its negations, and every other item stays.
-/
namespace ExactCalc.Item

/-- Fold the negations of a row from left to right, where an operand is expected at the first item
or is not. -/
def foldFrom (expected : Bool) : List Item → List Item
  | [] => []
  | .operand e :: row => .operand e :: foldFrom false row
  | .operator op s :: row =>
    match foldFrom true row with
    | .operand e :: later =>
      if expected = true ∧ op = .subtract then .operand (.unary .negate s e) :: later
      else .operator op s :: .operand e :: later
    | later => .operator op s :: later

theorem foldFrom_operator_of_operand {expected : Bool} {op : BinaryOp} {s : Span}
    {row later : List Item} {e : Expr} (next : foldFrom true row = operand e :: later) :
    foldFrom expected (operator op s :: row) =
      if expected = true ∧ op = .subtract then operand (.unary .negate s e) :: later
      else operator op s :: operand e :: later := by
  rw [foldFrom, next]

theorem foldFrom_operator_of_none {expected : Bool} {op : BinaryOp} {s : Span} {row : List Item}
    (next : ∀ e later, foldFrom true row ≠ operand e :: later) :
    foldFrom expected (operator op s :: row) = operator op s :: foldFrom true row := by
  rw [foldFrom]
  split
  next e later begins => exact absurd begins (next e later)
  next => rfl

/-- What the sweep has behind it is folded, and the operand that it holds is the first item of
that. -/
theorem sweepNegations_eq (held : Option Expr) (left done right : List Item)
    (folded : foldFrom (operandExpected left) right = putBack held done)
    (next : held = none → ∀ e later, done ≠ operand e :: later) :
    sweepNegations held left done = foldFrom true (left.reverse ++ right) := by
  fun_induction sweepNegations held left done generalizing right with
  | case1 held done => exact folded.symm
  | case2 held e left done ih =>
    have behind : foldFrom (operandExpected left) (operand e :: right) =
        putBack (some e) (putBack held done) := by
      rw [foldFrom]
      exact congrArg (operand e :: ·) folded
    rw [ih (operand e :: right) behind nofun]
    simp
  | case3 op s left done ih =>
    have behind : foldFrom (operandExpected left) (operator op s :: right) =
        putBack none (operator op s :: done) := by
      have rest : foldFrom true right = done := folded
      rw [foldFrom_operator_of_none (rest ▸ next rfl), rest]
      rfl
    rw [ih (operator op s :: right) behind nofun]
    simp
  | case4 op s left done e negates ih =>
    have behind : foldFrom (operandExpected left) (operator op s :: right) =
        putBack (some (.unary .negate s e)) done := by
      rw [foldFrom_operator_of_operand folded, if_pos negates.symm]
      rfl
    rw [ih (operator op s :: right) behind nofun]
    simp
  | case5 op s left done e keeps ih =>
    have behind : foldFrom (operandExpected left) (operator op s :: right) =
        putBack none (operator op s :: operand e :: done) := by
      rw [foldFrom_operator_of_operand folded, if_neg fun both => keeps both.symm]
      rfl
    rw [ih (operator op s :: right) behind nofun]
    simp

theorem foldNegations_eq (row : List Item) : foldNegations row = foldFrom true row := by
  rw [foldNegations, sweepNegations_eq none row.reverse [] [] rfl nofun]
  simp

/-- What is folded stays as it is. -/
theorem foldFrom_foldFrom (expected : Bool) (row : List Item) :
    foldFrom expected (foldFrom expected row) = foldFrom expected row := by
  induction row generalizing expected with
  | nil => rfl
  | cons item row ih =>
    cases item with
    | operand e => rw [foldFrom, foldFrom, ih]
    | operator op s =>
      by_cases next : ∃ e later, foldFrom true row = operand e :: later
      · obtain ⟨e, later, next⟩ := next
        have again : foldFrom true (operand e :: later) = operand e :: later := next ▸ ih true
        rw [foldFrom_operator_of_operand next]
        split
        next =>
          rw [foldFrom] at again ⊢
          rw [(List.cons.inj again).2]
        next keeps => rw [foldFrom_operator_of_operand again, if_neg keeps]
      · have next : ∀ e later, foldFrom true row ≠ operand e :: later := fun e later begins =>
          next ⟨e, later, begins⟩
        rw [foldFrom_operator_of_none next, foldFrom_operator_of_none (by rwa [ih true]), ih true]

/-- The minus sign at offset `i` is a negation of the operand at offset `j`: an operand is expected
at `i`, and from there on stand minus signs up to the operand. -/
structure NegatesAt (row : List Item) (i j : Nat) : Prop where
  expected : i = 0 ∨ ∃ op s, row[i - 1]? = some (operator op s)
  before : i < j
  signs : ∀ k, i ≤ k → k < j → ∃ s, row[k]? = some (operator .subtract s)
  operand : ∃ e, row[j]? = some (operand e)

/-- An operand behind minus signs, the last of which is nearest to it. -/
def negated (signs : List Span) (e : Expr) : Expr := signs.foldr (Expr.unary .negate) e

/-- What becomes of the item at an offset when it is known which minus signs are negations of which
operands. An operator stays as it is. An operand takes the minus signs that are negations of it,
which stand right before it, each in its own place. -/
inductive Becomes (negates : Nat → Nat → Prop) (row : List Item) (j : Nat) : Item → Prop where
  | operator {op : BinaryOp} {s : Span} (found : row[j]? = some (.operator op s)) :
      Becomes negates row j (.operator op s)
  | operand {e : Expr} (signs : List Span) (found : row[j]? = some (.operand e))
      (bound : signs.length ≤ j) (negations : ∀ i, negates i j ↔ j - signs.length ≤ i ∧ i < j)
      (places : ∀ k s, signs[k]? = some s →
        row[j - signs.length + k]? = some (.operator .subtract s)) :
      Becomes negates row j (.operand (negated signs e))

theorem Becomes.congr {negates negates' : Nat → Nat → Prop} {row : List Item} {j : Nat}
    {item : Item} (becomes : Becomes negates row j item)
    (same : ∀ i, negates i j ↔ negates' i j) : Becomes negates' row j item := by
  cases becomes with
  | operator found => exact .operator found
  | operand signs found bound negations places =>
    exact .operand signs found bound (fun i => (same i).symm.trans (negations i)) places

namespace NegatesAt

variable {row : List Item} {i j k : Nat}

theorem sign (negates : NegatesAt row i j) : ∃ s, row[i]? = some (.operator .subtract s) :=
  negates.signs i (Nat.le_refl i) negates.before

theorem item_eq (negates : NegatesAt row i j) {item : Item} (found : row[i]? = some item) :
    ∃ s, item = .operator .subtract s := by
  obtain ⟨s, isSign⟩ := negates.sign
  exact ⟨s, Option.some.inj (found.symm.trans isSign)⟩

/-- From a negation on, all minus signs up to the operand are negations of it. -/
theorem later (negates : NegatesAt row i j) (after : i ≤ k) (before : k < j) :
    NegatesAt row k j where
  expected := by
    rcases Nat.eq_or_lt_of_le after with rfl | after
    · exact negates.expected
    · obtain ⟨s, found⟩ := negates.signs (k - 1) (by omega) (by omega)
      exact .inr ⟨_, s, found⟩
  before := before
  signs m after' := negates.signs m (by omega)
  operand := negates.operand

/-- A minus sign is a negation of no more than one operand. -/
theorem unique (negates : NegatesAt row i j) (negates' : NegatesAt row i k) : j = k := by
  have apart {m n : Nat} (first : NegatesAt row i m) (second : NegatesAt row i n) : ¬m < n := by
    intro before
    obtain ⟨e, isOperand⟩ := first.operand
    obtain ⟨s, ⟨⟩⟩ := (second.later (Nat.le_of_lt first.before) before).item_eq isOperand
  have := apart negates negates'
  have := apart negates' negates
  omega

end NegatesAt

/-- The items that are left of a row from an offset on, given by their offsets, and what they
become. -/
structure Describes (row : List Item) (start : Nat) (kept : List Nat) (folded : List Item) :
    Prop where
  ascending : kept.Pairwise (· < ·)
  members : ∀ i, i ∈ kept ↔ start ≤ i ∧ i < row.length ∧ ¬∃ j, NegatesAt row i j
  become : List.Forall₂ (Becomes (fun i j => start ≤ i ∧ NegatesAt row i j) row) kept folded

namespace Describes

variable {row folded : List Item} {start : Nat} {kept : List Nat}

theorem done (row : List Item) : Describes row row.length [] [] where
  ascending := .nil
  members i := by
    simp only [List.not_mem_nil, false_iff, not_and]
    omega
  become := .nil

/-- Negations from the next offset on are those from an offset on, unless one begins there. -/
theorem from_succ_iff {i j : Nat} (stays : ¬NegatesAt row start j) :
    (start + 1 ≤ i ∧ NegatesAt row i j) ↔ (start ≤ i ∧ NegatesAt row i j) := by
  constructor
  · exact fun ⟨after, negates⟩ => ⟨by omega, negates⟩
  · rintro ⟨after, negates⟩
    rcases Nat.eq_or_lt_of_le after with rfl | after
    · exact absurd negates stays
    · exact ⟨after, negates⟩

/-- An item that is no negation is left. -/
theorem keep {item : Item} (rest : Describes row (start + 1) kept folded)
    (bound : start < row.length) (stays : ¬∃ j, NegatesAt row start j)
    (becomes : Becomes (fun i j => start ≤ i ∧ NegatesAt row i j) row start item) :
    Describes row start (start :: kept) (item :: folded) where
  ascending := List.pairwise_cons.mpr
    ⟨fun i member => ((rest.members i).mp member).1, rest.ascending⟩
  members i := by
    rw [List.mem_cons, rest.members]
    constructor
    · rintro (rfl | ⟨after, others⟩)
      · exact ⟨Nat.le_refl i, bound, stays⟩
      · exact ⟨by omega, others⟩
    · rintro ⟨after, others⟩
      exact (Nat.eq_or_lt_of_le after).imp Eq.symm fun after => ⟨after, others⟩
  become := by
    -- No negation begins at the item, so that those from it on are those after it.
    refine .cons becomes (rest.become.imp fun j item becomes => ?_)
    exact becomes.congr fun i => from_succ_iff fun negates => stays ⟨j, negates⟩

/-- Behind a negation, the operand that it is one of is the first item that is left. -/
theorem first_of_negates {j : Nat} (rest : Describes row (start + 1) kept folded)
    (negates : NegatesAt row start j) : ∃ others, kept = j :: others := by
  obtain ⟨e, isOperand⟩ := negates.operand
  have stays : ¬∃ k, NegatesAt row j k := by
    rintro ⟨k, again⟩
    obtain ⟨s, ⟨⟩⟩ := again.item_eq isOperand
  have member : j ∈ kept :=
    (rest.members j).mpr ⟨negates.before, (List.getElem?_eq_some_iff.mp isOperand).1, stays⟩
  cases kept with
  | nil => cases member
  | cons first others =>
    obtain ⟨after, -, stays⟩ := (rest.members first).mp List.mem_cons_self
    rcases List.mem_cons.mp member with rfl | further
    · exact ⟨others, rfl⟩
    · have before : first < j := (List.pairwise_cons.mp rest.ascending).1 j further
      exact absurd ⟨j, negates.later (by omega) before⟩ stays

/-- A minus sign where an operand is expected is a negation if what follows it is folded into an
operand. -/
theorem exists_negates {s : Span} {e : Expr}
    (rest : Describes row (start + 1) kept (.operand e :: folded))
    (expected : start = 0 ∨ ∃ op s, row[start - 1]? = some (.operator op s))
    (found : row[start]? = some (.operator .subtract s)) : ∃ j, NegatesAt row start j := by
  obtain ⟨j, others, becomes, -, rfl⟩ := List.forall₂_cons_right_iff.mp rest.become
  obtain ⟨after, bound, -⟩ := (rest.members j).mp List.mem_cons_self
  refine ⟨j, expected, after, fun k from_ before => ?_, ?_⟩
  · rcases Nat.eq_or_lt_of_le from_ with rfl | later
    · exact ⟨s, found⟩
    -- What stands before the first item that is left is a negation.
    have gone : k ∉ j :: others := by
      rintro (_ | ⟨_, further⟩)
      · exact Nat.lt_irrefl _ before
      · have := (List.pairwise_cons.mp rest.ascending).1 k further
        omega
    by_contra noSign
    refine gone ((rest.members k).mpr ⟨later, by omega, ?_⟩)
    rintro ⟨m, negates⟩
    exact noSign negates.sign
  · cases becomes with
    | operand signs isOperand => exact ⟨_, isOperand⟩

/-- A negation joins the operand that it is one of. -/
theorem negate {s : Span} {e : Expr} {j : Nat}
    (rest : Describes row (start + 1) kept (.operand e :: folded))
    (found : row[start]? = some (.operator .subtract s)) (negates : NegatesAt row start j) :
    Describes row start kept (.operand (.unary .negate s e) :: folded) := by
  obtain ⟨others, rfl⟩ := rest.first_of_negates negates
  obtain ⟨becomes, later⟩ := List.forall₂_cons.mp rest.become
  refine ⟨rest.ascending, fun i => ?_, .cons ?_ ?_⟩
  · rw [rest.members]
    constructor
    · exact fun ⟨after, others⟩ => ⟨by omega, others⟩
    · rintro ⟨after, bound, stays⟩
      rcases Nat.eq_or_lt_of_le after with rfl | after
      · exact absurd ⟨j, negates⟩ stays
      · exact ⟨after, bound, stays⟩
  · cases becomes with
    | @operand e signs isOperand bound negations places =>
      -- The negations that the operand has taken already begin right after this one.
      have place : j - signs.length = start + 1 := by
        have before := negates.before
        have first := negations (start + 1)
        have last := negations (j - signs.length)
        by_cases next : start + 1 < j
        · have := (first.mp ⟨Nat.le_refl _, negates.later (by omega) next⟩).1
          have := (last.mpr ⟨Nat.le_refl _, by omega⟩).1
          omega
        · by_cases none : signs.length = 0
          · omega
          · have := (last.mpr ⟨Nat.le_refl _, by omega⟩).1
            omega
      refine Becomes.operand (s :: signs) isOperand ?_ (fun i => ?_) fun k t sign => ?_
      · rw [List.length_cons]
        omega
      · rw [List.length_cons, show j - (signs.length + 1) = start by omega]
        exact ⟨fun ⟨after, own⟩ => ⟨after, own.before⟩,
          fun ⟨after, before⟩ => ⟨after, negates.later after before⟩⟩
      · rw [List.length_cons]
        cases k with
        | zero =>
          cases sign
          rw [show j - (signs.length + 1) + 0 = start by omega]
          exact found
        | succ k =>
          rw [show j - (signs.length + 1) + (k + 1) = j - signs.length + k by omega]
          exact places k t sign
  · have apart : ∀ k ∈ others, j ≠ k := fun k further =>
      Nat.ne_of_lt ((List.pairwise_cons.mp rest.ascending).1 k further)
    have both := (List.forall₂_and_left _ _).mpr ⟨apart, later⟩
    refine both.imp fun k item ⟨apart, becomes⟩ => ?_
    exact becomes.congr fun i => from_succ_iff fun again => apart (negates.unique again)

end Describes

/-- Where a part of a row ends, an operand is expected if it is empty or ends with an operator. -/
theorem operandExpected_reverse_iff {before after : List Item} :
    operandExpected before.reverse = true ↔
      before.length = 0 ∨ ∃ op s, (before ++ after)[before.length - 1]? = some (operator op s) := by
  induction before using List.reverseRecOn with
  | nil => simp [operandExpected]
  | append_singleton before item _ => cases item <;> simp [operandExpected]

/-- From an offset on, folding leaves what is no negation. -/
theorem describes_foldFrom (before after : List Item) :
    ∃ kept, Describes (before ++ after) before.length kept
      (foldFrom (operandExpected before.reverse) after) := by
  induction after generalizing before with
  | nil =>
    rw [List.append_nil]
    exact ⟨[], .done before⟩
  | cons item after ih =>
    have found : (before ++ item :: after)[before.length]? = some item := by simp
    have bound : before.length < (before ++ item :: after).length := by simp
    obtain ⟨kept, rest⟩ := ih (before ++ [item])
    rw [List.append_assoc, List.singleton_append, List.length_append, List.length_singleton,
      List.reverse_append, List.reverse_singleton, List.singleton_append] at rest
    cases item with
    | operand e =>
      have stays : ¬∃ j, NegatesAt (before ++ operand e :: after) before.length j := by
        rintro ⟨j, negates⟩
        obtain ⟨s, ⟨⟩⟩ := negates.item_eq found
      refine ⟨_, rest.keep bound stays (.operand [] found (Nat.zero_le _) (fun i => ?_) nofun)⟩
      exact ⟨fun ⟨after, negates⟩ => ⟨after, negates.before⟩, fun ⟨after, before⟩ => by
        rw [List.length_nil] at after
        omega⟩
    | operator op s =>
      replace rest : Describes _ _ _ (foldFrom true after) := rest
      by_cases next : ∃ e later, foldFrom true after = operand e :: later
      · obtain ⟨e, later, next⟩ := next
        rw [next] at rest
        rw [foldFrom_operator_of_operand next]
        split
        next negation =>
          obtain ⟨expected, rfl⟩ := negation
          obtain ⟨j, negates⟩ := rest.exists_negates (operandExpected_reverse_iff.mp expected) found
          exact ⟨_, rest.negate found negates⟩
        next keeps =>
          have stays : ¬∃ j, NegatesAt (before ++ operator op s :: after) before.length j := by
            rintro ⟨j, negates⟩
            obtain ⟨t, ⟨⟩⟩ := negates.item_eq found
            exact keeps ⟨operandExpected_reverse_iff.mpr negates.expected, rfl⟩
          exact ⟨_, rest.keep bound stays (.operator found)⟩
      · have next : ∀ e later, foldFrom true after ≠ operand e :: later := fun e later begins =>
          next ⟨e, later, begins⟩
        rw [foldFrom_operator_of_none next]
        have stays : ¬∃ j, NegatesAt (before ++ operator op s :: after) before.length j := by
          rintro ⟨j, negates⟩
          obtain ⟨others, rfl⟩ := rest.first_of_negates negates
          obtain ⟨e, isOperand⟩ := negates.operand
          obtain ⟨first, later, becomes, -, begins⟩ := List.forall₂_cons_left_iff.mp rest.become
          cases becomes with
          | operator isOperator => cases isOperand.symm.trans isOperator
          | operand signs _ => exact next _ _ begins
        exact ⟨_, rest.keep bound stays (.operator found)⟩

/-- In a folded row the items that were no negations follow each other as before. A minus sign is a
negation exactly if nothing or an operator stands before it and the run of minus signs that begins
with it is followed by an operand. The operand stands behind all minus signs that are negations of
it, the nearest one innermost and each in its own place, and every other item is unchanged. To fold
the row again changes nothing. -/
theorem minus_signs_become_negations (row : List Item) :
    (∃ kept : List ℕ, kept.Pairwise (· < ·) ∧
      (∀ i, i ∈ kept ↔ i < row.length ∧ ¬∃ j, NegatesAt row i j) ∧
      List.Forall₂ (Becomes (NegatesAt row) row) kept (foldNegations row)) ∧
    foldNegations (foldNegations row) = foldNegations row := by
  constructor
  · obtain ⟨kept, described⟩ := describes_foldFrom [] row
    obtain ⟨ascending, members, become⟩ := described
    simp only [List.nil_append, List.length_nil, Nat.zero_le, true_and] at members become
    rw [foldNegations_eq]
    exact ⟨kept, ascending, members, become⟩
  · rw [foldNegations_eq, foldNegations_eq, foldFrom_foldFrom]

/-- In `1---2` the first minus sign is a subtraction and the others are negations. -/
example : foldNegations [operand (.number 1 ⟨0, 1⟩), operator .subtract ⟨1, 1⟩,
    operator .subtract ⟨2, 1⟩, operator .subtract ⟨3, 1⟩, operand (.number 2 ⟨4, 1⟩)] =
      [operand (.number 1 ⟨0, 1⟩), operator .subtract ⟨1, 1⟩,
        operand (negated [⟨2, 1⟩, ⟨3, 1⟩] (.number 2 ⟨4, 1⟩))] := rfl

end ExactCalc.Item
