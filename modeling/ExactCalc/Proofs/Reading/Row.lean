import ExactCalc.Expr.Written

/-!
# Flat rows: what folding and joining keep

Every pass over a flat row is a rewriting that writes out the same tokens, and every pass leaves
operands that respect the tiers: after the pass for a tier the operands of the row are joined, if
at all, by operators of that tier or a tighter one. The expression of a row therefore is written
with exactly the tokens of the row and respects the tiers. Nothing is said here about which rows
have an expression.
-/
namespace ExactCalc

namespace Expr

/-- The expression respects the tiers, and the operator that joins its halves, if there is one,
belongs to a tier before the given one. -/
def Below (tier : Nat) (e : Expr) : Prop := e.IsTiered ∧ ∀ t ∈ e.tier?, t < tier

/-- Before the tightest tier stand the expressions that hold together by themselves. -/
theorem below_zero_iff (e : Expr) : e.Below 0 ↔ e.IsTiered ∧ e.tier? = none := by
  simp [Below, Option.eq_none_iff_forall_not_mem]

theorem below_zero_unary (op : UnaryOp) (s : Span) (e : Expr) (operand : e.Below 0) :
    (unary op s e).Below 0 := by
  obtain ⟨tiered, alone⟩ := (below_zero_iff e).mp operand
  exact (below_zero_iff _).mpr ⟨⟨alone, tiered⟩, rfl⟩

theorem below_zero_apply (f : Func) (s : Span) (e : Expr) (operand : e.Below 0) :
    (apply f s e).Below 0 := by
  obtain ⟨tiered, alone⟩ := (below_zero_iff e).mp operand
  exact (below_zero_iff _).mpr ⟨⟨alone, tiered⟩, rfl⟩

/-- An operator joins operands of tiers up to its own on the left and before its own on the
right. -/
theorem below_binary (op : BinaryOp) (s : Span) (left right : Expr)
    (onLeft : left.Below (op.tier + 1)) (onRight : right.Below op.tier) :
    (binary op s left right).Below (op.tier + 1) := by
  refine ⟨⟨fun t joined => ?_, onRight.2, onLeft.1, onRight.1⟩, fun t joined => ?_⟩
  · exact Nat.lt_succ_iff.mp (onLeft.2 t joined)
  · simp only [tier?, Option.mem_def, Option.some.injEq] at joined
    omega

theorem Below.mono {e : Expr} {tier later : Nat} (below : e.Below tier) (le : tier ≤ later) :
    e.Below later :=
  ⟨below.1, fun t joined => Nat.lt_of_lt_of_le (below.2 t joined) le⟩

end Expr

namespace Item

/-- The tokens that an item is written with. -/
def tokens : Item → List Token
  | operand e => e.tokens
  | operator op _ => [.binary op]

/-- The tokens that a row of items is written with. -/
def rowTokens (row : List Item) : List Token := row.flatMap tokens

@[simp] theorem rowTokens_nil : rowTokens [] = [] := rfl

@[simp] theorem rowTokens_cons (item : Item) (row : List Item) :
    rowTokens (item :: row) = item.tokens ++ rowTokens row := rfl

@[simp] theorem rowTokens_append (row later : List Item) :
    rowTokens (row ++ later) = rowTokens row ++ rowTokens later := by
  simp [rowTokens]

/-- All operands of the row are below the tier. -/
def RowBelow (tier : Nat) (row : List Item) : Prop := ∀ e, operand e ∈ row → e.Below tier

@[simp] theorem rowBelow_nil (tier : Nat) : RowBelow tier [] := by
  simp [RowBelow]

@[simp] theorem rowBelow_operand (tier : Nat) (e : Expr) (row : List Item) :
    RowBelow tier (operand e :: row) ↔ e.Below tier ∧ RowBelow tier row := by
  simp [RowBelow]

@[simp] theorem rowBelow_operator (tier : Nat) (op : BinaryOp) (s : Span) (row : List Item) :
    RowBelow tier (operator op s :: row) ↔ RowBelow tier row := by
  simp [RowBelow]

@[simp] theorem rowBelow_reverse (tier : Nat) (row : List Item) :
    RowBelow tier row.reverse ↔ RowBelow tier row := by
  simp [RowBelow]

@[simp] theorem putBack_none (row : List Item) : putBack none row = row := rfl

@[simp] theorem putBack_some (e : Expr) (row : List Item) :
    putBack (some e) row = operand e :: row := rfl

/-- The sweep writes out what is still on the left and then what it has behind it. -/
theorem sweepNegations_tokens (held : Option Expr) (left done : List Item) :
    rowTokens (sweepNegations held left done) =
      rowTokens left.reverse ++ rowTokens (putBack held done) := by
  fun_induction sweepNegations held left done with
  | case1 => simp
  | case2 _ _ _ _ ih => simp [ih]
  | case3 _ _ _ _ ih => simp [ih]
  | case4 op s left done e negates ih =>
    obtain ⟨rfl, -⟩ := negates
    simp [ih, tokens, Expr.tokens, UnaryOp.token]
  | case5 _ _ _ _ _ _ ih => simp [ih]

theorem foldNegations_tokens (row : List Item) : rowTokens (foldNegations row) = rowTokens row := by
  simp [foldNegations, sweepNegations_tokens]

/-- Negations do not join operands: what held together by itself still does. -/
theorem sweepNegations_below (held : Option Expr) (left done : List Item)
    (onLeft : RowBelow 0 left) (behind : RowBelow 0 (putBack held done)) :
    RowBelow 0 (sweepNegations held left done) := by
  fun_induction sweepNegations held left done with
  | case1 => exact behind
  | case2 held e left done ih =>
    simp only [rowBelow_operand] at onLeft
    exact ih onLeft.2 (by simpa using ⟨onLeft.1, behind⟩)
  | case3 op s left done ih =>
    simp only [rowBelow_operator] at onLeft
    exact ih onLeft (by simpa using behind)
  | case4 op s left done e negates ih =>
    simp only [rowBelow_operator] at onLeft
    simp only [putBack_some, rowBelow_operand] at behind
    exact ih onLeft (by simpa using ⟨Expr.below_zero_unary _ _ _ behind.1, behind.2⟩)
  | case5 op s left done e keeps ih =>
    simp only [rowBelow_operator] at onLeft
    exact ih onLeft (by simpa using behind)

theorem foldNegations_below (row : List Item) (below : RowBelow 0 row) :
    RowBelow 0 (foldNegations row) :=
  sweepNegations_below none row.reverse [] (by simpa using below) (by simp)

theorem join_tokens (tier : List BinaryOp) (row : List Item) (item : Item) :
    rowTokens (join tier row item).reverse = rowTokens row.reverse ++ item.tokens := by
  unfold join
  split
  next =>
    split
    · simp [tokens, Expr.tokens]
    · simp
  next => simp

theorem reduceTier_tokens (row : List Item) (tier : List BinaryOp) :
    rowTokens (reduceTier row tier) = rowTokens row := by
  have joined (begun : List Item) :
      rowTokens (row.foldl (join tier) begun).reverse =
        rowTokens begun.reverse ++ rowTokens row := by
    induction row generalizing begun with
    | nil => simp
    | cons item row ih => rw [List.foldl_cons, ih, join_tokens]; simp
  simpa [reduceTier] using joined []

/-- The item that is added comes from the tiers before, and what it joins may be of the tier. -/
theorem join_below {tier : Nat} {ops : List BinaryOp} (ranked : ∀ op ∈ ops, op.tier = tier)
    (row : List Item) (item : Item) (begun : RowBelow (tier + 1) row)
    (added : RowBelow tier [item]) : RowBelow (tier + 1) (join ops row item) := by
  have grown : RowBelow (tier + 1) (item :: row) := by
    cases item with
    | operand e =>
      simp only [rowBelow_operand] at added ⊢
      exact ⟨added.1.mono (Nat.le_succ tier), begun⟩
    | operator op s => simpa using begun
  unfold join
  split
  next right op s left rest =>
    split
    next inTier =>
      simp only [rowBelow_operand, rowBelow_operator] at begun added ⊢
      have rank := ranked op inTier
      subst rank
      exact ⟨Expr.below_binary op s left right begun.1 added.1, begun.2⟩
    next => exact grown
  next => exact grown

theorem reduceTier_below {tier : Nat} (ops : List BinaryOp) (ranked : ∀ op ∈ ops, op.tier = tier)
    (row : List Item) (below : RowBelow tier row) : RowBelow (tier + 1) (reduceTier row ops) := by
  have joined (begun : List Item) (start : RowBelow (tier + 1) begun) :
      RowBelow (tier + 1) (row.foldl (join ops) begun) := by
    induction row generalizing begun with
    | nil => exact start
    | cons item row ih =>
      have added : RowBelow tier [item] := fun e member => below e (by simp_all)
      have later : RowBelow tier row := fun e member => below e (List.mem_cons_of_mem _ member)
      exact ih later _ (join_below ranked begun item start added)
  simpa [reduceTier] using joined [] (rowBelow_nil _)

theorem reduce_tokens (row : List Item) : rowTokens (reduce row) = rowTokens row := by
  simp [reduce, BinaryOp.tiers, reduceTier_tokens, foldNegations_tokens]

theorem reduce_below (row : List Item) (below : RowBelow 0 row) : RowBelow 4 (reduce row) := by
  have negated := foldNegations_below row below
  have powers := reduceTier_below [.exponent] (by simp [BinaryOp.tier]) _ negated
  have remainders := reduceTier_below [.modulus] (by simp [BinaryOp.tier]) _ powers
  have products := reduceTier_below [.multiply, .divide] (by simp [BinaryOp.tier]) _ remainders
  exact reduceTier_below [.add, .subtract] (by simp [BinaryOp.tier]) _ products

theorem single?_eq_some {row : List Item} {e : Expr} (h : single? row = .ok (some e)) :
    row = [operand e] := by
  unfold single? at h
  split at h <;> simp_all

theorem single?_eq_none {row : List Item} (h : single? row = .ok none) : row = [] := by
  unfold single? at h
  split at h <;> simp_all

/-- The expression of a row is written with the tokens of the row and respects the tiers. -/
theorem toExpr?_eq_some {row : List Item} {e : Expr} (below : RowBelow 0 row)
    (h : toExpr? row = .ok (some e)) : e.tokens = rowTokens row ∧ e.IsTiered := by
  have reduced := single?_eq_some h
  have written := reduce_tokens row
  have tiered := reduce_below row below
  rw [reduced] at written tiered
  simp only [rowBelow_operand] at tiered
  exact ⟨by simpa [tokens] using written, tiered.1.1⟩

/-- Only a row that is written with nothing has no expression and no defect. -/
theorem toExpr?_eq_none {row : List Item} (h : toExpr? row = .ok none) : rowTokens row = [] := by
  have written := reduce_tokens row
  rw [single?_eq_none h] at written
  exact written.symm

end Item
end ExactCalc
