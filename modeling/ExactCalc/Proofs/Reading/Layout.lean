import ExactCalc.Expr.Written

/-!
# Flat rows: which rows make which expressions

The layout of an expression is the flat row that its tokens are read as: minus signs and binary
operators stand between operands, and only what holds together by itself is one operand. From the
layout of an expression that respects the tiers, folding the negations and joining tier after tier
brings back the expression. In between, the row after a tier is a chain: the operators of that tier
and the tighter ones are joined, the looser ones are not.
-/
namespace ExactCalc.Item

open ExactCalc.Expr

/-- The row that an expression is read as where nothing awaits an operand. -/
def layout : Expr → List Item
  | .unary .negate s e => .operator .subtract s :: layout e
  | .binary op s left right => layout left ++ .operator op s :: layout right
  | e => [.operand e]

/-- The row of an expression whose operators are joined before the given tier and not from it
on. -/
def chain (tier : Nat) : Expr → List Item
  | .binary op s left right =>
    if tier ≤ op.tier then chain tier left ++ .operator op s :: chain tier right
    else [.operand (.binary op s left right)]
  | e => [.operand e]

/-- All operators before the tier: nothing is left of the chain. -/
theorem chain_of_joined {tier : Nat} {e : Expr} (joined : ∀ t ∈ e.tier?, t < tier) :
    chain tier e = [operand e] := by
  unfold chain
  split
  next op s left right =>
    have earlier := joined op.tier rfl
    rw [if_neg (by omega)]
  next => rfl

/-- A layout ends with an operand. -/
theorem layout_last (e : Expr) : ∃ last row, (layout e).reverse = operand last :: row := by
  fun_induction layout e with
  | case1 s e ih =>
    obtain ⟨last, row, ends⟩ := ih
    exact ⟨last, row ++ [operator .subtract s], by simp [ends]⟩
  | case2 op s left right _ ih =>
    obtain ⟨last, row, ends⟩ := ih
    exact ⟨last, row ++ operator op s :: (layout left).reverse, by simp [ends]⟩
  | case3 e => exact ⟨e, [], rfl⟩

/-- After a layout stands no operand, so that a minus sign there is a subtraction. -/
theorem operandExpected_layout (e : Expr) (left : List Item) :
    operandExpected ((layout e).reverse ++ left) = false := by
  obtain ⟨last, row, ends⟩ := layout_last e
  simp [ends, operandExpected]

/-- The sweep over a layout that begins where an operand is expected folds its negations and holds
its first operand. -/
theorem sweepNegations_layout (e : Expr) (tiered : e.IsTiered) (left done : List Item)
    (begins : operandExpected left = true) :
    ∃ first rest, chain 0 e = operand first :: rest ∧
      sweepNegations none ((layout e).reverse ++ left) done =
        sweepNegations (some first) left (rest ++ done) := by
  fun_induction layout e generalizing left done with
  | case1 s e ih =>
    obtain ⟨alone, tiered⟩ := tiered
    obtain ⟨first, rest, single, swept⟩ := ih tiered (operator .subtract s :: left) done rfl
    rw [chain_of_joined (by simp [alone])] at single
    cases single
    refine ⟨.unary .negate s e, [], rfl, ?_⟩
    simp [swept, sweepNegations, begins]
  | case2 op s onLeft onRight ihLeft ihRight =>
    obtain ⟨-, -, tieredLeft, tieredRight⟩ := tiered
    obtain ⟨first, rest, chained, swept⟩ :=
      ihRight tieredRight (operator op s :: ((layout onLeft).reverse ++ left)) done rfl
    obtain ⟨first', rest', chained', swept'⟩ :=
      ihLeft tieredLeft left (operator op s :: operand first :: (rest ++ done)) begins
    refine ⟨first', rest' ++ operator op s :: operand first :: rest, ?_, ?_⟩
    · simp [chain, chained, chained']
    · simp [swept, sweepNegations, operandExpected_layout, swept']
  | case3 e negation binary =>
    refine ⟨e, [], chain_of_joined ?_, by simp [sweepNegations, putBack]⟩
    intro t joined
    unfold tier? at joined
    split at joined
    next op s onLeft onRight => exact absurd rfl (binary op s onLeft onRight)
    next => cases joined

theorem foldNegations_layout (e : Expr) (tiered : e.IsTiered) :
    foldNegations (layout e) = chain 0 e := by
  obtain ⟨first, rest, chained, swept⟩ := sweepNegations_layout e tiered [] [] rfl
  simpa [foldNegations, sweepNegations, putBack, chained] using swept

/-- A row, given with the last item first, that the next operand does not join at this tier. -/
def Unjoinable (ops : List BinaryOp) : List Item → Prop
  | operator op _ :: _ => op ∉ ops
  | _ => True

theorem join_operand {ops : List BinaryOp} {row : List Item} (apart : Unjoinable ops row)
    (e : Expr) : join ops row (operand e) = operand e :: row := by
  unfold join
  split
  next right op s left rest same =>
    rw [if_neg apart]
  next => rfl

/-- Joining a tier takes the chain before the tier to the chain after it, whatever stands on its
left and does not join with it. -/
theorem foldl_join_chain {tier : Nat} {ops : List BinaryOp}
    (ranked : ∀ op, op ∈ ops ↔ op.tier = tier) (e : Expr) (tiered : e.IsTiered) (row : List Item)
    (apart : Unjoinable ops row) :
    (chain tier e).foldl (join ops) row = (chain (tier + 1) e).reverse ++ row := by
  fun_induction chain tier e generalizing row with
  | case1 op s left right later ihLeft ihRight =>
    obtain ⟨joinedLeft, joinedRight, tieredLeft, tieredRight⟩ := tiered
    rw [List.foldl_append, ihLeft tieredLeft row apart, List.foldl_cons]
    rcases Nat.eq_or_lt_of_le later with same | loose
    · -- The operator is of this tier: its right operand is joined already, its left one is by now.
      have before : chain tier right = [operand right] :=
        chain_of_joined fun t joined => same ▸ joinedRight t joined
      have now : chain (tier + 1) left = [operand left] :=
        chain_of_joined fun t joined => by have := joinedLeft t joined; omega
      have both :
          chain (tier + 1) (.binary op s left right) = [operand (.binary op s left right)] :=
        chain_of_joined fun t joined => by cases joined; omega
      simp [before, now, both, join, (ranked op).mpr same.symm]
    · have outside : op ∉ ops := fun inside => by have := (ranked op).mp inside; omega
      have split : chain (tier + 1) (.binary op s left right) =
          chain (tier + 1) left ++ operator op s :: chain (tier + 1) right := by
        simp [chain, show tier + 1 ≤ op.tier from loose]
      have kept (before : List Item) :
          join ops before (operator op s) = operator op s :: before := rfl
      have between : Unjoinable ops (operator op s :: ((chain (tier + 1) left).reverse ++ row)) :=
        outside
      rw [kept, ihRight tieredRight _ between, split]
      simp
  | case2 op s left right earlier =>
    have joined :
        chain (tier + 1) (.binary op s left right) = [operand (.binary op s left right)] :=
      chain_of_joined fun t joined => by cases joined; omega
    simp [joined, join_operand apart]
  | case3 e binary =>
    have joined : chain (tier + 1) e = [operand e] := by simp [chain]
    simp [joined, join_operand apart]

theorem reduceTier_chain {tier : Nat} {ops : List BinaryOp}
    (ranked : ∀ op, op ∈ ops ↔ op.tier = tier) (e : Expr) (tiered : e.IsTiered) :
    reduceTier (chain tier e) ops = chain (tier + 1) e := by
  simp [reduceTier, foldl_join_chain ranked e tiered [] trivial]

/-- There is no tier after the loosest. -/
theorem chain_four (e : Expr) : chain 4 e = [operand e] := by
  refine chain_of_joined fun t joined => ?_
  unfold tier? at joined
  split at joined
  next op _ _ _ =>
    cases joined
    cases op <;> decide
  next => cases joined

/-- An expression that respects the tiers is the one that its layout denotes. -/
theorem reduce_layout (e : Expr) (tiered : e.IsTiered) : reduce (layout e) = [operand e] := by
  have powers : ∀ op, op ∈ [BinaryOp.exponent] ↔ op.tier = 0 := fun op => by cases op <;> decide
  have remainders : ∀ op, op ∈ [BinaryOp.modulus] ↔ op.tier = 1 := fun op => by
    cases op <;> decide
  have products : ∀ op, op ∈ [BinaryOp.multiply, .divide] ↔ op.tier = 2 := fun op => by
    cases op <;> decide
  have sums : ∀ op, op ∈ [BinaryOp.add, .subtract] ↔ op.tier = 3 := fun op => by
    cases op <;> decide
  simp only [reduce, BinaryOp.tiers, List.foldl_cons, List.foldl_nil, foldNegations_layout e tiered,
    reduceTier_chain powers e tiered, reduceTier_chain remainders e tiered,
    reduceTier_chain products e tiered, reduceTier_chain sums e tiered]
  exact chain_four e

theorem toExpr?_layout (e : Expr) (tiered : e.IsTiered) : toExpr? (layout e) = .ok (some e) := by
  simp [toExpr?, reduce_layout e tiered, single?]

end ExactCalc.Item
