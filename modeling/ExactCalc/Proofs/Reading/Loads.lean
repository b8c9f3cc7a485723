import ExactCalc.Expr.Written
import ExactCalc.Proofs.Reading.Standing
import ExactCalc.Statement.Execution

/-!
# Values depend on the variables of an expression only

Evaluation asks for variables whose names are among the tokens of the expression, each at the place
where it stands. Where two sources of values answer these requests alike, the expression has the
same value, or fails in the same way.
-/
namespace ExactCalc

namespace Expr

variable {load load' : Located Text → Except Failure Rat}

mutual

theorem eval_congr (a : Accuracy) : (e : Expr) →
    (∀ name, Token.var name ∈ e.tokens → ∀ s, load ⟨name, s⟩ = load' ⟨name, s⟩) →
    e.eval load a = e.eval load' a
  | .number _ _, _ => rfl
  | .var name s, same => same name List.mem_cons_self s
  | .unary _ _ operand, same => by
    simp only [eval, eval_congr a operand fun name member => same name (by simp [tokens, member])]
  | .binary _ _ left right, same => by
    simp only [eval, eval_congr a left fun name member => same name (by simp [tokens, member]),
      eval_congr a right fun name member => same name (by simp [tokens, member])]
  | .apply _ _ operand, same => by
    simp only [eval, eval_congr a operand fun name member => same name (by simp [tokens, member])]
  | .call _ _ _ _ operands, same => by
    simp only [eval,
      evalAll_congr a operands fun name member => same name (by simp [tokens, member])]
  | .parens _ _ inner, same => by
    simp only [eval, eval_congr a inner fun name member => same name (by simp [tokens, member])]

theorem evalAll_congr (a : Accuracy) : (es : List Expr) →
    (∀ name, Token.var name ∈ argumentTokens es → ∀ s, load ⟨name, s⟩ = load' ⟨name, s⟩) →
    evalAll load a es = evalAll load' a es
  | [], _ => rfl
  | [e], same => by simp only [evalAll, eval_congr a e same]
  | e :: next :: rest, same => by
    have first := eval_congr a e fun name member => same name (by simp [argumentTokens, member])
    have later := evalAll_congr a (next :: rest) fun name member =>
      same name (by simp [argumentTokens, member])
    simp only [evalAll] at later ⊢
    rw [first, later]

end

end Expr

/-- The variables of a statement are among its tokens. -/
theorem Statement.var_mem_of_root {tokens : List (Located Token)} {statement : Statement}
    {name : Text} (read : Statement.read tokens = .ok statement)
    (used : Token.var name ∈ statement.root.tokens) : ∃ span, ⟨.var name, span⟩ ∈ tokens := by
  rw [← Expr.StandsOn.values _ _ (Statement.standsOn_of_read read)] at used
  obtain ⟨⟨_, span⟩, member, rfl⟩ := List.mem_map.mp used
  exact ⟨span, (splitTarget_suffix tokens).subset member⟩

end ExactCalc
