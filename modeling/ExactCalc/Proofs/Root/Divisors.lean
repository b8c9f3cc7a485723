import ExactCalc.Proofs.Root.Accuracy
import ExactCalc.Statement.Execution

/-!
# What evaluation divides by

Division of rational numbers is total here and gives zero where there is no quotient. That this
never happens is a fact about divisors: the functions below list what a computation divides by,
following its recursion, and none of it is zero. Newton's method keeps to positive numbers, the
grids have points, and the divisions that the user writes are looked at before they are made.
-/
namespace ExactCalc

namespace Power

namespace RootProblem

/-- What a Newton step from `x` divides by: for the step and for the other end of its bracket. -/
def stepDivisors (p : RootProblem) (x : Rat) : List Rat :=
  [(p.degree : Rat) * x ^ (p.degree - 1), p.improve x ^ (p.degree - 1)]

/-- What the descent from a grid point divides by. -/
def descendDivisors (p : RootProblem) (point : Nat) : List Rat :=
  let x := p.improve (mkRat point p.grid)
  (p.grid : Rat) :: p.stepDivisors (mkRat point p.grid) ++
    if p.accepts x then []
    else if p.gridCeiling x < point then p.descendDivisors (p.gridCeiling x)
    else []
termination_by point
decreasing_by assumption

/-- What the search for a root from a start divides by. -/
def solveDivisors (p : RootProblem) (start : Rat) : List Rat :=
  let x := p.improve start
  p.stepDivisors start ++ if p.accepts x then [] else p.descendDivisors (p.gridCeiling x)

namespace WellPosed

variable {p : RootProblem} {x : ℚ}

theorem stepDivisors_pos (wellPosed : p.WellPosed) (positive : 0 < x) :
    ∀ d ∈ p.stepDivisors x, 0 < d := by
  have degree : (0 : ℚ) < p.degree := Nat.cast_pos.mpr wellPosed.degree
  have steps := wellPosed.improve_pos positive
  simp only [stepDivisors, List.mem_cons, List.not_mem_nil, or_false]
  rintro d (rfl | rfl) <;> positivity

theorem descendDivisors_pos (wellPosed : p.WellPosed) (point : ℕ)
    (positive : (0 : ℚ) < mkRat point p.grid) : ∀ d ∈ p.descendDivisors point, 0 < d := by
  fun_induction p.descendDivisors point with
  | case1 point x ih =>
    have next : (0 : ℚ) < mkRat (p.gridCeiling x) p.grid :=
      (wellPosed.improve_pos positive).trans_le (wellPosed.le_gridCeiling x)
    simp only [List.cons_append, List.mem_cons, List.mem_append]
    rintro d (rfl | here | later)
    · exact wellPosed.grid_pos
    · exact wellPosed.stepDivisors_pos positive d here
    · split at later
      next => cases later
      next =>
        split at later
        next lower => exact ih lower next d later
        next => cases later

theorem solveDivisors_pos (wellPosed : p.WellPosed) (positive : 0 < x) :
    ∀ d ∈ p.solveDivisors x, 0 < d := by
  have next : (0 : ℚ) < mkRat (p.gridCeiling (p.improve x)) p.grid :=
    (wellPosed.improve_pos positive).trans_le (wellPosed.le_gridCeiling _)
  simp only [solveDivisors, List.mem_append]
  rintro d (here | later)
  · exact wellPosed.stepDivisors_pos positive d here
  · split at later
    next => cases later
    next => exact wellPosed.descendDivisors_pos _ next d later

end WellPosed
end RootProblem

/-- What the root of a radicand divides by. All points of the first grid have one denominator, and
so has the tolerance. -/
def rootDivisors (a : Accuracy) (radicand : Rat) (degree : Nat) : List Rat :=
  (a.scale : Rat) ::
    match if radicand.abs < 1 then startBelowOne radicand.abs degree a.scale
      else startAmongIntegers radicand degree with
    | .exact _ => []
    | .approximate x => (rootProblem a radicand degree).solveDivisors x

/-- What a power divides by: a negative exponent inverts the base. -/
def divisors (a : Accuracy) (base exponent : Rat) : List Rat :=
  if exponent < 0 ∧ base = 0 then []
  else
    (if exponent < 0 then [base] else []) ++
      if exponent.den = 1 ∨ radicand base exponent < 0 ∧ exponent.den % 2 = 0 then []
      else rootDivisors a (radicand base exponent) exponent.den

section Positive

variable {a : Accuracy} (scaled : 0 < a.scale) (radix : 0 < a.radix)

include scaled radix

theorem rootDivisors_pos (radicand : ℚ) {degree : ℕ} (proper : 0 < degree) :
    ∀ d ∈ rootDivisors a radicand degree, 0 < d := by
  have newton {start : ℚ} (nonzero : radicand ≠ 0) (positive : 0 < start) :=
    (wellPosed_rootProblem a nonzero proper scaled radix).solveDivisors_pos positive
  simp only [rootDivisors, List.mem_cons]
  rintro d (rfl | later)
  · exact Nat.cast_pos.mpr scaled
  split at later
  next => cases later
  next x start =>
    split at start
    next =>
      obtain ⟨magnitude, positive⟩ :=
        startBelowOne_approximate Rat.abs_nonneg proper scaled start
      rw [abs_eq, abs_pos] at magnitude
      exact newton magnitude positive d later
    next large =>
      rw [abs_eq, not_lt] at large
      have nonzero : radicand ≠ 0 := abs_pos.mp (zero_lt_one.trans_le large)
      exact newton nonzero (startAmongIntegers_approximate start) d later

theorem divisors_ne_zero (base exponent : ℚ) : ∀ d ∈ divisors a base exponent, d ≠ 0 := by
  intro d member
  unfold divisors at member
  split at member
  next => cases member
  next defined =>
    rcases List.mem_append.mp member with inverted | rooted
    · split at inverted
      next negative =>
        obtain rfl := List.mem_singleton.mp inverted
        exact fun zero => defined ⟨negative, zero⟩
      next => cases inverted
    · split at rooted
      next => cases rooted
      next => exact (rootDivisors_pos scaled radix _ exponent.den_pos d rooted).ne'

end Positive
end Power

/-- What the operation of a binary operator divides by. -/
def BinaryOp.divisors (a : Accuracy) (op : BinaryOp) (left right : Rat) : List Rat :=
  match op with
  | .add | .subtract | .multiply => []
  | .divide | .modulus => if right = 0 then [] else [right]
  | .exponent =>
    if right.den ≠ 1 then Power.divisors a left right
    else if left = 0 ∧ right < 0 then []
    else if right < 0 then [Power.whole left right.num.natAbs]
    else []

namespace Expr

mutual

/-- What the evaluation of an expression divides by, up to its first error. -/
def divisors (load : Located Text → Except Failure Rat) (a : Accuracy) : Expr → List Rat
  | number _ _ => []
  | var _ _ => []
  | unary _ _ operand => divisors load a operand
  | binary op _ left right =>
    divisors load a left ++
      match eval load a left with
      | .error _ => []
      | .ok x =>
        divisors load a right ++
          match eval load a right with
          | .error _ => []
          | .ok y => op.divisors a x y
  | apply _ _ operand => divisors load a operand
  | call _ _ _ _ operands => allDivisors load a operands
  | parens _ _ inner => divisors load a inner

def allDivisors (load : Located Text → Except Failure Rat) (a : Accuracy) : List Expr → List Rat
  | [] => []
  | e :: rest =>
    divisors load a e ++
      match eval load a e with
      | .error _ => []
      | .ok _ => allDivisors load a rest

end

end Expr

variable {a : Accuracy}

theorem BinaryOp.divisors_ne_zero (scaled : 0 < a.scale) (radix : 0 < a.radix) (op : BinaryOp)
    (left right : ℚ) : ∀ d ∈ op.divisors a left right, d ≠ 0 := by
  have quotient : ∀ d ∈ (if right = 0 then [] else [right]), d ≠ 0 := by
    intro d member
    split at member
    next => cases member
    next nonzero =>
      obtain rfl := List.mem_singleton.mp member
      exact nonzero
  cases op with
  | add => nofun
  | subtract => nofun
  | multiply => nofun
  | divide => exact quotient
  | modulus => exact quotient
  | exponent =>
    intro d member
    simp only [divisors] at member
    split at member
    next => exact Power.divisors_ne_zero scaled radix left right d member
    split at member
    next => cases member
    next defined =>
      split at member
      next negative =>
        obtain rfl := List.mem_singleton.mp member
        rw [Power.whole_eq_pow]
        exact pow_ne_zero _ fun zero => defined ⟨zero, negative⟩
      next => cases member

mutual

/-- No expression divides by zero. -/
theorem Expr.divisors_ne_zero (scaled : 0 < a.scale) (radix : 0 < a.radix)
    (load : Located Text → Except Failure Rat) : (e : Expr) → ∀ d ∈ e.divisors load a, d ≠ 0
  | .number _ _ => nofun
  | .var _ _ => nofun
  | .unary _ _ operand => Expr.divisors_ne_zero scaled radix load operand
  | .binary op _ left right => by
    intro d member
    rcases List.mem_append.mp member with onLeft | later
    · exact Expr.divisors_ne_zero scaled radix load left d onLeft
    split at later
    next => cases later
    next x _ =>
      rcases List.mem_append.mp later with onRight | own
      · exact Expr.divisors_ne_zero scaled radix load right d onRight
      split at own
      next => cases own
      next y _ => exact op.divisors_ne_zero scaled radix x y d own
  | .apply _ _ operand => Expr.divisors_ne_zero scaled radix load operand
  | .call _ _ _ _ operands => Expr.allDivisors_ne_zero scaled radix load operands
  | .parens _ _ inner => Expr.divisors_ne_zero scaled radix load inner

theorem Expr.allDivisors_ne_zero (scaled : 0 < a.scale) (radix : 0 < a.radix)
    (load : Located Text → Except Failure Rat) :
    (es : List Expr) → ∀ d ∈ Expr.allDivisors load a es, d ≠ 0
  | [] => nofun
  | e :: rest => by
    intro d member
    rcases List.mem_append.mp member with here | later
    · exact Expr.divisors_ne_zero scaled radix load e d here
    split at later
    next => cases later
    next => exact Expr.allDivisors_ne_zero scaled radix load rest d later

end

end ExactCalc
