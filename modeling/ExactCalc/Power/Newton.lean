import ExactCalc.Numeral.Positional

/-!
# Newton's method for roots

From any positive `x` a Newton step for the root of a positive magnitude lands at or above the
root. The magnitude divided by the step's power of one degree less is then at or below the root,
so that the two bracket it, and the step is accepted when the bracket is narrow enough. A step that
is not accepted is rounded up to a grid, which keeps it at or above the root and its notation short.
-/
namespace ExactCalc.Power

/-- What the search for a root is given: the number, the degree of the root, the greatest width of
the final bracket and the number of grid points to one. -/
structure RootProblem where
  magnitude : Rat
  degree : Nat
  tolerance : Rat
  grid : Nat

namespace RootProblem

/-- The Newton step from `x`: the weighted mean of `x` and the magnitude over the power of `x` of
one degree less. -/
def improve (p : RootProblem) (x : Rat) : Rat :=
  (p.magnitude + ((p.degree - 1 : Nat) : Rat) * x ^ p.degree) /
    ((p.degree : Rat) * x ^ (p.degree - 1))

/-- The other end of the bracket that begins at `x`. -/
def partner (p : RootProblem) (x : Rat) : Rat := p.magnitude / x ^ (p.degree - 1)

/-- Whether the bracket of a step is narrow enough. -/
def accepts (p : RootProblem) (x : Rat) : Bool := decide (x - p.partner x ≤ p.tolerance)

/-- The first grid point at or above `x`. -/
def gridCeiling (p : RootProblem) (x : Rat) : Nat := (x * (p.grid : Rat)).ceil.toNat

/-- Step from grid point to grid point until a step is accepted. The grid points descend; a step
that does not lead to a lower grid point is taken as it is. -/
def descend (p : RootProblem) (point : Nat) : Rat :=
  let x := p.improve (mkRat point p.grid)
  if p.accepts x then x
  else if p.gridCeiling x < point then p.descend (p.gridCeiling x)
  else x
termination_by point
decreasing_by assumption

/-- The root, from a positive start that need not be above it. -/
def solve (p : RootProblem) (start : Rat) : Rat :=
  let x := p.improve start
  if p.accepts x then x else p.descend (p.gridCeiling x)

end RootProblem
end ExactCalc.Power
