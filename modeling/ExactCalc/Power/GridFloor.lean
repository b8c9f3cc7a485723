/-!
# Roots on a grid

The points of a grid are the multiples of `1 / scale`. For a magnitude below one, bisection finds
the last grid point that is not above its root.
-/
namespace ExactCalc.Power

/-- Whether the `k`th grid point is at most the root: its power is at most the magnitude. -/
def atMostRoot (magnitude : Rat) (degree scale k : Nat) : Bool :=
  decide ((mkRat k scale) ^ degree ≤ magnitude)

/-- Halve the interval from `lower` to `upper` until it is at most one wide, keeping its lower end
at or below the root and its upper end above it. The answer is the lower end. -/
def bisect (magnitude : Rat) (degree scale lower upper : Nat) : Nat :=
  if upper - lower ≤ 1 then lower
  else
    let middle := (lower + upper) / 2
    if atMostRoot magnitude degree scale middle then bisect magnitude degree scale middle upper
    else bisect magnitude degree scale lower middle
termination_by upper - lower
decreasing_by all_goals omega

/-- The number of the last grid point at or below the root of a magnitude below one. -/
def gridFloor (magnitude : Rat) (degree scale : Nat) : Nat := bisect magnitude degree scale 0 scale

end ExactCalc.Power
