import ExactCalc.Fault
import ExactCalc.Power.GridFloor
import ExactCalc.Power.IntegerSearch
import ExactCalc.Power.Newton
import ExactCalc.Power.Whole

/-!
# Powers

A power whose exponent is an integer is exact. Otherwise the power with exponent `n / d` is the
`d`th root of the `n`th power of the base. The magnitude of the result is never below that of the
true root and above it by at most one unit of the last place. For a magnitude below one a root that
is a grid point is found exactly. From one on the search begins among the integers. It can pass a
root that is an integer, and it does not go the same way for a negative number as for its magnitude,
so that an odd root of the one need not be the negated root of the other.
-/
namespace ExactCalc

/-- How accurate inexact results are: to how many places after the point, in which radix. -/
structure Accuracy where
  places : Nat := 11
  radix : Nat := 10
  deriving DecidableEq, Repr

namespace Accuracy

/-- The accuracy of results that are shown with so many places: one place more. -/
def shown (precision : Int) (radix : Nat) : Accuracy := ⟨(precision + 1).toNat, radix⟩

/-- The number of units of the last place to one. -/
def scale (a : Accuracy) : Nat := Positional.weight a.radix a.places

end Accuracy

namespace Power

/-- Either the exact root of a magnitude, or a number from which Newton's method starts. -/
inductive Start where
  | exact (root : Rat)
  | approximate (start : Rat)
  deriving DecidableEq, Repr

/-- Begin the search for the root of a radicand below one in magnitude on the grid. -/
def startBelowOne (magnitude : Rat) (degree scale : Nat) : Start :=
  let below := gridFloor magnitude degree scale
  if whole (mkRat below scale) degree = magnitude then .exact (mkRat below scale)
  else .approximate (mkRat (below + 1) scale)

/-- Begin the search for the root of a radicand of magnitude one or more among the integers. -/
def startAmongIntegers (radicand : Rat) (degree : Nat) : Start :=
  let guess := nearbyInteger radicand degree
  if whole guess degree = radicand then .exact guess
  else .approximate (if guess = 0 then 1 else (guess.natAbs : Rat))

/-- What Newton's method is given for the root of a radicand: its magnitude, and a grid with more
points to a unit of the last place than the degree says. -/
def rootProblem (a : Accuracy) (radicand : Rat) (degree : Nat) : RootProblem where
  magnitude := radicand.abs
  degree := degree
  tolerance := mkRat 1 a.scale
  grid := a.scale * a.radix * degree

/-- The `degree`th root of a radicand, which is not negative if the degree is even. -/
def root (a : Accuracy) (radicand : Rat) (degree : Nat) : Rat :=
  let sign : Rat := if radicand < 0 then -1 else 1
  if radicand.abs < 1 then
    match startBelowOne radicand.abs degree a.scale with
    | .exact r => sign * r
    | .approximate x => sign * (rootProblem a radicand degree).solve x
  else
    match startAmongIntegers radicand degree with
    | .exact r => r
    | .approximate x => sign * (rootProblem a radicand degree).solve x

/-- The number whose root a power is: the base, inverted for a negative exponent, to the magnitude
of the exponent's numerator. -/
def radicand (base exponent : Rat) : Rat :=
  whole (if exponent < 0 then base⁻¹ else base) exponent.num.natAbs

/-- The base to the power of the exponent. -/
def power (a : Accuracy) (base exponent : Rat) : Except MathError Rat :=
  if exponent < 0 ∧ base = 0 then .error .divisionByZero
  else if exponent.den = 1 then .ok (radicand base exponent)
  else if radicand base exponent < 0 ∧ exponent.den % 2 = 0 then .error .imaginaryResult
  else .ok (root a (radicand base exponent) exponent.den)

end Power
end ExactCalc
