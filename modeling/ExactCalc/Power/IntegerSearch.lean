import ExactCalc.Power.Whole

/-!
# Integers near a root

A search between zero and the radicand for an integer near its root. At every step the middle of
the interval replaces one of its ends; which end is told by whether the error of the middle is
smaller than that of the last middle. That can lead past an integer that is the root exactly.
-/
namespace ExactCalc.Power

/-- How far the power of `x` is from the radicand. -/
def powerError (radicand : Rat) (degree : Nat) (x : Int) : Rat :=
  (whole x degree - radicand).abs

/-- Narrow the interval from `lower` to `upper` until it is at most one wide. `rising` tells that
the lower end was moved last, and `last` is the error at the end that was moved. -/
def narrow (error : Int → Rat) (lower upper : Int) (rising : Bool) (last : Rat) : Int × Int :=
  if upper - lower ≤ 1 then (lower, upper)
  else
    let middle := (upper - lower) / 2 + lower
    let errorThere := error middle
    if rising = decide (errorThere < last) then narrow error middle upper true errorThere
    else narrow error lower middle false errorThere
termination_by (upper - lower).toNat
decreasing_by all_goals omega

/-- The first step: the middle of the interval and the integer after it decide which way the root
lies. -/
def startNarrowing (error : Int → Rat) (lower upper : Int) : Int × Int :=
  let middle := (upper - lower) / 2 + lower
  if error (middle + 1) < error middle then
    narrow error (middle + 1) upper true (error (middle + 1))
  else narrow error lower middle false (error middle)

/-- The integer part of a rational number, that is, without what follows its point. -/
def truncate (v : Rat) : Int := v.num.tdiv v.den

/-- An integer near the root of the radicand: the better end of the interval found. -/
def nearbyInteger (radicand : Rat) (degree : Nat) : Int :=
  let error := powerError radicand degree
  let bound := truncate radicand
  let found := if radicand < 0 then startNarrowing error bound 0 else startNarrowing error 0 bound
  if found.1 = found.2 ∨ error found.2 < error found.1 then found.2 else found.1

end ExactCalc.Power
