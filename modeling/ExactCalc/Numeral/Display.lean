import ExactCalc.Numeral.Positional

/-!
# Writing rational numbers

A rational number is written either rounded to a number of places after the point or exactly as a
fraction. Rounding goes to the nearest number with that many places and a half goes away from
zero. A number that had to be rounded keeps all its places, so that trailing zeros after the point
tell that more digits follow; a number that did not loses them.
-/
namespace ExactCalc

/-- How digits are written: the radix, whether commas part the whole digits in groups of three,
and whether digits above nine are capital letters. -/
structure NumberStyle where
  radix : Nat := 10
  commas : Bool := false
  upper : Bool := false
  deriving DecidableEq, Repr

/-- A number below zero where only digits can be written. -/
structure NegativeNumber where
  given : Int
  deriving DecidableEq, Repr

def NegativeNumber.message (_ : NegativeNumber) : Text :=
  "to_radix_string() requires a non-negative value".toList

namespace NumberStyle

def plain (style : NumberStyle) (n : Nat) : Text :=
  let digits := Positional.write style.radix n
  if style.upper then Text.raised digits else digits

/-- Part a row of digits with marks, in groups of three from the right. -/
def group (mark : Char) : Text → Text
  | [] => []
  | c :: rest =>
    if rest ≠ [] ∧ rest.length % 3 = 0 then c :: mark :: group mark rest
    else c :: group mark rest

example : group ',' "1234567".toList = "1,234,567".toList := by decide

/-- A natural number in front of the point. -/
def whole (style : NumberStyle) (n : Nat) : Text :=
  if style.commas then group ',' (style.plain n) else style.plain n

/-- The number nearest to `v` among those with so many places, times the weight of those places
and without its sign. -/
def roundedMagnitude (radix places : Nat) (v : Rat) : Nat :=
  (v.abs * Positional.weight radix places + 1 / 2).floor.toNat

/-- Whether `v` can be written with so many places. -/
def isExact (radix places : Nat) (v : Rat) : Bool :=
  (v * Positional.weight radix places).den = 1

def places (style : NumberStyle) (precision n : Nat) (exact : Bool) : Text :=
  if precision = 0 then []
  else
    let padded := (style.plain n).leftpad precision '0'
    if exact then Text.dropTrailing (· = '0') padded else padded

/-- A rational number rounded to `precision` places. -/
def render (style : NumberStyle) (precision : Nat) (v : Rat) : Text :=
  let rounded := roundedMagnitude style.radix precision v
  let scale := Positional.weight style.radix precision
  let sign := if v < 0 ∧ rounded ≠ 0 then ['-'] else []
  let fraction := style.places precision (rounded % scale) (isExact style.radix precision v)
  let point := if fraction = [] then [] else ['.']
  sign ++ style.whole (rounded / scale) ++ point ++ fraction

/-- A half goes away from zero, and only a number that had to be rounded keeps its zeros. -/
example :
    ({} : NumberStyle).render 2 (-1 / 8) = "-0.13".toList ∧
      ({} : NumberStyle).render 2 (mkRat 1999 1000) = "2.00".toList ∧
      ({} : NumberStyle).render 2 2 = "2".toList := by decide +kernel

/-- A rational number as numerator and denominator; an integer has no denominator. -/
def renderFraction (style : NumberStyle) (v : Rat) : Text :=
  let sign := if v < 0 then ['-'] else []
  let below := if v.den = 1 then [] else '/' :: style.whole v.den
  sign ++ style.whole v.num.natAbs ++ below

/-- A rational number as messages show it: a fraction in radix ten. -/
def exact (v : Rat) : Text := ({} : NumberStyle).renderFraction v

/-- The digits of an integer, which an integer below zero does not have. -/
def ofInt (style : NumberStyle) (n : Int) : Except NegativeNumber Text :=
  if n < 0 then .error ⟨n⟩ else .ok (style.plain n.toNat)

end NumberStyle
end ExactCalc
