import ExactCalc.Numeral.Display

/-!
# Negative radices

Division by a radix below minus one that rounds its quotient down leaves remainders between the
radix and zero, and a number is written with these as its digits. Zero is written as usual, and
the digit that takes away `k` with the character that stands `k` places before the end of the
thirty-six digit characters. The radix is given by its magnitude.

The weight of an odd number of places is negative. What stands before the point is then below
zero, where no digits can be written, unless the number is rounded to zero.
-/
namespace ExactCalc.NegativeRadix

/-- How much each digit of an integer takes away, the last digit first. A magnitude below two has
no notation. -/
def digitsReversed (magnitude : Nat) (n : Int) : List Nat :=
  if n = 0 ∨ magnitude < 2 then []
  else ((-n) % magnitude).toNat :: digitsReversed magnitude ((-n) / magnitude)
termination_by 2 * n.natAbs + (if 0 < n then 1 else 0)
decreasing_by
  rename_i h
  have hle := Int.natAbs_ediv_le_natAbs (-n) magnitude
  have hmul := Int.mul_ediv_self_le (x := -n) (k := magnitude) (by omega)
  have hnonneg : n < 0 → 0 ≤ (-n) / (magnitude : Int) := fun _ =>
    Int.ediv_nonneg (by omega) (by omega)
  rw [Int.natAbs_neg] at hle
  generalize (-n) / (magnitude : Int) = quotient at *
  have hhalf : 0 < quotient → 2 * quotient ≤ -n := fun hq => by
    have := Int.mul_le_mul_of_nonneg_right (a := 2) (b := (magnitude : Int)) (c := quotient)
      (by omega) (by omega)
    omega
  split <;> split <;> omega

/-- The character of a digit that takes away `k`. -/
def toChar (k : Nat) : Char := Digit.toChar ((36 - k) % 36)

def plain (magnitude : Nat) (upper : Bool) (n : Nat) : Text :=
  if n = 0 then ['0']
  else
    let digits := (digitsReversed magnitude n).reverse.map toChar
    if upper then Text.raised digits else digits

example :
    plain 2 false 5 = "zzzz".toList ∧ plain 10 false 100 = "zr00".toList ∧
      plain 16 true 255 = "ZL0Z".toList := by decide +kernel

/-- A natural number in front of the point or of a fraction bar. -/
def whole (magnitude : Nat) (style : NumberStyle) (n : Nat) : Text :=
  let digits := plain magnitude style.upper n
  if style.commas then NumberStyle.group ',' digits else digits

def renderFraction (magnitude : Nat) (style : NumberStyle) (v : Rat) : Text :=
  let sign := if v < 0 then ['-'] else []
  let below := if v.den = 1 then [] else '/' :: whole magnitude style v.den
  sign ++ whole magnitude style v.num.natAbs ++ below

def places (magnitude : Nat) (upper : Bool) (precision n : Nat) (exact : Bool) : Text :=
  if precision = 0 then []
  else
    let padded := (plain magnitude upper n).leftpad precision '0'
    if exact then Text.dropTrailing (· = '0') padded else padded

def render (magnitude : Nat) (style : NumberStyle) (precision : Nat) (v : Rat) :
    Except NegativeNumber Text :=
  let rounded := NumberStyle.roundedMagnitude magnitude precision v
  let scale := Positional.weight magnitude precision
  if precision % 2 = 1 ∧ rounded ≠ 0 then .error ⟨(-(rounded : Int)) / scale⟩
  else
    let sign := if v < 0 ∧ rounded ≠ 0 then ['-'] else []
    let exact := NumberStyle.isExact magnitude precision v
    let fraction := places magnitude style.upper precision (rounded % scale) exact
    let point := if fraction = [] then [] else ['.']
    .ok (sign ++ whole magnitude style (rounded / scale) ++ point ++ fraction)

end ExactCalc.NegativeRadix
