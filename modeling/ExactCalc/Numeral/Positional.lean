import ExactCalc.Numeral.Digit

/-!
# Positional notation of natural numbers

`Positional.digits` writes a natural number in a radix and `Positional.value` reads a row of
digits back. The weight of a place is the power of the radix that a digit there counts for.
-/
namespace ExactCalc.Positional

/-- What a digit counts for that stands `places` places before the point: the radix to that
power. -/
def weight (radix places : Nat) : Nat := Nat.pow radix places

/-- The digits of a number, the last one first, and none for zero. A radix below two has no
notation; a number other than zero is then a digit by itself. -/
def digitsReversed (radix n : Nat) : List Nat :=
  if n = 0 then []
  else if radix < 2 then [n]
  else n % radix :: digitsReversed radix (n / radix)
termination_by n
decreasing_by exact Nat.div_lt_self (by omega) (by omega)

/-- The digits of a number, the first one first; zero is written with one digit. -/
def digits (radix n : Nat) : List Nat :=
  if n = 0 then [0] else (digitsReversed radix n).reverse

/-- The number that a row of digits denotes, the first digit counting most. -/
def value (radix : Nat) (digits : List Nat) : Nat :=
  digits.foldl (fun acc digit => acc * radix + digit) 0

/-- A natural number written in a radix, with small letters for the digits above nine. -/
def write (radix n : Nat) : Text := (digits radix n).map Digit.toChar

/-- The most digits that are converted at once between a text and a number. -/
def digitLimit : Nat := 4300

/-- Whether a row of so many digits of a radix can be converted to a number. A power of two as the
radix sets no limit, since its digits are converted one by one. -/
def Converts (radix count : Nat) : Prop := radix.isPowerOfTwo ∨ count ≤ digitLimit

instance (radix count : Nat) : Decidable (Converts radix count) :=
  inferInstanceAs (Decidable (_ ∨ _))

def decimal (n : Nat) : Text := write 10 n

def signedDecimal (n : Int) : Text :=
  if n < 0 then '-' :: decimal n.natAbs else decimal n.natAbs

end ExactCalc.Positional
