import ExactCalc.Text

/-!
# Digits

A digit below 36 is written as one of the characters `0`–`9` and `a`–`z`. Only the first sixteen
can be read, in either case of letter.
-/
namespace ExactCalc.Digit

/-- The character of a digit below 36. -/
def toChar (digit : Nat) : Char :=
  if digit < 10 then Char.ofNat ('0'.toNat + digit) else Char.ofNat ('a'.toNat + (digit - 10))

/-- The digit that a character stands for, up to fifteen. -/
def ofChar? (c : Char) : Option Nat :=
  if '0' ≤ c ∧ c ≤ '9' then some (c.toNat - '0'.toNat)
  else if 'a' ≤ c ∧ c ≤ 'f' then some (c.toNat - 'a'.toNat + 10)
  else if 'A' ≤ c ∧ c ≤ 'F' then some (c.toNat - 'A'.toNat + 10)
  else none

def read? (radix : Nat) (c : Char) : Option Nat :=
  (ofChar? c).filter (· < radix)

end ExactCalc.Digit
