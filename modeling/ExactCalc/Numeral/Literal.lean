import ExactCalc.Numeral.Positional

/-!
# Number literals

A literal is a row of digits of the radix in which one point may stand and underscores may stand
anywhere. Its value is the integer that all digits denote, divided by the weight of the digits
after the point. A literal with more digits than can be converted to a number has a value all the
same, but reading it fails. The radix is one from 2 to 16, as in valid settings.
-/
namespace ExactCalc.Literal

/-- The value of a literal. Without its underscores it has digits of the radix only, at least one,
and at most one point. -/
def value? (radix : Nat) (word : Text) : Option Rat :=
  let kept := word.filter (· ≠ '_')
  let whole := kept.takeWhile (· ≠ '.')
  let fraction := (kept.dropWhile (· ≠ '.')).drop 1
  match (whole ++ fraction).mapM (Digit.read? radix) with
  | some (first :: rest) =>
    some (mkRat (Positional.value radix (first :: rest))
      (Positional.weight radix fraction.length))
  | _ => none

/-- Underscores and the place of the point do not matter, but a second point and the absence of
digits do. -/
example :
    value? 10 "1_000.5_".toList = some (mkRat 2001 2) ∧ value? 16 ".F".toList = some (mkRat 15 16) ∧
      value? 10 "1.2.3".toList = none ∧ value? 10 "_.".toList = none := by decide +kernel

/-- The number of digits of a literal. Zeros in front are digits like others. -/
def digitCount (word : Text) : Nat := (word.filter fun c => c ≠ '_' ∧ c ≠ '.').length

/-- Why a word is not read as a number. -/
inductive Unread where
  /-- It is no literal. -/
  | malformed
  /-- It is a literal that cannot be converted, with so many digits. -/
  | overlong (digits : Nat)
  deriving DecidableEq, Repr

/-- Read a word as a number. Whether the word is a literal is found out first. -/
def read (radix : Nat) (word : Text) : Except Unread Rat :=
  match value? radix word with
  | none => .error .malformed
  | some value =>
    if Positional.Converts radix (digitCount word) then .ok value
    else .error (.overlong (digitCount word))

end ExactCalc.Literal
