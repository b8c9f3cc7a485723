import ExactCalc.Numeral.Positional

/-!
# Integers on the command line

An integer option may have spacing around it, a sign in front and single underscores between its
digits. The decimal digits of every script count as digits, and the spaces of every script as
spacing. A row of digits that is too long to be converted is no integer.
-/
namespace ExactCalc.Options

/-- The characters that are zero in the scripts that have decimal digits of their own in Unicode
14.0. The digits from one to nine follow their zero. -/
def scriptZeros : List Nat :=
  [0x30, 0x660, 0x6f0, 0x7c0, 0x966, 0x9e6, 0xa66, 0xae6, 0xb66, 0xbe6, 0xc66, 0xce6, 0xd66, 0xde6,
    0xe50, 0xed0, 0xf20, 0x1040, 0x1090, 0x17e0, 0x1810, 0x1946, 0x19d0, 0x1a80, 0x1a90, 0x1b50,
    0x1bb0, 0x1c40, 0x1c50, 0xa620, 0xa8d0, 0xa900, 0xa9d0, 0xa9f0, 0xaa50, 0xabf0, 0xff10,
    0x104a0, 0x10d30, 0x11066, 0x110f0, 0x11136, 0x111d0, 0x112f0, 0x11450, 0x114d0, 0x11650,
    0x116c0, 0x11730, 0x118e0, 0x11950, 0x11c50, 0x11d50, 0x11da0, 0x16a60, 0x16ac0, 0x16b50,
    0x1d7ce, 0x1d7d8, 0x1d7e2, 0x1d7ec, 0x1d7f6, 0x1e140, 0x1e2f0, 0x1e950, 0x1fbf0]

/-- The decimal digit of any script that a character is. -/
def decimalDigit? (c : Char) : Option Nat :=
  (scriptZeros.find? fun first => first ≤ c.toNat && c.toNat < first + 10).map (c.toNat - ·)

/-- The characters that may surround an integer: blanks, the vertical tab and the spaces beyond
ASCII. -/
def isPadding (c : Char) : Bool :=
  Text.isBlank c || c = '\x0b' || (0x2000 ≤ c.toNat && c.toNat ≤ 0x200a) ||
    [0x85, 0xa0, 0x1680, 0x2028, 0x2029, 0x202f, 0x205f, 0x3000].contains c.toNat

/-- The digits of a row in which single underscores may stand between digits. The first argument
tells whether a digit has to come next. -/
def digitRow? (digitDue : Bool) : Text → Option (List Nat)
  | [] => if digitDue then none else some []
  | c :: rest =>
    if c = '_' then if digitDue then none else digitRow? true rest
    else do
      let digit ← decimalDigit? c
      return digit :: (← digitRow? false rest)

/-- The number of a row of digits, if it can be converted. -/
def natural? (row : Text) : Option Nat :=
  ((digitRow? true row).filter fun digits => Positional.Converts 10 digits.length).map
    (Positional.value 10)

/-- The integer that a word of the command line denotes. -/
def integer? (word : Text) : Option Int :=
  match Text.trim isPadding word with
  | '+' :: row => (natural? row).map Int.ofNat
  | '-' :: row => (natural? row).map fun n => -n
  | row => (natural? row).map Int.ofNat

end ExactCalc.Options
