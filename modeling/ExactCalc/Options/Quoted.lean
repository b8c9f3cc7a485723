import ExactCalc.Numeral.Positional
import ExactCalc.Text.Hidden

/-!
# Quoted words

A word that an error message quotes stands between single quotes, or between double quotes if it
holds single quotes but no double ones. The quote and the backslash are escaped by a backslash, and
characters that do not show are written by their code points.
-/
namespace ExactCalc.Options

/-- A code point in so many digits of radix sixteen. -/
def hexadecimal (width : Nat) (c : Char) : Text :=
  (Positional.write 16 c.toNat).leftpad width '0'

/-- A character between quotes of a kind. -/
def escaped (quote c : Char) : Text :=
  if c = quote || c = '\\' then ['\\', c]
  else if c = '\t' then ['\\', 't']
  else if c = '\n' then ['\\', 'n']
  else if c = '\r' then ['\\', 'r']
  else if !Text.isHidden c then [c]
  else if c.toNat < 0x100 then '\\' :: 'x' :: hexadecimal 2 c
  else if c.toNat < 0x10000 then '\\' :: 'u' :: hexadecimal 4 c
  else '\\' :: 'U' :: hexadecimal 8 c

def quoted (word : Text) : Text :=
  let quote := if word.contains '\'' && !word.contains '"' then '"' else '\''
  quote :: word.flatMap (escaped quote) ++ [quote]

end ExactCalc.Options
