/-!
# Text

Input lines, names and rendered results are lists of characters, so that an offset into a line is
a position in a list and cutting a line is `take` and `drop`. The blanks that separate words are
exactly five characters; one other class of spacing characters is set apart because the arguments
of some commands are trimmed of more than blanks.
-/
namespace ExactCalc

/-- A piece of text, as the list of its characters. -/
abbrev Text := List Char

namespace Text

/-- The characters that separate words: space, tab, line feed, form feed, carriage return. -/
def isBlank (c : Char) : Bool :=
  c = ' ' || c = '\t' || c = '\n' || c = '\x0c' || c = '\r'

/-- The spacing characters of ASCII: the blanks, the vertical tab and the four separators from
file separator to unit separator. -/
def isSpacing (c : Char) : Bool :=
  isBlank c || c = '\x0b' || (0x1c ≤ c.toNat && c.toNat ≤ 0x1f)

/-- ASCII is the first 128 characters. -/
def isAscii (c : Char) : Bool := c.toNat < 128

/-- The text without the characters of the class at its end. -/
def dropTrailing (isDropped : Char → Bool) (text : Text) : Text :=
  (text.reverse.dropWhile isDropped).reverse

/-- The text without the characters of the class at either end. -/
def trim (isDropped : Char → Bool) (text : Text) : Text :=
  dropTrailing isDropped (text.dropWhile isDropped)

def lowered (text : Text) : Text := text.map Char.toLower

def raised (text : Text) : Text := text.map Char.toUpper

/-- The lines of a text. A line feed ends the line before it, and no line follows a final one. -/
def lines : Text → List Text
  | [] => []
  | c :: rest =>
    if c = '\n' then [] :: lines rest
    else match lines rest with
      | [] => [[c]]
      | line :: later => (c :: line) :: later

/-- The texts in ascending order, compared character by character by code point. -/
def sorted (texts : List Text) : List Text :=
  texts.mergeSort fun a b => !decide (b < a)

end Text
end ExactCalc
