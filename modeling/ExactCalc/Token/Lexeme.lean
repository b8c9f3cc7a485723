import ExactCalc.Numeral.Literal
import ExactCalc.Span
import ExactCalc.Token

/-!
# Lexemes

A lexeme is a symbol, one character long, or a word: a longest run of characters that are neither
blanks nor symbols. `lexemes` cuts a text into its lexemes, each with its span, and leaves out
only blanks. A lexeme becomes a token by itself, without regard to its neighbours.
-/
namespace ExactCalc

namespace Text

/-- Words are made of everything but blanks and symbols. -/
def isWordChar (c : Char) : Bool := !isBlank c && (Token.ofSymbol? c).isNone

/-- The lexemes of a text that starts at an offset. A word character joins the word that starts
right after it. -/
def lexemesFrom (offset : Nat) : Text → List (Located Text)
  | [] => []
  | c :: rest =>
    let later := lexemesFrom (offset + 1) rest
    if isBlank c then later
    else if isWordChar c && rest.head?.any isWordChar then
      match later with
      | word :: others => ⟨c :: word.val, ⟨offset, word.span.width + 1⟩⟩ :: others
      | [] => [⟨[c], ⟨offset, 1⟩⟩]
    else ⟨[c], ⟨offset, 1⟩⟩ :: later

def lexemes (line : Text) : List (Located Text) := lexemesFrom 0 line

/-- Symbols need no blanks around them, and words do only between each other. -/
example : (lexemes "max( $a,12 3".toList).map (·.val) =
    ["max".toList, ['('], "$a".toList, [','], "12".toList, ['3']] := by decide

end Text

namespace Token

/-- A word is a variable when it starts with `$`, else a keyword, else a number literal. -/
def ofWord (radix : Nat) (word : Text) : Except Literal.Unread Token :=
  if word.head? = some '$' then .ok (.var word)
  else match ofKeyword? word with
    | some keyword => .ok keyword
    | none => (Literal.read radix word).map .number

def ofText (radix : Nat) (lexeme : Text) : Except Literal.Unread Token :=
  match lexeme with
  | [c] =>
    match ofSymbol? c with
    | some symbol => .ok symbol
    | none => ofWord radix [c]
  | word => ofWord radix word

end Token
end ExactCalc
