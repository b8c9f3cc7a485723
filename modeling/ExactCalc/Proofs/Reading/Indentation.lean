import ExactCalc.Proofs.Lexeme.Slice
import ExactCalc.Proofs.Reading.Relocation

/-!
# Reading an indented line

Blanks in front of a line move what is read of it to the right, be it a command, tokens or an error,
and change nothing else.
-/
namespace ExactCalc

def CommandLine.relocate (m : Relocation) (c : CommandLine) : CommandLine :=
  ⟨c.name.relocate m, c.arguments.relocate m⟩

def Line.relocate (m : Relocation) : Line → Line
  | command c => command (c.relocate m)
  | expression tokens => expression (tokens.map (Located.relocate m))

variable {indent : Text} (blank : ∀ c ∈ indent, Text.isBlank c = true) (line : Text)

include blank

theorem Text.lexemes_indented :
    lexemes (indent ++ line) = (lexemes line).map (Located.relocate (.shift indent.length)) := by
  rw [lexemes, lexemesFrom_blanks blank, lexemesFrom_shift]
  rfl

theorem Text.foreign?_indented :
    foreign? (indent ++ line) =
      (foreign? line).map (Located.relocate (.shift indent.length)) := by
  have ascii : indent.findIdx? (!isAscii ·) = none :=
    List.findIdx?_eq_none_iff.mpr fun c member => by simp [isAscii_of_isBlank (blank c member)]
  unfold foreign?
  rw [List.findIdx?_append, ascii, Option.none_or, Option.map_map, Option.map_map]
  rfl

theorem CommandLine.ofText?_indented :
    ofText? (indent ++ line) =
      (ofText? line).map (CommandLine.relocate (.shift indent.length)) := by
  have before : (indent ++ line).takeWhile Text.isBlank = indent ++ line.takeWhile Text.isBlank :=
    List.takeWhile_append_of_pos blank
  unfold ofText?
  rw [before, List.dropWhile_append_of_pos blank]
  dsimp only
  split
  next rest starts =>
    -- The arguments are an end of the line, and stand as far from its start as their length tells.
    have shorter : ((rest.dropWhile (!Text.isBlank ·)).drop 1).length ≤ line.length := by
      have parts := congrArg List.length
        (List.takeWhile_append_dropWhile (p := Text.isBlank) (l := line))
      have inner := congrArg List.length
        (List.takeWhile_append_dropWhile (p := (!Text.isBlank ·)) (l := rest))
      rw [starts] at parts
      simp only [List.length_append, List.length_cons, List.length_drop] at parts inner ⊢
      omega
    simp only [Option.map_some, relocate, Located.relocate, Relocation.shift, Span.shift,
      List.length_append, Option.some.injEq, CommandLine.mk.injEq, Located.mk.injEq, Span.mk.injEq,
      true_and, and_true]
    omega
  next => rfl

/-- An indented line is read as the line is, further to the right. -/
theorem Line.read_indented (radix : Nat) :
    Line.read radix (indent ++ line) =
      bimap (Failure.relocate (.shift indent.length)) (Line.relocate (.shift indent.length))
        (Line.read radix line) := by
  unfold Line.read
  rw [Text.foreign?_indented blank, CommandLine.ofText?_indented blank, Text.tokens,
    Text.lexemes_indented blank, Token.ofLexemes_relocate]
  cases line.foreign? with
  | some e => rfl
  | none =>
    cases CommandLine.ofText? line with
    | some c => rfl
    | none =>
      rw [Text.tokens]
      cases (Text.lexemes line).mapM (Token.ofLexeme radix) <;> rfl

end ExactCalc
