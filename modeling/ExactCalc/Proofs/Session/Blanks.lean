import ExactCalc.Proofs.Lexeme.Words
import ExactCalc.Proofs.Session.Relocation

/-!
# Blanks between lexemes

An expression line is told by its lexemes: with other blanks before, between and after them it is
answered in the same way, and only the places to blame are others. Both lines are compared with what
is read when their lexemes stand nowhere.
-/
namespace ExactCalc.Session

/-- Lines with the same lexemes are read as the same tokens but for places. -/
theorem tokens_nowhere_of_words {line line' : Text} (radix : Nat)
    (same : Text.words line = Text.words line') :
    bimap (Failure.relocate .nowhere) (List.map (Located.relocate .nowhere)) (line.tokens radix) =
      bimap (Failure.relocate .nowhere) (List.map (Located.relocate .nowhere))
        (line'.tokens radix) := by
  have lexemes : (Text.lexemes line).map (Located.relocate .nowhere) =
      (Text.lexemes line').map (Located.relocate .nowhere) := by
    rw [Located.map_relocate_nowhere, Located.map_relocate_nowhere]
    exact congrArg (List.map Located.nowhere) same
  rw [Text.tokens, Text.tokens, ← Token.ofLexemes_relocate, ← Token.ofLexemes_relocate, lexemes]

/-- Blanks between lexemes do not matter. Two lines of ASCII that are no commands and have the same
lexemes are answered with the same text or refused for the same cause, and leave the same session,
whatever the settings and the variables are. -/
theorem words_determine_answer (commands : Registry) (number : Option Int) (session : Session)
    (line line' : Text) (ascii : ∀ c ∈ line, Text.isAscii c = true)
    (ascii' : ∀ c ∈ line', Text.isAscii c = true)
    (noCommand : (line.dropWhile Text.isBlank).head? ≠ some '/')
    (noCommand' : (line'.dropWhile Text.isBlank).head? ≠ some '/')
    (same : Text.words line = Text.words line') :
    (session.calculate commands number line).1.mapError Failure.unplaced =
        (session.calculate commands number line').1.mapError Failure.unplaced ∧
      (session.calculate commands number line).2 = (session.calculate commands number line').2 := by
  rw [calculate_runTokens ascii noCommand, calculate_runTokens ascii' noCommand']
  have run := failsAs_runTokens (m := .nowhere) number
    (line.tokens session.settings.radix.toNat) session
  have run' := failsAs_runTokens (m := .nowhere) number
    (line'.tokens session.settings.radix.toNat) session
  rw [tokens_nowhere_of_words _ same] at run
  obtain ⟨results, sessions⟩ := Prod.mk.inj (run.symm.trans run')
  have unplaced := congrArg (Except.mapError Failure.unplaced) results
  rw [Failure.mapError_unplaced_relocate, Failure.mapError_unplaced_relocate] at unplaced
  exact ⟨unplaced, sessions⟩

/-- The division by zero in an assignment is refused with and without blanks, each time where it
stands, and marks the variable that it mentions. -/
theorem words_determine_answer_division :
    ∃ session after : Session, session = { store := some ⟨[(['$', 'x'], ⟨2, none⟩)]⟩ } ∧
      after = { store := some ⟨[(['$', 'x'], ⟨2, some 7⟩)]⟩ } ∧
      Text.words "$z=$x/0".toList = Text.words "\t$z = $x  / 0 ".toList ∧
      session.calculate Registry.default (some 7) "$z=$x/0".toList =
        (.error (.refused (.math .divisionByZero ⟨5, 1⟩)), after) ∧
      (session.calculate Registry.default (some 7) "\t$z = $x  / 0 ".toList).1.mapError
        Failure.unplaced = .error (.refused ⟨.math .divisionByZero, none⟩) ∧
      (session.calculate Registry.default (some 7) "\t$z = $x  / 0 ".toList).2 = after := by
  have same : Text.words "$z=$x/0".toList = Text.words "\t$z = $x  / 0 ".toList := by decide
  obtain ⟨results, sessions⟩ := words_determine_answer Registry.default (some 7)
    { store := some ⟨[(['$', 'x'], ⟨2, none⟩)]⟩ } "$z=$x/0".toList "\t$z = $x  / 0 ".toList
    (List.all_eq_true.mp (by decide)) (List.all_eq_true.mp (by decide)) (by decide) (by decide) same
  exact ⟨_, _, rfl, rfl, same, by rfl, results.symm, sessions.symm⟩

end ExactCalc.Session
