import Mathlib.Data.List.Basic
import ExactCalc.Text

/-!
# Cutting a text into lines

The lines of a text are what stands before its line feeds, and what stands after the last one if
that is anything. A text that ends with a line feed can therefore be cut into lines by itself,
whatever follows it.
-/
namespace ExactCalc.Text

/-- Lines of which a text is made: all end with a line feed but for a last one that is not empty. -/
def AreLines (text : Text) (ls : List Text) : Prop :=
  ∃ (complete : List Text) (last : Text), (∀ line ∈ complete, '\n' ∉ line) ∧ '\n' ∉ last ∧
    text = complete.flatMap (· ++ ['\n']) ++ last ∧
    ls = complete ++ if last = [] then [] else [last]

variable {text line last : Text}

theorem lines_cons_of_ne {c : Char} (noEnd : c ≠ '\n') :
    lines (c :: text) =
      match lines text with
      | [] => [[c]]
      | line :: later => (c :: line) :: later := if_neg noEnd

theorem lines_complete (noEnd : '\n' ∉ line) (rest : Text) :
    lines (line ++ '\n' :: rest) = line :: lines rest := by
  induction line with
  | nil => exact if_pos rfl
  | cons c line ih =>
    rw [List.mem_cons, not_or] at noEnd
    rw [List.cons_append, lines_cons_of_ne (Ne.symm noEnd.1), ih noEnd.2]

theorem lines_last (noEnd : '\n' ∉ last) : lines last = if last = [] then [] else [last] := by
  induction last with
  | nil => rfl
  | cons c last ih =>
    rw [List.mem_cons, not_or] at noEnd
    rw [lines_cons_of_ne (Ne.symm noEnd.1), ih noEnd.2, if_neg (List.cons_ne_nil _ _)]
    by_cases empty : last = []
    · rw [if_pos empty, empty]
    · rw [if_neg empty]

theorem lines_append_of_complete {complete : List Text} (noEnds : ∀ line ∈ complete, '\n' ∉ line)
    (rest : Text) : lines (complete.flatMap (· ++ ['\n']) ++ rest) = complete ++ lines rest := by
  induction complete with
  | nil => rfl
  | cons line later ih =>
    rw [List.flatMap_cons, List.append_assoc, List.append_assoc, List.singleton_append,
      lines_complete (noEnds line List.mem_cons_self),
      ih fun other member => noEnds other (List.mem_cons_of_mem _ member), List.cons_append]

theorem exists_complete (text : Text) :
    ∃ (complete : List Text) (last : Text), (∀ line ∈ complete, '\n' ∉ line) ∧ '\n' ∉ last ∧
      text = complete.flatMap (· ++ ['\n']) ++ last := by
  induction text with
  | nil => exact ⟨[], [], nofun, nofun, rfl⟩
  | cons c text ih =>
    obtain ⟨complete, last, noEnds, noEnd, rfl⟩ := ih
    by_cases ends : c = '\n'
    · refine ⟨[] :: complete, last, ?_, noEnd, by rw [ends]; rfl⟩
      rintro line (_ | ⟨_, member⟩)
      · exact List.not_mem_nil
      · exact noEnds line member
    · cases complete with
      | nil =>
        refine ⟨[], c :: last, nofun, ?_, rfl⟩
        simp [noEnd, Ne.symm ends]
      | cons line later =>
        refine ⟨(c :: line) :: later, last, ?_, noEnd, rfl⟩
        rintro other (_ | ⟨_, member⟩)
        · have := noEnds line List.mem_cons_self
          simp [this, Ne.symm ends]
        · exact noEnds other (List.mem_cons_of_mem _ member)

/-- There is one way to cut a text into lines. -/
theorem AreLines.eq_lines {ls : List Text} (areLines : AreLines text ls) : ls = lines text := by
  obtain ⟨complete, last, noEnds, noEnd, rfl, rfl⟩ := areLines
  rw [lines_append_of_complete noEnds, lines_last noEnd]

theorem areLines_lines (text : Text) : AreLines text (lines text) := by
  obtain ⟨complete, last, noEnds, noEnd, same⟩ := exists_complete text
  have areLines : AreLines text (complete ++ _) := ⟨complete, last, noEnds, noEnd, same, rfl⟩
  exact areLines.eq_lines ▸ areLines

/-- After a line feed the lines begin anew. -/
theorem lines_append (ends : text.getLast? = some '\n') (rest : Text) :
    lines (text ++ rest) = lines text ++ lines rest := by
  obtain ⟨complete, last, noEnds, noEnd, rfl, -⟩ := areLines_lines text
  obtain rfl : last = [] := by
    by_contra some
    rw [List.getLast?_append_of_ne_nil _ some] at ends
    exact noEnd (List.mem_of_getLast? ends)
  rw [List.append_nil, lines_append_of_complete noEnds, ← List.append_nil (complete.flatMap _),
    lines_append_of_complete noEnds]
  simp [lines]

end ExactCalc.Text
