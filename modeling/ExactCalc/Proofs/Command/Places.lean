import Mathlib.Data.List.DropRight
import ExactCalc.Proofs.ArgumentList.Items

/-!
# Where the arguments of a command stand

The name and the arguments of a command stand in its line where their spans say, and so do the
arguments without the blanks around them. A list of arguments is read from a text of its own. Since
this text stands in the line, what is found or refused in it stands in the line as well, further to
the right by as much as the text.
-/
namespace ExactCalc

namespace Located

theorem trim_val (x : Located Text) : x.trim.val = Text.trim Text.isBlank x.val := by
  unfold trim
  split
  next nothing => exact nothing.symm
  next => rfl

namespace StandsIn

variable {line : Text} {x : Located Text}

theorem trim (stands : x.StandsIn line) : x.trim.StandsIn line := by
  obtain ⟨before, after, whole, place⟩ := stands
  obtain ⟨blanks, ends⟩ : Text.trim Text.isBlank x.val <+: x.val.dropWhile Text.isBlank :=
    List.rdropWhile_prefix Text.isBlank _
  have parts :
      x.val.takeWhile Text.isBlank ++ (Text.trim Text.isBlank x.val ++ blanks) = x.val := by
    rw [ends, List.takeWhile_append_dropWhile]
  unfold Located.trim
  split
  next => exact ⟨before, x.val ++ after, whole, by rw [place, List.length_nil]⟩
  next =>
    refine ⟨before ++ x.val.takeWhile Text.isBlank, blanks ++ after, ?_, ?_⟩
    · conv_lhs => rw [whole, ← parts]
      simp only [List.append_assoc]
    · rw [place, List.length_append]

end StandsIn

theorem Ordered.shift {α : Type} {xs : List (Located α)} (ordered : Ordered xs) (k : Nat) :
    Ordered (xs.map (·.shift k)) := by
  refine List.pairwise_map.mpr (ordered.imp fun {x y} apart => ?_)
  simp only [Located.shift, Span.shift, Span.stop] at apart ⊢
  omega

end Located

namespace Command

/-- What a list of arguments is read as in a line, and what it is read as alone, from a text that
starts at an offset of the line. The same values are found, and they stand one after the other in
the line, each on some of it that shows the value. Or the same cause is blamed, further to the right
by the offset. Or there is the same defect, which has no place. -/
structure ReadInLine {α : Type} (line : Text) (start : Nat) (Shows : Text → Located α → Prop)
    (alone inLine : Except Failure (List (Located α))) : Prop where
  found : ∀ own, alone = .ok own → ∃ items, inLine = .ok items ∧
    items.map (·.val) = own.map (·.val) ∧ Located.Ordered items ∧
    ∀ item ∈ items, 0 < item.span.width ∧ Shows (item.span.slice line) item
  refused : ∀ cause place, alone = .error (.refused ⟨cause, place⟩) → ∃ s, place = some s ∧
    inLine = .error (.refused ⟨cause, some (s.shift start)⟩)
  broken : ∀ f, alone = .error f → (∀ r, f ≠ .refused r) →
    (∃ d, f = .defect d) ∧ inLine = .error f

variable {line : Text} {arguments : Located Text}

/-- What stands in a text stands in the line, if the text does. -/
theorem readInLine {α : Type} {Shows : Text → Located α → Prop} (stands : arguments.StandsIn line)
    (read : Text → Except Failure (List (Located α)))
    (placed : Placed arguments.val.length (read arguments.val))
    (ordered : ∀ own, read arguments.val = .ok own → Located.Ordered own)
    (shown : ∀ own, read arguments.val = .ok own → ∀ item ∈ own, 0 < item.span.width ∧
      ∀ k, Shows (item.span.slice arguments.val) (item.shift k)) :
    ReadInLine line arguments.span.start Shows (read arguments.val) (inLine arguments read) where
  found own success := by
    refine ⟨own.map (·.shift arguments.span.start), by rw [inLine, success], ?_,
      (ordered own success).shift _, fun item member => ?_⟩
    · rw [List.map_map]
      rfl
    · obtain ⟨item, listed, rfl⟩ := List.mem_map.mp member
      obtain ⟨wide, shows⟩ := shown own success item listed
      refine ⟨wide, ?_⟩
      have same := stands.slice_shift (placed.found own success item listed)
      exact same.symm ▸ shows arguments.span.start
  refused cause place failed := by
    obtain ⟨s, found, -⟩ : ∃ s ∈ place, s.stop ≤ arguments.val.length := by
      cases placed.failed _ failed with
      | refused inside => exact inside.placed
    obtain rfl : place = some s := found
    exact ⟨s, rfl, by rw [inLine, failed]; rfl⟩
  broken f failed other := by
    cases placed.failed f failed with
    | refused inside => exact absurd rfl (other _)
    | @overlong d _ => exact ⟨⟨d, rfl⟩, by rw [inLine, failed]; rfl⟩

theorem standsIn_of_command {radix : Nat} {c : CommandLine}
    (read : Line.read radix line = .ok (.command c)) :
    Located.StandsIn line ⟨'/' :: c.name.val, c.name.span⟩ ∧ c.arguments.StandsIn line := by
  obtain ⟨indent, gap, whole, namePlace, place⟩ := Line.exists_command_parts read
  constructor
  · exact ⟨indent, gap ++ c.arguments.val, whole, namePlace⟩
  · refine ⟨indent ++ '/' :: (c.name.val ++ gap), [], ?_, ?_⟩
    · conv_lhs => rw [whole]
      simp
    · have width := congrArg List.length whole
      rw [place]
      simp only [List.length_append, List.length_cons, Span.mk.injEq, and_true] at width ⊢
      omega

/-- In a command line stand, where their spans say, the slash with the name, the arguments, and the
arguments without the blanks around them. Integers among the arguments stand where the line, read
there as a list alone, gives just the integer, and names stand where the line spells them. What is
refused of a list is refused in the line as in the arguments alone, at a place that is further to
the right by the start of the arguments. A number with too many digits is the same defect in both.
-/
theorem arguments_stand_in_line {radix : Nat} {line : Text} {c : CommandLine}
    (read : Line.read radix line = .ok (.command c)) :
    c.name.span.slice line = '/' :: c.name.val ∧
    c.arguments.span.slice line = c.arguments.val ∧
    c.arguments.trim.span.slice line = Text.trim Text.isBlank c.arguments.val ∧
    ReadInLine line c.arguments.span.start
      (fun text item => ArgumentList.integers 10 text = .ok [⟨item.val, ⟨0, item.span.width⟩⟩])
      (ArgumentList.integers 10 c.arguments.val) (integers c.arguments) ∧
    ReadInLine line c.arguments.span.start (fun text name => text = name.val)
      (ArgumentList.names c.arguments.val) (names c.arguments) := by
  obtain ⟨name, stands⟩ := standsIn_of_command read
  refine ⟨name.slice_eq, stands.slice_eq, ?_, ?_, ?_⟩
  · rw [stands.trim.slice_eq, Located.trim_val]
  · refine readInLine stands _ (ArgumentList.placed_integers _)
      (fun own success => ?_) fun own success item member => ?_
    · exact (ArgumentList.ordered_integers success).1
    · exact ⟨(ArgumentList.ordered_integers success).2 item member,
        fun _ => ArgumentList.integers_slice success member⟩
  · refine readInLine stands _ (ArgumentList.placed_names _)
      (fun own success => ?_) fun own success name member => ?_
    · exact (ArgumentList.names_places success).1
    · obtain ⟨wide, slice⟩ := (ArgumentList.names_places success).2 name member
      exact ⟨wide, fun _ => slice⟩

/-- Behind two blanks the arguments of `/p - 5 7` are two integers, the first of which takes up its
sign and the blank after it, and no names: the sign is to blame. -/
theorem arguments_stand_in_line_signed :
    "/p".toList = Span.slice ⟨2, 2⟩ "  /p - 5 7".toList ∧
    (∃ items, integers ⟨"- 5 7".toList, ⟨5, 5⟩⟩ = .ok items ∧ items.map (·.val) = [-5, 7] ∧
      Located.Ordered items ∧ ∀ item ∈ items, 0 < item.span.width ∧
        ArgumentList.integers 10 (item.span.slice "  /p - 5 7".toList) =
          .ok [⟨item.val, ⟨0, item.span.width⟩⟩]) ∧
    names ⟨"- 5 7".toList, ⟨5, 5⟩⟩ =
      .error (.refused ⟨.lexical (.invalidVariable ['-']), some (Span.shift 5 ⟨0, 1⟩)⟩) := by
  have read : Line.read 10 "  /p - 5 7".toList =
      .ok (.command ⟨⟨['p'], ⟨2, 2⟩⟩, ⟨"- 5 7".toList, ⟨5, 5⟩⟩⟩) := by decide +kernel
  have signed : ArgumentList.integers 10 "- 5 7".toList = .ok [⟨-5, ⟨0, 3⟩⟩, ⟨7, ⟨4, 1⟩⟩] := by
    decide +kernel
  have unnamed : ArgumentList.names "- 5 7".toList =
      .error (.refused ⟨.lexical (.invalidVariable ['-']), some ⟨0, 1⟩⟩) := by decide +kernel
  obtain ⟨name, -, -, found, refused⟩ := arguments_stand_in_line read
  obtain ⟨s, ⟨⟩, blamed⟩ := refused.refused _ _ unnamed
  exact ⟨name.symm, found.found _ signed, blamed⟩

end Command
end ExactCalc
