import ExactCalc.ArgumentList
import ExactCalc.Proofs.Lexeme.Slice
import ExactCalc.Proofs.Reading.Relocation
import ExactCalc.Proofs.Session.Arguments
import ExactCalc.Proofs.Session.Blame

/-!
# Where the items of a list stand

An integer in a list stands on a number or on a minus sign and a number, and a row of tokens is read
as a list of integers exactly if it is put together from such parts. The items of a list follow each
other as their tokens do, and the text at the place of an integer is read as a list of this integer
alone, as the text at the place of a name is the name.
-/
namespace ExactCalc

namespace Located

/-- A text stands in a line at its place. -/
def StandsIn (line : Text) (x : Located Text) : Prop :=
  ∃ before after, line = before ++ (x.val ++ after) ∧ x.span = ⟨before.length, x.val.length⟩

namespace StandsIn

variable {line : Text} {x : Located Text}

theorem slice_eq (stands : x.StandsIn line) : x.span.slice line = x.val := by
  obtain ⟨before, after, rfl, place⟩ := stands
  rw [place]
  exact Text.slice_append before x.val after

/-- A slice of the text is a slice of the line, further to the right. -/
theorem slice_shift (stands : x.StandsIn line) {s : Span} (inside : s.stop ≤ x.val.length) :
    (s.shift x.span.start).slice line = s.slice x.val := by
  obtain ⟨before, after, rfl, place⟩ := stands
  have starts : s.start ≤ x.val.length := Nat.le_trans s.start_le_stop inside
  have width : s.width ≤ (x.val.drop s.start).length := by
    rw [List.length_drop]
    exact Nat.le_sub_of_add_le' inside
  simp only [Span.slice, Span.shift, place]
  rw [Nat.add_comm, List.drop_length_add_append, List.drop_append_of_le_length starts,
    List.take_append_of_le_length width]

end StandsIn
end Located

namespace ArgumentList

open Located

variable {radix : Nat} {source : Text}

/-- Where a number stands only matters if it is refused. -/
theorem magnitude_of_ok {value : Rat} {n : Nat} {s : Span} (integral : magnitude value s = .ok n)
    (s' : Span) : magnitude value s' = .ok n := by
  unfold magnitude at integral ⊢
  split at integral
  next => split at integral <;> cases integral
  next whole =>
    split at integral
    next => cases integral
    next small => rw [if_neg whole, if_neg small, integral]

/-- The tokens that an integer of a list is read from: a number, or a minus sign and a number. The
integer takes up both. -/
inductive StandsOn : Located Int → List (Located Token) → Prop where
  | unsigned {value : Rat} {n : Nat} {s : Span} (integral : magnitude value s = .ok n) :
      StandsOn ⟨n, s⟩ [⟨.number value, s⟩]
  | signed {value : Rat} {n : Nat} {sign s : Span} (integral : magnitude value s = .ok n) :
      StandsOn ⟨-n, sign.cover s⟩ [⟨.binary .subtract, sign⟩, ⟨.number value, s⟩]

theorem signedIntegers_append_part {item : Located Int} {part : List (Located Token)}
    (stands : StandsOn item part) (rest : List (Located Token)) :
    signedIntegers none (part ++ rest) = (signedIntegers none rest).map (item :: ·) := by
  cases stands with
  | unsigned integral =>
    simp only [List.cons_append, List.nil_append, signedIntegers, integral]
    cases signedIntegers none rest <;> rfl
  | signed integral =>
    simp only [List.cons_append, List.nil_append, signedIntegers, integral]
    cases signedIntegers none rest <;> rfl

/-- Integers in front of a row of tokens are read, and then the row. -/
theorem signedIntegers_append {items : List (Located Int)} {parts : List (List (Located Token))}
    (each : List.Forall₂ StandsOn items parts) (rest : List (Located Token)) :
    signedIntegers none (parts.flatten ++ rest) = (signedIntegers none rest).map (items ++ ·) := by
  induction each with
  | nil =>
    rw [List.flatten_nil, List.nil_append]
    cases signedIntegers none rest <;> rfl
  | cons stands _ ih =>
    rw [List.flatten_cons, List.append_assoc, signedIntegers_append_part stands, ih]
    cases signedIntegers none rest <;> rfl

/-- What is read as integers, after a minus sign or after none, is put together from the tokens of
the integers. -/
theorem exists_parts {sign : Option Span} {tokens : List (Located Token)}
    {items : List (Located Int)} (read : signedIntegers sign tokens = .ok items) :
    ∃ parts : List (List (Located Token)),
      sign.toList.map (⟨.binary .subtract, ·⟩) ++ tokens = parts.flatten ∧
        List.Forall₂ StandsOn items parts := by
  fun_induction signedIntegers sign tokens generalizing items with
  | case1 => cases read
  | case2 =>
    cases read
    exact ⟨[], rfl, .nil⟩
  | case3 => cases read
  | case4 span rest ih => exact ih read
  | case5 sign value span rest ih =>
    obtain ⟨n, integral, read⟩ := bind_eq_ok_iff.mp read
    obtain ⟨others, later, built⟩ := bind_eq_ok_iff.mp read
    cases built
    obtain ⟨parts, split, each⟩ := ih later
    replace split : rest = parts.flatten := split
    cases sign with
    | none => exact ⟨_ :: parts, by rw [split]; rfl, .cons (.unsigned integral) each⟩
    | some s => exact ⟨_ :: parts, by rw [split]; rfl, .cons (.signed integral) each⟩
  | case6 => cases read

/-- A row of tokens is read as integers if it is put together from their tokens, and only then. -/
theorem signedIntegers_eq_ok_iff {tokens : List (Located Token)} {items : List (Located Int)} :
    signedIntegers none tokens = .ok items ↔
      ∃ parts : List (List (Located Token)), tokens = parts.flatten ∧
        List.Forall₂ StandsOn items parts := by
  refine ⟨exists_parts, ?_⟩
  rintro ⟨parts, rfl, each⟩
  have read := signedIntegers_append each []
  rw [List.append_nil] at read
  rw [read]
  exact congrArg Except.ok (List.append_nil items)

theorem integers_eq_ok_iff {items : List (Located Int)} :
    integers radix source = .ok items ↔
      ∃ parts : List (List (Located Token)),
        Line.read radix source = .ok (.expression parts.flatten) ∧
          List.Forall₂ StandsOn items parts := by
  unfold integers
  split
  next failed => simp [failed]
  next command => simp [command]
  next tokens read => simp [read, signedIntegers_eq_ok_iff]

namespace StandsOn

variable {item : Located Int} {part : List (Located Token)}

theorem hull (stands : StandsOn item part) (ordered : Ordered part) : Hull item.span part := by
  cases stands with
  | @unsigned value n s => exact .single (⟨.number value, s⟩ : Located Token)
  | @signed value n sign s =>
    exact .cons (⟨.binary .subtract, sign⟩ : Located Token)
      (.single (⟨.number value, s⟩ : Located Token)) ordered

/-- No integer begins with a slash. -/
theorem begins (stands : StandsOn item part) :
    part.head?.map (·.val) ≠ some (.binary .divide) := by
  cases stands <;> nofun

/-- An integer on tokens that are moved to the right is moved itself. -/
theorem of_shift {own : List (Located Token)} {k : Nat}
    (stands : StandsOn item (own.map (·.shift k))) :
    ∃ item', StandsOn item' own ∧ item'.shift k = item := by
  generalize moved : own.map (·.shift k) = part at stands
  cases stands with
  | unsigned integral =>
    obtain ⟨⟨_, s⟩, _, rfl, ⟨⟩, others⟩ := List.map_eq_cons_iff.mp moved
    obtain rfl := List.map_eq_nil_iff.mp others
    exact ⟨_, .unsigned (magnitude_of_ok integral s), rfl⟩
  | signed integral =>
    obtain ⟨⟨_, sign⟩, _, rfl, ⟨⟩, number⟩ := List.map_eq_cons_iff.mp moved
    obtain ⟨⟨_, s⟩, _, rfl, ⟨⟩, others⟩ := List.map_eq_cons_iff.mp number
    obtain rfl := List.map_eq_nil_iff.mp others
    exact ⟨_, .signed (magnitude_of_ok integral s),
      congrArg (Located.mk _) ((Relocation.shift k).cover sign s)⟩

end StandsOn

/-- Each integer of a row stands on a stretch of the tokens of the row. -/
theorem exists_part_of_mem {items : List (Located Int)} {parts : List (List (Located Token))}
    (each : List.Forall₂ StandsOn items parts) {item : Located Int} (member : item ∈ items) :
    ∃ part, part <:+: parts.flatten ∧ StandsOn item part := by
  induction each with
  | nil => cases member
  | @cons _ first _ parts stands _ ih =>
    rw [List.flatten_cons]
    rcases List.mem_cons.mp member with rfl | further
    · exact ⟨first, (List.prefix_append first parts.flatten).isInfix, stands⟩
    · obtain ⟨part, isPart, stands⟩ := ih further
      exact ⟨part, isPart.trans (List.suffix_append first parts.flatten).isInfix, stands⟩

/-- Integers follow each other as their tokens do. -/
theorem ordered_of_parts {items : List (Located Int)} {parts : List (List (Located Token))}
    (each : List.Forall₂ StandsOn items parts) (ordered : Ordered parts.flatten) :
    Ordered items := by
  induction each with
  | nil => exact .nil
  | @cons item first items parts stands each ih =>
    rw [List.flatten_cons] at ordered
    have parted := List.pairwise_append.mp ordered
    refine .cons (fun other further => ?_) (ih parted.2.1)
    obtain ⟨part, isPart, stands'⟩ := exists_part_of_mem each further
    have both : Ordered (first ++ part) := ordered.sublist (isPart.sublist.append_left first)
    have own := List.pairwise_append.mp both
    exact (stands.hull own.1).stop_le_start (stands'.hull own.2.1) both

/-- The integers of a list follow each other in the text, and each of them takes up some of it. -/
theorem ordered_integers {items : List (Located Int)} (read : integers radix source = .ok items) :
    Ordered items ∧ ∀ item ∈ items, 0 < item.span.width := by
  obtain ⟨parts, line, each⟩ := integers_eq_ok_iff.mp read
  have tokens := (Line.read_eq_expression.mp line).2.2
  have ordered : Ordered parts.flatten := Text.pairwise_tokens tokens
  refine ⟨ordered_of_parts each ordered, fun item member => ?_⟩
  obtain ⟨part, isPart, stands⟩ := exists_part_of_mem each member
  have own : Ordered part := ordered.of_part isPart
  have hull := stands.hull own
  obtain ⟨⟨t, first, -⟩, -⟩ := hull.ends_mem
  have within := hull.within_of_mem own first
  have wide : 0 < t.span.width := Text.width_pos_of_mem tokens (isPart.subset first)
  simp only [Span.stop] at within
  omega

/-- The text at the place of an integer is read as the integer alone. -/
theorem integers_slice {items : List (Located Int)} (read : integers radix source = .ok items)
    {item : Located Int} (member : item ∈ items) :
    integers radix (item.span.slice source) = .ok [⟨item.val, ⟨0, item.span.width⟩⟩] := by
  obtain ⟨parts, line, each⟩ := integers_eq_ok_iff.mp read
  obtain ⟨ascii, -, tokens⟩ := Line.read_eq_expression.mp line
  obtain ⟨part, isPart, stands⟩ := exists_part_of_mem each member
  have ordered : Ordered parts.flatten := Text.pairwise_tokens tokens
  have hull := stands.hull (ordered.of_part isPart)
  obtain ⟨before, after, split⟩ := isPart
  rw [← split, List.append_assoc] at tokens
  obtain ⟨own, found, rfl⟩ := Text.tokens_slice tokens hull
  obtain ⟨item', stands', same⟩ := stands.of_shift
  have begins : own.head?.map (·.val) ≠ some (.binary .divide) := by
    have := stands.begins
    rwa [List.head?_map, Option.map_map] at this
  have line : Line.read radix (item.span.slice source) = .ok (.expression own) := by
    refine Line.read_eq_expression.mpr ⟨?_, Text.noSlash_of_tokens found begins, found⟩
    exact fun c inside => ascii c (List.mem_of_mem_drop (List.mem_of_mem_take inside))
  -- The slice starts where the integer does, so that in the slice it starts at zero.
  have place : item' = ⟨item.val, ⟨0, item.span.width⟩⟩ := by
    obtain ⟨n, start, width⟩ := item'
    have start_eq : start + item.span.start = item.span.start := congrArg (·.span.start) same
    obtain rfl : start = 0 := by omega
    exact congrArg (fun x : Located Int => (⟨x.val, ⟨0, x.span.width⟩⟩ : Located Int)) same
  refine integers_eq_ok_iff.mpr ⟨[own], ?_, .cons (place ▸ stands') .nil⟩
  rw [List.flatten_singleton, line]

theorem nameOf_eq_ok_iff {t : Located Token} {name : Located Text} :
    nameOf source t = .ok name ↔ t = ⟨.var name.val, name.span⟩ := by
  obtain ⟨token, s⟩ := t
  obtain ⟨text, s'⟩ := name
  cases token <;> simp [nameOf]

/-- A text is read as a list of names if these are its tokens. -/
theorem names_eq_ok_iff {found : List (Located Text)} :
    names source = .ok found ↔ Line.read 10 source =
      .ok (.expression (found.map fun name => ⟨.var name.val, name.span⟩)) := by
  unfold names
  split
  next failed => simp [failed]
  next command => simp [command]
  next tokens line =>
    rw [mapM_eq_ok_iff, line]
    simp only [nameOf_eq_ok_iff, Except.ok.injEq, Line.expression.injEq]
    rw [← List.forall₂_eq_eq_eq, List.forall₂_map_right_iff]

/-- The names of a list follow each other in the text, and each stands at its place. -/
theorem names_places {found : List (Located Text)} (read : names source = .ok found) :
    Ordered found ∧
      ∀ name ∈ found, 0 < name.span.width ∧ name.span.slice source = name.val := by
  have tokens := (Line.read_eq_expression.mp (names_eq_ok_iff.mp read)).2.2
  refine ⟨List.pairwise_map.mp (Text.pairwise_tokens tokens), fun name member => ?_⟩
  have isToken : (⟨.var name.val, name.span⟩ : Located Token) ∈
      found.map fun name => ⟨.var name.val, name.span⟩ :=
    List.mem_map_of_mem member
  exact ⟨Text.width_pos_of_mem tokens isToken, Text.slice_of_mem tokens isToken rfl⟩

end ArgumentList
end ExactCalc
