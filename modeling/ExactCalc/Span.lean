import ExactCalc.Numeral.Positional

/-!
# Spans of a line

A span is a stretch of a line, given by where it starts and how wide it is. Two spans have a cover
(the smallest span that holds both) and a gap (what lies between them). A located value carries
the span that it was read from.
-/
namespace ExactCalc

/-- A stretch of a line: the offset of its first character and its width. -/
structure Span where
  start : Nat
  width : Nat
  deriving DecidableEq, Repr

/-- Offsets that no stretch of a line can have. -/
structure InvalidSpan where
  start : Int
  width : Int
  deriving DecidableEq, Repr

def InvalidSpan.message (e : InvalidSpan) : Text :=
  "invalid position: start=".toList ++ Positional.signedDecimal e.start ++
    " width=".toList ++ Positional.signedDecimal e.width

namespace Span

/-- A span as text: its start, a plus sign and its width. -/
def text (s : Span) : Text := Positional.decimal s.start ++ '+' :: Positional.decimal s.width

/-- The offset just after the span. -/
def stop (s : Span) : Nat := s.start + s.width

/-- The span from one offset up to another. -/
def upTo (start stop : Nat) : Span := ⟨start, stop - start⟩

/-- The smallest span that holds both spans. -/
def cover (a b : Span) : Span := upTo (min a.start b.start) (max a.stop b.stop)

/-- What lies between two spans: of their four ends in ascending order, from the second to the
third. For overlapping spans this is their overlap. -/
def gap (a b : Span) : Span :=
  let innerStart := max a.start b.start
  let innerStop := min a.stop b.stop
  upTo (min innerStart innerStop) (max innerStart innerStop)

/-- Spans apart have what lies between them, and spans that overlap have what they share. -/
example : gap ⟨1, 2⟩ ⟨7, 3⟩ = ⟨3, 4⟩ ∧ gap ⟨1, 5⟩ ⟨4, 6⟩ = ⟨4, 2⟩ := by decide

def shift (offset : Nat) (s : Span) : Span := ⟨s.start + offset, s.width⟩

def slice (s : Span) (line : Text) : Text := (line.drop s.start).take s.width

/-- Signed offsets are a span when neither is negative. -/
def ofInts (start width : Int) : Except InvalidSpan Span :=
  if start < 0 ∨ width < 0 then .error ⟨start, width⟩ else .ok ⟨start.toNat, width.toNat⟩

end Span

/-- A value together with the span that it was read from. -/
structure Located (α : Type) where
  val : α
  span : Span
  deriving DecidableEq, Repr

namespace Located

def shift {α : Type} (offset : Nat) (x : Located α) : Located α := ⟨x.val, x.span.shift offset⟩

/-- Located values agree when their values do, wherever they stand. -/
def agrees {α : Type} [DecidableEq α] (x y : Located α) : Bool := decide (x.val = y.val)

/-- One located value for each value of the list: the first of those that agree. -/
def distinct {α : Type} [DecidableEq α] : List (Located α) → List (Located α)
  | [] => []
  | x :: rest => x :: (distinct rest).filter fun y => !agrees x y

/-- The text without the blanks around it, in its own place. Nothing but blanks leaves an empty
text where the text started. -/
def trim (x : Located Text) : Located Text :=
  match Text.trim Text.isBlank x.val with
  | [] => ⟨[], ⟨x.span.start, 0⟩⟩
  | kept => ⟨kept, ⟨x.span.start + (x.val.takeWhile Text.isBlank).length, kept.length⟩⟩

end Located
end ExactCalc
