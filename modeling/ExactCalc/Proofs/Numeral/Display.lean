import Mathlib.Data.Rat.Floor
import Mathlib.Data.Sign.Basic
import Mathlib.Tactic.Positivity
import ExactCalc.Proofs.Numeral.Literal
import ExactCalc.Proofs.Numeral.Style

/-!
# Written numbers are literals

What is written of a natural number, or of a rational number without its sign, is a literal of the
radix it is written in, in either case of letter. The literal of a rounded number denotes the number
that it was rounded to; writing that number again leaves out the zeros that told of the rounding.
-/
namespace ExactCalc

theorem abs_eq (v : ℚ) : v.abs = |v| := by
  rcases le_total 0 v with nonneg | nonpos
  · rw [Rat.abs_of_nonneg nonneg, abs_of_nonneg nonneg]
  · rw [Rat.abs_of_nonpos nonpos, abs_of_nonpos nonpos]

namespace Literal

/-- The text with the zeros at the end of what stands after its point left out, and the point too
where nothing else stands after it. -/
def trimmed (text : Text) : Text :=
  let fraction := Text.dropTrailing (· = '0') (fractionPart text)
  wholePart text ++ (if fraction = [] then [] else '.' :: fraction)

end Literal

/-- A text shows a number: as a literal, as a literal after a minus sign, or as what shows a number
over a literal of another that is not zero. -/
inductive Text.Shows (radix : Nat) : Text → ℚ → Prop where
  | literal {word : Text} {v : ℚ} (denotes : Literal.Denotes radix word v) : Shows radix word v
  | negative {word : Text} {v : ℚ} (denotes : Literal.Denotes radix word v) :
      Shows radix ('-' :: word) (-v)
  | quotient {text word : Text} {v w : ℚ} (above : Shows radix text v)
      (below : Literal.Denotes radix word w) (nonzero : w ≠ 0) :
      Shows radix (text ++ '/' :: word) (v / w)

/-- Nothing but the point and zeros is left out. -/
theorem Literal.trimmed_sublist (text : Text) : (trimmed text).Sublist text := by
  have fraction : (Text.dropTrailing (· = '0') (fractionPart text)).Sublist (fractionPart text) :=
    (List.rdropWhile_prefix _ (fractionPart text)).sublist
  obtain ⟨rest, split, kept⟩ : ∃ rest, wholePart text ++ rest = text ∧
      ('.' :: fractionPart text = rest ∨ fractionPart text = [] ∧ rest = []) := by
    rcases eq_parts text with same | ⟨same, empty⟩
    · exact ⟨_, same.symm, .inl rfl⟩
    · exact ⟨[], by rw [List.append_nil, ← same], .inr ⟨empty, rfl⟩⟩
  have shorter : (trimmed text).Sublist (wholePart text ++ rest) := by
    refine List.Sublist.append_left ?_ (wholePart text)
    split
    next => exact List.nil_sublist _
    next nonempty =>
      rcases kept with rfl | ⟨empty, -⟩
      · exact fraction.cons_cons '.'
      · rw [empty] at nonempty
        exact absurd rfl nonempty
  rwa [split] at shorter

namespace NumberStyle

open Literal

/-- A style whose digits can be read back. -/
structure Readable (style : NumberStyle) : Prop where
  two_le : 2 ≤ style.radix
  le_sixteen : style.radix ≤ 16

variable {style : NumberStyle}

/-- Digits are read back from their characters in either case of letter. -/
theorem spells_cased (readable : style.Readable) {digits : List Nat}
    (small : ∀ d ∈ digits, d < style.radix) :
    Spells style.radix (Text.cased style.upper (digits.map Digit.toChar)) digits := by
  have each : ∀ d ∈ digits,
      Digit.read? style.radix (Digit.toChar d) = some d ∧
        Digit.read? style.radix (Digit.toChar d).toUpper = some d :=
    fun d member => Digit.read?_toChar readable.le_sixteen (small d member)
  unfold Spells Text.cased
  split
  · rw [Text.raised, List.map_map, List.map_map]
    exact List.map_congr_left fun d member => (each d member).2
  · rw [List.map_map]
    exact List.map_congr_left fun d member => (each d member).1

/-- The digits of a number are read back from what is written of it. -/
theorem spells_plain (readable : style.Readable) (n : Nat) :
    Spells style.radix (style.plain n) (Positional.digits style.radix n) :=
  spells_cased readable fun _ member => Positional.lt_of_mem_digits readable.two_le member

/-- The digits of the places are read back from what is written of them. -/
theorem spells_places (readable : style.Readable) {n precision : Nat}
    (bound : n < Positional.weight style.radix precision) (exact : Bool) :
    ∃ digits, Spells style.radix (style.places precision n exact) digits ∧
      ∃ missing, digits.length + missing = precision ∧
        Positional.value style.radix digits * Positional.weight style.radix missing = n := by
  obtain ⟨digits, shown, small, denoted⟩ := exists_digits_places readable.two_le bound exact
  exact ⟨digits, shown ▸ spells_cased readable small, denoted⟩

/-- What is written of `m` units of the last of so many places. -/
def unsigned (style : NumberStyle) (precision m : Nat) (exact : Bool) : Text :=
  let fraction :=
    style.places precision (m % Positional.weight style.radix precision) exact
  style.plain (m / Positional.weight style.radix precision) ++
    (if fraction = [] then [] else '.' :: fraction)

theorem weight_pos (readable : style.Readable) (places : Nat) :
    0 < Positional.weight style.radix places :=
  Nat.pow_pos (by have := readable.two_le; omega)

theorem unsigned_eq (style : NumberStyle) (precision m : Nat) (exact : Bool) :
    ∃ fraction,
      fraction = style.places precision (m % Positional.weight style.radix precision) exact ∧
      (style.unsigned precision m exact =
          style.plain (m / Positional.weight style.radix precision) ++ '.' :: fraction ∨
        style.unsigned precision m exact =
          style.plain (m / Positional.weight style.radix precision) ∧ fraction = []) := by
  refine ⟨_, rfl, ?_⟩
  unfold unsigned
  dsimp only
  split
  next empty => exact .inr ⟨List.append_nil _, empty⟩
  next => exact .inl rfl

/-- What is written of a number of units is a literal, and denotes so many units. -/
theorem denotes_unsigned (readable : style.Readable) (precision m : Nat) (exact : Bool) :
    Literal.Denotes style.radix (style.unsigned precision m exact)
      ((m : ℚ) / (Positional.weight style.radix precision : Nat)) := by
  obtain ⟨fraction, isPlaces, split⟩ := style.unsigned_eq precision m exact
  have bound := Nat.mod_lt m (weight_pos readable precision)
  have spellsWhole := spells_plain readable (m / Positional.weight style.radix precision)
  obtain ⟨digits, spells, missing, length, value⟩ := spells_places readable bound exact
  rw [← isPlaces] at spells
  have unmarked : ∀ c ∈ style.unsigned precision m exact, c ≠ '_' := by
    intro c member
    rcases split with same | ⟨same, -⟩
    · rw [same, List.mem_append, List.mem_cons] at member
      rcases member with inside | rfl | inside
      · exact (spellsWhole.unmarked c inside).2
      · decide
      · exact (spells.unmarked c inside).2
    · exact (spellsWhole.unmarked c (same ▸ member)).2
  refine ⟨_, fraction, _, by rwa [bare_of_no_underscore unmarked], spellsWhole.append spells,
    by simp [Positional.digits_ne_nil readable.two_le], ?_⟩
  -- The places that are left out count as much on either side of the division.
  have weights : Positional.weight style.radix precision =
      Positional.weight style.radix digits.length * Positional.weight style.radix missing := by
    rw [← length]
    exact pow_add _ _ _
  have units : (m : ℚ) =
      (Positional.value style.radix (Positional.digits style.radix
        (m / Positional.weight style.radix precision) ++ digits) : ℚ) *
          (Positional.weight style.radix missing : Nat) := by
    rw [Positional.value_append, Positional.value_digits readable.two_le]
    norm_cast
    rw [Nat.add_mul, value, Nat.mul_assoc, ← weights, Nat.mul_comm, Nat.div_add_mod]
  have nonzero (places : Nat) : ((Positional.weight style.radix places : Nat) : ℚ) ≠ 0 :=
    Nat.cast_ne_zero.mpr (weight_pos readable places).ne'
  rw [units, weights, Nat.cast_mul, spells.length_eq]
  exact mul_div_mul_right _ _ (nonzero missing)

/-- With its zeros left out the places are what an exact number shows. -/
theorem dropTrailing_places (precision n : Nat) (exact : Bool) :
    Text.dropTrailing (· = '0') (style.places precision n exact) =
      style.places precision n true := by
  unfold places
  split
  next => rfl
  next =>
    cases exact with
    | false => rfl
    | true => exact Text.dropTrailing_idem _ _

theorem trimmed_unsigned (readable : style.Readable) (precision m : Nat) (exact : Bool) :
    trimmed (style.unsigned precision m exact) = style.unsigned precision m true := by
  obtain ⟨fraction, isPlaces, split⟩ := style.unsigned_eq precision m exact
  have noPoint : ∀ c ∈ style.plain (m / Positional.weight style.radix precision), c ≠ '.' :=
    fun c member => ((spells_plain readable _).unmarked c member).1
  have parts : wholePart (style.unsigned precision m exact) =
        style.plain (m / Positional.weight style.radix precision) ∧
      fractionPart (style.unsigned precision m exact) = fraction := by
    rcases split with same | ⟨same, rfl⟩
    · rw [same]
      exact parts_append noPoint fraction
    · rw [same]
      exact parts_of_no_point noPoint
  unfold trimmed
  rw [parts.1, parts.2, isPlaces, dropTrailing_places]
  rfl

/-- A number rounded to so many places. A half goes away from zero. -/
def rounded (radix precision : Nat) (v : ℚ) : ℚ :=
  SignType.sign v * (roundedMagnitude radix precision v : ℚ) /
    (Positional.weight radix precision : Nat)

theorem roundedMagnitude_eq (radix precision : Nat) (v : ℚ) :
    (roundedMagnitude radix precision v : ℤ) =
      ⌊|v| * (Positional.weight radix precision : Nat) + 1 / 2⌋ := by
  have nonneg : 0 ≤ ⌊|v| * (Positional.weight radix precision : Nat) + 1 / 2⌋ :=
    Int.floor_nonneg.mpr (by positivity)
  rw [roundedMagnitude, abs_eq]
  exact Int.toNat_of_nonneg nonneg

theorem rounded_eq (radix precision : Nat) (v : ℚ) :
    rounded radix precision v =
      if v < 0 ∧ roundedMagnitude radix precision v ≠ 0 then
        -((roundedMagnitude radix precision v : ℚ) / (Positional.weight radix precision : Nat))
      else
        (roundedMagnitude radix precision v : ℚ) / (Positional.weight radix precision : Nat) := by
  unfold rounded
  rcases lt_trichotomy v 0 with negative | rfl | positive
  · by_cases zero : roundedMagnitude radix precision v = 0
    · simp [zero]
    · rw [sign_neg negative, if_pos ⟨negative, zero⟩, SignType.coe_neg_one, neg_one_mul, neg_div]
  · have zero : roundedMagnitude radix precision 0 = 0 := by
      have half := roundedMagnitude_eq radix precision 0
      norm_num at half
      exact half
    simp [zero]
  · rw [sign_pos positive, if_neg (by simp [positive.le]), SignType.coe_one, one_mul]

theorem abs_rounded (radix precision : Nat) (v : ℚ) :
    |rounded radix precision v| =
      (roundedMagnitude radix precision v : ℚ) / (Positional.weight radix precision : Nat) := by
  rw [rounded_eq]
  split
  next => rw [abs_neg, abs_of_nonneg (by positivity)]
  next => exact abs_of_nonneg (by positivity)

section Again

variable (readable : style.Readable) (precision : Nat) (v : ℚ)

include readable

theorem rounded_neg_iff :
    rounded style.radix precision v < 0 ↔ v < 0 ∧ roundedMagnitude style.radix precision v ≠ 0 := by
  have positive : (0 : ℚ) < (Positional.weight style.radix precision : Nat) :=
    Nat.cast_pos.mpr (weight_pos readable precision)
  rw [rounded_eq]
  split
  next negative =>
    have units : (0 : ℚ) < (roundedMagnitude style.radix precision v : ℚ) :=
      Nat.cast_pos.mpr (Nat.pos_of_ne_zero negative.2)
    simpa [negative] using div_pos units positive
  next nonneg =>
    have : (0 : ℚ) ≤ (roundedMagnitude style.radix precision v : ℚ) /
        (Positional.weight style.radix precision : Nat) := by positivity
    simp [nonneg, this]

theorem roundedMagnitude_rounded :
    roundedMagnitude style.radix precision (rounded style.radix precision v) =
      roundedMagnitude style.radix precision v := by
  have nonzero : ((Positional.weight style.radix precision : Nat) : ℚ) ≠ 0 :=
    Nat.cast_ne_zero.mpr (weight_pos readable precision).ne'
  have units := roundedMagnitude_eq style.radix precision (rounded style.radix precision v)
  rw [abs_rounded, div_mul_cancel₀ _ nonzero, Int.floor_natCast_add] at units
  norm_num at units
  exact units

theorem rounded_rounded :
    rounded style.radix precision (rounded style.radix precision v) =
      rounded style.radix precision v := by
  rw [rounded_eq style.radix precision (rounded style.radix precision v),
    roundedMagnitude_rounded readable, rounded_eq style.radix precision v]
  simp only [← rounded_eq, rounded_neg_iff readable, and_assoc, and_self]

theorem isExact_rounded :
    isExact style.radix precision (rounded style.radix precision v) = true := by
  have nonzero : ((Positional.weight style.radix precision : Nat) : ℚ) ≠ 0 :=
    Nat.cast_ne_zero.mpr (weight_pos readable precision).ne'
  rw [isExact, rounded_eq]
  split
  next => rw [neg_mul, div_mul_cancel₀ _ nonzero, Rat.neg_den, Rat.den_natCast, decide_eq_true rfl]
  next => rw [div_mul_cancel₀ _ nonzero, Rat.den_natCast, decide_eq_true rfl]

end Again

theorem render_eq (noCommas : style.commas = false) (precision : Nat) (v : ℚ) :
    style.render precision v =
      (if v < 0 ∧ roundedMagnitude style.radix precision v ≠ 0 then ['-'] else []) ++
        style.unsigned precision (roundedMagnitude style.radix precision v)
          (isExact style.radix precision v) := by
  simp only [render, unsigned, whole, noCommas, List.append_assoc]
  congr 2
  split
  next empty => rw [empty, List.append_nil]
  next => rfl

/-- A number that was rounded is written with the same digits, but for the zeros that told of the
rounding. -/
theorem render_rounded (readable : style.Readable) (noCommas : style.commas = false)
    (precision : Nat) (v : ℚ) :
    style.render precision (rounded style.radix precision v) =
      trimmed (style.render precision v) := by
  rw [render_eq noCommas, render_eq noCommas, roundedMagnitude_rounded readable,
    isExact_rounded readable]
  simp only [rounded_neg_iff readable, and_assoc, and_self]
  by_cases negative : v < 0 ∧ roundedMagnitude style.radix precision v ≠ 0
  · rw [if_pos negative]
    exact (congrArg ('-' :: ·) (trimmed_unsigned readable _ _ _)).symm
  · rw [if_neg negative]
    exact (trimmed_unsigned readable _ _ _).symm

/-- What is written of a number shows the number that it was rounded to. -/
theorem shows_render (readable : style.Readable) (noCommas : style.commas = false)
    (precision : Nat) (v : ℚ) :
    Text.Shows style.radix (style.render precision v) (rounded style.radix precision v) := by
  have denotes := denotes_unsigned readable precision (roundedMagnitude style.radix precision v)
    (isExact style.radix precision v)
  rw [render_eq noCommas, rounded_eq]
  by_cases negative : v < 0 ∧ roundedMagnitude style.radix precision v ≠ 0
  · rw [if_pos negative, if_pos negative]
    exact .negative denotes
  · rw [if_neg negative, if_neg negative]
    exact .literal denotes

theorem denotes_plain (readable : style.Readable) (n : Nat) :
    Literal.Denotes style.radix (style.plain n) n := by
  have denotes :=
    (spells_plain readable n).denotes (Positional.digits_ne_nil readable.two_le n)
  rwa [Positional.value_digits readable.two_le] at denotes

/-- All characters of what is written of a natural number are counted as digits. -/
theorem digitCount_plain (readable : style.Readable) (n : Nat) :
    digitCount (style.plain n) = (style.plain n).length := by
  rw [(spells_plain readable n).digitCount_eq, (spells_plain readable n).length_eq]

theorem digitCount_plain_pow (readable : style.Readable) (k : Nat) :
    digitCount (style.plain (style.radix ^ k)) = k + 1 := by
  rw [(spells_plain readable _).digitCount_eq, Positional.digits_pow readable.two_le,
    List.length_cons, List.length_replicate]

theorem renderFraction_natCast (noCommas : style.commas = false) (n : Nat) :
    style.renderFraction n = style.plain n := by
  simp [renderFraction, whole, noCommas]

/-- What is written of an integer shows it. -/
theorem shows_sign (readable : style.Readable) (n : ℤ) :
    Text.Shows style.radix ((if n < 0 then ['-'] else []) ++ style.plain n.natAbs) n := by
  have denotes := denotes_plain readable n.natAbs
  rw [Nat.cast_natAbs] at denotes
  split
  next negative =>
    have same : ((n : ℤ) : ℚ) = -((|n| : ℤ) : ℚ) := by rw [abs_of_neg negative]; simp
    rw [same]
    exact .negative denotes
  next nonneg =>
    rw [abs_of_nonneg (not_lt.mp nonneg)] at denotes
    exact .literal denotes

/-- A fraction shows its number. -/
theorem shows_renderFraction (readable : style.Readable) (noCommas : style.commas = false) (v : ℚ) :
    Text.Shows style.radix (style.renderFraction v) v := by
  have above := shows_sign readable v.num
  simp only [Rat.num_neg] at above
  have opened : style.renderFraction v =
      ((if v < 0 then ['-'] else []) ++ style.plain v.num.natAbs) ++
        (if v.den = 1 then [] else '/' :: style.plain v.den) := by
    simp [renderFraction, whole, noCommas]
  rw [opened]
  by_cases integral : v.den = 1
  · rw [Rat.coe_int_num_of_den_eq_one integral] at above
    rwa [if_pos integral, List.append_nil]
  · have quotient := above.quotient (denotes_plain readable v.den) (Nat.cast_ne_zero.mpr v.den_nz)
    rw [Rat.num_div_den] at quotient
    rwa [if_neg integral]

end NumberStyle
end ExactCalc
