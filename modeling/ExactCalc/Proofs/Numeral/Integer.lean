import ExactCalc.Proofs.Numeral.Display
import ExactCalc.Settings

/-!
# Integers, read and displayed

An integer is displayed with its digits alone, whatever the precision is, and marks between the
digits of a literal do not change the number that it denotes.
-/
namespace ExactCalc

namespace NumberStyle

open Literal

theorem bare_group (text : Text) : bare (group '_' text) = bare text := by
  induction text with
  | nil => rfl
  | cons c rest ih =>
    have kept (later : Text) : bare (c :: later) = bare [c] ++ bare later :=
      List.filter_append [c] later
    have mark (later : Text) : bare ('_' :: later) = bare later := rfl
    unfold group
    split
    next => rw [kept, kept rest, mark, ih]
    next => rw [kept, kept rest, ih]

/-- Every number of units of the unit place is its own number of units of a later place. -/
theorem roundedMagnitude_int (radix precision : Nat) (n : ℤ) :
    roundedMagnitude radix precision n = n.natAbs * Positional.weight radix precision := by
  have units : |(n : ℚ)| * (Positional.weight radix precision : Nat) + 1 / 2 =
      ((n.natAbs * Positional.weight radix precision : Nat) : ℤ) + 1 / 2 := by
    push_cast [Nat.cast_natAbs]
    rfl
  have floor := roundedMagnitude_eq radix precision n
  rw [units, Int.floor_intCast_add, show ⌊(1 / 2 : ℚ)⌋ = 0 by norm_num, add_zero] at floor
  exact Int.ofNat_inj.mp floor

theorem isExact_int (radix precision : Nat) (n : ℤ) : isExact radix precision n = true := by
  have integral : (n : ℚ) * (Positional.weight radix precision : Nat) =
      ((n * (Positional.weight radix precision : Nat) : ℤ) : ℚ) := by push_cast; rfl
  rw [isExact, integral, Rat.den_intCast]
  rfl

variable {style : NumberStyle}

/-- Places that are all zero are left out of an exact number. -/
theorem places_zero (precision : Nat) : style.places precision 0 true = [] := by
  have zero : style.plain 0 = ['0'] := by
    unfold plain
    split <;> rfl
  unfold places
  split
  next => rfl
  next =>
    refine List.rdropWhile_eq_nil_iff.mpr fun c member => ?_
    rw [zero, List.leftpad, List.mem_append, List.mem_replicate, List.mem_singleton] at member
    simpa using member.elim And.right id

/-- An integer is written as its digits after its sign. -/
theorem render_int (readable : style.Readable) (noCommas : style.commas = false) (precision : Nat)
    (n : ℤ) : style.render precision n = (if n < 0 then ['-'] else []) ++ style.plain n.natAbs := by
  have weight := weight_pos readable precision
  have negative :
      ((n : ℚ) < 0 ∧ n.natAbs * Positional.weight style.radix precision ≠ 0) ↔ n < 0 := by
    rw [Int.cast_lt_zero]
    refine ⟨And.left, fun below => ⟨below, Nat.mul_ne_zero ?_ weight.ne'⟩⟩
    omega
  rw [render_eq noCommas, roundedMagnitude_int, isExact_int, unsigned, Nat.mul_mod_left,
    places_zero, if_pos rfl, Nat.mul_div_cancel _ weight, List.append_nil]
  simp only [negative]

end NumberStyle

/-- Unless the settings were changed, an integer is displayed in decimal. -/
theorem Settings.display_int (n : ℤ) :
    ({} : Settings).display n = Positional.signedDecimal n := by
  have readable : ({} : NumberStyle).Readable := ⟨by decide, by decide⟩
  have shown := NumberStyle.render_int readable rfl 10 n
  refine shown.trans ?_
  unfold Positional.signedDecimal
  split <;> rfl

end ExactCalc
