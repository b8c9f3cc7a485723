import ExactCalc.Proofs.Numeral.Integer

/-!
# What stands after the point

No digit is a point, in any radix and with or without commas, so that a rendered number falls apart
at its point into its whole part and its places. A number that had to be rounded shows all places
of the precision; one that did not shows none if it is an integer.
-/
namespace ExactCalc

namespace NumberStyle

open Literal

variable {style : NumberStyle}

theorem mem_group {mark c : Char} {text : Text} (member : c ∈ group mark text) :
    c = mark ∨ c ∈ text := by
  induction text with
  | nil => cases member
  | cons first rest ih =>
    unfold group at member
    split at member
    next =>
      rcases List.mem_cons.mp member with here | later
      · exact .inr (here ▸ List.mem_cons_self)
      rcases List.mem_cons.mp later with isMark | later
      · exact .inl isMark
      · exact (ih later).imp_right (List.mem_cons_of_mem _)
    next =>
      rcases List.mem_cons.mp member with here | later
      · exact .inr (here ▸ List.mem_cons_self)
      · exact (ih later).imp_right (List.mem_cons_of_mem _)

theorem plain_ne_point (n : Nat) : ∀ c ∈ style.plain n, c ≠ '.' := by
  have written : ∀ c ∈ Positional.write style.radix n, c ≠ '.' := by
    intro c member
    obtain ⟨digit, -, rfl⟩ := List.mem_map.mp member
    exact Digit.toChar_ne_point digit
  intro c member
  unfold plain at member
  dsimp only at member
  split at member
  next =>
    obtain ⟨d, inside, rfl⟩ := List.mem_map.mp member
    exact fun same => written d inside ((Digit.toUpper_eq_iff (by decide)).mp same)
  next => exact written c member

theorem whole_ne_point (n : Nat) : ∀ c ∈ style.whole n, c ≠ '.' := by
  intro c member
  unfold whole at member
  split at member
  next =>
    rcases mem_group member with rfl | inside
    · decide
    · exact plain_ne_point n c inside
  next => exact plain_ne_point n c member

/-- What stands after the point of a rendered number are its places. -/
theorem fractionPart_render (style : NumberStyle) (precision : Nat) (v : ℚ) :
    fractionPart (style.render precision v) =
      style.places precision (roundedMagnitude style.radix precision v %
        Positional.weight style.radix precision) (isExact style.radix precision v) := by
  unfold render
  dsimp only
  generalize roundedMagnitude style.radix precision v = units
  generalize style.places precision _ _ = fraction
  generalize shown : (if v < 0 ∧ units ≠ 0 then ['-'] else []) = sign
  have noPoint : ∀ c ∈ sign ++ style.whole (units / Positional.weight style.radix precision),
      c ≠ '.' := by
    intro c member
    rcases List.mem_append.mp member with inSign | inWhole
    · rw [← shown] at inSign
      split at inSign
      · obtain rfl := List.mem_singleton.mp inSign
        decide
      · cases inSign
    · exact whole_ne_point _ c inWhole
  split
  next empty =>
    rw [empty, List.append_nil, List.append_nil]
    exact (parts_of_no_point noPoint).2
  next =>
    rw [List.append_assoc _ ['.']]
    exact (parts_append noPoint fraction).2

theorem length_plain (n : Nat) :
    (style.plain n).length = (Positional.digits style.radix n).length := by
  unfold plain Positional.write Text.raised
  dsimp only
  split <;> simp

/-- Places that are not trimmed are as many as the precision. -/
theorem length_places (two_le : 2 ≤ style.radix) {precision n : Nat}
    (bound : n < Positional.weight style.radix precision) :
    (style.places precision n false).length = precision := by
  unfold places
  split
  next none => exact none.symm
  next some =>
    have short := Positional.length_digits_le two_le (Nat.pos_of_ne_zero some) bound
    change (List.leftpad _ _ _).length = _
    rw [List.length_leftpad, length_plain]
    exact Nat.max_eq_left short

/-- A number that had to be rounded shows all places of the precision. -/
theorem length_fractionPart_render (two_le : 2 ≤ style.radix) {precision : Nat} {v : ℚ}
    (inexact : isExact style.radix precision v = false) :
    (fractionPart (style.render precision v)).length = precision := by
  rw [fractionPart_render, inexact]
  exact length_places two_le (Nat.mod_lt _ (Nat.pow_pos (by omega)))

/-- A number has so many places if it is a whole number of units of the last one. -/
theorem isExact_iff {radix precision : Nat} {v : ℚ} :
    isExact radix precision v = true ↔ ∃ units : ℤ, v * radix ^ precision = units := by
  have weight : ((Positional.weight radix precision : Nat) : ℚ) = radix ^ precision :=
    Nat.cast_pow radix precision
  rw [isExact, decide_eq_true_eq, weight]
  constructor
  · exact fun integral => ⟨_, (Rat.coe_int_num_of_den_eq_one integral).symm⟩
  · rintro ⟨units, same⟩
    rw [same, Rat.den_intCast]

/-- A number between two neighbours with so many places does not have so many. -/
theorem isExact_of_between {radix precision : Nat} {v : ℚ} {units : ℤ}
    (above : (units : ℚ) < v * radix ^ precision) (below : v * radix ^ precision < units + 1) :
    isExact radix precision v = false := by
  rw [← Bool.not_eq_true, isExact_iff]
  rintro ⟨others, same⟩
  rw [same] at above below
  have after : units < others := by exact_mod_cast above
  have before : others < units + 1 := by exact_mod_cast below
  omega

/-- A number is rounded to the nearest unit of the last place, and up from a half. -/
theorem roundedMagnitude_bounds (radix precision : Nat) (v : ℚ) :
    (roundedMagnitude radix precision v : ℚ) ≤ |v| * radix ^ precision + 1 / 2 ∧
      |v| * radix ^ precision + 1 / 2 < roundedMagnitude radix precision v + 1 := by
  have units : (roundedMagnitude radix precision v : ℤ) = ⌊|v| * radix ^ precision + 1 / 2⌋ := by
    rw [roundedMagnitude_eq, Positional.weight_eq, Nat.cast_pow]
  have atMost := Int.floor_le (|v| * (radix : ℚ) ^ precision + 1 / 2)
  have lessThan := Int.lt_floor_add_one (|v| * (radix : ℚ) ^ precision + 1 / 2)
  rw [← units, Int.cast_natCast] at atMost lessThan
  exact ⟨atMost, lessThan⟩

/-- A natural number shows no places. -/
theorem render_natCast (two_le : 2 ≤ style.radix) (precision n : Nat) :
    style.render precision (n : ℚ) = style.whole n := by
  have weight : 0 < Positional.weight style.radix precision := Nat.pow_pos (by omega)
  have units := roundedMagnitude_int style.radix precision n
  have exact := isExact_int style.radix precision n
  rw [Int.cast_natCast] at units exact
  have notNegative : ¬((n : ℚ) < 0) := not_lt.mpr (Nat.cast_nonneg n)
  simp [render, units, exact, notNegative, places_zero, Nat.mul_div_cancel _ weight]

end NumberStyle
end ExactCalc
