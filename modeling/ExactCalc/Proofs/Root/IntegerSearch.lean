import ExactCalc.Power.IntegerSearch

/-!
# The search among the integers stays between its bounds

Each step of the search moves one end of the interval to a point inside it. The ends that are
found are therefore in order and inside the first interval, whatever the errors are; for a
radicand of one or more the integer near its root is not negative.
-/
namespace ExactCalc.Power

/-- The ends of the last interval are in order and inside the first. -/
theorem narrow_within (error : Int → Rat) (lower upper : Int) (rising : Bool) (last : Rat)
    (ordered : lower ≤ upper) :
    lower ≤ (narrow error lower upper rising last).1 ∧
      (narrow error lower upper rising last).1 ≤ (narrow error lower upper rising last).2 ∧
      (narrow error lower upper rising last).2 ≤ upper := by
  fun_induction narrow error lower upper rising last with
  | case1 lower upper => omega
  | case2 lower upper last wide middle errorThere ih =>
    have := ih (by omega)
    omega
  | case3 lower upper rising last wide middle errorThere turned ih =>
    have := ih (by omega)
    omega

theorem startNarrowing_within (error : Int → Rat) (lower upper : Int) (ordered : lower < upper) :
    lower ≤ (startNarrowing error lower upper).1 ∧
      (startNarrowing error lower upper).1 ≤ (startNarrowing error lower upper).2 ∧
      (startNarrowing error lower upper).2 ≤ upper := by
  dsimp only [startNarrowing]
  split
  · have := narrow_within error ((upper - lower) / 2 + lower + 1) upper true
      (error ((upper - lower) / 2 + lower + 1)) (by omega)
    omega
  · have := narrow_within error lower ((upper - lower) / 2 + lower) false
      (error ((upper - lower) / 2 + lower)) (by omega)
    omega

theorem one_le_truncate {v : Rat} (large : 1 ≤ v) : 1 ≤ truncate v := by
  have denominator : (0 : Int) < v.den := Int.natCast_pos.mpr v.den_pos
  have numerator : (v.den : Int) ≤ v.num := by
    have := (Rat.le_iff 1 v).mp large
    simpa using this
  rw [truncate, Int.tdiv_eq_ediv_of_nonneg (by omega)]
  exact (Int.le_ediv_iff_mul_le denominator).mpr (by omega)

/-- For a radicand of one or more the integer near its root is not negative. -/
theorem nearbyInteger_nonneg {radicand : Rat} (degree : Nat) (large : 1 ≤ radicand) :
    0 ≤ nearbyInteger radicand degree := by
  have positive : ¬radicand < 0 := Rat.not_lt.mpr (Rat.le_trans (by decide) large)
  have within := startNarrowing_within (powerError radicand degree) 0 (truncate radicand)
    (one_le_truncate large)
  dsimp only [nearbyInteger]
  rw [if_neg positive]
  split <;> omega

theorem truncate_neg (v : Rat) : truncate (-v) = -truncate v := by
  rw [truncate, Rat.neg_num, Rat.neg_den, Int.neg_tdiv]
  rfl

/-- For a radicand of minus one or less the integer near its root is not positive. -/
theorem nearbyInteger_nonpos {radicand : Rat} (degree : Nat) (large : 1 ≤ -radicand) :
    nearbyInteger radicand degree ≤ 0 := by
  have negative : radicand < 0 := by grind
  have bound := one_le_truncate large
  rw [truncate_neg] at bound
  have within := startNarrowing_within (powerError radicand degree) (truncate radicand) 0 (by omega)
  dsimp only [nearbyInteger]
  rw [if_pos negative]
  split <;> omega

end ExactCalc.Power
