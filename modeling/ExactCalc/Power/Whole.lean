/-!
# Whole powers

A power whose exponent is a whole number needs no root. The powers of minus one, zero and one do
not grow: from the first on they only depend on whether the exponent is even, so that an exponent
of any size is cut down to one or two before the power is taken. `whole_eq_pow` and
`integral_eq_zpow` say that this changes no value.
-/
namespace ExactCalc.Power

/-- Whether a number is an integer of magnitude at most one. -/
def isSteady (base : Rat) : Bool := base.den = 1 && base.num.natAbs ≤ 1

/-- The base to the power of a natural number. -/
def whole (base : Rat) (n : Nat) : Rat :=
  if isSteady base && n ≠ 0 then base ^ (2 - n % 2) else base ^ n

/-- The base to the power of an integer. -/
def integral (base : Rat) (n : Int) : Rat :=
  if n < 0 then (whole base n.natAbs)⁻¹ else whole base n.natAbs

/-- The cube of minus one, zero or one is the number itself. -/
theorem cube_eq_self_of_isSteady {base : Rat} (h : isSteady base = true) :
    base * base * base = base := by
  simp only [isSteady, Bool.and_eq_true, decide_eq_true_eq] at h
  have hbase : base = (base.num : Rat) := Rat.ext rfl h.1
  have hnum : base.num = -1 ∨ base.num = 0 ∨ base.num = 1 := by omega
  rcases hnum with hnum | hnum | hnum <;> rw [hbase, hnum] <;> decide +kernel

/-- From the first power on, only the parity of the exponent counts. -/
theorem pow_eq_of_isSteady {base : Rat} (h : isSteady base = true) (n : Nat) :
    base ^ (n + 1) = base ^ (2 - (n + 1) % 2) := by
  induction n using Nat.strongRecOn with
  | ind n ih =>
    match n with
    | 0 => rfl
    | 1 => rfl
    | n + 2 =>
      have hparity : (n + 2 + 1) % 2 = (n + 1) % 2 := by omega
      rw [hparity, ← ih n (by omega), Rat.pow_succ, Rat.pow_succ, Rat.pow_succ, Rat.mul_assoc,
        Rat.mul_assoc, ← Rat.mul_assoc base, cube_eq_self_of_isSteady h]

/-- The shortcut changes no value. -/
theorem whole_eq_pow (base : Rat) (n : Nat) : whole base n = base ^ n := by
  unfold whole
  split
  next h =>
    simp only [Bool.and_eq_true, decide_eq_true_eq] at h
    obtain ⟨m, rfl⟩ := Nat.exists_eq_succ_of_ne_zero h.2
    exact (pow_eq_of_isSteady h.1 m).symm
  next => rfl

/-- Inverting after the power is the power of the inverse. -/
theorem integral_eq_zpow (base : Rat) (n : Int) : integral base n = base ^ n := by
  unfold integral
  rw [whole_eq_pow]
  cases n with
  | ofNat n => rfl
  | negSucc n => rw [if_pos (Int.negSucc_lt_zero n)]; rfl

end ExactCalc.Power
