import Mathlib.Data.Nat.Digits.Lemmas
import ExactCalc.Numeral.Positional

/-!
# Numbers and their digits

The digits of a number are digits of the radix, and they denote the number. Digits that follow
others move these up by a place each; zeros before a row of digits do not count.
-/
namespace ExactCalc.Positional

variable {radix : Nat}

theorem weight_eq (radix places : Nat) : weight radix places = radix ^ places := rfl

theorem digitsReversed_eq (two_le : 2 ≤ radix) (n : Nat) :
    digitsReversed radix n = Nat.digits radix n := by
  fun_induction digitsReversed radix n with
  | case1 => simp
  | case2 n nonzero small => omega
  | case3 n nonzero big ih =>
    rw [Nat.digits_def' (by omega) (Nat.pos_of_ne_zero nonzero), ih]

theorem value_append (xs ys : List Nat) :
    value radix (xs ++ ys) = value radix xs * weight radix ys.length + value radix ys := by
  induction ys using List.reverseRecOn with
  | nil => simp [value, weight]
  | append_singleton ys y ih =>
    have step (zs : List Nat) : value radix (zs ++ [y]) = value radix zs * radix + y := by
      simp [value]
    rw [← List.append_assoc, step, step, ih, List.length_append, weight, weight]
    simp only [Nat.pow_eq, List.length_singleton, pow_succ]
    ring

theorem value_eq_ofDigits (digits : List Nat) :
    value radix digits = Nat.ofDigits radix digits.reverse := by
  induction digits using List.reverseRecOn with
  | nil => rfl
  | append_singleton digits d ih =>
    rw [value_append, ih]
    simp [Nat.ofDigits_cons, value, weight]
    ring

/-- A row of digits denotes a number below the weight of the place before it. -/
theorem value_lt {digits : List Nat} (two_le : 2 ≤ radix) (small : ∀ d ∈ digits, d < radix) :
    value radix digits < radix ^ digits.length := by
  rw [value_eq_ofDigits, ← List.length_reverse]
  exact Nat.ofDigits_lt_base_pow_length two_le fun d member => small d (List.mem_reverse.mp member)

/-- The digits of a number denote it. -/
theorem value_digits (two_le : 2 ≤ radix) (n : Nat) : value radix (digits radix n) = n := by
  rw [value_eq_ofDigits, digits]
  split
  next zero => simp [zero]
  next nonzero => rw [List.reverse_reverse, digitsReversed_eq two_le, Nat.ofDigits_digits]

theorem lt_of_mem_digits (two_le : 2 ≤ radix) {n d : Nat} (member : d ∈ digits radix n) :
    d < radix := by
  rw [digits] at member
  split at member
  next zero =>
    obtain rfl : d = 0 := by simpa using member
    omega
  next nonzero =>
    rw [List.mem_reverse, digitsReversed_eq two_le] at member
    exact Nat.digits_lt_base two_le member

theorem digits_ne_nil (two_le : 2 ≤ radix) (n : Nat) : digits radix n ≠ [] := by
  rw [digits]
  split
  next zero => simp
  next nonzero => simpa [digitsReversed_eq two_le, Nat.digits_eq_nil_iff_eq_zero] using nonzero

/-- A number below the weight of a place is written with no more digits than there are places. -/
theorem length_digits_le (two_le : 2 ≤ radix) {n places : Nat} (positive : 0 < places)
    (bound : n < weight radix places) : (digits radix n).length ≤ places := by
  rw [digits]
  split
  next zero => exact positive
  next nonzero =>
    rw [List.length_reverse, digitsReversed_eq two_le]
    exact (Nat.digits_length_le_iff two_le n).mpr bound

/-- The digits of a power of the radix are a one and zeros. -/
theorem digits_pow (two_le : 2 ≤ radix) (k : Nat) :
    digits radix (radix ^ k) = 1 :: List.replicate k 0 := by
  have reversed : digitsReversed radix (radix ^ k) = List.replicate k 0 ++ [1] := by
    rw [digitsReversed_eq two_le]
    induction k with
    | zero => exact Nat.digits_of_lt radix 1 one_ne_zero two_le
    | succ k ih =>
      rw [pow_succ', Nat.digits_base_mul two_le (Nat.pow_pos (by omega)), ih, List.replicate_succ,
        List.cons_append]
  have nonzero : radix ^ k ≠ 0 := (Nat.pow_pos (by omega)).ne'
  rw [digits, if_neg nonzero, reversed, List.reverse_append, List.reverse_replicate]
  rfl

theorem Converts.mono {count count' : Nat} (converts : Converts radix count')
    (le : count ≤ count') : Converts radix count := converts.imp_right le.trans

theorem value_replicate_zero (n : Nat) : value radix (List.replicate n 0) = 0 := by
  induction n with
  | zero => rfl
  | succ n ih => simpa [List.replicate_succ, value] using ih

end ExactCalc.Positional
