import ExactCalc.Proofs.Numeral.Integer
import ExactCalc.Proofs.Sample.Draws
import ExactCalc.Proofs.Session.ReadBack

/-!
# Samples agree with the calculator

Every way to put samples together keeps that the source of a sample expresses its value and that its
literals are short. Factors hold together by themselves, products are joined by nothing looser than
multiplication and sums by nothing looser than addition, so that each may stand where it is put. By
induction on the depth of nesting this holds of everything that is drawn, and the calculator answers
the source with the value.
-/
namespace ExactCalc

namespace Sample

/-- The source of a sample expresses its value, with operators of the tiers before the given one
outside of parentheses, and no literal of it has too many digits. -/
structure Agrees (tier : Nat) (sample : Sample) : Prop where
  expresses : sample.source.Expresses 10 tier sample.value
  fits : sample.source.Fits 10

variable {tier : Nat}

theorem Agrees.mono {later : Nat} {sample : Sample} (agrees : sample.Agrees tier)
    (le : tier ≤ later) : sample.Agrees later :=
  ⟨agrees.expresses.mono le, agrees.fits⟩

/-- A literal of a number up to ten million, with or without underscores. -/
theorem agrees_literal {n : Nat} (small : n ≤ 10 ^ 7) {word : Text}
    (same : Literal.bare word = Literal.bare (Positional.decimal n)) : Agrees 0 ⟨word, n⟩ := by
  have readable : ({} : NumberStyle).Readable := ⟨by decide, by decide⟩
  have denotes : Literal.Denotes 10 word ((n : ℤ) : ℚ) := by
    rw [Int.cast_natCast]
    exact (NumberStyle.denotes_plain readable n).of_bare_eq same
  have few : Literal.digitCount word ≤ 8 := by
    have row : Literal.digitCount (Positional.decimal n) = (Positional.digits 10 n).length :=
      (NumberStyle.spells_plain readable n).digitCount_eq
    rw [← Literal.digitCount_bare, same, Literal.digitCount_bare, row]
    exact Positional.length_digits_le (by decide) (by decide)
      (small.trans_lt (by decide : 10 ^ 7 < 10 ^ 8))
  exact ⟨.literal denotes, (Text.fits_literal denotes).mpr (.inr (few.trans (by decide)))⟩

theorem always_number : Always number (Agrees 0) := by
  refine (always_between (by decide)).bind fun size ⟨_, short⟩ =>
    (always_between (Nat.zero_le _)).bind fun value ⟨_, le⟩ => ?_
  have small : value ≤ 10 ^ 7 := le.trans (Nat.pow_le_pow_right (by decide) short)
  refine always_ite (always_bind fun chance => always_pure (agrees_literal small ?_))
    (always_pure (agrees_literal small rfl))
  split
  · exact NumberStyle.bare_group _
  · rfl

theorem Agrees.negate {sample : Sample} (agrees : sample.Agrees 0) (signs : Nat) :
    (Nat.repeat negate signs sample).Agrees 0 := by
  induction signs with
  | zero => exact agrees
  | succ signs ih =>
    have negated := ih.expresses.negated
    rw [← Int.cast_neg] at negated
    exact ⟨negated, (Text.fits_symbol rfl).mpr ih.fits⟩

theorem always_parenthesized {sum : Draw Sample} (inside : Always sum (Agrees tier)) :
    Always (parenthesized sum) (Agrees 0) := by
  refine inside.bind fun inner agrees => always_spaces.bind fun before blankBefore =>
    always_spaces.bind fun after blankAfter => always_pure ?_
  have expresses := Text.Expresses.parenthesized blankBefore blankAfter agrees.expresses
  have fits : Text.Fits 10 ('(' :: (before ++ (inner.source ++ (after ++ [')'])))) := by
    rw [Text.fits_symbol rfl, Text.fits_blanks blankBefore, Text.fits_append_symbol blankAfter rfl]
    exact ⟨agrees.fits, nofun⟩
  exact ⟨by simpa using expresses, by simpa using fits⟩

/-- The extreme of the values is what a function makes of them. -/
theorem value_extreme (greatest : Bool) (first : ℤ) (rest : List ℤ) :
    (if greatest then Func.max else Func.min).value ((first :: rest).map fun n : ℤ => (n : ℚ)) =
      .ok (extreme greatest first rest : ℤ) := by
  have chosen (x y : ℤ) : (if greatest then Func.max else Func.min).choose (x : ℚ) (y : ℚ) =
      ((if (if greatest then x < y else y < x) then y else x : ℤ) : ℚ) := by
    cases greatest <;> simp [Func.choose, apply_ite (Int.cast : ℤ → ℚ)]
  rw [List.map_cons, Func.value, List.foldl_map, extreme]
  exact congrArg Except.ok (List.foldl_hom _ chosen)

theorem always_call {sum : Draw Sample} (inside : Always sum (Agrees tier)) :
    Always (call sum) (Agrees 0) := by
  refine always_bind fun chance => always_bind fun count => inside.bind fun first agrees =>
    (always_several inside _).bind fun rest ⟨_, all⟩ => always_spaces.bind fun before blankBefore =>
      always_spaces.bind fun after blankAfter => always_pure ?_
  have each : List.Forall₂ (Text.Expresses 10 tier) ((first :: rest).map (·.source))
      (((first :: rest).map (·.value)).map fun n : ℤ => (n : ℚ)) := by
    rw [List.map_map, List.forall₂_map_left_iff, List.forall₂_map_right_iff, List.forall₂_same]
    exact List.forall_mem_cons.mpr
      ⟨agrees.expresses, fun sample member => (all sample member).expresses⟩
  have short : ∀ text ∈ (first :: rest).map (·.source), text.Fits 10 := by
    rw [List.forall_mem_map]
    exact List.forall_mem_cons.mpr ⟨agrees.fits, fun sample member => (all sample member).fits⟩
  have value := value_extreme (chance % 2 = 0) first.value (rest.map (·.value))
  have keyword : Token.ofKeyword? (if chance % 2 = 0 then ['m', 'a', 'x'] else ['m', 'i', 'n']) =
      some (.func (if decide (chance % 2 = 0) then .max else .min)) := by
    simp only [decide_eq_true_eq]
    split <;> rfl
  have expresses := Text.Expresses.called blankBefore blankAfter keyword each value
  have fits := Text.fits_called blankBefore blankAfter keyword short
  exact ⟨by simpa using expresses, by simpa using fits⟩

/-- What is inside of parentheses and calls, if anything may be there, agrees. -/
theorem always_factor {sum? : Option (Draw Sample)}
    (inside : ∀ sum ∈ sum?, Always sum (Agrees tier)) : Always (factor sum?) (Agrees 0) := by
  refine always_bind fun signs => always_bind fun kind => ?_
  have signed {make : Draw Sample} (made : Always make (Agrees 0)) :
      Always (do return Nat.repeat negate signs (← make)) (Agrees 0) :=
    made.bind fun sample agrees => always_pure (agrees.negate signs)
  cases sum? with
  | none => exact signed always_number
  | some sum =>
    have inside := inside sum rfl
    exact always_ite (signed (always_parenthesized inside))
      (always_ite (signed (always_call inside)) (signed always_number))

/-- An operator is put between a sample of its own tier and one of a tier before it. -/
theorem always_joined {left right : Sample} {c : Char} {op : BinaryOp} {value : ℤ}
    (onLeft : left.Agrees (op.tier + 1)) (onRight : right.Agrees op.tier)
    (symbol : Token.ofSymbol? c = some (.binary op))
    (values : ∀ a, op.value a left.value right.value = .ok (value : ℚ)) :
    Always (joined c left right value) (Agrees (op.tier + 1)) := by
  refine always_spaces.bind fun before blankBefore => always_spaces.bind fun after blankAfter =>
    always_pure ?_
  have expresses :=
    Text.Expresses.joined blankBefore blankAfter onLeft.expresses onRight.expresses symbol values
  have fits : Text.Fits 10 (left.source ++ (before ++ c :: (after ++ right.source))) := by
    rw [Text.fits_append_symbol blankBefore (by rw [symbol]; rfl), Text.fits_blanks blankAfter]
    exact ⟨onLeft.fits, onRight.fits⟩
  exact ⟨by simpa using expresses, by simpa using fits⟩

theorem always_product {sum? : Option (Draw Sample)}
    (inside : ∀ sum ∈ sum?, Always sum (Agrees tier)) :
    Always (product sum?) (Agrees (BinaryOp.multiply.tier + 1)) := by
  refine (always_factor inside).bind fun first agrees => always_bind fun count =>
    always_iterate (fun left onLeft => ?_) count (agrees.mono (Nat.zero_le _))
  refine (always_factor inside).bind fun right onRight => ?_
  refine always_joined onLeft (onRight.mono (Nat.zero_le _)) rfl fun a => ?_
  rw [Int.cast_mul]
  rfl

theorem always_sumOf {sum? : Option (Draw Sample)}
    (inside : ∀ sum ∈ sum?, Always sum (Agrees (BinaryOp.add.tier + 1))) :
    Always (sumOf sum?) (Agrees (BinaryOp.add.tier + 1)) := by
  refine (always_product inside).bind fun first agrees => always_bind fun count =>
    always_iterate (fun left onLeft => ?_) count (agrees.mono (by decide))
  refine (always_product inside).bind fun right onRight => always_bind fun chance =>
    always_ite ?_ ?_
  · refine always_joined onLeft onRight rfl fun a => ?_
    rw [Int.cast_add]
    rfl
  · change Always _ (Agrees (BinaryOp.subtract.tier + 1))
    refine always_joined onLeft onRight rfl fun a => ?_
    rw [Int.cast_sub]
    rfl

theorem always_nested (depth : Nat) : Always (nested depth) (Agrees (BinaryOp.add.tier + 1)) := by
  induction depth with
  | zero => exact always_sumOf nofun
  | succ depth ih => exact always_sumOf fun sum member => Option.mem_some.mp member ▸ ih

/-- Under default settings the source of a sample is answered with its value in decimal. -/
theorem Agrees.calculate {sample : Sample} (agrees : sample.Agrees tier) (commands : Registry)
    (number : Option ℤ) (store : Option Memory) :
    ({ store := store } : Session).calculate commands number sample.source =
      (.ok (Positional.signedDecimal sample.value), { store := store }) := by
  have reads : sample.source.ReadsAs ({ store := store } : Session).settings.radix.toNat
      sample.value := agrees.expresses.readsAs agrees.fits
  have answered := (Session.calculate_readsAs commands number reads).2
  rwa [Settings.display_int] at answered

/-- From every tape as many samples are made as are asked for, and the calculator under default
settings agrees with each: it answers the source with the value in decimal, whatever commands and
variables there are, and is left as it was. -/
theorem fromTape_calculates (tape : List Nat) (count : Nat) :
    (fromTape tape count).length = count ∧
      ∀ sample ∈ fromTape tape count, ∀ commands number store,
        ({ store := store } : Session).calculate commands number sample.source =
          (.ok (Positional.signedDecimal sample.value), { store := store }) := by
  obtain ⟨length, all⟩ := always_several (always_nested 3) count tape
  exact ⟨length, fun sample member => (all sample member).calculate⟩

/-- A minus sign, a call of two arguments of which the first is negated and has an underscore, and
spaces that are drawn after what stands between them. -/
example :
    fromTape
      [250, 160, 0, 1, 300, 999, 3, 1234, 100, 0, 0, 999, 0, 7, 0, 0, 3, 3, 1, 999, 0, 5, 0, 3, 0]
      1 = [⟨"-max(-1_234 , 7)* 5".toList, -35⟩] := by decide +kernel

end Sample
end ExactCalc
