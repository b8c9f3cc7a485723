import ExactCalc.Sample

/-!
# What is drawn from every tape

`Always` says of a computation that what it draws has a property, whatever stands on the tape. It is
kept by everything that computations are put together with, so that no tape need be mentioned.
-/
namespace ExactCalc.Sample

variable {α β : Type} {post : α → Prop} {after : β → Prop}

/-- What is drawn has the property, whatever stands on the tape. -/
def Always (make : Draw α) (post : α → Prop) : Prop := ∀ tape, post (make tape).1

theorem always_pure {a : α} (holds : post a) : Always (pure a) post := fun _ => holds

theorem Always.bind {make : Draw α} {next : α → Draw β} (first : Always make post)
    (later : ∀ a, post a → Always (next a) after) : Always (make >>= next) after :=
  fun tape => later _ (first tape) (make tape).2

/-- Where it does not matter what is drawn first. -/
theorem always_bind {make : Draw α} {next : α → Draw β} (later : ∀ a, Always (next a) after) :
    Always (make >>= next) after :=
  fun tape => later (make tape).1 (make tape).2

theorem always_ite {c : Prop} [Decidable c] {first second : Draw α} (yes : Always first post)
    (no : Always second post) : Always (if c then first else second) post := by
  split
  · exact yes
  · exact no

theorem always_between {low high : Nat} (ordered : low ≤ high) :
    Always (between low high) fun n => low ≤ n ∧ n ≤ high := by
  refine always_bind fun t => always_pure ?_
  have := Nat.mod_lt t (show 0 < high - low + 1 by omega)
  omega

theorem always_spaces : Always spaces fun text => ∀ c ∈ text, Text.isBlank c = true := by
  refine always_bind fun _ => always_pure fun c member => ?_
  rw [List.eq_of_mem_replicate member]
  rfl

/-- What every step keeps is kept by all of them together. -/
theorem always_iterate {step : Sample → Draw Sample} {invariant : Sample → Prop}
    (keeps : ∀ sample, invariant sample → Always (step sample) invariant) (n : Nat)
    {sample : Sample} (begins : invariant sample) : Always (iterate step n sample) invariant := by
  induction n generalizing sample with
  | zero => exact always_pure begins
  | succ n ih => exact (keeps sample begins).bind fun _ holds => ih holds

theorem always_several {make : Draw Sample} {each : Sample → Prop} (makes : Always make each)
    (n : Nat) :
    Always (several make n) fun samples =>
      samples.length = n ∧ ∀ sample ∈ samples, each sample := by
  induction n with
  | zero => exact always_pure ⟨rfl, nofun⟩
  | succ n ih =>
    refine makes.bind fun first holds => ih.bind fun rest ⟨length, all⟩ => always_pure ?_
    exact ⟨congrArg Nat.succ length, List.forall_mem_cons.mpr ⟨holds, all⟩⟩

end ExactCalc.Sample
