import Mathlib.Data.List.Forall2

/-!
# Results that may fail

A step that is followed by another succeeds exactly when both do, and a list of steps exactly when
all do; otherwise it fails as the first does that fails.
-/
namespace ExactCalc

theorem bind_eq_ok_iff {ε α β : Type} {step : Except ε α} {next : α → Except ε β} {value : β} :
    (step >>= next) = .ok value ↔ ∃ x, step = .ok x ∧ next x = .ok value := by
  cases step with
  | error e => simp [bind, Except.bind]
  | ok x => simp [bind, Except.bind]

theorem bind_eq_error_iff {ε α β : Type} {step : Except ε α} {next : α → Except ε β} {e : ε} :
    (step >>= next) = .error e ↔
      step = .error e ∨ ∃ x, step = .ok x ∧ next x = .error e := by
  cases step with
  | error e => simp [bind, Except.bind]
  | ok x => simp [bind, Except.bind]

theorem map_eq_ok_iff {ε α β : Type} {result : Except ε α} {f : α → β} {y : β} :
    result.map f = .ok y ↔ ∃ x, result = .ok x ∧ f x = y := by
  cases result with
  | error e => exact ⟨nofun, by rintro ⟨_, ⟨⟩, _⟩⟩
  | ok x => exact ⟨by rintro ⟨⟩; exact ⟨x, rfl, rfl⟩, by rintro ⟨_, ⟨⟩, rfl⟩; rfl⟩

theorem map_eq_error_iff {ε α β : Type} {result : Except ε α} {f : α → β} {e : ε} :
    result.map f = .error e ↔ result = .error e := by
  cases result with
  | error e' => exact ⟨by rintro ⟨⟩; rfl, by rintro ⟨⟩; rfl⟩
  | ok x => exact ⟨nofun, nofun⟩

theorem mapError_ok {ε ε' α : Type} (f : ε → ε') (x : α) :
    (Except.ok x).mapError f = .ok x := rfl

theorem mapError_error {ε ε' α : Type} (f : ε → ε') (e : ε) :
    (Except.error e : Except ε α).mapError f = .error (f e) := rfl

theorem mapError_eq_ok_iff {ε ε' α : Type} {result : Except ε α} {f : ε → ε'} {x : α} :
    result.mapError f = .ok x ↔ result = .ok x := by
  cases result with
  | error e => exact ⟨by rintro ⟨⟩, by rintro ⟨⟩⟩
  | ok y => exact ⟨by rintro ⟨⟩; rfl, by rintro ⟨⟩; rfl⟩

theorem mapError_eq_error_iff {ε ε' α : Type} {result : Except ε α} {f : ε → ε'} {e : ε'} :
    result.mapError f = .error e ↔ ∃ e', result = .error e' ∧ f e' = e := by
  cases result with
  | error e' => exact ⟨by rintro ⟨⟩; exact ⟨e', rfl, rfl⟩, by rintro ⟨_, ⟨⟩, rfl⟩; rfl⟩
  | ok x => exact ⟨by rintro ⟨⟩, by rintro ⟨_, ⟨⟩, _⟩⟩

section Both

variable {ε ε' α α' β β' : Type}

/-- A result with a function applied to either outcome. -/
def bimap (f : ε → ε') (g : α → α') : Except ε α → Except ε' α'
  | .error e => .error (f e)
  | .ok x => .ok (g x)

@[simp] theorem bimap_error (f : ε → ε') (g : α → α') (e : ε) :
    bimap f g (.error e : Except ε α) = .error (f e) := rfl

@[simp] theorem bimap_ok (f : ε → ε') (g : α → α') (x : α) :
    bimap f g (.ok x : Except ε α) = .ok (g x) := rfl

/-- Steps one after the other change as each of them does. -/
theorem bimap_bind {f : ε → ε'} {g : α → α'} {h : β → β'} {step : Except ε α}
    {next : α → Except ε β} {next' : α' → Except ε' β'}
    (later : ∀ x, next' (g x) = bimap f h (next x)) :
    bimap f g step >>= next' = bimap f h (step >>= next) := by
  cases step with
  | error e => rfl
  | ok x => exact later x

/-- A list of steps changes as each of them does. -/
theorem mapM_bimap {γ γ' : Type} {f : ε → ε'} {g : α → α'} {h : γ → γ'} {step : γ → Except ε α}
    {step' : γ' → Except ε' α'} (each : ∀ x, step' (h x) = bimap f g (step x)) (xs : List γ) :
    (xs.map h).mapM step' = bimap f (List.map g) (xs.mapM step) := by
  induction xs with
  | nil => rfl
  | cons x xs ih =>
    rw [List.map_cons, List.mapM_cons, List.mapM_cons, each, ih]
    exact bimap_bind fun y => bimap_bind fun ys => rfl

end Both

/-- Members of a list correspond to members of the other. -/
theorem exists_of_forall₂ {α β : Type} {R : α → β → Prop} {xs : List α} {ys : List β}
    (each : List.Forall₂ R xs ys) : ∀ x ∈ xs, ∃ y ∈ ys, R x y := by
  induction each with
  | nil => nofun
  | @cons x y _ ys related _ ih =>
    refine List.forall_mem_cons.mpr ⟨⟨y, List.mem_cons_self, related⟩, fun x' member => ?_⟩
    obtain ⟨y', listed, related'⟩ := ih x' member
    exact ⟨y', List.mem_cons_of_mem _ listed, related'⟩

section Lists

variable {ε α β : Type} {step : α → Except ε β}

theorem mapM_eq_ok_iff {xs : List α} {ys : List β} :
    xs.mapM step = .ok ys ↔ List.Forall₂ (fun x y => step x = .ok y) xs ys := by
  induction xs generalizing ys with
  | nil => simp [pure, Except.pure, eq_comm]
  | cons x xs ih =>
    rw [List.mapM_cons, List.forall₂_cons_left_iff]
    simp only [bind_eq_ok_iff, ih]
    constructor
    · rintro ⟨y, first, ys, rest, ⟨⟩⟩
      exact ⟨y, ys, first, rest, rfl⟩
    · rintro ⟨y, ys, first, rest, rfl⟩
      exact ⟨y, first, ys, rest, rfl⟩

theorem exists_mapM_eq_ok {xs : List α} (all : ∀ x ∈ xs, ∃ y, step x = .ok y) :
    ∃ ys, xs.mapM step = .ok ys := by
  induction xs with
  | nil => exact ⟨[], rfl⟩
  | cons x xs ih =>
    obtain ⟨y, first⟩ := all x (by simp)
    obtain ⟨ys, rest⟩ := ih fun x' member => all x' (List.mem_cons_of_mem _ member)
    exact ⟨y :: ys, by rw [List.mapM_cons, first, rest]; rfl⟩

theorem mapM_eq_error {earlier later : List α} {x : α} {e : ε}
    (before : ∀ y ∈ earlier, ∃ z, step y = .ok z) (fails : step x = .error e) :
    (earlier ++ x :: later).mapM step = .error e := by
  induction earlier with
  | nil =>
    rw [List.nil_append, List.mapM_cons, fails]
    rfl
  | cons y earlier ih =>
    obtain ⟨z, first⟩ := before y (by simp)
    rw [List.cons_append, List.mapM_cons, first,
      ih fun y' member => before y' (List.mem_cons_of_mem _ member)]
    rfl

/-- A list of steps fails as one of them does. -/
theorem exists_of_mapM_eq_error {xs : List α} {e : ε} (failed : xs.mapM step = .error e) :
    ∃ x ∈ xs, step x = .error e := by
  induction xs with
  | nil => cases failed
  | cons x xs ih =>
    rw [List.mapM_cons] at failed
    rcases bind_eq_error_iff.mp failed with here | ⟨y, -, later⟩
    · exact ⟨x, List.mem_cons_self, here⟩
    rcases bind_eq_error_iff.mp later with later | ⟨ys, -, nothing⟩
    · obtain ⟨x', member, failed⟩ := ih later
      exact ⟨x', List.mem_cons_of_mem _ member, failed⟩
    · cases nothing

/-- A fold of steps fails at one of them, and succeeds before it. -/
theorem exists_of_foldlM_eq_error {next : β → α → Except ε β} {start : β} {xs : List α} {e : ε}
    (failed : xs.foldlM next start = .error e) :
    ∃ earlier x later y, xs = earlier ++ x :: later ∧ earlier.foldlM next start = .ok y ∧
      next y x = .error e := by
  induction xs generalizing start with
  | nil => cases failed
  | cons x xs ih =>
    rw [List.foldlM_cons] at failed
    rcases bind_eq_error_iff.mp failed with here | ⟨y, first, late⟩
    · exact ⟨[], x, xs, start, rfl, rfl, here⟩
    · obtain ⟨earlier, x', later, z, rfl, before, fails⟩ := ih late
      refine ⟨x :: earlier, x', later, z, rfl, ?_, fails⟩
      rw [List.foldlM_cons, first]
      exact before

end Lists
end ExactCalc
