import ExactCalc.Effect
import ExactCalc.Proofs.Result

/-!
# Effects that fail before they write

An effect is atomic when it leaves the state as it found it wherever it fails. Checks that write
nothing may stand before an atomic effect, and writes that cannot fail may stand after one. The
order the other way round is not atomic in general. Further predicates say which part of the state
an effect keeps, what its results are like, how it fails, when another effect does the same but
fails in another way, and of which part of the state alone all of this depends.
-/
namespace ExactCalc.Effect

variable {σ α β : Type}

/-- An effect that writes nothing, whether it fails or not. -/
def ReadOnly (x : Effect σ α) : Prop := ∀ s, (x.outcome s).2 = s

/-- An effect that does not fail. -/
def Infallible (x : Effect σ α) : Prop := ∀ s, ∃ a, (x.outcome s).1 = .ok a

/-- An effect that has written nothing where it fails. -/
def Atomic (x : Effect σ α) : Prop := ∀ s e, (x.outcome s).1 = .error e → (x.outcome s).2 = s

theorem readOnly_pure (a : α) : (pure a : Effect σ α).ReadOnly := fun _ => rfl

theorem readOnly_throw (e : Failure) : (throw e : Effect σ α).ReadOnly := fun _ => rfl

theorem readOnly_ofResult (result : Except Failure α) :
    (ofResult result : Effect σ α).ReadOnly := fun _ => rfl

theorem readOnly_checked (result : Except Refusal α) :
    (checked result : Effect σ α).ReadOnly := readOnly_ofResult _

theorem checked_ok (a : α) : (checked (.ok a) : Effect σ α) = pure a := rfl

theorem checked_error (r : Refusal) : (checked (.error r) : Effect σ α) = throw (.refused r) := rfl

theorem readOnly_get : (get : Effect σ σ).ReadOnly := fun _ => rfl

theorem ReadOnly.bind {x : Effect σ α} {next : α → Effect σ β} (reads : x.ReadOnly)
    (later : ∀ a, (next a).ReadOnly) : (x >>= next).ReadOnly := by
  intro s
  have kept := reads s
  rw [outcome_bind]
  split
  next a s' went => rw [later a s', ← kept, went]
  next e s' went => rw [← kept, went]

theorem ReadOnly.atomic {x : Effect σ α} (reads : x.ReadOnly) : x.Atomic := fun s _ _ => reads s

theorem infallible_pure (a : α) : (pure a : Effect σ α).Infallible := fun _ => ⟨a, rfl⟩

theorem infallible_get : (get : Effect σ σ).Infallible := fun s => ⟨s, rfl⟩

theorem infallible_modify (f : σ → σ) : (modify f : Effect σ Unit).Infallible := fun _ => ⟨(), rfl⟩

theorem infallible_set (s : σ) : (set s : Effect σ Unit).Infallible := fun _ => ⟨(), rfl⟩

theorem Infallible.bind {x : Effect σ α} {next : α → Effect σ β} (writes : x.Infallible)
    (later : ∀ a, (next a).Infallible) : (x >>= next).Infallible := by
  intro s
  obtain ⟨a, done⟩ := writes s
  rw [outcome_bind]
  split
  next a' s' went => exact later a' s'
  next e s' went => simp [went] at done

theorem infallible_forM {γ : Type} (items : List γ) {write : γ → Effect σ PUnit}
    (writes : ∀ item, (write item).Infallible) : (items.forM write).Infallible := by
  induction items with
  | nil => exact infallible_pure _
  | cons item rest ih =>
    change (write item >>= fun _ => rest.forM write).Infallible
    exact (writes item).bind fun _ => ih

theorem Infallible.atomic {x : Effect σ α} (writes : x.Infallible) : x.Atomic := by
  intro s e failed
  obtain ⟨a, done⟩ := writes s
  cases done.symm.trans failed

/-- A question is answered without a write. -/
theorem atomic_answer (f : σ → α) : (get >>= fun s => pure (f s) : Effect σ α).Atomic :=
  (readOnly_get.bind fun _ => readOnly_pure _).atomic

/-- A single write that is reported as done cannot fail. -/
theorem atomic_write (f : σ → σ) (a : α) : (modify f >>= fun _ => pure a : Effect σ α).Atomic :=
  ((infallible_modify f).bind fun _ => infallible_pure a).atomic

/-- Checks may come before an atomic effect. -/
theorem ReadOnly.bind_atomic {x : Effect σ α} {next : α → Effect σ β} (reads : x.ReadOnly)
    (later : ∀ a, (next a).Atomic) : (x >>= next).Atomic := by
  intro s e failed
  have kept := reads s
  rw [outcome_bind] at failed ⊢
  rcases went : x.outcome s with ⟨result, s'⟩
  rw [went] at kept failed
  cases result with
  | ok a => exact (later a s' e failed).trans kept
  | error e' => exact kept

/-- Writes that cannot fail may come after an atomic effect. -/
theorem Atomic.bind_infallible {x : Effect σ α} {next : α → Effect σ β} (atomic : x.Atomic)
    (writes : ∀ a, (next a).Infallible) : (x >>= next).Atomic := by
  intro s e failed
  rw [outcome_bind] at failed ⊢
  rcases went : x.outcome s with ⟨result, s'⟩
  rw [went] at failed
  cases result with
  | ok a =>
    obtain ⟨b, done⟩ := writes a s'
    cases done.symm.trans failed
  | error e' =>
    have kept := atomic s e' (by rw [went])
    rw [went] at kept
    exact kept

/-- An effect that keeps a part of the state, whether it fails or not. -/
def Keeps {γ : Type} (part : σ → γ) (x : Effect σ α) : Prop := ∀ s, part (x.outcome s).2 = part s

/-- An effect whose results have a property. -/
def Returns (post : α → Prop) (x : Effect σ α) : Prop := ∀ s a, (x.outcome s).1 = .ok a → post a

section Keeps

variable {γ : Type} {part : σ → γ}

theorem ReadOnly.keeps {x : Effect σ α} (reads : x.ReadOnly) : x.Keeps part :=
  fun s => congrArg part (reads s)

theorem keeps_modify {f : σ → σ} (same : ∀ s, part (f s) = part s) :
    (modify f : Effect σ Unit).Keeps part := same

theorem Keeps.bind {x : Effect σ α} {next : α → Effect σ β} (keeps : x.Keeps part)
    (later : ∀ a, (next a).Keeps part) : (x >>= next).Keeps part := by
  intro s
  have kept := keeps s
  rw [outcome_bind]
  split
  next a s' went =>
    rw [went] at kept
    exact (later a s').trans kept
  next e s' went =>
    rw [went] at kept
    exact kept

end Keeps

theorem returns_pure {post : α → Prop} {a : α} (holds : post a) :
    (pure a : Effect σ α).Returns post := by
  rintro s b ⟨⟩
  exact holds

theorem returns_throw {post : α → Prop} (e : Failure) : (throw e : Effect σ α).Returns post := by
  rintro s b ⟨⟩

theorem returns_bind {post : β → Prop} {x : Effect σ α} {next : α → Effect σ β}
    (later : ∀ a, (next a).Returns post) : (x >>= next).Returns post := by
  intro s b answered
  rw [outcome_bind] at answered
  split at answered
  next a s' went => exact later a s' b answered
  next e s' went => cases answered

/-- An effect whose failures have a property. -/
def FailsWith (pre : Failure → Prop) (x : Effect σ α) : Prop :=
  ∀ s e, (x.outcome s).1 = .error e → pre e

section Failures

variable {pre : Failure → Prop}

theorem Infallible.failsWith {x : Effect σ α} (writes : x.Infallible) : x.FailsWith pre := by
  intro s e failed
  obtain ⟨a, done⟩ := writes s
  cases done.symm.trans failed

theorem failsWith_throw {e : Failure} (holds : pre e) : (throw e : Effect σ α).FailsWith pre := by
  rintro s _ ⟨⟩
  exact holds

theorem FailsWith.bind {x : Effect σ α} {next : α → Effect σ β} (fails : x.FailsWith pre)
    (later : ∀ a, (next a).FailsWith pre) : (x >>= next).FailsWith pre := by
  intro s e failed
  rw [outcome_bind] at failed
  split at failed
  next a s' went => exact later a s' e failed
  next e' s' went =>
    cases failed
    exact fails s e (by rw [went])

/-- What follows a check may rely on its result. -/
theorem failsWith_ofResult {result : Except Failure α} {next : α → Effect σ β}
    (failed : ∀ e, result = .error e → pre e)
    (later : ∀ a, result = .ok a → (next a).FailsWith pre) :
    (ofResult result >>= next).FailsWith pre := by
  cases result with
  | error e =>
    rintro s _ ⟨⟩
    exact failed e rfl
  | ok a => exact later a rfl

theorem failsWith_checked {result : Except Refusal α} {next : α → Effect σ β}
    (refused : ∀ r, result = .error r → pre (.refused r))
    (later : ∀ a, result = .ok a → (next a).FailsWith pre) :
    (checked result >>= next).FailsWith pre := by
  cases result with
  | error r => exact failsWith_ofResult (by rintro _ ⟨⟩; exact refused r rfl) nofun
  | ok a => exact later a rfl

/-- An answer that only looks at the state does not fail. -/
theorem failsWith_answer (f : σ → α) : (get >>= fun s => pure (f s) : Effect σ α).FailsWith pre :=
  (infallible_get.bind fun _ => infallible_pure _).failsWith

/-- Neither does a write that is reported as done. -/
theorem failsWith_write (f : σ → σ) (a : α) :
    (modify f >>= fun _ => pure a : Effect σ α).FailsWith pre :=
  ((infallible_modify f).bind fun _ => infallible_pure a).failsWith

end Failures

/-- The second effect does what the first does, and where that fails it fails with the change of
the failure. -/
def FailsAs (f : Failure → Failure) (x x' : Effect σ α) : Prop :=
  ∀ s, x'.outcome s = (bimap f id (x.outcome s).1, (x.outcome s).2)

section FailsAs

variable {f : Failure → Failure} {α' : Type}

theorem Infallible.failsAs {x : Effect σ α} (writes : x.Infallible) : FailsAs f x x := by
  intro s
  obtain ⟨a, done⟩ := writes s
  exact Prod.ext (by rw [done]; rfl) rfl

theorem failsAs_throw (e : Failure) : FailsAs f (throw e : Effect σ α) (throw (f e)) := fun _ => rfl

theorem FailsAs.bind {x x' : Effect σ α} {next next' : α → Effect σ β} (fails : FailsAs f x x')
    (later : ∀ a, FailsAs f (next a) (next' a)) : FailsAs f (x >>= next) (x' >>= next') := by
  intro s
  rw [outcome_bind, outcome_bind, fails s]
  rcases x.outcome s with ⟨result, s'⟩
  cases result with
  | ok a => exact later a s'
  | error e => rfl

/-- What follows a check may make use of the change of its result. -/
theorem failsAs_ofResult {result : Except Failure α} {result' : Except Failure α'} {h : α → α'}
    {next : α → Effect σ β} {next' : α' → Effect σ β} (changed : result' = bimap f h result)
    (later : ∀ a, result = .ok a → FailsAs f (next a) (next' (h a))) :
    FailsAs f (ofResult result >>= next) (ofResult result' >>= next') := by
  subst changed
  cases result with
  | ok a => exact later a rfl
  | error e => exact failsAs_throw (σ := σ) (α := β) (f := f) e

/-- So it may where only refusals are changed. -/
theorem failsAs_checked {g : Refusal → Refusal} (refused : ∀ r, f (.refused r) = .refused (g r))
    {result : Except Refusal α} {result' : Except Refusal α'} {h : α → α'}
    {next : α → Effect σ β} {next' : α' → Effect σ β} (changed : result' = bimap g h result)
    (later : ∀ a, result = .ok a → FailsAs f (next a) (next' (h a))) :
    FailsAs f (checked result >>= next) (checked result' >>= next') := by
  subst changed
  refine failsAs_ofResult (h := h) ?_ fun a done => ?_
  · cases result with
    | ok a => rfl
    | error r => exact congrArg Except.error (refused r).symm
  · cases result with
    | ok b => cases done; exact later a rfl
    | error r => cases done

end FailsAs

/-- An effect to which states with the same part are the same: what it results in is the same, and
it leaves states with the same part. -/
def SeesOnly {γ : Type} (part : σ → γ) (x : Effect σ α) : Prop :=
  ∀ s t, part s = part t →
    (x.outcome s).1 = (x.outcome t).1 ∧ part (x.outcome s).2 = part (x.outcome t).2

section SeesOnly

variable {γ : Type} {part : σ → γ}

theorem seesOnly_ofResult (result : Except Failure α) :
    (ofResult result : Effect σ α).SeesOnly part := fun _ _ same => ⟨rfl, same⟩

theorem seesOnly_pure (a : α) : (pure a : Effect σ α).SeesOnly part := fun _ _ same => ⟨rfl, same⟩

theorem seesOnly_throw (e : Failure) : (throw e : Effect σ α).SeesOnly part :=
  fun _ _ same => ⟨rfl, same⟩

theorem seesOnly_modify {f : σ → σ} (respects : ∀ s t, part s = part t → part (f s) = part (f t)) :
    (modify f : Effect σ Unit).SeesOnly part := fun s t same => ⟨rfl, respects s t same⟩

theorem SeesOnly.bind {x : Effect σ α} {next : α → Effect σ β} (sees : x.SeesOnly part)
    (later : ∀ a, (next a).SeesOnly part) : (x >>= next).SeesOnly part := by
  intro s t same
  have sees := sees s t same
  rw [outcome_bind, outcome_bind]
  rcases went : x.outcome s with ⟨result, s'⟩
  rcases went' : x.outcome t with ⟨result', t'⟩
  rw [went, went'] at sees
  obtain ⟨rfl, after⟩ : result = result' ∧ part s' = part t' := sees
  cases result with
  | ok a => exact later a s' t' after
  | error e => exact ⟨rfl, after⟩

/-- What is done with the state may depend on the part. -/
theorem seesOnly_get {next : σ → Effect σ α} (respects : ∀ s t, part s = part t → next s = next t)
    (later : ∀ s, (next s).SeesOnly part) : (get >>= next).SeesOnly part := by
  intro s t same
  rw [outcome_bind, outcome_bind, outcome_get, outcome_get]
  dsimp only
  rw [respects s t same]
  exact later t s t same

theorem seesOnly_forM {γ' : Type} (items : List γ') {write : γ' → Effect σ PUnit}
    (writes : ∀ item, (write item).SeesOnly part) : (items.forM write).SeesOnly part := by
  induction items with
  | nil => exact seesOnly_pure _
  | cons item rest ih =>
    change (write item >>= fun _ => rest.forM write).SeesOnly part
    exact (writes item).bind fun _ => ih

end SeesOnly

/-- Writes that are made for each item of a list are made from left to right. -/
theorem outcome_forM_modify {γ : Type} (items : List γ) (f : γ → σ → σ) (s : σ) :
    (items.forM fun item => (modify (f item) : Effect σ PUnit)).outcome s =
      (.ok (), items.foldl (fun s item => f item s) s) := by
  induction items generalizing s with
  | nil => rfl
  | cons item rest ih =>
    change ((modify (f item) : Effect σ PUnit) >>= fun _ => rest.forM _).outcome s = _
    rw [outcome_bind, outcome_modify]
    exact ih (f item s)

end ExactCalc.Effect
