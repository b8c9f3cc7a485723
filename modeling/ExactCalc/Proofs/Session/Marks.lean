import ExactCalc.Session

/-!
# Entries and use marks

Setting or forgetting a variable leaves every other entry as it is. Marking variables as used
changes the marks of those that are set and nothing else: no variable appears or disappears, and
each keeps its value and its place among the entries.
-/
namespace ExactCalc.Memory

variable (m : Memory) (line : Option Int) (names : List Text)

theorem get?_cons (key other : Text) (v : Variable) (rest : List (Text × Variable)) :
    get? ⟨(key, v) :: rest⟩ other = if other = key then some v else get? ⟨rest⟩ other := by
  by_cases same : other = key
  · simp [get?, same]
  · simp [get?, List.lookup_cons, beq_false_of_ne same, same]

/-- The entry of another variable stays as it is. -/
theorem get?_modify (name other : Text) (f : Variable → Variable) :
    (m.modify name f).get? other = if other = name then (m.get? other).map f else m.get? other := by
  obtain ⟨entries⟩ := m
  induction entries with
  | nil => simp [modify, get?]
  | cons entry rest ih =>
    obtain ⟨key, v⟩ := entry
    have step : modify ⟨(key, v) :: rest⟩ name f =
        ⟨(key, if key = name then f v else v) :: (modify ⟨rest⟩ name f).entries⟩ := by
      by_cases same : key = name <;> simp [modify, same]
    rw [step, get?_cons, get?_cons]
    by_cases found : other = key
    · subst found
      by_cases same : other = name <;> simp [same]
    · simpa [found] using ih

theorem get?_update (name other : Text) (v : Rat) :
    (m.update name v line).get? other = if other = name then some ⟨v, line⟩ else m.get? other := by
  unfold update
  split
  next set =>
    obtain ⟨old, found⟩ := Option.isSome_iff_exists.mp set
    rw [get?_modify]
    split
    next same =>
      rw [same, found]
      rfl
    next => rfl
  next unset =>
    have absent : m.entries.lookup name = none := Option.not_isSome_iff_eq_none.mp unset
    simp only [get?, List.lookup_append]
    by_cases same : other = name
    · subst same
      simp [absent]
    · simp [same, List.lookup_cons, beq_false_of_ne same]

theorem value?_update (name other : Text) (v : Rat) :
    (m.update name v line).value? other = if other = name then some v else m.value? other := by
  unfold value?
  rw [get?_update]
  split <;> rfl

theorem get?_purge (name other : Text) :
    (m.purge name).get? other = if other = name then none else m.get? other := by
  obtain ⟨entries⟩ := m
  induction entries with
  | nil => simp [purge, get?]
  | cons entry rest ih =>
    obtain ⟨key, v⟩ := entry
    by_cases dropped : key = name
    · have step : purge ⟨(key, v) :: rest⟩ name = purge ⟨rest⟩ name := by simp [purge, dropped]
      rw [step, ih, get?_cons, dropped]
      split <;> rfl
    · have step : purge ⟨(key, v) :: rest⟩ name = ⟨(key, v) :: (purge ⟨rest⟩ name).entries⟩ := by
        simp [purge, dropped]
      rw [step, get?_cons, ih, get?_cons]
      by_cases found : other = key
      · subst found
        simp [dropped]
      · simp [found]

/-- Several variables are forgotten together. -/
theorem get?_purgeAll (other : Text) :
    (names.foldl purge m).get? other = if other ∈ names then none else m.get? other := by
  induction names generalizing m with
  | nil => simp
  | cons name rest ih =>
    rw [List.foldl_cons, ih, get?_purge]
    by_cases head : other = name <;> by_cases tail : other ∈ rest <;> simp [head, tail]

theorem keys_modify (name : Text) (f : Variable → Variable) :
    (m.modify name f).entries.map (·.1) = m.entries.map (·.1) := by
  simp only [modify, List.map_map]
  refine List.map_congr_left fun entry _ => ?_
  by_cases same : entry.1 = name <;> simp [same]

/-- Variables that are marked get the mark of the line, and no other entry changes. -/
theorem get?_touchAll (other : Text) :
    (m.touchAll line names).get? other =
      if other ∈ names then (m.get? other).map fun v => ⟨v.value, line⟩ else m.get? other := by
  induction names generalizing m with
  | nil => simp [touchAll]
  | cons name rest ih =>
    have step : m.touchAll line (name :: rest) = (m.touch line name).touchAll line rest := rfl
    rw [step, ih, touch, get?_modify]
    by_cases head : other = name <;> by_cases tail : other ∈ rest <;>
      simp [head, tail, Option.map_map, Function.comp_def]

theorem keys_touchAll : (m.touchAll line names).entries.map (·.1) = m.entries.map (·.1) := by
  induction names generalizing m with
  | nil => rfl
  | cons name rest ih => exact (ih (m.touch line name)).trans (keys_modify m name _)

@[simp] theorem names_touchAll : (m.touchAll line names).names = m.names :=
  congrArg Text.sorted (keys_touchAll m line names)

@[simp] theorem value?_touchAll (other : Text) :
    (m.touchAll line names).value? other = m.value? other := by
  simp only [value?, get?_touchAll]
  split <;> simp [Option.map_map, Function.comp_def]

end ExactCalc.Memory
