import ExactCalc.Command.Registry

/-!
# What words mean in a registry

A definition is turned down before anything of it is written. Accepted definitions keep names and
aliases apart, so that a word means a command exactly if it is the name or an alias of it, and goes
on to mean that command whatever is tried afterwards.
-/
namespace ExactCalc

/-- A command may be called by its name and by its aliases. -/
def Definition.IsCalled (d : Definition) (word : Text) : Prop := word = d.name ∨ word ∈ d.aliases

namespace Registry

variable {r : Registry} {d : Definition}

/-- The registry with one more command. -/
def extended (r : Registry) (d : Definition) : Registry :=
  ⟨r.commands ++ [d], d.aliases.foldl (addAlias d.name) r.aliases⟩

/-- Aliases that are written one after the other are all written, and nothing else is. -/
theorem run_addAliases (name : Text) (words : List Text) (r : Registry) :
    StateT.run (ExceptT.run (words.forM fun word => (modify fun r =>
        { r with aliases := addAlias name r.aliases word } : Registering Unit))) r =
      (.ok (), ⟨r.commands, words.foldl (addAlias name) r.aliases⟩) := by
  induction words generalizing r with
  | nil => rfl
  | cons word rest ih => exact ih ⟨r.commands, addAlias name r.aliases word⟩

theorem run_enter (d : Definition) (r : Registry) :
    StateT.run (ExceptT.run (enter d)) r = (.ok (), r.extended d) :=
  run_addAliases d.name d.aliases ⟨r.commands ++ [d], r.aliases⟩

/-- Everything is looked at before anything is written. -/
theorem attempt_eq (d : Definition) (r : Registry) :
    attempt d r =
      if r.knows d.name then (.error (.duplicateName d.name), r)
      else match d.aliases.find? fun word => r.knows word || word = d.name with
        | some word => (.error (.duplicateAlias word), r)
        | none => (.ok (), r.extended d) := by
  have asked : attempt d r = StateT.run (ExceptT.run ((if r.knows d.name then
        throw (.duplicateName d.name)
      else match d.aliases.find? fun word => r.knows word || word = d.name with
        | some word => throw (.duplicateAlias word)
        | none => pure () : Registering Unit) >>= fun _ => enter d)) r := rfl
  rw [asked]
  split
  · rfl
  split
  · rfl
  · exact run_enter d r

/-- A definition whose words are all new, and whose name is none of its aliases. -/
structure IsNew (r : Registry) (d : Definition) : Prop where
  unknown : ∀ word, d.IsCalled word → r.knows word = false
  apart : d.name ∉ d.aliases

theorem attempt_of_isNew (new : r.IsNew d) : attempt d r = (.ok (), r.extended d) := by
  have noneTaken : d.aliases.find? (fun word => r.knows word || word = d.name) = none := by
    refine List.find?_eq_none.mpr fun word member taken => ?_
    have apart : word ≠ d.name := fun same => new.apart (same ▸ member)
    simp [new.unknown word (.inr member), apart] at taken
  rw [attempt_eq, new.unknown d.name (.inl rfl), noneTaken]
  rfl

/-- A definition that is turned down leaves the registry as it was. -/
theorem attempt_of_not_isNew (old : ¬r.IsNew d) : ∃ e, attempt d r = (.error e, r) := by
  rw [attempt_eq]
  split
  next => exact ⟨_, rfl⟩
  next unknown =>
    split
    next word _ => exact ⟨.duplicateAlias word, rfl⟩
    next noneTaken =>
      have free : ∀ word ∈ d.aliases, r.knows word = false ∧ word ≠ d.name := by
        simpa using noneTaken
      refine absurd ⟨?_, fun member => (free d.name member).2 rfl⟩ old
      rintro word (rfl | member)
      · simpa using unknown
      · exact (free word member).1

/-- Names and aliases are apart, and exactly the aliases of commands lead somewhere, each to the
name of its command. -/
structure Consistent (r : Registry) : Prop where
  named : ∀ d ∈ r.commands, r.command? d.name = some d
  unaliased : ∀ d ∈ r.commands, r.alias? d.name = none
  leads : ∀ word name, r.alias? word = some name ↔
    ∃ d ∈ r.commands, d.name = name ∧ word ∈ d.aliases

theorem mem_of_command? {word : Text} (found : r.command? word = some d) :
    d ∈ r.commands ∧ d.name = word :=
  ⟨List.mem_of_find?_eq_some found, by simpa using List.find?_some found⟩

theorem consistent_empty : ({} : Registry).Consistent where
  named := nofun
  unaliased := nofun
  leads _ _ := ⟨nofun, nofun⟩

/-- A word means the command of which it is the name or an alias. -/
theorem Consistent.lookup?_eq_some (consistent : r.Consistent) {word : Text} :
    r.lookup? word = some d ↔ d ∈ r.commands ∧ d.IsCalled word := by
  unfold lookup?
  constructor
  · intro found
    cases aliased : r.alias? word with
    | none =>
      rw [aliased] at found
      obtain ⟨member, same⟩ := mem_of_command? found
      exact ⟨member, .inl same.symm⟩
    | some name =>
      obtain ⟨d', member', rfl, listed⟩ := (consistent.leads word name).mp aliased
      rw [aliased, Option.getD_some, consistent.named d' member'] at found
      cases found
      exact ⟨member', .inr listed⟩
  · rintro ⟨member, rfl | listed⟩
    · rw [consistent.unaliased d member]
      exact consistent.named d member
    · rw [(consistent.leads word d.name).mpr ⟨d, member, rfl, listed⟩]
      exact consistent.named d member

theorem lookup_eq_ok {word : Located Text} :
    r.lookup word = .ok d ↔ r.lookup? word.val = some d := by
  unfold lookup
  cases r.lookup? word.val <;> simp

theorem alias?_isSome {word : Text} :
    (r.alias? word).isSome ↔ word ∈ r.aliases.map (·.1) := by
  rw [alias?, List.lookup_isSome_iff, List.mem_map]
  exact exists_congr fun entry => and_congr_right fun _ => beq_iff_eq.trans eq_comm

/-- Lookup succeeds for names and aliases, and for no other word. -/
theorem Consistent.lookup_isOk (consistent : r.Consistent) (word : Located Text) :
    (∃ d, r.lookup word = .ok d) ↔
      word.val ∈ r.commands.map (·.name) ∨ word.val ∈ r.aliases.map (·.1) := by
  simp only [lookup_eq_ok, consistent.lookup?_eq_some, ← alias?_isSome]
  constructor
  · rintro ⟨d, member, same | listed⟩
    · exact .inl (List.mem_map.mpr ⟨d, member, same.symm⟩)
    · exact .inr (Option.isSome_of_mem ((consistent.leads _ d.name).mpr ⟨d, member, rfl, listed⟩))
  · rintro (named | aliased)
    · obtain ⟨d, member, same⟩ := List.mem_map.mp named
      exact ⟨d, member, .inl same.symm⟩
    · obtain ⟨name, found⟩ := Option.isSome_iff_exists.mp aliased
      obtain ⟨d, member, -, listed⟩ := (consistent.leads _ name).mp found
      exact ⟨d, member, .inr listed⟩

theorem command?_extended (d : Definition) (word : Text) :
    (r.extended d).command? word =
      (r.command? word).or (if d.name = word then some d else none) := by
  unfold command? extended
  rw [List.find?_append]
  by_cases same : d.name = word <;> simp [same]

theorem lookup_addAlias (name : Text) (aliases : List (Text × Text)) (word other : Text) :
    (addAlias name aliases word).lookup other =
      (aliases.lookup other).or (if other = word then some name else none) := by
  unfold addAlias
  split
  next known =>
    by_cases same : other = word
    · subst same
      rw [Option.or_of_isSome known]
    · simp [same]
  next =>
    by_cases same : other = word
    · simp [List.lookup_append, same]
    · simp [List.lookup_append, List.lookup_cons, same, beq_false_of_ne same]

theorem alias?_extended (d : Definition) (word : Text) :
    (r.extended d).alias? word =
      (r.alias? word).or (if word ∈ d.aliases then some d.name else none) := by
  have written (words : List Text) (aliases : List (Text × Text)) :
      (words.foldl (addAlias d.name) aliases).lookup word =
        (aliases.lookup word).or (if word ∈ words then some d.name else none) := by
    induction words generalizing aliases with
    | nil => simp
    | cons first rest ih =>
      rw [List.foldl_cons, ih, lookup_addAlias, Option.or_assoc]
      by_cases head : word = first <;> by_cases tail : word ∈ rest <;> simp [head, tail]
  exact written d.aliases r.aliases

theorem knows_eq_false {word : Text} :
    r.knows word = false ↔ r.command? word = none ∧ r.alias? word = none := by
  simp [knows]

theorem Consistent.extended (consistent : r.Consistent) (new : r.IsNew d) :
    (r.extended d).Consistent := by
  have nameNew := knows_eq_false.mp (new.unknown d.name (.inl rfl))
  have aliasNew (word : Text) (member : word ∈ d.aliases) :=
    knows_eq_false.mp (new.unknown word (.inr member))
  refine ⟨fun d' member => ?_, fun d' member => ?_, fun word name => ?_⟩
  · rw [command?_extended]
    rcases List.mem_append.mp member with earlier | last
    · rw [consistent.named d' earlier, Option.some_or]
    · obtain rfl := List.mem_singleton.mp last
      rw [nameNew.1, Option.none_or, if_pos rfl]
  · rw [alias?_extended]
    rcases List.mem_append.mp member with earlier | last
    · have notAlias : d'.name ∉ d.aliases := fun listed =>
        nomatch (aliasNew d'.name listed).1.symm.trans (consistent.named d' earlier)
      rw [consistent.unaliased d' earlier, Option.none_or, if_neg notAlias]
    · obtain rfl := List.mem_singleton.mp last
      rw [nameNew.2, Option.none_or, if_neg new.apart]
  · have members : (∃ d' ∈ (r.extended d).commands, d'.name = name ∧ word ∈ d'.aliases) ↔
        (∃ d' ∈ r.commands, d'.name = name ∧ word ∈ d'.aliases) ∨
          d.name = name ∧ word ∈ d.aliases := by
      simp [Registry.extended, or_and_right, exists_or]
    rw [members, ← consistent.leads, alias?_extended]
    by_cases listed : word ∈ d.aliases
    · simp [(aliasNew word listed).2, listed]
    · simp [listed]

/-- The registry after attempts to add commands, one after the other. -/
def afterAttempts (r : Registry) (ds : List Definition) : Registry :=
  ds.foldl (fun r d => (attempt d r).2) r

/-- One attempt keeps a registry consistent and all that words mean in it. -/
theorem Consistent.attempt (consistent : r.Consistent) (d : Definition) :
    (attempt d r).2.Consistent ∧ ∀ d' ∈ r.commands, d' ∈ (attempt d r).2.commands := by
  by_cases new : r.IsNew d
  · rw [attempt_of_isNew new]
    exact ⟨consistent.extended new, fun d' member => List.mem_append_left _ member⟩
  · obtain ⟨e, rejected⟩ := attempt_of_not_isNew new
    rw [rejected]
    exact ⟨consistent, fun d' member => member⟩

theorem Consistent.afterAttempts (consistent : r.Consistent) (ds : List Definition) :
    (r.afterAttempts ds).Consistent ∧ ∀ d' ∈ r.commands, d' ∈ (r.afterAttempts ds).commands := by
  induction ds generalizing r with
  | nil => exact ⟨consistent, fun d' member => member⟩
  | cons d rest ih =>
    obtain ⟨first, kept⟩ := consistent.attempt d
    obtain ⟨all, keptAll⟩ := ih first
    exact ⟨all, fun d' member => keptAll d' (kept d' member)⟩

/-- The default commands are all accepted. -/
theorem afterAttempts_builtin : ({} : Registry).afterAttempts builtin = default := rfl

/-- Whatever is tried on an empty registry or on the default one, the registry stays consistent. -/
theorem consistent_afterAttempts {start : Registry} (begins : start = {} ∨ start = default)
    (tried : List Definition) : (start.afterAttempts tried).Consistent := by
  have fromEmpty (ds : List Definition) : (({} : Registry).afterAttempts ds).Consistent :=
    (consistent_empty.afterAttempts ds).1
  rcases begins with rfl | rfl
  · exact fromEmpty tried
  · rw [← afterAttempts_builtin]
    exact ((fromEmpty builtin).afterAttempts tried).1

/-- Names and aliases stay apart and every alias leads to a command. A definition that is turned
down leaves names and aliases as they are, and any other adds its own. A word is found if it is a
name or an alias, and for no other reason; it then means the command of which it is that, now and
after whatever else is tried. -/
theorem words_keep_meaning {start : Registry} (begins : start = {} ∨ start = default)
    (tried : List Definition) (reached : start.afterAttempts tried = r) :
    (∀ word ∈ r.commands.map (·.name), word ∉ r.aliases.map (·.1)) ∧
      (∀ word name, r.alias? word = some name → ∃ d ∈ r.commands, d.name = name) ∧
      (∀ d, r.IsNew d ∧ attempt d r = (.ok (), r.extended d) ∨
        ¬r.IsNew d ∧ ∃ e, attempt d r = (.error e, r)) ∧
      (∀ word span, (∃ d, r.lookup ⟨word, span⟩ = .ok d) ↔
        word ∈ r.commands.map (·.name) ∨ word ∈ r.aliases.map (·.1)) ∧
      ∀ word span d, r.lookup ⟨word, span⟩ = .ok d →
        d ∈ r.commands ∧ d.IsCalled word ∧
          ∀ later, (r.afterAttempts later).lookup ⟨word, span⟩ = .ok d := by
  have consistent : r.Consistent := reached ▸ consistent_afterAttempts begins tried
  refine ⟨fun word named => ?_, fun word name leads => ?_, fun d => ?_,
    fun word span => consistent.lookup_isOk ⟨word, span⟩, fun word span d found => ?_⟩
  · obtain ⟨d, member, rfl⟩ := List.mem_map.mp named
    rw [← alias?_isSome, consistent.unaliased d member]
    nofun
  · obtain ⟨d, member, same, -⟩ := (consistent.leads word name).mp leads
    exact ⟨d, member, same⟩
  · by_cases new : r.IsNew d
    · exact .inl ⟨new, attempt_of_isNew new⟩
    · exact .inr ⟨new, attempt_of_not_isNew new⟩
  · obtain ⟨member, called⟩ := consistent.lookup?_eq_some.mp (lookup_eq_ok.mp found)
    refine ⟨member, called, fun later => lookup_eq_ok.mpr ?_⟩
    obtain ⟨stays, kept⟩ := consistent.afterAttempts later
    exact stays.lookup?_eq_some.mpr ⟨kept d member, called⟩

/-- The second definition takes an alias of the default command for help and is turned down, so that
its name means nothing; the alias of the first goes on to mean the first. -/
theorem words_keep_meaning_taken_alias :
    let twice : Definition :=
      { name := "twice".toList, aliases := ["t".toList, "t".toList], summary := [], usage := [],
        action := .added fun _ => pure ⟨"2".toList, []⟩ }
    let r := default.afterAttempts
      [twice, { twice with name := "half".toList, aliases := ["h".toList] }]
    (∀ span, ¬∃ d, r.lookup ⟨"half".toList, span⟩ = .ok d) ∧
      ∀ span later, (r.afterAttempts later).lookup ⟨"t".toList, span⟩ = .ok twice := by
  intro twice r
  have kept := words_keep_meaning (.inr rfl) [twice, { twice with
    name := "half".toList, aliases := ["h".toList] }] (rfl : _ = r)
  refine ⟨fun span found => ?_, fun span => (kept.2.2.2.2 "t".toList span twice rfl).2.2⟩
  have known := (kept.2.2.2.1 "half".toList span).mp found
  exact absurd known (by decide)

end Registry
end ExactCalc
