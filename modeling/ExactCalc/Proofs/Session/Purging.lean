import ExactCalc.Proofs.Command.Registry
import ExactCalc.Proofs.Session.Failure

/-!
# Which commands change variables

Of the commands that the calculator has by default only one changes the store: it removes the
variables whose names it is given. All others leave the store as it is and mark no variable.
-/
namespace ExactCalc

namespace Command

open Effect

variable (commands : Registry) (arguments : Located Text)

/-- A command that leaves the store as it is and uses no variable. -/
structure Quiet (x : Effect Session Reply) : Prop where
  store : x.Keeps Session.store
  touched : x.Returns fun reply => reply.touched = []

theorem quiet_pure {reply : Reply} (untouched : reply.touched = []) : Quiet (pure reply) :=
  ⟨(readOnly_pure reply).keeps, returns_pure untouched⟩

theorem quiet_throw (e : Failure) : Quiet (throw e) :=
  ⟨(readOnly_throw e).keeps, returns_throw e⟩

theorem Quiet.bind {α : Type} {x : Effect Session α} {next : α → Effect Session Reply}
    (keeps : x.Keeps Session.store) (later : ∀ a, Quiet (next a)) : Quiet (x >>= next) :=
  ⟨keeps.bind fun a => (later a).store, returns_bind fun a => (later a).touched⟩

/-- A check may come before a command that is quiet. -/
theorem quiet_ofResult {α : Type} {result : Except Failure α} {next : α → Effect Session Reply}
    (later : ∀ a, Quiet (next a)) : Quiet (ofResult result >>= next) :=
  Quiet.bind (readOnly_ofResult result).keeps later

/-- So may a look at the session. -/
theorem quiet_get {next : Session → Effect Session Reply} (later : ∀ s, Quiet (next s)) :
    Quiet (get >>= next) :=
  Quiet.bind readOnly_get.keeps later

/-- A change of the settings is quiet. -/
theorem quiet_change {f : Settings → Settings} {next : Unit → Effect Session Reply}
    (later : ∀ u, Quiet (next u)) : Quiet (modify (·.change f) >>= next) :=
  Quiet.bind (keeps_modify fun _ => rfl) later

theorem quiet_help : Quiet (help commands arguments) := by
  dsimp only [help]
  split
  · exact quiet_pure rfl
  · exact quiet_ofResult fun _ => quiet_pure rfl

theorem quiet_reportOrSet {α : Type} (given : Except Failure (Option α))
    (report : Settings → Text) (set : α → Settings → Settings) :
    Quiet (reportOrSet given report set) := by
  refine quiet_ofResult fun value? => ?_
  cases value? with
  | none => exact quiet_get fun _ => quiet_pure rfl
  | some value => exact quiet_change fun _ => quiet_pure rfl

theorem quiet_convertRadix : Quiet (convertRadix arguments) := by
  unfold convertRadix
  split
  · exact quiet_change fun _ => quiet_pure rfl
  · exact quiet_reportOrSet _ _ _

theorem quiet_setPrecision (precision : Located Int) (extra : Option (Located Int)) :
    Quiet (setPrecision precision extra) :=
  quiet_get fun _ => quiet_ofResult fun _ =>
    quiet_change fun _ => quiet_change fun _ => quiet_pure rfl

theorem quiet_precision : Quiet (precision arguments) := by
  refine quiet_ofResult fun given => ?_
  match given with
  | [] => exact quiet_get fun _ => quiet_pure rfl
  | [_] => exact quiet_setPrecision _ _
  | [_, _] => exact quiet_setPrecision _ _
  | _ :: _ :: _ :: _ => exact quiet_throw _

/-- Only the command that removes variables, and commands that are added, are not quiet. -/
theorem quiet_run {action : Action} (keeps : action ≠ .purge)
    (builtin : ∀ run, action ≠ .added run) : Quiet (run action commands arguments) := by
  cases action with
  | help => exact quiet_help commands arguments
  | purge => exact absurd rfl keeps
  | radix =>
    rw [run, radix]
    exact quiet_reportOrSet _ _ _
  | convertRadix => exact quiet_convertRadix arguments
  | precision => exact quiet_precision arguments
  | switch s =>
    rw [run, switch]
    exact quiet_reportOrSet _ _ _
  | added run => exact absurd rfl (builtin run)

/-- The names that are listed are those that are kept of them. -/
theorem mem_distinct {names : List (Located Text)} {name : Text} :
    name ∈ (Located.distinct names).map (·.val) ↔ name ∈ names.map (·.val) := by
  induction names with
  | nil => rfl
  | cons first rest ih =>
    have others : name ∈ ((Located.distinct rest).filter fun y => !first.agrees y).map (·.val) ↔
        name ∈ (Located.distinct rest).map (·.val) ∧ first.val ≠ name := by
      simp only [List.mem_map, List.mem_filter, Located.agrees, Bool.not_eq_true',
        decide_eq_false_iff_not]
      constructor
      · rintro ⟨y, ⟨member, apart⟩, rfl⟩
        exact ⟨⟨y, member, rfl⟩, apart⟩
      · rintro ⟨⟨y, member, rfl⟩, apart⟩
        exact ⟨y, ⟨member, apart⟩, rfl⟩
    rw [Located.distinct, List.map_cons, List.map_cons, List.mem_cons, List.mem_cons, others, ih]
    by_cases same : name = first.val
    · simp [same]
    · simp [same, Ne.symm same]

theorem foldl_purge (names : List (Located Text)) (session : Session) :
    names.foldl (fun s name => s.purge name.val) session =
      ⟨session.settings, session.store.map (names.map (·.val) |>.foldl Memory.purge ·)⟩ := by
  induction names generalizing session with
  | nil =>
    obtain ⟨settings, store⟩ := session
    cases store <;> rfl
  | cons name rest ih =>
    rw [List.foldl_cons, ih, Session.purge, Option.map_map]
    rfl

/-- Variables are removed once all of their names are read. -/
theorem outcome_purge {session : Session} {m : Memory} (stored : session.store = some m) :
    (purge arguments).outcome session =
      match names arguments with
      | .error e => (.error e, session)
      | .ok names =>
        (.ok done, ⟨session.settings,
          some (((Located.distinct names).map (·.val)).foldl Memory.purge m)⟩) := by
  unfold purge
  cases names arguments with
  | error e => rfl
  | ok names =>
    rw [outcome_bind, outcome_ofResult]
    dsimp only
    rw [outcome_bind, outcome_get]
    dsimp only
    rw [stored]
    dsimp only
    rw [outcome_bind, outcome_forM_modify (Located.distinct names) fun name (s : Session) =>
      s.purge name.val, foldl_purge, stored]
    rfl

end Command

namespace Registry

/-- No alias leads to the command that removes variables. -/
theorem alias?_default {word name : Text} (found : Registry.default.alias? word = some name) :
    name ≠ Definition.purgevar.name := by
  have all : ∀ entry ∈ Registry.default.aliases, entry.2 ≠ Definition.purgevar.name := by decide
  obtain ⟨before, after, split, -⟩ := List.lookup_eq_some_iff.mp found
  exact all (word, name) (by simp [split])

theorem mem_builtin_of_lookup {word : Text} {d : Definition}
    (found : Registry.default.lookup? word = some d) : d ∈ builtin := by
  have listed : Registry.default.commands = builtin := rfl
  have located : Registry.default.commands.find?
      (·.name = (Registry.default.alias? word).getD word) = some d := found
  rw [← listed]
  exact List.mem_of_find?_eq_some located

/-- Only one word means the command that removes variables, and every other command is quiet. -/
theorem lookup?_default {word : Text} {d : Definition}
    (found : Registry.default.lookup? word = some d) :
    (word = Definition.purgevar.name ∧ d.action = .purge) ∨
      (word ≠ Definition.purgevar.name ∧ d.action ≠ .purge ∧
        ∀ run, d.action ≠ .added run) := by
  by_cases isPurge : word = Definition.purgevar.name
  · have meant : Registry.default.lookup? word = some Definition.purgevar := by
      rw [isPurge]
      rfl
    cases found.symm.trans meant
    exact .inl ⟨isPurge, rfl⟩
  have located : Registry.default.commands.find?
      (·.name = (Registry.default.alias? word).getD word) = some d := found
  have named : d.name ≠ Definition.purgevar.name := by
    have same : d.name = (Registry.default.alias? word).getD word := by
      simpa using List.find?_some located
    rw [same]
    cases leads : Registry.default.alias? word with
    | none => exact isPurge
    | some name => exact alias?_default leads
  have member := mem_builtin_of_lookup found
  simp only [builtin, List.mem_cons, List.not_mem_nil, or_false] at member
  refine .inr ⟨isPurge, ?_⟩
  rcases member with rfl | rfl | rfl | rfl | rfl | rfl | rfl | rfl
  case inr.inl => exact absurd rfl named
  all_goals refine ⟨?_, fun run => ?_⟩ <;> (intro same; cases same)

/-- None of the default commands is an added one. -/
theorem not_added_of_lookup {word : Located Text} {d : Definition}
    (found : Registry.default.lookup word = .ok d) : ∀ run, d.action ≠ .added run := by
  rcases lookup?_default (lookup_eq_ok.mp found) with ⟨-, purges⟩ | ⟨-, -, builtin⟩
  · rw [purges]
    exact nofun
  · exact builtin

end Registry
end ExactCalc
