import ExactCalc.Proofs.Effect
import ExactCalc.Session.Calculate

/-!
# Commands look before they write

Every command of the calculator checks its arguments first and then makes writes that cannot fail. A
command line that fails has therefore changed nothing, whichever of its arguments is at fault, if
the added commands do the same.
-/
namespace ExactCalc
namespace Command

open Effect

variable (commands : Registry) (arguments : Located Text)

theorem readOnly_help : (help commands arguments).ReadOnly := by
  dsimp only [help]
  split
  · exact readOnly_pure _
  · exact (readOnly_checked _).bind fun _ => readOnly_pure _

/-- The names are all looked at before the first variable is removed. -/
theorem atomic_purge : (purge arguments).Atomic := by
  refine (readOnly_ofResult _).bind_atomic fun names => readOnly_get.bind_atomic fun session => ?_
  split
  · exact (readOnly_throw _).atomic
  · refine Infallible.atomic (Infallible.bind ?_ fun _ => infallible_pure _)
    exact infallible_forM _ fun _ => infallible_modify _

theorem atomic_reportOrSet {α : Type} (given : Except Failure (Option α))
    (report : Settings → Text) (set : α → Settings → Settings) :
    (reportOrSet given report set).Atomic := by
  refine (readOnly_ofResult _).bind_atomic fun value? => ?_
  cases value? with
  | none => exact atomic_answer _
  | some value => exact atomic_write _ _

theorem atomic_convertRadix : (convertRadix arguments).Atomic := by
  unfold convertRadix
  split
  · exact atomic_write _ _
  · exact atomic_reportOrSet _ _ _

/-- Both precisions are looked at, and their sum, before the first of them is set. -/
theorem atomic_setPrecision (precision : Located Int) (extra : Option (Located Int)) :
    (setPrecision precision extra).Atomic := by
  refine readOnly_get.bind_atomic fun session => (readOnly_checked _).bind_atomic fun _ => ?_
  refine ((infallible_modify _).bind fun _ => ?_).atomic
  exact (infallible_modify _).bind fun _ => infallible_pure _

theorem atomic_precision : (precision arguments).Atomic := by
  refine (readOnly_ofResult _).bind_atomic fun given => ?_
  match given with
  | [] => exact atomic_answer _
  | [_] => exact atomic_setPrecision _ _
  | [_, _] => exact atomic_setPrecision _ _
  | _ :: _ :: _ :: _ => exact (readOnly_throw _).atomic

end Command

/-- An action that changes nothing where it fails, if it is an added one. -/
def Action.Cautious : Action → Prop
  | .added run => ∀ arguments, (run arguments).Atomic
  | _ => True

/-- A registry whose added commands change nothing where they fail. -/
def Registry.Cautious (commands : Registry) : Prop := ∀ d ∈ commands.commands, d.action.Cautious

/-- An action that has no defects and leaves valid settings valid, if it is an added one. -/
def Action.Sound : Action → Prop
  | .added run => ∀ arguments, (run arguments).FailsWith (fun f => ∀ d, f ≠ .defect d) ∧
      ∀ session, session.settings.Valid → ((run arguments).outcome session).2.settings.Valid
  | _ => True

/-- A registry whose added commands have no defects and leave valid settings valid. -/
def Registry.Sound (commands : Registry) : Prop := ∀ d ∈ commands.commands, d.action.Sound

/-- What is asked of added actions alone is true of the default commands. -/
theorem Registry.forall_default {P : Action → Prop} (builtin : ∀ action,
    (∀ run, action ≠ .added run) → P action) : ∀ d ∈ default.commands, P d.action := by
  have all : default.commands = Registry.builtin := rfl
  rw [all]
  simp only [Registry.builtin, List.forall_mem_cons]
  refine ⟨?_, ?_, ?_, ?_, ?_, ?_, ?_, ?_, List.forall_mem_nil _⟩
  all_goals exact builtin _ fun run same => by cases same

theorem Registry.default_cautious : default.Cautious :=
  forall_default fun action builtin => by
    cases action with
    | added run => exact absurd rfl (builtin run)
    | _ => trivial

theorem Registry.default_sound : default.Sound :=
  forall_default fun action builtin => by
    cases action with
    | added run => exact absurd rfl (builtin run)
    | _ => trivial

theorem Registry.mem_of_lookup {commands : Registry} {word : Located Text} {d : Definition}
    (found : commands.lookup word = .ok d) : d ∈ commands.commands := by
  unfold Registry.lookup at found
  split at found
  next d' isCommand =>
    cases found
    exact List.mem_of_find?_eq_some isCommand
  next => cases found

/-- A command of the calculator that fails has changed nothing. -/
theorem Command.atomic_run (commands : Registry) (arguments : Located Text) {action : Action}
    (cautious : action.Cautious) : (run action commands arguments).Atomic := by
  cases action with
  | help => exact (readOnly_help commands arguments).atomic
  | purge => exact atomic_purge arguments
  | radix =>
    rw [run, radix]
    exact atomic_reportOrSet _ _ _
  | convertRadix => exact atomic_convertRadix arguments
  | precision => exact atomic_precision arguments
  | switch s =>
    rw [run, switch]
    exact atomic_reportOrSet _ _ _
  | added run => exact cautious arguments

/-- A command that is found is run, and the variables that it used are marked when it is done. -/
theorem Session.runCommand_eq {commands : Registry} {number : Option Int} {session : Session}
    {c : CommandLine} {d : Definition} (found : commands.lookup c.name = .ok d) :
    (runCommand commands number c).outcome session =
      match (Command.run d.action commands c.arguments).outcome session with
      | (.ok reply, after) => (.ok reply.output, after.touch number reply.touched)
      | (.error e, after) => (.error e, after) := by
  unfold runCommand
  rw [Effect.outcome_bind, found, Effect.checked_ok, Effect.outcome_pure]
  dsimp only
  rw [Effect.outcome_bind]
  rcases (Command.run d.action commands c.arguments).outcome session with ⟨answer, after⟩
  cases answer <;> rfl

/-- A command line that fails has changed nothing: its name is looked up before it is run, and the
variables that it used are marked when it is done. -/
theorem Session.atomic_runCommand {commands : Registry} (cautious : commands.Cautious)
    (number : Option Int) (c : CommandLine) : (runCommand commands number c).Atomic := by
  unfold runCommand
  cases found : commands.lookup c.name with
  | error r => exact (Effect.readOnly_throw _).atomic
  | ok d =>
    rw [Effect.checked_ok, pure_bind]
    have atomic := Command.atomic_run commands c.arguments
      (cautious d (Registry.mem_of_lookup found))
    refine atomic.bind_infallible ?_
    exact fun reply => (Effect.infallible_modify _).bind fun _ => Effect.infallible_pure _

end ExactCalc
