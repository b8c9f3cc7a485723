import ExactCalc.Proofs.Result
import ExactCalc.Proofs.Session.Outcome
import ExactCalc.Proofs.Session.Purging

/-!
# What a line leaves of a variable

A line that succeeds may assign a value to a variable or remove variables. `leaves_of_line` says
what any line leaves of the entry of a variable: a new one where it is assigned, none where it is
removed, and otherwise the entry that there was, with the mark of the line if the line mentions the
variable.
-/
namespace ExactCalc

/-- The variable that a statement assigns to is one of its tokens. -/
theorem Statement.target_mem {tokens : List (Located Token)} {statement : Statement}
    {name : Located Text} (read : Statement.read tokens = .ok statement)
    (target : statement.target = some name) : ⟨.var name.val, name.span⟩ ∈ tokens := by
  obtain ⟨root, -, built⟩ := bind_eq_ok_iff.mp read
  have split : statement.target = (splitTarget tokens).1 := by
    cases built
    rfl
  rw [split] at target
  unfold splitTarget at target
  split at target
  next =>
    cases target
    exact List.mem_cons_self
  next => cases target

namespace Session

/-- A line is answered and does not fail, with the default commands. -/
def Succeeds (session : Session) (number : Option Int) (line : Text) : Prop :=
  ∃ output, (session.calculate Registry.default number line).1 = .ok output

/-- A line assigns a value to a variable: it succeeds as an expression that has the variable for its
target and evaluates to the value. -/
def Assigns (name : Text) (v : Rat) (session : Session) (number : Option Int) (line : Text) :
    Prop :=
  session.Succeeds number line ∧ ∃ tokens statement span,
    Line.read session.settings.radix.toNat line = .ok (.expression tokens) ∧
    Statement.read tokens = .ok statement ∧ statement.target = some ⟨name, span⟩ ∧
    statement.root.eval (VariableStore.load session.store) session.accuracy = .ok v

/-- A line removes a variable: it succeeds as the command for that and names the variable. -/
def Purges (name : Text) (session : Session) (number : Option Int) (line : Text) : Prop :=
  session.Succeeds number line ∧ ∃ c names,
    Line.read session.settings.radix.toNat line = .ok (.command c) ∧
    c.name.val = Definition.purgevar.name ∧ Command.names c.arguments = .ok names ∧
    name ∈ names.map (·.val)

/-- A line assigns or removes a variable. -/
def Writes (name : Text) (session : Session) (number : Option Int) (line : Text) : Prop :=
  (∃ v, Assigns name v session number line) ∨ Purges name session number line

variable {session : Session} {number : Option Int} {line name : Text}

theorem Assigns.mentions {v : Rat} (assigns : Assigns name v session number line) :
    session.Mentions line name := by
  obtain ⟨-, tokens, statement, span, asExpression, read, target, -⟩ := assigns
  exact ⟨tokens, span, asExpression, Statement.target_mem read target⟩

theorem Assigns.unique {v w : Rat} (first : Assigns name v session number line)
    (second : Assigns name w session number line) : v = w := by
  obtain ⟨-, tokens, statement, span, asExpression, read, -, value⟩ := first
  obtain ⟨-, tokens', statement', span', asExpression', read', -, value'⟩ := second
  cases asExpression.symm.trans asExpression'
  cases read.symm.trans read'
  cases value.symm.trans value'
  rfl

theorem Assigns.not_purges {v : Rat} (assigns : Assigns name v session number line) :
    ¬Purges name session number line := by
  rintro ⟨-, c, names, asCommand, -⟩
  obtain ⟨-, tokens, statement, span, asExpression, -⟩ := assigns
  cases asExpression.symm.trans asCommand

/-- What a line leaves of the entry of a variable. -/
structure Leaves (name : Text) (session : Session) (number : Option Int) (line : Text)
    (before after : Option Variable) : Prop where
  assigned : ∀ v, Assigns name v session number line → after = some ⟨v, number⟩
  purged : Purges name session number line → after = none
  mentioned : ¬Writes name session number line → session.Mentions line name →
    after = before.map fun x => ⟨x.value, number⟩
  untouched : ¬Writes name session number line → ¬session.Mentions line name → after = before

/-- A variable that is not written is marked if it is mentioned. -/
theorem leaves_unwritten {before after : Option Variable}
    (unwritten : ¬Writes name session number line)
    (mentioned : session.Mentions line name → after = before.map fun x => ⟨x.value, number⟩)
    (untouched : ¬session.Mentions line name → after = before) :
    Leaves name session number line before after where
  assigned v assigns := absurd (.inl ⟨v, assigns⟩) unwritten
  purged purges := absurd (.inr purges) unwritten
  mentioned _ := mentioned
  untouched _ := untouched

theorem leaves_assigned {before : Option Variable} {v : Rat}
    (assigns : Assigns name v session number line) :
    Leaves name session number line before (some ⟨v, number⟩) where
  assigned w assigns' := by rw [assigns.unique assigns']
  purged purges := absurd purges assigns.not_purges
  mentioned unwritten := absurd (.inl ⟨v, assigns⟩) unwritten
  untouched unwritten := absurd (.inl ⟨v, assigns⟩) unwritten

theorem leaves_purged {before : Option Variable} (purges : Purges name session number line) :
    Leaves name session number line before none where
  assigned _ assigns := absurd purges assigns.not_purges
  purged _ := rfl
  mentioned unwritten := absurd (.inr purges) unwritten
  untouched unwritten := absurd (.inr purges) unwritten

section Commands

variable {c : CommandLine}

theorem not_mentions_of_command
    (asCommand : Line.read session.settings.radix.toNat line = .ok (.command c)) :
    ¬session.Mentions line name := by
  rintro ⟨tokens, span, asExpression, -⟩
  cases asExpression.symm.trans asCommand

theorem not_assigns_of_command {v : Rat}
    (asCommand : Line.read session.settings.radix.toNat line = .ok (.command c)) :
    ¬Assigns name v session number line :=
  fun assigns => not_mentions_of_command asCommand assigns.mentions

/-- A command that is quiet leaves the store as it is. -/
theorem store_of_quiet {commands : Registry} {d : Definition}
    (found : commands.lookup c.name = .ok d)
    (quiet : Command.Quiet (Command.run d.action commands c.arguments)) :
    ((runCommand commands number c).outcome session).2.store = session.store := by
  have kept := quiet.store session
  have untouched := quiet.touched session
  unfold runCommand
  simp only [Effect.outcome_bind, found, Effect.checked_ok, Effect.outcome_pure]
  rcases went : (Command.run d.action commands c.arguments).outcome session with ⟨result, after⟩
  rw [went] at kept untouched
  cases result with
  | error e => exact kept
  | ok reply =>
    change (after.touch number reply.touched).store = session.store
    rw [untouched reply rfl, touch_nil]
    exact kept

/-- The command that removes variables has no effect, or it removes all that it names. -/
theorem runCommand_purge {commands : Registry} {d : Definition} {m : Memory}
    (found : commands.lookup c.name = .ok d) (isPurge : d.action = .purge)
    (stored : session.store = some m) :
    (runCommand commands number c).outcome session =
      match Command.names c.arguments with
      | .error e => (.error e, session)
      | .ok names =>
        (.ok Command.done.output, ⟨session.settings,
          some (((Located.distinct names).map (·.val)).foldl Memory.purge m)⟩) := by
  unfold runCommand
  simp only [Effect.outcome_bind, found, Effect.checked_ok, Effect.outcome_pure, isPurge,
    Command.run, Command.outcome_purge c.arguments stored]
  cases Command.names c.arguments with
  | error e => rfl
  | ok names => exact congrArg (Prod.mk _) (touch_nil number _)

/-- A command line leaves a variable that it does not remove. -/
theorem leaves_of_kept
    (asCommand : Line.read session.settings.radix.toNat line = .ok (.command c))
    (kept : ¬Purges name session number line) (entry : Option Variable) :
    Leaves name session number line entry entry := by
  refine leaves_unwritten ?_ (fun mentions => ?_) fun _ => rfl
  · rintro (⟨v, assigns⟩ | purges)
    · exact not_assigns_of_command asCommand assigns
    · exact kept purges
  · exact absurd mentions (not_mentions_of_command asCommand)

/-- What a command line does to the store. -/
theorem leaves_of_command {m : Memory} (stored : session.store = some m)
    (asCommand : Line.read session.settings.radix.toNat line = .ok (.command c)) :
    ∃ m', (session.calculate Registry.default number line).2.store = some m' ∧
      ∀ name, Leaves name session number line (m.get? name) (m'.get? name) := by
  have run : session.calculate Registry.default number line =
      (runCommand Registry.default number c).outcome session := by
    rw [calculate_eq, asCommand]
  have idle {e : Failure}
      (failed : session.calculate Registry.default number line = (.error e, session)) :
      ∃ m', (session.calculate Registry.default number line).2.store = some m' ∧
        ∀ name, Leaves name session number line (m.get? name) (m'.get? name) := by
    refine ⟨m, by rw [failed, stored], fun name => leaves_of_kept asCommand ?_ _⟩
    rintro ⟨⟨output, succeeded⟩, -⟩
    rw [failed] at succeeded
    cases succeeded
  cases found : Registry.default.lookup c.name with
  | error r =>
    refine idle (e := .refused r) ?_
    rw [run]
    simp [runCommand, found, Effect.checked_error]
  | ok d =>
    rcases Registry.lookup?_default (Registry.lookup_eq_ok.mp found) with
      ⟨isPurge, removes⟩ | ⟨other, keeps, builtin⟩
    · rw [runCommand_purge found removes stored] at run
      cases listed : Command.names c.arguments with
      | error e =>
        rw [listed] at run
        exact idle run
      | ok names =>
        rw [listed] at run
        refine ⟨_, by rw [run], fun name => ?_⟩
        rw [Memory.get?_purgeAll]
        by_cases member : name ∈ names.map (·.val)
        · rw [if_pos (Command.mem_distinct.mpr member)]
          exact leaves_purged ⟨⟨_, by rw [run]⟩, c, names, asCommand, isPurge, listed, member⟩
        · rw [if_neg (member ∘ Command.mem_distinct.mp)]
          refine leaves_of_kept asCommand ?_ _
          rintro ⟨-, c', names', asCommand', -, listed', member'⟩
          cases asCommand.symm.trans asCommand'
          cases listed.symm.trans listed'
          exact member member'
    · have kept : ((runCommand Registry.default number c).outcome session).2.store =
          session.store :=
        store_of_quiet found (Command.quiet_run Registry.default c.arguments keeps builtin)
      refine ⟨m, by rw [run, kept, stored], fun name => leaves_of_kept asCommand ?_ _⟩
      rintro ⟨-, c', names', asCommand', isPurge, -⟩
      cases asCommand.symm.trans asCommand'
      exact other isPurge

end Commands

section Expressions

variable {tokens : List (Located Token)}

theorem mentions_iff
    (asExpression : Line.read session.settings.radix.toNat line = .ok (.expression tokens)) :
    session.Mentions line name ↔ name ∈ mentioned tokens := by
  rw [← mem_mentionedBy, mentionedBy, asExpression]

theorem not_purges_of_expression
    (asExpression : Line.read session.settings.radix.toNat line = .ok (.expression tokens)) :
    ¬Purges name session number line := by
  rintro ⟨-, c, names, asCommand, -⟩
  cases asExpression.symm.trans asCommand

/-- A variable that an expression line does not assign is marked if the line mentions it. -/
theorem leaves_of_unassigned (m : Memory)
    (asExpression : Line.read session.settings.radix.toNat line = .ok (.expression tokens))
    (unassigned : ∀ v, ¬Assigns name v session number line) :
    Leaves name session number line (m.get? name)
      ((m.touchAll number (mentioned tokens)).get? name) := by
  rw [Memory.get?_touchAll]
  refine leaves_unwritten ?_ (fun mentions => ?_) fun mentionsNot => ?_
  · rintro (⟨v, assigns⟩ | purges)
    · exact unassigned v assigns
    · exact not_purges_of_expression asExpression purges
  · rw [if_pos ((mentions_iff asExpression).mp mentions)]
  · rw [if_neg (mentionsNot ∘ (mentions_iff asExpression).mpr)]

/-- What an expression line does to the store. -/
theorem leaves_of_expression {m : Memory} (stored : session.store = some m)
    (asExpression : Line.read session.settings.radix.toNat line = .ok (.expression tokens)) :
    ∃ m', (session.calculate Registry.default number line).2.store = some m' ∧
      ∀ name, Leaves name session number line (m.get? name) (m'.get? name) := by
  by_cases assignment : ∃ statement target v, Statement.read tokens = .ok statement ∧
      statement.target = some target ∧
      statement.root.eval (VariableStore.load session.store) session.accuracy = .ok v
  · obtain ⟨statement, ⟨written, span⟩, v, read, target, value⟩ := assignment
    have answered : session.calculate Registry.default number line = _ :=
      calculate_of_assignment asExpression read target stored value
    refine ⟨_, by rw [answered], fun name => ?_⟩
    rw [Memory.get?_update]
    by_cases same : name = written
    · subst same
      rw [if_pos rfl]
      exact leaves_assigned ⟨⟨_, by rw [answered]⟩, tokens, statement, span, asExpression, read,
        target, value⟩
    · rw [if_neg same]
      refine leaves_of_unassigned m asExpression fun w assigns => same ?_
      obtain ⟨-, tokens', statement', span', asExpression', read', target', -⟩ := assigns
      cases asExpression.symm.trans asExpression'
      cases read.symm.trans read'
      cases target.symm.trans target'
      rfl
  · have after : (session.calculate Registry.default number line).2 =
        session.touch number (mentioned tokens) :=
      calculate_of_no_assignment asExpression fun statement name v read target value =>
        assignment ⟨statement, name, v, read, target, value⟩
    refine ⟨m.touchAll number (mentioned tokens), by rw [after, touch, stored]; rfl, fun name => ?_⟩
    refine leaves_of_unassigned m asExpression fun w assigns => assignment ?_
    obtain ⟨-, tokens', statement, span, asExpression', read, target, value⟩ := assigns
    cases asExpression.symm.trans asExpression'
    exact ⟨statement, _, w, read, target, value⟩

end Expressions

/-- What a line does to the store, whatever it is. -/
theorem leaves_of_line {m : Memory} (stored : session.store = some m) (number : Option Int)
    (line : Text) :
    ∃ m', (session.calculate Registry.default number line).2.store = some m' ∧
      ∀ name, Leaves name session number line (m.get? name) (m'.get? name) := by
  cases read : Line.read session.settings.radix.toNat line with
  | error e =>
    have failed : session.calculate Registry.default number line = (.error e, session) := by
      rw [calculate_eq, read]
    refine ⟨m, by rw [failed, stored], fun name =>
      leaves_unwritten ?_ (fun mentions => ?_) fun _ => rfl⟩
    · rintro (⟨v, -, tokens, statement, span, asExpression, -⟩ | ⟨-, c, names, asCommand, -⟩)
      · cases read.symm.trans asExpression
      · cases read.symm.trans asCommand
    · obtain ⟨tokens, span, asExpression, -⟩ := mentions
      cases read.symm.trans asExpression
  | ok asRead =>
    cases asRead with
    | command c => exact leaves_of_command stored read
    | expression tokens => exact leaves_of_expression stored read

end Session
end ExactCalc
