import ExactCalc.Proofs.Reading.Loads
import ExactCalc.Proofs.Session.StoreLaw

/-!
# Variables that a line does not mention

A line concerns the variables among its tokens, if it is an expression, and those that it is to
remove. No other variable matters to it: the answer and the settings are the same whatever other
variables there are. Nor is any other variable changed, not even its use mark.
-/
namespace ExactCalc

/-- What commands see of a session: the settings, and whether there is a store. -/
def Session.visible (session : Session) : Settings × Bool :=
  (session.settings, session.store.isSome)

theorem Session.visible_eq {s t : Session} :
    s.visible = t.visible ↔ s.settings = t.settings ∧ s.store.isSome = t.store.isSome :=
  Prod.ext_iff

namespace Command

open Effect

variable (commands : Registry) (arguments : Located Text)

theorem sees_change (f : Settings → Settings) :
    (modify (·.change f) : Effect Session Unit).SeesOnly Session.visible :=
  seesOnly_modify fun _ _ same =>
    let ⟨settings, stored⟩ := Session.visible_eq.mp same
    Session.visible_eq.mpr ⟨congrArg f settings, stored⟩

/-- An answer may depend on the settings. -/
theorem sees_answer (f : Settings → Text) :
    (get >>= fun s => pure (answer (f s.settings)) : Effect Session Reply).SeesOnly
      Session.visible := by
  refine seesOnly_get (fun s t same => ?_) fun _ => seesOnly_pure _
  rw [(Session.visible_eq.mp same).1]

theorem sees_done (f : Settings → Settings) :
    (modify (·.change f) >>= fun _ => pure done : Effect Session Reply).SeesOnly
      Session.visible :=
  (sees_change f).bind fun _ => seesOnly_pure _

theorem sees_help : (help commands arguments).SeesOnly Session.visible := by
  dsimp only [help]
  split
  · exact seesOnly_pure _
  · exact (seesOnly_ofResult _).bind fun _ => seesOnly_pure _

theorem sees_purge : (purge arguments).SeesOnly Session.visible := by
  refine (seesOnly_ofResult _).bind fun names => seesOnly_get (fun s t same => ?_) fun s => ?_
  · have stored := (Session.visible_eq.mp same).2
    cases inFirst : s.store <;> cases inSecond : t.store <;> simp_all
  · split
    · exact seesOnly_throw _
    · refine (seesOnly_forM _ fun name => seesOnly_modify fun s t same => ?_).bind
        fun _ => seesOnly_pure _
      simpa [Session.visible_eq, Session.purge] using same

theorem sees_reportOrSet {α : Type} (given : Except Failure (Option α))
    (report : Settings → Text) (set : α → Settings → Settings) :
    (reportOrSet given report set).SeesOnly Session.visible := by
  refine (seesOnly_ofResult _).bind fun value? => ?_
  cases value? with
  | none => exact sees_answer report
  | some value => exact sees_done _

theorem sees_convertRadix : (convertRadix arguments).SeesOnly Session.visible := by
  unfold convertRadix
  split
  · exact sees_done _
  · exact sees_reportOrSet _ _ _

theorem sees_setPrecision (precision : Located Int) (extra : Option (Located Int)) :
    (setPrecision precision extra).SeesOnly Session.visible := by
  refine seesOnly_get (fun s t same => ?_) fun _ => ?_
  · rw [(Session.visible_eq.mp same).1]
  · exact (seesOnly_ofResult _).bind fun _ => (sees_change _).bind fun _ => sees_done _

theorem sees_precision : (precision arguments).SeesOnly Session.visible := by
  refine (seesOnly_ofResult _).bind fun given => ?_
  match given with
  | [] => exact sees_answer precisionReport
  | [_] => exact sees_setPrecision _ _
  | [_, _] => exact sees_setPrecision _ _
  | _ :: _ :: _ :: _ => exact seesOnly_throw _

/-- No command of the calculator looks at variables. -/
theorem sees_run {action : Action} (builtin : ∀ run, action ≠ .added run) :
    (run action commands arguments).SeesOnly Session.visible := by
  cases action with
  | help => exact sees_help commands arguments
  | purge => exact sees_purge arguments
  | radix =>
    rw [run, radix]
    exact sees_reportOrSet _ _ _
  | convertRadix => exact sees_convertRadix arguments
  | precision => exact sees_precision arguments
  | switch s =>
    rw [run, switch]
    exact sees_reportOrSet _ _ _
  | added run => exact absurd rfl (builtin run)

end Command

namespace Session

variable {s t : Session} {line name : Text}

/-- Two sessions answer a line alike, and leave the same settings. -/
def AnswerAlike (commands : Registry) (line : Text) (number number' : Option Int) (s t : Session) :
    Prop :=
  (s.calculate commands number line).1 = (t.calculate commands number' line).1 ∧
    (s.calculate commands number line).2.settings = (t.calculate commands number' line).2.settings

/-- A command is answered by what it sees; the number of its line only goes into marks. -/
theorem runCommand_alike (same : s.visible = t.visible) (number number' : Option Int)
    (c : CommandLine) :
    ((runCommand .default number c).outcome s).1 = ((runCommand .default number' c).outcome t).1 ∧
      ((runCommand .default number c).outcome s).2.settings =
        ((runCommand .default number' c).outcome t).2.settings := by
  cases found : Registry.default.lookup c.name with
  | error r =>
    simp only [runCommand, found, Effect.checked_error, Effect.outcome_bind, Effect.outcome_throw]
    exact ⟨trivial, (visible_eq.mp same).1⟩
  | ok d =>
    have builtin := Registry.not_added_of_lookup found
    have sees := Command.sees_run .default c.arguments builtin s t same
    simp only [runCommand, found, Effect.checked_ok, Effect.outcome_bind, Effect.outcome_pure,
      Effect.outcome_modify]
    rcases went : (Command.run d.action .default c.arguments).outcome s with ⟨result, s'⟩
    rcases went' : (Command.run d.action .default c.arguments).outcome t with ⟨result', t'⟩
    rw [went, went'] at sees
    obtain ⟨rfl, after⟩ : result = result' ∧ s'.visible = t'.visible := sees
    cases result with
    | ok reply => exact ⟨rfl, (visible_eq.mp after).1⟩
    | error e => exact ⟨rfl, (visible_eq.mp after).1⟩

/-- What an expression line is answered with. Its number only goes into marks. -/
theorem answer_of_runExpression (number : Option Int) {tokens : List (Located Token)}
    {statement : Statement} (read : Statement.read tokens = .ok statement) (session : Session) :
    ((runExpression number tokens).outcome session).2.settings = session.settings ∧
      ((runExpression number tokens).outcome session).1 =
        match statement.root.eval (VariableStore.load session.store) session.accuracy,
          statement.target with
        | .error e, _ => .error e
        | .ok v, none => .ok (session.settings.display v)
        | .ok v, some name =>
          if session.store.isSome then .ok (session.settings.display v)
          else .error (VariableStore.unavailable name) := by
  rw [runExpression_eq read, Statement.execute_eq, load_touch]
  cases statement.root.eval (VariableStore.load session.store) session.accuracy with
  | error e => exact ⟨rfl, rfl⟩
  | ok v =>
    cases statement.target with
    | none => exact ⟨rfl, rfl⟩
    | some name =>
      rw [touch]
      cases session.store with
      | none => exact ⟨rfl, rfl⟩
      | some m => exact ⟨rfl, rfl⟩

/-- An expression line is answered by the settings and by what its statement is worth. -/
theorem runExpression_alike (same : s.visible = t.visible) (number number' : Option Int)
    {tokens : List (Located Token)}
    (worth : ∀ statement, Statement.read tokens = .ok statement →
      statement.root.eval (VariableStore.load s.store) s.accuracy =
        statement.root.eval (VariableStore.load t.store) t.accuracy) :
    ((runExpression number tokens).outcome s).1 = ((runExpression number' tokens).outcome t).1 ∧
      ((runExpression number tokens).outcome s).2.settings =
        ((runExpression number' tokens).outcome t).2.settings := by
  obtain ⟨settings, stored⟩ := visible_eq.mp same
  cases read : Statement.read tokens with
  | error e =>
    by_cases empty : tokens = []
    · have idle (number : Option Int) (session : Session) :
          (runExpression number []).outcome session = (.ok [], session.touch number []) := rfl
      rw [empty, idle, idle]
      exact ⟨rfl, settings⟩
    · rw [runExpression_refused empty read, runExpression_refused empty read]
      exact ⟨rfl, settings⟩
  | ok statement =>
    obtain ⟨kept, answer⟩ := answer_of_runExpression number read s
    obtain ⟨kept', answer'⟩ := answer_of_runExpression number' read t
    rw [kept, kept', answer, answer', worth statement read, settings, stored]
    exact ⟨rfl, rfl⟩

/-- Sessions with the same settings, both with or both without a store, in which some variables are
worth the same. -/
structure AgreeOn (names : Text → Prop) (s t : Session) : Prop where
  visible : s.visible = t.visible
  values : ∀ name, names name →
    s.store.bind (·.value? name) = t.store.bind (·.value? name)

theorem AgreeOn.mono {names fewer : Text → Prop} (agree : AgreeOn names s t)
    (within : ∀ name, fewer name → names name) : AgreeOn fewer s t :=
  ⟨agree.visible, fun name member => agree.values name (within name member)⟩

/-- Where a variable is worth the same, it is loaded or missed in the same way. -/
theorem AgreeOn.load_eq {names : Text → Prop} (agree : AgreeOn names s t) (member : names name)
    (place : Span) :
    VariableStore.load s.store ⟨name, place⟩ = VariableStore.load t.store ⟨name, place⟩ := by
  have stored := (visible_eq.mp agree.visible).2
  have worth := agree.values name member
  unfold VariableStore.load
  cases inFirst : s.store with
  | none =>
    have inSecond : t.store = none := by simpa [inFirst] using stored.symm
    rw [inSecond]
  | some m =>
    obtain ⟨m', inSecond⟩ : ∃ m', t.store = some m' := by
      simpa [inFirst, Option.isSome_iff_exists] using stored.symm
    rw [inFirst, inSecond] at worth
    have worth : m.value? name = m'.value? name := worth
    simp only [inSecond, Option.map_some, VariableStore.fetch, worth]

/-- Where the variables that it mentions are worth the same, a statement is. -/
theorem AgreeOn.eval_eq (agree : AgreeOn (s.Mentions line) s t) {tokens : List (Located Token)}
    {statement : Statement}
    (asExpression : Line.read s.settings.radix.toNat line = .ok (.expression tokens))
    (read : Statement.read tokens = .ok statement) :
    statement.root.eval (VariableStore.load s.store) s.accuracy =
      statement.root.eval (VariableStore.load t.store) t.accuracy := by
  have accuracy : s.accuracy = t.accuracy := by
    unfold Session.accuracy
    rw [(visible_eq.mp agree.visible).1]
  rw [accuracy]
  refine Expr.eval_congr _ statement.root fun name used place => ?_
  obtain ⟨span, member⟩ := Statement.var_mem_of_root read used
  exact agree.load_eq ⟨tokens, span, asExpression, member⟩ place

/-- A line is answered by the settings and by what the variables are worth that it mentions. -/
theorem AgreeOn.answerAlike (agree : AgreeOn (s.Mentions line) s t) (number number' : Option Int) :
    AnswerAlike .default line number number' s t := by
  have settings := (visible_eq.mp agree.visible).1
  unfold AnswerAlike
  rw [calculate_eq, calculate_eq, ← settings]
  cases asRead : Line.read s.settings.radix.toNat line with
  | error e => exact ⟨rfl, settings⟩
  | ok read =>
    cases read with
    | command c => exact runCommand_alike agree.visible number number' c
    | expression tokens =>
      exact runExpression_alike agree.visible number number' fun statement read =>
        agree.eval_eq asRead read

/-- A line is to assign a value to a variable, whether or not it has one. -/
def Targets (session : Session) (line name : Text) : Prop :=
  ∃ tokens statement span, Line.read session.settings.radix.toNat line = .ok (.expression tokens) ∧
    Statement.read tokens = .ok statement ∧ statement.target = some ⟨name, span⟩

/-- A line is to remove a variable, whether or not there is one of the name. -/
def Removes (session : Session) (line name : Text) : Prop :=
  ∃ c names, Line.read session.settings.radix.toNat line = .ok (.command c) ∧
    c.name.val = Definition.purgevar.name ∧ Command.names c.arguments = .ok names ∧
    name ∈ names.map (·.val)

/-- A line concerns a variable: it mentions or is to remove it. -/
def Concerns (session : Session) (line name : Text) : Prop :=
  session.Mentions line name ∨ session.Removes line name

variable {number : Option Int}

theorem Purges.removes (purges : Purges name s number line) : s.Removes line name := purges.2

theorem Assigns.targets {v : Rat} (assigns : Assigns name v s number line) :
    s.Targets line name := by
  obtain ⟨-, tokens, statement, span, asExpression, read, target, -⟩ := assigns
  exact ⟨tokens, statement, span, asExpression, read, target⟩

theorem Writes.concerns (writes : Writes name s number line) : s.Concerns line name := by
  rcases writes with ⟨v, assigns⟩ | purges
  · exact .inl assigns.mentions
  · exact .inr purges.removes

/-- A line that neither assigns nor removes a variable keeps its value. -/
theorem Leaves.value_eq {before after : Option Variable}
    (leaves : Leaves name s number line before after) (unwritten : ¬Writes name s number line) :
    after.map (·.value) = before.map (·.value) := by
  by_cases mentions : s.Mentions line name
  · rw [leaves.mentioned unwritten mentions, Option.map_map]
    rfl
  · rw [leaves.untouched unwritten mentions]

/-- A line leaves alone what it does not concern, and it changes the values only of the variables
that it is to assign or to remove. -/
theorem Leaves.confined {before after : Option Variable}
    (leaves : Leaves name s number line before after) :
    (¬s.Concerns line name → after = before) ∧
      (after.map (·.value) ≠ before.map (·.value) → s.Targets line name ∨ s.Removes line name) := by
  refine ⟨fun unconcerned => leaves.untouched (unconcerned ∘ Writes.concerns)
    (unconcerned ∘ .inl), fun changed => ?_⟩
  by_contra kept
  refine changed (leaves.value_eq ?_)
  rintro (⟨v, assigns⟩ | purges)
  · exact kept (.inl assigns.targets)
  · exact kept (.inr purges.removes)

section TwoRuns

variable {m m' : Memory} {names : Text → Prop}

theorem AgreeOn.assigns_iff (agree : AgreeOn (s.Mentions line) s t) {v : Rat} :
    Assigns name v s number line ↔ Assigns name v t number line := by
  unfold Assigns Succeeds
  rw [(agree.answerAlike number number).1, ← (visible_eq.mp agree.visible).1]
  refine and_congr_right fun _ => exists_congr fun tokens => exists_congr fun statement =>
    exists_congr fun span => and_congr_right fun asExpression => and_congr_right fun read => ?_
  rw [agree.eval_eq asExpression read]

theorem AgreeOn.purges_iff (agree : AgreeOn (s.Mentions line) s t) :
    Purges name s number line ↔ Purges name t number line := by
  unfold Purges Succeeds
  rw [(agree.answerAlike number number).1, (visible_eq.mp agree.visible).1]

/-- Sessions that agree on some variables go on to do so over a line that concerns no others. -/
theorem AgreeOn.after_line (agree : AgreeOn names s t) (stored : s.store = some m)
    (stored' : t.store = some m') (within : ∀ name, s.Concerns line name → names name)
    (number : Option Int) :
    AgreeOn names (s.calculate .default number line).2 (t.calculate .default number line).2 := by
  have mentioned := agree.mono fun name mentions => within name (.inl mentions)
  obtain ⟨after, storedAfter, leaves⟩ := leaves_of_line stored number line
  obtain ⟨after', storedAfter', leaves'⟩ := leaves_of_line stored' number line
  refine ⟨visible_eq.mpr ⟨(mentioned.answerAlike number number).2, ?_⟩, fun name member => ?_⟩
  · rw [storedAfter, storedAfter']
    rfl
  have before : (m.get? name).map (·.value) = (m'.get? name).map (·.value) := by
    have same := agree.values name member
    rw [stored, stored'] at same
    exact same
  rw [storedAfter, storedAfter']
  change (after.get? name).map (·.value) = (after'.get? name).map (·.value)
  by_cases assigned : ∃ v, Assigns name v s number line
  · obtain ⟨v, assigns⟩ := assigned
    rw [(leaves name).assigned v assigns,
      (leaves' name).assigned v (mentioned.assigns_iff.mp assigns)]
  by_cases purges : Purges name s number line
  · rw [(leaves name).purged purges, (leaves' name).purged (mentioned.purges_iff.mp purges)]
  have unwritten : ¬Writes name s number line := by
    rintro (assigns | purged)
    · exact assigned assigns
    · exact purges purged
  have unwritten' : ¬Writes name t number line := by
    rintro (⟨v, assigns⟩ | purged)
    · exact assigned ⟨v, mentioned.assigns_iff.mpr assigns⟩
    · exact purges (mentioned.purges_iff.mpr purged)
  rw [(leaves name).value_eq unwritten, (leaves' name).value_eq unwritten', before]

/-- Lines that concern no other variables are answered alike, one after the other. -/
theorem AgreeOn.answers_alike (agree : AgreeOn names s t) (stored : s.store = some m)
    (stored' : t.store = some m') (lines : List Text)
    (within : ∀ i line, lines[i]? = some line → ∀ name,
      (afterLines .default number s (lines.take i)).Concerns line name → names name) :
    (answers .default number s lines).map (·.1) = (answers .default number t lines).map (·.1) := by
  induction lines generalizing s t m m' number with
  | nil => rfl
  | cons line rest ih =>
    have concerned : ∀ name, s.Concerns line name → names name := within 0 line rfl
    have first : AnswerAlike .default line number number s t :=
      (agree.mono fun name mentions => concerned name (.inl mentions)).answerAlike number number
    obtain ⟨after, storedAfter, -⟩ := leaves_of_line stored number line
    obtain ⟨after', storedAfter', -⟩ := leaves_of_line stored' number line
    rw [answers, answers, List.map_cons, List.map_cons, first.1]
    refine congrArg _ (ih (agree.after_line stored stored' concerned number) storedAfter
      storedAfter' fun i later found => ?_)
    rw [← afterLines_cons]
    exact within (i + 1) later found

end TwoRuns

/-- Variables that a line does not concern neither matter nor change. Two stores in which those that
it does concern are worth the same give the same answer and the same settings. In each of them all
others keep their entries, marks included, and of those that it concerns only the variable that it
assigns and those that it removes come to be worth something else. -/
theorem unconcerned_variables_stay_out (settings : Settings) (number : Option Int) (line : Text)
    {m₁ m₂ : Memory}
    (agree : ∀ name, (⟨settings, some m₁⟩ : Session).Concerns line name →
      m₁.value? name = m₂.value? name) :
    AnswerAlike .default line number number ⟨settings, some m₁⟩ ⟨settings, some m₂⟩ ∧
      ∀ m ∈ [m₁, m₂], ∃ after,
        ((⟨settings, some m⟩ : Session).calculate .default number line).2.store = some after ∧
        ∀ name,
          (¬(⟨settings, some m⟩ : Session).Concerns line name → after.get? name = m.get? name) ∧
          (after.value? name ≠ m.value? name →
            (⟨settings, some m⟩ : Session).Targets line name ∨
              (⟨settings, some m⟩ : Session).Removes line name) := by
  have same : AgreeOn ((⟨settings, some m₁⟩ : Session).Mentions line) ⟨settings, some m₁⟩
      ⟨settings, some m₂⟩ := ⟨rfl, fun name mentions => agree name (.inl mentions)⟩
  refine ⟨same.answerAlike number number, fun m _ => ?_⟩
  have begins : (⟨settings, some m⟩ : Session).store = some m := rfl
  obtain ⟨after, stored, leaves⟩ := leaves_of_line begins number line
  exact ⟨after, stored, fun name => (leaves name).confined⟩

/-- An increment of one variable, with another variable set and without it. -/
theorem unconcerned_variables_stay_out_increment :
    let m₁ : Memory := ⟨[("$y".toList, ⟨1, some 5⟩), ("$x".toList, ⟨2, some 0⟩)]⟩
    let m₂ : Memory := ⟨[("$x".toList, ⟨2, none⟩)]⟩
    AnswerAlike .default "$x=$x+1".toList (some 7) (some 7) ⟨{}, some m₁⟩ ⟨{}, some m₂⟩ ∧
      ∃ after, ((⟨{}, some m₁⟩ : Session).calculate .default (some 7)
        "$x=$x+1".toList).2.store = some after ∧ after.get? "$y".toList = some ⟨1, some 5⟩ := by
  intro m₁ m₂
  have concerned (name : Text)
      (concerns : (⟨{}, some m₁⟩ : Session).Concerns "$x=$x+1".toList name) :
      name = "$x".toList := by
    rcases concerns with mentions | ⟨c, names, asCommand, -⟩
    · have member := mem_mentionedBy.mpr mentions
      have listed : (⟨{}, some m₁⟩ : Session).mentionedBy "$x=$x+1".toList =
        ["$x".toList, "$x".toList] := by decide +kernel
      rw [listed] at member
      simpa using member
    · have asExpression : ((Line.read 10 "$x=$x+1".toList).toOption.any fun
          | .command _ => true
          | _ => false) = false := by decide +kernel
      rw [show Line.read 10 "$x=$x+1".toList = _ from asCommand] at asExpression
      cases asExpression
  have agree (name : Text) (concerns : (⟨{}, some m₁⟩ : Session).Concerns "$x=$x+1".toList name) :
      m₁.value? name = m₂.value? name := by
    rw [concerned name concerns]
    decide
  have apart := unconcerned_variables_stay_out {} (some 7) _ agree
  obtain ⟨after, stored, confined⟩ := apart.2 m₁ List.mem_cons_self
  refine ⟨apart.1, after, stored, (confined "$y".toList).1 fun concerns => ?_⟩
  exact absurd (concerned _ concerns) (by decide)

end Session
end ExactCalc
