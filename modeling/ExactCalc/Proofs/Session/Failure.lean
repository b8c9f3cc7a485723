import ExactCalc.Proofs.Session.Commands
import ExactCalc.Proofs.Session.Marks

/-!
# Lines that fail

A line that fails leaves the settings, the variables and their values as they were, unless an added
command does not. All that it may have changed are use marks: the variables that an expression
mentions are marked before it is looked at any further, and nothing after that writes before it can
no longer fail.
-/
namespace ExactCalc

/-- Under valid settings every number can be shown. -/
theorem Settings.Valid.displayUnchecked {settings : Settings} (valid : settings.Valid) (v : Rat) :
    settings.displayUnchecked v = .ok (settings.display v) := by
  have output : 0 ≤ settings.outputRadix := by
    unfold Settings.outputRadix
    cases given : settings.convertRadix with
    | none => have := valid.radix; simp only [Option.getD_none]; omega
    | some r => have := valid.convertRadix r given; simp only [Option.getD_some]; omega
  simp [Settings.displayUnchecked, output]

/-- A statement that fails has not written the store: its value is known before it is assigned,
and an assignment that fails stores nothing. -/
theorem Statement.atomic_execute {σ : Type} [VariableStore σ] (statement : Statement)
    (a : Accuracy) (line : Option Int) :
    (statement.execute a line : Effect (Option σ) Rat).Atomic := by
  refine Effect.readOnly_get.bind_atomic fun _ => ?_
  refine (Effect.readOnly_ofResult _).bind_atomic fun value => ?_
  split
  · exact (Effect.readOnly_pure _).atomic
  · refine Effect.readOnly_get.bind_atomic fun _ => ?_
    refine (Effect.readOnly_ofResult _).bind_atomic fun _ => ?_
    exact ((Effect.infallible_set _).bind fun _ => Effect.infallible_pure _).atomic

namespace Session

variable (commands : Registry) (number : Option Int)

theorem atomic_onStore {α : Type} {x : Effect (Option Memory) α} (atomic : x.Atomic) :
    (onStore x).Atomic := by
  intro session e failed
  change { session with store := (x.outcome session.store).2 } = session
  rw [atomic session.store e failed]

theorem atomic_evaluate (tokens : List (Located Token)) : (evaluate number tokens).Atomic :=
  (Effect.readOnly_checked _).bind_atomic fun statement =>
    Effect.readOnly_get.bind_atomic fun _ => atomic_onStore (statement.atomic_execute _ number)

theorem touch_nil (session : Session) : session.touch number [] = session := by
  obtain ⟨settings, store⟩ := session
  cases store <;> rfl

/-- Whether a line mentions a variable: it can be read as an expression, and the name of the
variable is among the tokens. -/
def Mentions (session : Session) (line name : Text) : Prop :=
  ∃ tokens span, Line.read session.settings.radix.toNat line = .ok (.expression tokens) ∧
    ⟨.var name, span⟩ ∈ tokens

/-- The variables that a line mentions: those among its tokens, if it is an expression and every
word of it can be read. -/
def mentionedBy (session : Session) (line : Text) : List Text :=
  match Line.read session.settings.radix.toNat line with
  | .ok (.expression tokens) => mentioned tokens
  | _ => []

theorem mem_mentioned {tokens : List (Located Token)} {name : Text} :
    name ∈ mentioned tokens ↔ ∃ span, ⟨.var name, span⟩ ∈ tokens := by
  simp only [mentioned, List.mem_filterMap]
  constructor
  · rintro ⟨⟨token, span⟩, member, named⟩
    cases token with
    | var other => cases named; exact ⟨span, member⟩
    | _ => cases named
  · rintro ⟨span, member⟩
    exact ⟨_, member, rfl⟩

theorem mem_mentionedBy {session : Session} {line name : Text} :
    name ∈ session.mentionedBy line ↔ session.Mentions line name := by
  unfold Mentions mentionedBy
  cases Line.read session.settings.radix.toNat line with
  | error e => simp
  | ok read =>
    cases read with
    | command c => simp
    | expression tokens => simp [mem_mentioned]

/-- An expression that fails leaves the session with its variables marked. -/
theorem runExpression_of_error {tokens : List (Located Token)} {session : Session} {e : Failure}
    (failed : ((runExpression number tokens).outcome session).1 = .error e) :
    ((runExpression number tokens).outcome session).2 =
      session.touch number (mentioned tokens) := by
  -- What comes after the marks is atomic; from the marked session it fails without a write.
  have atomic : Effect.Atomic (if tokens = [] then pure [] else
      evaluate number tokens >>= fun value => get >>= fun session =>
        pure (session.settings.display value) : Effect Session Text) := by
    split
    · exact (Effect.readOnly_pure _).atomic
    · refine (atomic_evaluate number tokens).bind_infallible fun value => ?_
      exact Effect.infallible_get.bind fun _ => Effect.infallible_pure _
  exact atomic (session.touch number (mentioned tokens)) e failed

/-- What a line is answered with, by what it is read as. -/
theorem calculate_eq (session : Session) (line : Text) :
    session.calculate commands number line =
      match Line.read session.settings.radix.toNat line with
      | .error e => (.error e, session)
      | .ok (.command c) => (runCommand commands number c).outcome session
      | .ok (.expression tokens) => (runExpression number tokens).outcome session := by
  unfold calculate respond
  rw [Effect.outcome_bind, Effect.outcome_get]
  dsimp only
  rw [Effect.outcome_bind]
  cases Line.read session.settings.radix.toNat line with
  | error e => rfl
  | ok read => cases read <;> rfl

/-- A line that fails leaves the session with the variables marked that it mentions. -/
theorem calculate_of_error {commands : Registry} (cautious : commands.Cautious)
    {session : Session} {line : Text} {e : Failure}
    (failed : (session.calculate commands number line).1 = .error e) :
    (session.calculate commands number line).2 =
      session.touch number (session.mentionedBy line) := by
  rw [calculate_eq] at failed ⊢
  unfold mentionedBy
  cases asRead : Line.read session.settings.radix.toNat line with
  | error e => exact (touch_nil number session).symm
  | ok read =>
    rw [asRead] at failed
    cases read with
    | command c =>
      exact (atomic_runCommand cautious number c session e failed).trans
        (touch_nil number session).symm
    | expression tokens => exact runExpression_of_error number failed

/-- A line that fails changes nothing but use marks. The settings stay, no variable comes or goes,
and all keep their values. The variables that a line mentions are marked, if it can be read as an
expression, and all other marks stay; a command that fails leaves the session as it is, also an
added one if it is cautious. Nothing is written before it can no longer fail, since under valid
settings every result can be shown. -/
theorem only_marks_of_failure (commands : Registry) (cautious : commands.Cautious)
    (number : Option Int) (session : Session) (line : Text) (e : Failure)
    (valid : session.settings.Valid)
    (failed : (session.calculate commands number line).1 = .error e) :
    (session.calculate commands number line).2.settings = session.settings ∧
    (∀ v, session.settings.displayUnchecked v = .ok (session.settings.display v)) ∧
    (session.store = none → (session.calculate commands number line).2.store = none) ∧
    (∀ before, session.store = some before →
      ∃ after, (session.calculate commands number line).2.store = some after ∧
        after.names = before.names ∧
        ∀ name, after.value? name = before.value? name ∧
          (session.Mentions line name →
            (after.get? name).map (·.lastUsed) = (before.get? name).map fun _ => number) ∧
          (¬session.Mentions line name → after.get? name = before.get? name)) ∧
    ((∀ tokens, Line.read session.settings.radix.toNat line ≠ .ok (.expression tokens)) →
      (session.calculate commands number line).2 = session) := by
  rw [calculate_of_error number cautious failed]
  refine ⟨rfl, valid.displayUnchecked, fun absent => ?_, fun before stored => ?_, fun other => ?_⟩
  · simp [touch, absent]
  · refine ⟨before.touchAll number (session.mentionedBy line), by simp [touch, stored],
      Memory.names_touchAll _ _ _, fun name => ⟨Memory.value?_touchAll _ _ _ _, ?_, ?_⟩⟩
    · intro mentions
      rw [Memory.get?_touchAll, if_pos (mem_mentionedBy.mpr mentions)]
      simp [Option.map_map, Function.comp_def]
    · intro mentionsNot
      rw [Memory.get?_touchAll, if_neg (mentionsNot ∘ mem_mentionedBy.mp)]
  · have silent : session.mentionedBy line = [] := by
      refine List.eq_nil_iff_forall_not_mem.mpr fun name member => ?_
      obtain ⟨tokens, -, asExpression, -⟩ := mem_mentionedBy.mp member
      exact other tokens asExpression
    rw [silent, touch_nil]

/-- A division by zero marks the dividend and assigns nothing. -/
theorem only_marks_of_failure_division :
    ∃ (session : Session) (answered : Except Failure Text × Session) (after : Memory),
      session = { store := some ⟨[(['$', 'x'], ⟨2, none⟩)]⟩ } ∧
      session.calculate Registry.default (some 7) "$z = $x / 0".toList = answered ∧
      answered.1 = .error (.refused (.math .divisionByZero ⟨8, 1⟩)) ∧
      answered.2.settings = session.settings ∧ answered.2.store = some after ∧
      after.names = [['$', 'x']] ∧ after.value? ['$', 'x'] = some 2 ∧
      (after.get? ['$', 'x']).map (·.lastUsed) = some (some 7) := by
  have applied := only_marks_of_failure Registry.default Registry.default_cautious (some 7)
    { store := some ⟨[(['$', 'x'], ⟨2, none⟩)]⟩ } "$z = $x / 0".toList
    (.refused (.math .divisionByZero ⟨8, 1⟩))
    ⟨by decide, nofun, by decide, by decide, by decide⟩ (by rfl)
  obtain ⟨settings, -, -, stored, -⟩ := applied
  obtain ⟨after, leaves, names, marks⟩ := stored _ rfl
  obtain ⟨value, marked, -⟩ := marks ['$', 'x']
  have asExpression : Line.read 10 "$z = $x / 0".toList = .ok (.expression
      [⟨.var ['$', 'z'], ⟨0, 2⟩⟩, ⟨.assign, ⟨3, 1⟩⟩, ⟨.var ['$', 'x'], ⟨5, 2⟩⟩,
        ⟨.binary .divide, ⟨8, 1⟩⟩, ⟨.number 0, ⟨10, 1⟩⟩]) := by rfl
  have alone : Memory.names ⟨[(['$', 'x'], ⟨2, none⟩)]⟩ = [['$', 'x']] := by
    simp [Memory.names, Text.sorted]
  exact ⟨_, _, after, rfl, rfl, by rfl, settings, leaves, names.trans alone, value,
    marked ⟨_, ⟨5, 2⟩, asExpression, by decide⟩⟩

end Session
end ExactCalc
