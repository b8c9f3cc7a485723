import ExactCalc.Proofs.Session.StoreLaw
import ExactCalc.Proofs.Settings.Validity

/-!
# Which lines change settings

Every field of the settings belongs to one command. A line leaves the settings as they are, or it is
done as a command and has changed fields of that command, to values with which the settings are
valid. Settings that are valid at first therefore stay so over all lines, whether or not these fail.
-/
namespace ExactCalc

namespace Settings

/-- The fields of the settings. -/
inductive Field where
  | radix | convertRadix | precision | extraPrecision
  | switch (s : Switch)
  deriving DecidableEq, Repr

/-- Two settings have the same value in a field. -/
def Agree (s t : Settings) : Field → Prop
  | .radix => s.radix = t.radix
  | .convertRadix => s.convertRadix = t.convertRadix
  | .precision => s.precision = t.precision
  | .extraPrecision => s.extraPrecision = t.extraPrecision
  | .switch which => s.isOn which = t.isOn which

theorem agree_refl (s : Settings) (field : Field) : s.Agree s field := by
  cases field <;> exact rfl

/-- The command that a field belongs to. -/
def Field.owner : Field → Definition
  | .radix => .radix
  | .convertRadix => .converttoradix
  | .precision | .extraPrecision => .precision
  | .switch .fractional => .fractional
  | .switch .upper => .upper
  | .switch .commas => .commas

end Settings

namespace Command

open Effect

variable {arguments : Located Text} {d : Definition}

theorem radix?_eq_some {n : Int} (read : radix? arguments = .ok (some n)) : 2 ≤ n ∧ n ≤ 16 := by
  obtain ⟨items, -, chosen⟩ := bind_eq_ok_iff.mp read
  match items with
  | [] => cases chosen
  | [radix] =>
    dsimp only at chosen
    split at chosen
    next => cases chosen
    split at chosen
    next => cases chosen
    next large small =>
      cases chosen
      omega
  | _ :: _ :: _ => cases chosen

theorem isPrecision_iff {n : Int} : isPrecision n = true ↔ 0 ≤ n ∧ n ≤ 255 := by
  rw [isPrecision, Settings.maxPrecision, Bool.and_eq_true, decide_eq_true_iff, decide_eq_true_iff]

/-- The bound on the sum is checked against the extra precision that is left from earlier, if no
other is given. -/
theorem extraBeside_eq_ok {settings : Settings} {precision : Located Int}
    {extra : Option (Located Int)} {n : Int} (nonneg : 0 ≤ settings.extraPrecision)
    (found : extraBeside settings precision extra = .ok n) :
    0 ≤ precision.val ∧ 0 ≤ n ∧ precision.val + n ≤ 255 := by
  unfold extraBeside at found
  dsimp only at found
  split at found
  next => cases found
  next inRange =>
    split at found
    next => cases found
    next extraInRange =>
      split at found
      next => cases found
      next sum =>
        cases found
        simp only [Settings.maxPrecision] at sum
        refine ⟨(isPrecision_iff.mp (by simpa using inRange)).1, ?_, by omega⟩
        cases extra with
        | none => exact nonneg
        | some e =>
          have checked := Option.filter_eq_none_iff.mp extraInRange e rfl
          exact (isPrecision_iff.mp (by simpa using checked)).1

/-- An effect that leaves the settings as they are, or is done and leaves valid settings that differ
in nothing but fields of the command. -/
def Sets (d : Definition) (x : Effect Session Reply) : Prop :=
  ∀ session, session.settings.Valid →
    (x.outcome session).2.settings = session.settings ∨
      (x.outcome session).1 = .ok done ∧ (x.outcome session).2.settings.Valid ∧
        ∀ field, field.owner ≠ d → session.settings.Agree (x.outcome session).2.settings field

theorem sets_of_keeps {x : Effect Session Reply} (keeps : x.Keeps Session.settings) : Sets d x :=
  fun session _ => .inl (keeps session)

/-- What is done after a check may rely on its result. -/
theorem sets_ofResult {α : Type} {result : Except Failure α} {next : α → Effect Session Reply}
    (later : ∀ a, result = .ok a → Sets d (next a)) : Sets d (ofResult result >>= next) := by
  cases result with
  | error r => exact fun _ _ => .inl rfl
  | ok a => exact later a rfl

/-- A single change is made of valid settings and leaves valid settings. -/
theorem sets_change {f : Settings → Settings} (keepsValid : ∀ s : Settings, s.Valid → (f s).Valid)
    (others : ∀ (s : Settings) (field : Settings.Field), field.owner ≠ d → s.Agree (f s) field) :
    Sets d (modify (·.change f) >>= fun _ => pure done) :=
  fun session valid => .inr ⟨rfl, keepsValid _ valid, others session.settings⟩

/-- What is set is valid. -/
theorem Sets.valid {x : Effect Session Reply} (sets : Sets d x) {session : Session}
    (valid : session.settings.Valid) : (x.outcome session).2.settings.Valid := by
  rcases sets session valid with same | ⟨-, validAfter, -⟩
  · rwa [same]
  · exact validAfter

theorem keeps_answer (f : Session → Reply) :
    (get >>= fun s => pure (f s) : Effect Session Reply).Keeps Session.settings :=
  (readOnly_get.bind fun _ => readOnly_pure _).keeps

theorem keeps_purge (arguments : Located Text) : (purge arguments).Keeps Session.settings := by
  refine (readOnly_ofResult _).keeps.bind fun names => readOnly_get.keeps.bind fun session => ?_
  split
  · exact (readOnly_throw _).keeps
  · refine Keeps.bind (fun s => ?_) fun _ => (readOnly_pure _).keeps
    rw [outcome_forM_modify (Located.distinct names) fun name (s : Session) => s.purge name.val,
      foldl_purge]

/-- A value that is set has been checked before. -/
theorem sets_reportOrSet {α : Type} {given : Except Failure (Option α)} (report : Settings → Text)
    {set : α → Settings → Settings}
    (keepsValid : ∀ a, given = .ok (some a) → ∀ s : Settings, s.Valid → (set a s).Valid)
    (others : ∀ (a : α) (s : Settings) (field : Settings.Field),
      field.owner ≠ d → s.Agree (set a s) field) :
    Sets d (reportOrSet given report set) := by
  refine sets_ofResult fun value? read => ?_
  cases value? with
  | none => exact sets_of_keeps (keeps_answer _)
  | some value => exact sets_change (keepsValid value read) (others value)

theorem sets_radix (arguments : Located Text) : Sets .radix (radix arguments) := by
  refine sets_reportOrSet _ (fun n read s valid => { valid with radix := radix?_eq_some read }) ?_
  intro n s field other
  cases field with
  | radix => exact absurd rfl other
  | switch which => cases which <;> rfl
  | _ => rfl

theorem sets_convertRadix (arguments : Located Text) :
    Sets .converttoradix (convertRadix arguments) := by
  have others (chosen : Option Int) (s : Settings) (field : Settings.Field)
      (other : field.owner ≠ .converttoradix) :
      s.Agree { s with convertRadix := chosen } field := by
    cases field with
    | convertRadix => exact absurd rfl other
    | switch which => cases which <;> rfl
    | _ => rfl
  unfold convertRadix
  split
  · exact sets_change (fun s valid => { valid with convertRadix := nofun }) (others none)
  refine sets_reportOrSet _ (fun n read s valid => { valid with convertRadix := ?_ }) fun n =>
    others n
  rintro _ ⟨⟩
  exact radix?_eq_some read

/-- The two fields are written one after the other, and both values are known before. -/
theorem sets_setPrecision (precision : Located Int) (extra : Option (Located Int)) :
    Sets .precision (setPrecision precision extra) := by
  intro session valid
  cases found : extraBeside session.settings precision extra with
  | error r =>
    left
    simp [setPrecision, outcome_bind, found, checked_error]
  | ok n =>
    right
    have after : (setPrecision precision extra).outcome session = (.ok done,
        session.change fun s => { s with precision := precision.val, extraPrecision := n }) := by
      unfold setPrecision
      rw [outcome_bind, outcome_get]
      dsimp only
      rw [outcome_bind, found]
      rfl
    obtain ⟨low, lowExtra, sum⟩ := extraBeside_eq_ok valid.extraPrecision found
    rw [after]
    refine ⟨rfl, { valid with precision := low, extraPrecision := lowExtra, sum := sum }, ?_⟩
    intro field other
    cases field with
    | precision => exact absurd rfl other
    | extraPrecision => exact absurd rfl other
    | switch which => cases which <;> rfl
    | _ => rfl

theorem sets_precision (arguments : Located Text) : Sets .precision (precision arguments) := by
  refine sets_ofResult fun given _ => ?_
  match given with
  | [] => exact sets_of_keeps (keeps_answer _)
  | [_] => exact sets_setPrecision _ _
  | [_, _] => exact sets_setPrecision _ _
  | _ :: _ :: _ :: _ => exact sets_of_keeps (readOnly_throw _).keeps

theorem sets_switch (s : Switch) (arguments : Located Text) :
    Sets (Settings.Field.switch s).owner (switch s arguments) := by
  refine sets_reportOrSet _ (fun on _ settings valid => valid.turn s on) ?_
  intro on settings field other
  cases field with
  | switch which => cases s <;> cases which <;> first | rfl | exact absurd rfl other
  | _ => cases s <;> rfl

/-- Each of the default commands changes nothing but its own fields. -/
theorem sets_builtin (commands : Registry) (arguments : Located Text)
    (builtin : d ∈ Registry.builtin) : Sets d (run d.action commands arguments) := by
  simp only [Registry.builtin, List.mem_cons, List.not_mem_nil, or_false] at builtin
  rcases builtin with rfl | rfl | rfl | rfl | rfl | rfl | rfl | rfl
  · exact sets_of_keeps (readOnly_help commands arguments).keeps
  · exact sets_of_keeps (keeps_purge arguments)
  · exact sets_radix arguments
  · exact sets_convertRadix arguments
  · exact sets_precision arguments
  · exact sets_switch .fractional arguments
  · exact sets_switch .upper arguments
  · exact sets_switch .commas arguments

/-- Whatever a command is called, valid settings stay valid. -/
theorem valid_run {commands : Registry} {action : Action} (sound : action.Sound)
    (arguments : Located Text) {session : Session} (valid : session.settings.Valid) :
    ((run action commands arguments).outcome session).2.settings.Valid := by
  cases action with
  | help =>
    rw [run, readOnly_help commands arguments session]
    exact valid
  | purge => exact (keeps_purge arguments session).symm ▸ valid
  | radix => exact (sets_radix arguments).valid valid
  | convertRadix => exact (sets_convertRadix arguments).valid valid
  | precision => exact (sets_precision arguments).valid valid
  | switch s => exact (sets_switch s arguments).valid valid
  | added run => exact (sound arguments).2 session valid

end Command

namespace Session

variable {session : Session} {number : Option Int} {line : Text}

/-- An expression line leaves the settings as they are. -/
theorem settings_runExpression (number : Option Int) (tokens : List (Located Token))
    (session : Session) :
    ((runExpression number tokens).outcome session).2.settings = session.settings := by
  cases built : Statement.read tokens with
  | error e =>
    rw [runExpression_unread built]
    rfl
  | ok statement =>
    rw [runExpression_eq built]
    split <;> rfl

/-- What a line does to the settings: nothing, or it is done as a command that owns what changes. -/
theorem settings_of_line (valid : session.settings.Valid) (number : Option Int) (line : Text) :
    (session.calculate Registry.default number line).2.settings = session.settings ∨
      (session.calculate Registry.default number line).1 = .ok Command.done.output ∧
      (session.calculate Registry.default number line).2.settings.Valid ∧
      ∃ c d, Line.read session.settings.radix.toNat line = .ok (.command c) ∧
        Registry.default.lookup? c.name.val = some d ∧
        ∀ field, field.owner ≠ d → session.settings.Agree
          (session.calculate Registry.default number line).2.settings field := by
  rw [calculate_eq]
  cases asRead : Line.read session.settings.radix.toNat line with
  | error e => exact .inl rfl
  | ok read =>
    cases read with
    | expression tokens => exact .inl (settings_runExpression number tokens session)
    | command c =>
      cases found : Registry.default.lookup c.name with
      | error r =>
        left
        simp [runCommand, found, Effect.checked_error]
      | ok d =>
        have named := Registry.lookup_eq_ok.mp found
        have sets := Command.sets_builtin Registry.default c.arguments
          (Registry.mem_builtin_of_lookup named) session valid
        dsimp only
        rw [runCommand_eq found]
        generalize (Command.run d.action Registry.default c.arguments).outcome session = ran at sets
        obtain ⟨answer, after⟩ := ran
        rcases sets with same | ⟨isDone, validAfter, others⟩
        · left
          cases answer <;> exact same
        · cases isDone
          exact .inr ⟨rfl, validAfter, c, d, rfl, named, others⟩

/-- A line leaves valid settings. -/
theorem valid_of_line {commands : Registry} (sound : commands.Sound)
    (valid : session.settings.Valid) (number : Option Int) (line : Text) :
    (session.calculate commands number line).2.settings.Valid := by
  rw [calculate_eq]
  cases Line.read session.settings.radix.toNat line with
  | error e => exact valid
  | ok read =>
    cases read with
    | expression tokens => exact (settings_runExpression number tokens session).symm ▸ valid
    | command c =>
      cases found : commands.lookup c.name with
      | error r => simpa [runCommand, found, Effect.checked_error] using valid
      | ok d =>
        have validAfter : ((Command.run d.action commands c.arguments).outcome
            session).2.settings.Valid :=
          Command.valid_run (sound d (Registry.mem_of_lookup found)) c.arguments valid
        dsimp only
        rw [runCommand_eq found]
        generalize (Command.run d.action commands c.arguments).outcome session = ran at validAfter
        obtain ⟨answer, after⟩ := ran
        cases answer <;> exact validAfter

theorem valid_of_lines {commands : Registry} (sound : commands.Sound)
    (valid : session.settings.Valid) (number : Option Int) (lines : List Text) :
    (afterLines commands number session lines).settings.Valid := by
  induction lines using List.reverseRecOn with
  | nil => exact valid
  | append_singleton lines line ih =>
    rw [afterLines_concat]
    exact valid_of_line sound ih _ line

/-- The answer to a line is given in the session that the lines before it leave. -/
theorem getElem?_answers (commands : Registry) (number : Option Int) (session : Session)
    (lines : List Text) (i : Nat) :
    (answers commands number session lines)[i]? = lines[i]?.map fun line =>
      (afterLines commands number session (lines.take i)).calculate commands
        (number.map (· + (i : Int))) line := by
  induction lines generalizing number session i with
  | nil => rfl
  | cons line rest ih =>
    cases i with
    | zero =>
      cases number <;> simp [answers, afterLines]
    | succ i =>
      rw [answers, List.getElem?_cons_succ, List.getElem?_cons_succ, ih, List.take_succ_cons,
        afterLines_cons]
      cases number with
      | none => rfl
      | some n =>
        have same : n + 1 + (i : Int) = n + ((i + 1 : Nat) : Int) := by
          push_cast
          omega
        simp only [Option.map_some, same]

/-- Validation accepts the settings that every accepted command line chooses, and settings that it
accepts it goes on to accept over all lines that are answered with the default commands. What a
line changes in a field of the settings it changes as the command that owns the field, and says that
it is done. -/
theorem settings_stay_valid :
    (∀ words o, Options.read words = .ok (.calculate o) → o.settings.validate = .ok ()) ∧
    ∀ (settings : Settings) (store : Option Memory) (number : Option Int) (lines : List Text),
      settings.validate = .ok () →
      ∀ (i : Nat) (line : Text), lines[i]? = some line →
        ∃ before after answer,
          before = afterLines Registry.default number ⟨settings, store⟩ (lines.take i) ∧
          (answers Registry.default number ⟨settings, store⟩ lines)[i]? = some (answer, after) ∧
          after.settings.Valid ∧ after.settings.validate = .ok () ∧
          ∀ field, ¬before.settings.Agree after.settings field →
            ∃ c, Line.read before.settings.radix.toNat line = .ok (.command c) ∧
              Registry.default.lookup? c.name.val = some field.owner ∧
              answer = .ok "Done".toList := by
  refine ⟨fun words o read => Settings.validate_eq_ok_iff.mpr (Options.valid_of_read read), ?_⟩
  intro settings store number lines accepted i line found
  have valid : (⟨settings, store⟩ : Session).settings.Valid :=
    Settings.validate_eq_ok_iff.mp accepted
  have validBefore := valid_of_lines Registry.default_sound valid number (lines.take i)
  have validAfter := valid_of_line Registry.default_sound validBefore
    (number.map (· + (i : Int))) line
  refine ⟨_, _, _, rfl, by rw [getElem?_answers, found]; rfl, validAfter,
    Settings.validate_eq_ok_iff.mpr validAfter, fun field changed => ?_⟩
  rcases settings_of_line validBefore (number.map (· + (i : Int))) line with
    same | ⟨isDone, -, c, d, asCommand, named, others⟩
  · rw [same] at changed
    exact absurd (Settings.agree_refl _ field) changed
  · have owns : field.owner = d := by
      by_contra other
      exact changed (others field other)
    exact ⟨c, asCommand, owns ▸ named, isDone⟩

/-- The extra precision of one line leaves no room for the precision of the next, which fails. -/
theorem settings_stay_valid_leftover :
    (∃ o, Options.read ["-r".toList, "16".toList, "--upper".toList] = .ok (.calculate o) ∧
      o.settings = { radix := 16, upper := true } ∧ o.settings.validate = .ok ()) ∧
    (∃ c, Line.read 16 "/p 5 250".toList = .ok (.command c) ∧
      Registry.default.lookup? c.name.val = some .precision) ∧
    ∃ after, (answers Registry.default (some 0) ⟨{ radix := 16, upper := true }, none⟩
        ["/p 5 250".toList, "/p 6".toList])[1]? =
        some (.error (.refused (.argument .sumOutOfRange ⟨3, 1⟩)), after) ∧
      after.settings.extraPrecision = 250 ∧ after.settings.validate = .ok () := by
  have accepted : Options.read ["-r".toList, "16".toList, "--upper".toList] =
      .ok (.calculate { settings := { radix := 16, upper := true } }) := by rfl
  have run := settings_stay_valid.2 { radix := 16, upper := true } none (some 0)
    ["/p 5 250".toList, "/p 6".toList] rfl
  refine ⟨⟨_, accepted, rfl, settings_stay_valid.1 _ _ accepted⟩, ?_, ?_⟩
  · have first : (answers Registry.default (some 0) ⟨{ radix := 16, upper := true }, none⟩
        ["/p 5 250".toList, "/p 6".toList])[0]? = some (.ok "Done".toList,
          ⟨{ radix := 16, precision := 5, extraPrecision := 250, upper := true }, none⟩) := by rfl
    obtain ⟨before, after, answer, rfl, answered, -, -, owns⟩ := run 0 _ rfl
    cases first.symm.trans answered
    have changed : (0 : Int) ≠ 250 := by decide
    obtain ⟨c, asCommand, named, -⟩ := owns .extraPrecision changed
    exact ⟨c, asCommand, named⟩
  · have second : (answers Registry.default (some 0) ⟨{ radix := 16, upper := true }, none⟩
        ["/p 5 250".toList, "/p 6".toList])[1]? =
        some (.error (.refused (.argument .sumOutOfRange ⟨3, 1⟩)),
          ⟨{ radix := 16, precision := 5, extraPrecision := 250, upper := true }, none⟩) := by rfl
    obtain ⟨before, after, answer, -, answered, -, valid, -⟩ := run 1 _ rfl
    cases second.symm.trans answered
    exact ⟨_, second, rfl, valid⟩

end Session
end ExactCalc
