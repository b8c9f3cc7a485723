import ExactCalc.Proofs.Root.Divisors
import ExactCalc.Proofs.Session.Arguments
import ExactCalc.Proofs.Session.Blame

/-!
# Lines are answered or refused

With valid settings and the default commands, whatever line is given is answered with a text or
refused, and a refusal points at a stretch of the line, unless it is the want of a store where
variables are to be removed. No result is without a notation, no digit without a character, and
nothing is divided by zero. One thing may go wrong all the same: a number of the line has too many
digits.
-/
namespace ExactCalc

section Places

variable {tokens : List (Located Token)} {n : Nat}

/-- What stands on tokens has its place where they have theirs. -/
theorem GrammarError.StandsAt.stop_le {e : GrammarError} {s : Span} (stands : e.StandsAt tokens s)
    (inside : ∀ t ∈ tokens, t.span.stop ≤ n) : s.stop ≤ n := by
  cases e with
  | noInput =>
    obtain rfl := stands
    exact Nat.zero_le n
  | unexpectedToken t => exact inside _ stands.1
  | emptyParens =>
    obtain ⟨openSpan, closeSpan, adjacent, rfl⟩ := stands
    have opened := inside _ (adjacent.subset List.mem_cons_self)
    have closed := inside ⟨.closeParen, closeSpan⟩ (adjacent.subset (by simp))
    exact Span.stop_cover_le opened closed
  | missingOperator =>
    obtain ⟨t, u, adjacent, -, -, -, stop⟩ := stands
    rw [stop]
    exact u.span.start_le_stop.trans (inside u (adjacent.subset (by simp)))
  | unrankedOperator op => exact stands.elim
  | mismatchedOpen => exact inside _ stands
  | mismatchedClose => exact inside _ stands
  | missingOperand op => exact inside _ stands
  | commaWithoutOperandBefore => exact inside _ stands
  | commaWithoutOperandAfter => exact inside _ stands
  | missingArgument f => exact inside _ stands

theorem Cause.StandsAt.inside {cause : Cause} {s : Span} (stands : cause.StandsAt tokens s)
    (inside : ∀ t ∈ tokens, t.span.stop ≤ n) : Refusal.Inside n ⟨cause, some s⟩ := by
  refine ⟨?_, s, rfl, ?_⟩
  · rintro op rfl
    exact stands
  match cause with
  | grammar e => exact GrammarError.StandsAt.stop_le stands inside
  | math (.unknownVariable name) => exact inside _ stands
  | math .divisionByZero =>
    obtain ⟨op, -, member⟩ := stands
    exact inside _ member
  | math (.argumentsNeeded f) => exact inside _ stands
  | math .unsupported => exact inside _ stands
  | math .imaginaryResult => exact inside _ stands
  | capability .noVariableStore =>
    obtain ⟨name, member⟩ := stands
    exact inside _ member

theorem Failure.StandsOn.within {f : Failure} (stands : f.StandsOn tokens)
    (inside : ∀ t ∈ tokens, t.span.stop ≤ n) : f.Within n := by
  obtain ⟨cause, s, rfl, stands⟩ := stands
  exact .refused (stands.inside inside)

end Places

theorem Settings.Valid.outputRadix {settings : Settings} (valid : settings.Valid) :
    2 ≤ settings.outputRadix ∧ settings.outputRadix ≤ 16 := by
  unfold Settings.outputRadix
  cases given : settings.convertRadix with
  | none => exact valid.radix
  | some r => exact valid.convertRadix r given

namespace Session

variable {session : Session} {number : Option Int} {line : Text}

/-- A line is answered with a text or refused. The refusal points at a stretch of the line, or else
the line is to remove variables and there is no store. -/
def AnswersOrRefuses (session : Session) (number : Option Int) (line : Text) : Prop :=
  (∃ output, (session.calculate Registry.default number line).1 = .ok output) ∨
    ∃ r, (session.calculate Registry.default number line).1 = .error (.refused r) ∧
      (∀ op, r.cause ≠ .grammar (.unrankedOperator op)) ∧ (∀ s ∈ r.span, s.stop ≤ line.length) ∧
      (r.span = none → r.cause = .capability .noVariableStore ∧ session.store = none ∧
        ∃ c, Line.read session.settings.radix.toNat line = .ok (.command c) ∧
          c.name.val = Definition.purgevar.name)

/-- Nothing is asked for that there is not: the notation of a result, the character of a digit, or
the quotient of a division by zero, be it in a literal, on display or in the value of the line. -/
structure WellDefined (session : Session) (line : Text) : Prop where
  shown : ∀ v, session.settings.displayUnchecked v = .ok (session.settings.display v)
  digits : ∀ n, ∀ d ∈ Positional.digits session.settings.outputRadix.toNat n, d < 36
  weights : ∀ places, Positional.weight session.settings.radix.toNat places ≠ 0 ∧
    Positional.weight session.settings.outputRadix.toNat places ≠ 0
  divisors : ∀ tokens statement,
    Line.read session.settings.radix.toNat line = .ok (.expression tokens) →
    Statement.read tokens = .ok statement →
    ∀ d ∈ statement.root.divisors (VariableStore.load session.store) session.accuracy, d ≠ 0

theorem wellDefined_of_valid (valid : session.settings.Valid) (line : Text) :
    session.WellDefined line where
  shown := valid.displayUnchecked
  digits n d member := by
    have bounds := valid.outputRadix
    have := Positional.lt_of_mem_digits (by omega) member
    omega
  weights places := by
    have input := valid.radix
    have output := valid.outputRadix
    exact ⟨(Nat.pow_pos (by omega)).ne', (Nat.pow_pos (by omega)).ne'⟩
  divisors tokens statement _ _ := by
    have output : 0 < session.settings.outputRadix.toNat := by
      have := valid.outputRadix
      omega
    exact Expr.divisors_ne_zero (a := session.accuracy) (Nat.pow_pos output) output _ statement.root

theorem fails_onStore {α : Type} {pre : Failure → Prop} {x : Effect (Option Memory) α}
    (fails : x.FailsWith pre) : (onStore x).FailsWith pre :=
  fun session => fails session.store

theorem fails_runExpression {radix : Nat} {tokens : List (Located Token)}
    (read : Line.read radix line = .ok (.expression tokens)) :
    (runExpression number tokens).FailsWith (Failure.Within line.length) := by
  obtain ⟨-, -, read⟩ := Line.read_eq_expression.mp read
  have inside := fun t => Text.stop_le_of_mem read (t := t)
  refine (Effect.infallible_modify _).failsWith.bind fun _ => ?_
  split
  · exact (Effect.infallible_pure _).failsWith
  refine Effect.FailsWith.bind ?_ fun value => Effect.failsWith_answer _
  refine Effect.failsWith_checked (fun r refused => ?_) fun statement built => ?_
  · obtain ⟨e, failed, rfl⟩ := mapError_eq_error_iff.mp refused
    have stands : Cause.StandsAt tokens e.span (.grammar e.val) :=
      Statement.standsAt_of_read failed (Text.pairwise_tokens read)
    exact .refused (stands.inside inside)
  · have built := mapError_eq_ok_iff.mp built
    refine Effect.infallible_get.failsWith.bind fun session => fails_onStore ?_
    exact fun store f failed => (Statement.standsOn_of_execute built failed).within inside

/-- A default command fails for what is in the line, or it is to remove variables and there is no
store. -/
theorem fails_runCommand {radix : Nat} {c : CommandLine}
    (read : Line.read radix line = .ok (.command c)) {f : Failure}
    (failed : ((runCommand Registry.default number c).outcome session).1 = .error f) :
    f.Within line.length ∨ session.store = none ∧
      f = .refused ⟨.capability .noVariableStore, none⟩ ∧
      c.name.val = Definition.purgevar.name := by
  obtain ⟨place, fits⟩ := Line.fits_of_command read
  cases meant : Registry.default.lookup c.name with
  | error r =>
    have refused : f = .refused r := by
      simp only [runCommand, Effect.outcome_bind, meant, Effect.checked_error,
        Effect.outcome_throw] at failed
      exact (Except.error.inj failed).symm
    exact .inl (refused ▸ .refused (Registry.inside_lookup place meant))
  | ok d =>
    have ran : ((Command.run d.action Registry.default c.arguments).outcome session).1 =
        .error f := by
      simp only [runCommand, Effect.outcome_bind, meant, Effect.checked_ok,
        Effect.outcome_pure] at failed
      split at failed
      next => cases failed
      next went =>
        cases failed
        rw [went]
    rcases Registry.lookup?_default (Registry.lookup_eq_ok.mp meant) with
      ⟨isPurge, purges⟩ | ⟨-, keeps, builtin⟩
    · rw [purges] at ran
      rcases Command.fails_purge fits ran with within | ⟨noStore, same⟩
      · exact .inl within
      · exact .inr ⟨noStore, same, isPurge⟩
    · exact .inl (Command.fails_run _ keeps builtin fits session f ran)

/-- A line fails for a number that has too many digits to be read, or to be written in a message. -/
def FailsOverlong (session : Session) (number : Option Int) (line : Text) : Prop :=
  ∃ d, (session.calculate Registry.default number line).1 = .error (.defect d) ∧
    Defect.Overlong line.length d

theorem answersOrRefuses_or_failsOverlong (session : Session) (number : Option Int) (line : Text) :
    session.AnswersOrRefuses number line ∨ session.FailsOverlong number line := by
  cases result : (session.calculate Registry.default number line).1 with
  | ok output => exact .inl (.inl ⟨output, result⟩)
  | error f =>
    have placed (within : f.Within line.length) :
        session.AnswersOrRefuses number line ∨ session.FailsOverlong number line := by
      cases within with
      | overlong overlong => exact .inr ⟨_, result, overlong⟩
      | @refused r inside =>
        obtain ⟨ranked, s, isSpan, stop⟩ := inside
        obtain ⟨cause, _⟩ := r
        cases isSpan
        refine .inl (.inr ⟨_, result, ranked, ?_, nofun⟩)
        rintro s ⟨⟩
        exact stop
    have failed := result
    rw [calculate_eq] at failed
    cases read : Line.read session.settings.radix.toNat line with
    | error e =>
      rw [read] at failed
      cases failed
      exact placed (Line.within_of_read_error read)
    | ok kind =>
      rw [read] at failed
      cases kind with
      | expression tokens => exact placed (fails_runExpression read session f failed)
      | command c =>
        rcases fails_runCommand read failed with within | ⟨noStore, rfl, isPurge⟩
        · exact placed within
        · exact .inl (.inr ⟨_, result, nofun, nofun, fun _ => ⟨rfl, noStore, c, read, isPurge⟩⟩)

/-- Whatever line is given, it is answered or refused, unless a number of it has too many digits,
and nothing that is only partly defined is used where it is not. A line of no more characters than
a number may have digits is always answered or refused. -/
theorem answers_or_refuses (session : Session) (valid : session.settings.Valid)
    (number : Option Int) (line : Text) :
    (session.AnswersOrRefuses number line ∨ session.FailsOverlong number line) ∧
      (line.length ≤ Positional.digitLimit → session.AnswersOrRefuses number line) ∧
      session.WellDefined line := by
  have either := answersOrRefuses_or_failsOverlong session number line
  refine ⟨either, fun short => either.resolve_right ?_, wellDefined_of_valid valid line⟩
  rintro ⟨d, -, overlong⟩
  exact absurd overlong.digitLimit_lt (not_lt.mpr short)

/-- A division by zero, and the removal of a variable where there is no store. -/
theorem answers_or_refuses_without_store :
    (⟨{}, none⟩ : Session).AnswersOrRefuses (some 1) "7 / (2 - 2)".toList ∧
      (⟨{}, none⟩ : Session).AnswersOrRefuses none "/purgevar $x".toList ∧
      (⟨{}, none⟩ : Session).calculate Registry.default none "/purgevar $x".toList =
        (.error (.refused ⟨.capability .noVariableStore, none⟩), ⟨{}, none⟩) := by
  have valid : (⟨{}, none⟩ : Session).settings.Valid :=
    ⟨by decide, nofun, by decide, by decide, by decide⟩
  exact ⟨(answers_or_refuses _ valid (some 1) _).2.1 (by decide),
    (answers_or_refuses _ valid none _).2.1 (by decide), by decide +kernel⟩

/-- A line of 4301 ones is neither answered nor refused. -/
theorem many_ones_neither :
    (⟨{}, none⟩ : Session).settings.Valid ∧
      ¬(⟨{}, none⟩ : Session).AnswersOrRefuses (some 0) (List.replicate 4301 '1') ∧
      ((⟨{}, none⟩ : Session).calculate Registry.default (some 0) (List.replicate 4301 '1')).1 =
        .error (.defect (.unreadable 4301)) := by
  have failed : ((⟨{}, none⟩ : Session).calculate Registry.default (some 0)
      (List.replicate 4301 '1')).1 = .error (.defect (.unreadable 4301)) := by
    have ten : (⟨{}, none⟩ : Session).settings.radix.toNat = 10 := rfl
    rw [calculate_eq, ten, (Line.read_ones (by decide)).2]
  refine ⟨⟨by decide, nofun, by decide, by decide, by decide⟩, ?_, failed⟩
  rintro (⟨output, answered⟩ | ⟨r, refused, -⟩)
  · cases answered.symm.trans failed
  · cases refused.symm.trans failed

end Session
end ExactCalc
