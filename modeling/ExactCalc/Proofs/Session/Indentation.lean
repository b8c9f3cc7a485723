import ExactCalc.Proofs.Reading.Indentation
import ExactCalc.Proofs.Session.Arguments
import ExactCalc.Proofs.Session.Relocation

/-!
# Indented lines

Blanks in front of a line change nothing but the place to blame if the line is refused, which is as
much further to the right as there are blanks. For a command the arguments are moved with the line,
and every command finds the same in moved arguments, or refuses them at the moved place.
-/
namespace ExactCalc

open Effect

variable {m : Relocation} {k : Nat}

theorem Registry.lookup_relocate (commands : Registry) (word : Located Text) :
    commands.lookup (word.relocate m) = bimap (Refusal.relocate m) id (commands.lookup word) := by
  unfold lookup
  rw [Located.relocate]
  cases commands.lookup? word.val <;> rfl

namespace Located

theorem trim_relocate (x : Located Text) :
    (x.relocate (.shift k)).trim = x.trim.relocate (.shift k) := by
  unfold trim
  rw [relocate]
  dsimp only
  split
  next => rfl
  next => simp only [relocate, Relocation.shift, Span.shift, Nat.add_right_comm]

variable {α : Type} [DecidableEq α]

theorem distinct_relocate (xs : List (Located α)) :
    distinct (xs.map (relocate m)) = (distinct xs).map (relocate m) := by
  induction xs with
  | nil => rfl
  | cons x xs ih =>
    rw [List.map_cons, distinct, distinct, ih, List.filter_map, List.map_cons]
    rfl

end Located

/-- What a line is refused for where it is read is lexical. -/
theorem Line.lexical_of_read_error {radix : Nat} {line : Text} {r : Refusal}
    (failed : Line.read radix line = .error (.refused r)) : ∃ e, r.cause = .lexical e := by
  unfold Line.read at failed
  split at failed
  next =>
    cases failed
    exact ⟨_, rfl⟩
  next => cases failed
  next =>
    obtain ⟨x, -, unread⟩ := exists_of_mapM_eq_error (map_eq_error_iff.mp failed)
    cases Token.ofLexeme_eq_error.mp unread
    exact ⟨_, rfl⟩

namespace ArgumentList

/-- What a list of names is refused for is lexical too. -/
theorem lexical_of_names_error {source : Text} {r : Refusal}
    (failed : names source = .error (.refused r)) : ∃ e, r.cause = .lexical e := by
  unfold names at failed
  split at failed
  next e read =>
    obtain failed := Except.error.inj failed
    unfold asVariable at failed
    split at failed
    next =>
      cases failed
      exact ⟨_, rfl⟩
    next =>
      subst failed
      exact Line.lexical_of_read_error read
  next =>
    cases failed
    exact ⟨_, rfl⟩
  next =>
    obtain ⟨t, -, blamed⟩ := exists_of_mapM_eq_error failed
    unfold nameOf at blamed
    split at blamed
    next => cases blamed
    next =>
      cases blamed
      exact ⟨_, rfl⟩

theorem integers_error {radix : Nat} {source : Text} {r : Refusal}
    (failed : integers radix source = .error (.refused r)) :
    (∃ e, r.cause = .lexical e) ∨ ∃ e, r.cause = .argument e := by
  unfold integers at failed
  split at failed
  next read =>
    cases failed
    exact .inl (Line.lexical_of_read_error read)
  next =>
    cases failed
    exact .inl ⟨_, rfl⟩
  next => exact .inr (argument_of_signedIntegers_error failed)

end ArgumentList

namespace Command

/-- What is read from a text of its own moves as the text does. -/
theorem inLine_relocate {α : Type} (arguments : Located Text)
    {read : Text → Except Failure (List (Located α))}
    (input : ∀ r, read arguments.val = .error (.refused r) → r.cause ≠ .grammar .noInput) :
    inLine (arguments.relocate (.shift k)) read =
      bimap (Failure.relocate (.shift k)) (List.map (Located.relocate (.shift k)))
        (inLine arguments read) := by
  have further (s : Span) : s.shift (arguments.span.start + k) =
      (s.shift arguments.span.start).shift k := by
    simp only [Span.shift, Nat.add_assoc]
  unfold inLine
  rw [show (arguments.relocate (.shift k)).val = arguments.val from rfl]
  cases found : read arguments.val with
  | error e =>
    refine congrArg Except.error ?_
    cases e with
    | refused r =>
      have moved : r.shift (arguments.span.start + k) =
          (r.shift arguments.span.start).relocate (.shift k) := by
        simp only [Refusal.relocate, Refusal.shift, if_neg (input r found), Option.map_map]
        refine congrArg (Refusal.mk r.cause) (congrArg (r.span.map ·) ?_)
        exact funext further
      exact congrArg Failure.refused moved
    | _ => rfl
  | ok items =>
    rw [bimap_ok, List.map_map]
    refine congrArg (fun f => Except.ok (items.map f)) (funext fun item => ?_)
    exact congrArg (Located.mk item.val) (further item.span)

theorem names_relocate (arguments : Located Text) :
    names (arguments.relocate (.shift k)) =
      bimap (Failure.relocate (.shift k)) (List.map (Located.relocate (.shift k)))
        (names arguments) := by
  refine inLine_relocate arguments fun r refused => ?_
  obtain ⟨e, cause⟩ := ArgumentList.lexical_of_names_error refused
  simp [cause]

theorem integers_relocate (arguments : Located Text) :
    integers (arguments.relocate (.shift k)) =
      bimap (Failure.relocate (.shift k)) (List.map (Located.relocate (.shift k)))
        (integers arguments) := by
  refine inLine_relocate arguments fun r refused => ?_
  rcases ArgumentList.integers_error refused with ⟨e, cause⟩ | ⟨e, cause⟩ <;> simp [cause]

theorem tooMany_relocate (first last : Located Int) :
    tooMany (first.relocate m) (last.relocate m) = (tooMany first last).relocate m :=
  congrArg (Refusal.argument .tooManyArguments) (m.cover _ _).symm

theorem getLastD_relocate {α : Type} (xs : List (Located α)) (x : Located α) :
    (xs.map (Located.relocate m)).getLastD (x.relocate m) = (xs.getLastD x).relocate m := by
  rw [List.getLastD_eq_getLast?, List.getLastD_eq_getLast?, List.getLast?_map]
  cases xs.getLast? <;> rfl

theorem boolean?_relocate (arguments : Located Text) :
    boolean? (arguments.relocate m) = bimap (Failure.relocate m) id (boolean? arguments) := by
  have same : word (arguments.relocate m) = word arguments := rfl
  simp only [boolean?, same, apply_ite (bimap _ _)]
  rfl

theorem radix?_relocate (arguments : Located Text) :
    radix? (arguments.relocate (.shift k)) =
      bimap (Failure.relocate (.shift k)) id (radix? arguments) := by
  unfold radix?
  rw [integers_relocate]
  refine bimap_bind fun items => ?_
  match items with
  | [] => rfl
  | [radix] =>
    simp only [List.map_cons, List.map_nil, apply_ite (bimap _ _)]
    rfl
  | first :: second :: rest =>
    simp only [List.map_cons, getLastD_relocate, tooMany_relocate]
    rfl

theorem extraBeside_relocate (settings : Settings) (precision : Located Int)
    (extra : Option (Located Int)) :
    extraBeside settings (precision.relocate m) (extra.map (Located.relocate m)) =
      bimap (Refusal.relocate m) id (extraBeside settings precision extra) := by
  have values : (extra.map (Located.relocate m)).map (·.val) = extra.map (·.val) := by
    cases extra <;> rfl
  have large : (extra.map (Located.relocate m)).filter (!isPrecision ·.val) =
      (extra.filter (!isPrecision ·.val)).map (Located.relocate m) := by
    rw [Option.filter_map]
    rfl
  have all : (m.place precision.span).cover
      (((extra.map (Located.relocate m)).map (·.span)).getD (m.place precision.span)) =
        m.place (precision.span.cover ((extra.map (·.span)).getD precision.span)) := by
    rw [m.cover]
    cases extra <;> rfl
  unfold extraBeside
  rw [values, large]
  dsimp only [Located.relocate] at all ⊢
  rw [all]
  by_cases outside : (!isPrecision precision.val) = true
  · refine (if_pos outside).trans ?_
    rw [if_pos outside]
    rfl
  refine (if_neg outside).trans ?_
  rw [if_neg outside]
  cases extra.filter (!isPrecision ·.val) with
  | some extra => rfl
  | none =>
    simp only [Option.map_none, apply_ite (bimap _ _)]
    rfl

variable (commands : Registry) (arguments : Located Text)

theorem failsAs_help :
    FailsAs (Failure.relocate (.shift k)) (help commands arguments)
      (help commands (arguments.relocate (.shift k))) := by
  dsimp only [help]
  rw [Located.trim_relocate,
    show (arguments.trim.relocate (.shift k)).val = arguments.trim.val from rfl]
  split
  · exact (infallible_pure _).failsAs
  · exact failsAs_checked (fun _ => rfl) (Registry.lookup_relocate commands _)
      fun d _ => (infallible_pure _).failsAs

theorem failsAs_purge :
    FailsAs (Failure.relocate (.shift k)) (purge arguments)
      (purge (arguments.relocate (.shift k))) := by
  refine failsAs_ofResult (names_relocate arguments) fun names _ => ?_
  refine infallible_get.failsAs.bind fun session => ?_
  cases session.store with
  | none => exact failsAs_throw _
  | some memory =>
    have removed (f : Text → Effect Session PUnit) (xs : List (Located Text)) :
        (xs.map (Located.relocate (.shift k))).forM (fun name => f name.val) =
          xs.forM fun name => f name.val := by
      induction xs with
      | nil => rfl
      | cons x xs ih => exact congrArg (f x.val >>= fun _ => ·) ih
    dsimp only
    rw [Located.distinct_relocate, removed fun name => modify (·.purge name)]
    refine ((infallible_forM _ fun _ => infallible_modify _).bind fun _ => ?_).failsAs
    exact infallible_pure _

theorem failsAs_reportOrSet {α : Type} {f : Failure → Failure}
    {given given' : Except Failure (Option α)} (moved : given' = bimap f id given)
    (report : Settings → Text) (set : α → Settings → Settings) :
    FailsAs f (reportOrSet given report set) (reportOrSet given' report set) := by
  refine failsAs_ofResult moved fun value? _ => ?_
  cases value? with
  | none => exact (infallible_get.bind fun _ => infallible_pure _).failsAs
  | some value => exact ((infallible_modify _).bind fun _ => infallible_pure _).failsAs

theorem failsAs_convertRadix :
    FailsAs (Failure.relocate (.shift k)) (convertRadix arguments)
      (convertRadix (arguments.relocate (.shift k))) := by
  have same : word (arguments.relocate (.shift k)) = word arguments := rfl
  unfold convertRadix
  rw [same]
  split
  · exact ((infallible_modify _).bind fun _ => infallible_pure _).failsAs
  · exact failsAs_reportOrSet (radix?_relocate arguments) _ _

theorem failsAs_setPrecision (precision : Located Int) (extra : Option (Located Int)) :
    FailsAs (Failure.relocate m) (setPrecision precision extra)
      (setPrecision (precision.relocate m) (extra.map (Located.relocate m))) := by
  refine infallible_get.failsAs.bind fun session => ?_
  refine failsAs_checked (fun _ => rfl) (extraBeside_relocate session.settings precision extra)
    fun extraPrecision _ => ?_
  refine ((infallible_modify _).bind fun _ => ?_).failsAs
  exact (infallible_modify _).bind fun _ => infallible_pure _

theorem failsAs_precision :
    FailsAs (Failure.relocate (.shift k)) (precision arguments)
      (precision (arguments.relocate (.shift k))) := by
  refine failsAs_ofResult (integers_relocate arguments) fun given _ => ?_
  match given with
  | [] => exact (infallible_get.bind fun _ => infallible_pure _).failsAs
  | [precision] => exact failsAs_setPrecision precision none
  | [precision, extra] => exact failsAs_setPrecision precision (some extra)
  | first :: second :: third :: rest =>
    simp only [List.map_cons, getLastD_relocate, tooMany_relocate]
    exact failsAs_throw _

/-- Moved arguments do the same, or are refused at the moved place. -/
theorem failsAs_run {action : Action} (builtin : ∀ run, action ≠ .added run) :
    FailsAs (Failure.relocate (.shift k)) (run action commands arguments)
      (run action commands (arguments.relocate (.shift k))) := by
  cases action with
  | help => exact failsAs_help commands arguments
  | purge => exact failsAs_purge arguments
  | radix =>
    simp only [run, radix]
    exact failsAs_reportOrSet (radix?_relocate arguments) _ _
  | convertRadix => exact failsAs_convertRadix arguments
  | precision => exact failsAs_precision arguments
  | switch s =>
    simp only [run, switch]
    exact failsAs_reportOrSet (boolean?_relocate arguments) _ _
  | added run => exact absurd rfl (builtin run)

end Command

namespace Session

variable (number : Option Int)

theorem failsAs_runCommand (c : CommandLine) :
    FailsAs (Failure.relocate (.shift k)) (runCommand Registry.default number c)
      (runCommand Registry.default number (c.relocate (.shift k))) := by
  refine failsAs_checked (fun _ => rfl) (Registry.lookup_relocate _ c.name) fun d found => ?_
  refine (Command.failsAs_run Registry.default c.arguments
    (Registry.not_added_of_lookup found)).bind fun reply => ?_
  exact ((infallible_modify _).bind fun _ => infallible_pure _).failsAs

theorem failsAs_respond {indent : Text} (blank : ∀ c ∈ indent, Text.isBlank c = true)
    (line : Text) :
    FailsAs (Failure.relocate (.shift indent.length)) (respond Registry.default number line)
      (respond Registry.default number (indent ++ line)) := by
  refine infallible_get.failsAs.bind fun session => ?_
  refine failsAs_ofResult (Line.read_indented blank line _) fun read _ => ?_
  cases read with
  | command c => exact failsAs_runCommand number c
  | expression tokens => exact failsAs_runExpression number tokens

/-- Indentation moves what is to blame and nothing else. Whatever the settings and the variables
are, with blanks in front a line is answered with the same text or refused for the same cause, and
leaves the same session. The place to blame, if there is one, is as much further to the right as
there are blanks. Only where a line has no input it is at the start of the line in either case. -/
theorem indentation_moves_blame (number : Option Int) (session : Session) (indent line : Text)
    (blank : ∀ c ∈ indent, Text.isBlank c = true) :
    (session.calculate Registry.default number (indent ++ line)).1 =
        bimap (Failure.relocate (.shift indent.length)) id
          (session.calculate Registry.default number line).1 ∧
      (session.calculate Registry.default number (indent ++ line)).2 =
        (session.calculate Registry.default number line).2 ∧
      ∀ span, (session.calculate Registry.default number line).1 =
        .error (.refused ⟨.grammar .noInput, span⟩) → span = some ⟨0, 0⟩ := by
  obtain ⟨results, sessions⟩ := Prod.mk.inj (failsAs_respond number blank line session)
  refine ⟨results, sessions, fun span noInput => ?_⟩
  -- Without blanks the line is itself, and its own refusal is what it is moved to.
  have itself := congrArg Prod.fst (failsAs_respond number (List.forall_mem_nil _) line session)
  change (session.calculate Registry.default number line).1 =
    bimap _ id (session.calculate Registry.default number line).1 at itself
  rw [noInput] at itself
  cases itself
  rfl

/-- The second argument of a command is no number, and an assignment has no input. -/
theorem indentation_moves_blame_argument :
    (∀ c ∈ [' ', '\t'], Text.isBlank c = true) ∧
    (({} : Session).calculate Registry.default (some 0) " \t/p 5 x".toList).1 =
      .error (.refused (.lexical ⟨.invalidNumber ['x'], ⟨7, 1⟩⟩)) ∧
    (({} : Session).calculate Registry.default (some 0) "/p 5 x".toList).1 =
      .error (.refused (.lexical ⟨.invalidNumber ['x'], ⟨5, 1⟩⟩)) ∧
    (({} : Session).calculate Registry.default (some 0) " \t$x =".toList).1 =
      .error (.refused (.grammar ⟨.noInput, ⟨0, 0⟩⟩)) := by
  have blank : ∀ c ∈ [' ', '\t'], Text.isBlank c = true := List.all_eq_true.mp (by decide)
  have argument := indentation_moves_blame (some 0) {} [' ', '\t'] "/p 5 x".toList blank
  have assignment := indentation_moves_blame (some 0) {} [' ', '\t'] "$x =".toList blank
  have refused : (({} : Session).calculate Registry.default (some 0) "/p 5 x".toList).1 =
      .error (.refused (.lexical ⟨.invalidNumber ['x'], ⟨5, 1⟩⟩)) := by rfl
  have noInput : (({} : Session).calculate Registry.default (some 0) "$x =".toList).1 =
      .error (.refused (.grammar ⟨.noInput, ⟨0, 0⟩⟩)) := by rfl
  refine ⟨blank, ?_, refused, ?_⟩
  · refine argument.1.trans ?_
    rw [refused]
    rfl
  · refine assignment.1.trans ?_
    rw [noInput]
    rfl

end Session
end ExactCalc
