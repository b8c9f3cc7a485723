import ExactCalc.Console
import ExactCalc.Proofs.Console.Lines
import ExactCalc.Proofs.Session.Noninterference
import ExactCalc.Proofs.Session.Ownership
import ExactCalc.Proofs.Session.Refusals

/-!
# What the console prints

The console shows the answers to the lines of its input, one after the other, in a session that
begins without variables. What it prints is told here by the answers alone: nothing for an empty
one, the text of any other, and for a failure its wording and a diagram of the line. A defect ends
the conversation, and nothing is printed of it. An input can be cut after any line feed and its
parts can be answered one after the other; a single line shows the same on its own.
-/
namespace ExactCalc

/-- The part of the line to blame, if there is one. -/
def Failure.place? : Failure → Option Span
  | refused r => r.span
  | _ => none

/-- A failure that is a defect only if a number of `n` characters has too many digits. -/
def Failure.Excused (n : Nat) (f : Failure) : Prop := ∀ d, f = .defect d → Defect.Overlong n d

theorem Failure.Within.excused {f : Failure} {n : Nat} (within : f.Within n) : f.Excused n := by
  rintro d rfl
  cases within
  assumption

theorem Command.excused_run {commands : Registry} {action : Action} (sound : action.Sound)
    {arguments : Located Text} {n : Nat} (fits : arguments.Fits n) :
    (run action commands arguments).FailsWith (Failure.Excused n) := by
  by_cases keeps : action = .purge
  · subst keeps
    intro session f failed
    rcases fails_purge fits failed with within | ⟨-, rfl⟩
    · exact within.excused
    · exact nofun
  · intro session f failed
    cases action with
    | added run => exact fun d isDefect => absurd isDefect ((sound arguments).1 session f failed d)
    | _ => exact (fails_run commands keeps nofun fits session f failed).excused

namespace Session

variable {commands : Registry} {session : Session}

/-- Where no added command has defects of its own, a line has one only if a number of it has too
many digits. -/
theorem excused_of_calculate (sound : commands.Sound) {number : Option Int} {line : Text}
    {f : Failure} (failed : (session.calculate commands number line).1 = .error f) :
    f.Excused line.length := by
  rw [calculate_eq] at failed
  cases asRead : Line.read session.settings.radix.toNat line with
  | error e =>
    rw [asRead] at failed
    cases failed
    exact (Line.within_of_read_error asRead).excused
  | ok read =>
    rw [asRead] at failed
    cases read with
    | expression tokens => exact (fails_runExpression asRead session f failed).excused
    | command c =>
      obtain ⟨-, fits⟩ := Line.fits_of_command asRead
      have fails : (runCommand commands number c).FailsWith (Failure.Excused line.length) := by
        refine Effect.failsWith_checked (fun r _ => nofun) fun d found => ?_
        have sound := sound d (Registry.mem_of_lookup found)
        exact (Command.excused_run sound fits).bind fun reply => Effect.failsWith_write _ _
      exact fails session f failed

/-- The number of a line has no part in the answer. -/
theorem answer_of_any_number (number number' : Option Int) (line : Text) :
    (session.calculate commands number line).1 = (session.calculate commands number' line).1 := by
  rw [calculate_eq, calculate_eq]
  cases Line.read session.settings.radix.toNat line with
  | error e => rfl
  | ok read =>
    cases read with
    | expression tokens => exact (runExpression_alike rfl number number' fun _ _ => rfl).1
    | command c =>
      cases found : commands.lookup c.name with
      | error r => simp [runCommand, found, Effect.checked_error]
      | ok d =>
        simp only [runCommand_eq found]
        rcases (Command.run d.action commands c.arguments).outcome session with ⟨_ | _, _⟩ <;> rfl

theorem length_answers (number : Option Int) (session : Session) (lines : List Text) :
    (session.answers commands number lines).length = lines.length := by
  induction lines generalizing number session with
  | nil => rfl
  | cons line rest ih => exact congrArg Nat.succ (ih _ _)

end Session

namespace Console

/-- A line and below it a caret and tildes, under the characters of a span. -/
def diagram (line : Text) (s : Span) : Text :=
  line ++ ['\n'] ++ List.replicate s.start ' ' ++ ['^'] ++ List.replicate (s.width - 1) '~'

/-- What is shown of the answer to a line. -/
def shown (line : Text) : Except Failure Text → Text
  | .ok output => if output = [] then [] else output ++ ['\n']
  | .error failure =>
    "Error: ".toList ++ failure.message ++ ['\n'] ++
      match failure.place? with
      | none => []
      | some s => diagram line s ++ ['\n']

/-- What is shown of the answers to lines, one after the other. -/
def transcript (lines : List Text) (answers : List (Except Failure Text)) : Text :=
  (List.zipWith shown lines answers).flatten

/-- The defect that a line is answered with, if it is. -/
def defect? : Except Failure Text → Option Defect
  | .error (.defect d) => some d
  | _ => none

/-- How lines are answered and printed from a session on. The answers before the first defect are
printed, the line that has the defect is the last one to be answered. -/
def told (commands : Registry) (number : Nat) (session : Session) (lines : List Text) :
    Conversation × Text :=
  let answers := (session.answers commands (some number) lines).map (·.1)
  let printable := answers.takeWhile fun answer => (defect? answer).isNone
  (⟨number + printable.length,
      session.afterLines commands (some number) (lines.take (printable.length + 1)),
      answers.findSome? defect?⟩,
    transcript lines printable)

theorem pointer_eq (cause : Cause) (s : Span) (line : Text) :
    (⟨cause, some s⟩ : Refusal).pointer line = diagram line s := by
  simp [Refusal.pointer, diagram]

theorem report_eq (failure : Failure) (line : Text) :
    report failure line = shown line (.error failure) := by
  unfold report shown
  cases failure with
  | refused r =>
    obtain ⟨cause, _ | s⟩ := r
    · rfl
    · change ended _ ++ ended ((⟨cause, some s⟩ : Refusal).pointer line) = _
      rw [pointer_eq]
      rfl
  | outage o => rfl
  | defect d => rfl

theorem ended_ne_nil (text : Text) : ended text ≠ [] := by simp [ended]

/-- What is printed of an answer that is no defect. -/
def printed (separate : Bool) (line : Text) : Except Failure Text → Printed
  | .ok output => printedAnswer output
  | .error failure => printedFailure separate failure line

theorem printedResult_eq (separate : Bool) (line : Text) (answer : Except Failure Text) :
    printedResult separate line answer =
      match defect? answer with
      | some d => .error d
      | none => .ok (printed separate line answer) := by
  rcases answer with failure | output
  · cases failure <;> rfl
  · rfl

theorem printed_together (separate : Bool) (line : Text) (answer : Except Failure Text) :
    (printed separate line answer).out ++ (printed separate line answer).err =
      shown line answer := by
  cases answer with
  | ok output => exact List.append_nil _
  | error failure =>
    rw [← report_eq]
    cases separate <;> simp [printed, printedFailure]

theorem printed_err (line : Text) (answer : Except Failure Text) :
    (printed true line answer).err = [] ↔ (printed true line answer).succeeded = true := by
  cases answer with
  | ok output => simp [printed, printedAnswer]
  | error failure =>
    have something : report failure line ≠ [] :=
      List.append_ne_nil_of_left_ne_nil (ended_ne_nil _) _
    change report failure line = [] ↔ false = true
    exact iff_of_false something Bool.false_ne_true

theorem printed_out (line : Text) (answer : Except Failure Text) :
    (printed false line answer).out = shown line answer := by
  have noErrors : (printed false line answer).err = [] := by cases answer <;> rfl
  rw [← printed_together false, noErrors, List.append_nil]

variable {commands : Registry} {session : Session}

/-- The first line is shown and the others are told after it, unless it has a defect. -/
theorem told_cons (number : Nat) (line : Text) (rest : List Text) :
    told commands number session (line :: rest) =
      let answered := session.calculate commands (some number) line
      match defect? answered.1 with
      | some d => (⟨number, answered.2, some d⟩, [])
      | none =>
        let later := told commands (number + 1) answered.2 rest
        (later.1, shown line answered.1 ++ later.2) := by
  have next : (some (number : Int)).map (· + 1) = some ((number + 1 : Nat) : Int) := rfl
  simp only [told, Session.answers, List.map_cons, List.takeWhile_cons, List.findSome?_cons,
    List.take_succ_cons, Session.afterLines_cons, next]
  cases defect? (session.calculate commands (some number) line).1 with
  | some d => rfl
  | none =>
    have count (n : Nat) : number + 1 + n = number + (n + 1) := by omega
    simp only [Option.isNone_none, if_true, List.length_cons, count]
    rfl

/-- Lines can be answered in two parts, the second after what the first leaves, unless that is a
defect. -/
theorem told_append (first later : List Text) (number : Nat) (session : Session) :
    told commands number session (first ++ later) =
      let before := told commands number session first
      match before.1.defect with
      | some _ => before
      | none =>
        let after := told commands before.1.number before.1.session later
        (after.1, before.2 ++ after.2) := by
  induction first generalizing number session with
  | nil => rfl
  | cons line rest ih =>
    rw [List.cons_append, told_cons, told_cons]
    dsimp only
    cases defect? (session.calculate commands (some number) line).1 with
    | some d => rfl
    | none =>
      dsimp only
      rw [ih]
      dsimp only
      split
      · rfl
      · simp

/-- A line without the characters that end it. -/
def kept (line : Text) : Text := Text.dropTrailing isLineEnd line

/-- Go on with a conversation, and keep what is printed. -/
def goOn (commands : Registry) (c : Conversation) (lines : List Text) : Conversation × Text :=
  (forIn lines c (step record commands false)).run []

/-- One line is printed as it is shown, after what was printed before. -/
theorem run_step (number : Nat) (line printed : Text) :
    (step record commands false line ⟨number, session, none⟩).run printed =
      let answered := session.calculate commands (some number) (kept line)
      match defect? answered.1 with
      | some d => (.done ⟨number, answered.2, some d⟩, printed)
      | none =>
        (.yield ⟨number + 1, answered.2, none⟩, printed ++ shown (kept line) answered.1) := by
  unfold step runLine
  dsimp only
  rw [← kept, printedResult_eq]
  rcases session.calculate commands (some number) (kept line) with ⟨answer, after⟩
  dsimp only
  cases defect? answer with
  | some d => rfl
  | none =>
    change (_, printed ++ _ ++ []) = _
    rw [printed_out, List.append_nil]

/-- Lines are printed as they are told. -/
theorem run_forIn (lines : List Text) (number : Nat) (session : Session) (printed : Text) :
    (forIn lines (⟨number, session, none⟩ : Conversation)
        (step record commands false)).run printed =
      let conversation := told commands number session (lines.map kept)
      (conversation.1, printed ++ conversation.2) := by
  induction lines generalizing number session printed with
  | nil => exact Prod.ext rfl (List.append_nil _).symm
  | cons line rest ih =>
    rw [List.forIn_cons, StateT.run_bind, run_step, List.map_cons, told_cons]
    dsimp only
    cases defect? (session.calculate commands (some number) (kept line)).1 with
    | some d => exact Prod.ext rfl (List.append_nil _).symm
    | none => exact (ih _ _ _).trans (by simp)

theorem goOn_eq (lines : List Text) (number : Nat) (session : Session) :
    goOn commands ⟨number, session, none⟩ lines =
      told commands number session (lines.map kept) :=
  run_forIn lines number session []

/-- All lines of an input are told, beginning without variables. -/
theorem converse_eq (commands : Registry) (settings : Settings) (input : Text) :
    converse commands false settings input =
      told commands 0 ⟨settings, some {}⟩ ((Text.lines input).map kept) :=
  run_forIn (Text.lines input) 0 ⟨settings, some {}⟩ []

/-- Lines without defects are all printed. -/
theorem told_of_no_defect {number : Nat} {lines : List Text}
    (sound : ∀ answer ∈ (session.answers commands (some number) lines).map (·.1),
      defect? answer = none) :
    told commands number session lines =
      (⟨number + lines.length, session.afterLines commands (some number) lines, none⟩,
        transcript lines ((session.answers commands (some number) lines).map (·.1))) := by
  have all : ((session.answers commands (some number) lines).map (·.1)).takeWhile
      (fun answer => (defect? answer).isNone) =
        (session.answers commands (some number) lines).map (·.1) :=
    List.takeWhile_eq_self_iff.mpr fun answer member => Option.isNone_iff_eq_none.mpr
      (sound answer member)
  have length : ((session.answers commands (some number) lines).map (·.1)).length =
      lines.length := by rw [List.length_map, Session.length_answers]
  unfold told
  dsimp only
  rw [all, length, List.take_of_length_le (Nat.le_succ _), List.findSome?_eq_none_iff.mpr sound]

/-- Where no added command has defects of its own, short lines have none. -/
theorem defect?_of_short (sound : commands.Sound) {lines : List Text}
    (short : ∀ line ∈ lines, line.length ≤ Positional.digitLimit) (number : Option Int)
    (session : Session) :
    ∀ answer ∈ (session.answers commands number lines).map (·.1), defect? answer = none := by
  induction lines generalizing number session with
  | nil => nofun
  | cons line rest ih =>
    rw [List.forall_mem_cons] at short
    rw [Session.answers, List.map_cons, List.forall_mem_cons]
    refine ⟨?_, ih short.2 _ _⟩
    rcases answered : (session.calculate commands number line).1 with (failure | output)
    · have excused := Session.excused_of_calculate sound answered
      cases failure with
      | defect d => exact absurd (excused d rfl).digitLimit_lt (not_lt.mpr short.1)
      | refused r => rfl
      | outage o => rfl
    · rfl

theorem kept_eq_self {line : Text} (whole : '\n' ∉ line) (noReturn : line.getLast? ≠ some '\r') :
    kept line = line := by
  rcases List.eq_nil_or_concat line with rfl | ⟨before, c, rfl⟩
  · rfl
  · have noEnd : isLineEnd c = false := by
      simp only [List.concat_eq_append, List.mem_append, not_or, List.mem_singleton,
        List.getLast?_concat, ne_eq, Option.some.injEq] at whole noReturn
      simp [isLineEnd, noReturn, Ne.symm whole.2]
    simp [kept, Text.dropTrailing, noEnd]

/-- An input of one line tells the answer to this line, on whatever number it is given. -/
theorem converse_alone (number : Option Int) (settings : Settings) {line ending : Text}
    (whole : '\n' ∉ line) (noReturn : line.getLast? ≠ some '\r')
    (ends : ending = [] ∨ ending = ['\n']) :
    let answer := ((⟨settings, some {}⟩ : Session).calculate commands number line).1
    let conversation := converse commands false settings (line ++ ending)
    conversation.1.defect = defect? answer ∧
      conversation.2 = if (defect? answer).isSome then [] else shown line answer := by
  intro answer conversation
  have cut : Text.lines (line ++ ending) = [line] ∨
      line = [] ∧ Text.lines (line ++ ending) = [] := by
    rcases ends with rfl | rfl
    · rw [List.append_nil, Text.lines_last whole]
      by_cases empty : line = [] <;> simp [empty]
    · exact .inl (Text.lines_complete whole [])
  have tells : conversation = told commands 0 ⟨settings, some {}⟩
      ((Text.lines (line ++ ending)).map kept) := converse_eq commands settings _
  have same : answer = ((⟨settings, some {}⟩ : Session).calculate commands (some 0) line).1 :=
    Session.answer_of_any_number number (some 0) line
  rcases cut with one | ⟨rfl, empty⟩
  · rw [tells, one, List.map_singleton, kept_eq_self whole noReturn, told_cons, same]
    dsimp only
    rcases defect? ((⟨settings, some {}⟩ : Session).calculate commands (some 0) line).1 with _ | d
    · exact ⟨rfl, List.append_nil _⟩
    · exact ⟨rfl, rfl⟩
  · rw [tells, empty, same]
    exact ⟨rfl, rfl⟩

/-- What the console prints is told by the answers to its lines, which are numbered from zero and
answered in one session. With the lines as they are cut at line feeds and without what else ends
them, an input prints the transcript of the answers, up to the first line that has a defect, which
ends the conversation. No line has one, and the settings stay valid, if all lines are short and the
added commands are sound. An input prints what its first lines print and then, unless these have a
defect, what the state after them prints for the rest. A line alone prints what an input of that
line prints, and it prints no error exactly if it succeeds, or it has the defect that ends the
conversation. -/
theorem console_tells_answers (commands : Registry) (settings : Settings) :
    (∀ input lines, Text.AreLines input lines →
      let start : Session := ⟨settings, some {}⟩
      let answers := (start.answers commands (some 0) (lines.map kept)).map (·.1)
      converse commands false settings input = told commands 0 start (lines.map kept) ∧
        (commands.Sound → settings.Valid →
          (∀ line ∈ lines.map kept, line.length ≤ Positional.digitLimit) →
          ∃ final, final = start.afterLines commands (some 0) (lines.map kept) ∧
            final.settings.Valid ∧
            converse commands false settings input =
              (⟨lines.length, final, none⟩, transcript (lines.map kept) answers))) ∧
      (∀ first rest, first.getLast? = some '\n' →
        let before := converse commands false settings first
        converse commands false settings (first ++ rest) =
          match before.1.defect with
          | some _ => before
          | none =>
            let after := goOn commands before.1 (Text.lines rest)
            (after.1, before.2 ++ after.2)) ∧
      ∀ number line ending, '\n' ∉ line → line.getLast? ≠ some '\r' →
        ending = [] ∨ ending = ['\n'] →
        let conversation := converse commands false settings (line ++ ending)
        match (runLine commands number true line ⟨settings, some {}⟩).1 with
        | .ok p => conversation.1.defect = none ∧ conversation.2 = p.out ++ p.err ∧
            (p.err = [] ↔ p.succeeded = true)
        | .error d => conversation.1.defect = some d ∧ conversation.2 = [] := by
  refine ⟨fun input lines areLines => ?_, fun first rest ends => ?_,
    fun number line ending whole noReturn ends => ?_⟩
  · intro start answers
    have tells : converse commands false settings input =
        told commands 0 start (lines.map kept) := by
      rw [areLines.eq_lines]
      exact converse_eq commands settings input
    refine ⟨tells, fun sound valid short =>
      ⟨_, rfl, Session.valid_of_lines sound valid _ _, ?_⟩⟩
    rw [tells, told_of_no_defect (defect?_of_short sound short _ _), Nat.zero_add, List.length_map]
    rfl
  · intro before
    have same : before = told commands 0 ⟨settings, some {}⟩ ((Text.lines first).map kept) :=
      converse_eq commands settings first
    rw [converse_eq, Text.lines_append ends, List.map_append, told_append, ← same]
    obtain ⟨⟨number, session, defect⟩, printed⟩ := before
    cases defect with
    | some d => rfl
    | none =>
      dsimp only
      rw [goOn_eq]
  · intro conversation
    have ran : (runLine commands number true line ⟨settings, some {}⟩).1 =
        printedResult true line
          ((⟨settings, some {}⟩ : Session).calculate commands number line).1 := rfl
    obtain ⟨defect, prints⟩ : conversation.1.defect = _ ∧ conversation.2 = _ :=
      converse_alone number settings whole noReturn ends
    rw [ran, printedResult_eq, defect, prints]
    cases defect? ((⟨settings, some {}⟩ : Session).calculate commands number line).1 with
    | some d => exact ⟨rfl, rfl⟩
    | none => exact ⟨rfl, (printed_together true line _).symm, printed_err line _⟩

/-- An assignment with a carriage return at its end and a division by zero, which is shown the same
alone. -/
theorem console_tells_answers_division :
    (converse .default false {} "$x=2\r\n$x/0\n".toList).2 =
        "2\nError: Cannot divide by 0\n$x/0\n  ^\n".toList ∧
      (converse .default false {} "1/0".toList).2 =
        "Error: Cannot divide by 0\n1/0\n ^\n".toList := by
  have tells := console_tells_answers .default {}
  have areLines : Text.AreLines "$x=2\r\n$x/0\n".toList ["$x=2\r".toList, "$x/0".toList] :=
    ⟨["$x=2\r".toList, "$x/0".toList], [], by decide, by decide, rfl, rfl⟩
  obtain ⟨final, -, -, printed⟩ := (tells.1 _ _ areLines).2 Registry.default_sound
    ⟨by decide, nofun, by decide, by decide, by decide⟩ (by decide)
  have alone := tells.2.2 none "1/0".toList [] (by decide) (by decide) (.inl rfl)
  have ran : (runLine .default none true "1/0".toList ⟨{}, some {}⟩).1 =
      .ok ⟨false, [], "Error: Cannot divide by 0\n1/0\n ^\n".toList⟩ := by decide +kernel
  rw [ran] at alone
  refine ⟨(congrArg Prod.snd printed).trans ?_, alone.2.1⟩
  dsimp only
  decide +kernel

/-- An added command that puts blame on offsets that are no span ends the conversation. Neither its
line nor the next is printed, although the next has an answer. -/
theorem misplaced_blame_ends_conversation :
    ∃ (commands : Registry) (start : Session), start = ⟨{}, some {}⟩ ∧ start.settings.Valid ∧
      Registry.default.register ⟨['b'], [], [], [],
        .added fun _ => throw (.defect (.misplaced ⟨3, -1⟩))⟩ = .ok commands ∧
      Text.AreLines "/b\n2\n".toList ["/b".toList, "2".toList] ∧
      transcript ["/b".toList, "2".toList]
          ((start.answers commands (some 0) ["/b".toList, "2".toList]).map (·.1)) =
        "Error: invalid position: start=3 width=-1\n2\n".toList ∧
      (converse commands false start.settings "/b\n2\n".toList).2 = [] := by
  refine ⟨_, _, rfl, ⟨by decide, nofun, by decide, by decide, by decide⟩, rfl,
    ⟨["/b".toList, "2".toList], [], by decide, by decide, rfl, rfl⟩, ?_, ?_⟩
  · decide +kernel
  · decide +kernel

end Console
end ExactCalc
