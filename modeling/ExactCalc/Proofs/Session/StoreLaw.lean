import Mathlib.Data.List.Induction
import Mathlib.Order.Bounds.Basic
import ExactCalc.Proofs.Session.Writes

/-!
# What the store holds

The lines that were answered tell what the store holds. A variable is set when the last line that
assigned or removed it is an assignment, its value is the one that was assigned, and its mark is the
number of the last line that mentions it, whether or not that line failed.
-/
namespace ExactCalc.Session

/-- The session after lines that are answered one after the other. -/
def afterLines (commands : Registry) (number : Option Int) (session : Session) (lines : List Text) :
    Session :=
  ((answers commands number session lines).getLast?.map (·.2)).getD session

theorem afterLines_cons (commands : Registry) (number : Option Int) (session : Session)
    (line : Text) (rest : List Text) :
    afterLines commands number session (line :: rest) =
      afterLines commands (number.map (· + 1)) (session.calculate commands number line).2 rest := by
  unfold afterLines
  rw [answers, List.getLast?_cons]
  generalize answers commands (number.map (· + 1)) (session.calculate commands number line).2 rest =
    later
  cases later.getLast? with
  | none => rfl
  | some last => rfl

/-- One more line is answered from the session that the lines before it leave. -/
theorem afterLines_concat (commands : Registry) (number : Option Int) (session : Session)
    (lines : List Text) (line : Text) :
    afterLines commands number session (lines ++ [line]) =
      ((afterLines commands number session lines).calculate commands
        (number.map (· + lines.length)) line).2 := by
  induction lines generalizing number session with
  | nil =>
    rw [List.nil_append, afterLines_cons]
    cases number <;> simp [afterLines, answers]
  | cons first rest ih =>
    rw [List.cons_append, afterLines_cons, afterLines_cons, ih]
    cases number with
    | none => rfl
    | some n =>
      have same : n + 1 + (rest.length : Int) = n + ((rest.length + 1 : Nat) : Int) := by
        push_cast
        omega
      simp [same]

/-- The session after lines that are answered with the default commands, beginning without
variables. The first line has the number zero. -/
def afterRun (settings : Settings) (lines : List Text) : Session :=
  afterLines Registry.default (some 0) ⟨settings, some {}⟩ lines

/-- Something happens at a line of a run. What happens is said of the session before the line, the
number of the line and the line. -/
def Happens (settings : Settings) (lines : List Text) (event : Session → Option Int → Text → Prop)
    (i : Nat) : Prop :=
  ∃ line, lines[i]? = some line ∧ event (afterRun settings (lines.take i)) (some i) line

/-- The last line of a run at which something happens. -/
def Latest (settings : Settings) (lines : List Text) (event : Session → Option Int → Text → Prop)
    (i : Nat) : Prop :=
  IsGreatest {i | Happens settings lines event i} i

variable {settings : Settings} {lines : List Text} {line : Text}
  {event : Session → Option Int → Text → Prop} {i : Nat}

theorem afterRun_concat (settings : Settings) (lines : List Text) (line : Text) :
    afterRun settings (lines ++ [line]) =
      ((afterRun settings lines).calculate Registry.default (some lines.length) line).2 := by
  rw [afterRun, afterLines_concat, afterRun]
  simp

theorem Happens.lt (happens : Happens settings lines event i) : i < lines.length := by
  obtain ⟨line, found, -⟩ := happens
  exact (List.getElem?_eq_some_iff.mp found).1

theorem Happens.value_unique {name : Text} {v w : Rat}
    (first : Happens settings lines (Assigns name v) i)
    (second : Happens settings lines (Assigns name w) i) : v = w := by
  obtain ⟨line, found, assigns⟩ := first
  obtain ⟨line', found', assigns'⟩ := second
  cases found.symm.trans found'
  exact assigns.unique assigns'

/-- What happens in a longer run happened before its last line or happens there. -/
theorem happens_concat :
    Happens settings (lines ++ [line]) event i ↔
      Happens settings lines event i ∨
        i = lines.length ∧ event (afterRun settings lines) (some lines.length) line := by
  unfold Happens
  rcases Nat.lt_trichotomy i lines.length with earlier | rfl | later
  · rw [List.getElem?_append_left earlier, List.take_append_of_le_length earlier.le]
    simp [earlier.ne]
  · simp
  · have beyond : (lines ++ [line]).length ≤ i := by
      rw [List.length_append]
      exact later
    rw [List.getElem?_eq_none beyond, List.getElem?_eq_none later.le]
    simp [later.ne']

theorem latest_now (now : event (afterRun settings lines) (some lines.length) line) :
    Latest settings (lines ++ [line]) event lines.length := by
  refine ⟨happens_concat.mpr (.inr ⟨rfl, now⟩), fun j happens => ?_⟩
  have bound := Happens.lt happens
  rw [List.length_append, List.length_singleton] at bound
  omega

theorem latest_before (notNow : ¬event (afterRun settings lines) (some lines.length) line) :
    Latest settings (lines ++ [line]) event i ↔ Latest settings lines event i := by
  have same : {i | Happens settings (lines ++ [line]) event i} =
      {i | Happens settings lines event i} := by
    ext j
    exact happens_concat.trans (or_iff_left fun here => notNow here.2)
  rw [Latest, same, Latest]

/-- The line mentions a variable, whatever its number is. -/
def MentionsVariable (name : Text) (session : Session) (_ : Option Int) (line : Text) : Prop :=
  session.Mentions line name

/-- A line of a run is the last that writes a variable, and it assigns a value to it. -/
def LastAssigns (settings : Settings) (lines : List Text) (name : Text) (v : Rat) (i : Nat) :
    Prop :=
  Latest settings lines (Writes name) i ∧ Happens settings lines (Assigns name v) i

/-- What the entry of a variable tells about the lines of a run. -/
structure Tells (settings : Settings) (lines : List Text) (name : Text) (entry : Option Variable) :
    Prop where
  set : ∀ x, entry = some x → ∃ i k : Nat, LastAssigns settings lines name x.value i ∧
    x.lastUsed = some (k : Int) ∧ Latest settings lines (MentionsVariable name) k
  unset : entry = none → ∀ i v, ¬LastAssigns settings lines name v i

theorem tells_start (settings : Settings) (name : Text) : Tells settings [] name none where
  set _ absurdly := nomatch absurdly
  unset _ _ _ assigned := nomatch assigned.2.lt

section Line

variable {name : Text} {before after : Option Variable}

theorem tells_assigned {v : Rat}
    (assigns : Assigns name v (afterRun settings lines) (some lines.length) line) :
    Tells settings (lines ++ [line]) name (some ⟨v, some lines.length⟩) where
  set x entry := by
    cases entry
    have writes : Writes name (afterRun settings lines) (some lines.length) line :=
      .inl ⟨v, assigns⟩
    exact ⟨lines.length, lines.length,
      ⟨latest_now writes, happens_concat.mpr (.inr ⟨rfl, assigns⟩)⟩, rfl,
      latest_now assigns.mentions⟩
  unset absurdly := nomatch absurdly

theorem tells_purged (purges : Purges name (afterRun settings lines) (some lines.length) line) :
    Tells settings (lines ++ [line]) name none where
  set _ absurdly := nomatch absurdly
  unset _ i v assigned := by
    have writes : Writes name (afterRun settings lines) (some lines.length) line := .inr purges
    obtain rfl : i = lines.length := assigned.1.unique (latest_now writes)
    rcases happens_concat.mp assigned.2 with earlier | ⟨-, assigns⟩
    · exact absurd earlier.lt (Nat.lt_irrefl _)
    · exact assigns.not_purges purges

/-- A line that does not write a variable leaves the last assignment what it is. -/
theorem lastAssigns_unwritten {v : Rat}
    (unwritten : ¬Writes name (afterRun settings lines) (some lines.length) line) :
    LastAssigns settings (lines ++ [line]) name v i ↔ LastAssigns settings lines name v i := by
  refine and_congr (latest_before unwritten) (happens_concat.trans (or_iff_left ?_))
  exact fun here => unwritten (.inl ⟨v, here.2⟩)

theorem tells_unwritten (tells : Tells settings lines name before)
    (unwritten : ¬Writes name (afterRun settings lines) (some lines.length) line)
    (leaves : Leaves name (afterRun settings lines) (some lines.length) line before after) :
    Tells settings (lines ++ [line]) name after := by
  by_cases mentions : (afterRun settings lines).Mentions line name
  · have marked := leaves.mentioned unwritten mentions
    constructor
    · intro x entry
      obtain ⟨y, entered, rfl⟩ := Option.map_eq_some_iff.mp (marked.symm.trans entry)
      obtain ⟨i, -, assigned, -⟩ := tells.set y entered
      exact ⟨i, lines.length, (lastAssigns_unwritten unwritten).mpr assigned, rfl,
        latest_now mentions⟩
    · intro absent i v assigned
      have unentered := Option.map_eq_none_iff.mp (marked.symm.trans absent)
      exact tells.unset unentered i v ((lastAssigns_unwritten unwritten).mp assigned)
  · rw [leaves.untouched unwritten mentions]
    constructor
    · intro x entry
      obtain ⟨i, k, assigned, mark, latest⟩ := tells.set x entry
      exact ⟨i, k, (lastAssigns_unwritten unwritten).mpr assigned, mark,
        (latest_before mentions).mpr latest⟩
    · intro absent i v assigned
      exact tells.unset absent i v ((lastAssigns_unwritten unwritten).mp assigned)

/-- One more line keeps what the entry of a variable tells. -/
theorem Tells.concat (tells : Tells settings lines name before)
    (leaves : Leaves name (afterRun settings lines) (some lines.length) line before after) :
    Tells settings (lines ++ [line]) name after := by
  by_cases writes : Writes name (afterRun settings lines) (some lines.length) line
  · rcases writes with ⟨v, assigns⟩ | purges
    · rw [leaves.assigned v assigns]
      exact tells_assigned assigns
    · rw [leaves.purged purges]
      exact tells_purged purges
  · exact tells_unwritten tells writes leaves

end Line

/-- The store exists after every run, and its entries tell about the lines of the run. -/
theorem tells_run (settings : Settings) (lines : List Text) :
    ∃ m, (afterRun settings lines).store = some m ∧
      ∀ name, Tells settings lines name (m.get? name) := by
  induction lines using List.reverseRecOn with
  | nil => exact ⟨{}, rfl, fun name => tells_start settings name⟩
  | append_singleton lines line ih =>
    obtain ⟨m, stored, tells⟩ := ih
    obtain ⟨m', stored', leaves⟩ := leaves_of_line stored (some lines.length) line
    refine ⟨m', by rw [afterRun_concat, stored'], fun name => (tells name).concat (leaves name)⟩

/-- What the store holds after lines that are answered with the default commands, from a store that
is empty at first and under any settings. A variable is set exactly if the last line that assigned
or removed it is an assignment. Its value is then what that line assigned, and its mark the number
of the last line that mentions it. -/
theorem store_law (settings : Settings) (lines : List Text) :
    ∃ m, (afterRun settings lines).store = some m ∧ ∀ name,
      ((m.get? name).isSome ↔ ∃ i v, Latest settings lines (Writes name) i ∧
        Happens settings lines (Assigns name v) i) ∧
      ∀ i v, Latest settings lines (Writes name) i → Happens settings lines (Assigns name v) i →
        ∃ k : Nat, m.get? name = some ⟨v, some k⟩ ∧
          Latest settings lines (MentionsVariable name) k := by
  obtain ⟨m, stored, tells⟩ := tells_run settings lines
  refine ⟨m, stored, fun name => ⟨⟨fun isSet => ?_, ?_⟩, fun i v latest assigns => ?_⟩⟩
  · obtain ⟨x, entry⟩ := Option.isSome_iff_exists.mp isSet
    obtain ⟨i, -, assigned, -⟩ := (tells name).set x entry
    exact ⟨i, x.value, assigned⟩
  · rintro ⟨i, v, assigned⟩
    refine Option.isSome_iff_ne_none.mpr fun absent => ?_
    exact (tells name).unset absent i v assigned
  · cases entry : m.get? name with
    | none => exact absurd ⟨latest, assigns⟩ ((tells name).unset entry i v)
    | some x =>
      obtain ⟨value, lastUsed⟩ := x
      obtain ⟨j, k, ⟨latest', assigns'⟩, rfl, mentions⟩ := (tells name).set _ entry
      obtain rfl : i = j := latest.unique latest'
      exact ⟨k, by rw [assigns.value_unique assigns'], mentions⟩

/-- A division by zero marks the variable that the line before assigned. -/
theorem store_law_division :
    ∃ m, (afterRun {} ["$x=2".toList, "$x/0".toList]).store = some m ∧
      m.get? "$x".toList = some ⟨2, some 1⟩ := by
  obtain ⟨m, stored, law⟩ := store_law {} ["$x=2".toList, "$x/0".toList]
  have assigned : Happens {} ["$x=2".toList, "$x/0".toList] (Assigns "$x".toList 2) 0 :=
    ⟨_, rfl, ⟨_, rfl⟩, _, _, ⟨0, 2⟩, rfl, rfl, rfl, rfl⟩
  have latest : Latest {} ["$x=2".toList, "$x/0".toList] (Writes "$x".toList) 0 := by
    obtain ⟨line, found, assigns⟩ := assigned
    refine ⟨⟨line, found, .inl ⟨2, assigns⟩⟩, ?_⟩
    rintro (_ | _ | j) ⟨line, found, writes⟩
    · exact Nat.le_refl _
    · -- The second line is an expression without a target.
      cases found
      rcases writes with ⟨v, -, tokens, statement, span, asExpression, read, target, -⟩ |
        ⟨-, c, names, asCommand, -⟩
      · cases asExpression
        cases read
        cases target
      · cases asCommand
    · cases found
  have mentioned : Happens {} ["$x=2".toList, "$x/0".toList] (MentionsVariable "$x".toList) 1 :=
    ⟨_, rfl, _, ⟨0, 2⟩, rfl, by decide⟩
  obtain ⟨k, entry, mark⟩ := (law "$x".toList).2 0 2 latest assigned
  have notBefore : 1 ≤ k := mark.2 mentioned
  have notAfter : k < 2 := mark.1.lt
  obtain rfl : k = 1 := by omega
  exact ⟨m, stored, entry⟩

/-- The first variable is removed, and the last line marks the second although it fails. -/
example :
    (afterRun {} ["$x = 2".toList, "$y = $x + 1".toList, "/purgevar $x".toList,
      "$y / 0".toList]).store = some ⟨[("$y".toList, ⟨3, some 3⟩)]⟩ := by
  decide +kernel

end ExactCalc.Session
