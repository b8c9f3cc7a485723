import ExactCalc.Proofs.Lexeme.Line
import ExactCalc.Proofs.Reading.Places
import ExactCalc.Proofs.Session.Commands
import ExactCalc.Proofs.Session.Purging

/-!
# What commands refuse

A command reads its arguments from the end of its line, and what it refuses of them has its place
in the line. The lists of arguments are read from a text of their own and moved to where the text
stands, so that the places are followed through the tokens of the text, the signs before integers
and the move. Only the command that removes variables refuses without a place, when there is no
store. A command that fails in another way has been given a number of too many digits.
-/
namespace ExactCalc

theorem Span.stop_cover_le {a b : Span} {n : Nat} (first : a.stop ≤ n) (second : b.stop ≤ n) :
    (a.cover b).stop ≤ n := by
  rw [stop_cover]
  exact Nat.max_le.mpr ⟨first, second⟩

/-- A refusal that blames a stretch of the first `n` characters. -/
structure Refusal.Inside (n : Nat) (r : Refusal) : Prop where
  ranked : ∀ op, r.cause ≠ .grammar (.unrankedOperator op)
  placed : ∃ s ∈ r.span, s.stop ≤ n

theorem Refusal.Inside.shift {r : Refusal} {n k m : Nat} (inside : r.Inside n)
    (bound : k + n ≤ m) : (r.shift k).Inside m := by
  obtain ⟨ranked, s, placed, stop⟩ := inside
  refine ⟨ranked, s.shift k, by simp [Refusal.shift, Option.mem_def.mp placed], ?_⟩
  simp only [Span.stop, Span.shift] at *
  omega

theorem Refusal.inside_lexical {e : Located LexicalError} {n : Nat} (stop : e.span.stop ≤ n) :
    (Refusal.lexical e).Inside n :=
  ⟨nofun, e.span, rfl, stop⟩

theorem Refusal.inside_argument {e : ArgumentError} {s : Span} {n : Nat} (stop : s.stop ≤ n) :
    (Refusal.argument e s).Inside n :=
  ⟨nofun, s, rfl, stop⟩

/-- A number in `n` characters has too many digits. -/
def Defect.Overlong (n : Nat) : Defect → Prop
  | .unreadable digits => Positional.digitLimit < digits ∧ digits ≤ n
  | .unwritable => Positional.digitLimit < n
  | _ => False

theorem Defect.Overlong.digitLimit_lt {d : Defect} {n : Nat} (overlong : d.Overlong n) :
    Positional.digitLimit < n := by
  cases d with
  | unreadable digits => exact overlong.1.trans_le overlong.2
  | unwritable => exact overlong
  | _ => exact overlong.elim

/-- A failure is a refusal that blames a stretch of the first `n` characters, or it is the defect of
a number there that has too many digits. -/
inductive Failure.Within (n : Nat) : Failure → Prop where
  | refused {r : Refusal} (inside : r.Inside n) : Within n (.refused r)
  | overlong {d : Defect} (overlong : d.Overlong n) : Within n (.defect d)

theorem Failure.Within.shift {f : Failure} {n k m : Nat} (within : f.Within n)
    (bound : k + n ≤ m) : (f.shift k).Within m := by
  cases within with
  | refused inside => exact .refused (inside.shift bound)
  | @overlong d overlong =>
    refine .overlong ?_
    cases d with
    | unreadable digits => exact ⟨overlong.1, by have := overlong.2; omega⟩
    | unwritable => exact Nat.lt_of_lt_of_le overlong (by omega)
    | _ => exact overlong

/-- A text with its place in the first `n` characters of a line. -/
structure Located.Fits (n : Nat) (x : Located Text) : Prop where
  width : x.span.width = x.val.length
  stop : x.span.stop ≤ n

theorem Located.Fits.trim {x : Located Text} {n : Nat} (fits : x.Fits n) : x.trim.Fits n := by
  have split := congrArg List.length
    (List.takeWhile_append_dropWhile (p := Text.isBlank) (l := x.val))
  have shorter : (Text.trim Text.isBlank x.val).length ≤ (x.val.dropWhile Text.isBlank).length := by
    simpa [Text.trim, Text.dropTrailing] using
      List.length_dropWhile_le Text.isBlank (x.val.dropWhile Text.isBlank).reverse
  obtain ⟨width, stop⟩ := fits
  rw [List.length_append] at split
  simp only [Span.stop] at stop
  unfold Located.trim
  split
  next nothing =>
    refine ⟨rfl, ?_⟩
    simp only [Span.stop]
    omega
  next kept =>
    refine ⟨rfl, ?_⟩
    simp only [Span.stop]
    omega

namespace Line

variable {radix : Nat} {line : Text}

/-- A lexeme that is not read is to blame, or has too many digits. -/
theorem within_of_unreads {x : Located Text} {f : Failure} (lexeme : Text.IsLexeme line x)
    (unread : Token.Unreads radix x f) : f.Within line.length := by
  have stop := lexeme.stop_le
  cases unread with
  | meaningless => exact .refused (Refusal.inside_lexical stop)
  | overlong long =>
    refine .overlong ⟨Literal.lt_digitCount_of_not_fits long, ?_⟩
    have length := Literal.digitCount_le_length x.val
    rw [lexeme.text, Span.slice, List.length_take] at length
    rw [Span.stop] at stop
    rw [lexeme.text, Span.slice]
    omega

theorem within_of_read_error {f : Failure} (failed : Line.read radix line = .error f) :
    f.Within line.length := by
  unfold Line.read at failed
  split at failed
  next e foreign =>
    cases failed
    obtain ⟨i, first, rfl⟩ := Option.map_eq_some_iff.mp foreign
    have bound := (List.findIdx?_eq_some_iff_getElem.mp first).1
    exact .refused (Refusal.inside_lexical bound)
  next => cases failed
  next =>
    obtain ⟨x, member, unread⟩ := exists_of_mapM_eq_error (map_eq_error_iff.mp failed)
    exact within_of_unreads (Text.isLexeme_of_mem member) (Token.ofLexeme_eq_error.mp unread)

/-- The name and the arguments of a command have their places in its line. -/
theorem fits_of_command {c : CommandLine} (read : Line.read radix line = .ok (.command c)) :
    c.name.span.stop ≤ line.length ∧ c.arguments.Fits line.length := by
  obtain ⟨indent, gap, whole, name, arguments⟩ := exists_command_parts read
  have width := congrArg List.length whole
  rw [List.length_append, List.length_cons, List.length_append, List.length_append] at width
  refine ⟨?_, by rw [arguments], ?_⟩
  · simp only [name, Span.stop]
    omega
  · simp only [arguments, Span.stop]
    omega

end Line

/-- What a list of arguments is read as has its place in the first `n` characters, and so has what
it fails for. -/
structure Placed {α : Type} (n : Nat) (result : Except Failure (List (Located α))) : Prop where
  failed : ∀ f, result = .error f → f.Within n
  found : ∀ items, result = .ok items → ∀ item ∈ items, item.span.stop ≤ n

namespace ArgumentList

theorem nameOf_places {source : Text} {t : Located Token} {n : Nat} (stop : t.span.stop ≤ n) :
    (∀ f, nameOf source t = .error f → f.Within n) ∧
      ∀ name, nameOf source t = .ok name → name.span.stop ≤ n := by
  unfold nameOf
  split
  next => exact ⟨nofun, by rintro _ ⟨⟩; exact stop⟩
  next => exact ⟨by rintro _ ⟨⟩; exact .refused (Refusal.inside_lexical stop), nofun⟩

theorem within_asVariable {f : Failure} {n : Nat} (within : f.Within n) :
    (asVariable f).Within n := by
  unfold asVariable
  split
  next =>
    obtain ⟨-, placed⟩ : Refusal.Inside n _ := by
      cases within
      assumption
    exact .refused ⟨nofun, placed⟩
  next => exact within

theorem placed_names (source : Text) : Placed source.length (names source) := by
  unfold names
  cases read : Line.read 10 source with
  | error f =>
    refine ⟨?_, nofun⟩
    rintro _ ⟨⟩
    exact within_asVariable (Line.within_of_read_error read)
  | ok line =>
    cases line with
    | command c =>
      refine ⟨?_, nofun⟩
      rintro _ ⟨⟩
      exact .refused (Refusal.inside_lexical (Line.fits_of_command read).1)
    | expression tokens =>
      have inside := fun t => Text.stop_le_of_mem (Line.read_eq_expression.mp read).2.2 (t := t)
      refine ⟨fun f failed => ?_, fun items found item member => ?_⟩
      · obtain ⟨t, listed, blamed⟩ := exists_of_mapM_eq_error failed
        exact (nameOf_places (inside t listed)).1 f blamed
      · have each := mapM_eq_ok_iff.mp found
        obtain ⟨i, bound, rfl⟩ := List.mem_iff_getElem.mp member
        have bound' : i < tokens.length := each.length_eq ▸ bound
        have named := each.get bound' bound
        simp only [List.get_eq_getElem] at named
        exact (nameOf_places (inside _ (List.getElem_mem bound'))).2 _ named

theorem magnitude_fails {value : Rat} {span : Span} {n : Nat} (stop : span.stop ≤ n)
    (writable : IsWritable value ∨ Positional.digitLimit < n) {f : Failure}
    (failed : magnitude value span = .error f) : f.Within n := by
  unfold magnitude at failed
  split at failed
  next =>
    split at failed
    next =>
      cases failed
      exact .refused (Refusal.inside_argument stop)
    next unwritable =>
      cases failed
      exact .overlong (writable.resolve_left unwritable)
  split at failed
  next =>
    cases failed
    exact .refused (Refusal.inside_argument stop)
  next => cases failed

/-- A sign that has been read is blamed alone or together with what follows, and so is an integer
covered together with its sign. -/
theorem signedIntegers_places {n : Nat} (sign : Option Span) (tokens : List (Located Token))
    (signInside : ∀ s ∈ sign, s.stop ≤ n) (inside : ∀ t ∈ tokens, t.span.stop ≤ n)
    (writable : ∀ v s, ⟨.number v, s⟩ ∈ tokens → IsWritable v ∨ Positional.digitLimit < n) :
    (∀ f, signedIntegers sign tokens = .error f → f.Within n) ∧
      ∀ items, signedIntegers sign tokens = .ok items → ∀ item ∈ items, item.span.stop ≤ n := by
  fun_induction signedIntegers sign tokens with
  | case1 s =>
    refine ⟨?_, nofun⟩
    rintro _ ⟨⟩
    exact .refused (Refusal.inside_argument (signInside s rfl))
  | case2 => exact ⟨nofun, by rintro _ ⟨⟩; nofun⟩
  | case3 span rest s =>
    refine ⟨?_, nofun⟩
    rintro _ ⟨⟩
    have stop := Span.stop_cover_le (signInside s rfl) (inside _ List.mem_cons_self)
    exact .refused (Refusal.inside_argument stop)
  | case4 span rest ih =>
    refine ih ?_ (fun t member => inside t (List.mem_cons_of_mem _ member))
      fun v s member => writable v s (List.mem_cons_of_mem _ member)
    rintro s ⟨⟩
    exact inside _ List.mem_cons_self
  | case5 sign value span rest ih =>
    have here : span.stop ≤ n := inside _ List.mem_cons_self
    obtain ⟨fails, found⟩ := ih nofun (fun t member => inside t (List.mem_cons_of_mem _ member))
      fun v s member => writable v s (List.mem_cons_of_mem _ member)
    refine ⟨fun f failed => ?_, fun items done => ?_⟩
    · rcases bind_eq_error_iff.mp failed with early | ⟨m, -, late⟩
      · exact magnitude_fails here (writable value span List.mem_cons_self) early
      rcases bind_eq_error_iff.mp late with later | ⟨others, -, nothing⟩
      · exact fails f later
      · cases nothing
    · obtain ⟨m, -, done⟩ := bind_eq_ok_iff.mp done
      obtain ⟨others, later, built⟩ := bind_eq_ok_iff.mp done
      cases built
      rintro item (_ | ⟨_, member⟩)
      · cases sign with
        | none => exact here
        | some s => exact Span.stop_cover_le (signInside s rfl) here
      · exact found others later item member
  | case6 =>
    refine ⟨?_, nofun⟩
    rintro _ ⟨⟩
    exact .refused (Refusal.inside_argument (inside _ List.mem_cons_self))

/-- Signs and integers are refused as arguments. -/
theorem argument_of_signedIntegers_error {sign : Option Span} {tokens : List (Located Token)}
    {r : Refusal} (failed : signedIntegers sign tokens = .error (.refused r)) :
    ∃ e, r.cause = .argument e := by
  fun_induction signedIntegers sign tokens with
  | case4 span rest ih => exact ih failed
  | case5 sign value span rest ih =>
    rcases bind_eq_error_iff.mp failed with early | ⟨m, -, late⟩
    · unfold magnitude at early
      split at early
      next =>
        split at early <;> cases early
        exact ⟨_, rfl⟩
      split at early <;> cases early
      exact ⟨_, rfl⟩
    rcases bind_eq_error_iff.mp late with later | ⟨others, -, nothing⟩
    · exact ih later
    · cases nothing
  | case2 => cases failed
  | _ =>
    cases failed
    exact ⟨_, rfl⟩

/-- A number of a short text has few enough digits to be written. -/
theorem writable_of_tokens {source : Text} {tokens : List (Located Token)}
    (read : source.tokens 10 = .ok tokens) {v : Rat} {s : Span}
    (member : ⟨.number v, s⟩ ∈ tokens) :
    IsWritable v ∨ Positional.digitLimit < source.length := by
  rcases Nat.lt_or_ge Positional.digitLimit source.length with long | short
  · exact .inr long
  obtain ⟨x, listed, -, denotes⟩ := exists_of_forall₂ (Text.tokens_eq_ok.mp read).2.flip _ member
  have stop := (Text.isLexeme_of_mem listed).stop_le
  have length : x.val.length ≤ source.length := by
    rw [(Text.isLexeme_of_mem listed).text, Span.slice, List.length_take, List.length_drop]
    omega
  exact .inl ((Token.denotes_number.mp denotes).lt_weight (by decide) (length.trans short))

/-- Integers among arguments are in radix ten. -/
theorem placed_integers (source : Text) : Placed source.length (integers 10 source) := by
  unfold integers
  cases read : Line.read 10 source with
  | error f =>
    refine ⟨?_, nofun⟩
    rintro _ ⟨⟩
    exact Line.within_of_read_error read
  | ok line =>
    cases line with
    | command c =>
      refine ⟨?_, nofun⟩
      rintro _ ⟨⟩
      exact .refused (Refusal.inside_lexical (Line.fits_of_command read).1)
    | expression tokens =>
      have lexed := (Line.read_eq_expression.mp read).2.2
      obtain ⟨fails, found⟩ := signedIntegers_places none tokens nofun
        (fun t => Text.stop_le_of_mem lexed (t := t)) fun v s => writable_of_tokens lexed
      exact ⟨fails, found⟩

end ArgumentList

theorem Registry.inside_lookup {commands : Registry} {word : Located Text} {n : Nat}
    (place : word.span.stop ≤ n) {r : Refusal} (refused : commands.lookup word = .error r) :
    r.Inside n := by
  unfold lookup at refused
  split at refused
  next => cases refused
  next =>
    cases refused
    exact Refusal.inside_argument place

namespace Command

open Effect

variable {n : Nat} {arguments : Located Text}

/-- What is read from a text of its own is moved to where the text stands. -/
theorem placed_inLine {α : Type} {read : Text → Except Failure (List (Located α))}
    (fits : arguments.Fits n) (placed : Placed arguments.val.length (read arguments.val)) :
    Placed n (inLine arguments read) := by
  have bound : arguments.span.start + arguments.val.length ≤ n := fits.width ▸ fits.stop
  unfold inLine
  cases done : read arguments.val with
  | error f =>
    refine ⟨?_, nofun⟩
    rintro _ ⟨⟩
    exact (placed.failed f done).shift bound
  | ok items =>
    refine ⟨nofun, ?_⟩
    rintro _ ⟨⟩ item member
    obtain ⟨own, listed, rfl⟩ := List.mem_map.mp member
    have stop := placed.found items done own listed
    simp only [Located.shift, Span.shift, Span.stop] at stop ⊢
    omega

theorem placed_names (fits : arguments.Fits n) : Placed n (names arguments) :=
  placed_inLine fits (ArgumentList.placed_names arguments.val)

theorem placed_integers (fits : arguments.Fits n) : Placed n (integers arguments) :=
  placed_inLine fits (ArgumentList.placed_integers arguments.val)

theorem inside_tooMany {first last : Located Int} (begins : first.span.stop ≤ n)
    (ends : last.span.stop ≤ n) : (tooMany first last).Inside n :=
  Refusal.inside_argument (Span.stop_cover_le begins ends)

theorem boolean?_fails (fits : arguments.Fits n) {f : Failure}
    (failed : boolean? arguments = .error f) : f.Within n := by
  unfold boolean? at failed
  split at failed
  next => cases failed
  split at failed
  next => cases failed
  split at failed
  next => cases failed
  next =>
    cases failed
    exact .refused (Refusal.inside_argument fits.stop)

theorem radix?_fails (fits : arguments.Fits n) {f : Failure}
    (failed : radix? arguments = .error f) : f.Within n := by
  obtain ⟨early, found⟩ := placed_integers fits
  rcases bind_eq_error_iff.mp failed with failed | ⟨items, done, failed⟩
  · exact early f failed
  have places := found items done
  match items with
  | [] => cases failed
  | [radix] =>
    have place : radix.span.stop ≤ n := places radix List.mem_cons_self
    dsimp only at failed
    split at failed
    next =>
      cases failed
      exact .refused (Refusal.inside_argument place)
    split at failed
    next =>
      cases failed
      exact .refused (Refusal.inside_argument place)
    next => cases failed
  | first :: second :: rest =>
    cases failed
    exact .refused (inside_tooMany (places first List.mem_cons_self)
      (places _ (List.mem_cons_of_mem _ List.getLastD_mem_cons)))

theorem inside_extraBeside {settings : Settings} {precision : Located Int}
    {extra : Option (Located Int)} (place : precision.span.stop ≤ n)
    (places : ∀ e ∈ extra, e.span.stop ≤ n) {r : Refusal}
    (refused : extraBeside settings precision extra = .error r) : r.Inside n := by
  have all : (precision.span.cover ((extra.map (·.span)).getD precision.span)).stop ≤ n := by
    refine Span.stop_cover_le place ?_
    cases extra with
    | none => exact place
    | some e => exact places e rfl
  unfold extraBeside at refused
  dsimp only at refused
  split at refused
  next =>
    cases refused
    exact Refusal.inside_argument place
  split at refused
  next e found =>
    cases refused
    exact Refusal.inside_argument (places e (Option.filter_eq_some_iff.mp found).1)
  split at refused
  next =>
    cases refused
    exact Refusal.inside_argument all
  next => cases refused

variable (commands : Registry)

theorem fails_help (fits : arguments.Fits n) :
    (help commands arguments).FailsWith (Failure.Within n) := by
  dsimp only [help]
  split
  · exact (infallible_pure _).failsWith
  · exact failsWith_checked
      (fun r refused => .refused (Registry.inside_lookup fits.trim.stop refused))
      fun _ _ => (infallible_pure _).failsWith

theorem fails_reportOrSet {α : Type} {pre : Failure → Prop} {given : Except Failure (Option α)}
    (fails : ∀ f, given = .error f → pre f) (report : Settings → Text)
    (set : α → Settings → Settings) : (reportOrSet given report set).FailsWith pre := by
  refine failsWith_ofResult fails fun value? _ => ?_
  cases value? with
  | none => exact failsWith_answer _
  | some value => exact failsWith_write _ _

theorem fails_radix (fits : arguments.Fits n) : (radix arguments).FailsWith (Failure.Within n) :=
  fails_reportOrSet (fun _ => radix?_fails fits) _ _

theorem fails_convertRadix (fits : arguments.Fits n) :
    (convertRadix arguments).FailsWith (Failure.Within n) := by
  unfold convertRadix
  split
  · exact failsWith_write _ _
  · exact fails_reportOrSet (fun _ => radix?_fails fits) _ _

theorem fails_setPrecision {precision : Located Int} {extra : Option (Located Int)}
    (place : precision.span.stop ≤ n) (places : ∀ e ∈ extra, e.span.stop ≤ n) :
    (setPrecision precision extra).FailsWith (Failure.Within n) := by
  refine infallible_get.failsWith.bind fun session => ?_
  refine failsWith_checked (fun r refused => .refused (inside_extraBeside place places refused))
    fun _ _ => ?_
  exact ((infallible_modify _).bind fun _ =>
    (infallible_modify _).bind fun _ => infallible_pure _).failsWith

theorem fails_precision (fits : arguments.Fits n) :
    (precision arguments).FailsWith (Failure.Within n) := by
  obtain ⟨early, found⟩ := placed_integers fits
  refine failsWith_ofResult early fun items done => ?_
  have places := found items done
  match items with
  | [] => exact failsWith_answer _
  | [precision] => exact fails_setPrecision (places _ List.mem_cons_self) nofun
  | [precision, extra] =>
    refine fails_setPrecision (places _ List.mem_cons_self) ?_
    rintro _ ⟨⟩
    exact places _ (by simp)
  | first :: second :: third :: rest =>
    have last : rest.getLastD third ∈ first :: second :: third :: rest :=
      List.mem_cons_of_mem _ (List.mem_cons_of_mem _ List.getLastD_mem_cons)
    exact failsWith_throw
      (.refused (inside_tooMany (places first List.mem_cons_self) (places _ last)))

theorem fails_switch (s : Switch) (fits : arguments.Fits n) :
    (switch s arguments).FailsWith (Failure.Within n) :=
  fails_reportOrSet (fun _ => boolean?_fails fits) _ _

/-- What a command that is not for removing variables fails for has its place in the line. -/
theorem fails_run {action : Action} (keeps : action ≠ .purge)
    (builtin : ∀ run, action ≠ .added run) (fits : arguments.Fits n) :
    (run action commands arguments).FailsWith (Failure.Within n) := by
  cases action with
  | help => exact fails_help commands fits
  | purge => exact absurd rfl keeps
  | radix => exact fails_radix fits
  | convertRadix => exact fails_convertRadix fits
  | precision => exact fails_precision fits
  | switch s => exact fails_switch s fits
  | added run => exact absurd rfl (builtin run)

/-- The command that removes variables also refuses where there is no store, and then names no
place. -/
theorem fails_purge (fits : arguments.Fits n) {session : Session} {f : Failure}
    (failed : ((purge arguments).outcome session).1 = .error f) :
    f.Within n ∨ session.store = none ∧ f = .refused ⟨.capability .noVariableStore, none⟩ := by
  cases read : names arguments with
  | error e =>
    have same : f = e := by
      simp only [purge, outcome_bind, outcome_ofResult, read] at failed
      exact (Except.error.inj failed).symm
    exact .inl (same ▸ (placed_names fits).failed e read)
  | ok names =>
    cases stored : session.store with
    | some m => simp [outcome_purge arguments stored, read] at failed
    | none =>
      simp only [purge, outcome_bind, outcome_ofResult, read, outcome_get, stored,
        outcome_throw] at failed
      exact .inr ⟨rfl, (Except.error.inj failed).symm⟩

end Command
end ExactCalc
