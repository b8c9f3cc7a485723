import ExactCalc.Proofs.Reading.Replacement
import ExactCalc.Proofs.Session.ReadBack
import ExactCalc.Proofs.Session.Relocation

/-!
# A variable and its written value

The uses of a variable in a line may be replaced by its value as it is written in the radix of
input, in parentheses. The replaced line has the same answer, or fails in the same way, and leaves
the variables with the same values. Only use marks tell the lines apart, and the places to blame. A
value with too many digits to be read cannot be put in the place of a variable.
-/
namespace ExactCalc

open Effect Statement

/-- The value of a variable as it may be put in its place. -/
def Settings.written (settings : Settings) (v : Rat) : Text :=
  Text.parenthesized (NumberStyle.renderFraction { radix := settings.radix.toNat } v)

theorem Settings.Valid.denotes_written {settings : Settings} (valid : settings.Valid) (v : ℚ) :
    ∃ c : Expr, c.IsTiered ∧ c.IsConstant v ∧
      List.Forall₂ (Token.Denotes settings.radix.toNat) (Text.words (settings.written v))
        (block c) := by
  have bounds := valid.radix
  have readable : NumberStyle.Readable { radix := settings.radix.toNat } :=
    ⟨by dsimp only; omega, by dsimp only; omega⟩
  have shows := NumberStyle.shows_renderFraction readable rfl v
  obtain ⟨c, below, constant, denotes⟩ := shows.expresses
  exact ⟨c, below.1, constant, denotes_block denotes⟩

theorem Statement.fillStatement_ne_nil {name : Text} {c : Expr} {tokens : List Token}
    (nonempty : tokens ≠ []) : fillStatement name c tokens ≠ [] := by
  obtain ⟨t, rest, rfl⟩ := List.exists_cons_of_ne_nil nonempty
  unfold fillStatement
  split
  next => exact List.cons_ne_nil _ _
  next =>
    rw [fillTokens, List.flatMap_cons]
    split <;> simp [block]

namespace Session

variable {number : Option Int} {session : Session} {m : Memory} {name : Text} {c : Expr} {v : ℚ}

/-- The values of all variables. -/
def values? (session : Session) (name : Text) : Option (Option Rat) :=
  session.store.map (·.value? name)

theorem values?_touch (names : List Text) (other : Text) :
    (session.touch number names).values? other = session.values? other := by
  rw [values?, values?, touch, Option.map_map]
  exact congrArg (session.store.map ·) (funext fun m => Memory.value?_touchAll m number names other)

/-- Filled with the value of a variable, tokens are answered as they are themselves, or refused for
the same cause, and leave the same values. -/
theorem runExpression_fill (number : Option Int) (stored : session.store = some m)
    (value : m.value? name = some v) (tiered : c.IsTiered) (constant : c.IsConstant v)
    (tokens : List (Located Token)) :
    let filled := (fillStatement name c (tokens.map (·.val))).map Located.nowhere
    ((runExpression number filled).outcome session).1 =
        bimap (Failure.relocate .nowhere) id ((runExpression number tokens).outcome session).1 ∧
      ((runExpression number filled).outcome session).2.settings =
        ((runExpression number tokens).outcome session).2.settings ∧
      ∀ other, ((runExpression number filled).outcome session).2.values? other =
        ((runExpression number tokens).outcome session).2.values? other := by
  intro filled
  have same (names names' : List Text) (other : Text) :
      (session.touch number names).values? other = (session.touch number names').values? other := by
    rw [values?_touch, values?_touch]
  by_cases empty : tokens = []
  · subst empty
    exact ⟨rfl, rfl, fun _ => rfl⟩
  have filledRead := Statement.read_fill name tiered constant tokens
  cases read : Statement.read tokens with
  | error e =>
    have nonempty : filled ≠ [] := by
      simpa [filled] using fillStatement_ne_nil (by simpa using empty)
    rw [read, bimap_error] at filledRead
    rw [runExpression_refused empty read, runExpression_refused nonempty filledRead]
    refine ⟨congrArg (fun r => Except.error (Failure.refused r)) ?_, rfl, same _ _⟩
    exact Refusal.relocate_grammar e
  | ok statement =>
    have load (s : Span) : VariableStore.load session.store ⟨name, s⟩ = .ok v := by
      simp [VariableStore.load, stored, VariableStore.fetch, value]
    rw [read, bimap_ok] at filledRead
    rw [runExpression_eq read, runExpression_eq filledRead, Statement.execute_eq,
      Statement.execute_eq, load_touch, load_touch, Statement.fill]
    dsimp only
    rw [Expr.eval_fill constant load]
    cases statement.root.eval (VariableStore.load session.store) session.accuracy with
    | error e => exact ⟨rfl, rfl, same _ _⟩
    | ok w =>
      cases statement.target with
      | none => exact ⟨rfl, rfl, same _ _⟩
      | some target =>
        have updated (names : List Text) (other : Text) :
            ((m.touchAll number names).update target.val w number).value? other =
              if other = target.val then some w else m.value? other := by
          rw [Memory.value?_update, Memory.value?_touchAll]
        simp only [touch, stored]
        refine ⟨rfl, rfl, fun other => congrArg some ?_⟩
        exact (updated _ other).trans (updated _ other).symm

/-- A line whose lexemes are not read fails as they do, and changes nothing. -/
theorem calculate_of_unread {commands : Registry} {line : Text} {e : Failure}
    (ascii : ∀ x ∈ line, Text.isAscii x = true)
    (noCommand : (line.dropWhile Text.isBlank).head? ≠ some '/')
    (unread : line.tokens session.settings.radix.toNat = .error e) :
    session.calculate commands number line = (.error e, session) := by
  rw [calculate_runTokens ascii noCommand, unread]
  rfl

section Line

variable {line : Text} (number) (commands : Registry)
  (ascii : ∀ x ∈ line, Text.isAscii x = true)
  (noCommand : (line.dropWhile Text.isBlank).head? ≠ some '/')

include ascii noCommand

/-- Replaced by a value that can be read, a variable may stand or not. -/
theorem calculate_replaced (valid : session.settings.Valid) (stored : session.store = some m)
    (value : m.value? name = some v)
    (fits : (session.settings.written v).Fits session.settings.radix.toNat) :
    let replaced := Text.replaced 0 (session.settings.written v)
      (Text.uses session.settings.radix.toNat name line) line
    (session.calculate commands number replaced).1.mapError Failure.unplaced =
        (session.calculate commands number line).1.mapError Failure.unplaced ∧
      (session.calculate commands number replaced).2.settings =
        (session.calculate commands number line).2.settings ∧
      ∀ other, (session.calculate commands number replaced).2.values? other =
        (session.calculate commands number line).2.values? other := by
  intro replaced
  obtain ⟨c, tiered, constant, denotes⟩ := valid.denotes_written v
  have asciiReplaced : ∀ x ∈ replaced, Text.isAscii x = true := fun x member =>
    (Text.mem_replaced member).elim
      (Text.isAscii_of_denotes denotes (by simp [block, constant.noVariable]) x) (ascii x)
  rw [calculate_runTokens ascii noCommand, calculate_runTokens asciiReplaced
    (Text.noSlash_replaced _ ascii noCommand)]
  have run := failsAs_runTokens (m := .nowhere) number
    (replaced.tokens session.settings.radix.toNat) session
  have filled : bimap (Failure.relocate .nowhere) (List.map (Located.relocate .nowhere))
      (replaced.tokens session.settings.radix.toNat) =
        bimap (Failure.relocate .nowhere)
          (fun tokens => (fillStatement name c (tokens.map (·.val))).map Located.nowhere)
          (line.tokens session.settings.radix.toNat) := Text.tokens_replaced denotes fits ascii
  rw [filled] at run
  obtain ⟨results, sessions⟩ := Prod.ext_iff.mp run
  dsimp only at results sessions
  rw [← Failure.mapError_unplaced_relocate (m := .nowhere)
    ((runTokens number (replaced.tokens session.settings.radix.toNat)).outcome session).1,
    ← results, ← sessions]
  cases line.tokens session.settings.radix.toNat with
  | error e =>
    exact ⟨congrArg Except.error (Failure.unplaced_relocate e), rfl, fun _ => rfl⟩
  | ok tokens =>
    obtain ⟨result, settings, values⟩ :=
      runExpression_fill number stored value tiered constant tokens
    refine ⟨?_, settings, values⟩
    exact (congrArg (Except.mapError Failure.unplaced) result).trans
      (Failure.mapError_unplaced_relocate _)

/-- Replaced by a value with too many digits, a variable that is used makes the line fail, if
nothing before its first use does. -/
theorem calculate_replaced_unread (valid : session.settings.Valid)
    (used : Text.uses session.settings.radix.toNat name line ≠ [])
    (long : ¬(session.settings.written v).Fits session.settings.radix.toNat) :
    let replaced := Text.replaced 0 (session.settings.written v)
      (Text.uses session.settings.radix.toNat name line) line
    (∃ x ∈ Text.lexemes (session.settings.written v),
        ¬Literal.Fits session.settings.radix.toNat x.val ∧
          session.calculate commands number replaced =
            (.error (.defect (.unreadable (Literal.digitCount x.val))), session)) ∨
      ∃ e e', line.tokens session.settings.radix.toNat = .error e ∧
        session.calculate commands number replaced = (.error e', session) ∧
        e'.unplaced = e.unplaced := by
  intro replaced
  obtain ⟨c, -, constant, denotes⟩ := valid.denotes_written v
  have asciiReplaced : ∀ x ∈ replaced, Text.isAscii x = true := fun x member =>
    (Text.mem_replaced member).elim
      (Text.isAscii_of_denotes denotes (by simp [block, constant.noVariable]) x) (ascii x)
  have noCommandReplaced : (replaced.dropWhile Text.isBlank).head? ≠ some '/' :=
    Text.noSlash_replaced _ ascii noCommand
  obtain ⟨x, member, tooLong, unread⟩ := Text.exists_tokens_eq_unreadable
    (fun y listed =>
      (exists_of_forall₂ (List.forall₂_map_left_iff.mp denotes) y listed).imp fun _ => And.right)
    long
  have moved := Token.ofLexemes_relocate (m := .nowhere) session.settings.radix.toNat
    (Text.lexemes (session.settings.written v))
  rw [← Text.tokens, unread, Located.map_relocate_nowhere] at moved
  obtain ⟨e', failed, same⟩ := Text.tokens_replaced_unread moved ascii used
  have failing : session.calculate commands number replaced = (.error e', session) :=
    calculate_of_unread asciiReplaced noCommandReplaced failed
  rcases same with same | ⟨e, own, same⟩
  · refine .inl ⟨x, member, tooLong, ?_⟩
    cases e' with
    | defect d =>
      cases same
      exact failing
    | _ => cases same
  · refine .inr ⟨e, e', own, failing, ?_⟩
    rw [← Failure.unplaced_relocate (m := .nowhere), same, Failure.unplaced_relocate]

end Line

/-- A variable may be replaced by its written value. With its uses replaced, a line that is no
command is answered with the same text or fails in the same way, and leaves the same settings and
the same value of every variable, of the one that is assigned to among them. This holds unless the
variable is used and its value has too many digits to be read. Then the replaced line changes
nothing and fails as the value does, or as a lexeme of the line that is not read either. -/
theorem variable_replaced_by_value (commands : Registry) (number : Option Int) (session : Session)
    (line name : Text) (m : Memory) (v : ℚ) (valid : session.settings.Valid)
    (stored : session.store = some m) (value : m.value? name = some v)
    (noCommand : (line.dropWhile Text.isBlank).head? ≠ some '/') :
    let radix := session.settings.radix.toNat
    let replaced := Text.replaced 0 (session.settings.written v) (Text.uses radix name line) line
    ((session.settings.written v).Fits radix ∨ Text.uses radix name line = [] →
      (session.calculate commands number replaced).1.mapError Failure.unplaced =
          (session.calculate commands number line).1.mapError Failure.unplaced ∧
        (session.calculate commands number replaced).2.settings =
          (session.calculate commands number line).2.settings ∧
        ∀ other, (session.calculate commands number replaced).2.values? other =
          (session.calculate commands number line).2.values? other) ∧
    (¬(session.settings.written v).Fits radix → Text.uses radix name line ≠ [] →
      (∃ x ∈ Text.lexemes (session.settings.written v), ¬Literal.Fits radix x.val ∧
          session.calculate commands number replaced =
            (.error (.defect (.unreadable (Literal.digitCount x.val))), session)) ∨
        ∃ e e', line.tokens radix = .error e ∧
          session.calculate commands number replaced = (.error e', session) ∧
          e'.unplaced = e.unplaced) := by
  intro radix replaced
  by_cases ascii : ∀ x ∈ line, Text.isAscii x = true
  · refine ⟨fun readable => ?_, fun long used => ?_⟩
    · rcases readable with fits | unused
      · exact calculate_replaced number commands ascii noCommand valid stored value fits
      · have unchanged : replaced = line := by
          simp only [replaced, unused]
          rfl
        rw [unchanged]
        exact ⟨rfl, rfl, fun _ => rfl⟩
    · exact calculate_replaced_unread number commands ascii noCommand valid used long
  · have unchanged : replaced = line := Text.replaced_of_foreign _ _ _ ascii
    have unused : Text.uses radix name line = [] :=
      if_neg fun all => ascii (List.all_eq_true.mp all)
    rw [unchanged]
    exact ⟨fun _ => ⟨rfl, rfl, fun _ => rfl⟩, fun _ used => absurd unused used⟩

/-- In radix sixteen, a variable that stands alone behind a function and is assigned to. -/
theorem variable_replaced_by_value_function :
    ∃ session : Session, session.settings.radix = 16 ∧
      session.store = some ⟨[(['$', 'x'], ⟨-31 / 2, none⟩), (['$', 'y'], ⟨3, none⟩)]⟩ ∧
      (session.calculate Registry.default (some 3) "$x = max $x - $x * $y".toList).1 =
        .ok "1f".toList ∧
      (session.calculate Registry.default (some 3)
        "$x = max (-1f/2) - (-1f/2) * $y".toList).1.mapError Failure.unplaced =
          .ok "1f".toList ∧
      (session.calculate Registry.default (some 3)
        "$x = max (-1f/2) - (-1f/2) * $y".toList).2.values? ['$', 'x'] = some (some 31) := by
  have applied := variable_replaced_by_value Registry.default (some 3)
    ⟨{ radix := 16, fractional := true },
      some ⟨[(['$', 'x'], ⟨-31 / 2, none⟩), (['$', 'y'], ⟨3, none⟩)]⟩⟩
    "$x = max $x - $x * $y".toList ['$', 'x'] _ (-31 / 2)
    ⟨by decide, nofun, by decide, by decide, by decide⟩ rfl rfl (by decide)
  have text : Text.replaced 0 (Settings.written { radix := 16, fractional := true } (-31 / 2))
      (Text.uses 16 ['$', 'x'] "$x = max $x - $x * $y".toList) "$x = max $x - $x * $y".toList =
        "$x = max (-1f/2) - (-1f/2) * $y".toList := by
    decide +kernel
  dsimp only at applied
  rw [show Int.toNat 16 = 16 from rfl, text] at applied
  have fits : Text.Fits 16 (Settings.written { radix := 16, fractional := true } (-31 / 2)) :=
    fun _ _ _ _ => .inl (by decide)
  obtain ⟨results, -, values⟩ := applied.1 (.inl fits)
  have answer : (calculate Registry.default (some 3) "$x = max $x - $x * $y".toList
      ⟨{ radix := 16, fractional := true },
        some ⟨[(['$', 'x'], ⟨-31 / 2, none⟩), (['$', 'y'], ⟨3, none⟩)]⟩⟩).1 =
          .ok "1f".toList := by
    decide +kernel
  have assigned : (calculate Registry.default (some 3) "$x = max $x - $x * $y".toList
      ⟨{ radix := 16, fractional := true },
        some ⟨[(['$', 'x'], ⟨-31 / 2, none⟩), (['$', 'y'], ⟨3, none⟩)]⟩⟩).2.values? ['$', 'x'] =
          some (some 31) := by
    decide +kernel
  refine ⟨_, rfl, rfl, answer, ?_, (values _).trans assigned⟩
  rw [results, answer]
  rfl

/-- A variable that is ten to the power 4300 is displayed, but its written value is not read. -/
theorem power_of_ten_not_replaced :
    ∃ (session : Session) (v : ℚ), v = (10 ^ 4300 : ℕ) ∧ session.settings.Valid ∧
      session.store = some ⟨[(['$', 'x'], ⟨v, none⟩)]⟩ ∧
      (session.calculate Registry.default (some 1) ['$', 'x']).1 =
        .ok (session.settings.display v) ∧
      ∃ digits, session.calculate Registry.default (some 1)
          (Text.replaced 0 (session.settings.written v) (Text.uses 10 ['$', 'x'] ['$', 'x'])
            ['$', 'x']) =
        (.error (.defect (.unreadable digits)), session) := by
  obtain ⟨v, isPower⟩ : ∃ v : ℚ, v = (10 ^ 4300 : ℕ) := ⟨_, rfl⟩
  have valid : Settings.Valid {} := ⟨by decide, nofun, by decide, by decide, by decide⟩
  have readable : NumberStyle.Readable {} := ⟨by decide, by decide⟩
  have long : ¬(Settings.written {} v).Fits 10 := by
    have denotes := NumberStyle.denotes_plain readable (10 ^ 4300)
    have count := NumberStyle.digitCount_plain_pow readable 4300
    have written (n : ℕ) :
        Settings.written {} n = Text.parenthesized (({} : NumberStyle).plain n) :=
      congrArg Text.parenthesized (NumberStyle.renderFraction_natCast rfl n)
    rw [isPower, written, Text.fits_parenthesized, Text.fits_literal denotes, count]
    decide
  have noCommand : (['$', 'x'].dropWhile Text.isBlank).head? ≠ some '/' := by decide
  have asExpression : Line.read 10 ['$', 'x'] = .ok (.expression [⟨.var ['$', 'x'], ⟨0, 2⟩⟩]) := by
    decide
  have used : Text.uses 10 ['$', 'x'] ['$', 'x'] ≠ [] := by decide
  let session : Session := ⟨{}, some ⟨[(['$', 'x'], ⟨v, none⟩)]⟩⟩
  have valid : session.settings.Valid := valid
  have long : ¬(session.settings.written v).Fits session.settings.radix.toNat := long
  have used : Text.uses session.settings.radix.toNat ['$', 'x'] ['$', 'x'] ≠ [] := used
  have value : session.calculate Registry.default (some 1) ['$', 'x'] = _ :=
    calculate_of_value asExpression rfl rfl rfl
  refine ⟨session, v, isPower, valid, rfl, congrArg Prod.fst value, ?_⟩
  rcases calculate_replaced_unread (some 1) Registry.default (List.all_eq_true.mp (by decide))
    noCommand valid used long with ⟨x, -, -, failed⟩ | ⟨e, -, unread, -⟩
  · exact ⟨_, failed⟩
  · cases (Line.read_eq_expression.mp asExpression).2.2.symm.trans unread

end Session
end ExactCalc
