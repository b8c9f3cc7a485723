import ExactCalc.Proofs.Reading.Row
import ExactCalc.Proofs.Result

/-!
# Reading invents and loses nothing

The reader between two tokens is a half-written statement. What it holds is written out as the
tokens that it has read: the rows of the levels, what awaits an operand, and the open parentheses
with the arguments read so far. Each token adds itself at the end and nothing else, and all
operands on the way hold together by themselves. The expression at the end is therefore written
with exactly the tokens that were read, and it respects the tiers.
-/
namespace ExactCalc

theorem Expr.allTiered_iff (es : List Expr) : AllTiered es ↔ ∀ e ∈ es, e.IsTiered := by
  induction es with
  | nil => simp [AllTiered]
  | cons e rest ih => simp [AllTiered, ih]

/-- The last argument of a call has no comma after it. -/
theorem Expr.argumentTokens_append (es : List Expr) (last : Expr) :
    argumentTokens (es ++ [last]) = (es.flatMap fun e => e.tokens ++ [.comma]) ++ last.tokens := by
  induction es with
  | nil => simp [argumentTokens]
  | cons e rest ih =>
    cases rest with
    | nil => simp [argumentTokens]
    | cons next rest =>
      simp only [List.cons_append] at ih
      simp [argumentTokens, ih]

namespace Statement

open Item

/-- The token that awaits an operand. -/
def Awaiting.token : Awaiting → Token
  | unary op _ => op.token
  | func f _ => .func f

/-- The tokens of a level that has begun. -/
def Level.tokens (level : Level) : List Token :=
  rowTokens level.items.reverse ++ level.awaiting.reverse.map Awaiting.token

/-- The tokens of an open parenthesis, with the arguments before the last comma. -/
def Opening.tokens : Opening → List Token
  | group _ => [.openParen]
  | call f _ _ operands _ =>
    .func f :: .openParen :: operands.reverse.flatMap fun e => e.tokens ++ [.comma]

/-- The tokens that have been read before the innermost level. -/
def outerTokens (outer : List (Opening × Level)) : List Token :=
  outer.reverse.flatMap fun entry => entry.2.tokens ++ entry.1.tokens

/-- All tokens that have been read. -/
def Reader.tokens (r : Reader) : List Token := outerTokens r.outer ++ r.level.tokens

@[simp] theorem outerTokens_cons (opening : Opening) (level : Level)
    (outer : List (Opening × Level)) :
    outerTokens ((opening, level) :: outer) =
      outerTokens outer ++ level.tokens ++ opening.tokens := by
  simp [outerTokens]

@[simp] theorem Level.tokens_empty : Level.tokens {} = [] := rfl

/-- An argument list without a comma has no arguments yet, and all its arguments respect the
tiers. -/
def Opening.Sound : Opening → Prop
  | group _ => True
  | call _ _ _ operands comma => (comma = none → operands = []) ∧ ∀ e ∈ operands, e.IsTiered

/-- All operands of all levels hold together by themselves. -/
structure Reader.Sound (r : Reader) : Prop where
  level : RowBelow 0 r.level.items
  outer : ∀ opening level, (opening, level) ∈ r.outer → opening.Sound ∧ RowBelow 0 level.items

theorem Reader.sound_start : ({} : Reader).Sound := ⟨by simp, by simp⟩

theorem Awaiting.complete_tokens (awaiting : Awaiting) (operand : Expr) :
    (awaiting.complete operand).tokens = awaiting.token :: operand.tokens := by
  cases awaiting <;> simp [complete, token, Expr.tokens]

theorem Awaiting.complete_below (awaiting : Awaiting) (operand : Expr) (below : operand.Below 0) :
    (awaiting.complete operand).Below 0 := by
  cases awaiting with
  | unary op s => exact Expr.below_zero_unary op s operand below
  | func f s => exact Expr.below_zero_apply f s operand below

/-- What awaits an operand is written before it, the innermost nearest to it. -/
theorem completed_tokens (awaiting : List Awaiting) (operand : Expr) :
    (awaiting.foldl Awaiting.complete operand).tokens =
      awaiting.reverse.map Awaiting.token ++ operand.tokens := by
  induction awaiting generalizing operand with
  | nil => simp
  | cons a rest ih => simp [ih, Awaiting.complete_tokens]

theorem completed_below (awaiting : List Awaiting) (operand : Expr) (below : operand.Below 0) :
    (awaiting.foldl Awaiting.complete operand).Below 0 := by
  induction awaiting generalizing operand with
  | nil => exact below
  | cons a rest ih => exact ih _ (a.complete_below operand below)

@[simp] theorem Level.supply_tokens (level : Level) (operand : Expr) :
    (level.supply operand).tokens = level.tokens ++ operand.tokens := by
  simp [supply, tokens, Item.tokens, completed_tokens]

theorem Level.supply_below (level : Level) (operand : Expr) (items : RowBelow 0 level.items)
    (below : operand.Below 0) : RowBelow 0 (level.supply operand).items := by
  simp only [supply, rowBelow_operand]
  exact ⟨completed_below _ _ below, items⟩

theorem Reader.supply_sound (r : Reader) (operand : Expr) (sound : r.Sound)
    (below : operand.Below 0) : (r.supply operand).Sound :=
  ⟨r.level.supply_below operand sound.level below, sound.outer⟩

theorem Level.finish_eq_some {level : Level} {e : Expr} (items : RowBelow 0 level.items)
    (h : level.finish = .ok (some e)) : e.tokens = level.tokens ∧ e.IsTiered := by
  unfold finish at h
  split at h
  next => cases h
  next done =>
    obtain ⟨written, tiered⟩ := toExpr?_eq_some (by simpa using items) h
    exact ⟨by simp [tokens, done, written], tiered⟩

theorem Level.finish_eq_none {level : Level} (h : level.finish = .ok none) :
    level.tokens = [] := by
  unfold finish at h
  split at h
  next => cases h
  next done => simp [tokens, done, toExpr?_eq_none h]

/-- The expression of a level that ends, and what its absence says about the level and about the
arguments that it would have been one of. -/
theorem Reader.finishLevel_eq_ok {r : Reader} {e : Option Expr} (sound : r.Sound)
    (h : r.finishLevel = .ok e) :
    r.level.tokens = e.elim [] Expr.tokens ∧ (∀ root ∈ e, root.IsTiered) ∧
      ∀ f nameSpan openSpan operands comma level outer,
        r.outer = (.call f nameSpan openSpan operands (some comma), level) :: outer → e ≠ none := by
  obtain ⟨found, finished, rest⟩ := bind_eq_ok_iff.mp h
  cases found with
  | none =>
    split at rest
    next => cases rest
    next allowed =>
      cases rest
      refine ⟨by simp [Level.finish_eq_none finished], by simp, ?_⟩
      intro f nameSpan openSpan operands comma level outer inside
      exact absurd inside (allowed f nameSpan openSpan operands comma level outer rfl)
  | some root =>
    cases rest
    obtain ⟨written, tiered⟩ := Level.finish_eq_some sound.level finished
    exact ⟨by simp [written], by simpa using tiered, by simp⟩

theorem Reader.await_tokens (r : Reader) (awaiting : Awaiting) :
    (r.await awaiting).tokens = r.tokens ++ [awaiting.token] := by
  simp [await, tokens, Level.tokens]

theorem Reader.supply_tokens (r : Reader) (operand : Expr) :
    (r.supply operand).tokens = r.tokens ++ operand.tokens := by
  simp [supply, tokens]

theorem Reader.operator_sound {r after : Reader} {op : BinaryOp} {span : Span} (sound : r.Sound)
    (h : r.operator op span = .ok after) :
    after.Sound ∧ after.tokens = r.tokens ++ [.binary op] := by
  unfold operator at h
  split at h
  next done =>
    cases h
    exact ⟨⟨by simpa using sound.level, sound.outer⟩,
      by simp [tokens, Level.tokens, Item.tokens, done]⟩
  next =>
    cases h
    exact ⟨⟨sound.level, sound.outer⟩, by rw [await_tokens]; rfl⟩
  next => cases h

theorem Reader.openParen_sound (r : Reader) (span : Span) (sound : r.Sound) :
    (r.openParen span).Sound ∧ (r.openParen span).tokens = r.tokens ++ [.openParen] := by
  unfold openParen
  split
  next f nameSpan awaiting await =>
    refine ⟨⟨by simp, ?_⟩, ?_⟩
    · intro opening level inside
      rcases List.mem_cons.mp inside with here | further
      · cases here
        exact ⟨⟨fun _ => rfl, by simp⟩, sound.level⟩
      · exact sound.outer _ _ further
    · simp [tokens, Level.tokens, Opening.tokens, await, Awaiting.token]
  next =>
    refine ⟨⟨by simp, ?_⟩, ?_⟩
    · intro opening level inside
      rcases List.mem_cons.mp inside with here | further
      · cases here
        exact ⟨trivial, sound.level⟩
      · exact sound.outer _ _ further
    · simp [tokens, Opening.tokens]

theorem Reader.comma_sound {r after : Reader} {span : Span} (sound : r.Sound)
    (h : r.comma span = .ok after) : after.Sound ∧ after.tokens = r.tokens ++ [.comma] := by
  obtain ⟨e, ended, rest⟩ := bind_eq_ok_iff.mp h
  obtain ⟨written, tiered, -⟩ := finishLevel_eq_ok sound ended
  split at rest
  next e f nameSpan openSpan operands previous level outer around =>
    cases rest
    have inside :=
      sound.outer (.call f nameSpan openSpan operands previous) level (by simp [around])
    refine ⟨⟨by simp, ?_⟩, ?_⟩
    · intro opening other member
      rcases List.mem_cons.mp member with here | further
      · cases here
        refine ⟨⟨by simp, ?_⟩, inside.2⟩
        simpa using ⟨tiered e rfl, inside.1.2⟩
      · exact sound.outer opening other (by simp [around, further])
    · simp [tokens, around, written, Opening.tokens]
  next => cases rest
  next => cases rest

/-- The operand that a closed parenthesis makes, in the level that the parenthesis stands in. -/
theorem Reader.closed_sound {r : Reader} {opening : Opening} {level : Level}
    {outer : List (Opening × Level)} {operand : Expr} {inner : List Token} (sound : r.Sound)
    (around : r.outer = (opening, level) :: outer) (tiered : operand.Below 0)
    (content : r.level.tokens = inner)
    (written : operand.tokens = opening.tokens ++ inner ++ [.closeParen]) :
    (Reader.mk (level.supply operand) outer).Sound ∧
      (Reader.mk (level.supply operand) outer).tokens = r.tokens ++ [.closeParen] := by
  have inside := sound.outer opening level (by simp [around])
  refine ⟨⟨level.supply_below operand inside.2 tiered, ?_⟩, ?_⟩
  · intro other further member
    exact sound.outer other further (by simp [around, member])
  · simp [tokens, around, content, written]

/-- The last argument joins those before the last comma. Without a comma there are none, and the
last argument may be absent. -/
theorem Opening.call_tokens (f : Func) (nameSpan openSpan closeSpan : Span) (operands : List Expr)
    (comma : Option Span) (last : Option Expr) (absent : last = none → operands = []) :
    (Expr.call f nameSpan openSpan closeSpan (last.toList ++ operands).reverse).tokens =
      (call f nameSpan openSpan operands comma).tokens ++ last.elim [] Expr.tokens ++
        [.closeParen] := by
  cases last with
  | none => simp [absent rfl, tokens, Expr.tokens, Expr.argumentTokens]
  | some e => simp [tokens, Expr.tokens, Expr.argumentTokens_append]

theorem Reader.closeParen_sound {r after : Reader} {span : Span} (sound : r.Sound)
    (h : r.closeParen span = .ok after) :
    after.Sound ∧ after.tokens = r.tokens ++ [.closeParen] := by
  obtain ⟨e, ended, rest⟩ := bind_eq_ok_iff.mp h
  obtain ⟨written, tiered, argument⟩ := finishLevel_eq_ok sound ended
  split at rest
  next e openSpan level outer around =>
    cases rest
    refine closed_sound sound around ?_ written ?_
    · exact (Expr.below_zero_iff _).mpr ⟨tiered e rfl, rfl⟩
    · simp [Expr.tokens, Opening.tokens]
  next => cases rest
  next last _ _ f nameSpan openSpan operands comma level outer around =>
    cases rest
    have inside := sound.outer (.call f nameSpan openSpan operands comma) level (by simp [around])
    have absent : last = none → operands = [] := by
      intro noLast
      cases comma with
      | none => exact inside.1.1 rfl
      | some comma => exact absurd noLast (argument f nameSpan openSpan operands comma _ _ around)
    refine closed_sound sound around ?_ written ?_
    · refine (Expr.below_zero_iff _).mpr ⟨(Expr.allTiered_iff _).mpr ?_, rfl⟩
      intro argument member
      rcases List.mem_append.mp (List.mem_reverse.mp member) with final | before
      · exact tiered argument (by simpa using final)
      · exact inside.1.2 argument before
    · exact Opening.call_tokens f nameSpan openSpan span operands comma last absent
  next => cases rest

/-- A token adds itself at the end of what has been read. -/
theorem Reader.step_sound {r after : Reader} {token : Located Token} (sound : r.Sound)
    (h : r.step token = .ok after) : after.Sound ∧ after.tokens = r.tokens ++ [token.val] := by
  obtain ⟨token, span⟩ := token
  cases token with
  | number value =>
    cases h
    have leaf : (Expr.number value span).Below 0 := (Expr.below_zero_iff _).mpr ⟨trivial, rfl⟩
    exact ⟨r.supply_sound _ sound leaf, by simp [supply_tokens, Expr.tokens]⟩
  | var name =>
    cases h
    have leaf : (Expr.var name span).Below 0 := (Expr.below_zero_iff _).mpr ⟨trivial, rfl⟩
    exact ⟨r.supply_sound _ sound leaf, by simp [supply_tokens, Expr.tokens]⟩
  | unary w =>
    cases h
    exact ⟨⟨sound.level, sound.outer⟩, by rw [await_tokens]; rfl⟩
  | func f =>
    cases h
    exact ⟨⟨sound.level, sound.outer⟩, by rw [await_tokens]; rfl⟩
  | binary op => exact operator_sound sound h
  | openParen =>
    cases h
    exact r.openParen_sound span sound
  | closeParen => exact closeParen_sound sound h
  | comma => exact comma_sound sound h
  | assign => cases h

/-- Tokens read one after the other are written out one after the other. -/
theorem Reader.run_sound {r after : Reader} (tokens : List (Located Token)) (sound : r.Sound)
    (h : tokens.foldlM Reader.step r = .ok after) :
    after.Sound ∧ after.tokens = r.tokens ++ tokens.map (·.val) := by
  induction tokens generalizing r with
  | nil =>
    cases h
    exact ⟨sound, by simp⟩
  | cons token rest ih =>
    rw [List.foldlM_cons] at h
    obtain ⟨between, first, later⟩ := bind_eq_ok_iff.mp h
    obtain ⟨begun, one⟩ := step_sound sound first
    obtain ⟨ended, all⟩ := ih begun later
    exact ⟨ended, by simp [all, one]⟩

theorem Reader.finish_sound {r : Reader} {e : Expr} (sound : r.Sound) (h : r.finish = .ok e) :
    e.tokens = r.tokens ∧ e.IsTiered := by
  obtain ⟨found, ended, rest⟩ := bind_eq_ok_iff.mp h
  obtain ⟨written, tiered, -⟩ := finishLevel_eq_ok sound ended
  split at rest
  next root outermost =>
    cases rest
    exact ⟨by simp [tokens, outermost, outerTokens, written], tiered e rfl⟩
  all_goals cases rest

/-- A target and the sign after it are taken off the front, or nothing is. -/
theorem splitTarget_tokens (tokens : List (Located Token)) (root : Expr)
    (written : root.tokens = (splitTarget tokens).2.map (·.val)) :
    (Statement.mk (splitTarget tokens).1 root).tokens = tokens.map (·.val) := by
  unfold splitTarget at written ⊢
  split
  next => simpa [Statement.tokens] using written
  next => simpa [Statement.tokens] using written

/-- What is read is written with exactly the tokens that were given, and its expression respects
the tiers. -/
theorem tokens_and_tiers_of_read (tokens : List (Located Token)) (s : Statement)
    (success : Statement.read tokens = .ok s) :
    s.tokens = tokens.map (·.val) ∧ s.root.IsTiered := by
  obtain ⟨root, found, rest⟩ := bind_eq_ok_iff.mp success
  cases rest
  obtain ⟨after, run, finished⟩ := bind_eq_ok_iff.mp found
  obtain ⟨sound, all⟩ := Reader.run_sound _ Reader.sound_start run
  obtain ⟨written, tiered⟩ := Reader.finish_sound sound finished
  have start : ({} : Reader).tokens = [] := rfl
  rw [all, start, List.nil_append] at written
  exact ⟨splitTarget_tokens tokens root written, tiered⟩

/-- An assignment of `-2 ^ max(1, 3 - 4)`. -/
theorem tokens_and_tiers_of_read_assignment :
    ∃ s, Statement.read
      [⟨.var ['$', 'x'], ⟨0, 2⟩⟩, ⟨.assign, ⟨2, 1⟩⟩, ⟨.binary .subtract, ⟨3, 1⟩⟩,
        ⟨.number 2, ⟨4, 1⟩⟩, ⟨.binary .exponent, ⟨5, 1⟩⟩, ⟨.func .max, ⟨6, 3⟩⟩,
        ⟨.openParen, ⟨9, 1⟩⟩, ⟨.number 1, ⟨10, 1⟩⟩, ⟨.comma, ⟨11, 1⟩⟩, ⟨.number 3, ⟨12, 1⟩⟩,
        ⟨.binary .subtract, ⟨13, 1⟩⟩, ⟨.number 4, ⟨14, 1⟩⟩, ⟨.closeParen, ⟨15, 1⟩⟩] = .ok s ∧
      s.tokens =
        [.var ['$', 'x'], .assign, .binary .subtract, .number 2, .binary .exponent, .func .max,
          .openParen, .number 1, .comma, .number 3, .binary .subtract, .number 4, .closeParen] ∧
      s.root.IsTiered := by
  have accepted (tokens : List (Located Token)) (s : Statement)
      (success : Statement.read tokens = .ok s) :
      ∃ s, Statement.read tokens = .ok s ∧ s.tokens = tokens.map (·.val) ∧ s.root.IsTiered :=
    ⟨s, success, tokens_and_tiers_of_read tokens s success⟩
  exact accepted _ _ rfl

end Statement
end ExactCalc
