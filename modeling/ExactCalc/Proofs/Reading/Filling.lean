import ExactCalc.Proofs.Reading.Expressed
import ExactCalc.Proofs.Reading.Relocation

/-!
# Expressions in the place of a variable

Where a variable stands, an expression may stand in parentheses. In most places the parentheses are
a group of their own. Right after a function they hold the one argument of a call. Either way what
is around them is read as it was, and if the variable has the value of the expression, so is the
value of the whole or the cause why there is none. Trees are compared without their places, which
the expression moves.
-/
namespace ExactCalc

namespace Expr

mutual

/-- The expression without its places and with another in the place of a variable. -/
def fill (name : Text) (c : Expr) : Expr → Expr
  | number value _ => number value ⟨0, 0⟩
  | var other _ => if other = name then parens ⟨0, 0⟩ ⟨0, 0⟩ c.erase else var other ⟨0, 0⟩
  | unary op _ operand => unary op ⟨0, 0⟩ (fill name c operand)
  | binary op _ left right => binary op ⟨0, 0⟩ (fill name c left) (fill name c right)
  | apply f _ (var other _) =>
    if other = name then call f ⟨0, 0⟩ ⟨0, 0⟩ ⟨0, 0⟩ [c.erase]
    else apply f ⟨0, 0⟩ (var other ⟨0, 0⟩)
  | apply f _ operand => apply f ⟨0, 0⟩ (fill name c operand)
  | call f _ _ _ operands => call f ⟨0, 0⟩ ⟨0, 0⟩ ⟨0, 0⟩ (fillAll name c operands)
  | parens _ _ inner => parens ⟨0, 0⟩ ⟨0, 0⟩ (fill name c inner)

def fillAll (name : Text) (c : Expr) : List Expr → List Expr
  | [] => []
  | e :: rest => fill name c e :: fillAll name c rest

end

variable {name : Text} {c : Expr}

theorem fillAll_eq_map (es : List Expr) : fillAll name c es = es.map (fill name c) := by
  induction es with
  | nil => rfl
  | cons e rest ih => rw [fillAll, ih, List.map_cons]

theorem fill_var (s : Span) : fill name c (.var name s) = .parens ⟨0, 0⟩ ⟨0, 0⟩ c.erase :=
  if_pos rfl

/-- Behind a function the parentheses are those of its argument. -/
theorem fill_apply_var (f : Func) (s t : Span) :
    fill name c (.apply f s (.var name t)) = .call f ⟨0, 0⟩ ⟨0, 0⟩ ⟨0, 0⟩ [c.erase] :=
  if_pos rfl

theorem fill_apply (f : Func) (s : Span) (e : Expr) (bare : ∀ other t, e ≠ .var other t) :
    fill name c (.apply f s e) = .apply f ⟨0, 0⟩ (fill name c e) := by
  cases e with
  | var other t => exact absurd rfl (bare other t)
  | _ => rfl

theorem span_fill (name : Text) (c e : Expr) : (fill name c e).span = ⟨0, 0⟩ := by
  induction e using span.induct with
  | case1 => rfl
  | case2 other s =>
    rw [fill]
    split <;> rfl
  | case3 op s operand ih =>
    rw [fill, span, ih]
    rfl
  | case4 op s left right left_ih right_ih =>
    rw [fill, span, left_ih, right_ih]
    rfl
  | case5 f s operand ih =>
    by_cases bare : ∃ other t, operand = .var other t
    · obtain ⟨other, t, rfl⟩ := bare
      rw [fill]
      split <;> rfl
    · rw [fill_apply f s operand fun other t same => bare ⟨other, t, same⟩, span, ih]
      rfl
  | case6 => rfl
  | case7 => rfl

theorem rebuilds_fill (name : Text) (c : Expr) : Rebuilds .nowhere (fill name c) where
  span := span_fill name c
  number _ _ := rfl
  unary _ _ _ := rfl
  binary _ _ _ _ := rfl
  apply := fill_apply
  call _ _ _ _ es := by
    rw [fill, fillAll_eq_map]
    rfl
  parens _ _ _ := rfl

/-- Other variables lose their places and nothing else. -/
theorem moves_fill {other : Text} (apart : other ≠ name) :
    Moves .nowhere (fill name c) other where
  var _ := if_neg apart
  apply _ _ _ := if_neg apart

mutual

theorem fill_eq_erase : (e : Expr) → Token.var name ∉ e.tokens → fill name c e = e.erase
  | .number _ _, _ => rfl
  | .var other s, absent => by
    have apart : other ≠ name := by
      rintro rfl
      exact absent List.mem_cons_self
    exact (moves_fill apart).var s
  | .unary _ _ operand, absent => by
    rw [fill, fill_eq_erase operand fun member => absent (List.mem_cons_of_mem _ member), erase]
  | .binary _ _ left right, absent => by
    rw [fill, fill_eq_erase left fun member => absent (List.mem_append_left _ member),
      fill_eq_erase right fun member => absent
        (List.mem_append_right _ (List.mem_cons_of_mem _ member)), erase]
  | .apply f s operand, absent => by
    have inside := fill_eq_erase operand fun member => absent (List.mem_cons_of_mem _ member)
    by_cases bare : ∃ other t, operand = .var other t
    · obtain ⟨other, t, rfl⟩ := bare
      have apart : other ≠ name := by
        rintro rfl
        exact absent (by simp [tokens])
      exact (moves_fill apart).apply f s t
    · rw [fill_apply f s operand fun other t same => bare ⟨other, t, same⟩, inside, erase]
  | .call _ _ _ _ es, absent => by
    rw [fill, fillAll_eq_eraseAll es fun member => absent (by simp [tokens, member]), erase]
  | .parens _ _ inner, absent => by
    rw [fill, fill_eq_erase inner fun member => absent (by simp [tokens, member]), erase]

theorem fillAll_eq_eraseAll : (es : List Expr) → Token.var name ∉ argumentTokens es →
    fillAll name c es = eraseAll es
  | [], _ => rfl
  | [e], absent => by rw [fillAll, fill_eq_erase e absent, eraseAll]; rfl
  | e :: next :: rest, absent => by
    rw [fillAll, fill_eq_erase e fun member => absent (by simp [argumentTokens, member]),
      fillAll_eq_eraseAll (next :: rest) fun member => absent (by simp [argumentTokens, member])]
    rfl

end

/-- Filled with an expression that has the value of the variable, an expression is worth the same,
and where it has no value the cause is the same. -/
theorem eval_fill {store : Option Memory} {a : Accuracy} {v : ℚ} (constant : c.IsConstant v)
    (value : ∀ s, VariableStore.load store ⟨name, s⟩ = .ok v) (e : Expr) :
    (fill name c e).eval (VariableStore.load store) a =
      bimap (Failure.relocate .nowhere) id (e.eval (VariableStore.load store) a) := by
  have worth : c.erase.eval (VariableStore.load store) a = .ok v :=
    (eval_erase (VariableStore.placeless_load store) a c v).mpr (constant.value _ a)
  refine eval_transport (rebuilds_fill name c) (fun other s => ?_) (fun f s other t => ?_) e
  · by_cases same : other = name
    · subst same
      rw [fill_var, eval, worth, value]
      rfl
    · rw [(moves_fill same).var, eval]
      exact VariableStore.load_relocate store ⟨other, s⟩
  · by_cases same : other = name
    · subst same
      rw [fill_apply_var, eval, eval, eval, evalAll, evalAll, worth, value]
      exact MathError.blame_relocate s (f.value [v])
    · have moved := VariableStore.load_relocate (m := .nowhere) store ⟨other, t⟩
      rw [(moves_fill same).apply, eval, eval, eval, eval]
      rw [show VariableStore.load store ⟨other, Relocation.nowhere.place t⟩ = _ from moved]
      exact bimap_bind fun x => MathError.blame_relocate s _

end Expr

namespace Statement

open Item

variable {name : Text} {c : Expr}

/-- The tokens that stand in the place of a variable. -/
def block (c : Expr) : List Token := .openParen :: (c.tokens ++ [.closeParen])

/-- What is read between parentheses and has no variables is the same wherever it stands. -/
theorem fill_read {v : ℚ} {e : Expr} (constant : c.IsConstant v) (same : e.erase = c.erase) :
    Expr.fill name c e = c.erase := by
  rw [Expr.fill_eq_erase e, same]
  rw [← Expr.tokens_erase, same, Expr.tokens_erase]
  exact constant.noVariable name

/-- In parentheses, the tokens of an expression are read as that expression up to places. Right
after a function they are the argument of a call. -/
theorem Reader.run_block (tiered : c.IsTiered) (plain : c.IsPlain) (r : Reader) :
    ∃ e, e.erase = c.erase ∧
      ((block c).map Located.nowhere).foldlM step r = .ok
        (match r.level.awaiting with
        | .func f nameSpan :: awaiting =>
          (⟨⟨r.level.items, awaiting⟩, r.outer⟩ : Reader).supply
            (.call f nameSpan ⟨0, 0⟩ ⟨0, 0⟩ [e])
        | _ => r.supply (.parens ⟨0, 0⟩ ⟨0, 0⟩ e)) := by
  obtain ⟨e, same, run⟩ := reads_of_tiered c tiered plain (r.openParen ⟨0, 0⟩)
    (c.tokens.map Located.nowhere) (by simp [Located.nowhere, Function.comp_def])
    (Level.admits_of_done (by unfold openParen; split <;> rfl) c)
  have closes {closed : Reader} (close : (Reader.mk ⟨(layout e).reverse, []⟩
      (r.openParen ⟨0, 0⟩).outer).step ⟨.closeParen, ⟨0, 0⟩⟩ = .ok closed) :
      ((block c).map Located.nowhere).foldlM step r = .ok closed := by
    have inside : (r.openParen ⟨0, 0⟩).level.absorb e = ⟨(layout e).reverse, []⟩ := by
      unfold openParen
      split <;> simp [Level.absorb]
    rw [inside] at run
    rw [block, List.map_cons, List.map_append, run_cons (r.openParen ⟨0, 0⟩) rfl, run_append run]
    exact run_cons closed close []
  refine ⟨e, same, closes ?_⟩
  have tiered := tiered.of_erase same
  obtain ⟨⟨items, awaiting⟩, outer⟩ := r
  cases awaiting with
  | nil => exact step_close_group e tiered _ _ _ _
  | cons first awaiting =>
    cases first with
    | func f nameSpan => exact step_close_call e tiered f nameSpan _ _ [] none _ _
    | unary op s => exact step_close_group e tiered _ _ _ _

/-- In the place of a variable the tokens of an expression of numbers alone do what the variable
does, with the expression filled in. -/
theorem Reader.run_block_transport {v : ℚ} (tiered : c.IsTiered) (constant : c.IsConstant v)
    (r : Reader) (s : Span) :
    ((block c).map Located.nowhere).foldlM step (r.transport .nowhere (Expr.fill name c)) =
      .ok ((r.supply (.var name s)).transport .nowhere (Expr.fill name c)) := by
  have rebuilds := Expr.rebuilds_fill name c
  have moves : ∀ t ∈ (block c).map Located.nowhere, ∀ other, t.val = .var other →
      Expr.Moves .nowhere (Expr.fill name c) other := by
    intro t member other isVar
    obtain ⟨token, listed, rfl⟩ := List.mem_map.mp member
    have named : Token.var other ∈ block c := isVar ▸ listed
    simp [block, constant.noVariable other] at named
  -- The block has no variables, so that it is read by the filled reader as by the reader itself.
  have run := run_map_relocate rebuilds r _ moves
  rw [show ((block c).map Located.nowhere).map (Located.relocate .nowhere) =
    (block c).map Located.nowhere by rw [List.map_map]; rfl] at run
  obtain ⟨e, same, read⟩ := run_block tiered constant.plain r
  have filled : Expr.fill name c e = c.erase := fill_read constant same
  rw [run, read]
  refine congrArg Except.ok ?_
  obtain ⟨⟨items, awaiting⟩, outer⟩ := r
  have bare {e : Expr} (bare : ∀ other t, e ≠ .var other t) (rest : List Awaiting) :
      ((⟨⟨items, rest⟩, outer⟩ : Reader).supply e).transport .nowhere (Expr.fill name c) =
        ((⟨⟨items, rest⟩, outer⟩ : Reader).transport .nowhere (Expr.fill name c)).supply
          (Expr.fill name c e) :=
    (supply_transport rebuilds _ fun f s => rebuilds.apply f s e bare).symm
  match awaiting with
  | .func f t :: rest =>
    have whole := bare (e := .apply f t (.var name s)) nofun rest
    dsimp only
    rw [bare (e := .call f t ⟨0, 0⟩ ⟨0, 0⟩ [e]) nofun, Expr.fill, Expr.fillAll, Expr.fillAll,
      filled]
    rw [Expr.fill_apply_var] at whole
    exact whole.symm
  | .unary op t :: rest =>
    have whole := bare (e := .unary op t (.var name s)) nofun rest
    dsimp only
    rw [bare (e := .parens ⟨0, 0⟩ ⟨0, 0⟩ e) nofun, Expr.fill, filled]
    rw [Expr.fill, Expr.fill_var] at whole
    exact whole.symm
  | [] =>
    dsimp only
    rw [bare (e := .parens ⟨0, 0⟩ ⟨0, 0⟩ e) nofun, Expr.fill, filled, ← Expr.fill_var s]
    rfl

/-- Tokens with others in the place of a variable. -/
def fillTokens (name : Text) (c : Expr) (tokens : List Token) : List Token :=
  tokens.flatMap fun t => if t = .var name then block c else [t]

theorem readExpr_fill {v : ℚ} (tiered : c.IsTiered) (constant : c.IsConstant v)
    (tokens : List (Located Token)) :
    readExpr ((fillTokens name c (tokens.map (·.val))).map Located.nowhere) =
      bimap (GrammarError.relocate .nowhere) (Expr.fill name c) (readExpr tokens) := by
  have each : (fillTokens name c (tokens.map (·.val))).map Located.nowhere =
      tokens.flatMap fun t => (if t.val = .var name then block c else [t.val]).map
        Located.nowhere := by
    rw [fillTokens, List.flatMap_map, List.map_flatMap]
  rw [each]
  refine readExpr_transport (Expr.rebuilds_fill name c) tokens fun t _ r => ?_
  split
  next same =>
    obtain ⟨_, s⟩ := t
    obtain rfl : _ = Token.var name := same
    exact Reader.run_block_transport tiered constant r s
  next other =>
    simp only [List.map_cons, List.map_nil, List.foldlM_cons, List.foldlM_nil, bind_pure]
    refine Reader.step_transport (Expr.rebuilds_fill name c) r t fun named isVar => ?_
    refine Expr.moves_fill ?_
    rintro rfl
    exact other isVar

/-- The tokens of a statement with others in the place of a variable, which stays where it is
assigned to. -/
def fillStatement (name : Text) (c : Expr) : List Token → List Token
  | .var target :: .assign :: rest => .var target :: .assign :: fillTokens name c rest
  | tokens => fillTokens name c tokens

def fill (name : Text) (c : Expr) (s : Statement) : Statement :=
  ⟨s.target.map (Located.relocate .nowhere), Expr.fill name c s.root⟩

/-- What begins filled tokens has begun the tokens, unless it is the parenthesis of a block. -/
theorem eq_cons_of_fillTokens {tokens rest : List Token} {t : Token} (noBlock : t ≠ .openParen)
    (filled : fillTokens name c tokens = t :: rest) :
    ∃ later, tokens = t :: later ∧ fillTokens name c later = rest := by
  cases tokens with
  | nil => cases filled
  | cons u later =>
    rw [fillTokens, List.flatMap_cons] at filled
    split at filled
    next => exact absurd (List.cons.inj filled).1.symm noBlock
    next =>
      obtain ⟨rfl, others⟩ := List.cons.inj filled
      exact ⟨later, rfl, others⟩

theorem splitTarget_eq_none {tokens : List (Located Token)}
    (apart : ∀ target rest, tokens.map (·.val) ≠ .var target :: .assign :: rest) :
    splitTarget tokens = (none, tokens) := by
  unfold splitTarget
  split
  next target span assignSpan rest => exact absurd rfl (apart target (rest.map (·.val)))
  next => rfl

theorem splitTarget_fill (tokens : List (Located Token)) :
    splitTarget ((fillStatement name c (tokens.map (·.val))).map Located.nowhere) =
      ((splitTarget tokens).1.map (Located.relocate .nowhere),
        (fillTokens name c ((splitTarget tokens).2.map (·.val))).map Located.nowhere) := by
  by_cases assigns : ∃ target rest, tokens.map (·.val) = .var target :: .assign :: rest
  · obtain ⟨target, rest, written⟩ := assigns
    obtain ⟨⟨_, s⟩, _, rfl, rfl, later⟩ := List.map_eq_cons_iff.mp written
    obtain ⟨⟨_, t⟩, rest, rfl, rfl, -⟩ := List.map_eq_cons_iff.mp later
    rfl
  have apart : ∀ target rest, tokens.map (·.val) ≠ .var target :: .assign :: rest :=
    fun target rest written => assigns ⟨target, rest, written⟩
  have unchanged : fillStatement name c (tokens.map (·.val)) =
      fillTokens name c (tokens.map (·.val)) := by
    unfold fillStatement
    split
    next target rest written => exact absurd written (apart target rest)
    next => rfl
  rw [unchanged, splitTarget_eq_none apart, splitTarget_eq_none fun target rest written => ?_]
  · rfl
  · rw [List.map_map] at written
    have filled : fillTokens name c (tokens.map (·.val)) = .var target :: .assign :: rest :=
      (List.map_id _).symm.trans written
    obtain ⟨later, first, filled⟩ := eq_cons_of_fillTokens (by nofun) filled
    obtain ⟨last, second, -⟩ := eq_cons_of_fillTokens (by nofun) filled
    exact apart target last (by rw [first, second])

/-- The filled tokens are read as the filled statement. -/
theorem read_fill (name : Text) {v : ℚ} (tiered : c.IsTiered) (constant : c.IsConstant v)
    (tokens : List (Located Token)) :
    read ((fillStatement name c (tokens.map (·.val))).map Located.nowhere) =
      bimap (GrammarError.relocate .nowhere) (Statement.fill name c) (read tokens) := by
  unfold read
  rw [splitTarget_fill]
  rcases splitTarget tokens with ⟨target, rest⟩
  dsimp only
  rw [readExpr_fill tiered constant]
  exact bimap_bind fun _ => rfl

end Statement
end ExactCalc
