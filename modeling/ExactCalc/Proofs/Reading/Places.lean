import Mathlib.Data.List.Infix
import ExactCalc.Expr.Written

/-!
# The tokens that an expression stands on

An expression keeps the places of its parts, and `Expr.StandsOn` says of which tokens these are the
places: of a row of tokens that spells the expression from the first token to the last. When the
tokens follow each other in the line, the span of an expression reaches from its first token to its
last, its parts lie inside of it, and parts of the same expression lie side by side. A row of tokens
leaves no choice of places: two expressions on it that are built alike are the same.
-/
namespace ExactCalc

namespace Span

@[simp] theorem start_cover (a b : Span) : (a.cover b).start = min a.start b.start := rfl

@[simp] theorem stop_cover (a b : Span) : (a.cover b).stop = max a.stop b.stop := by
  simp only [cover, upTo, stop]
  omega

theorem start_le_stop (s : Span) : s.start ≤ s.stop := Nat.le_add_right _ _

/-- A span is told by its ends. -/
theorem ext_ends {a b : Span} (starts : a.start = b.start) (stops : a.stop = b.stop) : a = b := by
  obtain ⟨start, width⟩ := a
  obtain ⟨start', width'⟩ := b
  simp only [stop] at starts stops
  obtain rfl := starts
  obtain rfl : width = width' := by omega
  rfl

theorem cover_left_comm (a b c : Span) : a.cover (b.cover c) = b.cover (a.cover c) :=
  ext_ends (by simp [Nat.min_left_comm]) (by simp [Nat.max_left_comm])

end Span

namespace Located

variable {α : Type}

/-- The values follow each other in the line. -/
def Ordered (xs : List (Located α)) : Prop := xs.Pairwise fun x y => x.span.stop ≤ y.span.start

theorem Ordered.of_part {xs ys : List (Located α)} (ordered : Ordered ys) (part : xs <:+: ys) :
    Ordered xs :=
  List.Pairwise.sublist part.sublist ordered

/-- A span reaches from the first value of a row to the last. -/
structure Hull (s : Span) (xs : List (Located α)) : Prop where
  start : ∃ x ∈ xs.head?, x.span.start = s.start
  stop : ∃ x ∈ xs.getLast?, x.span.stop = s.stop

namespace Hull

variable {a b : Span} {xs ys : List (Located α)}

theorem single (x : Located α) : Hull x.span [x] := ⟨⟨x, rfl, rfl⟩, ⟨x, rfl, rfl⟩⟩

theorem ends_mem (hull : Hull a xs) :
    (∃ x ∈ xs, x.span.start = a.start) ∧ ∃ x ∈ xs, x.span.stop = a.stop := by
  obtain ⟨⟨x, first, starts⟩, ⟨y, last, stops⟩⟩ := hull
  exact ⟨⟨x, List.mem_of_mem_head? first, starts⟩, ⟨y, List.mem_of_getLast? last, stops⟩⟩

/-- A row that follows another begins where or after the other ends. -/
theorem stop_le_start (left : Hull a xs) (right : Hull b ys) (ordered : Ordered (xs ++ ys)) :
    a.stop ≤ b.start := by
  obtain ⟨-, x, memberLeft, stops⟩ := left.ends_mem
  obtain ⟨⟨y, memberRight, starts⟩, -⟩ := right.ends_mem
  rw [← stops, ← starts]
  exact (List.pairwise_append.mp ordered).2.2 x memberLeft y memberRight

/-- Two rows side by side are covered together. -/
theorem append (left : Hull a xs) (right : Hull b ys) (ordered : Ordered (xs ++ ys)) :
    Hull (a.cover b) (xs ++ ys) := by
  have apart := left.stop_le_start right ordered
  have wideLeft := a.start_le_stop
  have wideRight := b.start_le_stop
  obtain ⟨⟨x, first, starts⟩, -⟩ := left
  obtain ⟨-, y, last, stops⟩ := right
  refine ⟨⟨x, by simp [Option.mem_def.mp first], ?_⟩, ⟨y, by simp [Option.mem_def.mp last], ?_⟩⟩
  · rw [Span.start_cover]
    omega
  · rw [Span.stop_cover]
    omega

/-- A value in front of a row is covered together with it. -/
theorem cons (x : Located α) (rest : Hull b ys) (ordered : Ordered (x :: ys)) :
    Hull (x.span.cover b) (x :: ys) :=
  (single x).append rest ordered

/-- A row is covered by its first and its last value. -/
theorem around (x y : Located α) {inside : List (Located α)}
    (ordered : Ordered (x :: (inside ++ [y]))) :
    Hull (x.span.cover y.span) (x :: (inside ++ [y])) := by
  have apart : x.span.stop ≤ y.span.start := (List.pairwise_cons.mp ordered).1 y (by simp)
  have wideLeft := x.span.start_le_stop
  have wideRight := y.span.start_le_stop
  refine ⟨⟨x, rfl, ?_⟩, ⟨y, ?_, ?_⟩⟩
  · rw [Span.start_cover]
    omega
  · exact List.getLast?_concat (l := x :: inside)
  · rw [Span.stop_cover]
    omega

/-- No value of an ordered row reaches beyond the hull of the row. -/
theorem within_of_mem (hull : Hull a xs) (ordered : Ordered xs) {x : Located α} (member : x ∈ xs) :
    a.start ≤ x.span.start ∧ x.span.stop ≤ a.stop := by
  obtain ⟨⟨first, isFirst, starts⟩, ⟨last, isLast, stops⟩⟩ := hull
  have wide := x.span.start_le_stop
  constructor
  · obtain ⟨rest, rfl⟩ := List.head?_eq_some_iff.mp isFirst
    rcases List.mem_cons.mp member with rfl | later
    · exact Nat.le_of_eq starts.symm
    · have apart := (List.pairwise_cons.mp ordered).1 x later
      have := first.span.start_le_stop
      omega
  · obtain ⟨rest, rfl⟩ := List.getLast?_eq_some_iff.mp isLast
    rcases List.mem_append.mp member with earlier | here
    · have apart := (List.pairwise_append.mp ordered).2.2 x earlier last (by simp)
      have := last.span.start_le_stop
      omega
    · obtain rfl := List.mem_singleton.mp here
      exact Nat.le_of_eq stops

/-- The hull of a part of a row lies inside the hull of the row. -/
theorem within (part : Hull a xs) (whole : Hull b ys) (ordered : Ordered ys) (isPart : xs <:+: ys) :
    b.start ≤ a.start ∧ a.stop ≤ b.stop := by
  obtain ⟨⟨x, first, starts⟩, y, last, stops⟩ := part.ends_mem
  rw [← starts, ← stops]
  exact ⟨(whole.within_of_mem ordered (isPart.subset first)).1,
    (whole.within_of_mem ordered (isPart.subset last)).2⟩

end Hull
end Located

namespace Expr

open Located

mutual

/-- An expression stands on a row of tokens: the tokens spell it, and each of its parts has the
place of its token. A function without parentheses does not stand before one. -/
def StandsOn : Expr → List (Located Token) → Prop
  | number value s, tokens => tokens = [⟨.number value, s⟩]
  | var name s, tokens => tokens = [⟨.var name, s⟩]
  | unary op s operand, tokens => ∃ rest, tokens = ⟨op.token, s⟩ :: rest ∧ operand.StandsOn rest
  | binary op s left right, tokens =>
    ∃ before after, tokens = before ++ ⟨.binary op, s⟩ :: after ∧
      left.StandsOn before ∧ right.StandsOn after
  | apply f s operand, tokens =>
    ∃ rest, tokens = ⟨.func f, s⟩ :: rest ∧ operand.StandsOn rest ∧
      rest.head?.map (·.val) ≠ some .openParen
  | call f s openSpan closeSpan operands, tokens =>
    ∃ inside, tokens =
        ⟨.func f, s⟩ :: ⟨.openParen, openSpan⟩ :: (inside ++ [⟨.closeParen, closeSpan⟩]) ∧
      ArgumentsStandOn operands inside
  | parens openSpan closeSpan inner, tokens =>
    ∃ inside, tokens = ⟨.openParen, openSpan⟩ :: (inside ++ [⟨.closeParen, closeSpan⟩]) ∧
      inner.StandsOn inside

/-- Arguments stand on a row of tokens, with a comma between each two of them. -/
def ArgumentsStandOn : List Expr → List (Located Token) → Prop
  | [], tokens => tokens = []
  | [e], tokens => e.StandsOn tokens
  | e :: rest, tokens =>
    ∃ before s after, tokens = before ++ ⟨.comma, s⟩ :: after ∧
      e.StandsOn before ∧ ArgumentsStandOn rest after

end

mutual

/-- The tokens that an expression stands on are those that it is written with. -/
theorem StandsOn.values : (e : Expr) → (tokens : List (Located Token)) → e.StandsOn tokens →
    tokens.map (·.val) = e.tokens
  | .number _ _, _, rfl => rfl
  | .var _ _, _, rfl => rfl
  | .unary _ _ operand, _, ⟨rest, rfl, stands⟩ => by
    simp [Expr.tokens, StandsOn.values operand rest stands]
  | .binary _ _ left right, _, ⟨before, after, rfl, onLeft, onRight⟩ => by
    simp [Expr.tokens, StandsOn.values left before onLeft, StandsOn.values right after onRight]
  | .apply _ _ operand, _, ⟨rest, rfl, stands, _⟩ => by
    simp [Expr.tokens, StandsOn.values operand rest stands]
  | .call _ _ _ _ operands, _, ⟨inside, rfl, stand⟩ => by
    simp [Expr.tokens, ArgumentsStandOn.values operands inside stand]
  | .parens _ _ inner, _, ⟨inside, rfl, stands⟩ => by
    simp [Expr.tokens, StandsOn.values inner inside stands]

theorem ArgumentsStandOn.values : (es : List Expr) → (tokens : List (Located Token)) →
    ArgumentsStandOn es tokens → tokens.map (·.val) = argumentTokens es
  | [], _, rfl => rfl
  | [e], tokens, stands => by simp [argumentTokens, StandsOn.values e tokens stands]
  | e :: next :: rest, _, ⟨before, s, after, rfl, stands, later⟩ => by
    simp [argumentTokens, StandsOn.values e before stands,
      ArgumentsStandOn.values (next :: rest) after later]

end

/-- The span of an expression reaches from the first of its tokens to the last. -/
theorem StandsOn.hull : (e : Expr) → (tokens : List (Located Token)) → e.StandsOn tokens →
    Ordered tokens → Hull e.span tokens
  | .number value s, _, rfl, _ => Hull.single ⟨Token.number value, s⟩
  | .var name s, _, rfl, _ => Hull.single ⟨Token.var name, s⟩
  | .unary op s operand, _, ⟨rest, rfl, stands⟩, ordered =>
    Hull.cons ⟨op.token, s⟩ (StandsOn.hull operand rest stands ordered.of_cons) ordered
  | .binary op s left right, _, ⟨before, after, rfl, onLeft, onRight⟩, ordered => by
    have parts := List.pairwise_append.mp ordered
    have hullLeft := StandsOn.hull left before onLeft parts.1
    have hullRight := StandsOn.hull right after onRight parts.2.1.of_cons
    rw [Expr.span, Span.cover_left_comm]
    exact hullLeft.append (Hull.cons ⟨Token.binary op, s⟩ hullRight parts.2.1) ordered
  | .apply f s operand, _, ⟨rest, rfl, stands, _⟩, ordered =>
    Hull.cons ⟨Token.func f, s⟩ (StandsOn.hull operand rest stands ordered.of_cons) ordered
  | .call f s openSpan closeSpan _, _, ⟨_, rfl, _⟩, ordered =>
    Hull.cons ⟨Token.func f, s⟩
      (Hull.around ⟨Token.openParen, openSpan⟩ ⟨Token.closeParen, closeSpan⟩
        ordered.of_cons) ordered
  | .parens openSpan closeSpan _, _, ⟨_, rfl, _⟩, ordered =>
    Hull.around ⟨Token.openParen, openSpan⟩ ⟨Token.closeParen, closeSpan⟩ ordered

/-- The operands of an operator or a function, and what parentheses enclose. -/
def children : Expr → List Expr
  | number _ _ => []
  | var _ _ => []
  | unary _ _ operand => [operand]
  | binary _ _ left right => [left, right]
  | apply _ _ operand => [operand]
  | call _ _ _ _ operands => operands
  | parens _ _ inner => [inner]

/-- Each argument stands on its own part of the tokens. -/
theorem ArgumentsStandOn.part : (es : List Expr) → (tokens : List (Located Token)) →
    ArgumentsStandOn es tokens → ∀ e ∈ es, ∃ part, part <:+: tokens ∧ e.StandsOn part
  | [], _, _ => by simp
  | [e], tokens, stands => by simpa using ⟨tokens, List.infix_refl tokens, stands⟩
  | e :: next :: rest, _, ⟨before, s, after, rfl, stands, later⟩ => by
    intro e' member
    rcases List.mem_cons.mp member with rfl | further
    · exact ⟨before, List.infix_append [] before _, stands⟩
    · obtain ⟨part, inside, stands'⟩ := ArgumentsStandOn.part (next :: rest) after later e' further
      have suffix : after <:+ before ++ ⟨.comma, s⟩ :: after :=
        (List.suffix_cons _ after).trans (List.suffix_append before _)
      exact ⟨part, inside.trans suffix.isInfix, stands'⟩

/-- Arguments lie side by side. -/
theorem ArgumentsStandOn.pairwise : (es : List Expr) → (tokens : List (Located Token)) →
    ArgumentsStandOn es tokens → Ordered tokens →
    es.Pairwise fun x y => x.span.stop ≤ y.span.start
  | [], _, _, _ => List.Pairwise.nil
  | [e], _, _, _ => List.pairwise_singleton _ e
  | e :: next :: rest, _, ⟨before, s, after, rfl, stands, later⟩, ordered => by
    have parts := List.pairwise_append.mp ordered
    refine List.pairwise_cons.mpr ⟨fun e' member => ?_,
      ArgumentsStandOn.pairwise (next :: rest) after later parts.2.1.of_cons⟩
    obtain ⟨part, inside, stands'⟩ := ArgumentsStandOn.part (next :: rest) after later e' member
    have hull := StandsOn.hull e before stands parts.1
    have hull' := StandsOn.hull e' part stands' (Ordered.of_part parts.2.1.of_cons inside)
    obtain ⟨-, t, first, stops⟩ := hull.ends_mem
    obtain ⟨⟨u, second, starts⟩, -⟩ := hull'.ends_mem
    rw [← stops, ← starts]
    exact parts.2.2 t first u (List.mem_cons_of_mem _ (inside.subset second))

namespace StandsOn

variable {e : Expr} {tokens : List (Located Token)}

/-- Each part of an expression stands on its own part of the tokens. -/
theorem child (stands : e.StandsOn tokens) {e' : Expr} (member : e' ∈ e.children) :
    ∃ part, part <:+: tokens ∧ e'.StandsOn part := by
  cases e with
  | number value s => cases member
  | var name s => cases member
  | unary op s operand =>
    obtain ⟨rest, rfl, stands⟩ := stands
    obtain rfl := List.mem_singleton.mp member
    exact ⟨rest, (List.suffix_cons _ rest).isInfix, stands⟩
  | binary op s left right =>
    obtain ⟨before, after, rfl, onLeft, onRight⟩ := stands
    rcases List.mem_pair.mp member with rfl | rfl
    · exact ⟨before, (List.prefix_append before _).isInfix, onLeft⟩
    · exact ⟨after,
        ((List.suffix_cons _ after).trans (List.suffix_append before _)).isInfix, onRight⟩
  | apply f s operand =>
    obtain ⟨rest, rfl, stands, -⟩ := stands
    obtain rfl := List.mem_singleton.mp member
    exact ⟨rest, (List.suffix_cons _ rest).isInfix, stands⟩
  | call f s openSpan closeSpan operands =>
    obtain ⟨inside, rfl, stand⟩ := stands
    obtain ⟨part, isPart, stands⟩ := ArgumentsStandOn.part operands inside stand e' member
    exact ⟨part, isPart.trans (List.infix_append [_, _] inside [_]), stands⟩
  | parens openSpan closeSpan inner =>
    obtain ⟨inside, rfl, stands⟩ := stands
    obtain rfl := List.mem_singleton.mp member
    exact ⟨inside, List.infix_append [_] inside [_], stands⟩

/-- The parts of an expression lie inside of it. -/
theorem child_within (stands : e.StandsOn tokens) (ordered : Ordered tokens) {e' : Expr}
    (member : e' ∈ e.children) : e.span.start ≤ e'.span.start ∧ e'.span.stop ≤ e.span.stop := by
  obtain ⟨part, isPart, stands'⟩ := stands.child member
  have hull' := hull e' part stands' (ordered.of_part isPart)
  exact hull'.within (hull e tokens stands ordered) ordered isPart

/-- The parts of an expression lie side by side. -/
theorem children_pairwise (stands : e.StandsOn tokens) (ordered : Ordered tokens) :
    e.children.Pairwise fun x y => x.span.stop ≤ y.span.start := by
  cases e with
  | binary op s left right =>
    obtain ⟨before, after, rfl, onLeft, onRight⟩ := stands
    have parts := List.pairwise_append.mp ordered
    have hullLeft := hull left before onLeft parts.1
    have hullRight := hull right after onRight parts.2.1.of_cons
    have apart :=
      hullLeft.stop_le_start (Hull.cons ⟨Token.binary op, s⟩ hullRight parts.2.1) ordered
    simp only [Span.start_cover] at apart
    exact List.pairwise_pair.mpr (Nat.le_trans apart (Nat.min_le_right _ _))
  | call f s openSpan closeSpan operands =>
    obtain ⟨inside, rfl, stand⟩ := stands
    exact ArgumentsStandOn.pairwise operands inside stand
      (Ordered.of_part ordered (List.infix_append [_, _] inside [_]))
  | number value s => exact List.Pairwise.nil
  | var name s => exact List.Pairwise.nil
  | unary op s operand => exact List.pairwise_singleton _ _
  | apply f s operand => exact List.pairwise_singleton _ _
  | parens openSpan closeSpan inner => exact List.pairwise_singleton _ _

end StandsOn

mutual

theorem tokens_erase : (e : Expr) → e.erase.tokens = e.tokens
  | .number _ _ => rfl
  | .var _ _ => rfl
  | .unary _ _ operand => by simp [erase, tokens, tokens_erase operand]
  | .binary _ _ left right => by simp [erase, tokens, tokens_erase left, tokens_erase right]
  | .apply _ _ operand => by simp [erase, tokens, tokens_erase operand]
  | .call _ _ _ _ operands => by simp [erase, tokens, argumentTokens_eraseAll operands]
  | .parens _ _ inner => by simp [erase, tokens, tokens_erase inner]

theorem argumentTokens_eraseAll : (es : List Expr) →
    argumentTokens (eraseAll es) = argumentTokens es
  | [] => rfl
  | [e] => by simp [eraseAll, argumentTokens, tokens_erase e]
  | e :: next :: rest => by
    have later := argumentTokens_eraseAll (next :: rest)
    rw [eraseAll] at later
    simp [eraseAll, argumentTokens, tokens_erase e, later]

end

/-- Expressions that are built alike stand on equally many tokens. -/
theorem StandsOn.length_eq {e e' : Expr} {tokens tokens' : List (Located Token)}
    (stands : e.StandsOn tokens) (stands' : e'.StandsOn tokens') (same : e'.erase = e.erase) :
    tokens'.length = tokens.length := by
  have values : e'.tokens = e.tokens := by rw [← tokens_erase e', same, tokens_erase]
  rw [← StandsOn.values e tokens stands, ← StandsOn.values e' tokens' stands'] at values
  simpa using congrArg List.length values

mutual

/-- On a row of tokens stands at most one expression of a kind. -/
theorem StandsOn.unique : (e e' : Expr) → (tokens : List (Located Token)) → e.StandsOn tokens →
    e'.StandsOn tokens → e'.erase = e.erase → e' = e
  | .number _ _, e', _, rfl, stands', same => by
    cases e' <;> cases same
    cases stands'
    rfl
  | .var _ _, e', _, rfl, stands', same => by
    cases e' <;> cases same
    cases stands'
    rfl
  | .unary _ _ operand, e', _, ⟨rest, rfl, stands⟩, stands', same => by
    cases e' <;> simp only [erase, reduceCtorEq, unary.injEq, true_and] at same
    obtain ⟨rfl, same⟩ := same
    obtain ⟨rest, ⟨⟩, stands'⟩ := stands'
    rw [StandsOn.unique operand _ rest stands stands' same]
  | .binary _ _ left right, e', _, ⟨before, after, rfl, onLeft, onRight⟩, stands', same => by
    cases e' <;> simp only [erase, reduceCtorEq, binary.injEq, true_and] at same
    obtain ⟨rfl, sameLeft, sameRight⟩ := same
    obtain ⟨before', after', split, onLeft', onRight'⟩ := stands'
    obtain ⟨rfl, rest⟩ := List.append_inj split (onLeft'.length_eq onLeft sameLeft.symm)
    cases rest
    rw [StandsOn.unique left _ before onLeft onLeft' sameLeft,
      StandsOn.unique right _ after onRight onRight' sameRight]
  | .apply _ _ operand, e', _, ⟨rest, rfl, stands, _⟩, stands', same => by
    cases e' <;> simp only [erase, reduceCtorEq, apply.injEq, true_and] at same
    obtain ⟨rfl, same⟩ := same
    obtain ⟨rest, ⟨⟩, stands', -⟩ := stands'
    rw [StandsOn.unique operand _ rest stands stands' same]
  | .call _ _ _ _ operands, e', _, ⟨inside, rfl, stand⟩, stands', same => by
    cases e' <;> simp only [erase, reduceCtorEq, call.injEq, true_and] at same
    obtain ⟨rfl, same⟩ := same
    obtain ⟨inside', split, stand'⟩ := stands'
    simp only [List.cons.injEq, Located.mk.injEq, true_and] at split
    obtain ⟨rfl, rfl, split⟩ := split
    obtain ⟨rfl, closed⟩ := List.append_inj' split rfl
    cases closed
    rw [ArgumentsStandOn.unique operands _ inside stand stand' same]
  | .parens _ _ inner, e', _, ⟨inside, rfl, stands⟩, stands', same => by
    cases e' <;> simp only [erase, reduceCtorEq, parens.injEq, true_and] at same
    obtain ⟨inside', split, stands'⟩ := stands'
    simp only [List.cons.injEq, Located.mk.injEq, true_and] at split
    obtain ⟨rfl, split⟩ := split
    obtain ⟨rfl, closed⟩ := List.append_inj' split rfl
    cases closed
    rw [StandsOn.unique inner _ inside stands stands' same]

theorem ArgumentsStandOn.unique : (es es' : List Expr) → (tokens : List (Located Token)) →
    ArgumentsStandOn es tokens → ArgumentsStandOn es' tokens → eraseAll es' = eraseAll es → es' = es
  | [], es', _, _, _, same => by
    cases es' with
    | nil => rfl
    | cons => cases same
  | [e], es', tokens, stands, stands', same => by
    match es' with
    | [] => cases same
    | [e'] =>
      simp only [eraseAll, List.cons.injEq, and_true] at same
      rw [StandsOn.unique e e' tokens stands stands' same]
    | _ :: _ :: _ => simp [eraseAll] at same
  | e :: next :: rest, es', _, ⟨before, s, after, rfl, stands, later⟩, stands', same => by
    match es' with
    | [] => cases same
    | [_] => simp [eraseAll] at same
    | e' :: next' :: rest' =>
      obtain ⟨first, others⟩ :
          e'.erase = e.erase ∧ eraseAll (next' :: rest') = eraseAll (next :: rest) :=
        List.cons.inj same
      obtain ⟨before', s', after', split, stands', later'⟩ := stands'
      obtain ⟨rfl, parted⟩ := List.append_inj split (stands'.length_eq stands first.symm)
      cases parted
      rw [StandsOn.unique e e' before stands stands' first,
        ArgumentsStandOn.unique (next :: rest) (next' :: rest') after later later' others]

end

mutual

/-- What stands on tokens is read back from them: no operand is taken for the arguments of a
function. -/
theorem StandsOn.isPlain : (e : Expr) → (tokens : List (Located Token)) → e.StandsOn tokens →
    e.IsPlain
  | .number _ _, _, _ => trivial
  | .var _ _, _, _ => trivial
  | .unary _ _ operand, _, ⟨rest, _, stands⟩ => StandsOn.isPlain operand rest stands
  | .binary _ _ left right, _, ⟨before, after, _, onLeft, onRight⟩ =>
    ⟨StandsOn.isPlain left before onLeft, StandsOn.isPlain right after onRight⟩
  | .apply _ _ operand, _, ⟨rest, _, stands, bare⟩ => by
    refine ⟨?_, StandsOn.isPlain operand rest stands⟩
    rwa [← StandsOn.values operand rest stands, List.head?_map]
  | .call _ _ _ _ operands, _, ⟨inside, _, stand⟩ => ArgumentsStandOn.isPlain operands inside stand
  | .parens _ _ inner, _, ⟨inside, _, stands⟩ => StandsOn.isPlain inner inside stands

theorem ArgumentsStandOn.isPlain : (es : List Expr) → (tokens : List (Located Token)) →
    ArgumentsStandOn es tokens → AllPlain es
  | [], _, _ => trivial
  | [e], tokens, stands => ⟨StandsOn.isPlain e tokens stands, trivial⟩
  | e :: next :: rest, _, ⟨before, _, after, _, stands, later⟩ =>
    ⟨StandsOn.isPlain e before stands, ArgumentsStandOn.isPlain (next :: rest) after later⟩

end

end Expr
end ExactCalc
