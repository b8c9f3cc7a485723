import Mathlib.Logic.Relation
import ExactCalc.Proofs.Lexeme.Slice
import ExactCalc.Proofs.Reading.Completeness
import ExactCalc.Proofs.Reading.Soundness
import ExactCalc.Proofs.Reading.Standing

/-!
# Parts of a tree are trees of their slices

Every node of a tree that was read from a line has a span in the line, the spans of its parts lie in
it side by side, and the slice of the line at the span is a line that is read as the node alone, in
its place at the start. A node stands on a part of the tokens of the line; these are the tokens of
the slice, further left, and no other tree of the same build stands on them.
-/
namespace ExactCalc

namespace Expr

open Located

mutual

/-- The expression with all places further right. -/
def shift (k : Nat) : Expr → Expr
  | number value s => number value (s.shift k)
  | var name s => var name (s.shift k)
  | unary op s operand => unary op (s.shift k) (operand.shift k)
  | binary op s left right => binary op (s.shift k) (left.shift k) (right.shift k)
  | apply f s operand => apply f (s.shift k) (operand.shift k)
  | call f s openSpan closeSpan operands =>
    call f (s.shift k) (openSpan.shift k) (closeSpan.shift k) (shiftAll k operands)
  | parens openSpan closeSpan inner =>
    parens (openSpan.shift k) (closeSpan.shift k) (inner.shift k)

def shiftAll (k : Nat) : List Expr → List Expr
  | [] => []
  | e :: rest => e.shift k :: shiftAll k rest

end

mutual

theorem erase_shift (k : Nat) : (e : Expr) → (e.shift k).erase = e.erase
  | number _ _ => rfl
  | var _ _ => rfl
  | unary _ _ operand => by simp [shift, erase, erase_shift k operand]
  | binary _ _ left right => by simp [shift, erase, erase_shift k left, erase_shift k right]
  | apply _ _ operand => by simp [shift, erase, erase_shift k operand]
  | call _ _ _ _ operands => by simp [shift, erase, eraseAll_shiftAll k operands]
  | parens _ _ inner => by simp [shift, erase, erase_shift k inner]

theorem eraseAll_shiftAll (k : Nat) : (es : List Expr) → eraseAll (shiftAll k es) = eraseAll es
  | [] => rfl
  | e :: rest => by simp [shiftAll, eraseAll, erase_shift k e, eraseAll_shiftAll k rest]

end

mutual

/-- A tree further right stands on tokens further right. -/
theorem StandsOn.shift (k : Nat) : (e : Expr) → (tokens : List (Located Token)) →
    e.StandsOn tokens → (e.shift k).StandsOn (tokens.map (·.shift k))
  | .number _ _, _, rfl => rfl
  | .var _ _, _, rfl => rfl
  | .unary _ _ operand, _, ⟨rest, rfl, stands⟩ => ⟨_, rfl, StandsOn.shift k operand rest stands⟩
  | .binary _ _ left right, _, ⟨before, after, rfl, onLeft, onRight⟩ =>
    ⟨_, _, List.map_append, StandsOn.shift k left before onLeft,
      StandsOn.shift k right after onRight⟩
  | .apply _ _ operand, _, ⟨rest, rfl, stands, bare⟩ => by
    refine ⟨_, rfl, StandsOn.shift k operand rest stands, ?_⟩
    rwa [List.head?_map, Option.map_map]
  | .call _ _ _ _ operands, _, ⟨inside, rfl, stand⟩ =>
    ⟨_, by simp [Located.shift], ArgumentsStandOn.shift k operands inside stand⟩
  | .parens _ _ inner, _, ⟨inside, rfl, stands⟩ =>
    ⟨_, by simp [Located.shift], StandsOn.shift k inner inside stands⟩

theorem ArgumentsStandOn.shift (k : Nat) : (es : List Expr) → (tokens : List (Located Token)) →
    ArgumentsStandOn es tokens → ArgumentsStandOn (shiftAll k es) (tokens.map (·.shift k))
  | [], _, rfl => rfl
  | [e], tokens, stands => StandsOn.shift k e tokens stands
  | e :: next :: rest, _, ⟨before, s, after, rfl, stands, later⟩ =>
    ⟨_, s.shift k, _, List.map_append, StandsOn.shift k e before stands,
      ArgumentsStandOn.shift k (next :: rest) after later⟩

end

/-- A node of a tree: its root, a part of the root, a part of a part and so on. -/
def HasNode (root e : Expr) : Prop :=
  Relation.ReflTransGen (fun parent child => child ∈ parent.children) root e

theorem IsTiered.child {e e' : Expr} (tiered : e.IsTiered) (member : e' ∈ e.children) :
    e'.IsTiered := by
  cases e with
  | number value s => cases member
  | var name s => cases member
  | unary op s operand =>
    obtain rfl := List.mem_singleton.mp member
    exact tiered.2
  | binary op s left right =>
    rcases List.mem_pair.mp member with rfl | rfl
    · exact tiered.2.2.1
    · exact tiered.2.2.2
  | apply f s operand =>
    obtain rfl := List.mem_singleton.mp member
    exact tiered.2
  | call f s openSpan closeSpan operands => exact (allTiered_iff operands).mp tiered e' member
  | parens openSpan closeSpan inner =>
    obtain rfl := List.mem_singleton.mp member
    exact tiered

/-- Each node stands on a part of the tokens of its tree and respects the tiers. -/
theorem HasNode.part {root e : Expr} {tokens : List (Located Token)} (node : root.HasNode e)
    (stands : root.StandsOn tokens) (tiered : root.IsTiered) :
    (∃ part, part <:+: tokens ∧ e.StandsOn part) ∧ e.IsTiered := by
  induction node with
  | refl => exact ⟨⟨tokens, List.infix_refl tokens, stands⟩, tiered⟩
  | tail _ member ih =>
    obtain ⟨⟨part, isPart, onPart⟩, tiered⟩ := ih
    obtain ⟨inner, isInner, onInner⟩ := onPart.child member
    exact ⟨⟨inner, isInner.trans isPart, onInner⟩, tiered.child member⟩

end Expr

namespace Statement

open Located

theorem tiered_of_read {tokens : List (Located Token)} {s : Statement}
    (read : Statement.read tokens = .ok s) : s.root.IsTiered := by
  obtain ⟨root, found, rest⟩ := bind_eq_ok_iff.mp read
  cases rest
  obtain ⟨after, run, finished⟩ := bind_eq_ok_iff.mp found
  exact (Reader.finish_sound (Reader.run_sound _ Reader.sound_start run).1 finished).2

/-- The tokens that a tree stands on, moved to the left, are read as the tree, moved likewise. -/
theorem read_of_standsOn {e : Expr} {own : List (Located Token)} {k : Nat}
    (stands : e.StandsOn (own.map (·.shift k))) (tiered : e.IsTiered) :
    ∃ e', Statement.read own = .ok ⟨none, e'⟩ ∧ e'.shift k = e := by
  have written : own.map (·.val) = e.tokens := by
    rw [← Expr.StandsOn.values e _ stands, List.map_map]
    rfl
  have plain := Expr.StandsOn.isPlain e _ stands
  obtain ⟨e', success, same⟩ := readExpr_of_tokens e tiered plain own written
  have noTarget : splitTarget own = (none, own) :=
    splitTarget_of_not_mem (by rw [written]; exact assign_not_mem e)
  have accepted : Statement.read own = .ok ⟨none, e'⟩ := by
    simp only [Statement.read, noTarget, success]
    rfl
  have onOwn : e'.StandsOn own := by
    have := standsOn_of_read accepted
    rwa [noTarget] at this
  refine ⟨e', accepted, Expr.StandsOn.unique e _ _ stands (Expr.StandsOn.shift k e' own onOwn) ?_⟩
  rw [Expr.erase_shift, same]

/-- Every node of a tree that is read from a line has its place in the line, and its parts have
theirs in it, side by side and from left to right. The slice of the line at the node is read as
nothing but the node, further left by as much as the slice. -/
theorem nodes_stand_on_slices (radix : Nat) (line : Text) (tokens : List (Located Token))
    (statement : Statement) (read : Line.read radix line = .ok (.expression tokens))
    (built : Statement.read tokens = .ok statement) (e : Expr) (node : statement.root.HasNode e) :
    e.span.stop ≤ line.length ∧
    (∀ child ∈ e.children, e.span.start ≤ child.span.start ∧ child.span.stop ≤ e.span.stop) ∧
    e.children.Pairwise (fun x y => x.span.stop ≤ y.span.start) ∧
    ∃ own e', Line.read radix (e.span.slice line) = .ok (.expression own) ∧
      Statement.read own = .ok ⟨none, e'⟩ ∧ e'.shift e.span.start = e := by
  obtain ⟨ascii, -, read⟩ := Line.read_eq_expression.mp read
  obtain ⟨⟨part, isPart, stands⟩, tiered⟩ :=
    node.part (standsOn_of_read built) (tiered_of_read built)
  have isPart := isPart.trans (splitTarget_suffix tokens).isInfix
  have ordered : Ordered part := Ordered.of_part (Text.pairwise_tokens read) isPart
  have hull := Expr.StandsOn.hull e part stands ordered
  refine ⟨?_, fun child member => stands.child_within ordered member,
    stands.children_pairwise ordered, ?_⟩
  · obtain ⟨-, t, member, stops⟩ := hull.ends_mem
    rw [← stops]
    exact Text.stop_le_of_mem read (isPart.subset member)
  · obtain ⟨before, after, split⟩ := isPart
    rw [← split, List.append_assoc] at read
    obtain ⟨own, found, rfl⟩ := Text.tokens_slice read hull
    obtain ⟨e', accepted, same⟩ := read_of_standsOn stands tiered
    have begins : own.head?.map (·.val) ≠ some (.binary .divide) := by
      rw [← List.head?_map]
      have values := Expr.StandsOn.values e _ stands
      rw [List.map_map] at values
      exact values ▸ e.head_tokens_ne_divide
    refine ⟨own, e', Line.read_eq_expression.mpr ⟨?_, Text.noSlash_of_tokens found begins, found⟩,
      accepted, same⟩
    intro c member
    exact ascii c (List.mem_of_mem_drop (List.mem_of_mem_take member))

/-- The product inside the parentheses of `$x = abs (2 * $y)` is the tree of `2 * $y`. -/
theorem nodes_stand_on_slices_product :
    ∃ own e', Line.read 10 "2 * $y".toList = .ok (.expression own) ∧
      Statement.read own = .ok ⟨none, e'⟩ ∧
      e'.shift 10 = .binary .multiply ⟨12, 1⟩ (.number 2 ⟨10, 1⟩) (.var ['$', 'y'] ⟨14, 2⟩) := by
  have read : Line.read 10 "$x = abs (2 * $y)".toList = .ok (.expression
      [⟨.var ['$', 'x'], ⟨0, 2⟩⟩, ⟨.assign, ⟨3, 1⟩⟩, ⟨.unary .absolute, ⟨5, 3⟩⟩,
        ⟨.openParen, ⟨9, 1⟩⟩, ⟨.number 2, ⟨10, 1⟩⟩, ⟨.binary .multiply, ⟨12, 1⟩⟩,
        ⟨.var ['$', 'y'], ⟨14, 2⟩⟩, ⟨.closeParen, ⟨16, 1⟩⟩]) := by decide +kernel
  have node : (Expr.unary (.word .absolute) ⟨5, 3⟩ (.parens ⟨9, 1⟩ ⟨16, 1⟩
      (.binary .multiply ⟨12, 1⟩ (.number 2 ⟨10, 1⟩) (.var ['$', 'y'] ⟨14, 2⟩)))).HasNode
      (.binary .multiply ⟨12, 1⟩ (.number 2 ⟨10, 1⟩) (.var ['$', 'y'] ⟨14, 2⟩)) :=
    .tail (.single List.mem_cons_self) List.mem_cons_self
  exact (nodes_stand_on_slices 10 _ _ ⟨some ⟨['$', 'x'], ⟨0, 2⟩⟩, _⟩ read rfl _ node).2.2.2

end Statement
end ExactCalc
