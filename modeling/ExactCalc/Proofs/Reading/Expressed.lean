import ExactCalc.Proofs.Lexeme.Words
import ExactCalc.Proofs.Numeral.Display
import ExactCalc.Proofs.Reading.Completeness
import ExactCalc.Proofs.Reading.Defects
import ExactCalc.Proofs.Reading.Evaluation

/-!
# Texts that express numbers

A text expresses a number in so far as it is written with the tokens of an expression that has no
variables and that has the number as its value. If no literal of it has too many digits, such a text
is read as an expression line, and its value is the number, whatever the variables of the session
are and however roots are rounded. Texts that express numbers are put together with symbols in the
same way as their expressions are; how tightly the operator binds that joins the expression says
where the text may stand.
-/
namespace ExactCalc

variable {radix : Nat}

namespace Expr

/-- An expression without variables, as it is read from its tokens, and its value. -/
structure IsConstant (e : Expr) (v : ℚ) : Prop where
  plain : e.IsPlain
  noVariable : ∀ name, Token.var name ∉ e.tokens
  value : ∀ load a, e.eval load a = .ok v

/-- Operands without variables, as they are read from the arguments of a call, and their values. -/
structure AreConstant (es : List Expr) (vs : List ℚ) : Prop where
  tiered : AllTiered es
  plain : AllPlain es
  noVariable : ∀ name, Token.var name ∉ argumentTokens es
  value : ∀ load a, evalAll load a es = .ok vs

theorem areConstant_nil : AreConstant [] [] :=
  ⟨trivial, trivial, nofun, fun _ _ => rfl⟩

theorem AreConstant.cons {e : Expr} {es : List Expr} {v : ℚ} {vs : List ℚ} (tiered : e.IsTiered)
    (constant : e.IsConstant v) (others : AreConstant es vs) : AreConstant (e :: es) (v :: vs) where
  tiered := ⟨tiered, others.tiered⟩
  plain := ⟨constant.plain, others.plain⟩
  noVariable := by
    intro name
    cases es with
    | nil => exact constant.noVariable name
    | cons e' es => simp [argumentTokens, constant.noVariable, others.noVariable name]
  value := by
    intro load a
    simp only [evalAll, constant.value, others.value]
    rfl

end Expr

/-- Only the name of a variable may have a character that is not ASCII. -/
theorem Token.Denotes.isAscii {word : Text} {t : Token} (denotes : Denotes radix word t)
    (noVariable : ∀ name, t ≠ .var name) : ∀ c ∈ word, Text.isAscii c = true := by
  cases denotes with
  | @symbol c t symbol =>
    intro d member
    obtain rfl := List.mem_singleton.mp member
    unfold ofSymbol? at symbol
    split at symbol
    all_goals first | rfl | cases symbol
  | var name => exact absurd rfl (noVariable _)
  | keyword keyword =>
    rcases word_of_keyword keyword with rfl | rfl | rfl | rfl <;>
      exact List.all_eq_true.mp (by decide)
  | number literal => exact fun c member => (literal.isWordChar c member).2

namespace Text

/-- A text is read as an expression without variables that has the value, whatever the variables of
the session are and however roots are rounded. -/
def ReadsAs (radix : Nat) (text : Text) (v : ℚ) : Prop :=
  ∃ tokens statement, Line.read radix text = .ok (.expression tokens) ∧
    (∀ name span, ⟨.var name, span⟩ ∉ tokens) ∧
    Statement.read tokens = .ok statement ∧ statement.target = none ∧
    ∀ (store : Option Memory) a, statement.root.eval (VariableStore.load store) a = .ok v

/-- A text is written with the tokens of an expression of numbers alone that has the value. The
operator that joins the halves of the expression, if there is one, is of a tier before the given
one. -/
def Expresses (radix tier : Nat) (text : Text) (v : ℚ) : Prop :=
  ∃ e : Expr, e.Below tier ∧ e.IsConstant v ∧
    List.Forall₂ (Token.Denotes radix) (words text) e.tokens

variable {text : Text} {tier : Nat} {v : ℚ}

theorem isAscii_of_denotes {text : Text} {tokens : List Token}
    (each : List.Forall₂ (Token.Denotes radix) (words text) tokens)
    (noVariable : ∀ name, Token.var name ∉ tokens) : ∀ c ∈ text, isAscii c = true := by
  have inWords : ∀ word ∈ words text, ∀ c ∈ word, isAscii c = true := by
    generalize words text = listed at each
    induction each with
    | nil => nofun
    | @cons word t _ _ denotes _ ih =>
      simp only [List.mem_cons, not_or, forall_and] at noVariable
      refine List.forall_mem_cons.mpr ⟨denotes.isAscii fun name => ?_, ih noVariable.2⟩
      exact Ne.symm (noVariable.1 name)
  intro c member
  cases blank : isBlank c with
  | true => exact isAscii_of_isBlank blank
  | false =>
    obtain ⟨word, listed, inside⟩ := exists_mem_words member blank
    exact inWords word listed c inside

theorem Expresses.readsAs (expresses : text.Expresses radix tier v) (fits : text.Fits radix) :
    text.ReadsAs radix v := by
  obtain ⟨e, below, constant, each⟩ := expresses
  obtain ⟨tokens, lexed, values⟩ :=
    exists_tokens_of_values fits (List.forall₂_map_left_iff.mp each)
  have begins : tokens.head?.map (·.val) ≠ some (.binary .divide) := by
    rw [← List.head?_map, values]
    exact e.head_tokens_ne_divide
  have asExpression : Line.read radix text = .ok (.expression tokens) :=
    Line.read_eq_expression.mpr
      ⟨isAscii_of_denotes each constant.noVariable, noSlash_of_tokens lexed begins, lexed⟩
  obtain ⟨root, success, same⟩ :=
    Statement.readExpr_of_tokens e below.1 constant.plain tokens values
  have noTarget : Statement.splitTarget tokens = (none, tokens) :=
    Statement.splitTarget_of_not_mem (by rw [values]; exact Statement.assign_not_mem e)
  refine ⟨tokens, ⟨none, root⟩, asExpression, ?_, ?_, rfl, ?_⟩
  · intro name span member
    exact constant.noVariable name (values ▸ List.mem_map_of_mem member)
  · simp only [Statement.read, noTarget, success]
    rfl
  · exact fun store a => Expr.eval_of_erase_eq (VariableStore.placeless_load store) same
      (constant.value _ a)

/-- A text that expresses a number is not read if a literal of it has too many digits. -/
theorem Expresses.read_eq_unreadable (expresses : text.Expresses radix tier v)
    (long : ¬text.Fits radix) :
    ∃ x ∈ lexemes text, ¬Literal.Fits radix x.val ∧
      Line.read radix text = .error (.defect (.unreadable (Literal.digitCount x.val))) := by
  obtain ⟨e, below, constant, each⟩ := expresses
  have denotes := List.forall₂_map_left_iff.mp each
  obtain ⟨x, member, tooLong, fails⟩ :=
    exists_tokens_eq_unreadable
      (fun y listed => (exists_of_forall₂ denotes y listed).imp fun _ => And.right) long
  refine ⟨x, member, tooLong, ?_⟩
  rw [Line.read_eq_tokens radix (isAscii_of_denotes each constant.noVariable)
    (noSlash_of_denotes denotes e.head_tokens_ne_divide), fails]
  rfl

namespace Expresses

theorem mono {later : Nat} (expresses : text.Expresses radix tier v) (le : tier ≤ later) :
    text.Expresses radix later v := by
  obtain ⟨e, below, rest⟩ := expresses
  exact ⟨e, below.mono le, rest⟩

theorem literal {word : Text} (denotes : Literal.Denotes radix word v) :
    word.Expresses radix 0 v := by
  -- Here as below any place will do for what the expression is read from.
  refine ⟨.number v ⟨0, 0⟩, (Expr.below_zero_iff _).mpr ⟨trivial, rfl⟩,
    ⟨trivial, by simp [Expr.tokens], fun _ _ => rfl⟩, ?_⟩
  rw [words_word denotes.ne_nil fun c member => (denotes.isWordChar c member).1]
  exact .cons (.number denotes) .nil

theorem negated (expresses : text.Expresses radix 0 v) : Expresses radix 0 ('-' :: text) (-v) := by
  obtain ⟨e, below, constant, each⟩ := expresses
  refine ⟨.unary .negate ⟨0, 0⟩ e, Expr.below_zero_unary _ _ _ below, ⟨constant.plain, ?_, ?_⟩, ?_⟩
  · simp [Expr.tokens, UnaryOp.token, constant.noVariable]
  · intro load a
    simp only [Expr.eval, constant.value]
    rfl
  · rw [words_symbol rfl]
    exact .cons (.symbol rfl) each

variable {before after : Text} (blankBefore : ∀ c ∈ before, isBlank c = true)
  (blankAfter : ∀ c ∈ after, isBlank c = true)

include blankBefore blankAfter

/-- An operator between blanks joins what is expressed by tiers up to its own on its left and by
tiers before its own on its right. -/
theorem joined {left right : Text} {v w u : ℚ} {c : Char} {op : BinaryOp}
    (onLeft : left.Expresses radix (op.tier + 1) v) (onRight : right.Expresses radix op.tier w)
    (symbol : Token.ofSymbol? c = some (.binary op)) (value : ∀ a, op.value a v w = .ok u) :
    Expresses radix (op.tier + 1) (left ++ (before ++ c :: (after ++ right))) u := by
  obtain ⟨e, below, constant, each⟩ := onLeft
  obtain ⟨e', below', constant', each'⟩ := onRight
  refine ⟨.binary op ⟨0, 0⟩ e e', Expr.below_binary op _ e e' below below',
    ⟨⟨constant.plain, constant'.plain⟩, ?_, ?_⟩, ?_⟩
  · simp [Expr.tokens, constant.noVariable, constant'.noVariable]
  · intro load a
    simp only [Expr.eval, constant.value, constant'.value]
    exact MathError.blame_eq_ok.mpr (value a)
  · rw [words_append_symbol blankBefore (by rw [symbol]; rfl), words_blanks blankAfter]
    exact List.rel_append each (.cons (.symbol symbol) each')

theorem parenthesized (expresses : text.Expresses radix tier v) :
    Expresses radix 0 ('(' :: (before ++ (text ++ (after ++ [')'])))) v := by
  obtain ⟨e, below, constant, each⟩ := expresses
  refine ⟨.parens ⟨0, 0⟩ ⟨0, 0⟩ e, (Expr.below_zero_iff _).mpr ⟨below.1, rfl⟩,
    ⟨constant.plain, ?_, fun load a => constant.value load a⟩, ?_⟩
  · simp [Expr.tokens, constant.noVariable]
  · rw [words_symbol rfl, words_blanks blankBefore, words_append_symbol blankAfter rfl]
    exact .cons (.symbol rfl) (List.rel_append each (.cons (.symbol rfl) .nil))

/-- Texts between commas are written with the tokens of arguments. -/
theorem listed {texts : List Text} {vs : List ℚ}
    (each : List.Forall₂ (Expresses radix tier) texts vs) :
    ∃ es, es.length = texts.length ∧ Expr.AreConstant es vs ∧
      List.Forall₂ (Token.Denotes radix)
        (words (List.intercalate (before ++ ',' :: after) texts ++ [')']))
        (Expr.argumentTokens es ++ [.closeParen]) := by
  have closed : List.Forall₂ (Token.Denotes radix) (words [')']) [.closeParen] :=
    .cons (.symbol rfl) .nil
  induction each with
  | nil => exact ⟨[], rfl, Expr.areConstant_nil, closed⟩
  | @cons text v texts vs expresses others ih =>
    obtain ⟨e, below, constant, denotes⟩ := expresses
    obtain ⟨es, length, constants, listed⟩ := ih
    refine ⟨e :: es, congrArg Nat.succ length, constants.cons below.1 constant, ?_⟩
    cases others with
    | nil =>
      obtain rfl : es = [] := List.length_eq_zero_iff.mp length
      rw [List.intercalate_singleton, words_append (by simp; decide)]
      exact List.rel_append denotes closed
    | cons first others =>
      obtain ⟨e', es, rfl⟩ := List.exists_cons_of_length_eq_add_one length
      have written : Expr.argumentTokens (e :: e' :: es) ++ [.closeParen] =
          e.tokens ++ .comma :: (Expr.argumentTokens (e' :: es) ++ [.closeParen]) :=
        List.append_assoc _ _ _
      rw [List.intercalate_cons_cons, written]
      simp only [List.append_assoc, List.cons_append]
      rw [words_append_symbol blankBefore rfl, words_blanks blankAfter]
      exact List.rel_append denotes (.cons (.symbol rfl) listed)

/-- A call of a function with arguments between commas. -/
theorem called {name : Text} {f : Func} {texts : List Text} {vs : List ℚ} {u : ℚ}
    (keyword : Token.ofKeyword? name = some (.func f))
    (each : List.Forall₂ (Expresses radix tier) texts vs) (value : f.value vs = .ok u) :
    Expresses radix 0
      (name ++ '(' :: (List.intercalate (before ++ ',' :: after) texts ++ [')'])) u := by
  obtain ⟨es, -, constants, listed⟩ := listed blankBefore blankAfter each
  refine ⟨.call f ⟨0, 0⟩ ⟨0, 0⟩ ⟨0, 0⟩ es, (Expr.below_zero_iff _).mpr ⟨constants.tiered, rfl⟩,
    ⟨constants.plain, ?_, ?_⟩, ?_⟩
  · simp [Expr.tokens, constants.noVariable]
  · intro load a
    simp only [Expr.eval, constants.value]
    exact MathError.blame_eq_ok.mpr value
  · have name : words name = [name] := by
      rcases Token.word_of_keyword keyword with rfl | rfl | rfl | rfl <;> decide
    rw [words_append (by rintro c ⟨⟩; decide), words_symbol rfl, name]
    exact .cons (.keyword keyword) (.cons (.symbol rfl) listed)

end Expresses

/-- A text that shows a number expresses it with operators that bind no looser than division. -/
theorem Shows.expresses (shows : Shows radix text v) :
    text.Expresses radix (BinaryOp.divide.tier + 1) v := by
  induction shows with
  | literal denotes => exact (Expresses.literal denotes).mono (Nat.zero_le _)
  | negative denotes => exact (Expresses.literal denotes).negated.mono (Nat.zero_le _)
  | quotient above below nonzero ih =>
    have below := (Expresses.literal below).mono (Nat.zero_le BinaryOp.divide.tier)
    exact ih.joined (c := '/') (List.forall_mem_nil _) (List.forall_mem_nil _) below rfl
      fun a => if_neg nonzero

end Text
end ExactCalc
