import ExactCalc.Proofs.Lexeme.Meaning
import ExactCalc.Proofs.Result

/-!
# Reading a line lexeme by lexeme

An expression line is read into one token for each of its lexemes, if every lexeme stands for a
token and none is a literal with too many digits. Otherwise it fails as the first lexeme does that
is not read: the word is to blame if it stands for no token, and a literal with too many digits is a
defect. Before that, a character that is not ASCII is to blame wherever it stands.
-/
namespace ExactCalc

namespace Token

theorem ofLexeme_eq_ok {radix : Nat} {x : Located Text} {t : Located Token} :
    ofLexeme radix x = .ok t ↔
      Literal.Fits radix x.val ∧ t.span = x.span ∧ Denotes radix x.val t.val := by
  obtain ⟨token, span⟩ := t
  rw [and_left_comm, and_comm (a := Literal.Fits radix x.val), ← ofText_eq_ok]
  cases means : ofText radix x.val <;> simp [ofLexeme, means, eq_comm, and_comm]

/-- A lexeme is not read as a token: it stands for none, or is a literal that does not fit. -/
inductive Unreads (radix : Nat) (x : Located Text) : Failure → Prop where
  | meaningless (none : ¬∃ t, Denotes radix x.val t) :
      Unreads radix x (.refused (.lexical ⟨.invalidNumber x.val, x.span⟩))
  | overlong (long : ¬Literal.Fits radix x.val) :
      Unreads radix x (.defect (.unreadable (Literal.digitCount x.val)))

theorem ofLexeme_eq_error {radix : Nat} {x : Located Text} {f : Failure} :
    ofLexeme radix x = .error f ↔ Unreads radix x f := by
  constructor
  · intro fails
    cases means : ofText radix x.val with
    | ok t => simp [ofLexeme, means] at fails
    | error reason =>
      rw [ofLexeme, means] at fails
      rcases ofText_eq_error.mp means with ⟨none, rfl⟩ | ⟨long, rfl⟩
      · cases fails
        exact .meaningless none
      · cases fails
        exact .overlong long
  · rintro (none | long)
    · rw [ofLexeme, ofText_eq_error.mpr (.inl ⟨none, rfl⟩)]
      rfl
    · rw [ofLexeme, ofText_eq_error.mpr (.inr ⟨long, rfl⟩)]
      rfl

end Token

/-- Where not all of a list have a property there is a first that does not. -/
theorem exists_first_not {α : Type} {P : α → Prop} {xs : List α} (failing : ¬∀ x ∈ xs, P x) :
    ∃ earlier x later, xs = earlier ++ x :: later ∧ (∀ y ∈ earlier, P y) ∧ ¬P x := by
  classical
  cases found : xs.find? (¬P ·) with
  | none => exact absurd (by simpa using found) failing
  | some x =>
    obtain ⟨fails, earlier, later, split, before⟩ := List.find?_eq_some_iff_append.mp found
    exact ⟨earlier, x, later, split, by simpa using before, by simpa using fails⟩

namespace Text

variable {radix : Nat} {source : Text}

/-- No literal of a text has too many digits. -/
def Fits (radix : Nat) (source : Text) : Prop := ∀ x ∈ lexemes source, Literal.Fits radix x.val

/-- The tokens of a line stand where its lexemes stand and are what these denote, if they fit. -/
theorem tokens_eq_ok {tokens : List (Located Token)} :
    source.tokens radix = .ok tokens ↔
      source.Fits radix ∧
        List.Forall₂ (fun x t => t.span = x.span ∧ Token.Denotes radix x.val t.val)
          (lexemes source) tokens := by
  simp only [Text.tokens, mapM_eq_ok_iff, Token.ofLexeme_eq_ok]
  exact List.forall₂_and_left _ _

theorem exists_tokens (fits : source.Fits radix)
    (meaningful : ∀ x ∈ lexemes source, ∃ t, Token.Denotes radix x.val t) :
    ∃ tokens, source.tokens radix = .ok tokens := by
  refine exists_mapM_eq_ok fun x member => ?_
  obtain ⟨t, denotes⟩ := meaningful x member
  exact ⟨⟨t, x.span⟩, Token.ofLexeme_eq_ok.mpr ⟨fits x member, rfl, denotes⟩⟩

/-- The values of the tokens of a line are what its lexemes denote. -/
theorem exists_tokens_of_values {values : List Token} (fits : source.Fits radix)
    (each : List.Forall₂ (fun x t => Token.Denotes radix x.val t) (lexemes source) values) :
    ∃ tokens, source.tokens radix = .ok tokens ∧ tokens.map (·.val) = values := by
  simp only [tokens_eq_ok, and_iff_right fits]
  generalize lexemes source = lexemes at each
  induction each with
  | nil => exact ⟨[], .nil, rfl⟩
  | @cons x t _ _ denotes _ ih =>
    obtain ⟨tokens, meant, rfl⟩ := ih
    exact ⟨⟨t, x.span⟩ :: tokens, .cons ⟨rfl, denotes⟩ meant, rfl⟩

theorem map_span_eq {lexemes : List (Located Text)} {tokens : List (Located Token)}
    (each : List.Forall₂ (fun x t => t.span = x.span ∧ Token.Denotes radix x.val t.val) lexemes
      tokens) : tokens.map (·.span) = lexemes.map (·.span) := by
  induction each with
  | nil => rfl
  | cons same _ ih => rw [List.map_cons, List.map_cons, same.1, ih]

/-- Tokens have the spans of their lexemes. -/
theorem map_span_tokens {tokens : List (Located Token)} (read : source.tokens radix = .ok tokens) :
    tokens.map (·.span) = (lexemes source).map (·.span) :=
  map_span_eq (tokens_eq_ok.mp read).2

/-- A line fails as the first of its lexemes does that is not read as a token. -/
theorem tokens_eq_error {earlier later : List (Located Text)} {x : Located Text} {f : Failure}
    (split : lexemes source = earlier ++ x :: later)
    (reads : ∀ y ∈ earlier, Literal.Fits radix y.val ∧ ∃ t, Token.Denotes radix y.val t)
    (fails : Token.Unreads radix x f) : source.tokens radix = .error f := by
  rw [Text.tokens, split]
  refine mapM_eq_error (fun y member => ?_) (Token.ofLexeme_eq_error.mpr fails)
  obtain ⟨fits, t, denotes⟩ := reads y member
  exact ⟨⟨t, y.span⟩, Token.ofLexeme_eq_ok.mpr ⟨fits, rfl, denotes⟩⟩

/-- Where every lexeme stands for a token, a line that is not read has too many digits somewhere. -/
theorem exists_tokens_eq_unreadable
    (meaningful : ∀ x ∈ lexemes source, ∃ t, Token.Denotes radix x.val t)
    (long : ¬source.Fits radix) :
    ∃ x ∈ lexemes source, ¬Literal.Fits radix x.val ∧
      source.tokens radix = .error (.defect (.unreadable (Literal.digitCount x.val))) := by
  obtain ⟨earlier, x, later, split, before, long⟩ := exists_first_not long
  have listed (y : Located Text) (member : y ∈ earlier) : y ∈ lexemes source := by
    simp [split, member]
  exact ⟨x, by simp [split], long, tokens_eq_error split
    (fun y member => ⟨before y member, meaningful y (listed y member)⟩) (.overlong long)⟩

theorem exists_lexeme {tokens : List (Located Token)} (read : source.tokens radix = .ok tokens)
    {t : Located Token} (member : t ∈ tokens) : ∃ x, IsLexeme source x ∧ x.span = t.span := by
  have listed : t.span ∈ (lexemes source).map (·.span) :=
    map_span_tokens read ▸ List.mem_map_of_mem member
  obtain ⟨x, found, same⟩ := List.mem_map.mp listed
  exact ⟨x, isLexeme_of_mem found, same⟩

theorem pairwise_tokens {tokens : List (Located Token)} (read : source.tokens radix = .ok tokens) :
    tokens.Pairwise fun t u => t.span.stop ≤ u.span.start := by
  have ordered : (tokens.map (·.span)).Pairwise fun s s' => s.stop ≤ s'.start := by
    rw [map_span_tokens read, List.pairwise_map]
    exact pairwise_lexemes source
  exact List.pairwise_map.mp ordered

/-- No two tokens stand in the same place. -/
theorem nodup_spans {tokens : List (Located Token)} (read : source.tokens radix = .ok tokens) :
    (tokens.map (·.span)).Nodup := by
  rw [List.Nodup, List.pairwise_map]
  refine (pairwise_tokens read).imp_of_mem fun member _ apart same => ?_
  obtain ⟨x, lexeme, own⟩ := exists_lexeme read member
  have wide := lexeme.width_pos
  rw [← same, ← own, Span.stop] at apart
  omega

/-- Outside of the tokens are only blanks. -/
theorem isBlank_of_outside {tokens : List (Located Token)} (read : source.tokens radix = .ok tokens)
    {i : Nat} {c : Char} (found : source[i]? = some c)
    (outside : ∀ t ∈ tokens, ¬(t.span.start ≤ i ∧ i < t.span.stop)) : isBlank c = true := by
  by_contra noBlank
  obtain ⟨x, member, bounds⟩ := exists_mem_lexemes found (Bool.eq_false_iff.mpr noBlank)
  have listed : x.span ∈ tokens.map (·.span) := map_span_tokens read ▸ List.mem_map_of_mem member
  obtain ⟨t, read, same⟩ := List.mem_map.mp listed
  exact outside t read (by rwa [same])

/-- Symbols stand for tokens and are no literals, so that only a run can be to blame. -/
theorem IsLexeme.isRun_of_unread {x : Located Text} (lexeme : IsLexeme source x)
    (unread : ¬(Literal.Fits radix x.val ∧ ∃ t, Token.Denotes radix x.val t)) :
    IsRun source x.span := by
  refine lexeme.kind.resolve_left fun symbol => unread ?_
  obtain ⟨c, found, isSymbol⟩ := symbol.symbol
  obtain ⟨t, means⟩ := Option.isSome_iff_exists.mp isSymbol
  have bound : x.span.start < source.length := (List.getElem?_eq_some_iff.mp found).1
  have alone : x.val = [c] := by
    rw [lexeme.text, Span.slice, symbol.width, List.take_one, List.head?_drop, found]
    rfl
  rw [alone]
  exact ⟨Token.fits_of_symbol means, t, .symbol means⟩

theorem reads_of_runs
    (runs : ∀ x ∈ lexemes source, IsRun source x.span →
      Literal.Fits radix x.val ∧ ∃ t, Token.Denotes radix x.val t) :
    ∀ x ∈ lexemes source, Literal.Fits radix x.val ∧ ∃ t, Token.Denotes radix x.val t := by
  intro x member
  by_contra unread
  exact unread (runs x member ((isLexeme_of_mem member).isRun_of_unread unread))

/-- A lexeme lies inside its line. -/
theorem IsLexeme.stop_le {x : Located Text} (lexeme : IsLexeme source x) :
    x.span.stop ≤ source.length := by
  have last : ∃ c, source[x.span.stop - 1]? = some c := by
    rcases lexeme.kind with symbol | run
    · obtain ⟨c, found, -⟩ := symbol.symbol
      exact ⟨c, by rwa [Span.stop, symbol.width, Nat.add_sub_cancel]⟩
    · have wide := run.nonempty
      obtain ⟨c, found, -⟩ := run.inside (x.span.stop - 1) (by simp only [Span.stop]; omega)
        (by simp only [Span.stop]; omega)
      exact ⟨c, found⟩
  obtain ⟨c, found⟩ := last
  have := (List.getElem?_eq_some_iff.mp found).1
  omega

theorem width_pos_of_mem {tokens : List (Located Token)} (read : source.tokens radix = .ok tokens)
    {t : Located Token} (member : t ∈ tokens) : 0 < t.span.width := by
  obtain ⟨x, lexeme, same⟩ := exists_lexeme read member
  rw [← same]
  exact lexeme.width_pos

theorem stop_le_of_mem {tokens : List (Located Token)} (read : source.tokens radix = .ok tokens)
    {t : Located Token} (member : t ∈ tokens) : t.span.stop ≤ source.length := by
  obtain ⟨x, lexeme, same⟩ := exists_lexeme read member
  rw [← same]
  exact lexeme.stop_le

end Text

namespace Line

theorem ofText?_eq_none {source : Text}
    (noSlash : (source.dropWhile Text.isBlank).head? ≠ some '/') :
    CommandLine.ofText? source = none := by
  unfold CommandLine.ofText?
  dsimp only
  split
  next rest starts => simp [starts] at noSlash
  next => rfl

/-- A line of ASCII that does not begin with a slash is read as an expression. -/
theorem read_eq_tokens (radix : Nat) {source : Text} (ascii : ∀ c ∈ source, Text.isAscii c = true)
    (noSlash : (source.dropWhile Text.isBlank).head? ≠ some '/') :
    Line.read radix source = (source.tokens radix).map .expression := by
  have noForeign : source.foreign? = none := by
    simpa [Text.foreign?] using ascii
  simp [Line.read, noForeign, ofText?_eq_none noSlash]

/-- The expression lines are those of ASCII that do not begin with a slash and that stand for
tokens. -/
theorem read_eq_expression {radix : Nat} {source : Text} {tokens : List (Located Token)} :
    Line.read radix source = .ok (.expression tokens) ↔
      (∀ c ∈ source, Text.isAscii c = true) ∧
      (source.dropWhile Text.isBlank).head? ≠ some '/' ∧ source.tokens radix = .ok tokens := by
  constructor
  · intro read
    unfold Line.read at read
    split at read
    next => cases read
    next => cases read
    next noForeign noCommand =>
      refine ⟨by simpa [Text.foreign?] using noForeign, fun slash => ?_, ?_⟩
      · obtain ⟨rest, starts⟩ := List.head?_eq_some_iff.mp slash
        simp [CommandLine.ofText?, starts] at noCommand
      · cases each : source.tokens radix with
        | error e => simp [each, Except.map] at read
        | ok found =>
          simp only [each, Except.map, Except.ok.injEq, expression.injEq] at read
          rw [read]
  · rintro ⟨ascii, noSlash, each⟩
    rw [read_eq_tokens radix ascii noSlash, each]
    rfl

/-- The command lines are those of ASCII that are commands by their form. -/
theorem read_eq_command {radix : Nat} {source : Text} {c : CommandLine} :
    Line.read radix source = .ok (.command c) ↔
      (∀ d ∈ source, Text.isAscii d = true) ∧ CommandLine.ofText? source = some c := by
  constructor
  · intro read
    unfold Line.read at read
    split at read
    next => cases read
    next noForeign isCommand =>
      cases read
      exact ⟨by simpa [Text.foreign?] using noForeign, isCommand⟩
    next => cases each : source.tokens radix <;> simp [each, Except.map] at read
  · rintro ⟨ascii, isCommand⟩
    have noForeign : source.foreign? = none := by
      simpa [Text.foreign?] using ascii
    simp [Line.read, noForeign, isCommand]

/-- A command line consists of blanks, a slash, the name and, after a blank that is left out, the
arguments. -/
theorem exists_command_parts {radix : Nat} {source : Text} {c : CommandLine}
    (read : Line.read radix source = .ok (.command c)) :
    ∃ indent gap, source = indent ++ '/' :: (c.name.val ++ (gap ++ c.arguments.val)) ∧
      c.name.span = ⟨indent.length, c.name.val.length + 1⟩ ∧
      c.arguments.span =
        ⟨source.length - c.arguments.val.length, c.arguments.val.length⟩ := by
  have isCommand := (read_eq_command.mp read).2
  unfold CommandLine.ofText? at isCommand
  dsimp only at isCommand
  split at isCommand
  next rest starts =>
    cases isCommand
    refine ⟨_, (rest.dropWhile (!Text.isBlank ·)).take 1, ?_, rfl, rfl⟩
    rw [List.take_append_drop, List.takeWhile_append_dropWhile, ← starts,
      List.takeWhile_append_dropWhile]
  next => cases isCommand

theorem read_foreign (radix : Nat) {source : Text} {i : Nat} {c : Char}
    (found : source[i]? = some c) (foreign : Text.isAscii c = false)
    (first : ∀ j d, j < i → source[j]? = some d → Text.isAscii d = true) :
    Line.read radix source = .error (.refused (.lexical ⟨.nonAscii, ⟨i, 1⟩⟩)) := by
  obtain ⟨bound, rfl⟩ := List.getElem?_eq_some_iff.mp found
  have here : source.findIdx? (!Text.isAscii ·) = some i := by
    refine List.findIdx?_eq_some_iff_getElem.mpr ⟨bound, by simp [foreign], fun j earlier => ?_⟩
    have := first j _ earlier (List.getElem?_eq_getElem (Nat.lt_trans earlier bound))
    simp [this]
  simp [Line.read, Text.foreign?, here]

section Word

variable {radix : Nat} {word : Text}

/-- No word begins a command. -/
theorem noSlash_word (inside : ∀ c ∈ word, Text.isWordChar c = true) :
    (word.dropWhile Text.isBlank).head? ≠ some '/' := by
  intro slash
  have member := List.dropWhile_sublist Text.isBlank |>.subset (List.mem_of_mem_head? slash)
  exact Text.not_symbol_of_isWordChar (inside '/' member) rfl

/-- A word that is not read as a token is not read as a line. -/
theorem read_word_eq_error (nonempty : word ≠ []) (ascii : ∀ c ∈ word, Text.isAscii c = true)
    (inside : ∀ c ∈ word, Text.isWordChar c = true) {f : Failure}
    (fails : Token.Unreads radix ⟨word, ⟨0, word.length⟩⟩ f) : Line.read radix word = .error f := by
  have split : Text.lexemes word = [] ++ ⟨word, ⟨0, word.length⟩⟩ :: [] :=
    Text.lexemes_word nonempty inside
  rw [read_eq_tokens radix ascii (noSlash_word inside), Text.tokens_eq_error split nofun fails]
  rfl

/-- A literal with too many digits is not read. -/
theorem read_eq_unreadable {v : Rat} (denotes : Literal.Denotes radix word v)
    (many : ¬Positional.Converts radix (Literal.digitCount word)) :
    Line.read radix word = .error (.defect (.unreadable (Literal.digitCount word))) :=
  read_word_eq_error denotes.ne_nil (fun c member => (denotes.isWordChar c member).2)
    (fun c member => (denotes.isWordChar c member).1)
    (.overlong fun fits => many (denotes.fits_iff.mp fits))

/-- So many ones are a literal in radix ten, but no token. -/
theorem read_ones {k : Nat} (many : Positional.digitLimit < k) :
    Literal.Denotes 10 (List.replicate k '1') (Positional.value 10 (List.replicate k 1) : Rat) ∧
      Line.read 10 (List.replicate k '1') = .error (.defect (.unreadable k)) := by
  have spells : Literal.Spells 10 (List.replicate k '1') (List.replicate k 1) :=
    Literal.spells_replicate (by decide) k
  have literal := spells.denotes
    (List.ne_nil_of_length_pos (by rw [List.length_replicate]; omega))
  have count : Literal.digitCount (List.replicate k '1') = k := by
    rw [spells.digitCount_eq, List.length_replicate]
  have unread := read_eq_unreadable literal (by
    rw [count]
    rintro (power | few)
    · exact absurd power (by decide)
    · omega)
  rw [count] at unread
  exact ⟨literal, unread⟩

end Word

/-- How a line is read in a radix. The first character that is not ASCII is to blame, wherever there
is one. Otherwise an expression line is cut into its symbols and its longest runs of word
characters. If each run stands for a token and no literal among them has too many digits, the line
is read as the tokens of its lexemes, each in the place of its lexeme, and nothing but blanks lies
outside of them. If not, the line fails at the leftmost run that is not read: the run is to blame if
it stands for no token, and if it has too many digits no part of the line is. -/
theorem read_by_lexemes (radix : Nat) (source : Text) :
    (∀ i c, source[i]? = some c → Text.isAscii c = false →
      (∀ j d, j < i → source[j]? = some d → Text.isAscii d = true) →
      Line.read radix source = .error (.refused (.lexical ⟨.nonAscii, ⟨i, 1⟩⟩))) ∧
    ((∀ c ∈ source, Text.isAscii c = true) → (source.dropWhile Text.isBlank).head? ≠ some '/' →
      ∃ lexemes : List (Located Text),
        (∀ x, x ∈ lexemes ↔ Text.IsLexeme source x) ∧
        lexemes.Pairwise (fun x y => x.span.stop ≤ y.span.start) ∧
        ((∀ x ∈ lexemes, Text.IsRun source x.span →
            Literal.Fits radix x.val ∧ ∃ t, Token.Denotes radix x.val t) →
          ∃ tokens, Line.read radix source = .ok (.expression tokens) ∧
            List.Forall₂ (fun x t => t.span = x.span ∧ Token.Denotes radix x.val t.val)
              lexemes tokens ∧
            (∀ t ∈ tokens, 0 < t.span.width ∧ t.span.stop ≤ source.length) ∧
            tokens.Pairwise (fun t u => t.span.stop ≤ u.span.start) ∧
            (∀ i c, source[i]? = some c →
              (∀ t ∈ tokens, ¬(t.span.start ≤ i ∧ i < t.span.stop)) → Text.isBlank c = true)) ∧
        ((¬∀ x ∈ lexemes, Text.IsRun source x.span →
            Literal.Fits radix x.val ∧ ∃ t, Token.Denotes radix x.val t) →
          ∃ x ∈ lexemes, Text.IsRun source x.span ∧
            (∀ y ∈ lexemes, y.span.start < x.span.start →
              Literal.Fits radix y.val ∧ ∃ t, Token.Denotes radix y.val t) ∧
            ((¬∃ t, Token.Denotes radix x.val t) ∧
                Line.read radix source =
                  .error (.refused (.lexical ⟨.invalidNumber x.val, x.span⟩)) ∨
              ¬Literal.Fits radix x.val ∧
                Line.read radix source =
                  .error (.defect (.unreadable (Literal.digitCount x.val)))))) := by
  refine ⟨fun i c => read_foreign radix, fun ascii noSlash => ?_⟩
  have asTokens := read_eq_tokens radix ascii noSlash
  refine ⟨Text.lexemes source, fun x => Text.mem_lexemes, Text.pairwise_lexemes source,
    fun runs => ?_, fun failing => ?_⟩
  · have reads := Text.reads_of_runs runs
    obtain ⟨tokens, read⟩ :=
      Text.exists_tokens (fun x member => (reads x member).1) fun x member => (reads x member).2
    have spans := Text.map_span_tokens read
    refine ⟨tokens, by rw [asTokens, read]; rfl, (Text.tokens_eq_ok.mp read).2, fun t member => ?_,
      Text.pairwise_tokens read, fun i c => Text.isBlank_of_outside read⟩
    obtain ⟨x, lexeme, same⟩ := Text.exists_lexeme read member
    rw [← same]
    exact ⟨lexeme.width_pos, lexeme.stop_le⟩
  · obtain ⟨earlier, x, later, split, before, unread⟩ :=
      exists_first_not fun all => failing fun x member _ => all x member
    have ordered := Text.pairwise_lexemes source
    have lexeme : Text.IsLexeme source x := Text.isLexeme_of_mem (by simp [split])
    refine ⟨x, by simp [split], lexeme.isRun_of_unread unread, fun y member left => ?_, ?_⟩
    · rw [split, List.pairwise_append, List.pairwise_cons] at ordered
      rw [split, List.mem_append, List.mem_cons] at member
      rcases member with inside | rfl | inside
      · exact before y inside
      · exact absurd left (Nat.lt_irrefl _)
      · have := ordered.2.1.1 y inside
        simp only [Span.stop] at this
        omega
    · rw [asTokens]
      by_cases meaningless : ∃ t, Token.Denotes radix x.val t
      · have long : ¬Literal.Fits radix x.val := fun fits => unread ⟨fits, meaningless⟩
        exact .inr ⟨long, congrArg _ (Text.tokens_eq_error split before (.overlong long))⟩
      · exact .inl ⟨meaningless,
          congrArg _ (Text.tokens_eq_error split before (.meaningless meaningless))⟩

/-- The word `2f` is a number in radix sixteen and to blame in radix ten, unless a character that is
not ASCII stands somewhere. -/
theorem read_by_lexemes_hexadecimal :
    Line.read 16 "2f£".toList = .error (.refused (.lexical ⟨.nonAscii, ⟨2, 1⟩⟩)) ∧
    (∃ lexemes tokens, (∀ x, x ∈ lexemes ↔ Text.IsLexeme " $x =2f".toList x) ∧
      Line.read 16 " $x =2f".toList = .ok (.expression tokens) ∧
      List.Forall₂ (fun (x : Located Text) (t : Located Token) =>
        t.span = x.span ∧ Token.Denotes 16 x.val t.val) lexemes tokens) ∧
    ∃ x : Located Text, Text.IsRun " $x =2f".toList x.span ∧ (¬∃ t, Token.Denotes 10 x.val t) ∧
      Line.read 10 " $x =2f".toList =
        .error (.refused (.lexical ⟨.invalidNumber x.val, x.span⟩)) := by
  have ascii : ∀ c ∈ " $x =2f".toList, Text.isAscii c = true :=
    List.all_eq_true.mp (by decide)
  have noSlash : (" $x =2f".toList.dropWhile Text.isBlank).head? ≠ some '/' := by decide
  -- No literal of so short a line has too many digits.
  have short : ∀ x ∈ Text.lexemes " $x =2f".toList, Literal.digitCount x.val ≤ 4300 := by
    decide +kernel
  refine ⟨(read_by_lexemes 16 "2f£".toList).1 2 '£' rfl rfl ?_, ?_, ?_⟩
  · rintro (_ | _ | j) d earlier found
    · cases found
      rfl
    · cases found
      rfl
    · omega
  · obtain ⟨lexemes, members, -, meant, -⟩ :=
      (read_by_lexemes 16 " $x =2f".toList).2 ascii noSlash
    have reads : ∀ x ∈ lexemes, Text.IsRun " $x =2f".toList x.span →
        Literal.Fits 16 x.val ∧ ∃ t, Token.Denotes 16 x.val t := by
      intro x member _
      have listed := Text.mem_lexemes.mpr ((members x).mp member)
      have all : ∀ y ∈ Text.lexemes " $x =2f".toList,
          (Token.ofText 16 y.val).toOption.isSome = true := by
        decide +kernel
      have isToken := all x listed
      cases means : Token.ofText 16 x.val with
      | error reason => simp [means, Except.toOption] at isToken
      | ok t => exact (Token.ofText_eq_ok.mp means).symm.imp_right fun denotes => ⟨t, denotes⟩
    obtain ⟨tokens, read, each, -⟩ := meant reads
    exact ⟨lexemes, tokens, members, read, each⟩
  · obtain ⟨lexemes, members, -, -, failing⟩ :=
      (read_by_lexemes 10 " $x =2f".toList).2 ascii noSlash
    have fails : Token.ofText 10 ['2', 'f'] = .error .malformed := by decide +kernel
    have bad : ¬∃ t, Token.Denotes 10 ['2', 'f'] t :=
      ((Token.ofText_eq_error.mp fails).resolve_right (by simp)).1
    have lexeme : ⟨['2', 'f'], ⟨5, 2⟩⟩ ∈ lexemes :=
      (members _).mpr (Text.mem_lexemes.mp (by decide +kernel))
    have unread : ¬(Literal.Fits 10 ['2', 'f'] ∧ ∃ t, Token.Denotes 10 ['2', 'f'] t) :=
      fun reads => bad reads.2
    have run : Text.IsRun " $x =2f".toList ⟨5, 2⟩ :=
      Text.IsLexeme.isRun_of_unread ((members _).mp lexeme) unread
    obtain ⟨x, member, run, -, ⟨meaningless, read⟩ | ⟨long, -⟩⟩ :=
      failing fun all => bad (all _ lexeme run).2
    · exact ⟨x, run, meaningless, read⟩
    · have few := short x (Text.mem_lexemes.mpr ((members x).mp member))
      exact absurd (fun v _ => .inr few) long

/-- A single run of 4301 ones is a literal in radix ten, but no token. -/
theorem many_ones_unread :
    let ones := List.replicate 4301 '1'
    (∀ c ∈ ones, Text.isAscii c = true) ∧ (ones.dropWhile Text.isBlank).head? ≠ some '/' ∧
      (∀ x, Text.IsLexeme ones x → ∃ v, Token.Denotes 10 x.val (.number v)) ∧
      Line.read 10 ones = .error (.defect (.unreadable 4301)) := by
  intro ones
  obtain ⟨literal, unread⟩ := read_ones (k := 4301) (by decide)
  have inside (c : Char) (member : c ∈ ones) := (literal.isWordChar c member).1
  refine ⟨fun c member => (literal.isWordChar c member).2, noSlash_word inside, fun x lexeme => ?_,
    unread⟩
  have listed := Text.mem_lexemes.mpr lexeme
  rw [Text.lexemes_word literal.ne_nil inside, List.mem_singleton] at listed
  subst listed
  exact ⟨_, .number literal⟩

end Line
end ExactCalc
