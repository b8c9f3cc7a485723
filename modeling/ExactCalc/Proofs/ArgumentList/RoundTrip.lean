import ExactCalc.Proofs.ArgumentList.Items
import ExactCalc.Proofs.Lexeme.Words
import ExactCalc.Proofs.Numeral.Display

/-!
# Lists of integers read back

Integers that are written in a radix, with blanks between them, are read as the same list, each in
the place of its sign and digits, as long as none has a magnitude above the largest integer. The
sign is not looked at for that: the first integer with a greater magnitude is refused at its digits,
and so the least signed integer of 64 bits is. Where an integer has too many digits to be read, none
is read.
-/
namespace ExactCalc

/-- An integer written in a radix, with a minus sign if it is negative. -/
def Positional.writeSigned (radix : Nat) (n : Int) : Text :=
  (if n < 0 then ['-'] else []) ++ write radix n.natAbs

/-- What is written of a number is a literal of it. -/
theorem Positional.denotes_write {radix : Nat} (two_le : 2 ≤ radix) (le_sixteen : radix ≤ 16)
    (n : Nat) : Literal.Denotes radix (write radix n) n := by
  have readable : ({ radix := radix } : NumberStyle).Readable := ⟨two_le, le_sixteen⟩
  exact NumberStyle.denotes_plain readable n

namespace ArgumentList

open Located Positional

theorem le_largest_of_magnitude {value : Rat} {s : Span} {n : Nat}
    (integral : magnitude value s = .ok n) : n ≤ largest := by
  unfold magnitude at integral
  split at integral
  next => split at integral <;> cases integral
  split at integral
  next => cases integral
  next small =>
    cases integral
    omega

theorem magnitude_natCast {n : Nat} (small : n ≤ largest) (s : Span) : magnitude n s = .ok n := by
  have notLarge : ¬(n : Int) > largest := by omega
  simp [magnitude, notLarge]

theorem magnitude_natCast_of_lt {n : Nat} (large : largest < n) (s : Span) :
    magnitude n s = .error (.refused (.argument .integerTooLarge s)) := by
  have isLarge : (n : Int) > largest := by omega
  simp [magnitude, isLarge]

/-- The sign of an integer does not make its magnitude greater. -/
theorem StandsOn.natAbs_le {item : Located Int} {part : List (Located Token)}
    (stands : StandsOn item part) : item.val.natAbs ≤ largest := by
  cases stands with
  | unsigned integral => exact le_largest_of_magnitude integral
  | signed integral =>
    rw [Int.natAbs_neg]
    exact le_largest_of_magnitude integral

/-- Integers written in a radix, each behind a gap, and what is written after them. -/
def written (radix : Nat) : List (Text × Int) → Text → Text
  | [], trail => trail
  | (gap, n) :: rows, trail => gap ++ (writeSigned radix n ++ written radix rows trail)

/-- The integers in their places, when they are written from an offset on. -/
def places (radix offset : Nat) : List (Text × Int) → List (Located Int)
  | [] => []
  | (gap, n) :: rows =>
    ⟨n, ⟨offset + gap.length, (writeSigned radix n).length⟩⟩ ::
      places radix (offset + gap.length + (writeSigned radix n).length) rows

/-- The gaps consist of blanks, and only the first of them may be empty. Nothing but blanks is
written after the integers. -/
structure Spaced (rows : List (Text × Int)) (trail : Text) : Prop where
  gaps : ∀ row ∈ rows, ∀ c ∈ row.1, Text.isBlank c = true
  apart : ∀ row ∈ rows.tail, row.1 ≠ []
  trail : ∀ c ∈ trail, Text.isBlank c = true

namespace Spaced

variable {gap trail : Text} {n : Int} {rows : List (Text × Int)}

theorem tail (spaced : Spaced ((gap, n) :: rows) trail) : Spaced rows trail where
  gaps row member := spaced.gaps row (List.mem_cons_of_mem _ member)
  apart row member := spaced.apart row (List.mem_of_mem_tail member)
  trail := spaced.trail

/-- An integer ends where a blank or nothing follows. -/
theorem ends (spaced : Spaced ((gap, n) :: rows) trail) (radix : Nat) :
    ∀ c ∈ (written radix rows trail).head?, ¬Text.isWordChar c = true := by
  intro c first
  refine Text.not_isWordChar_of_isBlank ?_
  match rows with
  | [] => exact spaced.trail c (List.mem_of_mem_head? first)
  | (gap', n') :: rows =>
    have apart : gap' ≠ [] := spaced.apart (gap', n') List.mem_cons_self
    obtain ⟨d, blanks, rfl⟩ := List.exists_cons_of_ne_nil apart
    cases first
    exact spaced.gaps (_ :: blanks, n') (by simp) _ List.mem_cons_self

end Spaced

theorem map_val_places (radix offset : Nat) (rows : List (Text × Int)) :
    (places radix offset rows).map (·.val) = rows.map (·.2) := by
  induction rows generalizing offset with
  | nil => rfl
  | cons row rows ih =>
    rw [places, List.map_cons, List.map_cons, ih]

/-- Behind a text an integer stands where it is written. -/
theorem standsIn_of_mem_places {radix : Nat} {rows : List (Text × Int)} (before trail : Text)
    {item : Located Int} (member : item ∈ places radix before.length rows) :
    StandsIn (before ++ written radix rows trail) ⟨writeSigned radix item.val, item.span⟩ := by
  induction rows generalizing before with
  | nil => cases member
  | cons row rows ih =>
    obtain ⟨gap, n⟩ := row
    rcases List.mem_cons.mp member with rfl | further
    · refine ⟨before ++ gap, written radix rows trail, ?_, by rw [List.length_append]⟩
      rw [written, List.append_assoc]
    · have later := ih (before ++ gap ++ writeSigned radix n)
        (by rwa [List.length_append, List.length_append])
      rwa [List.append_assoc, List.append_assoc] at later

/-- The place of the digits of an integer: all of its place but the sign. -/
def digitsOf (item : Located Int) : Span :=
  if item.val < 0 then ⟨item.span.start + 1, item.span.width - 1⟩ else item.span

theorem standsIn_digitsOf {radix : Nat} {source : Text} {item : Located Int}
    (stands : StandsIn source ⟨writeSigned radix item.val, item.span⟩) :
    StandsIn source ⟨write radix item.val.natAbs, digitsOf item⟩ := by
  obtain ⟨before, after, whole, place⟩ := stands
  replace place : item.span = _ := place
  unfold digitsOf
  split
  next negative =>
    refine ⟨before ++ ['-'], after, ?_, ?_⟩
    · simpa [writeSigned, negative] using whole
    · simp [place, writeSigned, negative]
  next nonneg =>
    refine ⟨before, after, ?_, ?_⟩
    · simpa [writeSigned, nonneg] using whole
    · simpa [writeSigned, nonneg] using place

/-- The tokens of an integer that is written in its place. -/
def tokensOf (item : Located Int) : List (Located Token) :=
  (if item.val < 0 then [⟨.binary .subtract, ⟨item.span.start, 1⟩⟩] else []) ++
    [⟨.number item.val.natAbs, digitsOf item⟩]

section Tokens

variable {radix : Nat} {rows : List (Text × Int)} {trail : Text}

/-- An integer is cut into its sign and its digits. -/
theorem exists_lexemes_integer (two_le : 2 ≤ radix) (le_sixteen : radix ≤ 16) (start : Nat)
    (n : Int) {rest : Text} (ends : ∀ c ∈ rest.head?, ¬Text.isWordChar c = true) :
    ∃ lexemes, Text.lexemesFrom start (writeSigned radix n ++ rest) =
        lexemes ++ Text.lexemesFrom (start + (writeSigned radix n).length) rest ∧
      List.Forall₂ (fun x t => t.span = x.span ∧ Token.Denotes radix x.val t.val) lexemes
        (tokensOf ⟨n, ⟨start, (writeSigned radix n).length⟩⟩) := by
  have literal := denotes_write two_le le_sixteen n.natAbs
  have cut := Text.lexemesFrom_word (write radix n.natAbs) rest literal.ne_nil
    (fun c member => (literal.isWordChar c member).1) ends
  have number := Token.Denotes.number literal
  by_cases negative : n < 0
  · have width : (writeSigned radix n).length = 1 + (write radix n.natAbs).length := by
      simp [writeSigned, negative, Nat.add_comm]
    refine ⟨[⟨['-'], ⟨start, 1⟩⟩,
      ⟨write radix n.natAbs, ⟨start + 1, (write radix n.natAbs).length⟩⟩], ?_, ?_⟩
    · rw [width, ← Nat.add_assoc, writeSigned, if_pos negative, List.append_assoc,
        List.singleton_append, Text.lexemesFrom_symbol rfl, cut]
      rfl
    · rw [tokensOf, digitsOf, if_pos negative, if_pos negative, width, Nat.add_sub_cancel_left]
      exact .cons ⟨rfl, .symbol rfl⟩ (.cons ⟨rfl, number⟩ .nil)
  · have same : writeSigned radix n = write radix n.natAbs := by
      rw [writeSigned, if_neg negative, List.nil_append]
    refine ⟨[⟨write radix n.natAbs, ⟨start, (write radix n.natAbs).length⟩⟩], ?_, ?_⟩
    · rw [same, cut, List.singleton_append]
    · rw [tokensOf, digitsOf, if_neg negative, if_neg negative, same]
      exact .cons ⟨rfl, number⟩ .nil

/-- The lexemes of a written list stand for the tokens of its integers. -/
theorem denotes_written (two_le : 2 ≤ radix) (le_sixteen : radix ≤ 16)
    (spaced : Spaced rows trail) :
    List.Forall₂ (fun x t => t.span = x.span ∧ Token.Denotes radix x.val t.val)
      (Text.lexemes (written radix rows trail)) ((places radix 0 rows).flatMap tokensOf) := by
  rw [Text.lexemes]
  generalize 0 = offset
  induction rows generalizing offset with
  | nil =>
    have nothing := Text.lexemesFrom_blanks spaced.trail offset []
    rw [List.append_nil] at nothing
    rw [written, nothing]
    exact .nil
  | cons row rows ih =>
    obtain ⟨gap, n⟩ := row
    obtain ⟨lexemes, cut, own⟩ :=
      exists_lexemes_integer two_le le_sixteen (offset + gap.length) n (spaced.ends radix)
    rw [written, Text.lexemesFrom_blanks (spaced.gaps (gap, n) List.mem_cons_self), cut, places,
      List.flatMap_cons]
    exact List.rel_append own (ih spaced.tail _)

/-- The words of a written list are the digits of its integers, behind their signs. -/
theorem words_written (two_le : 2 ≤ radix) (le_sixteen : radix ≤ 16) (spaced : Spaced rows trail) :
    Text.words (written radix rows trail) = rows.flatMap fun row =>
      (if row.2 < 0 then [['-']] else []) ++ [write radix row.2.natAbs] := by
  induction rows with
  | nil =>
    have nothing := Text.words_blanks spaced.trail []
    rwa [List.append_nil] at nothing
  | cons row rows ih =>
    obtain ⟨gap, n⟩ := row
    have literal := denotes_write two_le le_sixteen n.natAbs
    have digits := Text.words_word literal.ne_nil fun c member => (literal.isWordChar c member).1
    rw [written, Text.words_blanks (spaced.gaps (gap, n) List.mem_cons_self),
      Text.words_append (spaced.ends radix), ih spaced.tail, List.flatMap_cons, writeSigned]
    split
    next =>
      rw [List.singleton_append, Text.words_symbol rfl, digits]
      rfl
    next =>
      rw [List.nil_append, digits]
      rfl

/-- The integers of a list can be converted from their digits. -/
def Converts (radix : Nat) (rows : List (Text × Int)) : Prop :=
  ∀ row ∈ rows, Positional.Converts radix (write radix row.2.natAbs).length

theorem digitCount_write (two_le : 2 ≤ radix) (le_sixteen : radix ≤ 16) (n : Nat) :
    Literal.digitCount (write radix n) = (write radix n).length := by
  have readable : ({ radix := radix } : NumberStyle).Readable := ⟨two_le, le_sixteen⟩
  exact NumberStyle.digitCount_plain readable n

theorem fits_write (two_le : 2 ≤ radix) (le_sixteen : radix ≤ 16) (n : Nat) :
    Literal.Fits radix (write radix n) ↔ Positional.Converts radix (write radix n).length := by
  rw [(denotes_write two_le le_sixteen n).fits_iff, digitCount_write two_le le_sixteen]

theorem fits_written (two_le : 2 ≤ radix) (le_sixteen : radix ≤ 16) (spaced : Spaced rows trail)
    (converts : Converts radix rows) : (written radix rows trail).Fits radix := by
  rw [Text.fits_iff_words, words_written two_le le_sixteen spaced]
  intro word listed
  obtain ⟨row, member, inside⟩ := List.mem_flatMap.mp listed
  rcases List.mem_append.mp inside with sign | digits
  · split at sign
    · obtain rfl := List.mem_singleton.mp sign
      exact Token.fits_of_symbol rfl
    · cases sign
  · obtain rfl := List.mem_singleton.mp digits
    exact (fits_write two_le le_sixteen _).mpr (converts row member)

/-- Integers that are not too large have few digits. -/
theorem converts_of_small (two_le : 2 ≤ radix) (small : ∀ row ∈ rows, row.2.natAbs ≤ largest) :
    Converts radix rows := by
  intro row member
  right
  have bound : row.2.natAbs < weight radix 63 :=
    calc row.2.natAbs < 2 ^ 63 := (small row member).trans_lt (by decide)
      _ ≤ radix ^ 63 := Nat.pow_le_pow_left two_le 63
  rw [write, List.length_map]
  exact (length_digits_le two_le (by decide) bound).trans (by decide)

/-- A written list is cut into the tokens of its integers. -/
theorem tokens_written (two_le : 2 ≤ radix) (le_sixteen : radix ≤ 16) (spaced : Spaced rows trail)
    (converts : Converts radix rows) :
    (written radix rows trail).tokens radix = .ok ((places radix 0 rows).flatMap tokensOf) :=
  Text.tokens_eq_ok.mpr ⟨fits_written two_le le_sixteen spaced converts,
    denotes_written two_le le_sixteen spaced⟩

theorem isAscii_written (two_le : 2 ≤ radix) (le_sixteen : radix ≤ 16)
    (spaced : Spaced rows trail) : ∀ c ∈ written radix rows trail, Text.isAscii c = true := by
  induction rows with
  | nil => exact fun c member => Text.isAscii_of_isBlank (spaced.trail c member)
  | cons row rows ih =>
    obtain ⟨gap, n⟩ := row
    intro c member
    simp only [written, writeSigned, List.mem_append] at member
    rcases member with inGap | (inSign | inDigits) | later
    · exact Text.isAscii_of_isBlank (spaced.gaps (gap, n) List.mem_cons_self c inGap)
    · split at inSign
      · obtain rfl := List.mem_singleton.mp inSign
        rfl
      · cases inSign
    · exact ((denotes_write two_le le_sixteen n.natAbs).isWordChar c inDigits).2
    · exact ih spaced.tail c later

/-- No list of integers begins with a slash. -/
theorem head_tokensOf_ne_divide (radix : Nat) (rows : List (Text × Int)) :
    ((places radix 0 rows).flatMap tokensOf).head?.map (·.val) ≠ some (.binary .divide) := by
  cases rows with
  | nil => nofun
  | cons row rows =>
    rw [places, List.flatMap_cons, tokensOf]
    split <;> nofun

theorem read_written (two_le : 2 ≤ radix) (le_sixteen : radix ≤ 16) (spaced : Spaced rows trail)
    (converts : Converts radix rows) :
    Line.read radix (written radix rows trail) =
      .ok (.expression ((places radix 0 rows).flatMap tokensOf)) := by
  have tokens := tokens_written two_le le_sixteen spaced converts
  exact Line.read_eq_expression.mpr ⟨isAscii_written two_le le_sixteen spaced,
    Text.noSlash_of_tokens tokens (head_tokensOf_ne_divide radix rows), tokens⟩

end Tokens

theorem standsOn_tokensOf {item : Located Int} (small : item.val.natAbs ≤ largest)
    (wide : 0 < item.span.width) : StandsOn item (tokensOf item) := by
  obtain ⟨n, s⟩ := item
  unfold tokensOf digitsOf
  by_cases negative : n < 0
  · have all : Span.cover ⟨s.start, 1⟩ ⟨s.start + 1, s.width - 1⟩ = s := by
      refine Span.ext_ends ?_ ?_
      · simp
      · rw [Span.stop_cover]
        simp only [Span.stop] at wide ⊢
        omega
    have value : -(n.natAbs : Int) = n := by omega
    have stands : StandsOn ⟨-(n.natAbs : Int), Span.cover ⟨s.start, 1⟩ ⟨s.start + 1, s.width - 1⟩⟩
        [⟨.binary .subtract, ⟨s.start, 1⟩⟩, ⟨.number n.natAbs, ⟨s.start + 1, s.width - 1⟩⟩] :=
      .signed (magnitude_natCast small _)
    rw [all, value] at stands
    simpa [negative] using stands
  · have value : (n.natAbs : Int) = n := by omega
    have stands : StandsOn ⟨(n.natAbs : Int), s⟩ [⟨.number n.natAbs, s⟩] :=
      .unsigned (magnitude_natCast small _)
    rw [value] at stands
    simpa [negative] using stands

theorem signedIntegers_of_lt {item : Located Int} (large : largest < item.val.natAbs)
    (rest : List (Located Token)) :
    signedIntegers none (tokensOf item ++ rest) =
      .error (.refused (.argument .integerTooLarge (digitsOf item))) := by
  have refused := magnitude_natCast_of_lt large (digitsOf item)
  unfold tokensOf
  split
  · simp only [List.cons_append, List.nil_append, signedIntegers, refused]
    rfl
  · simp only [List.nil_append, List.cons_append, signedIntegers, refused]
    rfl

section Reading

variable {radix : Nat} {rows : List (Text × Int)} {trail : Text}

theorem standsOn_of_mem_places (two_le : 2 ≤ radix) (le_sixteen : radix ≤ 16) {item : Located Int}
    (member : item ∈ places radix 0 rows) (small : item.val.natAbs ≤ largest) :
    StandsOn item (tokensOf item) := by
  obtain ⟨before, after, -, place⟩ := standsIn_of_mem_places [] [] member
  replace place : item.span = _ := place
  have wide := List.length_pos_iff.mpr (denotes_write two_le le_sixteen item.val.natAbs).ne_nil
  refine standsOn_tokensOf small ?_
  rw [place, writeSigned, List.length_append]
  exact Nat.add_pos_right _ wide

theorem integers_written (two_le : 2 ≤ radix) (le_sixteen : radix ≤ 16) (spaced : Spaced rows trail)
    (small : ∀ row ∈ rows, row.2.natAbs ≤ largest) :
    integers radix (written radix rows trail) = .ok (places radix 0 rows) := by
  have converts := converts_of_small two_le small
  refine integers_eq_ok_iff.mpr ⟨_, read_written two_le le_sixteen spaced converts, ?_⟩
  refine List.forall₂_map_right_iff.mpr (List.forall₂_same.mpr fun item member => ?_)
  have value : item.val ∈ rows.map (·.2) :=
    map_val_places radix 0 rows ▸ List.mem_map_of_mem member
  obtain ⟨row, listed, same⟩ := List.mem_map.mp value
  exact standsOn_of_mem_places two_le le_sixteen member (same ▸ small row listed)

theorem integers_written_of_lt (two_le : 2 ≤ radix) (le_sixteen : radix ≤ 16)
    (spaced : Spaced rows trail) (converts : Converts radix rows)
    {earlier later : List (Located Int)} {item : Located Int}
    (split : places radix 0 rows = earlier ++ item :: later)
    (small : ∀ other ∈ earlier, other.val.natAbs ≤ largest) (large : largest < item.val.natAbs) :
    integers radix (written radix rows trail) =
      .error (.refused (.argument .integerTooLarge (digitsOf item))) := by
  have each : List.Forall₂ StandsOn earlier (earlier.map tokensOf) := by
    refine List.forall₂_map_right_iff.mpr (List.forall₂_same.mpr fun other member => ?_)
    have listed : other ∈ places radix 0 rows := by simp [split, member]
    exact standsOn_of_mem_places two_le le_sixteen listed (small other member)
  have refused := signedIntegers_append each (tokensOf item ++ later.flatMap tokensOf)
  rw [signedIntegers_of_lt large] at refused
  have tokens : (places radix 0 rows).flatMap tokensOf =
      (earlier.map tokensOf).flatten ++ (tokensOf item ++ later.flatMap tokensOf) := by
    rw [split, List.flatMap_append, List.flatMap_cons]
    rfl
  rw [integers, read_written two_le le_sixteen spaced converts, tokens]
  dsimp only
  rw [refused]
  rfl

/-- No integer is read where one has too many digits. -/
theorem integers_written_unread (two_le : 2 ≤ radix) (le_sixteen : radix ≤ 16)
    (spaced : Spaced rows trail) (long : ¬Converts radix rows) :
    ∃ row ∈ rows, ¬Positional.Converts radix (write radix row.2.natAbs).length ∧
      integers radix (written radix rows trail) =
        .error (.defect (.unreadable (write radix row.2.natAbs).length)) := by
  have denotes := denotes_written two_le le_sixteen spaced
  have words := words_written two_le le_sixteen spaced
  have notFits : ¬(written radix rows trail).Fits radix := by
    refine fun fits => long fun row member => (fits_write two_le le_sixteen _).mp ?_
    refine Text.fits_iff_words.mp fits _ ?_
    rw [words]
    exact List.mem_flatMap.mpr ⟨row, member, List.mem_append_right _ (List.mem_singleton_self _)⟩
  obtain ⟨x, listed, tooLong, unread⟩ := Text.exists_tokens_eq_unreadable (fun x listed =>
    (exists_of_forall₂ denotes x listed).elim fun t related => ⟨t.val, related.2.2⟩) notFits
  obtain ⟨row, member, isDigits⟩ : ∃ row ∈ rows, x.val = write radix row.2.natAbs := by
    have inWords : x.val ∈ Text.words (written radix rows trail) := List.mem_map_of_mem listed
    rw [words] at inWords
    obtain ⟨row, member, inside⟩ := List.mem_flatMap.mp inWords
    refine ⟨row, member, ?_⟩
    rcases List.mem_append.mp inside with sign | digits
    · split at sign
      · rw [List.mem_singleton.mp sign] at tooLong
        exact absurd (Token.fits_of_symbol rfl) tooLong
      · cases sign
    · exact List.mem_singleton.mp digits
  rw [isDigits, fits_write two_le le_sixteen] at tooLong
  rw [isDigits, digitCount_write two_le le_sixteen] at unread
  refine ⟨row, member, tooLong, ?_⟩
  have begins := head_tokensOf_ne_divide radix rows
  rw [integers, Line.read_eq_tokens radix (isAscii_written two_le le_sixteen spaced)
    (Text.noSlash_of_denotes (List.forall₂_map_right_iff.mpr (denotes.imp fun _ _ => And.right))
      (by rwa [List.head?_map])), unread]
  rfl

end Reading

/-- Integers that are written in a radix with blanks between them are read as they are written, each
in the place of its sign and digits, if no magnitude is above the largest integer. If one is, the
digits of the first such integer are to blame, unless an integer has too many digits to be read.
And whatever is read as a list of integers, no magnitude in it is above the largest integer. -/
theorem integers_round_trip (radix : Nat) :
    (2 ≤ radix → radix ≤ 16 → ∀ (rows : List (Text × Int)) (trail : Text), Spaced rows trail →
      (∀ item ∈ places radix 0 rows,
        item.span.slice (written radix rows trail) = writeSigned radix item.val ∧
        (digitsOf item).slice (written radix rows trail) = write radix item.val.natAbs) ∧
      ((∀ row ∈ rows, row.2.natAbs ≤ largest) →
        integers radix (written radix rows trail) = .ok (places radix 0 rows)) ∧
      (Converts radix rows → ∀ earlier item later,
        places radix 0 rows = earlier ++ item :: later →
        (∀ other ∈ earlier, other.val.natAbs ≤ largest) → largest < item.val.natAbs →
        integers radix (written radix rows trail) =
          .error (.refused (.argument .integerTooLarge (digitsOf item)))) ∧
      (¬Converts radix rows → ∃ row ∈ rows,
        ¬Positional.Converts radix (write radix row.2.natAbs).length ∧
        integers radix (written radix rows trail) =
          .error (.defect (.unreadable (write radix row.2.natAbs).length)))) ∧
    ∀ source items, integers radix source = .ok items →
      ∀ item ∈ items, item.val.natAbs ≤ largest := by
  refine ⟨fun two_le le_sixteen rows trail spaced => ⟨fun item member => ?_,
    integers_written two_le le_sixteen spaced, fun converts earlier item later split small large =>
      integers_written_of_lt two_le le_sixteen spaced converts split small large,
    integers_written_unread two_le le_sixteen spaced⟩,
    fun source items read item member => ?_⟩
  · have stands := standsIn_of_mem_places [] trail member
    exact ⟨stands.slice_eq, (standsIn_digitsOf stands).slice_eq⟩
  · obtain ⟨parts, -, each⟩ := integers_eq_ok_iff.mp read
    obtain ⟨part, -, stands⟩ := exists_part_of_mem each member
    exact stands.natAbs_le

/-- In radix sixteen the integers with the greatest magnitudes are read, and the next one below them
is refused. -/
theorem integers_round_trip_hexadecimal :
    integers 16 "-7fffffffffffffff\t7fffffffffffffff".toList =
      .ok [⟨-0x7fffffffffffffff, ⟨0, 17⟩⟩, ⟨0x7fffffffffffffff, ⟨18, 16⟩⟩] ∧
    integers 16 "-8000000000000000".toList =
      .error (.refused (.argument .integerTooLarge ⟨1, 16⟩)) := by
  have text : written 16 [([], -0x7fffffffffffffff), (['\t'], 0x7fffffffffffffff)] [] =
      "-7fffffffffffffff\t7fffffffffffffff".toList := by decide +kernel
  have found : places 16 0 [([], -0x7fffffffffffffff), (['\t'], 0x7fffffffffffffff)] =
      [⟨-0x7fffffffffffffff, ⟨0, 17⟩⟩, ⟨0x7fffffffffffffff, ⟨18, 16⟩⟩] := by decide +kernel
  have large : written 16 [([], -0x8000000000000000)] [] = "-8000000000000000".toList := by
    decide +kernel
  have split : places 16 0 [([], -0x8000000000000000)] =
      [] ++ ⟨-0x8000000000000000, ⟨0, 17⟩⟩ :: [] := by decide +kernel
  have spaced : Spaced [([], -0x7fffffffffffffff), (['\t'], 0x7fffffffffffffff)] [] :=
    ⟨by simp [Text.isBlank], by simp, by simp⟩
  have alone : Spaced [([], -0x8000000000000000)] [] := ⟨by simp, by simp, by simp⟩
  have roundTrip := (integers_round_trip 16).1 (by decide) (by decide)
  have read := (roundTrip _ _ spaced).2.1 (by decide)
  have refused :=
    (roundTrip _ _ alone).2.2.1 (fun _ _ => .inl (by decide)) _ _ _ split (by simp) (by decide)
  rw [text, found] at read
  rw [large] at refused
  exact ⟨read, refused⟩

/-- The least signed integer of 64 bits is refused: its magnitude is above the largest integer. -/
theorem least_integer_refused :
    integers 10 "-9223372036854775808".toList =
      .error (.refused (.argument .integerTooLarge ⟨1, 19⟩)) ∧
    ¬∀ (radix : Nat) (rows : List (Text × Int)) (trail : Text), 2 ≤ radix → radix ≤ 16 →
      Spaced rows trail → (∀ row ∈ rows, -2 ^ 63 ≤ row.2 ∧ row.2 ≤ 2 ^ 63 - 1) →
      integers radix (written radix rows trail) = .ok (places radix 0 rows) := by
  have refused : integers 10 "-9223372036854775808".toList =
      .error (.refused (.argument .integerTooLarge ⟨1, 19⟩)) := by decide +kernel
  refine ⟨refused, fun all => ?_⟩
  have text : written 10 [([], -2 ^ 63)] [] = "-9223372036854775808".toList := by decide +kernel
  have read := all 10 [([], -2 ^ 63)] [] (by decide) (by decide) ⟨by simp, by simp, by simp⟩
    (by simp)
  rw [text, refused] at read
  cases read

end ArgumentList
end ExactCalc
