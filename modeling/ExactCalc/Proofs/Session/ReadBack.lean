import ExactCalc.Proofs.Numeral.Places
import ExactCalc.Proofs.Reading.Expressed
import ExactCalc.Proofs.Session.Outcome

/-!
# Results are read back

What is displayed of a number, given back as a line, is an expression again, when results are
written in the radix of input and without commas. A fraction is the number itself. A decimal is the
number rounded, and displayed once more it loses the zeros that told of the rounding; after that it
stays. Only a text with a number of too many digits is not read back, and changes nothing.
-/
namespace ExactCalc

open NumberStyle

namespace Settings

/-- Results are in the radix of input. -/
def SameRadix (settings : Settings) : Prop :=
  settings.convertRadix = none ∨ settings.convertRadix = some settings.radix

variable {settings : Settings}

theorem SameRadix.style (same : settings.SameRadix) :
    settings.style.radix = settings.radix.toNat := by
  rcases same with unset | equal
  · simp [Settings.style, outputRadix, unset]
  · simp [Settings.style, outputRadix, equal]

theorem Valid.readable (valid : settings.Valid) (same : settings.SameRadix) :
    settings.style.Readable := by
  have bounds := valid.radix
  constructor
  · rw [same.style]
    omega
  · rw [same.style]
    omega

/-- The weight of the last place that is displayed. -/
theorem Valid.weight (valid : settings.Valid) (same : settings.SameRadix) :
    ((Positional.weight settings.style.radix settings.precision.toNat : Nat) : ℚ) =
      (settings.radix : ℚ) ^ settings.precision.toNat := by
  have radix : ((settings.radix.toNat : ℤ) : ℚ) = settings.radix := by
    rw [Int.toNat_of_nonneg (by have := valid.radix; omega)]
  rw [same.style, ← radix]
  push_cast [Positional.weight_eq]
  rfl

end Settings

/-- A natural number is displayed with its digits alone, as a fraction and as a decimal. -/
theorem Settings.display_natCast {settings : Settings} (valid : settings.Valid)
    (same : settings.SameRadix) (noCommas : settings.commas = false) (n : ℕ) :
    settings.display n = settings.style.plain n := by
  have plain : settings.style.whole n = settings.style.plain n := if_neg (by simp [style, noCommas])
  unfold display
  split
  next => rw [renderFraction_natCast noCommas]
  next => rw [render_natCast (valid.readable same).two_le, plain]

namespace Session

variable (commands : Registry) (number : Option Int) {session : Session} {line : Text} {v : ℚ}

/-- A line is read as an expression that is not assigned and has a value. -/
def Evaluates (session : Session) (line : Text) (v : ℚ) : Prop :=
  ∃ tokens statement, Line.read session.settings.radix.toNat line = .ok (.expression tokens) ∧
    Statement.read tokens = .ok statement ∧ statement.target = none ∧
    statement.root.eval (VariableStore.load session.store) session.accuracy = .ok v

/-- A text that is read as a number is answered with what is displayed of the number. -/
theorem calculate_readsAs (reads : line.ReadsAs session.settings.radix.toNat v) :
    session.Evaluates line v ∧
      session.calculate commands number line = (.ok (session.settings.display v), session) := by
  obtain ⟨tokens, statement, asExpression, noVariable, read, noTarget, value⟩ := reads
  refine ⟨⟨tokens, statement, asExpression, read, noTarget, value _ _⟩, ?_⟩
  have silent : mentioned tokens = [] := by
    refine List.eq_nil_iff_forall_not_mem.mpr fun name member => ?_
    obtain ⟨span, found⟩ := mem_mentioned.mp member
    exact noVariable name span found
  rw [calculate_of_value asExpression read noTarget (value _ _), silent, touch_nil]

theorem calculate_shown (shows : Text.Shows session.settings.radix.toNat line v)
    (fits : line.Fits session.settings.radix.toNat) :
    session.Evaluates line v ∧
      session.calculate commands number line = (.ok (session.settings.display v), session) :=
  calculate_readsAs commands number (shows.expresses.readsAs fits)

/-- A line is not read because a literal of it has too many digits, and changes nothing. -/
def FailsUnreadable (session : Session) (line : Text) : Prop :=
  ∃ x ∈ Text.lexemes line, ¬Literal.Fits session.settings.radix.toNat x.val ∧
    session.calculate commands number line =
      (.error (.defect (.unreadable (Literal.digitCount x.val))), session)

theorem failsUnreadable_shown (shows : Text.Shows session.settings.radix.toNat line v)
    (long : ¬line.Fits session.settings.radix.toNat) :
    FailsUnreadable commands number session line := by
  obtain ⟨x, member, tooLong, unread⟩ := shows.expresses.read_eq_unreadable long
  exact ⟨x, member, tooLong, by rw [calculate_eq, unread]⟩

/-- A number that is displayed as a fraction is read back as it is, and displayed in the same way,
unless its numerator or its denominator has too many digits to be read. -/
theorem fraction_read_back (session : Session) (v : ℚ) (valid : session.settings.Valid)
    (fractional : session.settings.fractional = true) (noCommas : session.settings.commas = false)
    (same : session.settings.SameRadix) :
    ((session.settings.display v).Fits session.settings.radix.toNat →
      session.Evaluates (session.settings.display v) v ∧
        session.calculate commands number (session.settings.display v) =
          (.ok (session.settings.display v), session)) ∧
    (¬(session.settings.display v).Fits session.settings.radix.toNat →
      FailsUnreadable commands number session (session.settings.display v)) := by
  have shows := shows_renderFraction (valid.readable same) noCommas v
  rw [same.style] at shows
  have text : session.settings.display v = session.settings.style.renderFraction v := by
    rw [Settings.display, fractional, if_pos rfl]
  rw [← text] at shows
  exact ⟨calculate_shown commands number shows, failsUnreadable_shown commands number shows⟩

/-- A fraction in radix sixteen with capital digits. -/
theorem fraction_read_back_hexadecimal :
    ∃ session : Session, session.settings.radix = 16 ∧
      session.Evaluates "-FF/10".toList (-255 / 16) ∧
      session.calculate Registry.default (some 0) "-FF/10".toList =
        (.ok "-FF/10".toList, session) := by
  have applied := fraction_read_back Registry.default (some 0)
    { settings := { radix := 16, convertRadix := some 16, fractional := true, upper := true } }
    (-255 / 16) ⟨by decide, by rintro r ⟨⟩; decide, by decide, by decide, by decide⟩ rfl rfl
    (.inr rfl)
  have text : Settings.display
      { radix := 16, convertRadix := some 16, fractional := true, upper := true } (-255 / 16) =
        "-FF/10".toList := by
    decide +kernel
  rw [text] at applied
  exact ⟨_, rfl, applied.1 fun _ _ _ _ => .inl (by decide)⟩

/-- Ten to the power 4300 has one digit too many to be read back, as a fraction or as a decimal. -/
theorem calculate_display_power_of_ten {settings : Settings} (valid : settings.Valid)
    (ten : settings.radix = 10) (noCommas : settings.commas = false)
    (same : settings.SameRadix) (store : Option Memory) :
    calculate commands number (settings.display (10 ^ 4300 : ℕ)) ⟨settings, store⟩ =
      (.error (.defect (.unreadable 4301)), ⟨settings, store⟩) := by
  have readable := valid.readable same
  have radix : settings.style.radix = 10 := by
    rw [same.style, ten]
    rfl
  have denotes := denotes_plain readable (10 ^ 4300)
  have count := digitCount_plain_pow readable 4300
  rw [radix] at denotes count
  have unread := Line.read_eq_unreadable denotes (by rw [count]; decide)
  rw [settings.display_natCast valid same noCommas, calculate_eq, ten]
  rw [show Int.toNat 10 = 10 from rfl, unread, count]

theorem power_of_ten_fraction_unread :
    ∃ session : Session, session.settings.Valid ∧ session.settings.fractional = true ∧
      session.settings.commas = false ∧ session.settings.SameRadix ∧
      session.calculate Registry.default (some 0) (session.settings.display (10 ^ 4300 : ℕ)) =
        (.error (.defect (.unreadable 4301)), session) :=
  have valid : Settings.Valid { fractional := true } :=
    ⟨by decide, nofun, by decide, by decide, by decide⟩
  ⟨⟨{ fractional := true }, none⟩, valid, rfl, rfl, .inl rfl,
    calculate_display_power_of_ten _ _ valid rfl rfl (.inl rfl) none⟩

/-- The zeros that are left out of a text make it no longer. -/
theorem fits_trimmed_render {style : NumberStyle} (readable : style.Readable)
    (noCommas : style.commas = false) (precision : ℕ) (v : ℚ)
    (fits : (style.render precision v).Fits style.radix) :
    Text.Fits style.radix (Literal.trimmed (style.render precision v)) := by
  obtain ⟨units, isUnits⟩ : ∃ units, roundedMagnitude style.radix precision v = units := ⟨_, rfl⟩
  have unsigned (exact : Bool) (few : (style.unsigned precision units exact).Fits style.radix) :
      Text.Fits style.radix (Literal.trimmed (style.unsigned precision units exact)) := by
    have denotes := denotes_unsigned readable precision units true
    rw [← trimmed_unsigned readable precision units exact] at denotes
    rw [Text.fits_literal (denotes_unsigned readable precision units exact)] at few
    rw [Text.fits_literal denotes]
    exact few.mono (Literal.digitCount_le_of_sublist (Literal.trimmed_sublist _))
  rw [render_eq noCommas, isUnits] at fits ⊢
  split at fits
  next negative =>
    rw [if_pos negative]
    exact (Text.fits_symbol rfl).mpr (unsigned _ ((Text.fits_symbol rfl).mp fits))
  next nonneg =>
    rw [if_neg nonneg]
    exact unsigned _ fits

/-- A number that is displayed with places after the point is read back as the number rounded to so
many places, a half away from zero, unless it has too many digits to be read. Displayed again it has
no zeros at the end of its places, and no point without a place, and then stays as it is. -/
theorem decimal_read_back (session : Session) (v : ℚ) (valid : session.settings.Valid)
    (decimal : session.settings.fractional = false) (noCommas : session.settings.commas = false)
    (same : session.settings.SameRadix) :
    ((session.settings.display v).Fits session.settings.radix.toNat →
      session.Evaluates (session.settings.display v)
          (SignType.sign v *
            ⌊|v| * (session.settings.radix : ℚ) ^ session.settings.precision.toNat + 1 / 2⌋ /
              (session.settings.radix : ℚ) ^ session.settings.precision.toNat) ∧
        session.calculate commands number (session.settings.display v) =
          (.ok (Literal.trimmed (session.settings.display v)), session) ∧
        session.calculate commands number (Literal.trimmed (session.settings.display v)) =
          (.ok (Literal.trimmed (session.settings.display v)), session)) ∧
    (¬(session.settings.display v).Fits session.settings.radix.toNat →
      FailsUnreadable commands number session (session.settings.display v)) := by
  have text (w : ℚ) : session.settings.display w =
      session.settings.style.render session.settings.precision.toNat w := by
    rw [Settings.display, decimal, if_neg (by decide)]
  have shows (w : ℚ) : Text.Shows session.settings.radix.toNat (session.settings.display w)
      (rounded session.settings.style.radix session.settings.precision.toNat w) := by
    rw [text, ← same.style]
    exact shows_render (valid.readable same) noCommas _ w
  refine ⟨fun fits => ?_, failsUnreadable_shown commands number (shows v)⟩
  obtain ⟨w, nearest⟩ : ∃ w,
      rounded session.settings.style.radix session.settings.precision.toNat v = w := ⟨_, rfl⟩
  have again : session.settings.display w = Literal.trimmed (session.settings.display v) := by
    rw [← nearest, text, text]
    exact render_rounded (valid.readable same) noCommas _ v
  have stays : rounded session.settings.style.radix session.settings.precision.toNat w = w := by
    rw [← nearest]
    exact rounded_rounded (valid.readable same) _ v
  have fitsAgain : (session.settings.display w).Fits session.settings.radix.toNat := by
    rw [again, text, ← same.style]
    rw [text, ← same.style] at fits
    exact fits_trimmed_render (valid.readable same) noCommas _ v fits
  obtain ⟨evaluates, answered⟩ := calculate_shown commands number (shows v) fits
  obtain ⟨-, answeredAgain⟩ := calculate_shown commands number (shows w) fitsAgain
  rw [nearest, again] at answered
  rw [stays, again] at answeredAgain
  rw [rounded, ← Int.cast_natCast (roundedMagnitude _ _ _), roundedMagnitude_eq,
    valid.weight same] at evaluates
  exact ⟨evaluates, answered, answeredAgain⟩

/-- Rounding may carry into the whole digits and leave zeros alone after the point. -/
theorem decimal_read_back_carry :
    ∃ session : Session, session.settings.precision = 2 ∧
      session.Evaluates "-2.00".toList (-2) ∧
      session.calculate Registry.default (some 0) "-2.00".toList = (.ok "-2".toList, session) ∧
      session.calculate Registry.default (some 0) "-2".toList = (.ok "-2".toList, session) := by
  have applied := decimal_read_back Registry.default (some 0) { settings := { precision := 2 } }
    (-1999 / 1000) ⟨by decide, nofun, by decide, by decide, by decide⟩ rfl rfl (.inl rfl)
  have text : Settings.display { precision := 2 } (-1999 / 1000) = "-2.00".toList := by
    decide +kernel
  have trimmed : Literal.trimmed "-2.00".toList = "-2".toList := by decide
  have nearest : (SignType.sign (-1999 / 1000 : ℚ) : ℚ) *
      ⌊|(-1999 / 1000 : ℚ)| * ((10 : ℤ) : ℚ) ^ (2 : ℤ).toNat + 1 / 2⌋ /
        ((10 : ℤ) : ℚ) ^ (2 : ℤ).toNat = -2 := by
    have magnitude : |(-1999 / 1000 : ℚ)| = 1999 / 1000 := by norm_num [abs_of_neg]
    have floor : ⌊(1999 / 1000 : ℚ) * ((10 : ℤ) : ℚ) ^ (2 : ℤ).toNat + 1 / 2⌋ = 200 := by
      norm_num [show (2 : ℤ).toNat = 2 from rfl]
    rw [sign_neg (by norm_num), magnitude, floor]
    norm_num [show (2 : ℤ).toNat = 2 from rfl]
  have short : Text.Fits 10 "-2.00".toList := by
    have few : ∀ x ∈ Text.lexemes "-2.00".toList, Literal.digitCount x.val ≤ 4300 := by
      decide +kernel
    exact fun x member v _ => .inr (few x member)
  rw [text, trimmed, nearest] at applied
  exact ⟨_, rfl, applied.1 short⟩

theorem power_of_ten_decimal_unread :
    ∃ session : Session, session.settings.Valid ∧ session.settings.fractional = false ∧
      session.settings.commas = false ∧ session.settings.SameRadix ∧
      session.calculate Registry.default (some 0) (session.settings.display (10 ^ 4300 : ℕ)) =
        (.error (.defect (.unreadable 4301)), session) :=
  have valid : Settings.Valid {} := ⟨by decide, nofun, by decide, by decide, by decide⟩
  ⟨⟨{}, none⟩, valid, rfl, rfl, .inl rfl,
    calculate_display_power_of_ten _ _ valid rfl rfl (.inl rfl) none⟩

end Session
end ExactCalc
