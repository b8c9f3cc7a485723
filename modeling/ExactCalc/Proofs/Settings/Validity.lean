import ExactCalc.Options
import ExactCalc.Proofs.Result

/-!
# Which settings are valid

Validation finds nothing wrong exactly with the settings that are valid. The settings that a command
line chooses are valid whenever it is accepted: every option checks its own value, and no option
sets an extra precision, so that the precision alone stays below the bound on the sum.
-/
namespace ExactCalc

namespace Settings

theorem radixInRange_iff {radix : Int} : radixInRange radix = true ↔ 2 ≤ radix ∧ radix ≤ 16 := by
  simp [radixInRange]

theorem validate_eq_ok_iff {s : Settings} : s.validate = .ok () ↔ s.Valid := by
  constructor
  · intro accepted
    unfold validate at accepted
    split at accepted
    next => cases accepted
    next inRange =>
      split at accepted
      next => cases accepted
      next none =>
        split at accepted
        next => cases accepted
        next nonneg =>
          split at accepted
          next => cases accepted
          next sum =>
            refine ⟨radixInRange_iff.mp (by simpa using inRange), fun r chosen => ?_, by omega,
              by omega, by simpa [maxPrecision] using sum⟩
            rw [chosen] at none
            simpa [Option.filter, radixInRange_iff] using none
  · intro valid
    have inRange := radixInRange_iff.mpr valid.radix
    have converts : s.convertRadix.filter (!radixInRange ·) = none := by
      refine Option.filter_eq_none_iff.mpr fun r chosen => ?_
      simp [radixInRange_iff.mpr (valid.convertRadix r chosen)]
    have nonneg : ¬(s.precision < 0 ∨ s.extraPrecision < 0) := by
      have := valid.precision
      have := valid.extraPrecision
      omega
    have sum : ¬maxPrecision < s.precision + s.extraPrecision := by
      have := valid.sum
      simp only [maxPrecision]
      omega
    simp [validate, inRange, converts, nonneg, sum]

theorem valid_default : ({} : Settings).Valid :=
  ⟨by decide, nofun, by decide, by decide, by decide⟩

/-- The switches have no part in what is valid. -/
theorem Valid.turn {s : Settings} (valid : s.Valid) (switch : Switch) (on : Bool) :
    (s.turn switch on).Valid := by
  obtain ⟨radix, convertRadix, precision, extraPrecision, sum⟩ := valid
  cases switch <;> exact ⟨radix, convertRadix, precision, extraPrecision, sum⟩

end Settings

namespace Options

/-- Options with valid settings, none of them for an extra precision. -/
structure Sound (o : Options) : Prop where
  valid : o.settings.Valid
  noExtra : o.settings.extraPrecision = 0

variable {o chosen : Options} {word : Text}

theorem sound_start : Sound {} := ⟨Settings.valid_default, rfl⟩

theorem Sound.turnOn (sound : o.Sound) (s : Switch) : (o.turnOn s).Sound := by
  refine ⟨sound.valid.turn s true, ?_⟩
  cases s <;> exact sound.noExtra

theorem inRange_of_radix {n : Int} (read : radix word = .ok n) : 2 ≤ n ∧ n ≤ 16 := by
  unfold radix at read
  split at read
  next => cases read
  next m _ =>
    split at read
    next inRange =>
      cases read
      exact Settings.radixInRange_iff.mp inRange
    next => cases read

theorem inRange_of_precision {n : Int} (read : precision word = .ok n) : 0 ≤ n ∧ n ≤ 255 := by
  unfold precision at read
  split at read
  next => cases read
  next m _ =>
    split at read
    next inRange =>
      cases read
      exact inRange
    next => cases read

theorem Sound.set {v : Valued} (sound : o.Sound) (set : o.set v word = .ok chosen) :
    chosen.Sound := by
  obtain ⟨⟨radix, convertRadix, precision, extraPrecision, sum⟩, noExtra⟩ := sound
  cases v with
  | radix =>
    obtain ⟨n, read, rfl⟩ := map_eq_ok_iff.mp set
    exact ⟨⟨inRange_of_radix read, convertRadix, precision, extraPrecision, sum⟩, noExtra⟩
  | precision =>
    obtain ⟨n, read, rfl⟩ := map_eq_ok_iff.mp set
    obtain ⟨low, high⟩ := inRange_of_precision read
    exact ⟨⟨radix, convertRadix, low, extraPrecision, by simpa [noExtra] using high⟩, noExtra⟩
  | convertRadix =>
    obtain ⟨n, read, rfl⟩ := map_eq_ok_iff.mp set
    refine ⟨⟨radix, ?_, precision, extraPrecision, sum⟩, noExtra⟩
    rintro _ ⟨⟩
    exact inRange_of_radix read
  | input =>
    cases set
    exact ⟨⟨radix, convertRadix, precision, extraPrecision, sum⟩, noExtra⟩
  | logLevel =>
    simp only [Options.set] at set
    split at set
    next =>
      cases set
      exact ⟨⟨radix, convertRadix, precision, extraPrecision, sum⟩, noExtra⟩
    next => cases set

theorem Sound.setAttached {v : Valued} (sound : o.Sound)
    (set : o.setAttached v word = .ok chosen) : chosen.Sound := by
  unfold Options.setAttached at set
  split at set
  next =>
    cases set
    exact sound
  next => exact sound.set set

/-- Taking words keeps the options sound, whatever else stands among the words. -/
theorem Sound.take {left : List Text} {words : List (Text × Reading)} (sound : o.Sound)
    (taken : Options.take o left words = .ok (.calculate chosen)) : chosen.Sound := by
  fun_induction Options.take o left words with
  | case1 =>
    cases taken
    exact sound
  | case4 o left _ s rest ih => exact ih (sound.turnOn s) taken
  | case5 o left _ v value rest o' set ih => exact ih (sound.setAttached set) taken
  | case7 o left _ v value rest o' set ih => exact ih (sound.set set) taken
  | case13 o left word reading rest _ _ _ _ _ _ _ _ ih => exact ih sound taken
  | _ => cases taken

/-- An accepted command line chooses settings in which nothing is wrong. -/
theorem valid_of_read {words : List Text} (read : Options.read words = .ok (.calculate o)) :
    o.settings.Valid := by
  unfold Options.read at read
  cases readings : readWords words with
  | error fault => simp [readings, bind, Except.bind] at read
  | ok readings' =>
    rw [readings] at read
    exact (sound_start.take read).valid

end Options
end ExactCalc
