import ExactCalc.Numeral.NegativeRadix

/-!
# Settings

The settings say how numbers are read and how results are displayed. Assigned from outside they
may hold any integers; `validate` tells what is wrong with them. Every command that changes a
setting keeps them valid.
-/
namespace ExactCalc

/-- The settings that are switched on or off. -/
inductive Switch where
  | fractional | upper | commas
  deriving DecidableEq, Repr

/-- How input is read and results are displayed. -/
structure Settings where
  radix : Int := 10
  /-- The radix of results, where it is not that of input. -/
  convertRadix : Option Int := none
  precision : Int := 10
  /-- Places that inexact results carry but do not show. -/
  extraPrecision : Int := 0
  fractional : Bool := false
  commas : Bool := false
  upper : Bool := false
  deriving DecidableEq, Repr

inductive SettingsError where
  | radix (given : Int)
  | convertRadix (given : Int)
  | negativePrecision
  | precisionSum
  deriving DecidableEq, Repr

def SettingsError.message : SettingsError → Text
  | .radix given => "radix must be between 2 and 16, got ".toList ++ Positional.signedDecimal given
  | .convertRadix given =>
    "convert_to_radix must be between 2 and 16, got ".toList ++ Positional.signedDecimal given
  | .negativePrecision => "precision and extra precision must not be negative".toList
  | .precisionSum => "sum of precision and extra precision must not exceed 255".toList

namespace Settings

/-- The radices that numbers may be read and written in. -/
def radixInRange (radix : Int) : Bool := 2 ≤ radix && radix ≤ 16

def maxPrecision : Int := 255

/-- The first thing that is wrong with the settings, if anything is. -/
def validate (s : Settings) : Except SettingsError Unit :=
  if !radixInRange s.radix then .error (.radix s.radix)
  else match s.convertRadix.filter (!radixInRange ·) with
    | some given => .error (.convertRadix given)
    | none =>
      if s.precision < 0 ∨ s.extraPrecision < 0 then .error .negativePrecision
      else if maxPrecision < s.precision + s.extraPrecision then .error .precisionSum
      else .ok ()

/-- Settings that nothing is wrong with. -/
structure Valid (s : Settings) : Prop where
  radix : 2 ≤ s.radix ∧ s.radix ≤ 16
  convertRadix : ∀ r, s.convertRadix = some r → 2 ≤ r ∧ r ≤ 16
  precision : 0 ≤ s.precision
  extraPrecision : 0 ≤ s.extraPrecision
  sum : s.precision + s.extraPrecision ≤ 255

def outputRadix (s : Settings) : Int := s.convertRadix.getD s.radix

/-- The places that inexact results carry. -/
def workingPrecision (s : Settings) : Int := s.precision + s.extraPrecision

def style (s : Settings) : NumberStyle :=
  { radix := s.outputRadix.toNat, commas := s.commas, upper := s.upper }

def display (s : Settings) (v : Rat) : Text :=
  if s.fractional then s.style.renderFraction v else s.style.render s.precision.toNat v

/-- A result as it is shown under settings that need not be valid. In a negative radix not every
number has digits. -/
def displayUnchecked (s : Settings) (v : Rat) : Except NegativeNumber Text :=
  let magnitude := s.outputRadix.natAbs
  if 0 ≤ s.outputRadix then .ok (s.display v)
  else if s.fractional then .ok (NegativeRadix.renderFraction magnitude s.style v)
  else NegativeRadix.render magnitude s.style s.precision.toNat v

def isOn (s : Settings) : Switch → Bool
  | .fractional => s.fractional
  | .upper => s.upper
  | .commas => s.commas

def turn (s : Settings) (switch : Switch) (on : Bool) : Settings :=
  match switch with
  | .fractional => { s with fractional := on }
  | .upper => { s with upper := on }
  | .commas => { s with commas := on }

end Settings
end ExactCalc
