import ExactCalc.Power
import ExactCalc.Settings
import ExactCalc.Variables

/-!
# Sessions

A session is what the lines of input act on: the settings and, unless there is none, the store of
variables.
-/
namespace ExactCalc

structure Session where
  settings : Settings := {}
  store : Option Memory := some {}
  deriving DecidableEq, Repr

namespace Session

def touch (session : Session) (line : Option Int) (names : List Text) : Session :=
  { session with store := session.store.map (·.touchAll line names) }

def purge (session : Session) (name : Text) : Session :=
  { session with store := session.store.map (·.purge name) }

def change (session : Session) (f : Settings → Settings) : Session :=
  { session with settings := f session.settings }

def accuracy (session : Session) : Accuracy :=
  .shown session.settings.workingPrecision session.settings.outputRadix.toNat

end Session
end ExactCalc
