import ExactCalc.Command.Arguments
import ExactCalc.Command.Registry

/-!
# What commands answer

Without an argument a command that is about a setting answers with the setting; with one it sets
it and answers that it is done. What a command writes it writes into the session at once, field by
field and variable by variable, so that it has to look at all of its arguments before. An added
command may do what it likes with the session.
-/
namespace ExactCalc.Command

/-- The answer of a command that changed something. -/
def done : Reply := ⟨['D', 'o', 'n', 'e'], []⟩

def answer (output : Text) : Reply := ⟨output, []⟩

def help (commands : Registry) (arguments : Located Text) : Effect Session Reply := do
  let word := arguments.trim
  if word.val = [] then return answer commands.overview
  return answer (← Effect.checked (commands.lookup word)).usage

/-- Remove variables. The names are looked at before the store. -/
def purge (arguments : Located Text) : Effect Session Reply := do
  let names ← Effect.ofResult (names arguments)
  match (← get).store with
  | none => throw (.refused ⟨.capability .noVariableStore, none⟩)
  | some _ =>
    (Located.distinct names).forM fun name => modify (·.purge name.val)
    return done

/-- Answer with what the settings say, or change them if an argument is given. -/
def reportOrSet {α : Type} (given : Except Failure (Option α)) (report : Settings → Text)
    (set : α → Settings → Settings) : Effect Session Reply := do
  match ← Effect.ofResult given with
  | none => return answer (report (← get).settings)
  | some value =>
    modify (·.change (set value))
    return done

def radix (arguments : Located Text) : Effect Session Reply :=
  reportOrSet (radix? arguments) (fun settings => Positional.signedDecimal settings.radix)
    fun radix settings => { settings with radix := radix }

def radixReport : Option Int → Text
  | none => "None".toList
  | some radix => Positional.signedDecimal radix

/-- Answer, set or unset the radix of results. -/
def convertRadix (arguments : Located Text) : Effect Session Reply := do
  if word arguments = ['n', 'o', 'n', 'e'] then
    modify (·.change fun settings => { settings with convertRadix := none })
    return done
  reportOrSet (radix? arguments) (fun settings => radixReport settings.convertRadix)
    fun radix settings => { settings with convertRadix := some radix }

def precisionReport (settings : Settings) : Text :=
  "Precision = ".toList ++ Positional.signedDecimal settings.precision ++
    "\nExtra Precision = ".toList ++ Positional.signedDecimal settings.extraPrecision

def isPrecision (n : Int) : Bool := 0 ≤ n && n ≤ Settings.maxPrecision

/-- The extra precision beside a new precision: a second argument or, without one, the extra
precision that there is. Together they may not be too large. -/
def extraBeside (settings : Settings) (precision : Located Int) (extra : Option (Located Int)) :
    Except Refusal Int :=
  let extraPrecision := (extra.map (·.val)).getD settings.extraPrecision
  let all := precision.span.cover ((extra.map (·.span)).getD precision.span)
  if !isPrecision precision.val then .error (.argument .precisionOutOfRange precision.span)
  else match extra.filter (!isPrecision ·.val) with
    | some extra => .error (.argument .extraOutOfRange extra.span)
    | none =>
      if Settings.maxPrecision < precision.val + extraPrecision then
        .error (.argument .sumOutOfRange all)
      else .ok extraPrecision

/-- Set the precision and, if a second argument is there, the extra precision. -/
def setPrecision (precision : Located Int) (extra : Option (Located Int)) :
    Effect Session Reply := do
  let extraPrecision ← Effect.checked (extraBeside (← get).settings precision extra)
  modify (·.change fun settings => { settings with precision := precision.val })
  modify (·.change fun settings => { settings with extraPrecision := extraPrecision })
  return done

def precision (arguments : Located Text) : Effect Session Reply := do
  match ← Effect.ofResult (integers arguments) with
  | [] => return answer (precisionReport (← get).settings)
  | [precision] => setPrecision precision none
  | [precision, extra] => setPrecision precision (some extra)
  | first :: _ :: third :: rest => throw (.refused (tooMany first (rest.getLastD third)))

def switchReport (on : Bool) : Text := if on then "true".toList else "false".toList

def switch (s : Switch) (arguments : Located Text) : Effect Session Reply :=
  reportOrSet (boolean? arguments) (fun settings => switchReport (settings.isOn s))
    fun on settings => settings.turn s on

def run (action : Action) (commands : Registry) (arguments : Located Text) :
    Effect Session Reply :=
  match action with
  | .help => help commands arguments
  | .purge => purge arguments
  | .radix => radix arguments
  | .convertRadix => convertRadix arguments
  | .precision => precision arguments
  | .switch s => switch s arguments
  | .added run => run arguments

end ExactCalc.Command
