import ExactCalc.Options.Integer
import ExactCalc.Options.Quoted
import ExactCalc.Settings

/-!
# Command line options

The words of the command line are first told apart one by one: options, with or without a value
attached, and operands. Then they are taken from left to right, and an option that needs a value
and has none attached takes the operand after it. A later option overrides an earlier one. No
operand and no unknown option may be left over.
-/
namespace ExactCalc

/-- The options that need a value. -/
inductive Valued where
  | radix | precision | convertRadix | input | logLevel
  deriving DecidableEq, Repr

inductive Parameter where
  | help
  | switch (s : Switch)
  | valued (v : Valued)
  deriving DecidableEq, Repr

/-- The choices made: the settings to begin with, and the one line to answer, if it is given. -/
structure Options where
  settings : Settings := {}
  input : Option Text := none
  deriving DecidableEq, Repr

namespace Options

/-- All ways to write the options. -/
def spellings : List (Text × Parameter) :=
  [("-h".toList, .help), ("--help".toList, .help),
    ("-r".toList, .valued .radix), ("--radix".toList, .valued .radix),
    ("-p".toList, .valued .precision), ("--precision".toList, .valued .precision),
    ("--convert-to-radix".toList, .valued .convertRadix),
    ("--fractional".toList, .switch .fractional),
    ("--commas".toList, .switch .commas),
    ("--upper".toList, .switch .upper),
    ("-i".toList, .valued .input), ("--input".toList, .valued .input),
    ("--log-level".toList, .valued .logLevel)]

def logLevels : List Text :=
  ["DEBUG".toList, "INFO".toList, "WARNING".toList, "ERROR".toList]

/-- What is wrong with an option or its value. -/
inductive Objection where
  | radixOutOfRange
  | precisionOutOfRange
  | notARadix (word : Text)
  | notAPrecision (word : Text)
  | notALogLevel (word : Text)
  | valueMissing
  | valueIgnored (word : Text)
  deriving DecidableEq, Repr

/-- What is wrong with a command line. -/
inductive UsageFault where
  | ambiguous (word : Text) (candidates : List Text)
  | rejected (p : Parameter) (objection : Objection)
  | unrecognized (words : List Text)
  deriving DecidableEq, Repr

def Objection.message : Objection → Text
  | .radixOutOfRange => "radix must be between 2 and 16".toList
  | .precisionOutOfRange => "precision must be between 0 and 255".toList
  | .notARadix word => "invalid _radix value: ".toList ++ quoted word
  | .notAPrecision word => "invalid _precision value: ".toList ++ quoted word
  | .notALogLevel word =>
    "invalid choice: ".toList ++ quoted word ++ " (choose from ".toList ++
      List.intercalate [',', ' '] (logLevels.map quoted) ++ [')']
  | .valueMissing => "expected one argument".toList
  | .valueIgnored word => "ignored explicit argument ".toList ++ quoted word

/-- A parameter as messages name it, by all its spellings. -/
def title (p : Parameter) : Text :=
  List.intercalate ['/'] ((spellings.filter (·.2 = p)).map (·.1))

def UsageFault.message (fault : UsageFault) : Text :=
  "bcalc: error: ".toList ++
    match fault with
    | .ambiguous word candidates =>
      "ambiguous option: ".toList ++ word ++ " could match ".toList ++
        List.intercalate [',', ' '] candidates
    | .rejected p objection =>
      "argument ".toList ++ title p ++ [':', ' '] ++ objection.message
    | .unrecognized words => "unrecognized arguments: ".toList ++ List.intercalate [' '] words

/-- What a word of the command line is. An option may have a value attached to it. The letter for
help may be followed by the letter of an option whose value is the next word. -/
inductive Reading where
  | operand
  | unknown
  | option (p : Parameter) (attached : Option Text)
  | helpBefore (v : Valued)
  deriving DecidableEq, Repr

/-- Whether a word is a minus sign and a number, which is no option. -/
def isNegativeNumber (word : Text) : Bool :=
  let isDigit (c : Char) := (decimalDigit? c).isSome
  let body := word.drop 1
  let body := if body.getLast? = some '\n' then body.dropLast else body
  let fraction := (body.dropWhile isDigit).drop 1
  body ≠ [] &&
    (body.all isDigit ||
      ((body.dropWhile isDigit).head? = some '.' && fraction ≠ [] && fraction.all isDigit))

/-- A word that begins like an option and is none: a negative number and a phrase with a space are
operands. -/
def unmatched (word : Text) : Reading :=
  if isNegativeNumber word || word.contains ' ' then .operand else .unknown

/-- A word up to its first equals sign, and what follows the sign if there is one. -/
def splitValue (word : Text) : Text × Option Text :=
  let value :=
    match word.dropWhile (· ≠ '=') with
    | [] => none
    | _ :: value => some value
  (word.takeWhile (· ≠ '='), value)

/-- Tell what a word that begins with two minus signs is. It may be cut short as long as only one
option begins that way. -/
def readLong (word : Text) : Except UsageFault Reading :=
  let (name, value) := splitValue word
  match spellings.filter fun spelling => name.isPrefixOf spelling.1 with
  | [] => .ok (unmatched word)
  | [(_, p)] => .ok (.option p value)
  | candidates => .error (.ambiguous word (candidates.map (·.1)))

/-- Tell what the letters after the letter for help amount to. They are letters of options; the
value of an option may follow its letter at once, and does not matter then. -/
def readHelp : Text → Reading
  | [] => .option .help none
  | letter :: rest =>
    match spellings.lookup ['-', letter] with
    | some .help => readHelp rest
    | some (.valued v) => if rest = [] then .helpBefore v else .option .help none
    | _ => .option .help (some (letter :: rest))

/-- Tell what a word is that consists of the letter of an option, after a minus sign, and more. -/
def readLetter (p : Parameter) (more : Text) : Reading :=
  if p = .help ∧ more ≠ [] then readHelp more else .option p (some more)

/-- Tell what a word that begins with one minus sign is. A value may follow the letter at once. -/
def readShort (word : Text) : Reading :=
  match spellings.lookup (word.take 2) with
  | some p => readLetter p (word.drop 2)
  | none => unmatched word

def readWord (word : Text) : Except UsageFault Reading :=
  match spellings.lookup word, word with
  | some p, _ => .ok (.option p none)
  | none, '-' :: second :: _ =>
    let (name, value) := splitValue word
    match value, spellings.lookup name with
    | some value, some p =>
      if second = '-' then .ok (.option p (some value)) else .ok (readLetter p value)
    | _, _ => if second = '-' then readLong word else .ok (readShort word)
  | none, _ => .ok .operand

/-- Tell what all words are. After two lone minus signs every word is an operand. -/
def readWords : List Text → Except UsageFault (List (Text × Reading))
  | [] => .ok []
  | word :: rest =>
    if word = ['-', '-'] then .ok ((word, .unknown) :: rest.map (·, .operand))
    else do
      let reading ← readWord word
      return (word, reading) :: (← readWords rest)

def radix (word : Text) : Except Objection Int :=
  match integer? word with
  | none => .error (.notARadix word)
  | some n => if Settings.radixInRange n then .ok n else .error .radixOutOfRange

def precision (word : Text) : Except Objection Int :=
  match integer? word with
  | none => .error (.notAPrecision word)
  | some n =>
    if 0 ≤ n ∧ n ≤ Settings.maxPrecision then .ok n else .error .precisionOutOfRange

/-- Choose the value of an option. -/
def set (o : Options) (v : Valued) (word : Text) : Except Objection Options :=
  match v with
  | .radix => (radix word).map fun n => { o with settings.radix := n }
  | .precision => (precision word).map fun n => { o with settings.precision := n }
  | .convertRadix => (radix word).map fun n => { o with settings.convertRadix := some n }
  | .input => .ok { o with input := some word }
  | .logLevel => if word ∈ logLevels then .ok o else .error (.notALogLevel word)

/-- Choose the value of an option to which it is attached. Two minus signs by themselves are no
value: the option stays as it is, for a later word to choose. -/
def setAttached (o : Options) (v : Valued) (word : Text) : Except Objection Options :=
  if word = ['-', '-'] then .ok o else o.set v word

def turnOn (o : Options) (s : Switch) : Options := { o with settings := o.settings.turn s true }

/-- What the command line asks for. -/
inductive Request where
  | help
  | calculate (o : Options)
  deriving DecidableEq, Repr

/-- Take words from left to right. The words that fit nowhere are collected, the last one
first. -/
def take (o : Options) (left : List Text) : List (Text × Reading) → Except UsageFault Request
  | [] => if left = [] then .ok (.calculate o) else .error (.unrecognized left.reverse)
  | (_, .option .help none) :: _ => .ok .help
  | (_, .option (.switch s) none) :: rest => take (o.turnOn s) left rest
  | (_, .option (.valued v) (some value)) :: rest =>
    match o.setAttached v value with
    | .ok o => take o left rest
    | .error objection => .error (.rejected (.valued v) objection)
  | (_, .option (.valued v) none) :: (value, .operand) :: rest =>
    match o.set v value with
    | .ok o => take o left rest
    | .error objection => .error (.rejected (.valued v) objection)
  | (_, .helpBefore _) :: (_, .operand) :: _ => .ok .help
  | (_, .helpBefore v) :: _ => .error (.rejected (.valued v) .valueMissing)
  | (_, .option p none) :: _ => .error (.rejected p .valueMissing)
  | (_, .option p (some value)) :: _ => .error (.rejected p (.valueIgnored value))
  | (word, _) :: rest => take o (word :: left) rest

def read (words : List Text) : Except UsageFault Request := do
  take {} [] (← readWords words)

/-- How the command line is written. -/
def usage : Text :=
  ("usage: bcalc [-h] [-r RADIX] [-p PRECISION] [--convert-to-radix CONVERT_TO_RADIX]\n" ++
    "             [--fractional] [--commas] [--upper] [-i INPUT]\n" ++
    "             [--log-level \x7bDEBUG,INFO,WARNING,ERROR\x7d]\n").toList

end Options
end ExactCalc
