import ExactCalc.Command.Definition

/-!
# The registry of commands

A registry holds commands by name and aliases that lead to names. No word is the name or the alias
of two commands: a definition that would make it so is turned down, and the registry stays as it
was.
-/
namespace ExactCalc

/-- The commands, and for each alias the name that it stands for. -/
structure Registry where
  commands : List Definition := []
  aliases : List (Text × Text) := []

/-- Why a definition is turned down. -/
inductive RegistryError where
  | duplicateName (name : Text)
  | duplicateAlias (name : Text)
  deriving DecidableEq, Repr

def RegistryError.message : RegistryError → Text
  | .duplicateName name => "duplicate command name: ".toList ++ name
  | .duplicateAlias name => "duplicate command alias: ".toList ++ name

namespace Registry

def command? (r : Registry) (name : Text) : Option Definition := r.commands.find? (·.name = name)

def alias? (r : Registry) (name : Text) : Option Text := r.aliases.lookup name

/-- Whether a word is a name or an alias. -/
def knows (r : Registry) (word : Text) : Bool :=
  (r.command? word).isSome || (r.alias? word).isSome

/-- Make an alias lead to a name, unless it leads somewhere. -/
def addAlias (name : Text) (aliases : List (Text × Text)) (word : Text) : List (Text × Text) :=
  if (aliases.lookup word).isSome then aliases else aliases ++ [(word, name)]

/-- What adds to a registry and may turn a definition down on the way. What it has written before it
does so stays written. -/
abbrev Registering (α : Type) := ExceptT RegistryError (StateM Registry) α

/-- Turn down a definition whose name or aliases are not new. -/
def requireNew (d : Definition) : Registering Unit := do
  let r ← get
  if r.knows d.name then throw (.duplicateName d.name)
  match d.aliases.find? fun word => r.knows word || word = d.name with
  | some word => throw (.duplicateAlias word)
  | none => return ()

/-- Write the command of a definition, and then its aliases one after the other. -/
def enter (d : Definition) : Registering Unit := do
  modify fun r => { r with commands := r.commands ++ [d] }
  d.aliases.forM fun word => modify fun r => { r with aliases := addAlias d.name r.aliases word }

/-- One attempt to add a command: what comes of it, and the registry that it leaves. -/
def attempt (d : Definition) (r : Registry) : Except RegistryError Unit × Registry :=
  StateT.run (ExceptT.run (requireNew d >>= fun _ => enter d)) r

/-- Add a command, if its name and aliases are new. -/
def register (r : Registry) (d : Definition) : Except RegistryError Registry :=
  match attempt d r with
  | (.ok (), after) => .ok after
  | (.error e, _) => .error e

/-- Add commands, up to the first that is turned down. -/
def registerAll (r : Registry) (ds : List Definition) : Except RegistryError Registry :=
  ds.foldlM register r

/-- The command that a word means, by its name or an alias. -/
def lookup? (r : Registry) (word : Text) : Option Definition :=
  r.command? ((r.alias? word).getD word)

def lookup (r : Registry) (word : Located Text) : Except Refusal Definition :=
  match r.lookup? word.val with
  | some d => .ok d
  | none => .error (.argument (.unknownCommand word.val) word.span)

def names (r : Registry) : List Text := Text.sorted (r.commands.map (·.name))

/-- The list of all commands with what they are for, in columns. -/
def overview (r : Registry) : Text :=
  let width := (r.names.map List.length).foldl Nat.max 0
  let line (name : Text) : Text :=
    let summary := ((r.command? name).map (·.summary)).getD []
    "  ".toList ++ name.rightpad width ' ' ++ ' ' :: summary
  List.intercalate ['\n'] ("Available commands:".toList :: r.names.map line)

def builtin : List Definition :=
  [.help, .purgevar, .radix, .converttoradix, .precision, .fractional, .upper, .commas]

def default : Registry :=
  match registerAll {} builtin with
  | .ok r => r
  | .error _ => {}

end Registry
end ExactCalc
