import ExactCalc.Effect
import ExactCalc.Session

/-!
# Commands

A command has a name, further names (aliases), two texts for help and an action. The actions are
those of the calculator itself and one kind for commands that are added to it.
-/
namespace ExactCalc

/-- What a command answers: a text, and variables that it used. -/
structure Reply where
  output : Text
  touched : List Text := []
  deriving DecidableEq, Repr

/-- What a command does. -/
inductive Action where
  | help
  | purge
  | radix
  | convertRadix
  | precision
  | switch (s : Switch)
  /-- Any effect of the arguments on the session. Adding commands is none. -/
  | added (run : Located Text → Effect Session Reply)

structure Definition where
  name : Text
  aliases : List Text := []
  /-- The line about the command in the list of all commands. -/
  summary : Text
  /-- The help on the command alone. -/
  usage : Text
  action : Action

namespace Definition

/-- How help on a switch ends. -/
def switchUsage : Text :=
  ("If no value is provided, the current setting value is displayed.\n" ++
    "If a value is given, the setting value is updated.\n" ++
    "The value should be a boolean: \"true\", \"false\", \"t\" or \"f\".").toList

def help : Definition where
  name := ['h', 'e', 'l', 'p']
  aliases := [['h']]
  summary := "Gives help with commands".toList
  usage :=
    ("Usage: /help\n" ++
      "       /help command_name\n" ++
      "Alias: /h\n\n" ++
      "With no arguments, lists all the available commands. If a command is given as " ++
      "an argument, provides more detailed help with the specified command.").toList
  action := .help

def purgevar : Definition where
  name := ['p', 'u', 'r', 'g', 'e', 'v', 'a', 'r']
  summary := "Unsets variable(s)".toList
  usage :=
    ("Usage: /purgevar variable_name_1 [variable_name_2 [...]]\n\n" ++
      "Removes the variable(s) from the variable store.").toList
  action := .purge

def radix : Definition where
  name := ['r', 'a', 'd', 'i', 'x']
  aliases := [['r']]
  summary := "Retrieves or sets the current radix".toList
  usage :=
    ("Usage: /radix [value]\n\n" ++
      "Value represents the radix used to parse and output numbers.\n" ++
      "If no value is provided, the current setting value is displayed.\n" ++
      "If a value is given, the setting value is updated.\n" ++
      "The value given should be an integer between 2 and 16 (inclusive).").toList
  action := .radix

def converttoradix : Definition where
  name := ['c', 'o', 'n', 'v', 'e', 'r', 't', 't', 'o', 'r', 'a', 'd', 'i', 'x']
  aliases := [['c']]
  summary := "Retrieves or sets the current output radix".toList
  usage :=
    ("Usage: /converttoradix [value]\n\n" ++
      "Value overrides the radix used to output numbers.\n" ++
      "If no value is provided, the current setting value is displayed.\n" ++
      "If a value is given, the setting value is updated.\n" ++
      "The value given can be \"none\" or an integer between 2 and 16 (inclusive).").toList
  action := .convertRadix

def precision : Definition where
  name := ['p', 'r', 'e', 'c', 'i', 's', 'i', 'o', 'n']
  aliases := [['p']]
  summary := "Retrieves or sets the current precision".toList
  usage :=
    ("Usage: /precision [value [extra]]\n\n" ++
      "The value is the maximum number of digits displayed after the decimal point.\n" ++
      "Extra is additional precision carried internally but not displayed. It only " ++
      "matters for operations that can't be done exactly, such as 2^(1/2).\n" ++
      "value + extra must not exceed 255.").toList
  action := .precision

def fractional : Definition where
  name := ['f', 'r', 'a', 'c', 't', 'i', 'o', 'n', 'a', 'l']
  aliases := [['f']]
  summary := "Retrieves or sets fractional display setting".toList
  usage :=
    ("Usage: /fractional [enabled]\n" ++
      "Alias: /f\n\n" ++
      "When enabled, non-integer numbers are output as fractions rather than decimals.\n").toList ++
      switchUsage
  action := .switch .fractional

def upper : Definition where
  name := ['u', 'p', 'p', 'e', 'r']
  summary := "Retrieves or sets upper display setting".toList
  usage :=
    ("Usage: /upper [enabled]\n\n" ++
      "When enabled, digits above 9 are output in uppercase.\n").toList ++ switchUsage
  action := .switch .upper

def commas : Definition where
  name := ['c', 'o', 'm', 'm', 'a', 's']
  summary := "Retrieves or sets comma display setting".toList
  usage :=
    ("Usage: /commas [enabled]\n\n" ++
      "When enabled, commas are used as thousands separators in output.\n").toList ++ switchUsage
  action := .switch .commas

end Definition
end ExactCalc
