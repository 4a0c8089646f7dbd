/-
# What a command line can say

The settings of one run (`Options`), the environment variables that can stand in for options
(`Environment`), and the ways a command line can be wrong (`UsageError`).

A message shows what was given as it can be read: without the orders that a terminal would take
from it.
-/
import CpScan.Text.ControlSequence

namespace CpScan.CommandLine

/-! ## 1. Options -/

/-- What a run is asked to do. -/
structure Options where
  /-- The source file; none for an interactive session. -/
  file : Option String := none
  verbose : Bool := false
  /-- The settings file. -/
  config : Option String := none
  noColor : Bool := false
deriving DecidableEq, Repr, Inhabited

/-- The environment variables that are looked at. -/
structure Environment where
  /-- Stands in for `--verbose`. -/
  verbose : Option String := none
  /-- Stands in for `--config`. -/
  config : Option String := none
  /-- Stands in for `--no-color`. -/
  noColor : Option String := none
  /-- The filter of the log. -/
  logLevel : Option String := none
deriving DecidableEq, Repr, Inhabited

/-! ## 2. What can be given -/

/-- Something that can be given on a command line. -/
inductive Item where
  | file | verbose | config | noColor | help | version
deriving DecidableEq, Repr

/-- How an item is shown in a message. -/
def Item.shown : Item → String
  | file => "[FILE]"
  | verbose => "--verbose"
  | config => "--config <CONFIG>"
  | noColor => "--no-color"
  | help => "--help"
  | version => "--version"

/-- The option with this long name. -/
def Item.ofLong? : String → Option Item
  | "verbose" => some .verbose
  | "config" => some .config
  | "no-color" => some .noColor
  | "help" => some .help
  | "version" => some .version
  | _ => none

/-- The option with this letter. -/
def Item.ofShort? : Char → Option Item
  | 'v' => some .verbose
  | 'c' => some .config
  | 'h' => some .help
  | 'V' => some .version
  | _ => none

/-! ## 3. Errors -/

/-- How a command line can be wrong. -/
inductive UsageError where
  /-- An argument that is no option, or one file too many. -/
  | unexpectedArgument (argument : String)
  /-- An item given twice. -/
  | repeated (item : Item)
  /-- A value that is missing or empty. -/
  | valueRequired (item : Item)
  /-- A value for an option that takes none. -/
  | unexpectedValue (value : String) (item : Item)
  /-- An environment variable with a value that its option does not know. -/
  | invalidValue (value : String) (item : Item)
deriving DecidableEq, Repr

/-- What was given, as a message shows it. -/
def shownGiven (text : String) : String := Text.visible .abandoned text

/-- The wording of an error. -/
def UsageError.message : UsageError → String
  | unexpectedArgument argument =>
    "error: unexpected argument '" ++ shownGiven argument ++ "' found"
  | repeated item => "error: the argument '" ++ item.shown ++ "' cannot be used multiple times"
  | valueRequired item =>
    "error: a value is required for '" ++ item.shown ++ "' but none was supplied"
  | unexpectedValue value item =>
    "error: unexpected value '" ++ shownGiven value ++ "' for '" ++ item.shown ++
      "' found; no more were expected"
  | invalidValue value item =>
    "error: invalid value '" ++ shownGiven value ++ "' for '" ++ item.shown ++ "'"

/-- Why no run takes place: the arguments ask for something else, or are wrong. -/
inductive Stop where
  | help
  | version
  | usage (error : UsageError)
deriving DecidableEq, Repr

end CpScan.CommandLine
