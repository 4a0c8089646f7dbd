/-
# Help

The texts that `--help` and `--version` print.  The help is laid out with the names of the options
in bold type (`helpLayout`), and printed without styles.  It shows the value of each environment
variable behind its name; further lines of a value start in the column of the first.  An order to
a terminal that such a value leaves open runs on to the next name, and is taken off with the styles.
-/
import CpScan.CommandLine.Options

namespace CpScan.CommandLine

/-- How the program is called. -/
def usageLine : String := "Usage: cpc [OPTIONS] [FILE]"

/-- The name and version of the program. -/
def versionText : String := "cpc 0.1.0\n"

/-- The column in which the descriptions of the options start. -/
def helpColumn : Nat := 25

/-- A text in a column: each line but the first is moved there. -/
def inColumn (column : Nat) (text : String) : String :=
  String.ofList <| text.toList.flatMap fun c =>
    if c = '\n' then '\n' :: List.replicate column ' ' else [c]

/-- An environment variable and its value. -/
def helpVariable (name : String) (value : Option String) : String :=
  " [env: " ++ name ++ "=" ++ inColumn helpColumn (value.getD "") ++ "]\n"

/-- The help with its styles. -/
def helpLayout (env : Environment) : String :=
  let name := Text.styled 1
  "Scan Cp source into tokens\n\n" ++ usageLine ++ "\n\n" ++
    "Arguments:\n" ++
    "  [FILE]  Source file to scan (omit for an interactive prompt)\n\n" ++
    "Options:\n" ++
    "  " ++ name "-v" ++ ", " ++ name "--verbose" ++ "          Enable verbose output" ++
    helpVariable "CPC_VERBOSE" env.verbose ++
    "  " ++ name "-c" ++ ", " ++ name "--config" ++ " <CONFIG>  Path to configuration file" ++
    helpVariable "CPC_CONFIG" env.config ++
    "      " ++ name "--no-color" ++ "         Disable color output" ++
    helpVariable "CPC_NO_COLOR" env.noColor ++
    "  " ++ name "-h" ++ ", " ++ name "--help" ++ "             Print help\n" ++
    "  " ++ name "-V" ++ ", " ++ name "--version" ++ "          Print version\n"

/-- The help text. -/
def helpText (env : Environment) : String := Text.visible .resumed (helpLayout env)

/-- What is shown for a wrong command line: the error, and how the program is called.  The hints
that may stand between the two are left out. -/
def usageText (error : UsageError) : String :=
  error.message ++ "\n\n" ++ usageLine ++ "\n\nFor more information, try '--help'.\n"

end CpScan.CommandLine
