/-
# The whole program

A run goes through four stages, and a failure of one is the end of it: read the command line,
find the settings, set the log up, and scan the source file or prompt for lines.  What happens
is laid out as a `Course`: the actions, in order, and the end they come to.  The course depends
neither on how the log is shown nor on what the TOML library says of settings that are refused;
`Course.stdout` and `Course.stderr` turn it into what is printed.

Log lines and diagnostics share the error stream, in the order they are written.  A failure is
printed last, except that errors in the source text have been shown already.
-/
import CpScan.CommandLine.Help
import CpScan.CommandLine.Parse
import CpScan.Log.Filter
import CpScan.Log.Line
import CpScan.Session.Basic
import CpScan.Settings.Locate

namespace CpScan

/-! ## 1. What a run is given -/

/-- Everything a run depends on. -/
structure Invocation where
  arguments : List String
  env : CommandLine.Environment := {}
  places : SettingsPlaces := {}
  files : Files
  input : Input

/-! ## 2. What a run does -/

/-- What is printed, which log lines are shown, and how the run ends. -/
structure Course where
  actions : List Action
  ending : Except Failure Unit
  filter : Filter
  style : Style

namespace Course

/-- A run that ends before the log is set up. -/
def brief (actions : List Action) (ending : Except Failure Unit) : Course :=
  ⟨actions, ending, .nothing, .plain⟩

/-- What goes to the standard output. -/
def stdout (c : Course) : String :=
  c.actions.foldl (fun text action =>
    match action with
    | .out more => text ++ more
    | _ => text) ""

/-- The last words of a run. -/
def lastWords (report : TomlReport) : Except Failure Unit → String
  | .ok () => ""
  | .error (.usage text) => text
  | .error (.reported _) => ""
  | .error failure => "error: " ++ failure.message report ++ "\n"

/-- What goes to the error stream, if all log lines have the time `time` and the TOML library says
`report` of settings that are refused. -/
def stderr (c : Course) (time : String) (report : TomlReport := .omitted) : String :=
  c.actions.foldl (fun text action =>
    match action with
    | .err more => text ++ more
    | .log event => if c.filter.shows event then text ++ c.style.line time event else text
    | _ => text) "" ++ lastWords report c.ending

/-- The exit status. -/
def exitStatus (c : Course) : Nat :=
  match c.ending with
  | .ok () => 0
  | .error failure => failure.exitStatus

end Course

/-! ## 3. The run -/

namespace Program

/-- What is known once the command line and the settings are read. -/
structure Setup where
  options : CommandLine.Options
  settings : Settings
deriving Repr

namespace Setup

/-- The session that the settings ask for.  Diagnostics are not colored: they go to a stream that
need not be a terminal. -/
def session (s : Setup) : Session := ⟨s.settings, false⟩

/-- The course of a run that does this, with the log set up. -/
def course (s : Setup) (env : CommandLine.Environment) (plan : Plan) : Course :=
  ⟨.log (.settingsLoaded s.settings) :: plan.actions, plan.ending,
    Filter.choose env.logLevel (s.options.verbose || s.settings.verbose),
    if s.options.noColor then .plain else .colored⟩

end Setup

/-- Read the command line and the settings; if no session is to take place, the course of the run
is already known. -/
def prepare (i : Invocation) : Except Course Setup :=
  match CommandLine.parse i.arguments i.env with
  | .error .help => .error (Course.brief [.out (CommandLine.helpText i.env)] (.ok ()))
  | .error .version => .error (Course.brief [.out CommandLine.versionText] (.ok ()))
  | .error (.usage error) =>
    .error (Course.brief [] (.error (.usage (CommandLine.usageText error))))
  | .ok options =>
    match Settings.find i.files i.places options.config with
    | .error failure => .error (Course.brief [] (.error failure))
    | .ok settings => .ok ⟨options, settings⟩

/-- What the program does. -/
def run (i : Invocation) : Course :=
  match prepare i with
  | .error course => course
  | .ok setup =>
    setup.course i.env <|
      match setup.options.file with
      | some path => setup.session.runFile i.files path
      | none => setup.session.runPrompt i.input

/-- The paths that a run may look at: the settings files, and the source file. -/
def paths (arguments : List String) (env : CommandLine.Environment) (places : SettingsPlaces) :
    List String :=
  match CommandLine.parse arguments env with
  | .error _ => []
  | .ok options =>
    options.file.toList ++
      match options.config with
      | some path => [path]
      | none => places.candidates

end Program

end CpScan
