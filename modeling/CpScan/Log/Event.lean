/-
# Log events

What the program tells about its own doings.  An event has a level, a message and named values
(`Event.fields`), and reads `LEVEL message name=value name=value` (`Event.render`).  The part of
the program that it comes from (`Event.source`) is not shown; filters go by it.
-/
import CpScan.Diagnostic
import CpScan.Settings.Basic

namespace CpScan

/-! ## 1. Levels -/

/-- How important an event is, from the least important on. -/
inductive Level where
  | trace | debug | info | warn | error
deriving DecidableEq, Repr, Inhabited

namespace Level

/-- The name of a level. -/
def name : Level → String
  | trace => "TRACE"
  | debug => "DEBUG"
  | info => "INFO"
  | warn => "WARN"
  | error => "ERROR"

/-- The place of a level among the levels, the least important first. -/
def rank : Level → Nat
  | trace => 0
  | debug => 1
  | info => 2
  | warn => 3
  | error => 4

end Level

/-! ## 2. Events -/

/-- Something the program tells about its doings. -/
inductive Event where
  /-- A malformed piece was found. -/
  | lexicalError (report : Report)
  /-- A scan came to its end: how many tokens and malformed pieces there were, and the line the
  text ends on. -/
  | scanFinished (tokens errors lines : Nat)
  /-- A source file was read. -/
  | scanningFile (path : String) (bytes : Nat)
  /-- An interactive session begins. -/
  | sessionStarted
  /-- An interactive session ended after this many lines. -/
  | sessionEnded (lines : Nat)
  /-- The interactive line with this number had errors. -/
  | lineFailed (errors line : Nat)
  /-- The settings in force. -/
  | settingsLoaded (settings : Settings)
deriving DecidableEq, Repr

namespace Event

/-- The level of an event. -/
def level : Event → Level
  | lexicalError _ => .trace
  | scanFinished .. | scanningFile .. | lineFailed .. | settingsLoaded _ => .debug
  | sessionStarted | sessionEnded _ => .info

/-- The message of an event. -/
def message : Event → String
  | lexicalError _ => "lexical error"
  | scanFinished .. => "scan finished"
  | scanningFile .. => "scanning file"
  | sessionStarted => "interactive session started"
  | sessionEnded _ => "interactive session ended"
  | lineFailed errors _ => reportedMessage errors
  | settingsLoaded _ => "configuration loaded"

/-- The named values of an event, in the order they are shown. -/
def fields : Event → List (String × String)
  | lexicalError r =>
    [("line", toString r.start.line), ("offset", toString r.start.offset),
     ("error", r.error.message)]
  | scanFinished tokens errors lines =>
    [("tokens", toString tokens), ("errors", toString errors), ("lines", toString lines)]
  | scanningFile path bytes => [("path", path), ("bytes", toString bytes)]
  | sessionStarted => []
  | sessionEnded lines => [("lines", toString lines)]
  | lineFailed _ line => [("line", toString line)]
  | settingsLoaded settings => [("config", settings.describe)]

/-- The names that the parts of an event go by. -/
def fieldNames (e : Event) : List String := "message" :: e.fields.map Prod.fst

/-- Where an event comes from. -/
def source : Event → String
  | lexicalError _ | scanFinished .. => "cpc_lex::lexer::core"
  | scanningFile .. | sessionStarted | sessionEnded _ | lineFailed .. => "cpc_drv::session"
  | settingsLoaded _ => "cpc"

/-- An event as `LEVEL message name=value`. -/
def render (e : Event) : String :=
  e.fields.foldl (fun text (name, value) => text ++ " " ++ name ++ "=" ++ value)
    (e.level.name ++ " " ++ e.message)

end Event

/-- The events of a scan: one for each malformed piece, and one for the end. -/
def Scan.events (s : Scan) : List Event :=
  let reports := s.reports
  reports.map Event.lexicalError ++ [.scanFinished s.tokens.length reports.length s.lines]

end CpScan
