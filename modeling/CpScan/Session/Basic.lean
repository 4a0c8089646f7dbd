/-
# Sessions

A session scans source texts with one choice of settings, and lays out what is to be written.

* `Session.run` scans one text: its events are logged, each diagnostic is a line on the error
  channel and then each token a line on the output channel; if there was anything to report the
  ending says how much.
* `Session.runFile` does the same for the text of a file.
* `Session.runPrompt` prompts for lines until the input ends.  Each line is scanned by itself,
  without the line end; a line with errors is logged and does not end the session.

Bytes that are not UTF-8 are read as U+FFFD rather than refused.
-/
import CpScan.Files
import CpScan.Session.Plan
import CpScan.Text.Utf8

namespace CpScan

/-- Settings, and whether diagnostics are shown in color. -/
structure Session where
  settings : Settings := {}
  color : Bool := false
deriving Repr

/-! ## 1. Lines of output -/

namespace Session

/-- A token as a line of output, without the line feed. -/
def renderToken (s : Session) (t : Token) : String :=
  if s.settings.showSpans then t.renderWithSpan else t.render

/-- A diagnostic as a line of output, without the line feed. -/
def renderDiagnostic (s : Session) (d : Diagnostic) : String :=
  if s.color then d.renderColored else d.render

/-! ## 2. One source text -/

/-- What is done with a scan: log its events, write its diagnostics, write its tokens. -/
def showScan (s : Session) (scan : Scan) : List Action :=
  scan.events.map .log ++
    (scan.diagnostics.map (fun d => .err (s.renderDiagnostic d ++ "\n")) ++
      scan.tokens.map (fun t => .out (s.renderToken t ++ "\n")))

/-- How a scan ends: with the number of its reports, if there are any. -/
def verdict (scan : Scan) : Except Failure Unit :=
  match scan.reports.length with
  | 0 => .ok ()
  | count => .error (.reported count)

/-- The plan for a source text. -/
def run (s : Session) (source : List Char) : Plan :=
  let scan := Scan.of source
  ⟨s.showScan scan, verdict scan⟩

/-- The plan for a source file. -/
def runFile (s : Session) (files : Files) (path : String) : Plan :=
  match (files path).read with
  | .error cause => ⟨[], .error (.unreadable path cause)⟩
  | .ok bytes =>
    let plan := s.run (Utf8.decode bytes)
    { plan with actions := .log (.scanningFile path bytes.length) :: plan.actions }

end Session

/-! ## 3. Interactive input -/

/-- Input that is read line by line. -/
structure Input where
  bytes : List UInt8
  /-- Whether reading fails behind the last byte, where it would otherwise just end. -/
  fails : Bool := false
deriving Repr

namespace Input

/-- The bytes up to and including each line feed, in order, and the bytes behind the last one;
`line` is the line begun, its last byte first, and `done` the lines before it, the last first. -/
def splitLines (line : List UInt8) (done : List (List UInt8)) :
    List UInt8 → List (List UInt8) × List UInt8
  | [] => (done.reverse, line.reverse)
  | b :: bytes =>
    if b = 0x0A then splitLines [] ((b :: line).reverse :: done) bytes
    else splitLines (b :: line) done bytes

/-- The lines that can be read.  One without a line feed at the end is the last, and is lost if
the input fails behind it. -/
def lines (i : Input) : List (List UInt8) :=
  let (whole, rest) := splitLines [] [] i.bytes
  if i.fails || rest.isEmpty then whole else whole ++ [rest]

end Input

/-- A line without the line feeds and carriage returns at its end. -/
def trimLineEnd (line : List Char) : List Char :=
  (line.reverse.dropWhile (fun c => c == '\n' || c == '\r')).reverse

namespace Session

/-- Show the prompt. -/
def promptActions (s : Session) : List Action := [.out s.settings.prompt, .flush]

/-- What is done with the interactive line with the number `n`. -/
def lineActions (s : Session) (n : Nat) (line : List UInt8) : List Action :=
  let scan := Scan.of (trimLineEnd (Utf8.decode line))
  s.showScan scan ++
    match verdict scan with
    | .error (.reported count) => [.log (.lineFailed count n)]
    | _ => []

/-- What is done for all lines, the first of which has the number `n`: before each, the prompt. -/
def linesActions (s : Session) (n : Nat) (lines : List (List UInt8)) : List Action :=
  (lines.zipIdx n).flatMap fun (line, n) => s.promptActions ++ s.lineActions n line

/-- The plan for an interactive session. -/
def runPrompt (s : Session) (input : Input) : Plan :=
  let lines := input.lines
  let actions := .log .sessionStarted :: (s.linesActions 1 lines ++ s.promptActions)
  if input.fails then ⟨actions, .error (.io .readFailed)⟩
  else ⟨actions ++ [.log (.sessionEnded lines.length)], .ok ()⟩

end Session

end CpScan
