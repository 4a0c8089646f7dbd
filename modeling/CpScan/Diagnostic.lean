/-
# Diagnostics and their collector

A diagnostic is a message with the place it is about, shown as `Error [line 3]: message`.  A
collector keeps diagnostics in the order they came in, whoever made them: a bare report, which
knows only its line, a finished diagnostic, or a whole scan, which adds one line-only diagnostic
for each malformed piece.
-/
import CpScan.Scan.Basic

namespace CpScan

/-! ## 1. Diagnostics -/

/-- A message about a place in a source text. -/
structure Diagnostic where
  message : String
  span : Span
deriving DecidableEq, Repr, Inhabited

namespace Diagnostic

/-- A diagnostic that knows only its line. -/
def onLine (line : Nat) (message : String) : Diagnostic := ⟨message, Span.ofLine line⟩

/-- What is shown behind the title. -/
def body (d : Diagnostic) : String := s!" [line {d.span.line}]: " ++ d.message

/-- A diagnostic as `Error [line N]: message`. -/
def render (d : Diagnostic) : String := "Error" ++ d.body

/-- The same with the title in bold red. -/
def renderColored (d : Diagnostic) : String := "\x1b[1;31mError\x1b[0m" ++ d.body

end Diagnostic

/-- The diagnostic for a malformed piece: its line, and the wording of its error. -/
def Report.diagnostic (r : Report) : Diagnostic := Diagnostic.onLine r.start.line r.error.message

/-- The diagnostics of a scan, in source order. -/
def Scan.diagnostics (s : Scan) : List Diagnostic := s.reports.map Report.diagnostic

/-! ## 2. Collectors -/

/-- Diagnostics, in the order they came in. -/
structure Collector where
  diagnostics : Array Diagnostic := #[]
deriving Repr, Inhabited

/-- The error of a run in which `count` diagnostics were collected. -/
def reportedMessage (count : Nat) : String := s!"{count} error(s) reported"

namespace Collector

/-- A collector that holds nothing. -/
def empty : Collector := {}

/-- Add a finished diagnostic. -/
def emit (c : Collector) (d : Diagnostic) : Collector := ⟨c.diagnostics.push d⟩

/-- Add a message that knows only its line. -/
def report (c : Collector) (line : Nat) (message : String) : Collector :=
  c.emit (Diagnostic.onLine line message)

/-- Add what a scan has to report. -/
def absorb (c : Collector) (s : Scan) : Collector := s.diagnostics.foldl emit c

/-- How many diagnostics there are. -/
def count (c : Collector) : Nat := c.diagnostics.size

/-- Whether there is any diagnostic. -/
def hasErrors (c : Collector) : Bool := !c.diagnostics.isEmpty

/-- The number of diagnostics as an error, if there is any. -/
def check (c : Collector) : Except Nat Unit :=
  if c.count = 0 then .ok () else .error c.count

end Collector

end CpScan
