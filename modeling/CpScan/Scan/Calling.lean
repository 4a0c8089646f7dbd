/-
# Scans that call a listener

A scan need not report to a collector.  Anything can be told of errors that takes a line and a
message, and is not asked for an answer.  Such a listener is given by its state and by what becomes
of the state at each call.

The machine never looks into its collector, so it can be the same machine: each turn is taken with
an empty collector, and the listener is called with what the collector was told in that turn.
-/
import CpScan.Scan.Scanner

namespace CpScan

/-- A report to a listener: the number of the line, and the message. -/
abbrev Call : Type := Nat × String

/-- What a listener is called with in the place of a collector. -/
def Collector.calls (c : Collector) : List Call :=
  c.diagnostics.toList.map fun d => (d.span.line, d.message)

namespace Scanner

variable {σ : Type}

/-- The scan with an empty collector. -/
def muted (s : Scanner) : Scanner := { s with sink := {} }

/-- Turn until the text is used up; `hear` is what a call does to the state of the listener. -/
def loopCalling (hear : σ → Call → σ) (s : Scanner) (state : σ) : Scanner × σ :=
  if _ : s.cursor.atEnd = true then (s.muted, state)
  else loopCalling hear s.muted.step (s.muted.step.sink.calls.foldl hear state)
termination_by s.cursor.remaining
decreasing_by exact step_remaining_lt (s := s.muted) (Bool.eq_false_iff.mpr ‹_›)

/-- Scan a whole text, calling a listener. -/
def runCalling (hear : σ → Call → σ) (source : String) (state : σ) : Scanner × σ :=
  ((loopCalling hear (start source {}) state).1.finish,
    (loopCalling hear (start source {}) state).2)

/-- What a listener that keeps all calls has heard behind the scan of a text. -/
def heard (source : String) : List Call :=
  (runCalling (fun calls call => calls ++ [call]) source []).2

end Scanner

end CpScan
