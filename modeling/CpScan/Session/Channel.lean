/-
# Output channels

A channel takes bytes and keeps them.  It may have room for only so many: it then keeps exactly
the first of them, and the first write that needs more stores what fits and fails.  A write of
nothing never fails.

A console is what a session writes to: one channel for tokens and prompts, one for diagnostics,
and the log, which takes any number of events.
-/
import CpScan.Failure
import CpScan.Log.Event

namespace CpScan

/-! ## 1. One channel -/

/-- Bytes written, and how many there may be. -/
structure Channel where
  /-- The number of bytes there is room for; none if there is no limit. -/
  capacity : Option Nat := none
  written : ByteArray := .empty

namespace Channel

/-- Write bytes; the flag says whether all of them fitted. -/
def write : Channel → ByteArray → Channel × Bool
  | ⟨none, written⟩, bytes => (⟨none, written ++ bytes⟩, true)
  | ⟨some n, written⟩, bytes =>
    let room := n - written.size
    if bytes.size ≤ room then (⟨some n, written ++ bytes⟩, true)
    else (⟨some n, written ++ bytes.extract 0 room⟩, false)

end Channel

/-! ## 2. A console -/

/-- What a session writes to. -/
structure Console where
  /-- Tokens and prompts. -/
  out : Channel := {}
  /-- Diagnostics. -/
  err : Channel := {}
  /-- Whether flushing fails. -/
  flushFails : Bool := false
  /-- Events, in the order they came in. -/
  log : Array Event := #[]

end CpScan
