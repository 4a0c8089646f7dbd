/-
# Plans: what a session sets out to do

A session is laid out as a plan before anything is written: the list of its actions, and how it
ends if all of them succeed.  Only the input decides what the plan is; the console decides how
far it gets.  Carrying a plan out stops at the first action that fails, and the failure is then
the result.
-/
import CpScan.Session.Channel

namespace CpScan

/-! ## 1. Actions -/

/-- One thing a session does. -/
inductive Action where
  /-- Write to the output channel. -/
  | out (text : String)
  /-- Write to the error channel. -/
  | err (text : String)
  /-- Flush the output channel. -/
  | flush
  /-- Log an event. -/
  | log (event : Event)
deriving DecidableEq, Repr

namespace Console

/-- Carry one action out; a cause says that it failed. -/
def perform : Console → Action → Console × Option IoCause
  | ⟨out, err, flushFails, log⟩, .out text =>
    let (out, fits) := out.write text.toUTF8
    (⟨out, err, flushFails, log⟩, if fits then none else some .channelFull)
  | ⟨out, err, flushFails, log⟩, .err text =>
    let (err, fits) := err.write text.toUTF8
    (⟨out, err, flushFails, log⟩, if fits then none else some .channelFull)
  | c, .flush => (c, if c.flushFails then some .flushFailed else none)
  | ⟨out, err, flushFails, log⟩, .log event => (⟨out, err, flushFails, log.push event⟩, none)

/-- Carry actions out, up to and including the first that fails. -/
def performAll (c : Console) : List Action → Console × Option IoCause
  | [] => (c, none)
  | action :: more =>
    match c.perform action with
    | (c, none) => c.performAll more
    | (c, some cause) => (c, some cause)

end Console

/-! ## 2. Plans -/

/-- Actions, and the end they come to if all succeed. -/
structure Plan where
  actions : List Action
  ending : Except Failure Unit

namespace Plan

/-- Carry a plan out. -/
def execute (p : Plan) (c : Console) : Console × Except Failure Unit :=
  match c.performAll p.actions with
  | (c, none) => (c, p.ending)
  | (c, some cause) => (c, .error (.io cause))

end Plan

end CpScan
