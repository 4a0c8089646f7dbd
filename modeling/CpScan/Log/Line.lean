/-
# Log lines

How an event is shown (`Style.line`): the time, the level in five columns, the message and the
named values.  With colors the time is dimmed, the level colored by its importance, and each name
slanted before a dimmed equals sign.
-/
import CpScan.Log.Event
import CpScan.Text.ControlSequence

namespace CpScan

/-- The name of a level, flush right in five columns. -/
def Level.column (l : Level) : String :=
  String.ofList (List.replicate (5 - l.name.length) ' ') ++ l.name

/-- The number of a level's color. -/
def Level.color : Level → Nat
  | trace => 35
  | debug => 34
  | info => 32
  | warn => 33
  | error => 31

/-- Whether log lines have colors. -/
inductive Style where
  | plain | colored
deriving DecidableEq, Repr

namespace Style

/-- A text in a color or style, or as it is. -/
def paint (s : Style) (code : Nat) (text : String) : String :=
  match s with
  | plain => text
  | colored => Text.styled code text

/-- The line for an event, with the time it happened at. -/
def line (s : Style) (time : String) (e : Event) : String :=
  let head := s.paint 2 time ++ " " ++ s.paint e.level.color e.level.column ++ " " ++ e.message
  e.fields.foldl
    (fun text (name, value) => text ++ " " ++ s.paint 3 name ++ s.paint 2 "=" ++ value) head ++ "\n"

end Style

end CpScan
