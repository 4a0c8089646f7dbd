/-
# The command

The program as a command: it looks at the files and the environment, lets `Program` decide what
is to be done, and does it.  An interactive session is done line by line, so that each prompt is
shown before its line is read; everything else is laid out at once.  The words for settings that are
refused are the TOML library's, which is not at hand; `main` leaves them out.
-/
import CpScan.Program

namespace CpScan.Command

/-! ## 1. Looking -/

/-- What a failed attempt to read a path says about it. -/
def entryOfError : IO.Error → Entry
  | .noFileOrDirectory .. => .absent .notFound
  | .inappropriateType _ code _ =>
    if code = 21 then .unreadable .isDirectory else .absent .notDirectory
  | error@(.invalidArgument _ code _) =>
    if code = 36 then .absent .nameTooLong else .unreadable (.other (toString error))
  | error => .unreadable (.other (toString error))

/-- Look at a path. -/
def look (path : String) : IO Entry := do
  try
    return .file (← IO.FS.readBinFile path).toList
  catch error =>
    return entryOfError error

/-- Look at some paths; nothing is seen at any other. -/
def lookAt (paths : List String) : IO Files := do
  let entries ← paths.mapM fun path => return (path, ← look path)
  return fun path => (entries.lookup path).getD (.absent .notFound)

/-- Read up to and including the next line feed, or the end of the input. -/
partial def readLine (input : IO.FS.Stream) (line : List UInt8) : IO (List UInt8) := do
  match (← input.read 1).toList with
  | [] => return line.reverse
  | b :: _ => if b = 0x0A then return (b :: line).reverse else readLine input (b :: line)

/-! ## 2. Doing -/

/-- The time since the program was started. -/
def timeSince (start : Nat) : IO String := do
  let micros := ((← IO.monoNanosNow) - start) / 1000
  let digits := Nat.toDigits 10 (micros % 1000000)
  let places := List.replicate (6 - digits.length) '0' ++ digits
  return s!"{micros / 1000000}." ++ String.ofList places ++ "s"

/-- Do one thing of a course. -/
def perform (start : Nat) (course : Course) (action : Action) : IO Unit := do
  match action with
  | .out text => (← IO.getStdout).putStr text
  | .err text => (← IO.getStderr).putStr text
  | .flush => (← IO.getStdout).flush
  | .log event =>
    if course.filter.shows event then
      (← IO.getStderr).putStr (course.style.line (← timeSince start) event)

/-- Follow a course to its end. -/
def follow (report : TomlReport) (start : Nat) (course : Course) : IO UInt32 := do
  course.actions.forM (perform start course)
  (← IO.getStdout).flush
  (← IO.getStderr).putStr (Course.lastWords report course.ending)
  return UInt32.ofNat course.exitStatus

/-- Prompt for lines until the input ends; `n` is the number of the next line. -/
partial def prompt (act : List Action → IO Unit) (session : Session) (n : Nat) : IO Unit := do
  act session.promptActions
  match ← readLine (← IO.getStdin) [] with
  | [] => act [.log (.sessionEnded (n - 1))]
  | line =>
    act (session.lineActions n line)
    prompt act session (n + 1)

/-! ## 3. The run -/

/-- Run the program, with the words of the TOML library for settings that are refused. -/
def run (report : TomlReport) (arguments : List String) : IO UInt32 := do
  let start ← IO.monoNanosNow
  let env : CommandLine.Environment :=
    ⟨← IO.getEnv "CPC_VERBOSE", ← IO.getEnv "CPC_CONFIG", ← IO.getEnv "CPC_NO_COLOR",
     ← IO.getEnv "RUST_LOG"⟩
  let places : SettingsPlaces := ⟨← IO.getEnv "HOME", ← IO.getEnv "XDG_CONFIG_HOME"⟩
  let files ← lookAt (Program.paths arguments env places)
  let invocation : Invocation := ⟨arguments, env, places, files, ⟨[], false⟩⟩
  match Program.prepare invocation with
  | .error course => follow report start course
  | .ok setup =>
    if setup.options.file.isSome then follow report start (Program.run invocation)
    else
      let course := setup.course env ⟨[.log .sessionStarted], .ok ()⟩
      let act := fun actions : List Action => actions.forM (perform start course)
      act course.actions
      prompt act setup.session 1
      return 0

end CpScan.Command

/-- The command `cpc`. -/
def main (arguments : List String) : IO UInt32 := CpScan.Command.run .omitted arguments
