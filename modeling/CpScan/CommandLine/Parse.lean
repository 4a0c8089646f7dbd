/-
# Reading a command line

Arguments are taken from left to right.  An argument that opens with two hyphens is a long
option, with its value behind an equals sign or in the next argument; one that opens with a
single hyphen is a cluster of short options, the last of which may have its value right behind
it, with or without an equals sign.  `--` by itself makes every argument behind it a file, and `-`
by itself is a file too.

A value given in an argument of its own, and a file, are only looked at once the next option or
file comes up, or at the end (`State.settle`): an argument that cannot be understood is named
first.  The values of the environment count for options that were not given, and are looked at
last.
-/
import CpScan.CommandLine.Options

namespace CpScan.CommandLine

/-! ## 1. What has been read -/

/-- Something that was given and not looked at yet. -/
inductive Pending where
  /-- An option whose value is still to come. -/
  | configValue
  /-- The value of an option. -/
  | config (value : String)
  | file (value : String)
deriving DecidableEq, Repr

/-- What the arguments so far say. -/
structure State where
  file : Option String := none
  verbose : Bool := false
  config : Option String := none
  noColor : Bool := false
  pending : Option Pending := none
deriving DecidableEq, Repr, Inhabited

namespace State

/-- Whether a file has been given. -/
def hasFile (s : State) : Bool :=
  s.file.isSome || match s.pending with
    | some (.file _) => true
    | _ => false

/-- Take a settings file over. -/
def setConfig (s : State) (value : String) : Except Stop State :=
  if s.config.isSome then .error (.usage (.repeated .config))
  else if value.isEmpty then .error (.usage (.valueRequired .config))
  else .ok { s with config := some value }

/-- Look at what is pending. -/
def settle (s : State) : Except Stop State :=
  let rest := { s with pending := none }
  match s.pending with
  | none => .ok rest
  | some .configValue => .error (.usage (.valueRequired .config))
  | some (.config value) => rest.setConfig value
  | some (.file value) =>
    if value.isEmpty then .error (.usage (.valueRequired .file))
    else .ok { rest with file := some value }

/-- Take over an option without a value. -/
def giveFlag (s : State) (item : Item) : Except Stop State := do
  let s ← s.settle
  match item with
  | .verbose =>
    if s.verbose then .error (.usage (.repeated .verbose)) else .ok { s with verbose := true }
  | .noColor =>
    if s.noColor then .error (.usage (.repeated .noColor)) else .ok { s with noColor := true }
  | .help => .error .help
  | .version => .error .version
  | .config => .ok { s with pending := some .configValue }
  | .file => .ok s

/-- Take over the settings file, given in the same argument as its option. -/
def giveConfig (s : State) (value : String) : Except Stop State := do
  let s ← s.settle
  s.setConfig value

/-- Take over a file. -/
def giveFile (s : State) (value : String) : Except Stop State :=
  if s.hasFile then .error (.usage (.unexpectedArgument value))
  else do
    let s ← s.settle
    .ok { s with pending := some (.file value) }

end State

/-! ## 2. One argument -/

/-- A long option, by the text behind the two hyphens. -/
def readLong (s : State) (text : List Char) : Except Stop State :=
  let name := String.ofList (text.takeWhile (· != '='))
  let value := match text.dropWhile (· != '=') with
    | _ :: value => some (String.ofList value)
    | [] => none
  match Item.ofLong? name, value with
  | none, _ => .error (.usage (.unexpectedArgument ("--" ++ name)))
  | some .config, some value => s.giveConfig value
  | some item, some value => .error (.usage (.unexpectedValue value item))
  | some item, none => s.giveFlag item

/-- A cluster of short options, by the text behind the hyphen. -/
def readShort (s : State) : List Char → Except Stop State
  | [] => .ok s
  | c :: rest =>
    match Item.ofShort? c with
    | none => .error (.usage (.unexpectedArgument (String.ofList ['-', c])))
    | some .config =>
      match rest with
      | [] => s.giveFlag .config
      | '=' :: value => s.giveConfig (String.ofList value)
      | value => s.giveConfig (String.ofList value)
    | some item =>
      match s.giveFlag item with
      | .ok s => readShort s rest
      | .error stop => .error stop

/-- The value of an option if one is to come, and otherwise a file. -/
def readPlain (s : State) (argument : String) : Except Stop State :=
  if s.pending = some .configValue then .ok { s with pending := some (.config argument) }
  else s.giveFile argument

/-! ## 3. All arguments -/

/-- Arguments that are all files. -/
def readFiles (s : State) : List String → Except Stop State
  | [] => .ok s
  | argument :: more =>
    match s.giveFile argument with
    | .ok s => readFiles s more
    | .error stop => .error stop

/-- Arguments, from left to right. -/
def readArguments (s : State) : List String → Except Stop State
  | [] => .ok s
  | argument :: more =>
    if argument = "--" then readFiles s more
    else
      let next := match argument.toList with
        | '-' :: '-' :: text => readLong s text
        | '-' :: c :: text => readShort s (c :: text)
        | _ => readPlain s argument
      match next with
      | .ok s => readArguments s more
      | .error stop => .error stop

/-! ## 4. The environment -/

/-- Whether a flag is set that was not given: by its variable, if there is one. -/
def flagOf (item : Item) : Option String → Except Stop Bool
  | none => .ok false
  | some "true" => .ok true
  | some "false" => .ok false
  | some "" => .error (.usage (.valueRequired item))
  | some value => .error (.usage (.invalidValue value item))

/-- The settings file that was not given: by its variable, if there is one. -/
def configOf : Option String → Except Stop (Option String)
  | none => .ok none
  | some "" => .error (.usage (.valueRequired .config))
  | some value => .ok (some value)

/-- Read a command line: the arguments, and the environment for what they do not say. -/
def parse (arguments : List String) (env : Environment) : Except Stop Options := do
  let s ← readArguments {} arguments
  let s ← s.settle
  let verbose ← if s.verbose then .ok true else flagOf .verbose env.verbose
  let config ← if s.config.isSome then .ok s.config else configOf env.config
  let noColor ← if s.noColor then .ok true else flagOf .noColor env.noColor
  return ⟨s.file, verbose, config, noColor⟩

end CpScan.CommandLine
