/-
# Settings from a TOML document

A settings file may hold a boolean `verbose`, a section `repl` with a text `prompt`, and a section
`output` with a boolean `show_spans`.  Each is optional by itself, and nothing else is accepted at
either level.  A section is a table, or an array whose first item, if there is one, is the value
of the section's only setting.
-/
import CpScan.Failure
import CpScan.Settings.Basic
import CpScan.Toml.Document

namespace CpScan

/-! ## 1. Values of the right type -/

/-- A boolean. -/
def Toml.Value.boolean? : Toml.Value → Option Bool
  | .boolean b => some b
  | _ => none

/-- A text. -/
def Toml.Value.text? : Toml.Value → Option String
  | .string s => some s
  | _ => none

/-! ## 2. The schema -/

namespace Settings

/-- Whether all keys of a table are among the ones given. -/
def onlyKeys (keys : List String) (es : Toml.Entries) : Bool := es.all fun e => keys.contains e.1

/-- The setting named `key`, or its default if the table does not have it. -/
def setting {α : Type} (read : Toml.Value → Option α) (default : α) (key : String)
    (es : Toml.Entries) : Option α :=
  match es.get? key with
  | none => some default
  | some value => read value

/-- The only setting `key` of a section, or its default if the section does not give it. -/
def fromSection {α : Type} (read : Toml.Value → Option α) (default : α) (key : String) :
    Toml.Value → Option α
  | .table _ es => if onlyKeys [key] es then setting read default key es else none
  | .array _ [] => some default
  | .array _ (first :: _) => read first
  | _ => none

/-- The settings that a document gives, or nothing if it holds anything else. -/
def ofToml? (es : Toml.Entries) : Option Settings :=
  if onlyKeys ["verbose", "repl", "output"] es then do
    let verbose ← setting Toml.Value.boolean? false "verbose" es
    let prompt ←
      setting (fromSection Toml.Value.text? defaultPrompt "prompt") defaultPrompt "repl" es
    let showSpans ← setting (fromSection Toml.Value.boolean? false "show_spans") false "output" es
    return ⟨verbose, prompt, showSpans⟩
  else none

/-- Read settings from the text of a settings file. -/
def parse (text : List Char) : Except SettingsFault Settings :=
  match Toml.parse text with
  | none => .error (.notToml text)
  | some es =>
    match ofToml? es with
    | none => .error (.notSettings text)
    | some settings => .ok settings

end Settings

end CpScan
