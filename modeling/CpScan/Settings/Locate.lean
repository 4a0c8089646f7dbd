/-
# Finding the settings file

Settings come from the file that is asked for, which then has to exist, or from the first of
three places where there is anything: the current directory, the settings directory of the user,
and the settings directory of the system.  If there is nothing in any, the defaults are used.
Whatever is found is used: if it cannot be read, no other place is tried.
-/
import CpScan.Files
import CpScan.Settings.Decode

namespace CpScan

/-- The name of a settings file. -/
def settingsFileName : String := "cpc.toml"

/-- The directories that settings are looked for in, beside the current one. -/
structure SettingsPlaces where
  /-- The home directory of the user. -/
  home : Option String := none
  /-- The directory for settings files, if it is chosen; a relative one does not count. -/
  configHome : Option String := none
deriving Repr

namespace SettingsPlaces

/-- The directory for settings files. -/
def configDirectory (p : SettingsPlaces) : Option String :=
  match p.configHome with
  | some directory =>
    if directory.startsWith "/" then some directory else p.home.map (joinPath · ".config")
  | none => p.home.map (joinPath · ".config")

/-- The paths of the settings files that may be used, in order. -/
def candidates (p : SettingsPlaces) : List String :=
  let inDirectory (directory : String) : String :=
    joinPath (joinPath directory "cpc") settingsFileName
  settingsFileName ::
    ((p.home.map fun home => inDirectory (joinPath home ".config")).toList ++
      (p.configDirectory.map inDirectory).toList)

end SettingsPlaces

namespace Settings

/-- Read a settings file that has to exist. -/
def load (files : Files) (path : String) : Except Failure Settings :=
  let entry := files path
  if !entry.isPresent then .error (.settings (.missing path))
  else
    match entry.read with
    | .error cause => .error (.io cause)
    | .ok bytes =>
      match String.fromUTF8? ⟨bytes.toArray⟩ with
      | none => .error (.io .notUtf8)
      | some text => (parse text.toList).mapError .settings

/-- Read the settings file asked for, or the first that is found, or take the defaults. -/
def find (files : Files) (places : SettingsPlaces) (path : Option String) :
    Except Failure Settings :=
  match path with
  | some path => load files path
  | none =>
    match places.candidates.find? (fun path => (files path).isPresent) with
    | some path => load files path
    | none => .ok {}

end Settings

end CpScan
