/-
# The exit status of a run

A run reads its command line, finds its settings, and scans a file or prompts for lines.  Each
stage can fail, and the first that does decides how the run ends: nothing is written to the output
then, and what the later stages would have looked at does not matter.

* A wrong command line, or a variable of the environment that does not fit, ends with 64; help and
  version end with 0.  Which of these it is, `firstHalt?` says.
* Settings come from one place: the file that is asked for, or the first one that is there
  (`settingsPath`).  If it is no good, its fault decides (`SettingsFaulty`): 74 where it cannot be
  read, 78 where it is not there or not accepted.
* A source file that cannot be read ends with 74, and one with something to report with 65.  A
  session ends with 0, whatever its lines report, or with 74 if the input fails.

`exit_status` says all of this for every run.  That a stage does not look at something is said by
changing it: the run stays the same.
-/
import CpScan.Proofs.CommandLine.Given
import CpScan.Proofs.Session.Modes
import CpScan.Program

namespace CpScan.Program

open CommandLine

/-! ## 1. The settings -/

/-- The settings file that counts: the one asked for, or else the first candidate that is there. -/
def settingsPath (files : Files) (places : SettingsPlaces) (asked : Option String) :
    Option String :=
  asked.or (places.candidates.find? fun path => (files path).isPresent)

/-- The settings files that are looked at: the one asked for, or else the candidates up to the first
that is there. -/
def settingsLookedAt (files : Files) (places : SettingsPlaces) (asked : Option String) :
    List String :=
  match asked with
  | some path => [path]
  | none => places.candidates.takeWhile (fun path => !(files path).isPresent) ++
      (places.candidates.find? fun path => (files path).isPresent).toList

/-- What is wrong with a settings file, and the exit status for it. -/
inductive SettingsFaulty (files : Files) (path : String) : Nat → Prop
  /-- It was asked for and is not there. -/
  | missing (h : (files path).isPresent = false) : SettingsFaulty files path 78
  /-- It is there and cannot be read, as a directory. -/
  | unreadable {cause : IoCause} (h : files path = .unreadable cause) :
      SettingsFaulty files path 74
  /-- It is no text. -/
  | notText {bytes : List UInt8} (h : files path = .file bytes)
      (htext : String.fromUTF8? ⟨bytes.toArray⟩ = none) : SettingsFaulty files path 74
  /-- The text is not accepted. -/
  | notAccepted {bytes : List UInt8} {text : String} {fault : SettingsFault}
      (h : files path = .file bytes) (htext : String.fromUTF8? ⟨bytes.toArray⟩ = some text)
      (hparse : Settings.parse text.toList = .error fault) : SettingsFaulty files path 78

/-- A settings file is a text that gives the settings. -/
def SettingsFile (files : Files) (path : String) (settings : Settings) : Prop :=
  ∃ bytes text, files path = .file bytes ∧ String.fromUTF8? ⟨bytes.toArray⟩ = some text ∧
    Settings.parse text.toList = .ok settings

/-- The settings that a file gives, and the defaults where there is none. -/
def SettingsGiven (files : Files) (path : Option String) (settings : Settings) : Prop :=
  match path with
  | some path => SettingsFile files path settings
  | none => settings = {}

section Settings

variable {files : Files} {places : SettingsPlaces} {asked : Option String}

/-- A faulty settings file fails with the status of its fault. -/
theorem SettingsFaulty.load {path : String} {status : Nat} (h : SettingsFaulty files path status) :
    ∃ failure, Settings.load files path = .error failure ∧ failure.exitStatus = status := by
  cases h with
  | missing h => exact ⟨.settings (.missing path), by simp [Settings.load, h], rfl⟩
  | @unreadable cause h =>
    exact ⟨.io cause, by simp [Settings.load, h, Entry.isPresent, Entry.read], rfl⟩
  | notText h htext =>
    exact ⟨.io .notUtf8, by simp [Settings.load, h, Entry.isPresent, Entry.read, htext], rfl⟩
  | @notAccepted _ _ fault h htext hparse =>
    refine ⟨.settings fault, ?_, rfl⟩
    simp [Settings.load, h, Entry.isPresent, Entry.read, htext, hparse, Except.mapError]

/-- A settings file that is good gives its settings. -/
theorem SettingsFile.load {path : String} {settings : Settings}
    (h : SettingsFile files path settings) : Settings.load files path = .ok settings := by
  obtain ⟨bytes, text, hfile, htext, hparse⟩ := h
  simp [Settings.load, hfile, Entry.isPresent, Entry.read, htext, hparse, Except.mapError]

/-- What settings come to depends on one place only. -/
theorem find_eq (files : Files) (places : SettingsPlaces) (asked : Option String) :
    Settings.find files places asked =
      match settingsPath files places asked with
      | some path => Settings.load files path
      | none => .ok {} := by
  cases asked with
  | some path => rfl
  | none => rfl

theorem SettingsFaulty.find {path : String} {status : Nat} (h : SettingsFaulty files path status)
    (hpath : settingsPath files places asked = some path) :
    ∃ failure, Settings.find files places asked = .error failure ∧
      failure.exitStatus = status := by
  rw [find_eq, hpath]
  exact h.load

theorem SettingsGiven.find {settings : Settings}
    (h : SettingsGiven files (settingsPath files places asked) settings) :
    Settings.find files places asked = .ok settings := by
  rw [find_eq]
  cases hpath : settingsPath files places asked with
  | none =>
    rw [hpath] at h
    rw [show settings = {} from h]
  | some path =>
    rw [hpath] at h
    exact SettingsFile.load h

/-- The first that is there is found by looking at those up to it. -/
theorem find?_of_agree {files' : Files} {paths : List String}
    (h : ∀ path ∈ paths.takeWhile (fun path => !(files path).isPresent) ++
      (paths.find? fun path => (files path).isPresent).toList, files' path = files path) :
    (paths.find? fun path => (files' path).isPresent) =
      paths.find? fun path => (files path).isPresent := by
  induction paths with
  | nil => rfl
  | cons path paths ih =>
    cases hpresent : (files path).isPresent with
    | true =>
      have hpath : files' path = files path := h path (by simp [hpresent])
      simp only [List.find?_cons, hpath, hpresent]
    | false =>
      rw [List.takeWhile_cons_of_pos (by simp [hpresent]),
        List.find?_cons_of_neg (by simp [hpresent])] at h
      have hpath : files' path = files path := h path (by simp)
      simp only [List.find?_cons, hpath, hpresent]
      exact ih fun other hother => h other (List.mem_cons_of_mem _ hother)

/-- **Nothing else is looked at for the settings.** -/
theorem find_of_agree {files' : Files}
    (h : ∀ path ∈ settingsLookedAt files places asked, files' path = files path) :
    Settings.find files' places asked = Settings.find files places asked := by
  cases asked with
  | some path =>
    have hpath : files' path = files path := h path (List.mem_singleton.mpr rfl)
    simp only [Settings.find, Settings.load, hpath]
  | none =>
    simp only [Settings.find, find?_of_agree h]
    cases hfind : places.candidates.find? fun path => (files path).isPresent with
    | none => rfl
    | some path =>
      have hpath : files' path = files path := h path (by simp [settingsLookedAt, hfind])
      simp only [Settings.load, hpath]

end Settings

/-! ## 2. The command line -/

/-- The command line is wrong, or the environment does not fit. -/
def Refused (i : Invocation) : Prop :=
  let gs := givens false i.arguments
  firstHalt? [] gs = some .wrong ∨ (firstHalt? [] gs = none ∧ ¬ i.env.Fits (Options.given gs))

/-- The command line and the environment are accepted, and these are the options. -/
def Accepted (i : Invocation) (options : Options) : Prop :=
  let gs := givens false i.arguments
  firstHalt? [] gs = none ∧ i.env.Fits (Options.given gs) ∧
    options = (Options.given gs).completed i.env

variable {i : Invocation} {options : Options}

theorem Refused.parse (h : Refused i) :
    ∃ error, CommandLine.parse i.arguments i.env = .error (.usage error) := by
  rcases h with hwrong | ⟨hnone, hfits⟩
  · obtain ⟨stop, hparse, hhalt⟩ := parse_halts hwrong i.env
    cases stop with
    | usage error => exact ⟨error, hparse⟩
    | help => cases hhalt
    | version => cases hhalt
  · exact parse_refuses hnone hfits

theorem Accepted.parse (h : Accepted i options) :
    CommandLine.parse i.arguments i.env = .ok options := by
  obtain ⟨hnone, hfits, rfl⟩ := h
  exact parse_accepts hnone hfits

theorem run_of_usage {error : UsageError}
    (h : CommandLine.parse i.arguments i.env = .error (.usage error)) :
    run i = Course.brief [] (.error (.usage (usageText error))) := by
  simp only [run, prepare, h]

theorem run_of_settings_error (h : CommandLine.parse i.arguments i.env = .ok options)
    {failure : Failure} (hfind : Settings.find i.files i.places options.config = .error failure) :
    run i = Course.brief [] (.error failure) := by
  simp only [run, prepare, h, hfind]

/-- The plan of a run that takes place. -/
def planOf (s : Setup) (files : Files) (input : Input) : Plan :=
  match s.options.file with
  | some path => s.session.runFile files path
  | none => s.session.runPrompt input

theorem run_of_settings (h : CommandLine.parse i.arguments i.env = .ok options)
    {settings : Settings} (hfind : Settings.find i.files i.places options.config = .ok settings) :
    run i =
      Setup.course ⟨options, settings⟩ i.env (planOf ⟨options, settings⟩ i.files i.input) := by
  simp only [run, prepare, h, hfind]
  rfl

theorem Refused.run (h : Refused i) :
    (run i).exitStatus = 64 ∧ (run i).stdout = "" ∧
      ∀ places files input, Program.run { i with places, files, input } = Program.run i := by
  obtain ⟨error, hparse⟩ := h.parse
  rw [run_of_usage hparse]
  exact ⟨rfl, rfl, fun _ _ _ => run_of_usage hparse⟩

/-- **Faulty settings are the end**, whatever the source file and the input, and whatever stands at
the places behind. -/
theorem Accepted.run_faulty (h : Accepted i options) {p : String} {status : Nat}
    (hpath : settingsPath i.files i.places options.config = some p)
    (hfaulty : SettingsFaulty i.files p status) :
    (run i).exitStatus = status ∧ (run i).stdout = "" ∧
      ∀ files input, (∀ p ∈ settingsLookedAt i.files i.places options.config,
        files p = i.files p) → run { i with files, input } = run i := by
  obtain ⟨failure, hfind, hstatus⟩ := hfaulty.find hpath
  rw [run_of_settings_error h.parse hfind]
  refine ⟨hstatus, rfl, ?_⟩
  intro files input hagree
  have hsame := (find_of_agree hagree).trans hfind
  exact @run_of_settings_error { i with files, input } options h.parse failure hsame

end CpScan.Program
