/-
# Logging does not interfere

How much is logged can be chosen in many places: by `--verbose` and its variable, in the settings,
and by the filter of the log; and `--no-color` and its variable say how it looks.  None of this
changes what a run does, apart from the log lines (`logging_does_not_interfere`).

Log lines go to the error stream, between the diagnostics.  So the stream is taken apart first,
into log lines and everything else (`ErrorPart`, `Course.stderr_eq`), and what is compared is what
remains without the log lines.

The two runs are compared stage by stage.  The command lines give the same but for the flags, so
there is one source file and one settings file.  The settings are the same but for one field, which
no plan looks at, so there is one plan.  What differs is the first event, the filter and the style.

Settings that are refused end a run with the words of the TOML library, which quote the text.  Two
texts that are refused count as the same only if these words are (`Failure.SameReason`), and the
result holds for every `TomlReport`.
-/
import CpScan.Proofs.Program.ExitStatus

namespace CpScan

/-! ## 1. The error stream in parts -/

/-- A part of the error stream. -/
inductive ErrorPart where
  /-- A log line. -/
  | log (line : String)
  /-- A diagnostic, or the last words of a run. -/
  | other (text : String)
deriving DecidableEq, Repr

namespace ErrorPart

def text : ErrorPart → String
  | log line => line
  | other text => text

def isLog : ErrorPart → Bool
  | log _ => true
  | other _ => false

@[simp] theorem text_log (line : String) : (log line).text = line := rfl

@[simp] theorem text_other (text : String) : (other text).text = text := rfl

@[simp] theorem isLog_log (line : String) : (log line).isLog = true := rfl

@[simp] theorem isLog_other (text : String) : (other text).isLog = false := rfl

end ErrorPart

namespace Course

/-- What an action writes to the error stream. -/
def errorPart? (c : Course) (time : String) : Action → Option ErrorPart
  | .err text => some (.other text)
  | .log event => if c.filter.shows event then some (.log (c.style.line time event)) else none
  | _ => none

/-- The error stream, in parts. -/
def errorParts (c : Course) (time : String) (report : TomlReport) : List ErrorPart :=
  c.actions.filterMap (c.errorPart? time) ++ [.other (lastWords report c.ending)]

/-- The error stream without the log lines. -/
def stderrWithoutLog (c : Course) (time : String) (report : TomlReport) : String :=
  String.join (((c.errorParts time report).filter fun part => !part.isLog).map ErrorPart.text)

/-- **The error stream is its parts, one after the other.** -/
theorem stderr_eq (c : Course) (time : String) (report : TomlReport) :
    c.stderr time report = String.join ((c.errorParts time report).map ErrorPart.text) := by
  have hfold (actions : List Action) (start : String) :
      actions.foldl (fun text action =>
        match action with
        | .err more => text ++ more
        | .log event => if c.filter.shows event then text ++ c.style.line time event else text
        | _ => text) start =
      start ++ String.join ((actions.filterMap (c.errorPart? time)).map ErrorPart.text) := by
    induction actions generalizing start with
    | nil => simp
    | cons action actions ih =>
      rw [List.foldl_cons, ih, List.filterMap_cons]
      cases action with
      | out text => rfl
      | flush => rfl
      | err text => simp [errorPart?, String.append_assoc]
      | log event =>
        by_cases hshows : c.filter.shows event = true
        · simp [errorPart?, hshows, String.append_assoc]
        · simp [errorPart?, hshows]
  have hactions := hfold c.actions ""
  rw [String.empty_append] at hactions
  refine (congrArg (· ++ lastWords report c.ending) hactions).trans ?_
  rw [errorParts, List.map_append, String.join_append]
  simp

/-- What an action writes to the error stream, apart from log lines. -/
def otherText? : Action → Option String
  | .err text => some text
  | _ => none

/-- **Without log lines, neither the time nor the filter nor the style is seen.** -/
theorem stderrWithoutLog_eq (c : Course) (time : String) (report : TomlReport) :
    c.stderrWithoutLog time report =
      String.join (c.actions.filterMap otherText?) ++ lastWords report c.ending := by
  have hparts (actions : List Action) :
      ((actions.filterMap (c.errorPart? time)).filter fun part => !part.isLog).map ErrorPart.text =
        actions.filterMap otherText? := by
    induction actions with
    | nil => rfl
    | cons action actions ih =>
      rw [List.filterMap_cons, List.filterMap_cons]
      cases action with
      | out text => exact ih
      | flush => exact ih
      | err text => simp [errorPart?, otherText?, ih]
      | log event =>
        by_cases hshows : c.filter.shows event = true
        · simp [errorPart?, otherText?, hshows, ih]
        · simp [errorPart?, otherText?, hshows, ih]
  rw [stderrWithoutLog, errorParts, List.filter_append, List.map_append, hparts,
    String.join_append]
  simp

theorem lastWords_settings (report : TomlReport) (fault : SettingsFault) :
    lastWords report (.error (.settings fault)) =
      "error: " ++ ("Configuration error: " ++ fault.message report) ++ "\n" := rfl

end Course

/-! ## 2. What settings and failures have in common -/

/-- Settings apart from how much is logged. -/
def Settings.apartFromLog (s : Settings) : Settings := { s with verbose := false }

/-- **No plan looks at how much is logged.** -/
theorem Program.planOf_apartFromLog {o o' : CommandLine.Options} (ho : o.file = o'.file)
    {s s' : Settings} (hs : s.apartFromLog = s'.apartFromLog) {files files' : Files}
    (hfiles : ∀ path, o.file = some path → files path = files' path) (input : Input) :
    planOf ⟨o, s⟩ files input = planOf ⟨o', s'⟩ files' input := by
  obtain ⟨verbose, prompt, showSpans⟩ := s
  obtain ⟨verbose', prompt', showSpans'⟩ := s'
  simp only [Settings.apartFromLog, Settings.mk.injEq, true_and] at hs
  obtain ⟨rfl, rfl⟩ := hs
  simp only [planOf, ← ho]
  cases hfile : o.file with
  | none => rfl
  | some path =>
    simp only [Session.runFile, hfiles path hfile]
    rfl

/-- The text that was refused, if this is the fault. -/
def SettingsFault.refusedText? : SettingsFault → Option (List Char)
  | notToml text | notSettings text => some text
  | missing _ | other _ => none

theorem SettingsFault.message_of_refusedText {fault : SettingsFault} {text : List Char}
    (h : fault.refusedText? = some text) (report : TomlReport) :
    fault.message report = "Failed to parse configuration: " ++ report text := by
  cases fault with
  | missing path => cases h
  | notToml refused =>
    cases h
    rfl
  | notSettings refused =>
    cases h
    rfl
  | other words => cases h

/-- **The last words for two texts that are refused are the same exactly if the TOML library says
the same of them**, whatever else the texts have in common. -/
theorem Course.lastWords_eq_iff {fault fault' : SettingsFault} {text text' : List Char}
    (h : fault.refusedText? = some text) (h' : fault'.refusedText? = some text')
    (report : TomlReport) :
    lastWords report (.error (.settings fault)) = lastWords report (.error (.settings fault')) ↔
      report text = report text' := by
  rw [lastWords_settings, lastWords_settings, fault.message_of_refusedText h,
    fault'.message_of_refusedText h', String.append_left_inj, String.append_right_inj,
    String.append_right_inj, String.append_right_inj]

/-- Failures for one reason: the same failure, or texts refused as settings of which the TOML
library says the same. -/
inductive Failure.SameReason (report : TomlReport) : Failure → Failure → Prop
  | same (failure : Failure) : SameReason report failure failure
  | refused {fault fault' : SettingsFault} {text text' : List Char}
    (h : fault.refusedText? = some text) (h' : fault'.refusedText? = some text')
    (hreport : report text = report text') :
    SameReason report (.settings fault) (.settings fault')

namespace Failure.SameReason

variable {report : TomlReport} {failure failure' : Failure}

theorem exitStatus_eq (h : SameReason report failure failure') :
    failure.exitStatus = failure'.exitStatus := by
  cases h with
  | same => rfl
  | refused => rfl

theorem lastWords_eq (h : SameReason report failure failure') :
    Course.lastWords report (.error failure) = Course.lastWords report (.error failure') := by
  cases h with
  | same => rfl
  | refused h h' hreport =>
    exact (Course.lastWords_eq_iff h h' report).mpr hreport

end Failure.SameReason

/-- The same settings apart from how much is logged, or none for the same reason. -/
inductive SettingsAgree (report : TomlReport) :
    Except Failure Settings → Except Failure Settings → Prop
  | found {s s' : Settings} (h : s.apartFromLog = s'.apartFromLog) :
    SettingsAgree report (.ok s) (.ok s')
  | refused {failure failure' : Failure} (h : failure.SameReason report failure') :
    SettingsAgree report (.error failure) (.error failure')

namespace CommandLine

/-- The flags that only say how much is logged, and how it looks. -/
def Given.isLogging : Given → Bool
  | verbose | noColor => true
  | _ => false

theorem findSome?_filter_notLogging {β : Type} {f : Given → Option β}
    (hf : ∀ g, g.isLogging = true → f g = none) (gs : List Given) :
    (gs.filter fun g => !g.isLogging).findSome? f = gs.findSome? f := by
  induction gs with
  | nil => rfl
  | cons g gs ih =>
    cases hlogging : g.isLogging with
    | true =>
      rw [List.filter_cons_of_neg (by simp [hlogging]), ih, List.findSome?_cons, hf g hlogging]
    | false =>
      rw [List.filter_cons_of_pos (by simp [hlogging]), List.findSome?_cons, List.findSome?_cons,
        ih]

/-- **The flags of the log are no files.** -/
theorem Options.given_of_filter {gs gs' : List Given}
    (h : gs.filter (fun g => !g.isLogging) = gs'.filter fun g => !g.isLogging) :
    (Options.given gs).file = (Options.given gs').file ∧
      (Options.given gs).config = (Options.given gs').config := by
  have hfile : ∀ g, Given.isLogging g = true → g.file? = none := by
    intro g hg
    cases g <;> first | rfl | cases hg
  have hconfig : ∀ g, Given.isLogging g = true → g.config? = none := by
    intro g hg
    cases g <;> first | rfl | cases hg
  constructor
  · change gs.findSome? Given.file? = gs'.findSome? Given.file?
    rw [← findSome?_filter_notLogging hfile, h, findSome?_filter_notLogging hfile]
  · change gs.findSome? Given.config? = gs'.findSome? Given.config?
    rw [← findSome?_filter_notLogging hconfig, h, findSome?_filter_notLogging hconfig]

end CommandLine

/-! ## 3. Two runs -/

namespace Program

open CommandLine

/-- Two runs that are the same apart from logging. -/
structure SameApartFromLog (report : TomlReport) (i j : Invocation) (oi oj : Options) :
    Prop where
  accepted : Accepted i oi
  accepted' : Accepted j oj
  /-- The arguments give the same, in the same order, apart from `--verbose` and `--no-color`. -/
  given : (givens false i.arguments).filter (fun g => !g.isLogging) =
    (givens false j.arguments).filter fun g => !g.isLogging
  /-- The variable for the settings file is the same; the other variables need not be. -/
  configVariable : i.env.config = j.env.config
  /-- The same settings are found, apart from how much is logged, or none for the same reason. -/
  settings : SettingsAgree report (Settings.find i.files i.places oi.config)
    (Settings.find j.files j.places oj.config)
  /-- The source file is the same. -/
  source : ∀ path, oi.file = some path → i.files path = j.files path
  input : i.input = j.input

theorem SameApartFromLog.options {report : TomlReport} {i j : Invocation} {oi oj : Options}
    (h : SameApartFromLog report i j oi oj) :
    oi.file = oj.file ∧ oi.config = oj.config := by
  obtain ⟨-, -, rfl⟩ := h.accepted
  obtain ⟨-, -, rfl⟩ := h.accepted'
  obtain ⟨hfile, hconfig⟩ := Options.given_of_filter h.given
  refine ⟨hfile, ?_⟩
  simp only [Options.completed, hconfig, h.configVariable]

/-- **Logging does not interfere.**  Two runs that are the same apart from logging have the same
exit status and write the same to the output; to the error stream they write the same apart from
log lines, whenever these are written and whatever the TOML library says of settings. -/
theorem logging_does_not_interfere (report : TomlReport) (i j : Invocation) (oi oj : Options)
    (h : SameApartFromLog report i j oi oj) :
    (run i).exitStatus = (run j).exitStatus ∧ (run i).stdout = (run j).stdout ∧
      ∀ time time',
        (run i).stderrWithoutLog time report = (run j).stderrWithoutLog time' report := by
  have hsettings := h.settings
  generalize hi : Settings.find i.files i.places oi.config = found at hsettings
  generalize hj : Settings.find j.files j.places oj.config = found' at hsettings
  cases hsettings with
  | refused hreason =>
    rw [run_of_settings_error h.accepted.parse hi, run_of_settings_error h.accepted'.parse hj]
    refine ⟨hreason.exitStatus_eq, rfl, ?_⟩
    intro time time'
    rw [Course.stderrWithoutLog_eq, Course.stderrWithoutLog_eq]
    exact congrArg _ hreason.lastWords_eq
  | @found settings settings' hagree =>
    have hplan :
        planOf ⟨oi, settings⟩ i.files i.input = planOf ⟨oj, settings'⟩ j.files j.input := by
      rw [h.input]
      exact planOf_apartFromLog h.options.1 hagree h.source j.input
    rw [run_of_settings h.accepted.parse hi, run_of_settings h.accepted'.parse hj, hplan]
    refine ⟨rfl, rfl, ?_⟩
    intro time time'
    rw [Course.stderrWithoutLog_eq, Course.stderrWithoutLog_eq]
    rfl

/-- A run that logs a lot because its command line says so, and one that logs less because its
settings say so, and without colors; then the same two with a settings file each, in which the
second line is refused. -/
theorem logging_does_not_interfere_flag_and_settings :
    let report : TomlReport := fun _ =>
      "TOML parse error at line 2, column 1\n  |\n2 | color = true\n  | ^^^^^\n" ++
        "unknown field `color`, expected one of `verbose`, `repl`, `output`\n"
    let plain : Files := fun path => if path = "a.cp" then .file [0x40] else .absent .notFound
    let settings (text : String) : Files := fun path =>
      if path = "cpc.toml" then .file text.toUTF8.toList else plain path
    let i : Invocation := ⟨["-v", "a.cp"], { logLevel := some "trace" }, {}, plain, ⟨[], false⟩⟩
    let j : Invocation :=
      ⟨["a.cp"], { noColor := some "true" }, {}, settings "verbose = true", ⟨[], false⟩⟩
    let i' : Invocation := { i with files := settings "verbose = true\ncolor = true" }
    let j' : Invocation := { j with files := settings "verbose = false\ncolor = true" }
    (((run i).exitStatus = 65 ∧ (run j).exitStatus = 65) ∧ (run i).style ≠ (run j).style ∧
        (run i).stdout = (run j).stdout ∧
        (run i).stderrWithoutLog "" report = (run j).stderrWithoutLog "" report) ∧
      ((run i').exitStatus = 78 ∧ (run j').exitStatus = 78) ∧
        (run i').stderrWithoutLog "" report = (run j').stderrWithoutLog "" report := by
  intro report plain settings i j i' j'
  have hfits : i.env.Fits (Options.given (givens false i.arguments)) :=
    ⟨by rintro - _ ⟨⟩, by rintro - ⟨⟩, by rintro - _ ⟨⟩⟩
  have hfits' : j.env.Fits (Options.given (givens false j.arguments)) :=
    ⟨by rintro - _ ⟨⟩, by rintro - ⟨⟩, by rintro - _ ⟨⟩; exact .inl rfl⟩
  have hsame : SameApartFromLog report i j ⟨some "a.cp", true, none, false⟩
      ⟨some "a.cp", false, none, true⟩ :=
    { accepted := ⟨by decide +kernel, hfits, by decide +kernel⟩
      accepted' := ⟨by decide +kernel, hfits', by decide +kernel⟩
      given := by decide +kernel
      configVariable := rfl
      settings := by
        have hi : Settings.find i.files i.places none = .ok {} := by decide +kernel
        have hj : Settings.find j.files j.places none = .ok { verbose := true } := by
          decide +kernel
        rw [hi, hj]
        exact .found rfl
      source := by rintro _ ⟨⟩; decide +kernel
      input := rfl }
  have hsame' : SameApartFromLog report i' j' ⟨some "a.cp", true, none, false⟩
      ⟨some "a.cp", false, none, true⟩ :=
    { accepted := hsame.accepted
      accepted' := hsame.accepted'
      given := hsame.given
      configVariable := rfl
      settings := by
        have hi : Settings.find i'.files i'.places none =
            .error (.settings (.notSettings "verbose = true\ncolor = true".toList)) := by
          decide +kernel
        have hj : Settings.find j'.files j'.places none =
            .error (.settings (.notSettings "verbose = false\ncolor = true".toList)) := by
          decide +kernel
        rw [hi, hj]
        exact .refused (.refused rfl rfl rfl)
      source := by rintro _ ⟨⟩; decide +kernel
      input := rfl }
  obtain ⟨hstatus, hout, herr⟩ := logging_does_not_interfere report i j _ _ hsame
  obtain ⟨hstatus', -, herr'⟩ := logging_does_not_interfere report i' j' _ _ hsame'
  have hreported : (run i).exitStatus = 65 := by decide +kernel
  have hrefused : (run i').exitStatus = 78 := by decide +kernel
  exact ⟨⟨⟨hreported, hstatus ▸ hreported⟩, by decide +kernel, hout, herr "" ""⟩,
    ⟨hrefused, hstatus' ▸ hrefused⟩, herr' "" ""⟩

end Program

end CpScan
