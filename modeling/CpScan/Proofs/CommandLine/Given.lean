/-
# What a command line gives

The machine that reads a command line keeps a state, and looks at some things later than it meets
them.  This module says what a command line comes to without a state.

* The arguments give things, one after the other (`givens`): options, values of options, files, and
  what no command line should have.
* Each of them is acceptable or not, by itself or because of what is given before it
  (`Given.halt?`).  **The first one that is not decides** what the command line comes to
  (`firstHalt?`), and help and version are asked for in the same way.
* If there is none, the arguments say what is given, in whatever order (`Options.given`), and the
  environment is looked at for the rest (`Environment.Fits`, `Options.completed`).

`parse_halts`, `parse_accepts` and `parse_refuses` say that this is what the machine does.  It may
notice an empty value late; then it is *doomed*: it stops with a usage error whatever comes
(`readArguments_doomed`).
-/
import CpScan.CommandLine.Parse
import Mathlib.Data.List.Basic

namespace CpScan.CommandLine

/-! ## 1. What is given -/

/-- Something that is given by arguments. -/
inductive Given where
  | verbose | noColor | help | version
  /-- A settings file; none if its name is missing. -/
  | config (value : Option String)
  | file (value : String)
  /-- What no command line should have: an unknown option, or a value for an option without one. -/
  | wrong
deriving DecidableEq, Repr

/-- What a long option gives, by the text behind the two hyphens, and whether its value is to come
in the next argument. -/
def givenLong (text : List Char) : List Given × Bool :=
  let name := String.ofList (text.takeWhile (· != '='))
  match name, text.dropWhile (· != '=') with
  | "config", [] => ([], true)
  | "config", _ :: value => ([.config (some (String.ofList value))], false)
  | "verbose", [] => ([.verbose], false)
  | "no-color", [] => ([.noColor], false)
  | "help", [] => ([.help], false)
  | "version", [] => ([.version], false)
  | _, _ => ([.wrong], false)

/-- What a cluster of short options gives, and whether the last one has its value in the next
argument. -/
def givenShort : List Char → List Given × Bool
  | [] => ([], false)
  | ['c'] => ([], true)
  | 'c' :: '=' :: value => ([.config (some (String.ofList value))], false)
  | 'c' :: value => ([.config (some (String.ofList value))], false)
  | 'v' :: more => (.verbose :: (givenShort more).1, (givenShort more).2)
  | 'h' :: more => (.help :: (givenShort more).1, (givenShort more).2)
  | 'V' :: more => (.version :: (givenShort more).1, (givenShort more).2)
  | _ :: _ => ([.wrong], false)

/-- A value that does not come. -/
def unmet (waiting : Bool) : List Given := if waiting then [.config none] else []

/-- How an argument is written. -/
inductive Form where
  /-- The two hyphens that end the options. -/
  | ends
  /-- A long option, by the text behind the two hyphens. -/
  | long (text : List Char)
  /-- A cluster of short options, by the first letter and the others. -/
  | short (c : Char) (text : List Char)
  /-- Anything else: a value, or a file. -/
  | plain
deriving DecidableEq, Repr

/-- How an argument is written. -/
def form (argument : String) : Form :=
  if argument = "--" then .ends
  else match argument.toList with
    | '-' :: '-' :: text => .long text
    | '-' :: c :: text => .short c text
    | _ => .plain

/-- What arguments give; `waiting` says whether the first may be the value of an option. -/
def givens (waiting : Bool) : List String → List Given
  | [] => unmet waiting
  | argument :: more =>
    match form argument with
    | .ends => unmet waiting ++ more.map .file
    | .long text => unmet waiting ++ ((givenLong text).1 ++ givens (givenLong text).2 more)
    | .short c text =>
      unmet waiting ++ ((givenShort (c :: text)).1 ++ givens (givenShort (c :: text)).2 more)
    | .plain => (if waiting then .config (some argument) else .file argument) :: givens false more

/-! ## 2. The first that decides -/

/-- Why no run takes place. -/
inductive Halt where
  | help | version | wrong
deriving DecidableEq, Repr

/-- The reason, without the wording of an error. -/
def Stop.halt : Stop → Halt
  | help => .help
  | version => .version
  | usage _ => .wrong

namespace Given

/-- The name of a settings file. -/
def config? : Given → Option String
  | config value => value
  | _ => none

/-- The name of a source file. -/
def file? : Given → Option String
  | file value => some value
  | _ => none

/-- What it comes to when something is given behind `before`: nothing may be given twice, and no
name may be missing or empty. -/
def halt? (before : List Given) : Given → Option Halt
  | help => some .help
  | version => some .version
  | wrong => some .wrong
  | verbose => if verbose ∈ before then some .wrong else none
  | noColor => if noColor ∈ before then some .wrong else none
  | config none => some .wrong
  | config (some value) =>
    if value = "" ∨ (before.findSome? config?).isSome then some .wrong else none
  | file value => if value = "" ∨ (before.findSome? file?).isSome then some .wrong else none

end Given

/-- The first reason to halt there is, going from left to right behind `before`. -/
def firstHalt? (before : List Given) : List Given → Option Halt
  | [] => none
  | g :: more => (g.halt? before).or (firstHalt? (before ++ [g]) more)

/-- What is given, all together. -/
def Options.given (gs : List Given) : Options :=
  ⟨gs.findSome? Given.file?, decide (.verbose ∈ gs), gs.findSome? Given.config?,
    decide (.noColor ∈ gs)⟩

theorem firstHalt?_singleton (before : List Given) (g : Given) :
    firstHalt? before [g] = g.halt? before := by
  simp [firstHalt?]

theorem firstHalt?_append (before gs more : List Given) :
    firstHalt? before (gs ++ more) =
      (firstHalt? before gs).or (firstHalt? (before ++ gs) more) := by
  induction gs generalizing before with
  | nil => simp [firstHalt?]
  | cons g gs ih =>
    rw [List.cons_append, firstHalt?, firstHalt?, ih, List.append_assoc, List.singleton_append,
      Option.or_assoc]

/-- **The first reason is the one that nothing before it is a reason for.** -/
theorem firstHalt?_eq_some_iff {before gs : List Given} {halt : Halt} :
    firstHalt? before gs = some halt ↔
      ∃ pre g post, gs = pre ++ g :: post ∧ firstHalt? before pre = none ∧
        g.halt? (before ++ pre) = some halt := by
  constructor
  · intro h
    induction gs generalizing before with
    | nil => cases h
    | cons g gs ih =>
      rw [firstHalt?, Option.or_eq_some_iff] at h
      rcases h with h | ⟨hnone, h⟩
      · exact ⟨[], g, gs, rfl, rfl, by rwa [List.append_nil]⟩
      · obtain ⟨pre, g', post, rfl, hpre, hhalt⟩ := ih h
        refine ⟨g :: pre, g', post, rfl, ?_, ?_⟩
        · rw [firstHalt?, hnone, hpre, Option.none_or]
        · rwa [List.append_assoc, List.singleton_append] at hhalt
  · rintro ⟨pre, g, post, rfl, hpre, hhalt⟩
    rw [firstHalt?_append, hpre, firstHalt?, hhalt]
    rfl

/-! ## 3. The state of the machine -/

/-- The state of a machine that has looked at everything. -/
def State.settled (gs : List Given) : State :=
  ⟨(Options.given gs).file, (Options.given gs).verbose, (Options.given gs).config,
    (Options.given gs).noColor, none⟩

/-- The state says what has been given before; `waiting` says that a value is to come. -/
def State.Holds (s : State) (before : List Given) (waiting : Bool) : Prop :=
  if waiting then s = { State.settled before with pending := some .configValue }
  else s.pending ≠ some .configValue ∧ s.settle = .ok (State.settled before)

/-- What reading the next arguments comes to, if they give `gs`: the machine goes on with a state
that says so, or it stops with the right reason, or it is doomed and should have stopped. -/
inductive Progress (before gs : List Given) (waiting : Bool) : Except Stop State → Prop
  | goes {s : State} (hnone : firstHalt? before gs = none) (hs : s.Holds (before ++ gs) waiting) :
      Progress before gs waiting (.ok s)
  | stops {stop : Stop} (hstop : firstHalt? before gs = some stop.halt) :
      Progress before gs waiting (.error stop)
  | doomed {s : State} {error : UsageError} (hwrong : firstHalt? before gs = some .wrong)
      (hpending : s.pending ≠ some .configValue) (hs : s.settle = .error (.usage error)) :
      Progress before gs waiting (.ok s)

/-- What all arguments come to: the first reason to halt, or all that is given. -/
def ComesTo (before gs : List Given) (result : Except Stop State) : Prop :=
  match firstHalt? before gs with
  | none => result = .ok (State.settled (before ++ gs))
  | some halt => ∃ stop, result = .error stop ∧ stop.halt = halt

namespace State

variable {before : List Given} {s : State}

theorem settled_verbose (before : List Given) :
    settled (before ++ [.verbose]) = { settled before with verbose := true } := by
  simp [settled, Options.given, Given.file?, Given.config?]

theorem settled_noColor (before : List Given) :
    settled (before ++ [.noColor]) = { settled before with noColor := true } := by
  simp [settled, Options.given, Given.file?, Given.config?]

theorem settled_config (h : (settled before).config = none) (value : String) :
    settled (before ++ [.config (some value)]) = { settled before with config := some value } := by
  have hnone : before.findSome? Given.config? = none := h
  simp [settled, Options.given, Given.file?, Given.config?, hnone]

theorem settled_file (h : (settled before).file = none) (value : String) :
    settled (before ++ [.file value]) = { settled before with file := some value } := by
  have hnone : before.findSome? Given.file? = none := h
  simp [settled, Options.given, Given.file?, Given.config?, hnone]

/-- A machine that has looked at everything says what has been given. -/
theorem holds_settled (before : List Given) : (settled before).Holds before false :=
  ⟨by simp [settled], rfl⟩

theorem Holds.settle_eq (h : s.Holds before false) : s.settle = .ok (settled before) := h.2

/-- Whether there is a file is known, also if it was not looked at yet. -/
theorem hasFile_of_settle {s' : State} (h : s.settle = .ok s') : s.hasFile = s'.file.isSome := by
  obtain ⟨file, verbose, config, noColor, pending⟩ := s
  rcases pending with _ | _ | value | value
  · cases h
    simp [hasFile]
  · cases h
  · simp only [settle, setConfig] at h
    split at h
    · cases h
    · split at h
      · cases h
      · cases h
        simp [hasFile]
  · simp only [settle] at h
    split at h
    · cases h
    · cases h
      simp [hasFile]

/-! ## 4. One thing that is given -/

/-- The options without a value. -/
def flags : List (Item × Given) :=
  [(.verbose, .verbose), (.noColor, .noColor), (.help, .help), (.version, .version)]

/-- A flag is taken over behind everything before it, unless it is a reason to stop. -/
theorem Holds.giveFlag_cases (h : s.Holds before false) {item : Item} {g : Given}
    (hitem : (item, g) ∈ flags) :
    (firstHalt? before [g] = none ∧ s.giveFlag item = .ok (settled (before ++ [g]))) ∨
      ∃ stop, firstHalt? before [g] = some stop.halt ∧ s.giveFlag item = .error stop := by
  -- a flag that may be given once
  have honce {flag : Item} {g : Given} {next : State}
      (hhalt : g.halt? before = if g ∈ before then some .wrong else none)
      (hgive : s.giveFlag flag =
        if g ∈ before then .error (.usage (.repeated flag)) else .ok next)
      (hnext : settled (before ++ [g]) = next) :
      (g.halt? before = none ∧ s.giveFlag flag = .ok (settled (before ++ [g]))) ∨
        ∃ stop, g.halt? before = some stop.halt ∧ s.giveFlag flag = .error stop := by
    rw [hhalt, hgive, hnext]
    by_cases hmem : g ∈ before
    · exact .inr ⟨.usage (.repeated flag), by rw [if_pos hmem]; rfl, if_pos hmem⟩
    · exact .inl ⟨if_neg hmem, if_neg hmem⟩
  rw [firstHalt?_singleton]
  simp only [flags, List.mem_cons, Prod.mk.injEq, List.not_mem_nil, or_false] at hitem
  rcases hitem with ⟨rfl, rfl⟩ | ⟨rfl, rfl⟩ | ⟨rfl, rfl⟩ | ⟨rfl, rfl⟩
  · refine honce rfl ?_ (settled_verbose before)
    simp [giveFlag, h.settle_eq, bind, Except.bind, settled, Options.given]
  · refine honce rfl ?_ (settled_noColor before)
    simp [giveFlag, h.settle_eq, bind, Except.bind, settled, Options.given]
  · exact .inr ⟨.help, rfl, by simp [giveFlag, h.settle_eq, bind, Except.bind]⟩
  · exact .inr ⟨.version, rfl, by simp [giveFlag, h.settle_eq, bind, Except.bind]⟩

theorem Holds.progress_flag (h : s.Holds before false) {item : Item} {g : Given}
    (hitem : (item, g) ∈ flags) : Progress before [g] false (s.giveFlag item) := by
  rcases h.giveFlag_cases hitem with ⟨hnone, hok⟩ | ⟨stop, hstop, herror⟩
  · rw [hok]
    exact .goes hnone (holds_settled _)
  · rw [herror]
    exact .stops hstop

/-- An option whose value is to come. -/
theorem Holds.progress_waiting (h : s.Holds before false) :
    Progress before [] true (s.giveFlag .config) := by
  have hgo : s.giveFlag .config = .ok { settled before with pending := some .configValue } := by
    simp [giveFlag, h.settle_eq, bind, Except.bind]
  rw [hgo]
  exact .goes rfl (by simp [Holds])

/-- A settings file is taken over unless there is one, or its name is empty. -/
theorem setConfig_settled (before : List Given) (value : String) :
    (firstHalt? before [.config (some value)] = none ∧
        (settled before).setConfig value = .ok (settled (before ++ [.config (some value)]))) ∨
      (firstHalt? before [.config (some value)] = some .wrong ∧
        ∃ error, (settled before).setConfig value = .error (.usage error)) := by
  rw [firstHalt?_singleton]
  cases hconfig : before.findSome? Given.config? with
  | some other =>
    have hgiven : (settled before).config = some other := hconfig
    exact .inr ⟨by simp [Given.halt?, hconfig], .repeated .config, by simp [setConfig, hgiven]⟩
  | none =>
    have hgiven : (settled before).config = none := hconfig
    rw [settled_config hgiven]
    by_cases hvalue : value = ""
    · refine .inr ⟨by simp [Given.halt?, hvalue], .valueRequired .config, ?_⟩
      simp [setConfig, hgiven, hvalue]
    · exact .inl ⟨by simp [Given.halt?, hvalue, hconfig], by simp [setConfig, hgiven, hvalue]⟩

/-- A settings file in the argument of its option. -/
theorem Holds.progress_config (h : s.Holds before false) (value : String) :
    Progress before [.config (some value)] false (s.giveConfig value) := by
  have hgive : s.giveConfig value = (settled before).setConfig value := by
    simp only [giveConfig, h.settle_eq, bind, Except.bind]
  rw [hgive]
  rcases setConfig_settled before value with ⟨hnone, hok⟩ | ⟨hwrong, error, herror⟩
  · rw [hok]
    exact .goes hnone (holds_settled _)
  · rw [herror]
    exact .stops hwrong

/-- The value that was to come.  What is wrong with it is noticed later. -/
theorem Holds.progress_value (h : s.Holds before true) (value : String) :
    Progress before [.config (some value)] false
      (.ok { s with pending := some (.config value) }) := by
  obtain rfl : s = { settled before with pending := some .configValue } := h
  rcases setConfig_settled before value with ⟨hnone, hok⟩ | ⟨hwrong, error, herror⟩
  · exact .goes hnone ⟨by simp, hok⟩
  · exact .doomed hwrong (by simp) herror

/-- A file.  That its name is empty is noticed later. -/
theorem Holds.progress_file (h : s.Holds before false) (value : String) :
    Progress before [.file value] false (s.giveFile value) := by
  rw [giveFile, hasFile_of_settle h.settle_eq]
  cases hfile : before.findSome? Given.file? with
  | some other =>
    have hgiven : (settled before).file = some other := hfile
    rw [hgiven]
    exact @Progress.stops _ _ _ (.usage _)
      (by simp [firstHalt?_singleton, Given.halt?, hfile, Stop.halt])
  | none =>
    have hgiven : (settled before).file = none := hfile
    simp only [hgiven, h.settle_eq, bind, Except.bind]
    by_cases hvalue : value = ""
    · refine @Progress.doomed _ _ _ _ (.valueRequired .file) ?_ (by simp) ?_
      · simp [firstHalt?_singleton, Given.halt?, hvalue]
      · simp [settle, hvalue]
    · refine .goes ?_ ⟨by simp, ?_⟩
      · simp [firstHalt?_singleton, Given.halt?, hvalue, hfile]
      · rw [settled_file hgiven]
        simp [settle, hvalue, settled]

end State

/-! ## 5. One argument -/

variable {before gs more : List Given} {s : State} {waiting : Bool}

/-- What should stop is wrong also if more is given. -/
theorem firstHalt?_append_of_some {halt : Halt} (h : firstHalt? before gs = some halt)
    (more : List Given) : firstHalt? before (gs ++ more) = some halt := by
  rw [firstHalt?_append, h, Option.some_or]

/-- A long option. -/
theorem State.Holds.progress_long (h : s.Holds before false) (text : List Char) :
    Progress before (givenLong text).1 (givenLong text).2 (readLong s text) := by
  have hwrong (error : UsageError) : Progress before [.wrong] false (.error (.usage error)) :=
    .stops (by simp [firstHalt?_singleton, Given.halt?, Stop.halt])
  unfold givenLong readLong
  generalize String.ofList (text.takeWhile (· != '=')) = name
  generalize text.dropWhile (· != '=') = value
  dsimp only
  split
  · exact h.progress_waiting
  · exact h.progress_config _
  · exact h.progress_flag (by decide)
  · exact h.progress_flag (by decide)
  · exact h.progress_flag (by decide)
  · exact h.progress_flag (by decide)
  · next hconfig hvalued hverbose hnoColor hhelp hversion =>
    cases hitem : Item.ofLong? name with
    | none => exact hwrong _
    | some item =>
      unfold Item.ofLong? at hitem
      -- an option with a value that it does not take
      split at hitem
      all_goals cases hitem
      · cases value with
        | nil => exact absurd rfl (hverbose rfl)
        | cons c value => exact hwrong _
      · cases value with
        | nil => exact absurd rfl (hconfig rfl)
        | cons c value => exact absurd rfl (hvalued c value rfl)
      · cases value with
        | nil => exact absurd rfl (hnoColor rfl)
        | cons c value => exact hwrong _
      · cases value with
        | nil => exact absurd rfl (hhelp rfl)
        | cons c value => exact hwrong _
      · cases value with
        | nil => exact absurd rfl (hversion rfl)
        | cons c value => exact hwrong _

/-- What is given later counts if there is no reason to stop before. -/
theorem Progress.after {first : List Given} {r : Except Stop State}
    (hnone : firstHalt? before first = none) (h : Progress (before ++ first) gs waiting r) :
    Progress before (first ++ gs) waiting r := by
  have hlater : firstHalt? before (first ++ gs) = firstHalt? (before ++ first) gs := by
    rw [firstHalt?_append, hnone, Option.none_or]
  cases h with
  | goes hgs hs => exact .goes (hlater.trans hgs) (by rwa [← List.append_assoc])
  | stops hstop => exact .stops (hlater.trans hstop)
  | doomed hwrong hpending hs => exact .doomed (hlater.trans hwrong) hpending hs

/-- A flag, and the cluster behind it. -/
theorem State.Holds.progress_cluster (h : s.Holds before false) {item : Item} {g : Given}
    (hitem : (item, g) ∈ State.flags) {next : State → Except Stop State}
    (hnext : ∀ s, s.Holds (before ++ [g]) false → Progress (before ++ [g]) gs waiting (next s)) :
    Progress before (g :: gs) waiting
      (match s.giveFlag item with
        | .ok s => next s
        | .error stop => .error stop) := by
  rcases h.giveFlag_cases hitem with ⟨hnone, hok⟩ | ⟨stop, hstop, herror⟩
  · rw [hok]
    exact .after hnone (hnext _ (State.holds_settled _))
  · rw [herror]
    exact .stops (firstHalt?_append_of_some hstop gs)

/-- A cluster of short options. -/
theorem State.Holds.progress_short (h : s.Holds before false) (text : List Char) :
    Progress before (givenShort text).1 (givenShort text).2 (readShort s text) := by
  fun_induction givenShort text generalizing before s with
  | case1 => exact .goes rfl (by rwa [List.append_nil])
  | case2 => exact h.progress_waiting
  | case3 value => exact h.progress_config _
  | case4 value hne hequal =>
    have hread : readShort s ('c' :: value) = s.giveConfig (String.ofList value) := by
      cases value with
      | nil => exact absurd rfl hne
      | cons d value => simp [readShort, Item.ofShort?]
    rw [hread]
    exact h.progress_config _
  | case5 more ih => exact h.progress_cluster (by decide) fun s hs => ih hs
  | case6 more ih => exact h.progress_cluster (by decide) fun s hs => ih hs
  | case7 more ih => exact h.progress_cluster (by decide) fun s hs => ih hs
  | case8 c more _ _ hconfig hverbose hhelp hversion =>
    have hitem : Item.ofShort? c = none := by
      unfold Item.ofShort?
      split
      · exact absurd rfl hverbose
      · exact absurd rfl hconfig
      · exact absurd rfl hhelp
      · exact absurd rfl hversion
      · rfl
    have hread : ∃ error, readShort s (c :: more) = .error (.usage error) := by
      unfold readShort
      simp only [hitem]
      exact ⟨_, rfl⟩
    obtain ⟨error, hread⟩ := hread
    rw [hread]
    exact .stops (by simp [firstHalt?_singleton, Given.halt?, Stop.halt])

/-! ## 6. All arguments -/

/-- The first argument is read as it is written, and then the others. -/
theorem readArguments_cons (s : State) (argument : String) (more : List String) :
    readArguments s (argument :: more) =
      match form argument with
      | .ends => readFiles s more
      | .long text => (readLong s text).bind (readArguments · more)
      | .short c text => (readShort s (c :: text)).bind (readArguments · more)
      | .plain => (readPlain s argument).bind (readArguments · more) := by
  rw [readArguments, form]
  by_cases hends : argument = "--"
  · rw [if_pos hends, if_pos hends]
  · rw [if_neg hends, if_neg hends]
    dsimp only
    generalize argument.toList = text
    split
    all_goals
      next hnext =>
        split at hnext
        · simp only [hnext, Except.bind]
        · simp only [hnext, Except.bind]
        · simp only [hnext, Except.bind]

theorem giveFile_doomed {error : UsageError} (h : s.settle = .error (.usage error))
    (value : String) : ∃ error, s.giveFile value = .error (.usage error) := by
  unfold State.giveFile
  split
  · exact ⟨_, rfl⟩
  · exact ⟨error, by simp [h, bind, Except.bind]⟩

theorem readFiles_doomed {error : UsageError} (h : s.settle = .error (.usage error))
    (values : List String) :
    ∃ error, (readFiles s values).bind State.settle = .error (.usage error) := by
  cases values with
  | nil => exact ⟨error, h⟩
  | cons value values =>
    obtain ⟨error, hread⟩ := giveFile_doomed h value
    exact ⟨error, by simp only [readFiles, hread, Except.bind]⟩

/-- **A doomed machine stops with a usage error**, whatever comes, unless a value is still to come
and does. -/
theorem readArguments_doomed {error : UsageError} (h : s.settle = .error (.usage error))
    {arguments : List String}
    (hnext : s.pending = some .configValue → ∀ a ∈ arguments.head?, form a ≠ .plain) :
    ∃ error, (readArguments s arguments).bind State.settle = .error (.usage error) := by
  have hconfig (value : String) : s.giveConfig value = .error (.usage error) := by
    simp [State.giveConfig, h, bind, Except.bind]
  have hflag (item : Item) : s.giveFlag item = .error (.usage error) := by
    simp [State.giveFlag, h, bind, Except.bind]
  cases arguments with
  | nil => exact ⟨error, h⟩
  | cons argument more =>
    have hstop {r : Except Stop State} (hr : ∃ error, r = .error (.usage error)) :
        ∃ error, (r.bind (readArguments · more)).bind State.settle = .error (.usage error) := by
      obtain ⟨error, rfl⟩ := hr
      exact ⟨error, rfl⟩
    rw [readArguments_cons]
    cases hform : form argument with
    | ends => exact readFiles_doomed h more
    | long text =>
      refine hstop ?_
      unfold readLong
      dsimp only
      split
      · exact ⟨_, rfl⟩
      · exact ⟨error, hconfig _⟩
      · exact ⟨_, rfl⟩
      · exact ⟨error, hflag _⟩
    | short c text =>
      refine hstop ?_
      unfold readShort
      split
      · exact ⟨_, rfl⟩
      · split
        · exact ⟨error, hflag _⟩
        · exact ⟨error, hconfig _⟩
        · exact ⟨error, hconfig _⟩
      · exact ⟨error, by simp only [hflag]⟩
    | plain =>
      refine hstop ?_
      have hpending : s.pending ≠ some .configValue := fun hp => hnext hp argument rfl hform
      rw [readPlain, if_neg hpending]
      exact giveFile_doomed h argument

/-- What is read first settles it, or what is read behind does. -/
theorem ComesTo.of_progress {r : Except Stop State} {next : State → Except Stop State}
    (h : Progress before gs waiting r)
    (hnext : ∀ s, s.Holds (before ++ gs) waiting → ComesTo (before ++ gs) more (next s))
    (hdoomed : ∀ s error, s.pending ≠ some .configValue → s.settle = .error (.usage error) →
      ∃ error, next s = .error (.usage error)) : ComesTo before (gs ++ more) (r.bind next) := by
  cases h with
  | @goes s hnone hs =>
    have hlater := hnext s hs
    rw [ComesTo, List.append_assoc] at hlater
    rwa [ComesTo, firstHalt?_append, hnone, Option.none_or]
  | @stops stop hstop =>
    rw [ComesTo, firstHalt?_append_of_some hstop]
    exact ⟨stop, rfl, rfl⟩
  | @doomed s error hwrong hpending hs =>
    obtain ⟨error, herror⟩ := hdoomed s error hpending hs
    rw [ComesTo, firstHalt?_append_of_some hwrong]
    exact ⟨_, herror, rfl⟩

/-- **Files only.** -/
theorem State.Holds.comesTo_files (h : s.Holds before false) (values : List String) :
    ComesTo before (values.map .file) ((readFiles s values).bind State.settle) := by
  induction values generalizing before s with
  | nil =>
    change (readFiles s []).bind State.settle = .ok (State.settled (before ++ []))
    rw [List.append_nil]
    exact h.settle_eq
  | cons value values ih =>
    have hread : (readFiles s (value :: values)).bind State.settle =
        (s.giveFile value).bind fun s => (readFiles s values).bind State.settle := by
      rw [readFiles]
      cases s.giveFile value <;> rfl
    rw [hread, List.map_cons, ← List.singleton_append]
    refine .of_progress (h.progress_file value) (fun s hs => ih hs) ?_
    exact fun s error _ hs => readFiles_doomed hs values

/-- A value that does not come is wrong. -/
theorem firstHalt?_unmet (before more : List Given) :
    firstHalt? before (unmet true ++ more) = some .wrong :=
  firstHalt?_append_of_some (firstHalt?_singleton before (.config none)) more

/-- Where a value is to come, only a value or a file can keep the machine from its doom. -/
theorem State.Holds.comesTo_unmet (h : s.Holds before true) {arguments : List String}
    (hnext : ∀ a ∈ arguments.head?, form a ≠ .plain) (gs : List Given) :
    ComesTo before (unmet true ++ gs) ((readArguments s arguments).bind State.settle) := by
  have hsettle : s.settle = .error (.usage (.valueRequired .config)) := by
    obtain rfl : s = { State.settled before with pending := some .configValue } := h
    rfl
  obtain ⟨error, herror⟩ := readArguments_doomed hsettle fun _ => hnext
  rw [ComesTo, firstHalt?_unmet]
  exact ⟨_, herror, rfl⟩

/-- **The machine comes to what is given.** -/
theorem State.Holds.comesTo_arguments (h : s.Holds before waiting) (arguments : List String) :
    ComesTo before (givens waiting arguments) ((readArguments s arguments).bind State.settle) := by
  induction arguments generalizing before s waiting with
  | nil =>
    cases waiting with
    | true =>
      have hend : ∀ a ∈ ([] : List String).head?, form a ≠ .plain := by simp
      have hunmet := h.comesTo_unmet hend []
      rwa [List.append_nil] at hunmet
    | false => exact h.comesTo_files []
  | cons argument more ih =>
    have hgo {gs : List Given} {waiting : Bool} {r : Except Stop State}
        (hr : Progress before gs waiting r) :
        ComesTo before (gs ++ givens waiting more)
          ((r.bind (readArguments · more)).bind State.settle) := by
      have hassoc : (r.bind (readArguments · more)).bind State.settle =
          r.bind fun s => (readArguments s more).bind State.settle := by
        cases r <;> rfl
      rw [hassoc]
      exact .of_progress hr (fun s hs => ih hs) fun s error hpending hs =>
        readArguments_doomed hs fun hp => absurd hp hpending
    rw [givens]
    cases waiting with
    | true =>
      cases hform : form argument with
      | ends => exact h.comesTo_unmet (by simp [hform]) _
      | long text => exact h.comesTo_unmet (by simp [hform]) _
      | short c text => exact h.comesTo_unmet (by simp [hform]) _
      | plain =>
        have hpending : s.pending = some .configValue := by
          obtain rfl : s = { State.settled before with pending := some .configValue } := h
          rfl
        rw [readArguments_cons, hform]
        simp only [readPlain, if_pos hpending]
        exact hgo (h.progress_value argument)
    | false =>
      rw [readArguments_cons]
      cases hform : form argument with
      | ends => exact h.comesTo_files more
      | long text => exact hgo (h.progress_long text)
      | short c text => exact hgo (h.progress_short (c :: text))
      | plain =>
        simp only [readPlain, if_neg h.1]
        exact hgo (h.progress_file argument)

/-! ## 7. The environment, and all of it -/

/-- The value of a flag's variable is one that can be read. -/
def FlagFits (value : Option String) : Prop := ∀ v ∈ value, v = "true" ∨ v = "false"

/-- The environment can be read, where it counts: for what is not given. -/
structure Environment.Fits (env : Environment) (o : Options) : Prop where
  verbose : o.verbose = false → FlagFits env.verbose
  config : o.config = none → env.config ≠ some ""
  noColor : o.noColor = false → FlagFits env.noColor

/-- What is given, and the environment for the rest. -/
def Options.completed (o : Options) (env : Environment) : Options where
  file := o.file
  verbose := o.verbose || env.verbose == some "true"
  config := o.config.or env.config
  noColor := o.noColor || env.noColor == some "true"

/-- What a flag is, if it fits: given, or set by its variable. -/
theorem flag_of_fits {given : Bool} {value : Option String} (item : Item)
    (h : given = false → FlagFits value) :
    (if given then .ok true else flagOf item value) = .ok (given || value == some "true") := by
  cases given with
  | true => rfl
  | false =>
    cases value with
    | none => rfl
    | some v =>
      rcases h rfl v rfl with rfl | rfl
      · rfl
      · rfl

theorem flag_of_not_fits {given : Bool} {value : Option String} (item : Item)
    (h : ¬ (given = false → FlagFits value)) :
    ∃ error, (if given then .ok true else flagOf item value) = .error (.usage error) := by
  obtain ⟨rfl, hvalue⟩ := Classical.not_imp.mp h
  rw [if_neg Bool.false_ne_true]
  unfold flagOf
  split
  · exact absurd (by rintro _ ⟨⟩) hvalue
  · exact absurd (by rintro _ ⟨⟩; exact .inl rfl) hvalue
  · exact absurd (by rintro _ ⟨⟩; exact .inr rfl) hvalue
  · exact ⟨_, rfl⟩
  · exact ⟨_, rfl⟩

theorem config_of_fits {given value : Option String} (h : given = none → value ≠ some "") :
    (if given.isSome then .ok given else configOf value) = .ok (given.or value) := by
  cases given with
  | some path => rfl
  | none =>
    simp only [Option.isSome_none, Bool.false_eq_true, if_false, Option.none_or]
    unfold configOf
    split
    · rfl
    · exact absurd rfl (h rfl)
    · rfl

theorem config_of_not_fits {given value : Option String} (h : ¬ (given = none → value ≠ some "")) :
    (if given.isSome then .ok given else configOf value) =
      .error (.usage (.valueRequired .config)) := by
  obtain ⟨rfl, hvalue⟩ := Classical.not_imp.mp h
  rw [not_not.mp hvalue]
  rfl

/-- The last stage: the environment is looked at for what is not given. -/
def Options.resolve (o : Options) (env : Environment) : Except Stop Options :=
  (if o.verbose then .ok true else flagOf .verbose env.verbose).bind fun verbose =>
    (if o.config.isSome then .ok o.config else configOf env.config).bind fun config =>
      (if o.noColor then .ok true else flagOf .noColor env.noColor).bind fun noColor =>
        .ok ⟨o.file, verbose, config, noColor⟩

theorem Options.resolve_of_fits {o : Options} {env : Environment} (h : env.Fits o) :
    o.resolve env = .ok (o.completed env) := by
  rw [resolve, flag_of_fits .verbose h.verbose, config_of_fits h.config,
    flag_of_fits .noColor h.noColor]
  rfl

theorem Options.resolve_of_not_fits {o : Options} {env : Environment} (h : ¬ env.Fits o) :
    ∃ error, o.resolve env = .error (.usage error) := by
  unfold resolve
  by_cases hverbose : o.verbose = false → FlagFits env.verbose
  · rw [flag_of_fits .verbose hverbose]
    by_cases hconfig : o.config = none → env.config ≠ some ""
    · rw [config_of_fits hconfig]
      have hnoColor : ¬ (o.noColor = false → FlagFits env.noColor) :=
        fun hnoColor => h ⟨hverbose, hconfig, hnoColor⟩
      obtain ⟨error, herror⟩ := flag_of_not_fits .noColor hnoColor
      rw [herror]
      exact ⟨error, rfl⟩
    · rw [config_of_not_fits hconfig]
      exact ⟨_, rfl⟩
  · obtain ⟨error, herror⟩ := flag_of_not_fits .verbose hverbose
    rw [herror]
    exact ⟨error, rfl⟩

theorem parse_eq (arguments : List String) (env : Environment) :
    parse arguments env = ((readArguments {} arguments).bind State.settle).bind fun s =>
      Options.resolve ⟨s.file, s.verbose, s.config, s.noColor⟩ env := by
  unfold parse
  cases (readArguments {} arguments) with
  | error stop => rfl
  | ok s =>
    change (s.settle.bind fun s => _) = s.settle.bind _
    refine congrArg s.settle.bind (funext fun s => ?_)
    obtain ⟨file, verbose, config, noColor, pending⟩ := s
    cases verbose <;> cases config <;> cases noColor <;> rfl

variable {arguments : List String} {env : Environment} {halt : Halt}

/-- **The first reason to halt decides**, whatever stands behind it and whatever the environment. -/
theorem parse_halts (h : firstHalt? [] (givens false arguments) = some halt) (env : Environment) :
    ∃ stop, parse arguments env = .error stop ∧ stop.halt = halt := by
  have hall := (State.holds_settled []).comesTo_arguments arguments
  rw [ComesTo, h] at hall
  obtain ⟨stop, hstop, hhalt⟩ := hall
  have hparse : parse arguments env = .error stop := by
    rw [parse_eq]
    exact congrArg (Except.bind · _) hstop
  exact ⟨stop, hparse, hhalt⟩

example : firstHalt? [] (givens false ["-vc", "--", "--help"]) = some .wrong := by decide +kernel

example : firstHalt? [] (givens false ["-cv", "--help", "--bad"]) = some .help := by decide +kernel

/-- Where nothing halts, only the environment is left. -/
theorem parse_of_none (h : firstHalt? [] (givens false arguments) = none) (env : Environment) :
    parse arguments env = (Options.given (givens false arguments)).resolve env := by
  have hall := (State.holds_settled []).comesTo_arguments arguments
  rw [ComesTo, h] at hall
  rw [parse_eq]
  exact congrArg (Except.bind · _) hall

/-- **What is given is accepted** where nothing halts and the environment fits. -/
theorem parse_accepts (h : firstHalt? [] (givens false arguments) = none)
    (hfits : env.Fits (Options.given (givens false arguments))) :
    parse arguments env = .ok ((Options.given (givens false arguments)).completed env) :=
  (parse_of_none h env).trans (Options.resolve_of_fits hfits)

/-- **An environment that does not fit is an error of the command line.** -/
theorem parse_refuses (h : firstHalt? [] (givens false arguments) = none)
    (hfits : ¬ env.Fits (Options.given (givens false arguments))) :
    ∃ error, parse arguments env = .error (.usage error) := by
  obtain ⟨error, herror⟩ := Options.resolve_of_not_fits hfits
  exact ⟨error, (parse_of_none h env).trans herror⟩

end CpScan.CommandLine
