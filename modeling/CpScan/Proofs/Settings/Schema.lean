/-
# The schema of settings files

What a settings file may hold is said on the tree of its document, by what stands under which key
and not by how it is looked up (`Schema`): three keys at the root, a boolean, and two sections with
one key each.  A section is a table, or an array that starts with the value (`Section`).

A document is accepted exactly if it is of this form, and each setting is then the value that is
given for it, if there is one, and its default otherwise (`Chosen`).  Both follow from the keys of a
document being distinct: looking a key up finds what there is, whatever the order.  The main result,
`parse_follows_schema`, says it of every text.
-/
import CpScan.Proofs.Program.ExitStatus
import CpScan.Proofs.Toml.Distinct
import CpScan.Settings.Decode

namespace CpScan

namespace Settings

open Toml (Entries Value)

/-! ## 1. The schema -/

/-- A section with the one setting `key`: a table with no other key, or an array that starts with
the value of the setting, or is empty. -/
inductive Section (key : String) (Fits : Value → Prop) : Value → Prop
  | table {kind : Toml.TableKind} {es : Entries} (h : ∀ e ∈ es, e.1 = key ∧ Fits e.2) :
    Section key Fits (.table kind es)
  | empty {kind : Toml.ArrayKind} : Section key Fits (.array kind [])
  | listed {kind : Toml.ArrayKind} {first : Value} {rest : List Value} (h : Fits first) :
    Section key Fits (.array kind (first :: rest))

/-- The section gives this value for its setting `key`. -/
inductive GivenIn (key : String) (v : Value) : Value → Prop
  | table {kind : Toml.TableKind} {es : Entries} (h : (key, v) ∈ es) :
    GivenIn key v (.table kind es)
  | listed {kind : Toml.ArrayKind} {rest : List Value} : GivenIn key v (.array kind (v :: rest))

def IsBoolean (v : Value) : Prop := ∃ b, v = .boolean b

def IsText (v : Value) : Prop := ∃ s, v = .string s

/-- What a settings file may hold. -/
structure Schema (es : Entries) : Prop where
  keys : ∀ e ∈ es, e.1 = "verbose" ∨ e.1 = "repl" ∨ e.1 = "output"
  verbose : ∀ v, ("verbose", v) ∈ es → IsBoolean v
  repl : ∀ v, ("repl", v) ∈ es → Section "prompt" IsText v
  output : ∀ v, ("output", v) ∈ es → Section "show_spans" IsBoolean v

/-- The value given for `verbose`. -/
def GivesVerbose (es : Entries) (v : Value) : Prop := ("verbose", v) ∈ es

/-- The value given for the prompt. -/
def GivesPrompt (es : Entries) (v : Value) : Prop :=
  ∃ sect, ("repl", sect) ∈ es ∧ GivenIn "prompt" v sect

/-- The value given for `show_spans`. -/
def GivesShowSpans (es : Entries) (v : Value) : Prop :=
  ∃ sect, ("output", sect) ∈ es ∧ GivenIn "show_spans" v sect

/-- `x` is what is given, where `write` says how it is written, and the default if nothing is. -/
structure Chosen {α : Type} (write : α → Value) (given : Value → Prop) (default x : α) :
    Prop where
  eq_given : ∀ v, given v → v = write x
  eq_default : (∀ v, ¬ given v) → x = default

/-! ## 2. One setting -/

theorem boolean?_eq_some_iff {v : Value} {b : Bool} : v.boolean? = some b ↔ v = .boolean b := by
  cases v <;> simp [Value.boolean?]

theorem boolean?_isSome_iff {v : Value} : v.boolean?.isSome ↔ IsBoolean v := by
  simp [Option.isSome_iff_exists, boolean?_eq_some_iff, IsBoolean]

theorem text?_eq_some_iff {v : Value} {s : String} : v.text? = some s ↔ v = .string s := by
  cases v <;> simp [Value.text?]

theorem text?_isSome_iff {v : Value} : v.text?.isSome ↔ IsText v := by
  simp [Option.isSome_iff_exists, text?_eq_some_iff, IsText]

variable {α : Type} {read : Value → Option α} {default x : α} {key : String} {es : Entries}
  {v : Value}

theorem onlyKeys_iff {keys : List String} : onlyKeys keys es = true ↔ ∀ e ∈ es, e.1 ∈ keys := by
  simp [onlyKeys]

/-- A setting can be read if what is given for it can. -/
theorem setting_isSome_iff (h : es.Distinct) :
    (setting read default key es).isSome ↔ ∀ v, (key, v) ∈ es → (read v).isSome := by
  unfold setting
  split
  · next hnone =>
    rw [Entries.get?_eq_none_iff] at hnone
    exact ⟨fun _ v hv => absurd rfl (hnone _ hv), fun _ => rfl⟩
  · next value hsome =>
    refine ⟨fun hread v hv => ?_, fun hall => hall value (Entries.mem_of_get? hsome)⟩
    obtain rfl : value = v := Option.some.inj (hsome.symm.trans (h.get?_eq_some_iff.mpr hv))
    exact hread

/-- And then it is that, or the default if there is none. -/
theorem setting_eq (h : es.Distinct) (hx : setting read default key es = some x) :
    (∀ v, (key, v) ∈ es → read v = some x) ∧ ((∀ v, (key, v) ∉ es) → x = default) := by
  unfold setting at hx
  split at hx
  · next hnone =>
    rw [Entries.get?_eq_none_iff] at hnone
    exact ⟨fun v hv => absurd rfl (hnone _ hv), fun _ => (Option.some.inj hx).symm⟩
  · next value hsome =>
    refine ⟨fun v hv => ?_, fun hall => absurd (Entries.mem_of_get? hsome) (hall value)⟩
    obtain rfl : value = v := Option.some.inj (hsome.symm.trans (h.get?_eq_some_iff.mpr hv))
    exact hx

/-! ## 3. One section -/

/-- A section is a table or an array, and other values are none. -/
theorem fromSection_cases (read : Value → Option α) (default : α) (key : String) (v : Value) :
    (∃ kind es, v = .table kind es ∧ fromSection read default key v =
        if onlyKeys [key] es then setting read default key es else none) ∨
      (∃ kind, v = .array kind [] ∧ fromSection read default key v = some default) ∨
      (∃ kind first rest, v = .array kind (first :: rest) ∧
        fromSection read default key v = read first) ∨
      ((∀ Fits, ¬ Section key Fits v) ∧ fromSection read default key v = none) := by
  cases v with
  | table kind es => exact .inl ⟨kind, es, rfl, rfl⟩
  | array kind items =>
    cases items with
    | nil => exact .inr (.inl ⟨kind, rfl, rfl⟩)
    | cons first rest => exact .inr (.inr (.inl ⟨kind, first, rest, rfl, rfl⟩))
  | _ => exact .inr (.inr (.inr ⟨by rintro _ ⟨⟩, rfl⟩))

/-- **A section can be read if it is one.** -/
theorem fromSection_isSome_iff (h : v.Distinct) :
    (fromSection read default key v).isSome ↔ Section key (fun w => (read w).isSome) v := by
  rcases fromSection_cases read default key v with
    ⟨kind, es, rfl, heq⟩ | ⟨kind, rfl, heq⟩ | ⟨kind, first, rest, rfl, heq⟩ | ⟨hnone, heq⟩
  · have hdistinct := Toml.Value.distinct_table_iff.mp h
    rw [heq]
    constructor
    · intro hread
      split at hread
      · next honly =>
        refine .table fun e he => ?_
        obtain hkey := List.mem_singleton.mp (onlyKeys_iff.mp honly e he)
        exact ⟨hkey, (setting_isSome_iff hdistinct).mp hread e.2 (hkey ▸ he)⟩
      · cases hread
    · rintro ⟨hall⟩
      rw [if_pos (onlyKeys_iff.mpr fun e he => List.mem_singleton.mpr (hall e he).1),
        setting_isSome_iff hdistinct]
      exact fun v hv => (hall _ hv).2
  · rw [heq]
    exact ⟨fun _ => .empty, fun _ => rfl⟩
  · rw [heq]
    refine ⟨fun hfirst => .listed hfirst, ?_⟩
    rintro (_ | _ | hfirst)
    exact hfirst
  · rw [heq]
    exact ⟨by rintro ⟨⟩, fun hsection => absurd hsection (hnone _)⟩

/-- And then it is what the section gives, or the default. -/
theorem fromSection_eq (h : v.Distinct) (hx : fromSection read default key v = some x) :
    (∀ w, GivenIn key w v → read w = some x) ∧ ((∀ w, ¬ GivenIn key w v) → x = default) := by
  rcases fromSection_cases read default key v with
    ⟨kind, es, rfl, heq⟩ | ⟨kind, rfl, heq⟩ | ⟨kind, first, rest, rfl, heq⟩ | ⟨-, heq⟩
  · rw [heq] at hx
    split at hx
    · obtain ⟨hgiven, hdefault⟩ := setting_eq (Toml.Value.distinct_table_iff.mp h) hx
      refine ⟨?_, fun hnone => hdefault fun w hw => hnone w (.table hw)⟩
      rintro w (hw | _)
      exact hgiven w hw
    · cases hx
  · rw [heq] at hx
    exact ⟨by rintro _ ⟨⟩, fun _ => (Option.some.inj hx).symm⟩
  · rw [heq] at hx
    refine ⟨?_, fun hnone => absurd .listed (hnone first)⟩
    rintro _ (_ | _)
    exact hx
  · rw [heq] at hx
    cases hx

/-- A setting in a section can be read if what has the section's name is one. -/
theorem setting_fromSection_isSome_iff {inner : String} (h : es.Distinct) :
    (setting (fromSection read default inner) default key es).isSome ↔
      ∀ v, (key, v) ∈ es → Section inner (fun w => (read w).isSome) v := by
  rw [setting_isSome_iff h]
  exact forall₂_congr fun v hv => fromSection_isSome_iff (h.values _ hv)

/-- A setting in a section is what any section of that name gives for it, or the default. -/
theorem setting_fromSection_eq {inner : String} (h : es.Distinct)
    (hx : setting (fromSection read default inner) default key es = some x) :
    (∀ w, (∃ sect, (key, sect) ∈ es ∧ GivenIn inner w sect) → read w = some x) ∧
      ((∀ w, ¬ ∃ sect, (key, sect) ∈ es ∧ GivenIn inner w sect) → x = default) := by
  obtain ⟨hgiven, hdefault⟩ := setting_eq h hx
  have hsection : ∀ sect, (key, sect) ∈ es →
      (∀ w, GivenIn inner w sect → read w = some x) ∧
        ((∀ w, ¬ GivenIn inner w sect) → x = default) := fun sect hsect =>
    fromSection_eq (h.values _ hsect) (hgiven sect hsect)
  refine ⟨?_, fun hnone => ?_⟩
  · rintro w ⟨sect, hsect, hw⟩
    exact (hsection sect hsect).1 w hw
  · by_cases hthere : ∃ sect, (key, sect) ∈ es
    · obtain ⟨sect, hsect⟩ := hthere
      exact (hsection sect hsect).2 fun w hw => hnone w ⟨sect, hsect, hw⟩
    · exact hdefault fun sect hsect => hthere ⟨sect, hsect⟩

/-! ## 4. The document -/

/-- The three settings are read one by one. -/
theorem ofToml?_eq_some_iff {s : Settings} :
    ofToml? es = some s ↔ onlyKeys ["verbose", "repl", "output"] es = true ∧
      setting Value.boolean? false "verbose" es = some s.verbose ∧
      setting (fromSection Value.text? defaultPrompt "prompt") defaultPrompt "repl" es =
        some s.prompt ∧
      setting (fromSection Value.boolean? false "show_spans") false "output" es =
        some s.showSpans := by
  rw [ofToml?]
  split
  · next honly =>
    constructor
    · intro hs
      obtain ⟨verbose, hverbose, hs⟩ := Option.bind_eq_some_iff.mp hs
      obtain ⟨prompt, hprompt, hs⟩ := Option.bind_eq_some_iff.mp hs
      obtain ⟨showSpans, hshowSpans, hs⟩ := Option.bind_eq_some_iff.mp hs
      cases hs
      exact ⟨honly, hverbose, hprompt, hshowSpans⟩
    · rintro ⟨-, hverbose, hprompt, hshowSpans⟩
      rw [hverbose, hprompt, hshowSpans]
      rfl
  · next honly =>
    exact ⟨by rintro ⟨⟩, fun h => absurd h.1 honly⟩

/-- They can be read if each of them can. -/
theorem ofToml?_isSome :
    (ofToml? es).isSome ↔ onlyKeys ["verbose", "repl", "output"] es = true ∧
      (setting Value.boolean? false "verbose" es).isSome ∧
      (setting (fromSection Value.text? defaultPrompt "prompt") defaultPrompt "repl" es).isSome ∧
      (setting (fromSection Value.boolean? false "show_spans") false "output" es).isSome := by
  simp only [Option.isSome_iff_exists, ofToml?_eq_some_iff]
  constructor
  · rintro ⟨s, honly, hverbose, hprompt, hshowSpans⟩
    exact ⟨honly, ⟨_, hverbose⟩, ⟨_, hprompt⟩, ⟨_, hshowSpans⟩⟩
  · rintro ⟨honly, ⟨verbose, hverbose⟩, ⟨prompt, hprompt⟩, ⟨showSpans, hshowSpans⟩⟩
    exact ⟨⟨verbose, prompt, showSpans⟩, honly, hverbose, hprompt, hshowSpans⟩

/-- **A document is accepted if it follows the schema.** -/
theorem ofToml?_isSome_iff (h : es.Distinct) : (ofToml? es).isSome ↔ Schema es := by
  rw [ofToml?_isSome, onlyKeys_iff, setting_isSome_iff h, setting_fromSection_isSome_iff h,
    setting_fromSection_isSome_iff h]
  simp only [boolean?_isSome_iff, text?_isSome_iff, List.mem_cons, List.not_mem_nil, or_false]
  constructor
  · rintro ⟨hkeys, hverbose, hrepl, houtput⟩
    exact ⟨hkeys, hverbose, hrepl, houtput⟩
  · rintro ⟨hkeys, hverbose, hrepl, houtput⟩
    exact ⟨hkeys, hverbose, hrepl, houtput⟩

/-- **Each setting is what is given for it**, or its default. -/
theorem ofToml?_chosen (h : es.Distinct) {s : Settings} (hs : ofToml? es = some s) :
    Chosen Value.boolean (GivesVerbose es) false s.verbose ∧
      Chosen Value.string (GivesPrompt es) defaultPrompt s.prompt ∧
      Chosen Value.boolean (GivesShowSpans es) false s.showSpans := by
  obtain ⟨-, hverbose, hprompt, hshowSpans⟩ := ofToml?_eq_some_iff.mp hs
  obtain ⟨hgiven, hdefault⟩ := setting_eq h hverbose
  obtain ⟨hgiven', hdefault'⟩ := setting_fromSection_eq h hprompt
  obtain ⟨hgiven'', hdefault''⟩ := setting_fromSection_eq h hshowSpans
  exact ⟨⟨fun v hv => boolean?_eq_some_iff.mp (hgiven v hv), hdefault⟩,
    ⟨fun v hv => text?_eq_some_iff.mp (hgiven' v hv), hdefault'⟩,
    ⟨fun v hv => boolean?_eq_some_iff.mp (hgiven'' v hv), hdefault''⟩⟩

/-- The order of the keys does not matter. -/
theorem ofToml?_perm {es' : Entries} (h : es.Distinct) (h' : es'.Distinct) (hperm : es'.Perm es) :
    ofToml? es' = ofToml? es := by
  have hget (key : String) : es'.get? key = es.get? key := by
    refine Option.ext fun v => ?_
    rw [h'.get?_eq_some_iff, h.get?_eq_some_iff, hperm.mem_iff]
  have honly (keys : List String) : onlyKeys keys es' = onlyKeys keys es := by
    rw [Bool.eq_iff_iff, onlyKeys_iff, onlyKeys_iff]
    simp only [hperm.mem_iff]
  unfold ofToml? setting
  simp only [hget, honly]

/-- What becomes of a text. -/
theorem parse_eq (text : List Char) :
    parse text = match Toml.parse text with
      | none => .error (.notToml text)
      | some es => match ofToml? es with
        | none => .error (.notSettings text)
        | some s => .ok s := rfl

/-- **Settings follow the schema.**  A text that is a document is accepted exactly if the tree of
the document follows the schema; then each setting is the value that is given for it, and its
default if none is, whatever the others are and in whatever order they stand.  Every other text is
refused, and a run that is to use it as its settings file ends with 78 and writes nothing to the
output. -/
theorem parse_follows_schema (text : String) :
    (∀ es, Toml.parse text.toList = some es →
      es.Distinct ∧
      ((∃ s, parse text.toList = .ok s) ↔ Schema es) ∧
      (¬ Schema es → parse text.toList = .error (.notSettings text.toList)) ∧
      (∀ s, parse text.toList = .ok s →
        Chosen Value.boolean (GivesVerbose es) false s.verbose ∧
          Chosen Value.string (GivesPrompt es) "cp> " s.prompt ∧
          Chosen Value.boolean (GivesShowSpans es) false s.showSpans) ∧
      ∀ (text' : String) es', Toml.parse text'.toList = some es' → es'.Perm es →
        parse text'.toList =
          (parse text.toList).mapError fun _ => .notSettings text'.toList) ∧
    (Toml.parse text.toList = none → parse text.toList = .error (.notToml text.toList)) ∧
    ∀ fault, parse text.toList = .error fault →
      (Failure.settings fault).exitStatus = 78 ∧
      ∀ (i : Invocation) (options : CommandLine.Options) (path : String) (bytes : List UInt8),
        Program.Accepted i options →
        Program.settingsPath i.files i.places options.config = some path →
        i.files path = .file bytes → String.fromUTF8? ⟨bytes.toArray⟩ = some text →
        (Program.run i).exitStatus = 78 ∧ (Program.run i).stdout = "" := by
  refine ⟨fun es hes => ?_, fun hnone => ?_, fun fault hfault => ⟨rfl, ?_⟩⟩
  · have hdistinct := Toml.parse_distinct hes
    have hparse (text' : String) {es' : Entries} (h : Toml.parse text'.toList = some es') :
        parse text'.toList = match ofToml? es' with
          | none => .error (.notSettings text'.toList)
          | some s => .ok s := by rw [parse_eq, h]
    have haccepted := ofToml?_isSome_iff hdistinct
    refine ⟨hdistinct, ?_, ?_, ?_, ?_⟩
    · rw [hparse text hes, ← haccepted]
      cases ofToml? es with
      | none => simp
      | some s => simp
    · intro hschema
      rw [← haccepted, Option.not_isSome_iff_eq_none] at hschema
      rw [hparse text hes, hschema]
    · intro s hs
      rw [hparse text hes] at hs
      cases hsettings : ofToml? es with
      | none =>
        rw [hsettings] at hs
        cases hs
      | some s' =>
        rw [hsettings] at hs
        cases hs
        exact ofToml?_chosen hdistinct hsettings
    · intro text' es' hes' hperm
      rw [hparse text hes, hparse text' hes',
        ofToml?_perm hdistinct (Toml.parse_distinct hes') hperm]
      cases ofToml? es with
      | none => rfl
      | some s => rfl
  · rw [parse_eq, hnone]
  · intro i options path bytes haccepted hpath hfile htext
    have hrun := haccepted.run_faulty hpath (.notAccepted hfile htext hfault)
    exact ⟨hrun.1, hrun.2.1⟩

/-- A section as an array, another with a dotted key, and the two in the other order; a key with a
letter missing, in the settings file of a run; and a text that is no document. -/
theorem parse_follows_schema_in_both_forms :
    let es : Entries := [("output", .array .listed [.boolean true]),
      ("repl", .table .dotted [("prompt", .string "> ")])]
    let files : Files := fun path =>
      if path = "b.toml" then .file "verbos = true".toUTF8.data.toList else .absent .notFound
    (Chosen Value.string (GivesPrompt es) "cp> " "> " ∧
        parse "repl.prompt = '> '\noutput = [true]".toList =
          parse "output = [true]\nrepl.prompt = '> '".toList ∧ Schema es) ∧
      (parse "verbos = true".toList = .error (.notSettings "verbos = true".toList) ∧
        (Program.run ⟨["a.cp", "-c", "b.toml"], {}, {}, files, ⟨[], true⟩⟩).exitStatus = 78) ∧
      parse "verbose".toList = .error (.notToml "verbose".toList) := by
  intro es files
  refine ⟨?_, ?_, ?_⟩
  · have hes : Toml.parse "output = [true]\nrepl.prompt = '> '".toList = some es := by rfl
    obtain ⟨-, hschema, -, hchosen, hperm⟩ :=
      (parse_follows_schema "output = [true]\nrepl.prompt = '> '").1 es hes
    have hs : parse "output = [true]\nrepl.prompt = '> '".toList = .ok ⟨false, "> ", true⟩ := by rfl
    have hsame := hperm "repl.prompt = '> '\noutput = [true]" es.reverse (by rfl) es.reverse_perm
    rw [hs] at hsame ⊢
    exact ⟨(hchosen _ hs).2.1, hsame, hschema.mp ⟨_, hs⟩⟩
  · have hes : Toml.parse "verbos = true".toList = some [("verbos", .boolean true)] := by rfl
    obtain ⟨hdocument, -, hrefused⟩ := parse_follows_schema "verbos = true"
    have herror := (hdocument _ hes).2.2.1 fun hschema =>
      absurd (hschema.keys _ List.mem_cons_self) (by decide)
    have haccepted : Program.Accepted ⟨["a.cp", "-c", "b.toml"], {}, {}, files, ⟨[], true⟩⟩
        ⟨some "a.cp", false, some "b.toml", false⟩ :=
      ⟨by decide +kernel, ⟨by rintro - _ ⟨⟩, by rintro - ⟨⟩, by rintro - _ ⟨⟩⟩, by decide +kernel⟩
    exact ⟨herror, ((hrefused _ herror).2 _ _ "b.toml" _ haccepted rfl rfl
      (by decide +kernel)).1⟩
  · exact (parse_follows_schema "verbose").2.1 (by rfl)

end Settings

end CpScan
