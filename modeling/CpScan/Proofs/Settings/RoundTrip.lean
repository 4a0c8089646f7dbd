/-
# Settings are read back from what is written

A settings file can give a section in three forms: with a dotted key, as a table in braces, or with
a header.  It can give its settings in any order that lets every header stand behind what is no
header.  A `Part` is one thing that a file gives, in one of its forms, and `Settings.Gives` tells
which lists of parts give certain settings.  How a list of parts is written as text is said in
`Toml.Writes`, and nothing of that comes in here.

All settings can be written, in every form and order, and whatever text gives them is read as them
(`Settings.parse_written`).  The proof puts the parts into the tree one after the other: each adds
one entry at the end, under a name that is not there yet (`Part.add_eq`, `foldlM_parts`).  Settings
do not depend on the order of the entries, so it is enough to read them off one order.
-/
import CpScan.Proofs.Settings.Schema
import CpScan.Proofs.Toml.Writing

namespace CpScan

open Toml

/-! ## 1. What a file gives -/

/-- One thing that a settings file gives: a setting of its own, or a section with one setting. -/
inductive Part where
  /-- `key = value` -/
  | plain (key : String) (value : Value)
  /-- `name.key = value` -/
  | dotted (name key : String) (value : Value)
  /-- `name = { key = value }` -/
  | braces (name key : String) (value : Value)
  /-- `[name]`, and `key = value` below it -/
  | headed (name key : String) (value : Value)

namespace Part

/-- The statements of a part. -/
def statements : Part → List Statement
  | plain key value => [.assignment ⟨[], key⟩ value]
  | dotted name key value => [.assignment ⟨[name], key⟩ value]
  | braces name key value => [.assignment ⟨[], name⟩ (.table .inline [(key, value)])]
  | headed name key value => [.header ⟨[], name⟩, .assignment ⟨[], key⟩ value]

/-- The entry that a part makes in the tree of the document. -/
def entry : Part → String × Value
  | plain key value => (key, value)
  | dotted name key value => (name, .table .dotted [(key, value)])
  | braces name key value => (name, .table .inline [(key, value)])
  | headed name key value => (name, .table .headed [(key, value)])

/-- The value of the setting that a part gives. -/
def value : Part → Value
  | plain _ value | dotted _ _ value | braces _ _ value | headed _ _ value => value

/-- Whether a part has a header. -/
def isHeaded : Part → Bool
  | headed .. => true
  | _ => false

/-- The forms in which a section with one setting can be given. -/
def forms (name key : String) (value : Value) : List Part :=
  [dotted name key value, braces name key value, headed name key value]

/-- In each of its forms a section is a table with its setting. -/
theorem entry_of_mem_forms {name key : String} {value : Value} {p : Part}
    (h : p ∈ forms name key value) : ∃ kind, p.entry = (name, .table kind [(key, value)]) := by
  simp only [forms, List.mem_cons, List.not_mem_nil, or_false] at h
  rcases h with rfl | rfl | rfl
  · exact ⟨.dotted, rfl⟩
  · exact ⟨.inline, rfl⟩
  · exact ⟨.headed, rfl⟩

theorem value_of_mem_forms {name key : String} {value : Value} {p : Part}
    (h : p ∈ forms name key value) : p.value = value := by
  simp only [forms, List.mem_cons, List.not_mem_nil, or_false] at h
  rcases h with rfl | rfl | rfl
  · rfl
  · rfl
  · rfl

end Part

/-- The parts give the settings: each setting once, a section in any of its forms, and all in an
order in which nothing but headers stands behind a header. -/
structure Settings.Gives (s : Settings) (parts : List Part) : Prop where
  order : parts.Pairwise fun a b => a.isHeaded = true → b.isHeaded = true
  all : ∃ repl ∈ Part.forms "repl" "prompt" (.string s.prompt),
    ∃ output ∈ Part.forms "output" "show_spans" (.boolean s.showSpans),
      parts.Perm [.plain "verbose" (.boolean s.verbose), repl, output]

/-! ## 2. Putting parts into a tree -/

namespace Toml.Entries

variable {es : Entries} {key : String}

/-- A key that was added is found. -/
theorem get?_add (h : es.get? key = none) (value : Value) :
    (es.add key value).get? key = some value := by
  rw [get?] at h
  simp [get?, add, List.lookup_append, h]

/-- A key that was added can be given another value, and no other entry changes. -/
theorem replace_add (h : es.get? key = none) (old value : Value) :
    (es.add key old).replace key value = es.add key value := by
  rw [get?_eq_none_iff] at h
  have hkeep : es.map (fun e => if e.1 == key then (key, value) else e) = es.map id :=
    List.map_congr_left fun e he => if_neg (by simpa using h e he)
  rw [replace, add, List.map_append, hkeep, List.map_id]
  simp [add]

/-- A new key is assigned its value. -/
theorem assign_new (h : es.get? key = none) (value : Value) :
    assign value key [] es = some (es.add key value) := by
  rw [assign, h]
  rfl

/-- Distinct keys are distinct in any order. -/
theorem Distinct.perm {es' : Entries} (h : es.Distinct) (hperm : es'.Perm es) : es'.Distinct where
  keys := (hperm.map Prod.fst).nodup_iff.mpr h.keys
  values := fun e he => h.values e (hperm.mem_iff.mp he)

end Toml.Entries

/-- **A part adds its entry**, if its name is new and it does not stand behind a header that is not
its own. -/
theorem Part.add_eq (p : Part) {d : Draft} (hnew : d.root.get? p.entry.1 = none)
    (hplace : d.here = [] ∨ p.isHeaded = true) :
    ∃ here, p.statements.foldlM Draft.add d = some ⟨d.root.add p.entry.1 p.entry.2, here⟩ ∧
      (here = [] ∨ p.isHeaded = true) := by
  obtain ⟨root, here⟩ := d
  cases p with
  | plain key value =>
    obtain rfl : here = [] := hplace.resolve_right (by simp [isHeaded])
    refine ⟨[], ?_, .inl rfl⟩
    have hnew : root.get? key = none := hnew
    have hassign := Entries.assign_new hnew value
    simp [statements, entry, Draft.add, Entries.atTable, hassign]
  | dotted name key value =>
    obtain rfl : here = [] := hplace.resolve_right (by simp [isHeaded])
    refine ⟨[], ?_, .inl rfl⟩
    have hnew : root.get? name = none := hnew
    have hassign : Entries.assign value key [name] root =
        some (root.add name (.table .dotted [(key, value)])) := by
      rw [Entries.assign, hnew]
      rfl
    simp [statements, entry, Draft.add, Entries.atTable, hassign]
  | braces name key value =>
    obtain rfl : here = [] := hplace.resolve_right (by simp [isHeaded])
    refine ⟨[], ?_, .inl rfl⟩
    have hnew : root.get? name = none := hnew
    have hassign := Entries.assign_new hnew (.table .inline [(key, value)])
    simp [statements, entry, Draft.add, Entries.atTable, hassign]
  | headed name key value =>
    refine ⟨[name], ?_, .inr rfl⟩
    have hnew : root.get? name = none := hnew
    have hheader : Draft.add ⟨root, here⟩ (.header ⟨[], name⟩) =
        some ⟨root.add name (.table .headed []), [name]⟩ := by
      rw [Draft.add, Entries.atTable, Entries.openTable, hnew]
      rfl
    have hassign : Draft.add ⟨root.add name (.table .headed []), [name]⟩
        (.assignment ⟨[], key⟩ value) =
        some ⟨root.add name (.table .headed [(key, value)]), [name]⟩ := by
      have hinner := @Entries.assign_new [] key rfl value
      rw [Draft.add, Entries.atTable, Entries.get?_add hnew]
      simp only [Entries.atTable, hinner, Option.map_some, Entries.replace_add hnew]
      rfl
    simp [statements, entry, hheader, hassign]

/-- Parts with different names put their entries into the tree one after the other. -/
theorem foldlM_parts {parts : List Part} {d : Draft}
    (hnames : (d.root.map Prod.fst ++ parts.map fun p => p.entry.1).Nodup)
    (horder : parts.Pairwise fun a b => a.isHeaded = true → b.isHeaded = true)
    (hplace : d.here = [] ∨ ∀ p ∈ parts, p.isHeaded = true) :
    ∃ here, (parts.flatMap Part.statements).foldlM Draft.add d =
      some ⟨d.root ++ parts.map Part.entry, here⟩ := by
  induction parts generalizing d with
  | nil => exact ⟨d.here, by simp⟩
  | cons p parts ih =>
    have hnew : d.root.get? p.entry.1 = none := by
      rw [Entries.get?_eq_none_iff]
      intro e he heq
      rw [List.nodup_append] at hnames
      exact hnames.2.2 _ (List.mem_map_of_mem he) _ List.mem_cons_self heq
    obtain ⟨here, hadd, hhere⟩ := p.add_eq hnew (hplace.imp_right fun h => h p List.mem_cons_self)
    obtain ⟨hlater, horder⟩ := List.pairwise_cons.mp horder
    have hnames' : ((d.root.add p.entry.1 p.entry.2).map Prod.fst ++
        parts.map fun p => p.entry.1).Nodup := by
      simpa [Entries.add] using hnames
    have hplace' : here = [] ∨ ∀ q ∈ parts, q.isHeaded = true :=
      hhere.imp_right fun hp q hq => hlater q hq hp
    obtain ⟨last, hrest⟩ := ih (d := ⟨d.root.add p.entry.1 p.entry.2, here⟩) hnames' horder hplace'
    refine ⟨last, ?_⟩
    rw [List.flatMap_cons, List.foldlM_append, hadd, Option.bind_eq_bind, Option.bind_some, hrest]
    simp [Entries.add]

/-- The tree of a document has the entries of its parts, in their order. -/
theorem assemble_parts {parts : List Part} (hnames : (parts.map fun p => p.entry.1).Nodup)
    (horder : parts.Pairwise fun a b => a.isHeaded = true → b.isHeaded = true) :
    assemble (parts.flatMap Part.statements) = some (parts.map Part.entry) := by
  obtain ⟨here, hfold⟩ := foldlM_parts (d := {}) (by simpa using hnames) horder (.inl rfl)
  rw [assemble, hfold]
  rfl

/-! ## 3. Reading settings off the tree -/

namespace Settings

/-- The order of the entries aside, the tree has the entries of three parts. -/
theorem Gives.entries {s : Settings} {parts : List Part} (h : s.Gives parts) :
    ∃ kind kind', (parts.map Part.entry).Perm [("verbose", .boolean s.verbose),
      ("repl", .table kind [("prompt", .string s.prompt)]),
      ("output", .table kind' [("show_spans", .boolean s.showSpans)])] := by
  obtain ⟨repl, hrepl, output, houtput, hperm⟩ := h.all
  obtain ⟨kind, hkind⟩ := Part.entry_of_mem_forms hrepl
  obtain ⟨kind', hkind'⟩ := Part.entry_of_mem_forms houtput
  refine ⟨kind, kind', ?_⟩
  have hentries := hperm.map Part.entry
  rwa [List.map_cons, List.map_cons, List.map_cons, List.map_nil, hkind, hkind'] at hentries

theorem Gives.names {s : Settings} {parts : List Part} (h : s.Gives parts) :
    (parts.map fun p => p.entry.1).Nodup := by
  obtain ⟨kind, kind', hperm⟩ := h.entries
  have hnames : (parts.map fun p => p.entry.1).Perm ["verbose", "repl", "output"] := by
    simpa [Function.comp_def] using hperm.map Prod.fst
  exact hnames.nodup_iff.mpr (by decide)

/-- The forms of the sections make no difference to the settings, nor does the order of the entries.
-/
theorem ofToml?_entries {s : Settings} {es : Entries} (h : es.Distinct) {kind kind' : TableKind}
    (hperm : es.Perm [("verbose", .boolean s.verbose),
      ("repl", .table kind [("prompt", .string s.prompt)]),
      ("output", .table kind' [("show_spans", .boolean s.showSpans)])]) :
    ofToml? es = some s := by
  rw [ofToml?_perm (h.perm hperm.symm) h hperm]
  rfl

/-- **What gives settings is read as them**, in whichever way it is written. -/
theorem Gives.parse_ok {s : Settings} {parts : List Part} (h : s.Gives parts) {text : List Char}
    (hwrites : Writes (parts.flatMap Part.statements) text) : parse text = .ok s := by
  have htree : Toml.parse text = some (parts.map Part.entry) := by
    rw [hwrites.parse_eq, assemble_parts h.names h.order]
  obtain ⟨kind, kind', hperm⟩ := h.entries
  have hsettings := ofToml?_entries (parse_distinct htree) hperm
  rw [Settings.parse_eq, htree]
  simp only [hsettings]

/-! ## 4. Writing settings -/

/-- A part can be written, whatever its form, if its value can. -/
theorem exists_spells_part {p : Part} (h : ∃ cs, SpellsScalar p.value cs) :
    ∀ st ∈ p.statements, ∃ cs, SpellsStatement st cs := by
  have hassign {key : Key} {value : Value} (hvalue : ∃ cs, SpellsValue value cs)
      (hdepth : key.parents.length + 1 < depthLimit) :
      ∃ cs, SpellsStatement (.assignment key value) cs := by
    obtain ⟨cs, hcs⟩ := exists_spellsAssignment hvalue hdepth
    exact ⟨cs, .assignment hcs⟩
  intro st hst
  cases p with
  | plain key value =>
    obtain ⟨v, hv⟩ := h
    rw [List.mem_singleton.mp hst]
    exact hassign ⟨v, .scalar hv⟩ (by simp [depthLimit])
  | dotted name key value =>
    obtain ⟨v, hv⟩ := h
    rw [List.mem_singleton.mp hst]
    exact hassign ⟨v, .scalar hv⟩ (by simp [depthLimit])
  | braces name key value =>
    have hdepth : (⟨[], key⟩ : Key).parents.length + 1 < depthLimit := by simp [depthLimit]
    obtain ⟨cs, hcs⟩ := exists_spellsAssignment h hdepth
    rw [List.mem_singleton.mp hst]
    exact hassign ⟨_, .braces .nil .nil hcs⟩ (by simp [depthLimit])
  | headed name key value =>
    obtain ⟨v, hv⟩ := h
    simp only [Part.statements, List.mem_cons, List.not_mem_nil, or_false] at hst
    rcases hst with rfl | rfl
    · obtain ⟨k, hk⟩ := exists_spellsKey [] name
      exact ⟨_, .header hk (by simp [depthLimit]) .nil .nil⟩
    · exact hassign ⟨v, .scalar hv⟩ (by simp [depthLimit])

/-- The settings can be written in every form and order in which they can be given. -/
theorem Gives.exists_writes {s : Settings} {parts : List Part} (h : s.Gives parts) :
    ∃ text : String, Writes (parts.flatMap Part.statements) text.toList := by
  obtain ⟨repl, hrepl, output, houtput, hperm⟩ := h.all
  have hvalue : ∀ p ∈ parts, ∃ cs, SpellsScalar p.value cs := by
    intro p hp
    have hmem := hperm.mem_iff.mp hp
    simp only [List.mem_cons, List.not_mem_nil, or_false] at hmem
    rcases hmem with rfl | rfl | rfl
    · exact exists_spellsScalar_boolean s.verbose
    · rw [Part.value_of_mem_forms hrepl]
      exact exists_spellsScalar_string s.prompt
    · rw [Part.value_of_mem_forms houtput]
      exact exists_spellsScalar_boolean s.showSpans
  have hstatements : ∀ st ∈ parts.flatMap Part.statements, ∃ cs, SpellsStatement st cs := by
    intro st hst
    obtain ⟨p, hp, hst⟩ := List.mem_flatMap.mp hst
    exact exists_spells_part (hvalue p hp) st hst
  obtain ⟨text, htext⟩ := exists_lines hstatements
  refine ⟨String.ofList text, ?_⟩
  rw [String.toList_ofList]
  exact .plain htext

/-- Whatever the forms of the two sections, there is an order in which they can stand. -/
theorem exists_gives (s : Settings) {repl output : Part}
    (hrepl : repl ∈ Part.forms "repl" "prompt" (.string s.prompt))
    (houtput : output ∈ Part.forms "output" "show_spans" (.boolean s.showSpans)) :
    ∃ parts, s.Gives parts ∧ repl ∈ parts ∧ output ∈ parts := by
  have hplain : (Part.plain "verbose" (.boolean s.verbose)).isHeaded = false := rfl
  by_cases hheaded : repl.isHeaded = true
  · refine ⟨[.plain "verbose" (.boolean s.verbose), output, repl], ⟨?_, ?_⟩, by simp, by simp⟩
    · simp [hplain, hheaded]
    · exact ⟨repl, hrepl, output, houtput, (List.Perm.swap repl output []).cons _⟩
  · refine ⟨[.plain "verbose" (.boolean s.verbose), repl, output], ⟨?_, ?_⟩, by simp, by simp⟩
    · simp [hplain, hheaded]
    · exact ⟨repl, hrepl, output, houtput, .refl _⟩

/-- **Settings are read back.**  A text that gives the three settings, with the sections in any
forms and everything in any order that these allow, is read as the settings, however it is written:
with any escapes in the prompt, any keys in quotes, any blanks, empty lines and comments, either
line end on each line, and a byte order mark or none.  All settings can be given in all forms, and
whatever gives them can be written. -/
theorem parse_written :
    (∀ (s : Settings) (parts : List Part) (text : String), s.Gives parts →
      Writes (parts.flatMap Part.statements) text.toList → parse text.toList = .ok s) ∧
    (∀ (s : Settings) (parts : List Part), s.Gives parts →
      ∃ text : String, Writes (parts.flatMap Part.statements) text.toList) ∧
    ∀ (s : Settings), ∀ repl ∈ Part.forms "repl" "prompt" (.string s.prompt),
      ∀ output ∈ Part.forms "output" "show_spans" (.boolean s.showSpans),
        ∃ parts, s.Gives parts ∧ repl ∈ parts ∧ output ∈ parts := by
  refine ⟨?_, ?_, ?_⟩
  · intro s parts text hgives hwrites
    exact hgives.parse_ok hwrites
  · intro s parts hgives
    exact hgives.exists_writes
  · intro s repl hrepl output houtput
    exact s.exists_gives hrepl houtput

/-- A prompt of a quote, a backslash, a line feed, U+0000 and more, behind a byte order mark, with
both line ends, comments, and a key in quotes. -/
theorem parse_written_unusual_prompt :
    let s : Settings := ⟨true, "\"\\\n\x00é#]", false⟩
    let parts : List Part :=
      [.plain "verbose" (.boolean true), .headed "output" "show_spans" (.boolean false),
        .headed "repl" "prompt" (.string s.prompt)]
    let text := "\uFEFF# all\r\nverbose = true\n\t[output] # spans\nshow_spans = false\r\n" ++
      "[ 'repl' ]\nprompt = \"\\\"\\\\\\n\\u0000é#]\""
    s.Gives parts ∧ Writes (parts.flatMap Part.statements) text.toList ∧
      parse text.toList = .ok s := by
  intro s parts text
  have hgives : s.Gives parts := by
    refine ⟨?_, .headed "repl" "prompt" (.string s.prompt), by simp [Part.forms],
      .headed "output" "show_spans" (.boolean s.showSpans), by simp [Part.forms], ?_⟩
    · simp [parts, Part.isHeaded]
    · exact (List.Perm.swap _ _ []).cons _
  have hblank : Blanks [' '] := by simp [Blanks, isSpace]
  have htab : Blanks ['\t'] := by simp [Blanks, isSpace]
  have hbare {k : String} (hne : k ≠ "") (hall : k.toList.all isBareKey = true) :
      SpellsKey ⟨[], k⟩ k.toList := .one (.bare hne (List.all_eq_true.mp hall))
  have hassign {key : Key} {value : Value} {k v : List Char} (hkey : SpellsKey key k)
      (hdepth : key.parents.length + 1 < depthLimit) (hvalue : SpellsScalar value v) :
      SpellsStatement (.assignment key value) (k ++ ([' '] ++ '=' :: ([' '] ++ v))) :=
    .assignment (.assign hkey hdepth hblank hblank (.scalar hvalue))
  have hverbose := hassign (hbare (k := "verbose") (by decide) (by decide)) (by decide) .yes
  have hspans := hassign (hbare (k := "show_spans") (by decide) (by decide)) (by decide) .no
  have houtput : SpellsStatement (.header ⟨[], "output"⟩) "[output]".toList :=
    @SpellsStatement.header ⟨[], "output"⟩ [] [] _ (hbare (by decide) (by decide)) (by decide)
      .nil .nil
  have hrepl : SpellsStatement (.header ⟨[], "repl"⟩) "[ 'repl' ]".toList :=
    @SpellsStatement.header ⟨[], "repl"⟩ [' '] [' '] "'repl'".toList
      (.one (.literal (k := "repl") (by simp [isText]))) (by decide) hblank hblank
  have hnull : HexNumber ['0', '0', '0', '0'] 0 :=
    .snoc (k := 0) (.snoc (k := 0) (.snoc (k := 0) (.snoc (k := 0) .nil (.inl rfl)) (.inl rfl))
      (.inl rfl)) (.inl rfl)
  have hquote : SpellsChar '"' ['\\', '"'] := .letter (by decide)
  have hslash : SpellsChar '\\' ['\\', '\\'] := .letter (by decide)
  have hfeed : SpellsChar '\n' ['\\', 'n'] := .letter (by decide)
  have hzero : SpellsChar '\x00' ['\\', 'u', '0', '0', '0', '0'] := .short rfl hnull
  have haccent : SpellsChar 'é' ['é'] := .plain (by decide) (by decide) (by decide)
  have hhash : SpellsChar '#' ['#'] := .plain (by decide) (by decide) (by decide)
  have hbracket : SpellsChar ']' [']'] := .plain (by decide) (by decide) (by decide)
  have hchars : s.prompt.toList = ['"', '\\', '\n', '\x00', 'é', '#', ']'] := by decide +kernel
  have hbody := SpellsBody.cons hquote (.cons hslash (.cons hfeed (.cons hzero (.cons haccent
    (.cons hhash (.cons hbracket .nil))))))
  rw [← hchars] at hbody
  have hprompt := hassign (hbare (k := "prompt") (by decide) (by decide)) (by decide)
    (.string (.quotes hbody))
  have hall : Trailer "# all".toList := @Trailer.comment [] " all".toList .nil (by simp [isText])
  have hcomment : Trailer " # spans".toList :=
    @Trailer.comment [' '] " spans".toList hblank (by simp [isText])
  have hempty : Trailer [] := .blanks .nil
  have hlines := Writes.marked (.fill hall .carriageReturn (.line .nil hverbose hempty .lineFeed
    (.line htab houtput hcomment .lineFeed (.line .nil hspans hempty .carriageReturn
      (.line .nil hrepl hempty .lineFeed (.last .nil hprompt hempty))))))
  have hwrites : Writes (parts.flatMap Part.statements) text.toList := by
    refine Eq.subst (motive := Writes _) ?_ hlines
    decide +kernel
  exact ⟨hgives, hwrites, parse_written.1 s parts text hgives hwrites⟩

end Settings

end CpScan
