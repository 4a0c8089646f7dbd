/-
# Ways of writing a command line

The same things can be given in many ways: a flag by its letter or its name, a settings file in
one argument with its option or in the next, several letters joined, and all of it in any order.
`Phrase` lists the ways of writing, and what each gives; phrases may stand in any order
(`Phrases`), and files may stand behind two hyphens (`Spells`).

What is spelled is what is given (`Spells.givens_eq`), so the way of writing is forgotten before
anything is decided.  Of things that are spelled, no name is missing or empty (`Given.Sound`), and
the only reason to halt that is left is an item that is given twice (`firstHalt?_of_sound`).

The environment is a third way of giving an option (`FlagBy`, `ConfigBy`).  The main result,
`settings_by_any_spelling`, puts the three together.
-/
import CpScan.Proofs.Program.ExitStatus
import Mathlib.Data.List.Nodup

namespace CpScan.CommandLine

/-! ## 1. Ways of writing -/

/-- What the name of a settings file may be: not empty, and without a hyphen at its front. -/
structure IsName (name : String) : Prop where
  nonempty : name ≠ ""
  front : name.toList.head? ≠ some '-'

/-- What the name of a source file may be before two hyphens: a hyphen by itself too. -/
def IsPlainFile (name : String) : Prop := name = "-" ∨ IsName name

/-- The letter of the flag `verbose`, so many times. -/
def letters (n : Nat) : String := String.ofList (List.replicate n 'v')

/-- One way of writing, and what it gives.  In a short form, the flag `verbose` can be joined in
front. -/
inductive Phrase : List Given → List String → Prop
  | verbose : Phrase [.verbose] ["--verbose"]
  | noColor : Phrase [.noColor] ["--no-color"]
  | joined (n : Nat) : Phrase (List.replicate (n + 1) .verbose) ["-" ++ letters (n + 1)]
  | configNext {name : String} (h : IsName name) :
    Phrase [.config (some name)] ["--config", name]
  | configEqual {name : String} (h : IsName name) :
    Phrase [.config (some name)] ["--config=" ++ name]
  | shortNext (n : Nat) {name : String} (h : IsName name) :
    Phrase (List.replicate n .verbose ++ [.config (some name)]) ["-" ++ letters n ++ "c", name]
  | shortEqual (n : Nat) {name : String} (h : IsName name) :
    Phrase (List.replicate n .verbose ++ [.config (some name)]) ["-" ++ letters n ++ "c=" ++ name]
  | shortAttached (n : Nat) {name : String} (h : IsName name)
    (hequal : name.toList.head? ≠ some '=') :
    Phrase (List.replicate n .verbose ++ [.config (some name)]) ["-" ++ letters n ++ "c" ++ name]
  | file {name : String} (h : IsPlainFile name) : Phrase [.file name] [name]

/-- Phrases in any order. -/
inductive Phrases : List Given → List String → Prop
  | nil : Phrases [] []
  | cons {gs hs : List Given} {front back : List String} (h : Phrase gs front)
    (more : Phrases hs back) : Phrases (gs ++ hs) (front ++ back)

/-- Phrases, and maybe two hyphens and files with any names behind them. -/
inductive Spells : List Given → List String → Prop
  | phrases {gs : List Given} {arguments : List String} (h : Phrases gs arguments) :
    Spells gs arguments
  | ends {gs : List Given} {arguments names : List String} (h : Phrases gs arguments)
    (hnames : ∀ name ∈ names, name ≠ "") :
    Spells (gs ++ names.map .file) (arguments ++ "--" :: names)

/-! ## 2. What is written is what is given -/

theorem form_long {argument : String} {c : Char} {text : List Char}
    (h : argument.toList = '-' :: '-' :: c :: text) : form argument = .long (c :: text) := by
  have hne : argument ≠ "--" := by
    rintro rfl
    simp at h
  simp only [form, if_neg hne, h]

theorem form_short {argument : String} {c : Char} {text : List Char}
    (h : argument.toList = '-' :: c :: text) (hc : c ≠ '-') : form argument = .short c text := by
  have hne : argument ≠ "--" := by
    rintro rfl
    exact hc (List.cons.inj (List.cons.inj h).2).1.symm
  rw [form, if_neg hne, h]
  split
  · next heq => exact absurd (List.cons.inj (List.cons.inj heq).2).1 hc
  · next heq =>
    obtain ⟨-, htail⟩ := List.cons.inj heq
    obtain ⟨rfl, rfl⟩ := List.cons.inj htail
    rfl
  · next hnot => exact absurd rfl (hnot c text)

theorem form_plain {name : String} (h : IsPlainFile name) : form name = .plain := by
  rcases h with rfl | ⟨hne, hfront⟩
  · decide
  · have hends : name ≠ "--" := by
      rintro rfl
      exact hfront (by decide)
    rw [form, if_neg hends]
    split
    · next heq => exact absurd (by rw [heq]; rfl) hfront
    · next heq => exact absurd (by rw [heq]; rfl) hfront
    · rfl

@[simp] theorem letters_toList (n : Nat) : (letters n).toList = List.replicate n 'v' :=
  String.toList_ofList

/-- Letters of the flag in front of others. -/
theorem givenShort_letters (n : Nat) (more : List Char) :
    givenShort (List.replicate n 'v' ++ more) =
      (List.replicate n .verbose ++ (givenShort more).1, (givenShort more).2) := by
  induction n with
  | zero => rfl
  | succ n ih =>
    have hcons : givenShort ('v' :: (List.replicate n 'v' ++ more)) =
        (.verbose :: (givenShort (List.replicate n 'v' ++ more)).1,
          (givenShort (List.replicate n 'v' ++ more)).2) := by
      rw [givenShort]
    rw [List.replicate_succ, List.cons_append, hcons, ih, List.replicate_succ, List.cons_append]

/-- The settings file right behind its letter. -/
theorem givenShort_attached {name : List Char} (hne : name ≠ []) (hequal : name.head? ≠ some '=') :
    givenShort ('c' :: name) = ([.config (some (String.ofList name))], false) := by
  cases name with
  | nil => exact absurd rfl hne
  | cons c name =>
    rw [givenShort]
    · simp
    · rintro value heq
      exact hequal (by rw [heq]; rfl)

/-- A cluster of short options whose first letters are those of the flag. -/
theorem givens_cluster (n : Nat) {c : Char} {text : List Char} (hc : c ≠ '-') {argument : String}
    (h : argument.toList = '-' :: (List.replicate n 'v' ++ c :: text)) (rest : List String) :
    givens false (argument :: rest) =
      List.replicate n .verbose ++
        ((givenShort (c :: text)).1 ++ givens (givenShort (c :: text)).2 rest) := by
  have hform : ∃ d more, form argument = .short d more ∧
      d :: more = List.replicate n 'v' ++ c :: text := by
    cases n with
    | zero => exact ⟨c, text, form_short h hc, rfl⟩
    | succ n => exact ⟨'v', _, form_short h (by decide), rfl⟩
  obtain ⟨d, more, hform, hmore⟩ := hform
  rw [givens, hform]
  simp only [hmore, givenShort_letters, unmet, Bool.false_eq_true, if_false, List.nil_append,
    List.append_assoc]

/-- A name in the argument behind its option. -/
theorem givens_name {name : String} (h : IsName name) (rest : List String) :
    givens true (name :: rest) = .config (some name) :: givens false rest := by
  rw [givens, form_plain (.inr h)]
  rfl

/-- **A phrase gives what it says**, whatever stands behind it. -/
theorem Phrase.givens_append {gs : List Given} {arguments : List String} (h : Phrase gs arguments)
    (rest : List String) : givens false (arguments ++ rest) = gs ++ givens false rest := by
  cases h with
  | verbose => rfl
  | noColor => rfl
  | joined n =>
    have hlist : ("-" ++ letters (n + 1)).toList = '-' :: (List.replicate n 'v' ++ 'v' :: []) := by
      simp [List.replicate_succ']
    rw [List.singleton_append, givens_cluster n (by decide) hlist, List.replicate_succ']
    simp [givenShort]
  | configNext hname =>
    have hgo : ∀ more, givens false ("--config" :: more) = givens true more := fun _ => rfl
    rw [List.cons_append, hgo, List.singleton_append, givens_name hname, List.singleton_append]
  | @configEqual name hname =>
    have hlist : ("--config=" ++ name).toList =
        '-' :: '-' :: 'c' :: ("onfig=".toList ++ name.toList) := by simp
    rw [List.singleton_append, givens, form_long hlist]
    simp [givenLong, unmet]
  | @shortNext n name hname =>
    have hlist : ("-" ++ letters n ++ "c").toList = '-' :: (List.replicate n 'v' ++ 'c' :: []) := by
      simp
    rw [List.cons_append, givens_cluster n (by decide) hlist, List.singleton_append]
    simp [givenShort, givens_name hname]
  | @shortEqual n name hname =>
    have hlist : ("-" ++ letters n ++ "c=" ++ name).toList =
        '-' :: (List.replicate n 'v' ++ 'c' :: ('=' :: name.toList)) := by simp
    rw [List.singleton_append, givens_cluster n (by decide) hlist]
    simp [givenShort]
  | @shortAttached n name hname hequal =>
    have hlist : ("-" ++ letters n ++ "c" ++ name).toList =
        '-' :: (List.replicate n 'v' ++ 'c' :: name.toList) := by simp
    have hne : name.toList ≠ [] := fun hnil => hname.nonempty (String.toList_eq_nil_iff.mp hnil)
    rw [List.singleton_append, givens_cluster n (by decide) hlist, givenShort_attached hne hequal]
    simp
  | @file name hname =>
    rw [List.singleton_append, givens, form_plain hname]
    rfl

/-- Phrases give what they say, one after the other. -/
theorem Phrases.givens_append {gs : List Given} {arguments : List String}
    (h : Phrases gs arguments) (rest : List String) :
    givens false (arguments ++ rest) = gs ++ givens false rest := by
  induction h with
  | nil => rfl
  | cons hphrase _ ih => rw [List.append_assoc, hphrase.givens_append, ih, List.append_assoc]

/-- **What is spelled is given first**, and nothing else if nothing follows. -/
theorem Spells.givens_append {gs : List Given} {arguments : List String} (h : Spells gs arguments)
    (rest : List String) :
    ∃ more, givens false (arguments ++ rest) = gs ++ more ∧ (rest = [] → more = []) := by
  cases h with
  | phrases h =>
    refine ⟨givens false rest, h.givens_append rest, ?_⟩
    rintro rfl
    rfl
  | @ends gs arguments names h hnames =>
    have hends : givens false ("--" :: (names ++ rest)) = (names ++ rest).map .file := rfl
    refine ⟨rest.map .file, ?_, ?_⟩
    · rw [List.append_assoc, List.cons_append, h.givens_append, hends, List.map_append,
        List.append_assoc]
    · rintro rfl
      rfl

/-! ## 3. Things that are sound by themselves -/

/-- What something that is given is about. -/
def Given.item? : Given → Option Item
  | verbose => some .verbose
  | noColor => some .noColor
  | help => some .help
  | version => some .version
  | config _ => some .config
  | file _ => some .file
  | wrong => none

/-- Nothing is missing or empty, no help is asked for, and nothing is wrong. -/
def Given.Sound : Given → Prop
  | verbose => True
  | noColor => True
  | config value => ∃ name, value = some name ∧ name ≠ ""
  | file name => name ≠ ""
  | _ => False

/-- Each item is given at most once. -/
def AtMostOnce (gs : List Given) : Prop := (gs.map Given.item?).Nodup

instance (gs : List Given) : Decidable (AtMostOnce gs) :=
  inferInstanceAs (Decidable (gs.map Given.item?).Nodup)

theorem Phrase.sound {gs : List Given} {arguments : List String} (h : Phrase gs arguments) :
    ∀ g ∈ gs, g.Sound := by
  have hcluster (n : Nat) {name : String} (h : IsName name) :
      ∀ g ∈ List.replicate n Given.verbose ++ [Given.config (some name)], g.Sound := by
    intro g hg
    rcases List.mem_append.mp hg with hg | hg
    · rw [List.eq_of_mem_replicate hg]
      trivial
    · rw [List.mem_singleton.mp hg]
      exact ⟨name, rfl, h.nonempty⟩
  cases h with
  | verbose => simp [Given.Sound]
  | noColor => simp [Given.Sound]
  | joined n =>
    intro g hg
    rw [List.eq_of_mem_replicate hg]
    trivial
  | configNext h => exact hcluster 0 h
  | configEqual h => exact hcluster 0 h
  | shortNext n h => exact hcluster n h
  | shortEqual n h => exact hcluster n h
  | shortAttached n h _ => exact hcluster n h
  | @file name h =>
    have hne : name ≠ "" := by
      rcases h with rfl | h
      · decide
      · exact h.nonempty
    simpa [Given.Sound] using hne

theorem Phrases.sound {gs : List Given} {arguments : List String} (h : Phrases gs arguments) :
    ∀ g ∈ gs, g.Sound := by
  induction h with
  | nil => simp
  | cons hphrase _ ih =>
    intro g hg
    exact (List.mem_append.mp hg).elim (hphrase.sound g) (ih g)

theorem Spells.sound {gs : List Given} {arguments : List String} (h : Spells gs arguments) :
    ∀ g ∈ gs, g.Sound := by
  cases h with
  | phrases h => exact h.sound
  | ends h hnames =>
    intro g hg
    rcases List.mem_append.mp hg with hg | hg
    · exact h.sound g hg
    · obtain ⟨name, hname, rfl⟩ := List.mem_map.mp hg
      exact hnames name hname

variable {before gs : List Given} {g : Given}

/-- Among sound things, the settings file is known if there is one. -/
theorem findSome?_config_isSome_iff (h : ∀ g ∈ before, g.Sound) :
    (before.findSome? Given.config?).isSome ↔ some Item.config ∈ before.map Given.item? := by
  rw [List.findSome?_isSome_iff, List.mem_map]
  refine exists_congr fun g => and_congr_right fun hg => ?_
  cases g with
  | config value =>
    obtain ⟨name, rfl, -⟩ := h _ hg
    simp [Given.config?, Given.item?]
  | _ => simp [Given.config?, Given.item?]

theorem findSome?_file_isSome_iff :
    (before.findSome? Given.file?).isSome ↔ some Item.file ∈ before.map Given.item? := by
  rw [List.findSome?_isSome_iff, List.mem_map]
  refine exists_congr fun g => and_congr_right fun _ => ?_
  cases g <;> simp [Given.file?, Given.item?]

/-- A flag is given if its item is. -/
theorem mem_flag_iff {flag : Given} (hflag : flag = .verbose ∨ flag = .noColor) :
    flag ∈ before ↔ flag.item? ∈ before.map Given.item? := by
  rw [List.mem_map]
  refine ⟨fun h => ⟨flag, h, rfl⟩, ?_⟩
  rintro ⟨g, hg, hitem⟩
  -- no two things are about the item of a flag
  have hsame : g = flag := by
    rcases hflag with rfl | rfl
    · cases g with
      | verbose => rfl
      | _ => cases hitem
    · cases g with
      | noColor => rfl
      | _ => cases hitem
  rwa [hsame] at hg

/-- Sound things are about options and files. -/
theorem item?_of_sound (h : ∀ g ∈ before, g.Sound) {item : Option Item}
    (hitem : item ∈ before.map Given.item?) :
    item ∈ [some Item.verbose, some Item.noColor, some Item.config, some Item.file] := by
  obtain ⟨g, hg, rfl⟩ := List.mem_map.mp hitem
  have hsound := h g hg
  cases g with
  | help => exact hsound.elim
  | version => exact hsound.elim
  | wrong => exact hsound.elim
  | _ => simp [Given.item?]

/-- **An item that is given again is wrong**, however it is given. -/
theorem halt?_of_repeated (h : ∀ g ∈ before, g.Sound) (hg : g.item? ∈ before.map Given.item?) :
    g.halt? before = some .wrong := by
  cases g with
  | verbose => exact if_pos ((mem_flag_iff (.inl rfl)).mpr hg)
  | noColor => exact if_pos ((mem_flag_iff (.inr rfl)).mpr hg)
  | config value =>
    cases value with
    | none => rfl
    | some name => exact if_pos (.inr ((findSome?_config_isSome_iff h).mpr hg))
  | file name => exact if_pos (.inr (findSome?_file_isSome_iff.mpr hg))
  | help => exact absurd (item?_of_sound h hg) (by decide)
  | version => exact absurd (item?_of_sound h hg) (by decide)
  | wrong => exact absurd (item?_of_sound h hg) (by decide)

/-- Something sound that is given for the first time is fine. -/
theorem halt?_of_first (h : ∀ g ∈ before, g.Sound) (hg : g.Sound)
    (hfirst : g.item? ∉ before.map Given.item?) : g.halt? before = none := by
  cases g with
  | verbose => exact if_neg fun hmem => hfirst ((mem_flag_iff (.inl rfl)).mp hmem)
  | noColor => exact if_neg fun hmem => hfirst ((mem_flag_iff (.inr rfl)).mp hmem)
  | config value =>
    obtain ⟨name, rfl, hname⟩ := hg
    have hnone : ¬ (before.findSome? Given.config?).isSome = true :=
      fun hsome => hfirst ((findSome?_config_isSome_iff h).mp hsome)
    exact if_neg (not_or.mpr ⟨hname, hnone⟩)
  | file name =>
    exact if_neg (not_or.mpr ⟨hg, fun hsome => hfirst (findSome?_file_isSome_iff.mp hsome)⟩)
  | help => exact hg.elim
  | version => exact hg.elim
  | wrong => exact hg.elim

theorem atMostOnce_concat (h : AtMostOnce before) (hfirst : g.item? ∉ before.map Given.item?) :
    AtMostOnce (before ++ [g]) := by
  rw [AtMostOnce, List.map_append, List.map_singleton, List.nodup_append]
  refine ⟨h, List.nodup_singleton _, ?_⟩
  rintro item hitem other hother rfl
  rw [List.mem_singleton] at hother
  exact hfirst (hother ▸ hitem)

/-- Sound things, each given once, are no reason to halt. -/
theorem firstHalt?_of_once (h : ∀ g ∈ before ++ gs, g.Sound) (honce : AtMostOnce (before ++ gs)) :
    firstHalt? before gs = none := by
  induction gs generalizing before with
  | nil => rfl
  | cons g gs ih =>
    have hfirst : g.item? ∉ before.map Given.item? := by
      intro hmem
      rw [AtMostOnce, List.map_append, List.nodup_append] at honce
      exact honce.2.2 _ hmem _ List.mem_cons_self rfl
    have hsound : ∀ g ∈ before, g.Sound := fun g hg => h g (List.mem_append_left _ hg)
    have hhalt := halt?_of_first hsound (h g (by simp)) hfirst
    rw [List.append_cons] at h honce
    rw [firstHalt?, hhalt, Option.none_or, ih h honce]

/-- **Sound things of which one is given twice are wrong.** -/
theorem firstHalt?_of_twice (h : ∀ g ∈ before ++ gs, g.Sound) (hbefore : AtMostOnce before)
    (htwice : ¬ AtMostOnce (before ++ gs)) : firstHalt? before gs = some .wrong := by
  induction gs generalizing before with
  | nil => exact absurd hbefore (by rwa [List.append_nil] at htwice)
  | cons g gs ih =>
    have hsound : ∀ g ∈ before, g.Sound := fun g hg => h g (List.mem_append_left _ hg)
    by_cases hfirst : g.item? ∈ before.map Given.item?
    · rw [firstHalt?, halt?_of_repeated hsound hfirst, Option.some_or]
    · have hhalt := halt?_of_first hsound (h g (by simp)) hfirst
      rw [List.append_cons] at h htwice
      rw [firstHalt?, hhalt, Option.none_or, ih h (atMostOnce_concat hbefore hfirst) htwice]

/-- What is no reason to halt is sound. -/
theorem sound_of_firstHalt? (h : firstHalt? before gs = none) : ∀ g ∈ gs, g.Sound := by
  induction gs generalizing before with
  | nil => simp
  | cons g gs ih =>
    rw [firstHalt?, Option.or_eq_none_iff] at h
    have hg : g.Sound := by
      have hhalt := h.1
      cases g with
      | verbose => trivial
      | noColor => trivial
      | help => cases hhalt
      | version => cases hhalt
      | wrong => cases hhalt
      | config value =>
        cases value with
        | none => cases hhalt
        | some name =>
          refine ⟨name, rfl, ?_⟩
          rintro rfl
          simp [Given.halt?] at hhalt
      | file name =>
        rintro rfl
        simp [Given.halt?] at hhalt
    intro g' hg'
    rcases List.mem_cons.mp hg' with rfl | hg'
    · exact hg
    · exact ih h.2 g' hg'

/-! ## 4. The environment as another way -/

/-- How a flag is asked for: by the arguments, and then its variable does not count, or by its
variable. -/
inductive FlagBy (given : Prop) (inEnv : Option String) : Bool → Prop
  | argument (h : given) : FlagBy given inEnv true
  | environment (h : ¬ given) (hvalue : inEnv = some "true") : FlagBy given inEnv true
  | absent (h : ¬ given) (hvalue : inEnv = none) : FlagBy given inEnv false
  | off (h : ¬ given) (hvalue : inEnv = some "false") : FlagBy given inEnv false

/-- How a settings file is asked for: by the arguments, and then the variable does not count, or by
the variable. -/
inductive ConfigBy (gs : List Given) (inEnv : Option String) : Option String → Prop
  | argument {name : String} (h : .config (some name) ∈ gs) : ConfigBy gs inEnv (some name)
  | environment {name : String} (h : ∀ value, .config value ∉ gs) (hvalue : inEnv = some name)
    (hname : IsName name) : ConfigBy gs inEnv (some name)
  | absent (h : ∀ value, .config value ∉ gs) (hvalue : inEnv = none) :
    ConfigBy gs inEnv none

/-- The options that are asked for by what is given and by the environment. -/
structure Asked (o : Options) (gs : List Given) (env : Environment) : Prop where
  file : ∀ name, o.file = some name ↔ .file name ∈ gs
  verbose : FlagBy (.verbose ∈ gs) env.verbose o.verbose
  config : ConfigBy gs env.config o.config
  noColor : FlagBy (.noColor ∈ gs) env.noColor o.noColor

/-- A flag is what is asked for, and its variable can be read where it counts. -/
theorem FlagBy.eq {given : Prop} [Decidable given] {inEnv : Option String} {flag : Bool}
    (h : FlagBy given inEnv flag) :
    (decide given || inEnv == some "true") = flag ∧
      (decide given = false → FlagFits inEnv) := by
  cases h with
  | argument h => simp [h]
  | environment h hvalue => simp [h, hvalue, FlagFits]
  | absent h hvalue => simp [h, hvalue, FlagFits]
  | off h hvalue => simp [h, hvalue, FlagFits]

theorem findSome?_config_eq_none (h : ∀ value, .config value ∉ gs) :
    gs.findSome? Given.config? = none := by
  rw [List.findSome?_eq_none_iff]
  intro g hg
  cases g with
  | config value => exact absurd hg (h value)
  | _ => rfl

/-- A settings file that is given once is the one that is given. -/
theorem findSome?_config_eq_some (honce : AtMostOnce gs) {name : String}
    (h : .config (some name) ∈ gs) : gs.findSome? Given.config? = some name := by
  cases hfind : gs.findSome? Given.config? with
  | none => exact absurd (List.findSome?_eq_none_iff.mp hfind _ h) (by simp [Given.config?])
  | some other =>
    obtain ⟨g, hg, hother⟩ := List.exists_of_findSome?_eq_some hfind
    cases g with
    | config value =>
      have hsame := List.inj_on_of_nodup_map honce hg h rfl
      cases hsame
      exact hother.symm
    | _ => cases hother

theorem ConfigBy.eq {inEnv config : Option String} (honce : AtMostOnce gs)
    (h : ConfigBy gs inEnv config) :
    (gs.findSome? Given.config?).or inEnv = config ∧
      (gs.findSome? Given.config? = none → inEnv ≠ some "") := by
  cases h with
  | argument h => simp [findSome?_config_eq_some honce h]
  | environment h hvalue hname => simp [findSome?_config_eq_none h, hvalue, hname.nonempty]
  | absent h hvalue => simp [findSome?_config_eq_none h, hvalue]

theorem findSome?_file_eq {file : Option String} (h : ∀ name, file = some name ↔ .file name ∈ gs) :
    gs.findSome? Given.file? = file := by
  cases hfind : gs.findSome? Given.file? with
  | none =>
    refine (Option.eq_none_iff_forall_ne_some.mpr fun name hname => ?_).symm
    have hnone := List.findSome?_eq_none_iff.mp hfind _ ((h name).mp hname)
    cases hnone
  | some name =>
    obtain ⟨g, hg, hname⟩ := List.exists_of_findSome?_eq_some hfind
    cases g with
    | file other =>
      cases hname
      exact ((h name).mpr hg).symm
    | _ => cases hname

/-- **What is asked for is what comes out.** -/
theorem Asked.completed_eq {o : Options} {env : Environment} (honce : AtMostOnce gs)
    (h : Asked o gs env) : (Options.given gs).completed env = o ∧ env.Fits (Options.given gs) := by
  obtain ⟨hverbose, hverboseFits⟩ := h.verbose.eq
  obtain ⟨hnoColor, hnoColorFits⟩ := h.noColor.eq
  obtain ⟨hconfig, hconfigFits⟩ := h.config.eq honce
  refine ⟨?_, hverboseFits, hconfigFits, hnoColorFits⟩
  simp only [Options.completed, Options.given, findSome?_file_eq h.file, hverbose, hconfig,
    hnoColor]

/-! ## 5. Any spelling -/

/-- The command line of a run is wrong, and the run ends with 64. -/
def IsUsageError (i : Invocation) : Prop :=
  (∃ error, parse i.arguments i.env = .error (.usage error)) ∧ (Program.run i).exitStatus = 64

theorem isUsageError_of_wrong {i : Invocation}
    (h : firstHalt? [] (givens false i.arguments) = some .wrong) : IsUsageError i := by
  have hrefused : Program.Refused i := .inl h
  exact ⟨hrefused.parse, hrefused.run.1⟩

/-- **Settings do not depend on how they are given.**  Arguments that spell things, each at most
once, in any way and any order, together with an environment that gives the others, are read as the
options that are asked for.  Arguments that spell something twice are an error whatever follows them
and whatever the environment.  So is any argument list in which something is given again, even if
its value is missing or empty, before there is another reason to halt. -/
theorem settings_by_any_spelling :
    (∀ (o : Options) (gs : List Given) (arguments : List String) (env : Environment),
      Spells gs arguments → AtMostOnce gs → Asked o gs env → parse arguments env = .ok o) ∧
    (∀ (gs : List Given) (arguments rest : List String), Spells gs arguments → ¬ AtMostOnce gs →
      ∀ i : Invocation, i.arguments = arguments ++ rest → IsUsageError i) ∧
    ∀ (i : Invocation) (before more : List Given) (g : Given),
      givens false i.arguments = before ++ g :: more → firstHalt? [] before = none →
      g.item? ∈ before.map Given.item? → IsUsageError i := by
  refine ⟨?_, ?_, ?_⟩
  · intro o gs arguments env hspells honce hasked
    obtain ⟨more, hgivens, hmore⟩ := hspells.givens_append []
    rw [List.append_nil, hmore rfl, List.append_nil] at hgivens
    obtain ⟨hcompleted, hfits⟩ := hasked.completed_eq honce
    rw [← hgivens] at hcompleted hfits
    have hnone : firstHalt? [] (givens false arguments) = none := by
      rw [hgivens]
      exact firstHalt?_of_once hspells.sound honce
    rw [parse_accepts hnone hfits, hcompleted]
  · intro gs arguments rest hspells htwice i hi
    obtain ⟨more, hgivens, -⟩ := hspells.givens_append rest
    have hwrong : firstHalt? [] gs = some .wrong :=
      firstHalt?_of_twice hspells.sound List.nodup_nil htwice
    refine isUsageError_of_wrong ?_
    rw [hi, hgivens]
    exact firstHalt?_append_of_some hwrong more
  · intro i before more g hgivens hnone hitem
    refine isUsageError_of_wrong ?_
    rw [hgivens, firstHalt?_append, hnone, Option.none_or, firstHalt?, List.nil_append,
      halt?_of_repeated (sound_of_firstHalt? hnone) hitem, Option.some_or]

/-- Joined letters, a file behind two hyphens and a flag from the environment; a flag that is given
again before help is asked for; and an option that is given again without its value. -/
theorem settings_by_any_spelling_joined_and_repeated :
    let files : Files := fun _ => .absent .notFound
    parse ["-vc=b.toml", "--", "-x"] { noColor := some "true" } =
        .ok ⟨some "-x", true, some "b.toml", true⟩ ∧
      IsUsageError ⟨["-vca", "--verbose", "--help"], {}, {}, files, ⟨[], false⟩⟩ ∧
      IsUsageError ⟨["-c", "a", "-c"], {}, {}, files, ⟨[], false⟩⟩ := by
  intro files
  obtain ⟨haccepted, hrepeated, hagain⟩ := settings_by_any_spelling
  have hname : IsName "b.toml" := ⟨by decide, by decide⟩
  have hletter : IsName "a" := ⟨by decide, by decide⟩
  refine ⟨?_, ?_, ?_⟩
  · have hspells : Spells [.verbose, .config (some "b.toml"), .file "-x"]
        ["-vc=b.toml", "--", "-x"] :=
      @Spells.ends [.verbose, .config (some "b.toml")] ["-vc=b.toml"] ["-x"]
        (.cons (.shortEqual 1 hname) .nil) (by decide)
    refine haccepted _ _ _ _ hspells (by decide) ⟨fun name => ?_, ?_, ?_, ?_⟩
    · simp [eq_comm]
    · exact .argument (by decide)
    · exact .argument (by decide)
    · exact .environment (by decide) rfl
  · have hspells : Spells [.verbose, .config (some "a"), .verbose] ["-vca", "--verbose"] :=
      .phrases (.cons (.shortAttached 1 hletter (by decide)) (.cons .verbose .nil))
    exact hrepeated _ _ ["--help"] hspells (by decide) _ rfl
  · have hgivens : givens false ["-c", "a", "-c"] = [.config (some "a"), .config none] := by
      decide +kernel
    exact hagain _ [.config (some "a")] [] (.config none) hgivens (by decide) (by decide)

end CpScan.CommandLine
