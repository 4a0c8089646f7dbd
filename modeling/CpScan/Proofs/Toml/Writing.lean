/-
# Reading what is written

What a document says can be written in many ways.  This module describes the ways to write headers,
and assignments of booleans, of strings in double quotes and of tables in braces: with blanks and
comments wherever they may stand, keys with or without quotes, every escape, either line end and a
byte order mark or none.  `Lines` and `Writes` tell which texts write a list of statements, without
a word on how a text is read.

Reading gives back the statements that were written, whichever way it was (`Writes.parse_eq`).
There is one lemma for each part of a text, and each says what the reader of that part does with the
part and whatever follows it: it gives what is written and leaves what follows.  What may follow
matters only where a part has no end of its own.  A bare key goes on with any character of keys, and
two quotes and a third one open a string of another form.

Nothing here depends on there being a way to write something, but there always is one (section 6).
-/
import CpScan.Toml.Document
import Mathlib.Data.List.DropRight

namespace CpScan.Toml

/-! ## 1. Blanks, comments and line ends -/

/-- Blanks inside a line. -/
def Blanks (cs : List Char) : Prop := ∀ c ∈ cs, isSpace c = true

/-- What may stand alone on a line, or behind a statement: blanks, and maybe a comment. -/
inductive Trailer : List Char → Prop
  | blanks {b : List Char} (h : Blanks b) : Trailer b
  | comment {b text : List Char} (h : Blanks b) (htext : ∀ c ∈ text, isText c = true) :
    Trailer (b ++ '#' :: text)

/-- The end of a line that another one follows. -/
inductive LineBreak : List Char → Prop
  | lineFeed : LineBreak ['\n']
  | carriageReturn : LineBreak ['\r', '\n']

theorem LineBreak.length_pos {e : List Char} (h : LineBreak e) : 0 < e.length := by
  cases h with
  | lineFeed => decide
  | carriageReturn => decide

theorem Blanks.nil : Blanks [] := by
  intro c hc
  cases hc

theorem dropSpaces_blanks {b : List Char} (h : Blanks b) (cs : List Char) :
    dropSpaces (b ++ cs) = dropSpaces cs := List.dropWhile_append_of_pos h

theorem dropSpaces_cons {c : Char} (h : isSpace c = false) (cs : List Char) :
    dropSpaces (c :: cs) = c :: cs := List.dropWhile_cons_of_neg (by simp [h])

/-- Blanks before a character that is none. -/
theorem dropSpaces_blanks_cons {b : List Char} (h : Blanks b) {c : Char} (hc : isSpace c = false)
    (cs : List Char) : dropSpaces (b ++ c :: cs) = c :: cs := by
  rw [dropSpaces_blanks h, dropSpaces_cons hc]

theorem dropWhile_isText {text : List Char} (h : ∀ c ∈ text, isText c = true) (cs : List Char) :
    (text ++ cs).dropWhile isText = cs.dropWhile isText := List.dropWhile_append_of_pos h

/-- Blanks before a character begin with a blank or with that character. -/
theorem Blanks.head?_cases {b : List Char} (h : Blanks b) {x c : Char} {rest : List Char}
    (hc : (b ++ x :: rest).head? = some c) : isSpace c = true ∨ c = x := by
  cases b with
  | nil =>
    cases hc
    exact .inr rfl
  | cons d b =>
    cases hc
    exact .inl (h c List.mem_cons_self)

/-- Behind a trailer the line ends. -/
theorem Trailer.lineEnd?_eq {t : List Char} (h : Trailer t) {e : List Char} (he : LineBreak e)
    (rest : List Char) : lineEnd? (t ++ (e ++ rest)) = some rest := by
  cases h with
  | blanks hb =>
    rw [lineEnd?, dropSpaces_blanks hb]
    cases he with
    | lineFeed => rfl
    | carriageReturn => rfl
  | comment hb htext =>
    rw [List.append_assoc, List.cons_append, lineEnd?, dropSpaces_blanks_cons hb (by decide)]
    simp only [dropWhile_isText htext]
    cases he with
    | lineFeed => rfl
    | carriageReturn => rfl

/-- Or the document ends. -/
theorem Trailer.lineEnd?_end {t : List Char} (h : Trailer t) : lineEnd? t = some [] := by
  cases h with
  | blanks hb =>
    rw [lineEnd?, ← List.append_nil t, dropSpaces_blanks hb]
    rfl
  | @comment b text hb htext =>
    rw [lineEnd?, dropSpaces_blanks_cons hb (by decide), ← List.append_nil text]
    simp only [dropWhile_isText htext]
    rfl

/-- A line that ends does not go on with a quote. -/
theorem head?_ne_quote_of_lineEnd? {cs rest : List Char} (h : lineEnd? cs = some rest) :
    cs.head? ≠ some '"' := by
  intro hquote
  obtain ⟨more, rfl⟩ := List.head?_eq_some_iff.mp hquote
  simp [lineEnd?, dropSpaces, isSpace, newline?] at h

/-! ## 2. Characters and strings -/

/-- A hexadecimal digit in either case, and the number it stands for. -/
def HexDigit (d : Char) (k : Nat) : Prop :=
  "0123456789abcdef".toList[k]? = some d ∨ "0123456789ABCDEF".toList[k]? = some d

/-- Hexadecimal digits, and the number they denote. -/
inductive HexNumber : List Char → Nat → Prop
  | nil : HexNumber [] 0
  | snoc {ds : List Char} {n k : Nat} {d : Char} (h : HexNumber ds n) (hd : HexDigit d k) :
    HexNumber (ds ++ [d]) (16 * n + k)

/-- The letters that stand for a character behind a backslash, and that character. -/
def letterEscapes : List (Char × Char) :=
  [('b', '\x08'), ('t', '\t'), ('n', '\n'), ('f', '\x0c'), ('r', '\r'), ('"', '"'), ('\\', '\\')]

/-- The ways to write a character in a string in double quotes: as itself unless it is a quote, a
backslash or a control character, by a letter behind a backslash if it has one, or by its number. -/
inductive SpellsChar : Char → List Char → Prop
  | plain {c : Char} (h : isText c = true) (hquote : c ≠ '"') (hslash : c ≠ '\\') : SpellsChar c [c]
  | letter {c e : Char} (h : (e, c) ∈ letterEscapes) : SpellsChar c ['\\', e]
  | short {c : Char} {ds : List Char} (hlength : ds.length = 4) (h : HexNumber ds c.toNat) :
    SpellsChar c ('\\' :: 'u' :: ds)
  | long {c : Char} {ds : List Char} (hlength : ds.length = 8) (h : HexNumber ds c.toNat) :
    SpellsChar c ('\\' :: 'U' :: ds)

/-- The ways to write a text between double quotes, each character in a way of its own. -/
inductive SpellsBody : List Char → List Char → Prop
  | nil : SpellsBody [] []
  | cons {c : Char} {text cs more : List Char} (h : SpellsChar c cs)
    (hmore : SpellsBody text more) : SpellsBody (c :: text) (cs ++ more)

/-- The ways to write a string in double quotes. -/
inductive SpellsBasic : String → List Char → Prop
  | quotes {s : String} {body : List Char} (h : SpellsBody s.toList body) :
    SpellsBasic s ('"' :: (body ++ ['"']))

theorem HexDigit.hexValue?_eq {d : Char} {k : Nat} (h : HexDigit d k) : hexValue? d = some k := by
  have hlower : ∀ k, hexValue? ("0123456789abcdef".toList.get k) = some k.val := by decide
  have hupper : ∀ k, hexValue? ("0123456789ABCDEF".toList.get k) = some k.val := by decide
  rcases h with h | h
  · obtain ⟨hk, rfl⟩ := List.getElem?_eq_some_iff.mp h
    exact hlower ⟨k, hk⟩
  · obtain ⟨hk, rfl⟩ := List.getElem?_eq_some_iff.mp h
    exact hupper ⟨k, hk⟩

theorem HexNumber.hexNumber?_eq {ds : List Char} {n : Nat} (h : HexNumber ds n) :
    hexNumber? ds = some n := by
  induction h with
  | nil => rfl
  | snoc _ hd ih =>
    rw [hexNumber?] at ih ⊢
    rw [List.foldlM_append, ih]
    simp [hd.hexValue?_eq]

/-- A character is found by its number. -/
theorem HexNumber.codePoint?_eq {ds : List Char} {c : Char} (h : HexNumber ds c.toNat) :
    codePoint? ds = some c := by
  have hvalid : c.toNat.isValidChar := c.valid
  rw [codePoint?, h.hexNumber?_eq, Option.bind_some, if_pos hvalid, Char.ofNat_toNat]

theorem letterEscape?_eq {e c : Char} (h : (e, c) ∈ letterEscapes) : letterEscape? e = some c := by
  have hall : ∀ entry ∈ letterEscapes, letterEscape? entry.1 = some entry.2 := by decide
  exact hall (e, c) h

/-- **A character is read back**, whichever way it is written. -/
theorem SpellsChar.basicBody_eq {c : Char} {cs : List Char} (h : SpellsChar c cs)
    (done rest : List Char) : basicBody done (cs ++ rest) = basicBody (c :: done) rest := by
  cases h with
  | plain htext hquote hslash => simp [basicBody, htext, hslash]
  | @letter e hletter =>
    have hvalue := letterEscape?_eq hletter
    have hu : e ≠ 'u' := by
      rintro rfl
      cases hvalue
    have hU : e ≠ 'U' := by
      rintro rfl
      cases hvalue
    simp [basicBody, hvalue, hu, hU]
  | @short ds hlength hnumber =>
    match ds, hlength, hnumber with
    | [a, b, c', d], _, hnumber => simp [basicBody, hnumber.codePoint?_eq]
  | @long ds hlength hnumber =>
    match ds, hlength, hnumber with
    | [a, b, c', d, e, f, g, h], _, hnumber => simp [basicBody, hnumber.codePoint?_eq]

/-- **A text is read back**, up to the quote behind it. -/
theorem SpellsBody.basicBody_eq {text body : List Char} (h : SpellsBody text body)
    (done rest : List Char) :
    basicBody done (body ++ '"' :: rest) = some (done.reverse ++ text, rest) := by
  induction h generalizing done with
  | nil => simp [basicBody]
  | cons hchar _ ih =>
    rw [List.append_assoc, hchar.basicBody_eq, ih, List.reverse_cons, List.append_assoc,
      List.singleton_append]

/-- No way to write a character starts with a quote. -/
theorem SpellsChar.head {c : Char} {cs : List Char} (h : SpellsChar c cs) :
    ∃ x more, cs = x :: more ∧ x ≠ '"' := by
  cases h with
  | plain _ hquote _ => exact ⟨c, [], rfl, hquote⟩
  | letter _ => exact ⟨_, _, rfl, by decide⟩
  | short _ _ => exact ⟨_, _, rfl, by decide⟩
  | long _ _ => exact ⟨_, _, rfl, by decide⟩

/-- Two quotes and a third one would open a string of another form; a string in double quotes does
not start like that. -/
theorem SpellsBody.not_triple {text body : List Char} (h : SpellsBody text body) {rest : List Char}
    (hrest : rest.head? ≠ some '"') (more : List Char) :
    body ++ '"' :: rest ≠ '"' :: '"' :: more := by
  intro heq
  cases h with
  | nil =>
    rw [List.nil_append] at heq
    rw [(List.cons.inj heq).2] at hrest
    exact hrest rfl
  | cons hchar _ =>
    obtain ⟨x, tail, rfl, hx⟩ := hchar.head
    exact hx (List.cons.inj heq).1

/-- A string in double quotes is read as one, if no quote follows it. -/
theorem SpellsBasic.readString_eq {s : String} {cs : List Char} (h : SpellsBasic s cs)
    {rest : List Char} (hrest : rest.head? ≠ some '"') :
    readString (cs ++ rest) = some (s, rest) := by
  cases h with
  | @quotes body hbody =>
    have htriple := hbody.not_triple hrest
    have hread := hbody.basicBody_eq [] rest
    rw [List.cons_append, List.append_assoc, List.singleton_append]
    rw [readString]
    · simp [readString.packed, hread]
    · exact htriple

/-! ## 3. Keys -/

/-- The ways to write one part of a key: as it is if it is of the characters of bare keys, in double
quotes, or in single ones. -/
inductive SpellsPart : String → List Char → Prop
  | bare {k : String} (hne : k ≠ "") (h : ∀ c ∈ k.toList, isBareKey c = true) :
    SpellsPart k k.toList
  | basic {k : String} {cs : List Char} (h : SpellsBasic k cs) : SpellsPart k cs
  | literal {k : String} (h : ∀ c ∈ k.toList, isText c = true ∧ c ≠ '\'') :
    SpellsPart k ('\'' :: (k.toList ++ ['\'']))

/-- The ways to write a key: its parts, with points and blanks between them. -/
inductive SpellsKey : Key → List Char → Prop
  | one {k : String} {cs : List Char} (h : SpellsPart k cs) : SpellsKey ⟨[], k⟩ cs
  | dot {k : String} {cs b b' more : List Char} {key : Key} (h : SpellsPart k cs) (hb : Blanks b)
    (hb' : Blanks b') (hmore : SpellsKey key more) :
    SpellsKey ⟨k :: key.parents, key.last⟩ (cs ++ (b ++ '.' :: (b' ++ more)))

/-- A character that a key can open with. -/
def OpensKey (c : Char) : Prop := isBareKey c = true ∨ c = '"' ∨ c = '\''

/-- A character that cannot open a key is another one. -/
theorem OpensKey.ne {c : Char} (h : OpensKey c) {x : Char} (hbare : isBareKey x = false)
    (hbasic : x ≠ '"') (hliteral : x ≠ '\'') : c ≠ x := by
  rintro rfl
  rcases h with h | h | h
  · rw [hbare] at h
    cases h
  · exact hbasic h
  · exact hliteral h

theorem OpensKey.isSpace_eq {c : Char} (h : OpensKey c) : isSpace c = false := by
  have hspace := h.ne (x := ' ') (by decide) (by decide) (by decide)
  have htab := h.ne (x := '\t') (by decide) (by decide) (by decide)
  simp [isSpace, hspace, htab]

theorem SpellsPart.head {k : String} {cs : List Char} (h : SpellsPart k cs) :
    ∃ c more, cs = c :: more ∧ OpensKey c := by
  cases h with
  | bare hne hbare =>
    cases htext : k.toList with
    | nil => exact absurd (String.toList_eq_nil_iff.mp htext) hne
    | cons c more => exact ⟨c, more, rfl, .inl (hbare c (by simp [htext]))⟩
  | basic hbasic =>
    obtain ⟨_⟩ := hbasic
    exact ⟨_, _, rfl, .inr (.inl rfl)⟩
  | literal _ => exact ⟨_, _, rfl, .inr (.inr rfl)⟩

theorem SpellsKey.head {key : Key} {cs : List Char} (h : SpellsKey key cs) :
    ∃ c more, cs = c :: more ∧ OpensKey c := by
  cases h with
  | one hpart => exact hpart.head
  | dot hpart _ _ _ =>
    obtain ⟨c, more, rfl, hc⟩ := hpart.head
    exact ⟨c, _, rfl, hc⟩

/-- A bare part of a key is read up to what does not go on it. -/
theorem readSimpleKey_bare {k : String} (hne : k ≠ "") (hbare : ∀ c ∈ k.toList, isBareKey c = true)
    {rest : List Char} (hrest : ∀ c ∈ rest.head?, isBareKey c = false) :
    readSimpleKey (k.toList ++ rest) = some (k, rest) := by
  have hstop : rest.takeWhile isBareKey = [] ∧ rest.dropWhile isBareKey = rest := by
    cases rest with
    | nil => exact ⟨rfl, rfl⟩
    | cons c rest =>
      have hc : isBareKey c = false := hrest c rfl
      exact ⟨List.takeWhile_cons_of_neg (by simp [hc]), List.dropWhile_cons_of_neg (by simp [hc])⟩
  have htake : (k.toList ++ rest).takeWhile isBareKey = k.toList := by
    rw [List.takeWhile_append_of_pos hbare, hstop.1, List.append_nil]
  have hdrop : (k.toList ++ rest).dropWhile isBareKey = rest := by
    rw [List.dropWhile_append_of_pos hbare, hstop.2]
  cases htext : k.toList with
  | nil => exact absurd (String.toList_eq_nil_iff.mp htext) hne
  | cons c more =>
    have hc : isBareKey c = true := hbare c (by simp [htext])
    rw [htext, List.cons_append] at htake hdrop
    rw [List.cons_append, readSimpleKey]
    · simp only [htake, hdrop]
      rw [← htext, String.ofList_toList]
    · rintro _ heq
      cases heq
      exact absurd hc (by decide)
    · rintro _ heq
      cases heq
      exact absurd hc (by decide)

/-- Text between single quotes is what it is. -/
theorem literalBody_append {text : List Char} (h : ∀ c ∈ text, isText c = true ∧ c ≠ '\'')
    (rest : List Char) : literalBody (text ++ '\'' :: rest) = some (text, rest) := by
  have hinside : ∀ c ∈ text, (isText c && c != '\'') = true := by
    intro c hc
    simpa using h c hc
  rw [literalBody]
  simp only [List.dropWhile_append_of_pos hinside, List.takeWhile_append_of_pos hinside]
  simp

/-- A part of a key is read back, if what follows does not go on a bare one. -/
theorem SpellsPart.readSimpleKey_eq {k : String} {cs : List Char} (h : SpellsPart k cs)
    {rest : List Char} (hrest : ∀ c ∈ rest.head?, isBareKey c = false) :
    readSimpleKey (cs ++ rest) = some (k, rest) := by
  cases h with
  | bare hne hbare => exact readSimpleKey_bare hne hbare hrest
  | basic hbasic =>
    cases hbasic with
    | quotes hbody =>
      have hread := hbody.basicBody_eq [] rest
      rw [List.cons_append, List.append_assoc, List.singleton_append, readSimpleKey, hread]
      simp
  | literal hliteral =>
    have hread := literalBody_append hliteral rest
    rw [List.cons_append, List.append_assoc, List.singleton_append, readSimpleKey, hread]
    simp

/-- Blanks before a character that is not of bare keys do not go on a bare key. -/
theorem Blanks.not_bareKey {b : List Char} (h : Blanks b) {x : Char} (hx : isBareKey x = false)
    (rest : List Char) : ∀ c ∈ (b ++ x :: rest).head?, isBareKey c = false := by
  intro c hc
  rcases h.head?_cases hc with hspace | rfl
  · simp only [isSpace, Bool.or_eq_true, beq_iff_eq] at hspace
    rcases hspace with rfl | rfl
    · decide
    · decide
  · exact hx

/-- **A key is read back**, with the blanks around it. -/
theorem SpellsKey.readKeyParts_eq {key : Key} {cs : List Char} (h : SpellsKey key cs)
    {b b' : List Char} (hb : Blanks b) (hb' : Blanks b') {x : Char} (hx : x = '=' ∨ x = ']')
    (done : List String) {limit : Nat} (hlimit : key.parents.length < limit) (rest : List Char) :
    readKeyParts done limit (b ++ (cs ++ (b' ++ x :: rest))) =
      some (⟨done.reverse ++ key.parents, key.last⟩, x :: rest) := by
  have hbare : isBareKey x = false := by rcases hx with rfl | rfl <;> decide
  have hspace : isSpace x = false := by rcases hx with rfl | rfl <;> decide
  have hpoint : x ≠ '.' := by rcases hx with rfl | rfl <;> decide
  induction h generalizing b done limit with
  | @one k cs hpart =>
    obtain ⟨c, more, hhead, hc⟩ := hpart.head
    obtain ⟨limit, rfl⟩ : ∃ n, limit = n + 1 := ⟨limit - 1, by omega⟩
    have hread := hpart.readSimpleKey_eq (hb'.not_bareKey hbare rest)
    rw [readKeyParts, hhead, List.cons_append, dropSpaces_blanks_cons hb hc.isSpace_eq,
      ← List.cons_append, ← hhead, hread]
    simp only [dropSpaces_blanks_cons hb' hspace]
    simp [hpoint]
  | @dot k cs b₁ b₂ more key hpart hb₁ hb₂ _ ih =>
    obtain ⟨c, tail, hhead, hc⟩ := hpart.head
    obtain ⟨limit, rfl⟩ : ∃ n, limit = n + 1 := ⟨limit - 1, by omega⟩
    have hstop := hb₁.not_bareKey (x := '.') (by decide) (b₂ ++ (more ++ (b' ++ x :: rest)))
    have hread := hpart.readSimpleKey_eq hstop
    have hmore := ih hb₂ (k :: done) (Nat.lt_of_succ_lt_succ hlimit)
    simp only [List.append_assoc, List.cons_append] at hread ⊢
    rw [readKeyParts, hhead, List.cons_append, dropSpaces_blanks_cons hb hc.isSpace_eq,
      ← List.cons_append, ← hhead, hread]
    simp only [dropSpaces_blanks_cons hb₁ (c := '.') (by decide), hmore]
    simp

/-! ## 4. Values -/

/-- The ways to write a boolean, and a string in double quotes. -/
inductive SpellsScalar : Value → List Char → Prop
  | yes : SpellsScalar (.boolean true) ['t', 'r', 'u', 'e']
  | no : SpellsScalar (.boolean false) ['f', 'a', 'l', 's', 'e']
  | string {s : String} {cs : List Char} (h : SpellsBasic s cs) : SpellsScalar (.string s) cs

/-- The ways to write an assignment, if the ways to write the value are known. -/
inductive SpellsAssignment (SpellsItem : Value → List Char → Prop) : Key → Value → List Char → Prop
  | assign {key : Key} {value : Value} {k b b' v : List Char} (hkey : SpellsKey key k)
    (hdepth : key.parents.length + 1 < depthLimit) (hb : Blanks b) (hb' : Blanks b')
    (hvalue : SpellsItem value v) :
    SpellsAssignment SpellsItem key value (k ++ (b ++ '=' :: (b' ++ v)))

/-- The ways to write a boolean, a string in double quotes, and a table with one of these in braces.
-/
inductive SpellsValue : Value → List Char → Prop
  | scalar {value : Value} {cs : List Char} (h : SpellsScalar value cs) : SpellsValue value cs
  | braces {key : String} {value : Value} {b b' cs : List Char} (hb : Blanks b) (hb' : Blanks b')
    (h : SpellsAssignment SpellsScalar ⟨[], key⟩ value cs) :
    SpellsValue (.table .inline [(key, value)]) ('\x7b' :: (b ++ (cs ++ (b' ++ ['\x7d']))))

/-- A reader of values gives what is written, unless a quote follows, and what is written does not
start with a blank. -/
structure Reads (SpellsItem : Value → List Char → Prop) (item : Reader Value) : Prop where
  head : ∀ {value : Value} {cs : List Char}, SpellsItem value cs →
    ∃ c more, cs = c :: more ∧ isSpace c = false
  item_eq : ∀ {value : Value} {cs rest : List Char}, SpellsItem value cs →
    rest.head? ≠ some '"' → item (cs ++ rest) = some (value, rest)

theorem SpellsScalar.head {value : Value} {cs : List Char} (h : SpellsScalar value cs) :
    ∃ c more, cs = c :: more ∧ isSpace c = false ∧ c ≠ '[' ∧ c ≠ '\x7b' := by
  cases h with
  | yes => exact ⟨_, _, rfl, by decide⟩
  | no => exact ⟨_, _, rfl, by decide⟩
  | string hbasic =>
    obtain ⟨_⟩ := hbasic
    exact ⟨_, _, rfl, by decide⟩

theorem SpellsScalar.readScalar_eq {value : Value} {cs rest : List Char}
    (h : SpellsScalar value cs) (hrest : rest.head? ≠ some '"') :
    readScalar (cs ++ rest) = some (value, rest) := by
  cases h with
  | yes => rfl
  | no => rfl
  | string hbasic =>
    have hread := hbasic.readString_eq hrest
    obtain ⟨_⟩ := hbasic
    rw [List.cons_append] at hread ⊢
    rw [readScalar, hread]
    rfl

theorem reads_scalar (depth : Nat) : Reads SpellsScalar (readValue depth) where
  head := by
    intro value cs h
    obtain ⟨c, more, rfl, hspace, -⟩ := h.head
    exact ⟨c, more, rfl, hspace⟩
  item_eq := by
    intro value cs rest h hrest
    have hread := h.readScalar_eq hrest
    obtain ⟨c, more, rfl, -, hbracket, hbrace⟩ := h.head
    cases depth with
    | zero => exact hread
    | succ depth =>
      rw [List.cons_append] at hread ⊢
      simp [readValue, hbracket, hbrace, hread]

theorem SpellsAssignment.head {SpellsItem : Value → List Char → Prop} {key : Key} {value : Value}
    {cs : List Char} (h : SpellsAssignment SpellsItem key value cs) :
    ∃ c more, cs = c :: more ∧ OpensKey c := by
  cases h with
  | assign hkey _ _ _ _ =>
    obtain ⟨c, more, rfl, hc⟩ := hkey.head
    exact ⟨c, _, rfl, hc⟩

section Assignments

variable {SpellsItem : Value → List Char → Prop} {item : Reader Value}
  (hitem : Reads SpellsItem item) {key : Key} {value : Value} {cs : List Char}
  (h : SpellsAssignment SpellsItem key value cs)
include hitem h

theorem SpellsAssignment.readAssignment_eq {b rest : List Char} (hb : Blanks b)
    (hrest : rest.head? ≠ some '"') :
    readAssignment item (b ++ (cs ++ rest)) = some ((key, value), rest) := by
  cases h with
  | @assign k b₁ b₂ v hkey hdepth hb₁ hb₂ hvalue =>
    have hlimit : key.parents.length < depthLimit - 1 := by omega
    have hkey := hkey.readKeyParts_eq hb hb₁ (.inl rfl) [] hlimit (b₂ ++ (v ++ rest))
    obtain ⟨c, more, hhead, hc⟩ := hitem.head hvalue
    have hread := hitem.item_eq hvalue hrest
    have hvalue : dropSpaces (b₂ ++ (v ++ rest)) = v ++ rest := by
      rw [hhead, List.cons_append, dropSpaces_blanks_cons hb₂ hc]
    simp only [List.append_assoc, List.cons_append, List.reverse_nil, List.nil_append] at hkey ⊢
    rw [readAssignment, readKey, hkey]
    simp [expect, hvalue, hread]

/-- A table in braces with one assignment is read back. -/
theorem SpellsAssignment.readBraces_eq (hkey : key.parents = []) {b b' : List Char} (hb : Blanks b)
    (hb' : Blanks b') (rest : List Char) :
    readBraces item (b ++ (cs ++ (b' ++ '\x7d' :: rest))) =
      some (.table .inline [(key.last, value)], rest) := by
  have hquote : (b' ++ '\x7d' :: rest).head? ≠ some '"' := by
    intro hhead
    rcases hb'.head?_cases hhead with hspace | heq
    · exact absurd hspace (by decide)
    · exact absurd heq (by decide)
  have hread := h.readAssignment_eq hitem .nil hquote
  have hclose := dropSpaces_blanks_cons hb' (c := '\x7d') (by decide) rest
  have hone : Entries.ofAssignments [(key, value)] = some [(key.last, value)] := by
    simp [Entries.ofAssignments, hkey, Entries.assign, Entries.get?, Entries.add]
  obtain ⟨c, more, rfl, hc⟩ := h.head
  rw [List.nil_append, List.cons_append] at hread
  rw [readBraces, List.cons_append, dropSpaces_blanks_cons hb hc.isSpace_eq]
  have hopen : c ≠ '\x7d' := hc.ne (by decide) (by decide) (by decide)
  simp [hopen, readAssignments, hread, hclose, hone]

end Assignments

/-- **A value is read back**, in braces or not. -/
theorem reads_value (depth : Nat) : Reads SpellsValue (readValue (depth + 1)) where
  head := by
    intro value cs h
    cases h with
    | scalar hscalar => exact (reads_scalar 0).head hscalar
    | braces _ _ _ => exact ⟨_, _, rfl, by decide⟩
  item_eq := by
    intro value cs rest h hrest
    cases h with
    | scalar hscalar => exact (reads_scalar (depth + 1)).item_eq hscalar hrest
    | braces hb hb' hassign =>
      have hread := hassign.readBraces_eq (reads_scalar depth) rfl hb hb' rest
      rw [← hread]
      simp [readValue]

/-! ## 5. Statements, lines and documents -/

/-- The ways to write a header in single brackets, and an assignment. -/
inductive SpellsStatement : Statement → List Char → Prop
  | header {key : Key} {b b' cs : List Char} (hkey : SpellsKey key cs)
    (hdepth : key.parents.length + 1 < depthLimit) (hb : Blanks b) (hb' : Blanks b') :
    SpellsStatement (.header key) ('[' :: (b ++ (cs ++ (b' ++ [']']))))
  | assignment {key : Key} {value : Value} {cs : List Char}
    (h : SpellsAssignment SpellsValue key value cs) : SpellsStatement (.assignment key value) cs

/-- The lines that write a list of statements: each statement on a line of its own, behind blanks
and before a trailer, and any number of lines without one.  The last line need not end. -/
inductive Lines : List Statement → List Char → Prop
  | stop {t : List Char} (ht : Trailer t) : Lines [] t
  | fill {t e rest : List Char} {ss : List Statement} (ht : Trailer t) (he : LineBreak e)
    (hrest : Lines ss rest) : Lines ss (t ++ (e ++ rest))
  | last {b cs t : List Char} {s : Statement} (hb : Blanks b) (hs : SpellsStatement s cs)
    (ht : Trailer t) : Lines [s] (b ++ (cs ++ t))
  | line {b cs t e rest : List Char} {s : Statement} {ss : List Statement} (hb : Blanks b)
    (hs : SpellsStatement s cs) (ht : Trailer t) (he : LineBreak e) (hrest : Lines ss rest) :
    Lines (s :: ss) (b ++ (cs ++ (t ++ (e ++ rest))))

/-- The texts that write a list of statements: lines, maybe with a byte order mark in front. -/
inductive Writes : List Statement → List Char → Prop
  | plain {ss : List Statement} {text : List Char} (h : Lines ss text) : Writes ss text
  | marked {ss : List Statement} {text : List Char} (h : Lines ss text) :
    Writes ss ('\uFEFF' :: text)

/-- A statement starts with a bracket or with a key. -/
theorem SpellsStatement.head {s : Statement} {cs : List Char} (h : SpellsStatement s cs) :
    ∃ c more, cs = c :: more ∧ (c = '[' ∨ OpensKey c) := by
  cases h with
  | header _ _ _ _ => exact ⟨_, _, rfl, .inl rfl⟩
  | assignment hassign =>
    obtain ⟨c, more, rfl, hc⟩ := hassign.head
    exact ⟨c, more, rfl, .inr hc⟩

theorem SpellsStatement.length_pos {s : Statement} {cs : List Char} (h : SpellsStatement s cs) :
    0 < cs.length := by
  obtain ⟨c, more, rfl, -⟩ := h.head
  exact Nat.succ_pos _

/-- **A statement is read back**, up to the end of its line. -/
theorem SpellsStatement.readStatement_eq {s : Statement} {cs : List Char}
    (h : SpellsStatement s cs) {tail rest : List Char} (hend : lineEnd? tail = some rest) :
    readStatement (cs ++ tail) = some (s, rest) := by
  cases h with
  | @header key b b' cs hkey hdepth hb hb' =>
    have hlimit : key.parents.length < depthLimit - 1 := by omega
    have hread := hkey.readKeyParts_eq hb hb' (.inr rfl) [] hlimit tail
    -- a second bracket would open a header of another form
    have hsingle : ∀ more, b ++ (cs ++ (b' ++ ']' :: tail)) ≠ '[' :: more := by
      intro more heq
      obtain ⟨c, cs, rfl, hc⟩ := hkey.head
      rw [List.cons_append] at heq
      rcases hb.head?_cases (by rw [heq]; rfl) with hspace | hbracket
      · exact absurd hspace (by decide)
      · exact hc.ne (by decide) (by decide) (by decide) hbracket.symm
    simp only [List.append_assoc, List.cons_append, List.nil_append, List.reverse_nil] at hread ⊢
    rw [readStatement]
    · simp [readKey, hread, expect, hend]
    · exact hsingle
  | @assignment key value cs hassign =>
    have hread := hassign.readAssignment_eq (reads_value (depthLimit - 2)) .nil
      (head?_ne_quote_of_lineEnd? hend)
    obtain ⟨c, more, rfl, hc⟩ := hassign.head
    have hbracket : c ≠ '[' := hc.ne (by decide) (by decide) (by decide)
    have hdeep : depthLimit - 1 = depthLimit - 2 + 1 := rfl
    rw [List.nil_append, List.cons_append] at hread
    rw [List.cons_append, readStatement, hdeep]
    · simp [hread, hend]
    · rintro _ heq
      exact hbracket (List.cons.inj heq).1
    · rintro _ heq
      exact hbracket (List.cons.inj heq).1

/-- A line with a statement. -/
theorem SpellsStatement.readStatements_eq {s : Statement} {cs : List Char}
    (h : SpellsStatement s cs) {b tail rest : List Char} (hb : Blanks b)
    (hend : lineEnd? tail = some rest) (done : List Statement) (limit : Nat) :
    readStatements done (limit + 1) (b ++ (cs ++ tail)) =
      readStatements (s :: done) limit rest := by
  have hread := h.readStatement_eq hend
  obtain ⟨c, more, rfl, hc⟩ := h.head
  have hspace : isSpace c = false := by
    rcases hc with rfl | hkey
    · decide
    · exact hkey.isSpace_eq
  have hline : ¬ (c = '\n' ∨ c = '\r' ∨ c = '#') := by
    rcases hc with rfl | hkey
    · decide
    · rintro (h | h | h)
      · exact hkey.ne (by decide) (by decide) (by decide) h
      · exact hkey.ne (by decide) (by decide) (by decide) h
      · exact hkey.ne (by decide) (by decide) (by decide) h
  rw [List.cons_append] at hread ⊢
  rw [readStatements, dropSpaces_blanks_cons hb hspace]
  simp only [if_neg hline, hread]

theorem lineEnd?_dropSpaces (cs : List Char) : lineEnd? (dropSpaces cs) = lineEnd? cs := by
  simp only [lineEnd?, dropSpaces, List.dropWhile_idempotent]

/-- What the first character behind the blanks of a trailer tells: its line has no statement. -/
theorem readStatements_of_lineEnd? {cs more rest : List Char} {c : Char}
    (hdrop : dropSpaces cs = c :: more) (hc : c = '\n' ∨ c = '\r' ∨ c = '#')
    (hend : lineEnd? cs = some rest) (done : List Statement) (limit : Nat) :
    readStatements done (limit + 1) cs = readStatements done limit rest := by
  rw [← lineEnd?_dropSpaces, hdrop] at hend
  rw [readStatements, hdrop]
  simp only [if_pos hc, hend]

/-- A line without a statement. -/
theorem Trailer.readStatements_eq {t : List Char} (h : Trailer t) {e : List Char}
    (he : LineBreak e) (done : List Statement) (limit : Nat) (rest : List Char) :
    readStatements done (limit + 1) (t ++ (e ++ rest)) = readStatements done limit rest := by
  have hend := h.lineEnd?_eq he rest
  cases h with
  | blanks hb =>
    cases he with
    | lineFeed =>
      exact readStatements_of_lineEnd? (dropSpaces_blanks_cons hb (by decide) _) (.inl rfl) hend
        done limit
    | carriageReturn =>
      exact readStatements_of_lineEnd? (dropSpaces_blanks_cons hb (by decide) _) (.inr (.inl rfl))
        hend done limit
  | comment hb _ =>
    rw [List.append_assoc, List.cons_append] at hend ⊢
    exact readStatements_of_lineEnd? (dropSpaces_blanks_cons hb (by decide) _) (.inr (.inr rfl))
      hend done limit

/-- The last line, if it has no statement. -/
theorem Trailer.readStatements_end {t : List Char} (h : Trailer t) (done : List Statement)
    {limit : Nat} (hlimit : t.length < limit) :
    readStatements done limit t = some done.reverse := by
  have hend := h.lineEnd?_end
  obtain ⟨limit, rfl⟩ : ∃ n, limit = n + 1 := ⟨limit - 1, by omega⟩
  cases h with
  | blanks hb =>
    have hnone : dropSpaces t = [] := by
      rw [← List.append_nil t, dropSpaces_blanks hb]
      rfl
    rw [readStatements, hnone]
  | @comment b text hb _ =>
    obtain ⟨limit, rfl⟩ : ∃ n, limit = n + 1 := by
      rw [List.length_append, List.length_cons] at hlimit
      exact ⟨limit - 1, by omega⟩
    rw [readStatements_of_lineEnd? (dropSpaces_blanks_cons hb (by decide) _) (.inr (.inr rfl)) hend]
    rfl

/-- **Lines are read back**, whatever has been read before. -/
theorem Lines.readStatements_eq {ss : List Statement} {text : List Char} (h : Lines ss text)
    (done : List Statement) {limit : Nat} (hlimit : text.length < limit) :
    readStatements done limit text = some (done.reverse ++ ss) := by
  induction h generalizing done limit with
  | stop ht => rw [ht.readStatements_end done hlimit, List.append_nil]
  | @fill t e rest ss ht he _ ih =>
    obtain ⟨limit, rfl⟩ : ∃ n, limit = n + 1 := ⟨limit - 1, by omega⟩
    have hpos := he.length_pos
    rw [List.length_append, List.length_append] at hlimit
    rw [ht.readStatements_eq he, ih done (by omega)]
  | @last b cs t s hb hs ht =>
    obtain ⟨limit, rfl⟩ : ∃ n, limit = n + 1 := ⟨limit - 1, by omega⟩
    have hpos := hs.length_pos
    rw [List.length_append, List.length_append] at hlimit
    rw [hs.readStatements_eq hb ht.lineEnd?_end, ← List.reverse_cons]
    exact (Trailer.blanks .nil).readStatements_end (s :: done) (by simp; omega)
  | @line b cs t e rest s ss hb hs ht he _ ih =>
    obtain ⟨limit, rfl⟩ : ∃ n, limit = n + 1 := ⟨limit - 1, by omega⟩
    have hpos := he.length_pos
    simp only [List.length_append] at hlimit
    rw [hs.readStatements_eq hb (ht.lineEnd?_eq he rest), ih (s :: done) (by omega),
      List.reverse_cons, List.append_assoc, List.singleton_append]

/-- A byte order mark opens no statement. -/
theorem readStatements_byteOrderMark (done : List Statement) (limit : Nat) (cs : List Char) :
    readStatements done limit ('\uFEFF' :: cs) = none := by
  cases limit with
  | zero => rfl
  | succ limit => rfl

/-- Lines do not start with a byte order mark of their own. -/
theorem Lines.dropByteOrderMark_eq {ss : List Statement} {text : List Char} (h : Lines ss text) :
    dropByteOrderMark text = text := by
  unfold dropByteOrderMark
  split
  · next rest =>
    have hread := h.readStatements_eq [] (Nat.lt_succ_self _)
    rw [readStatements_byteOrderMark] at hread
    cases hread
  · rfl

/-- **A document says what is written in it**, in whichever way it is. -/
theorem Writes.parse_eq {ss : List Statement} {text : List Char} (h : Writes ss text) :
    parse text = assemble ss := by
  have hlines {lines : List Char} (h : Lines ss lines) :
      (readStatements [] (lines.length + 1) lines).bind assemble = assemble ss := by
    rw [h.readStatements_eq [] (Nat.lt_succ_self _)]
    rfl
  cases h with
  | plain h =>
    rw [parse, h.dropByteOrderMark_eq]
    exact hlines h
  | marked h => exact hlines h

/-! ## 6. There is always a way -/

/-- A number has as many hexadecimal digits as one likes, if they are enough. -/
theorem exists_hexNumber (width n : Nat) (h : n < Nat.pow 16 width) :
    ∃ ds, ds.length = width ∧ HexNumber ds n := by
  induction width generalizing n with
  | zero =>
    obtain rfl : n = 0 := by simpa using h
    exact ⟨[], rfl, .nil⟩
  | succ width ih =>
    have hmore : n < Nat.pow 16 width * 16 := h
    have hfront : n / 16 < Nat.pow 16 width := by omega
    have hlast : n % 16 < "0123456789abcdef".toList.length := Nat.mod_lt n (by decide)
    obtain ⟨ds, hlength, hds⟩ := ih (n / 16) hfront
    have hdigit : HexDigit "0123456789abcdef".toList[n % 16] (n % 16) :=
      .inl (List.getElem?_eq_getElem hlast)
    have hnumber := hds.snoc hdigit
    rw [Nat.div_add_mod n 16] at hnumber
    exact ⟨_, by simp [hlength], hnumber⟩

/-- **Every character can be written**: as itself, or by its number. -/
theorem exists_spellsChar (c : Char) : ∃ cs, SpellsChar c cs := by
  by_cases h : isText c = true ∧ c ≠ '"' ∧ c ≠ '\\'
  · exact ⟨[c], .plain h.1 h.2.1 h.2.2⟩
  · have hlt : c.toNat < Nat.pow 16 8 := c.val.toNat_lt
    obtain ⟨ds, hlength, hds⟩ := exists_hexNumber 8 c.toNat hlt
    exact ⟨_, .long hlength hds⟩

theorem exists_spellsBody (text : List Char) : ∃ body, SpellsBody text body := by
  induction text with
  | nil => exact ⟨[], .nil⟩
  | cons c text ih =>
    obtain ⟨cs, hc⟩ := exists_spellsChar c
    obtain ⟨body, hbody⟩ := ih
    exact ⟨cs ++ body, .cons hc hbody⟩

/-- Every string can be written in double quotes. -/
theorem exists_spellsBasic (s : String) : ∃ cs, SpellsBasic s cs := by
  obtain ⟨body, hbody⟩ := exists_spellsBody s.toList
  exact ⟨_, .quotes hbody⟩

/-- Every key can be written, since every string can. -/
theorem exists_spellsKey (parents : List String) (last : String) :
    ∃ cs, SpellsKey ⟨parents, last⟩ cs := by
  induction parents with
  | nil =>
    obtain ⟨cs, hcs⟩ := exists_spellsBasic last
    exact ⟨cs, .one (.basic hcs)⟩
  | cons k parents ih =>
    obtain ⟨cs, hcs⟩ := exists_spellsBasic k
    obtain ⟨more, hmore⟩ := ih
    exact ⟨_, .dot (.basic hcs) .nil .nil hmore⟩

theorem exists_spellsScalar_boolean (b : Bool) : ∃ cs, SpellsScalar (.boolean b) cs := by
  cases b with
  | true => exact ⟨_, .yes⟩
  | false => exact ⟨_, .no⟩

theorem exists_spellsScalar_string (s : String) : ∃ cs, SpellsScalar (.string s) cs := by
  obtain ⟨cs, hcs⟩ := exists_spellsBasic s
  exact ⟨cs, .string hcs⟩

/-- What has a key with few enough parts can be written if its value can. -/
theorem exists_spellsAssignment {SpellsItem : Value → List Char → Prop} {value : Value}
    (hvalue : ∃ cs, SpellsItem value cs) {key : Key}
    (hdepth : key.parents.length + 1 < depthLimit) :
    ∃ cs, SpellsAssignment SpellsItem key value cs := by
  obtain ⟨v, hv⟩ := hvalue
  obtain ⟨k, hk⟩ := exists_spellsKey key.parents key.last
  exact ⟨_, .assign hk hdepth .nil .nil hv⟩

/-- Statements can be written one after the other, if each can be written. -/
theorem exists_lines {ss : List Statement} (h : ∀ s ∈ ss, ∃ cs, SpellsStatement s cs) :
    ∃ text, Lines ss text := by
  induction ss with
  | nil => exact ⟨[], .stop (.blanks .nil)⟩
  | cons s ss ih =>
    obtain ⟨cs, hcs⟩ := h s List.mem_cons_self
    obtain ⟨text, htext⟩ := ih fun s hs => h s (List.mem_cons_of_mem _ hs)
    exact ⟨_, .line .nil hcs (.blanks .nil) .lineFeed htext⟩

end CpScan.Toml
