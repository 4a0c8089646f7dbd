/-
# A cursor is a zipper of characters

A cursor knows byte offsets.  What it stands for is a text in three parts: the characters before
the mark, the characters between the mark and the place, and the characters behind the place.
`Cursor.zipper` is the cursor that stands for such parts on some line, and each move of a cursor is
then a move of characters between the parts:

* looking ahead gives the first and second character behind the place, or the end mark
  (`zipper_peek`, `zipper_peekNext`), and the place is at the end if there is none (`zipper_atEnd`);
  that bytes are looked at where they are of ASCII makes no difference (`zipper_charAhead`);
* a step moves one character (`zipper_advance`), and a run of steps the longest run of a class
  (`zipper_stepWhile`);
* the lexeme is the middle part (`zipper_lexeme`).

Offsets come in only here.  Everything proved about the machine that scans speaks of the parts.
-/
import CpScan.Scan.Scanner
import Mathlib.Data.String.Basic

namespace CpScan

/-! ## 1. Bytes and line feeds of a stretch of text -/

@[simp] theorem byteLength_nil : byteLength [] = 0 := rfl

@[simp] theorem byteLength_cons (c : Char) (text : List Char) :
    byteLength (c :: text) = c.utf8Size + byteLength text := rfl

@[simp] theorem byteLength_append (s t : List Char) :
    byteLength (s ++ t) = byteLength s + byteLength t := by
  induction s with
  | nil => simp
  | cons c s ih => rw [List.cons_append, byteLength_cons, ih, byteLength_cons, Nat.add_assoc]

/-- The measure of a stretch of text that the library's lemmas on offsets are stated with. -/
theorem byteLength_eq_utf8Len (text : List Char) : byteLength text = String.utf8Len text := by
  induction text with
  | nil => rfl
  | cons c text ih => rw [byteLength_cons, String.utf8Len_cons, ih, Nat.add_comm]

theorem utf8ByteSize_ofList (text : List Char) :
    (String.ofList text).utf8ByteSize = byteLength text := by
  rw [String.utf8ByteSize_ofList, byteLength_eq_utf8Len]

/-- Only the empty text has no bytes. -/
theorem byteLength_eq_zero {text : List Char} : byteLength text = 0 ↔ text = [] := by
  rw [byteLength_eq_utf8Len, String.utf8Len_eq_zero]

@[simp] theorem lineFeeds_nil : lineFeeds [] = 0 := rfl

@[simp] theorem lineFeeds_append (s t : List Char) :
    lineFeeds (s ++ t) = lineFeeds s + lineFeeds t := by
  simp [lineFeeds]

theorem lineFeeds_eq_zero {text : List Char} : lineFeeds text = 0 ↔ '\n' ∉ text :=
  List.count_eq_zero

@[simp] theorem lineFeeds_cons_self (text : List Char) :
    lineFeeds ('\n' :: text) = lineFeeds text + 1 := by
  simp [lineFeeds]

theorem lineFeeds_cons_of_ne {c : Char} (h : c ≠ '\n') (text : List Char) :
    lineFeeds (c :: text) = lineFeeds text := by
  simp [lineFeeds, h]

/-! ## 2. Cutting a text at offsets -/

/-- The character at the offset behind a stretch of text. -/
theorem get_ofList_append (s t : List Char) :
    String.Pos.Raw.get (String.ofList (s ++ t)) ⟨byteLength s⟩ = t.headD default := by
  rw [byteLength_eq_utf8Len]
  exact String.get_of_valid s t

/-- The text between the offsets before and behind a stretch of it. -/
theorem extract_ofList_append (s t u : List Char) :
    String.Pos.Raw.extract (String.ofList (s ++ t ++ u)) ⟨byteLength s⟩
      ⟨byteLength s + byteLength t⟩ = String.ofList t := by
  rw [byteLength_eq_utf8Len, byteLength_eq_utf8Len]
  exact String.extract_of_valid s t u

/-! ## 3. Bytes of ASCII -/

/-- The bytes of a stretch of text, by number. -/
theorem length_flatMap_utf8EncodeChar (text : List Char) :
    (text.flatMap String.utf8EncodeChar).length = byteLength text := by
  induction text with
  | nil => rfl
  | cons c text ih =>
    rw [List.flatMap_cons, List.length_append, ih, String.length_utf8EncodeChar, byteLength_cons]

/-- The byte at the offset behind a stretch of text is the first one of the character there. -/
theorem getUTF8Byte_ofList_append (s : List Char) (c : Char) (t : List Char)
    (h : (⟨byteLength s⟩ : String.Pos.Raw) < (String.ofList (s ++ c :: t)).rawEndPos) :
    (String.ofList (s ++ c :: t)).getUTF8Byte ⟨byteLength s⟩ h =
      (String.utf8EncodeChar c).head String.utf8EncodeChar_ne_nil := by
  simp only [String.getUTF8Byte_eq_getElem, String.toByteArray_ofList, List.utf8Encode,
    List.getElem_toByteArray, ← length_flatMap_utf8EncodeChar s, List.flatMap_append,
    List.flatMap_cons]
  rw [List.getElem_append_right (Nat.le_refl _)]
  simp only [Nat.sub_self]
  rw [List.getElem_append_left (List.length_pos_of_ne_nil String.utf8EncodeChar_ne_nil),
    List.getElem_zero]

/-- That byte is of ASCII if it is the only one of the character. -/
theorem head_utf8EncodeChar_lt_iff (c : Char) :
    (String.utf8EncodeChar c).head String.utf8EncodeChar_ne_nil < 0x80 ↔ c.utf8Size = 1 := by
  rw [Char.utf8Size_eq_one_iff, UInt8.lt_iff_toNat_lt, UInt32.le_iff_toNat_le]
  simp only [String.utf8EncodeChar, Char.toNat_val]
  split
  · simp
    omega
  split
  · simp
    omega
  split
  · simp
    omega
  · simp
    omega

/-- And then it is the character. -/
theorem ofNat_head_utf8EncodeChar {c : Char} (h : c.utf8Size = 1) :
    Char.ofNat ((String.utf8EncodeChar c).head String.utf8EncodeChar_ne_nil).toNat = c := by
  have hle : c.val.toNat ≤ 127 := UInt32.le_iff_toNat_le.mp (Char.utf8Size_eq_one_iff.mp h)
  have hbyte : ((String.utf8EncodeChar c).head String.utf8EncodeChar_ne_nil).toNat = c.toNat := by
    simp only [String.utf8EncodeChar, if_pos hle, List.head_cons]
    exact UInt8.toNat_ofNat_of_lt' (Nat.lt_of_le_of_lt hle (by decide))
  rw [hbyte, Char.ofNat_toNat]

/-! ## 4. The zipper -/

namespace Cursor

/-- The text that a cursor has gone over. -/
def passed (c : Cursor) : List Char := (String.Pos.Raw.extract c.source ⟨0⟩ ⟨c.current⟩).toList

/-- The text behind the place of a cursor. -/
def left (c : Cursor) : List Char :=
  (String.Pos.Raw.extract c.source ⟨c.current⟩ ⟨c.source.utf8ByteSize⟩).toList

/-- The cursor over `before ++ taken ++ rest` with its mark behind `before` and its place behind
`taken`. -/
def zipper (before taken rest : List Char) (line : Nat) : Cursor :=
  ⟨String.ofList (before ++ taken ++ rest), byteLength before, byteLength before + byteLength taken,
    line⟩

variable (before taken rest : List Char) (line : Nat) (c : Char)

theorem ofString_eq_zipper (source : String) :
    ofString source = zipper [] [] source.toList 1 := by
  simp [ofString, zipper]

@[simp] theorem zipper_line : (zipper before taken rest line).line = line := rfl

@[simp] theorem zipper_start : (zipper before taken rest line).start = byteLength before := rfl

@[simp] theorem zipper_current :
    (zipper before taken rest line).current = byteLength before + byteLength taken := rfl

theorem zipper_size : (zipper before taken rest line).source.utf8ByteSize =
    byteLength before + byteLength taken + byteLength rest := by
  simp only [zipper, utf8ByteSize_ofList, byteLength_append]

/-- The place is at the end if nothing is behind it. -/
@[simp] theorem zipper_atEnd : (zipper before taken rest line).atEnd = rest.isEmpty := by
  unfold atEnd
  rw [zipper_size, zipper_current]
  cases rest with
  | nil => simp
  | cons c rest =>
    have hpos := c.utf8Size_pos
    rw [List.isEmpty_cons, decide_eq_false_iff_not, byteLength_cons]
    omega

/-- The character at the offset behind some of the text that is left. -/
theorem zipper_charAt (some more : List Char) :
    (zipper before taken (some ++ more) line).charAt
      (byteLength before + byteLength taken + byteLength some) = more.headD endMark := by
  unfold charAt
  rw [zipper_size, byteLength_append]
  cases more with
  | nil => simp
  | cons d more =>
    have hpos := d.utf8Size_pos
    have hsplit := get_ofList_append (before ++ taken ++ some) (d :: more)
    rw [byteLength_append, byteLength_append] at hsplit
    rw [if_neg (by rw [byteLength_cons]; omega)]
    simpa only [zipper, List.append_assoc, List.headD_cons] using hsplit

/-- At the place itself stands the character that comes next. -/
theorem zipper_charAt_current :
    (zipper before taken (c :: rest) line).charAt (byteLength before + byteLength taken) = c := by
  have hchar := zipper_charAt before taken line [] (c :: rest)
  rwa [byteLength_nil, Nat.add_zero, List.nil_append, List.headD_cons] at hchar

/-- The byte at the offset behind some of the text that is left is a character if it is all of
one. -/
theorem zipper_asciiAt? (some more : List Char) :
    (zipper before taken (some ++ more) line).asciiAt?
      (byteLength before + byteLength taken + byteLength some) =
      more.head?.filter (fun x => x.utf8Size = 1) := by
  unfold asciiAt?
  cases more with
  | nil =>
    rw [dif_neg]
    · rfl
    · simp [String.Pos.Raw.lt_iff, zipper_size]
  | cons x more =>
    have hoffset : byteLength before + byteLength taken + byteLength some =
        byteLength (before ++ taken ++ some) := by simp [Nat.add_assoc]
    have hlt : (⟨byteLength (before ++ taken ++ some)⟩ : String.Pos.Raw) <
        (String.ofList (before ++ taken ++ some ++ x :: more)).rawEndPos := by
      have hpos := x.utf8Size_pos
      simp only [String.Pos.Raw.lt_iff, String.byteIdx_rawEndPos, utf8ByteSize_ofList,
        byteLength_append, byteLength_cons]
      omega
    have hsource : (zipper before taken (some ++ x :: more) line).source =
        String.ofList (before ++ taken ++ some ++ x :: more) := by simp [zipper]
    simp only [hoffset, hsource, dif_pos hlt, getUTF8Byte_ofList_append,
      head_utf8EncodeChar_lt_iff, List.head?_cons]
    by_cases hx : x.utf8Size = 1
    · rw [if_pos hx, ofNat_head_utf8EncodeChar hx, Option.filter_some_pos (by simpa using hx)]
    · rw [if_neg hx, Option.filter_some_neg (by simpa using hx)]

/-- Bytes are characters as long as every character is one byte. -/
theorem zipper_asciiAhead? (some more : List Char) (n : Nat) :
    (zipper before taken (some ++ more) line).asciiAhead?
      (byteLength before + byteLength taken + byteLength some) n =
      if (more.take (n + 1)).all (fun x => x.utf8Size = 1) then more[n]? else none := by
  induction n generalizing some more with
  | zero =>
    rw [asciiAhead?, zipper_asciiAt?]
    cases more with
    | nil => rfl
    | cons x more =>
      simp only [List.take_succ_cons, List.take_zero, List.all_cons, List.all_nil, Bool.and_true,
        List.head?_cons, Option.filter_some, List.getElem?_cons_zero]
  | succ n ih =>
    rw [asciiAhead?, zipper_asciiAt?]
    cases more with
    | nil => rfl
    | cons x more =>
      by_cases hx : x.utf8Size = 1
      · have hnext := ih (some ++ [x]) more
        simp only [byteLength_append, byteLength_cons, byteLength_nil, hx, List.append_assoc,
          List.singleton_append, Nat.add_zero, ← Nat.add_assoc] at hnext
        simp only [List.head?_cons, Option.filter_some, hx, decide_true, if_true, Option.bind_some,
          hnext, List.take_succ_cons, List.all_cons, Bool.true_and, List.getElem?_cons_succ]
      · simp only [List.head?_cons, Option.filter_some, hx, decide_false, Bool.false_eq_true,
          if_false, Option.bind_none, List.take_succ_cons, List.all_cons, Bool.false_and]

/-- Decoding gives the characters one after the other. -/
theorem zipper_decodeAhead (some more : List Char) (n : Nat) :
    (zipper before taken (some ++ more) line).decodeAhead
      (byteLength before + byteLength taken + byteLength some) n = more[n]?.getD endMark := by
  induction n generalizing some more with
  | zero =>
    rw [decodeAhead, zipper_charAt]
    cases more <;> rfl
  | succ n ih =>
    rw [decodeAhead, zipper_charAt, zipper_size, byteLength_append]
    cases more with
    | nil => simp
    | cons x more =>
      have hpos := x.utf8Size_pos
      have hnext := ih (some ++ [x]) more
      simp only [byteLength_append, byteLength_cons, byteLength_nil, List.append_assoc,
        List.singleton_append, Nat.add_zero, ← Nat.add_assoc] at hnext
      rw [if_neg (by rw [byteLength_cons]; omega), List.headD_cons, hnext]
      rfl

/-- **Looking ahead finds the character that is there**, by bytes or by decoding. -/
theorem zipper_charAhead (n : Nat) :
    (zipper before taken rest line).charAhead n = rest[n]?.getD endMark := by
  have hascii := zipper_asciiAhead? before taken line [] rest n
  have hdecode := zipper_decodeAhead before taken line [] rest n
  rw [byteLength_nil, Nat.add_zero, List.nil_append] at hascii hdecode
  unfold charAhead
  rw [zipper_current, hascii, hdecode]
  split
  · next x hx =>
    split at hx
    · rw [hx, Option.getD_some]
    · cases hx
  · rfl

@[simp] theorem zipper_peek : (zipper before taken rest line).peek = rest.headD endMark := by
  rw [peek, zipper_charAhead]
  cases rest <;> rfl

@[simp] theorem zipper_peekNext :
    (zipper before taken rest line).peekNext = rest.tail.headD endMark := by
  rw [peekNext, zipper_charAhead]
  match rest with
  | [] => rfl
  | [_] => rfl
  | _ :: _ :: _ => rfl

/-- The place behind the next character is the place with that character moved over. -/
theorem zipper_moveOver :
    { zipper before taken (c :: rest) line with
      current := byteLength before + byteLength taken + c.utf8Size } =
      zipper before (taken ++ [c]) rest line := by
  simp only [zipper, List.append_assoc, List.singleton_append, byteLength_append, byteLength_cons,
    byteLength_nil, Nat.add_zero, Nat.add_assoc]

/-- A step moves the next character over. -/
@[simp] theorem zipper_advance :
    (zipper before taken (c :: rest) line).advance =
      (c, zipper before (taken ++ [c]) rest line) := by
  have hascii := zipper_asciiAt? before taken line [] (c :: rest)
  rw [byteLength_nil, Nat.add_zero, List.nil_append] at hascii
  simp only [advance, zipper_atEnd, List.isEmpty_cons, zipper_current, hascii,
    zipper_charAt_current, List.head?_cons, Bool.false_eq_true, if_false]
  by_cases hc : c.utf8Size = 1
  · have hover := zipper_moveOver before taken rest line c
    rw [hc] at hover
    simp only [Option.filter_some, hc, decide_true, if_true, hover]
  · simp only [Option.filter_some, hc, decide_false, Bool.false_eq_true, if_false, zipper_moveOver]

/-- A step over an expected character moves it over if it is there. -/
theorem zipper_stepOver (x : Char) :
    (zipper before taken (c :: rest) line).stepOver x =
      if c = x then (true, zipper before (taken ++ [c]) rest line)
      else (false, zipper before taken (c :: rest) line) := by
  by_cases h : c = x
  · subst h
    simp only [stepOver, zipper_atEnd, List.isEmpty_cons, zipper_peek, List.headD_cons,
      bne_self_eq_false, Bool.or_self, zipper_current, zipper_moveOver, Bool.false_eq_true,
      if_false, if_true]
  · simp [stepOver, h]

@[simp] theorem zipper_stepOver_nil (x : Char) :
    (zipper before taken [] line).stepOver x = (false, zipper before taken [] line) := by
  simp [stepOver]

@[simp] theorem zipper_mark :
    (zipper before taken rest line).mark = zipper (before ++ taken) [] rest line := by
  simp [mark, zipper]

@[simp] theorem zipper_newLine :
    (zipper before taken rest line).newLine = zipper before taken rest (line + 1) := rfl

@[simp] theorem zipper_lexeme : (zipper before taken rest line).lexeme = String.ofList taken :=
  extract_ofList_append before taken rest

@[simp] theorem zipper_passed : (zipper before taken rest line).passed = before ++ taken := by
  have hcut := extract_ofList_append [] (before ++ taken) rest
  rw [byteLength_nil, Nat.zero_add, byteLength_append] at hcut
  unfold passed
  rw [zipper_current]
  simpa only [zipper, List.nil_append, String.toList_ofList] using congrArg String.toList hcut

@[simp] theorem zipper_left : (zipper before taken rest line).left = rest := by
  have hcut := extract_ofList_append (before ++ taken) rest []
  rw [List.append_nil, byteLength_append] at hcut
  unfold left
  rw [zipper_current, zipper_size]
  simpa only [zipper, String.toList_ofList] using congrArg String.toList hcut

/-! ## 5. Runs of steps -/

/-- A run of steps moves over the longest run of a class, if `go` looks for that class. -/
theorem zipper_stepWhile {go : Cursor → Bool} {live : ∀ c, go c = true → c.atEnd = false}
    {p : Char → Bool}
    (hgo : ∀ t c r, go (zipper before t (c :: r) line) = p c) :
    (zipper before taken rest line).stepWhile go live =
      zipper before (taken ++ rest.takeWhile p) (rest.dropWhile p) line := by
  induction rest generalizing taken with
  | nil =>
    have hstop : ¬ go (zipper before taken [] line) = true := fun h => by
      have := live _ h
      simp at this
    rw [stepWhile, dif_neg hstop]
    simp
  | cons c rest ih =>
    rw [stepWhile, hgo]
    by_cases h : p c = true
    · rw [dif_pos h, zipper_advance, ih, List.takeWhile_cons_of_pos h, List.dropWhile_cons_of_pos h]
      simp
    · rw [dif_neg h, List.takeWhile_cons_of_neg h, List.dropWhile_cons_of_neg h]
      simp

theorem zipper_eatDigits : (zipper before taken rest line).eatDigits =
    zipper before (taken ++ rest.takeWhile isDecimalDigit) (rest.dropWhile isDecimalDigit) line :=
  zipper_stepWhile before taken rest line fun t c r => by simp [sees]

theorem zipper_eatWord : (zipper before taken rest line).eatWord =
    zipper before (taken ++ rest.takeWhile isWordPart) (rest.dropWhile isWordPart) line :=
  zipper_stepWhile before taken rest line fun t c r => by simp [sees]

theorem zipper_eatLine : (zipper before taken rest line).eatLine =
    zipper before (taken ++ rest.takeWhile (· != '\n')) (rest.dropWhile (· != '\n')) line :=
  zipper_stepWhile before taken rest line fun t c r => by simp [meets]

theorem zipper_eatString (q : Char) : (zipper before taken rest line).eatString q =
    zipper before (taken ++ rest.takeWhile (isInside q)) (rest.dropWhile (isInside q)) line :=
  zipper_stepWhile before taken rest line fun t c r => by simp [meets]

/-- Going over a block comment ends where the comment closes, or at the end of the text, and counts
the line feeds it goes over.  `acc` is what has been gone over since the mark, the last character
first, as `closeComment` keeps it. -/
theorem zipper_eatComment (acc : List Char) :
    (zipper before acc.reverse rest (line + lineFeeds acc.reverse)).eatComment =
      match closeComment acc rest with
      | some (taken, rest) => (zipper before taken rest (line + lineFeeds taken), true)
      | none =>
        (zipper before (acc.reverse ++ rest) [] (line + lineFeeds (acc.reverse ++ rest)),
          false) := by
  fun_induction closeComment acc rest with
  | case1 acc => simp [eatComment]
  | case2 acc rest =>
    rw [eatComment]
    simp [lineFeeds]
  | case3 acc c rest hclose ih =>
    rw [eatComment]
    -- the two characters ahead are not the end of the comment
    have hahead : ¬ (c = '*' ∧ rest.headD endMark = '/') := by
      rintro ⟨rfl, hslash⟩
      cases rest with
      | nil => exact absurd hslash (by decide)
      | cons d rest => exact hclose rest rfl (by rw [← hslash]; rfl)
    have hgo : (c == '*' && rest.headD endMark == '/') = false := by
      simpa using hahead
    simp only [zipper_atEnd, List.isEmpty_cons, zipper_peek, List.headD_cons, zipper_peekNext,
      List.tail_cons, hgo, zipper_advance, Bool.false_eq_true, dite_false, if_false]
    rw [List.reverse_cons, List.append_assoc, List.singleton_append] at ih
    rw [← ih]
    congr 1
    by_cases hc : c = '\n'
    · subst hc
      simp [lineFeeds, Nat.add_assoc]
    · simp [hc, lineFeeds]

end Cursor

end CpScan
