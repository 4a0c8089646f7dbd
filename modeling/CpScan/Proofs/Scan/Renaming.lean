/-
# All stray characters are alike

No rule tells one stray character from another: a character that is not named by the grammar and is
no letter, digit or underscore goes into comments and strings, is unexpected anywhere else, and ends
whatever cannot have it.  So a map of stray characters to stray characters can be applied before a
scan or after it (`scan_commutes_with_renaming`).  The map need not be one-to-one, and may change
how many bytes a character has; it may bring in U+0000 or take it out.

This is seen rule by rule (`Rule.rename`).  A rule speaks of classes that have either all stray
characters or none, and of single characters that are not stray, and a renaming keeps both.  The
pieces of a renamed text are then the renamed pieces (`pieces_rename`).  A renamed piece is on the
same line and has the same characters before it, but they may be more bytes or fewer
(`renamedOffset`).
-/
import CpScan.Proofs.Scan.Joining

namespace CpScan

namespace Grammar

/-! ## 1. Renamings -/

/-- A character that opens no piece. -/
def StrayChar : Type := { c : Char // Stray c }

/-- A map of stray characters, as a map of all characters: the others stay. -/
def onStray (g : StrayChar → StrayChar) (c : Char) : Char :=
  if h : Stray c then (g ⟨c, h⟩).val else c

/-- The map takes stray characters to stray characters and leaves all others as they are. -/
structure Renames (f : Char → Char) : Prop where
  stray : ∀ c, Stray c → Stray (f c)
  other : ∀ c, ¬ Stray c → f c = c

theorem renames_onStray (g : StrayChar → StrayChar) : Renames (onStray g) where
  stray c h := by
    rw [onStray, dif_pos h]
    exact (g ⟨c, h⟩).property
  other c h := by
    rw [onStray, dif_neg h]

/-- A longest run stays one if the map keeps its class. -/
theorem Longest.map {f : Char → Char} {P : Char → Prop} (hP : ∀ c, P (f c) ↔ P c)
    {run rest : List Char} (h : Longest P run rest) : Longest P (run.map f) (rest.map f) := by
  obtain ⟨hall, hstop⟩ := longest_iff_stops.mp h
  refine longest_iff_stops.mpr ⟨?_, ?_⟩
  · intro d hd
    obtain ⟨c, hc, rfl⟩ := List.mem_map.mp hd
    exact (hP c).mpr (hall c hc)
  · intro d more heq hd
    obtain ⟨c, cs, hrest, rfl, -⟩ := List.map_eq_cons_iff.mp heq
    exact hstop c cs hrest ((hP c).mp hd)

theorem not_stray_of_digit {c : Char} (h : Digit c) : ¬ Stray c := fun hs => hs.1 h

theorem not_stray_of_wordStart {c : Char} (h : WordStart c) : ¬ Stray c := fun hs => hs.2.1 h

theorem not_stray_of_wordPart {c : Char} (h : WordPart c) : ¬ Stray c :=
  h.elim not_stray_of_wordStart not_stray_of_digit

theorem not_stray_of_mem_named {c : Char} (h : c ∈ named) : ¬ Stray c := fun hs => hs.2.2 h

theorem mem_named_of_mem_marks {c : Char} {kind : Kind} (h : (c, kind) ∈ marks) : c ∈ named := by
  have hnamed : ∀ entry ∈ marks, entry.1 ∈ named := by decide
  exact hnamed _ h

/-- Both characters of an operator are named. -/
theorem mem_named_of_mem_operators {c : Char} {p : Pair} (h : (c, p) ∈ operators) :
    c ∈ named ∧ p.second ∈ named := by
  have hnamed : ∀ entry ∈ operators, entry.1 ∈ named ∧ entry.2.second ∈ named := by decide
  exact hnamed _ h

namespace Renames

variable {f : Char → Char}

/-- A class without stray characters is kept. -/
theorem iff_of_not_stray (hf : Renames f) {P : Char → Prop} (hP : ∀ c, P c → ¬ Stray c) (c : Char) :
    P (f c) ↔ P c := by
  by_cases hc : Stray c
  · exact iff_of_false (fun h => hP _ h (hf.stray c hc)) (fun h => hP c h hc)
  · rw [hf.other c hc]

/-- No character becomes one that is not stray. -/
theorem eq_iff (hf : Renames f) {d : Char} (hd : ¬ Stray d) (c : Char) : f c = d ↔ c = d :=
  hf.iff_of_not_stray (P := (· = d)) (fun _ h => h ▸ hd) c

/-- A text without stray characters stays. -/
theorem map_eq_self (hf : Renames f) {w : List Char} (hw : ∀ c ∈ w, ¬ Stray c) : w.map f = w := by
  calc w.map f = w.map id := List.map_congr_left fun c hc => hf.other c (hw c hc)
    _ = w := List.map_id w

/-- The beginning of a renamed text is that of the text, as far as it is not stray. -/
theorem not_head (hf : Renames f) {d : Char} (hd : ¬ Stray d) {rest : List Char}
    (h : ∀ more, rest ≠ d :: more) : ∀ more, rest.map f ≠ d :: more := by
  intro more heq
  obtain ⟨c, cs, hrest, hc, -⟩ := List.map_eq_cons_iff.mp heq
  obtain rfl := (hf.eq_iff hd c).mp hc
  exact h cs hrest

/-- Nor does a digit come in. -/
theorem not_head_digit (hf : Renames f) {rest : List Char}
    (h : ∀ d more, Digit d → rest ≠ d :: more) : ∀ d more, Digit d → rest.map f ≠ d :: more := by
  rintro d more hd heq
  obtain ⟨c, cs, hrest, rfl, -⟩ := List.map_eq_cons_iff.mp heq
  exact h c cs ((hf.iff_of_not_stray (fun _ => not_stray_of_digit) c).mp hd) hrest

/-- Nor does the beginning of a fraction. -/
theorem not_fraction (hf : Renames f) {rest : List Char}
    (h : ∀ d more, Digit d → rest ≠ '.' :: d :: more) :
    ∀ d more, Digit d → rest.map f ≠ '.' :: d :: more := by
  rintro d more hd heq
  obtain ⟨c, cs, hrest, hc, hcs⟩ := List.map_eq_cons_iff.mp heq
  obtain rfl := (hf.eq_iff (not_stray_of_mem_named (by decide)) c).mp hc
  have hbehind : ∀ e es, Digit e → cs ≠ e :: es := by
    rintro e es he rfl
    exact h e es he hrest
  exact hf.not_head_digit hbehind d more hd hcs

/-- No end of a comment comes in. -/
theorem noEnd (hf : Renames f) {body : List Char} (h : NoEnd body) : NoEnd (body.map f) := by
  intro b r heq
  obtain ⟨b₀, r₀, hbody, -, hend⟩ := List.map_eq_append_iff.mp heq
  obtain ⟨c, r₁, rfl, hc, hslash⟩ := List.map_eq_cons_iff.mp hend
  obtain ⟨d, r₂, rfl, hd, -⟩ := List.map_eq_cons_iff.mp hslash
  obtain rfl := (hf.eq_iff (not_stray_of_mem_named (by decide)) c).mp hc
  obtain rfl := (hf.eq_iff (not_stray_of_mem_named (by decide)) d).mp hd
  exact h b₀ r₂ hbody

end Renames

end Grammar

/-! ## 2. Renamed pieces -/

theorem map_ofList (f : Char → Char) (w : List Char) :
    (String.ofList w).map f = String.ofList (w.map f) := by
  rw [← String.toList_inj, String.toList_map, String.toList_ofList, String.toList_ofList]

/-- An error about a renamed text. -/
@[simp]
def LexicalError.rename (f : Char → Char) : LexicalError → LexicalError
  | unexpectedCharacter c => unexpectedCharacter (f c)
  | error => error

/-- The value of a renamed token: a text is renamed, and a number stays. -/
@[simp]
def Literal.rename (f : Char → Char) : Literal → Literal
  | str text => .str (text.map f)
  | value => value

/-- What a renamed piece is. -/
@[simp]
def Outcome.rename (f : Char → Char) : Outcome → Outcome
  | token kind literal => token kind (literal.map (Literal.rename f))
  | report error => report (error.rename f)
  | skip => skip

namespace Grammar

variable {f : Char → Char}

/-- **A renamed text has the renamed first piece.**  What a rule asks of single characters and of
classes is kept, and what it takes is renamed with the text. -/
theorem Rule.rename (hf : Renames f) {text taken rest : List Char} {outcome : Outcome}
    (h : Rule text ⟨taken, outcome, rest⟩) :
    Rule (text.map f) ⟨taken.map f, outcome.rename f, rest.map f⟩ := by
  have hnamed {c : Char} (hc : c ∈ named) : f c = c := hf.other c (not_stray_of_mem_named hc)
  have hdigits {w : List Char} (hw : ∀ c ∈ w, Digit c) : w.map f = w :=
    hf.map_eq_self fun c hc => not_stray_of_digit (hw c hc)
  have hword {w : List Char} (hw : ∀ c ∈ w, WordPart c) : w.map f = w :=
    hf.map_eq_self fun c hc => not_stray_of_wordPart (hw c hc)
  have hdigit := hf.iff_of_not_stray (P := Digit) fun _ => not_stray_of_digit
  have hpart := hf.iff_of_not_stray (P := WordPart) fun _ => not_stray_of_wordPart
  have hfeed (c : Char) : f c ≠ '\n' ↔ c ≠ '\n' :=
    not_congr (hf.eq_iff (not_stray_of_mem_named (by decide)) c)
  have hinside {q : Char} (hq : q ∈ named) (c : Char) : f c ≠ q ∧ f c ≠ '\n' ↔ c ≠ q ∧ c ≠ '\n' :=
    and_congr (not_congr (hf.eq_iff (not_stray_of_mem_named hq) c)) (hfeed c)
  have hlineFeed : f '\n' = '\n' := hnamed (by decide)
  have hslash : f '/' = '/' := hnamed (by decide)
  have hstar : f '*' = '*' := hnamed (by decide)
  have hpoint : f '.' = '.' := hnamed (by decide)
  have hquote {q : Char} (hq : q = '"' ∨ q = '\'') : q ∈ named := by
    rcases hq with rfl | rfl
    · decide
    · decide
  cases h with
  | blank hc =>
    simpa [hnamed (mem_named_of_mem_blanks hc)] using Rule.blank hc
  | lineComment hrun =>
    have hrule := Rule.lineComment (hrun.map hfeed)
    simpa [hnamed (c := '#') (by decide)] using hrule
  | @blockComment body rest hend =>
    have hnone := hf.noEnd (firstEnd_iff.mp hend)
    have hrule := Rule.blockComment (firstEnd_iff.mpr hnone : FirstEnd (body.map f) (rest.map f))
    simpa [hslash, hstar] using hrule
  | openComment hend =>
    have hrule := Rule.openComment (hf.noEnd hend)
    simpa [hslash, hstar] using hrule
  | string hq hrun =>
    have hrun' := hrun.map (hinside (hquote hq))
    rw [List.map_cons, hnamed (hquote hq)] at hrun'
    simpa [hnamed (hquote hq), map_ofList] using Rule.string hq hrun'
  | brokenString hq hrun =>
    have hrun' := hrun.map (hinside (hquote hq))
    rw [List.map_cons, hlineFeed] at hrun'
    simpa [hnamed (hquote hq), hlineFeed] using Rule.brokenString hq hrun'
  | openString hq hrun =>
    have hrun' := hrun.map (hinside (hquote hq))
    simpa [hnamed (hquote hq)] using Rule.openString hq hrun'
  | integer hne hrun hend hvalue =>
    have hrun' := hrun.map hdigit
    rw [hdigits hrun.1] at hrun'
    simpa [hdigits hrun.1] using Rule.integer hne hrun' (hf.not_fraction hend) hvalue
  | hugeInteger hne hrun hend hvalue =>
    have hrun' := hrun.map hdigit
    rw [hdigits hrun.1] at hrun'
    simpa [hdigits hrun.1] using Rule.hugeInteger hne hrun' (hf.not_fraction hend) hvalue
  | float hwhole hne hrun hend =>
    have hrun' := hrun.map hdigit
    rw [hdigits hrun.1] at hrun'
    have hnext := hf.not_head (not_stray_of_mem_named (by decide)) hend
    simpa [hdigits hwhole, hdigits hrun.1, hpoint] using Rule.float hwhole hne hrun' hnext
  | brokenFloat hwhole hne hrun =>
    have hrun' := hrun.map hdigit
    rw [hdigits hrun.1, List.map_cons, hpoint] at hrun'
    have hrule := Rule.brokenFloat hwhole hne hrun'
    simpa [hdigits hwhole, hdigits hrun.1, hpoint] using hrule
  | reserved hc hrun hmem =>
    have hrun' := hrun.map hpart
    rw [hword hrun.1] at hrun'
    simpa [hf.other _ (not_stray_of_wordStart hc), hword hrun.1] using Rule.reserved hc hrun' hmem
  | identifier hc hrun hmem =>
    have hrun' := hrun.map hpart
    rw [hword hrun.1] at hrun'
    simpa [hf.other _ (not_stray_of_wordStart hc), hword hrun.1] using Rule.identifier hc hrun' hmem
  | mark hc =>
    simpa [hnamed (mem_named_of_mem_marks hc)] using Rule.mark hc
  | longOperator hc =>
    simpa [hnamed (mem_named_of_mem_operators hc).1, hnamed (mem_named_of_mem_operators hc).2]
      using Rule.longOperator hc
  | shortOperator hc hend =>
    have hnext := hf.not_head (not_stray_of_mem_named (mem_named_of_mem_operators hc).2) hend
    simpa [hnamed (mem_named_of_mem_operators hc).1] using Rule.shortOperator hc hnext
  | slash hend =>
    have hnext := hf.not_head (not_stray_of_mem_named (by decide)) hend
    simpa [hslash] using Rule.slash hnext
  | point hend => simpa [hpoint] using Rule.point (hf.not_head_digit hend)
  | stray hc => simpa using Rule.stray (hf.stray _ hc)

end Grammar

/-! ## 3. Renamed pieces in place -/

/-- Where a renamed source has the place that is at this offset in the source: behind the text
before it, renamed. -/
def renamedOffset (f : Char → Char) (source : String) (offset : Nat) : Nat :=
  ((between source 0 offset).map f).utf8ByteSize

/-- A place of a renamed source. -/
def Position.rename (f : Char → Char) (source : String) (p : Position) : Position :=
  ⟨renamedOffset f source p.offset, p.line⟩

/-- A piece of a renamed source. -/
def Piece.rename (f : Char → Char) (source : String) (p : Piece) : Piece :=
  ⟨p.start.rename f source, p.text.map f, p.outcome.rename f⟩

/-- A token of a renamed source: the kind and the line stay. -/
def Token.rename (f : Char → Char) (source : String) (t : Token) : Token :=
  ⟨t.kind, t.lexeme.map f, t.literal.map (Literal.rename f),
    ⟨renamedOffset f source t.span.start, renamedOffset f source t.span.stop, t.span.line⟩⟩

/-- A report about a renamed source. -/
def Report.rename (f : Char → Char) (source : String) (r : Report) : Report :=
  ⟨r.start.rename f source, r.error.rename f⟩

theorem renamedOffset_of_split (f : Char → Char) {source : String} {before rest : List Char}
    (h : source.toList = before ++ rest) :
    renamedOffset f source (byteLength before) = byteLength (before.map f) := by
  rw [renamedOffset, between_zero_of_split h, map_ofList, utf8ByteSize_ofList]

/-- A renaming keeps the line feeds, so it keeps the lines. -/
theorem Grammar.Renames.lineFeeds_map {f : Char → Char} (hf : Renames f) (text : List Char) :
    lineFeeds (text.map f) = lineFeeds text := by
  have hfeed (c : Char) : f c = '\n' ↔ c = '\n' := hf.eq_iff (not_stray_of_mem_named (by decide)) c
  induction text with
  | nil => rfl
  | cons c cs ih =>
    by_cases hc : c = '\n'
    · rw [List.map_cons, (hfeed c).mpr hc, hc, lineFeeds_cons_self, lineFeeds_cons_self, ih]
    · rw [List.map_cons, lineFeeds_cons_of_ne (mt (hfeed c).mp hc), lineFeeds_cons_of_ne hc, ih]

variable {f : Char → Char} {source : String}

/-- The place behind a part of the source is renamed with that part. -/
theorem Position.rename_after (hf : Grammar.Renames f) {before rest : List Char}
    (h : source.toList = before ++ rest) :
    (Position.after {} before).rename f source = Position.after {} (before.map f) := by
  rw [Scanner.after_start, Scanner.after_start, Position.rename, renamedOffset_of_split f h,
    hf.lineFeeds_map]

/-- **The pieces of a renamed text are the renamed pieces**, behind whatever has been gone over. -/
theorem piecesFrom_rename (hf : Grammar.Renames f) (before text : List Char)
    (hsplit : source.toList = before ++ text) :
    piecesFrom (Position.after {} (before.map f)) (text.map f) =
      (piecesFrom (Position.after {} before) text).map (Piece.rename f source) := by
  induction text using rule_induction generalizing before with
  | nil => simp
  | piece taken outcome rest hrule ih =>
    have hrenamed := hrule.rename hf
    rw [List.map_append] at hrenamed ⊢
    have hrest := ih (before ++ taken) (by rw [hsplit, List.append_assoc])
    rw [List.map_append, Position.after_append, Position.after_append] at hrest
    rw [piecesFrom_of_rule hrenamed, piecesFrom_of_rule hrule, List.map_cons, hrest, Piece.rename,
      Position.rename_after hf hsplit]

theorem pieces_rename (hf : Grammar.Renames f) (source : String) :
    (Scan.ofString (source.map f)).pieces =
      (Scan.ofString source).pieces.map (Piece.rename f source) := by
  have hpieces := piecesFrom_rename hf [] source.toList rfl
  rw [← String.toList_map] at hpieces
  exact hpieces

/-! ## 4. Renamed records -/

namespace Piece

/-- A renamed piece of a source stops where the piece stops. -/
theorem stop_rename (hf : Grammar.Renames f) {p : Piece} (h : p ∈ (Scan.ofString source).pieces) :
    (p.rename f source).stop = p.stop.rename f source := by
  obtain ⟨before, rest, hsplit, hstart⟩ := (piecesFrom_tiles {} source.toList).exists_split p h
  have hstop := Position.rename_after hf hsplit
  have hplace : p.start.rename f source = Position.after {} (before.map f) := by
    rw [hstart, Position.rename_after hf (by rw [hsplit, List.append_assoc])]
  calc (p.rename f source).stop
      = (p.start.rename f source).after (p.text.map f) := rfl
    _ = Position.after {} ((before ++ p.text).map f) := by
        rw [hplace, List.map_append, Position.after_append]
    _ = p.stop.rename f source := by rw [← hstop, Position.after_append, ← hstart, stop]

theorem token?_rename (hf : Grammar.Renames f) {p : Piece}
    (h : p ∈ (Scan.ofString source).pieces) :
    (p.rename f source).token? = p.token?.map (Token.rename f source) := by
  have hstop := stop_rename hf h
  obtain ⟨start, text, outcome⟩ := p
  cases outcome with
  | token kind literal =>
    rw [token?, hstop]
    simp only [rename, Outcome.rename, token?, Option.map_some, Token.rename, map_ofList]
    rfl
  | report error => rfl
  | skip => rfl

theorem report?_rename (p : Piece) :
    (p.rename f source).report? = p.report?.map (Report.rename f source) := by
  obtain ⟨start, text, outcome⟩ := p
  cases outcome with
  | token kind literal => rfl
  | report error => rfl
  | skip => rfl

end Piece

theorem tokens_rename (hf : Grammar.Renames f) (source : String) :
    (Scan.ofString (source.map f)).tokens =
      (Scan.ofString source).tokens.map (Token.rename f source) := by
  rw [Scan.tokens, Scan.tokens, pieces_rename hf, List.filterMap_map, List.map_filterMap]
  exact List.filterMap_congr fun p hp => p.token?_rename hf hp

theorem reports_rename (hf : Grammar.Renames f) (source : String) :
    (Scan.ofString (source.map f)).reports =
      (Scan.ofString source).reports.map (Report.rename f source) := by
  rw [Scan.reports, Scan.reports, pieces_rename hf, List.filterMap_map, List.map_filterMap]
  exact List.filterMap_congr fun p _ => p.report?_rename

/-! ## 5. Renamed sources -/

/-- The offsets in the two texts are those of the characters with one number, or of both ends. -/
def SameChar (s t : String) (i j : Nat) : Prop :=
  ∃ n ≤ s.length, i = byteLength (s.toList.take n) ∧ j = byteLength (t.toList.take n)

theorem sameChar_of_split (f : Char → Char) {before rest : List Char}
    (h : source.toList = before ++ rest) :
    SameChar source (source.map f) (byteLength before)
      (renamedOffset f source (byteLength before)) := by
  have hlength : before.length ≤ source.length := by
    rw [← String.length_toList, h, List.length_append]
    exact Nat.le_add_right _ _
  refine ⟨before.length, hlength, ?_, ?_⟩
  · rw [h, List.take_left]
  · have htake : (source.map f).toList.take before.length = before.map f := by
      rw [String.toList_map, h, List.map_append, List.take_left' (List.length_map f)]
    rw [renamedOffset_of_split f h, htake]

/-- The ends of a piece are those of its characters. -/
theorem Piece.sameChar (f : Char → Char) {p : Piece} (h : p ∈ (Scan.ofString source).pieces) :
    SameChar source (source.map f) p.start.offset (renamedOffset f source p.start.offset) ∧
      SameChar source (source.map f) p.stop.offset (renamedOffset f source p.stop.offset) := by
  obtain ⟨before, rest, hsplit, hstart⟩ := (piecesFrom_tiles {} source.toList).exists_split p h
  have hstop : p.stop.offset = byteLength (before ++ p.text) := by
    rw [stop, hstart, ← Position.after_append, Scanner.after_start]
  rw [hstop, hstart, Scanner.after_start]
  exact ⟨sameChar_of_split f (by rw [hsplit, List.append_assoc]), sameChar_of_split f hsplit⟩

/-- **The scanner treats all stray characters alike.**  Let the stray characters of a source be
replaced by stray characters.  Then the scan has the tokens and the reports it had, in the same
order, of the same kinds and values and on the same lines; only the stray characters that they
quote are replaced, and their offsets are those of the same characters as before.  The machine finds
these tokens and tells its collector of these reports. -/
theorem scan_commutes_with_renaming (g : Grammar.StrayChar → Grammar.StrayChar) (source : String) :
    let f := Grammar.onStray g
    let renamed := source.map f
    ((Scan.ofString renamed).tokens = (Scan.ofString source).tokens.map (Token.rename f source) ∧
      (Scan.ofString renamed).reports =
        (Scan.ofString source).reports.map (Report.rename f source)) ∧
    ((∀ t ∈ (Scan.ofString source).tokens,
        SameChar source renamed t.span.start (t.rename f source).span.start ∧
          SameChar source renamed t.span.stop (t.rename f source).span.stop) ∧
      ∀ r ∈ (Scan.ofString source).reports,
        SameChar source renamed r.start.offset (r.rename f source).start.offset) ∧
    ((Scanner.run renamed {}).tokens.toList =
        (Scanner.run source {}).tokens.toList.map (Token.rename f source) ∧
      (Scanner.run source {}).sink.diagnostics.toList =
        (Scan.ofString source).reports.map (fun r => .onLine r.start.line r.error.message) ∧
      (Scanner.run renamed {}).sink.diagnostics.toList =
        (Scan.ofString source).reports.map
          (fun r => .onLine r.start.line (r.error.rename f).message)) := by
  intro f renamed
  have hf : Grammar.Renames f := Grammar.renames_onStray g
  have htokens := tokens_rename hf source
  have hreports := reports_rename hf source
  refine ⟨⟨htokens, hreports⟩, ⟨?_, ?_⟩, ?_, ?_, ?_⟩
  · intro t ht
    obtain ⟨p, hp, htoken⟩ := List.mem_filterMap.mp ht
    rw [Token.rename, (Piece.token?_eq_some htoken).1]
    exact Piece.sameChar f hp
  · intro r hr
    obtain ⟨p, hp, hreport⟩ := List.mem_filterMap.mp hr
    rw [Report.rename, Piece.report?_eq_some hreport]
    exact (Piece.sameChar f hp).1
  · rw [(Scanner.run_eq renamed {}).1, (Scanner.run_eq source {}).1]
    exact htokens
  · exact Scanner.run_diagnostics source {}
  · have hsink : (Scanner.run renamed {}).sink.diagnostics.toList =
        (Scan.ofString renamed).reports.map Report.diagnostic := Scanner.run_diagnostics renamed {}
    rw [hsink, hreports, List.map_map]
    rfl

/-- With U+0000 for both `é`, the one behind the string is still reported, and the one inside is
still a part of it; the string now stops earlier. -/
theorem scan_commutes_with_renaming_nul :
    (Scan.ofString "'aé'é").tokens = [⟨.string, "'aé'", some (.str "aé"), ⟨0, 5, 1⟩⟩] ∧
      (Scan.ofString "'a\x00'\x00").tokens =
        [⟨.string, "'a\x00'", some (.str "a\x00"), ⟨0, 4, 1⟩⟩] ∧
      (Scan.ofString "'a\x00'\x00").reports = [⟨⟨4, 1⟩, .unexpectedCharacter '\x00'⟩] ∧
      SameChar "'aé'é" "'a\x00'\x00" 5 4 := by
  have htokens : (Scan.ofString "'aé'é").tokens =
      [⟨.string, "'aé'", some (.str "aé"), ⟨0, 5, 1⟩⟩] := by decide +kernel
  have hreports : (Scan.ofString "'aé'é").reports = [⟨⟨5, 1⟩, .unexpectedCharacter 'é'⟩] := by
    decide +kernel
  have hrenamed : "'aé'é".map (Grammar.onStray fun _ => ⟨'\x00', by decide⟩) = "'a\x00'\x00" := by
    decide +kernel
  obtain ⟨⟨htokens', hreports'⟩, ⟨hsame, -⟩, -⟩ :=
    scan_commutes_with_renaming (fun _ => ⟨'\x00', by decide⟩) "'aé'é"
  rw [hrenamed] at htokens' hreports' hsame
  rw [htokens] at htokens' hsame
  rw [hreports] at hreports'
  refine ⟨htokens, ?_, ?_, ?_⟩
  · rw [htokens']
    decide +kernel
  · rw [hreports']
    decide +kernel
  · have hoffset : renamedOffset (Grammar.onStray fun _ => ⟨'\x00', by decide⟩) "'aé'é" 5 = 4 := by
      decide +kernel
    have hstop := (hsame _ List.mem_cons_self).2
    rw [Token.rename, hoffset] at hstop
    exact hstop

end CpScan
