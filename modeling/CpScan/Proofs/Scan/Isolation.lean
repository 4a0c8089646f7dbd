/-
# One character between two texts

A blank on a line, or a character that opens no piece, keeps the texts on its two sides apart: the
scan of `a`, the character and `b` is the scan of `a`, then what the character itself comes to, then
the scan of `b` moved to where it stands (`one_character_is_isolated`).  A blank comes to nothing,
and any other such character to one report.

It does not matter which character it is, or how many bytes it has.  All of them are quiet, so each
piece of `a` ends before them as it does at the end of the text.  That is also so for U+0000, which
the cursor of the machine sees at the end of the text.

Only the last piece of `a` could take the character in, if it goes up to something that has not come
(`Piece.Open`): a line comment, a block comment without an end, or a string that the end of the text
breaks off.  Here the pieces themselves are compared, and not only what they ask for, because no
piece changes when the last one is not open (`piecesFrom_append`).
-/
import CpScan.Proofs.Scan.Joining

namespace CpScan

/-! ## 1. Characters that stand alone -/

namespace Grammar

/-- No token goes on with a character that opens no piece. -/
theorem quiet_of_stray {c : Char} (h : Stray c) : Quiet c := by
  obtain ⟨hdigit, hstart, hnamed⟩ := h
  refine ⟨?_, ?_, ?_, ?_⟩
  · rintro (hs | hd)
    · exact hstart hs
    · exact hdigit hd
  · rintro rfl
    exact hnamed (by decide)
  · rintro rfl
    exact hnamed (by decide)
  · rintro rfl
    exact hnamed (by decide)

/-- A character that is a piece by itself and no token: a blank on a line, or one that opens no
piece. -/
def StandsOut (c : Char) : Prop := isBlank c = true ∨ Stray c

/-- What such a character comes to. -/
def standOutcome (c : Char) : Outcome :=
  if isBlank c then .skip else .report (.unexpectedCharacter c)

theorem StandsOut.quiet {c : Char} (h : StandsOut c) : Quiet c := by
  rcases h with hblank | hstray
  · exact quiet_of_mem_blanks ((mem_blanks_iff c).mpr (.inr hblank))
  · exact quiet_of_stray hstray

/-- It is a piece, whatever stands behind it. -/
theorem StandsOut.rule {c : Char} (h : StandsOut c) (rest : List Char) :
    Rule (c :: rest) ⟨[c], standOutcome c, rest⟩ := by
  unfold standOutcome
  rcases h with hblank | hstray
  · rw [if_pos hblank]
    exact .blank ((mem_blanks_iff c).mpr (.inr hblank))
  · have hblank : ¬ isBlank c = true := fun hblank =>
      hstray.2.2 (mem_named_of_mem_blanks ((mem_blanks_iff c).mpr (.inr hblank)))
    rw [if_neg hblank]
    exact .stray hstray

theorem StandsOut.ne_lineFeed {c : Char} (h : StandsOut c) : c ≠ '\n' := by
  rintro rfl
  rcases h with hblank | ⟨-, -, hnamed⟩
  · exact absurd hblank (by decide)
  · exact hnamed (by decide)

end Grammar

/-! ## 2. Pieces that are open at the end -/

/-- A piece that goes on with what comes behind the text, if it is the last: a line comment, a block
comment without an end, or a string broken off by the end of the text and not by a line feed. -/
def Piece.Open (p : Piece) : Prop :=
  (p.outcome = .skip ∧ p.text.head? = some '#') ∨
    p.outcome = .report .unfinishedComment ∨
    (p.outcome = .report .unfinishedString ∧ p.text.getLast? ≠ some '\n')

/-- What leans on the end of the text is open. -/
theorem Grammar.Leans.open {taken : List Char} {outcome : Outcome}
    (h : Leans ⟨taken, outcome, []⟩) (here : Position) : Piece.Open ⟨here, taken, outcome⟩ := by
  generalize hrest : ([] : List Char) = rest at h
  cases h with
  | lineComment => exact .inl ⟨rfl, rfl⟩
  | openComment => exact .inr (.inl rfl)
  | @openString q w hq hrun =>
    refine .inr (.inr ⟨rfl, fun hlast => ?_⟩)
    rcases List.mem_cons.mp (List.mem_of_getLast? hlast) with hquote | hmem
    · rcases hq with rfl | rfl
      · exact absurd hquote (by decide)
      · exact absurd hquote (by decide)
    · exact (hrun.1 _ hmem).2 rfl
  | brokenFloat => cases hrest

/-- **Texts are apart where no piece is open.**  If the last piece of a text is not open, and what
follows begins with a quiet character, then the pieces are those of the text and those of what
follows. -/
theorem piecesFrom_append {here : Position} {a w : List Char}
    (hw : ∀ c more, w = c :: more → Grammar.Quiet c)
    (hlast : ∀ p, (piecesFrom here a).getLast? = some p → ¬ p.Open) :
    piecesFrom here (a ++ w) = piecesFrom here a ++ piecesFrom (here.after a) w := by
  induction a using rule_induction generalizing here with
  | nil => rw [piecesFrom_nil, List.nil_append, List.nil_append, Position.after_nil]
  | piece taken outcome rest hrule ih =>
    rw [piecesFrom_of_rule hrule] at hlast ⊢
    rcases hrule.append hw with hgoes | ⟨rfl, hleans⟩
    · rw [List.append_assoc, piecesFrom_of_rule hgoes, Position.after_append, List.cons_append]
      refine congrArg _ (ih fun p hp => hlast p ?_)
      rw [List.getLast?_cons, hp, Option.getD_some]
    · refine absurd (hleans.open here) (hlast _ ?_)
      rw [piecesFrom_nil, List.getLast?_singleton]

/-- The character between two texts is a piece, and nothing else changes. -/
theorem piecesFrom_append_cons {here : Position} {a : List Char} {c : Char}
    (hc : Grammar.StandsOut c) (hlast : ∀ p, (piecesFrom here a).getLast? = some p → ¬ p.Open)
    (b : List Char) :
    piecesFrom here (a ++ c :: b) =
      piecesFrom here a ++ ⟨here.after a, [c], Grammar.standOutcome c⟩ ::
        piecesFrom (here.after (a ++ [c])) b := by
  have hquiet : ∀ d more, c :: b = d :: more → Grammar.Quiet d := by
    rintro _ _ ⟨⟩
    exact hc.quiet
  rw [piecesFrom_append hquiet hlast, piecesFrom_of_rule (hc.rule b), Position.after_append]

/-! ## 3. Whole scans -/

/-- What is reported about a character that stands out at a place: nothing if it is a blank. -/
def standReports (place : Position) (c : Char) : List Report :=
  if isBlank c then [] else [⟨place, .unexpectedCharacter c⟩]

theorem tokens_stand (place : Position) (c : Char) (ps : List Piece) :
    ((⟨place, [c], Grammar.standOutcome c⟩ : Piece) :: ps).filterMap Piece.token? =
      ps.filterMap Piece.token? := by
  unfold Grammar.standOutcome
  split
  · rfl
  · rfl

theorem reports_stand (place : Position) (c : Char) (ps : List Piece) :
    ((⟨place, [c], Grammar.standOutcome c⟩ : Piece) :: ps).filterMap Piece.report? =
      standReports place c ++ ps.filterMap Piece.report? := by
  unfold Grammar.standOutcome standReports
  split
  · rfl
  · rfl

/-- The tokens and reports of two texts with one character between them. -/
theorem scan_append_cons {a : List Char} {c : Char} (hc : Grammar.StandsOut c)
    (hlast : ∀ p, (Scan.of a).pieces.getLast? = some p → ¬ p.Open) (b : List Char) :
    (Scan.of (a ++ c :: b)).tokens = (Scan.of a).tokens ++
        (Scan.of b).tokens.map (Token.shift (byteLength a + c.utf8Size) (lineFeeds a)) ∧
      (Scan.of (a ++ c :: b)).reports = (Scan.of a).reports ++
        (standReports ⟨byteLength a, 1 + lineFeeds a⟩ c ++
          (Scan.of b).reports.map (Report.shift (byteLength a + c.utf8Size) (lineFeeds a))) := by
  have hbytes : byteLength (a ++ [c]) = byteLength a + c.utf8Size := by
    rw [byteLength_append, byteLength_cons, byteLength_nil, Nat.add_zero]
  have hfeeds : lineFeeds (a ++ [c]) = lineFeeds a := by
    rw [lineFeeds_append, lineFeeds_cons_of_ne hc.ne_lineFeed, lineFeeds_nil, Nat.add_zero]
  have hpieces : (Scan.of (a ++ c :: b)).pieces = _ := piecesFrom_append_cons hc hlast b
  rw [piecesFrom_after, hbytes, hfeeds, Scanner.after_start] at hpieces
  unfold Scan.tokens Scan.reports
  rw [hpieces]
  constructor
  · rw [List.filterMap_append, tokens_stand, tokens_map_shift]
    rfl
  · rw [List.filterMap_append, reports_stand, reports_map_shift]
    rfl

/-- **One character is isolated.**  Let the character between `a` and `b` be a blank on a line or
one that opens no piece, and let the last piece of `a`, if there is one, not be open.  Then the
tokens are those of `a` and those of `b`, shifted by the bytes and lines before `b`; and the reports
are those of `a`, one that the character is unexpected unless it is a blank, on the line where `a`
ends, and those of `b`, shifted.  The machine finds these tokens, tells its collector of these
reports, and counts lines in 32 bits. -/
theorem one_character_is_isolated (a b : String) (c : Char)
    (hfeeds : lineFeeds a.toList + lineFeeds b.toList < 2 ^ 32 - 1)
    (hc : isBlank c = true ∨ Grammar.Stray c)
    (hlast : ∀ p, (Scan.ofString a).pieces.getLast? = some p → ¬ p.Open) :
    let whole := a ++ String.singleton c ++ b
    let bytes := a.utf8ByteSize + c.utf8Size
    let feeds := lineFeeds a.toList
    let line := 1 + feeds
    ((Scan.ofString whole).tokens =
        (Scan.ofString a).tokens ++ (Scan.ofString b).tokens.map (Token.shift bytes feeds) ∧
      (Scan.ofString whole).reports =
        (Scan.ofString a).reports ++
          ((if isBlank c then [] else [⟨⟨a.utf8ByteSize, line⟩, .unexpectedCharacter c⟩]) ++
            (Scan.ofString b).reports.map (Report.shift bytes feeds))) ∧
    ((Scanner.run whole {}).tokens.toList =
        (Scanner.run a {}).tokens.toList ++
          (Scanner.run b {}).tokens.toList.map (Token.shift bytes feeds) ∧
      (Scanner.run whole {}).sink.diagnostics.toList =
        (Scanner.run a {}).sink.diagnostics.toList ++
          ((if isBlank c then []
            else [Diagnostic.onLine line ("unexpected character '" ++ String.singleton c ++ "'")]) ++
            (Scanner.run b {}).sink.diagnostics.toList.map (Diagnostic.shift feeds))) ∧
    ∀ s, Scanner.Head whole {} s → s.cursor.line < 2 ^ 32 := by
  intro whole bytes feeds line
  have hwhole : whole.toList = a.toList ++ c :: b.toList := by
    simp [whole]
  have hsize : byteLength a.toList = a.utf8ByteSize := by
    rw [← utf8ByteSize_ofList, String.ofList_toList]
  obtain ⟨htokens, hreports⟩ := scan_append_cons hc hlast b.toList
  rw [hsize, ← hwhole] at htokens hreports
  refine ⟨⟨htokens, hreports⟩, ⟨?_, ?_⟩, ?_⟩
  · rw [(Scanner.run_eq whole {}).1, (Scanner.run_eq a {}).1, (Scanner.run_eq b {}).1]
    exact htokens
  · have hsink (source : String) : (Scanner.run source {}).sink.diagnostics.toList =
        (Scan.ofString source).reports.map Report.diagnostic := Scanner.run_diagnostics source {}
    have hstand : (standReports ⟨a.utf8ByteSize, line⟩ c).map Report.diagnostic =
        if isBlank c then []
        else [Diagnostic.onLine line ("unexpected character '" ++ String.singleton c ++ "'")] := by
      unfold standReports
      split
      · rfl
      · rfl
    rw [hsink, hsink, hsink, ← hstand, Scan.ofString, hreports, List.map_append, List.map_append,
      List.map_map, List.map_map]
    rfl
  · intro s hs
    refine hs.line_lt ?_
    rw [hwhole, lineFeeds_append, lineFeeds_cons_of_ne (Grammar.StandsOut.ne_lineFeed hc)]
    exact hfeeds

/-- The cursor sees U+0000 at the end of a text, but in a text it is a character like any other: it
keeps two operators apart and is reported. -/
theorem one_character_is_isolated_nul :
    (Scan.ofString ("'\n1.\n<" ++ String.singleton '\x00' ++ "=.5")).reports =
        [⟨⟨0, 1⟩, .unfinishedString⟩, ⟨⟨6, 3⟩, .unexpectedCharacter '\x00'⟩] ∧
      (Scan.ofString ("'\n1.\n<" ++ String.singleton '\x00' ++ "=.5")).tokens =
        [⟨.int, "1", some (.int 1), ⟨2, 3, 2⟩⟩, ⟨.dot, ".", none, ⟨3, 4, 2⟩⟩,
          ⟨.less, "<", none, ⟨5, 6, 3⟩⟩, ⟨.equal, "=", none, ⟨7, 8, 3⟩⟩,
          ⟨.float, ".5", some (.float (Double.ofDigits [] ['5'])), ⟨8, 10, 3⟩⟩] := by
  have hstray : Grammar.Stray '\x00' := by decide
  have hlast : ∀ p, (Scan.ofString "'\n1.\n<").pieces.getLast? = some p → ¬ p.Open := by
    have hless : (Scan.ofString "'\n1.\n<").pieces.getLast? =
        some ⟨⟨5, 3⟩, ['<'], .token .less none⟩ := by decide +kernel
    intro p hp
    rw [hless, Option.some_inj] at hp
    subst hp
    simp [Piece.Open]
  obtain ⟨⟨htokens, hreports⟩, -⟩ :=
    one_character_is_isolated "'\n1.\n<" "=.5" '\x00' (by decide) (.inr hstray) hlast
  rw [htokens, hreports]
  decide +kernel

end CpScan
