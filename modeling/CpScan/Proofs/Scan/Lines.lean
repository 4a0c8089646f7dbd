/-
# Line numbers are exact

The line counter of the machine is moved by hand.  Still, whenever a turn begins it is one more
than the number of line feeds gone over (`Scanner.Head.line_eq`), because each way of reading a
piece counts exactly the line feeds that it takes.  So what a token or a report says about its line
can be read off the source: it is one more than the number of line feeds before the place where the
piece *starts*.  That is also so for an error that is noticed later, such as a string that breaks
off or a comment that never ends.

No token has a line feed in it (`Grammar.Rule.no_lineFeed`): of all rules for a token, the one for
strings is the only one that could take any character, and its run stops at a line feed.

A counter of 32 bits is enough for every source with fewer than `2 ^ 32 - 1` line feeds.
-/
import CpScan.Proofs.Scan.Coverage
import CpScan.Proofs.Scan.Grammar

namespace CpScan

/-! ## 1. Tokens have no line feed -/

namespace Grammar

theorem not_digit_lineFeed : ¬ Digit '\n' := by
  rintro ⟨hlow, -⟩
  exact absurd hlow (by decide)

theorem not_wordPart_lineFeed : ¬ WordPart '\n' := fun h =>
  absurd ((isWordPart_iff _).mpr h) (by decide)

theorem not_wordStart_lineFeed : ¬ WordStart '\n' := fun h => not_wordPart_lineFeed (.inl h)

/-- **A token has no line feed in it.** -/
theorem Rule.no_lineFeed {text taken rest : List Char} {kind : Kind} {literal : Option Literal}
    (h : Rule text ⟨taken, .token kind literal, rest⟩) : '\n' ∉ taken := by
  intro hmem
  cases h with
  | @string q w rest hq hrun =>
    have hne : '\n' ≠ q := by rcases hq with rfl | rfl <;> decide
    rcases List.mem_cons.mp hmem with heq | hmem
    · exact hne heq
    rcases List.mem_append.mp hmem with hw | hquote
    · exact (hrun.1 _ hw).2 rfl
    · exact hne (List.mem_singleton.mp hquote)
  | integer _ hrun => exact not_digit_lineFeed (hrun.1 _ hmem)
  | float hwhole _ hrun =>
    rcases List.mem_append.mp hmem with hmem | hmem
    · exact not_digit_lineFeed (hwhole _ hmem)
    rcases List.mem_cons.mp hmem with heq | hmem
    · exact absurd heq (by decide)
    · exact not_digit_lineFeed (hrun.1 _ hmem)
  | reserved hc hrun =>
    rcases List.mem_cons.mp hmem with rfl | hmem
    · exact not_wordStart_lineFeed hc
    · exact not_wordPart_lineFeed (hrun.1 _ hmem)
  | identifier hc hrun =>
    rcases List.mem_cons.mp hmem with rfl | hmem
    · exact not_wordStart_lineFeed hc
    · exact not_wordPart_lineFeed (hrun.1 _ hmem)
  | mark hc =>
    exact ne_lineFeed_of_lone ((mem_marks_iff _ _).mp hc) (List.mem_singleton.mp hmem).symm
  | longOperator hc =>
    have hpair := (mem_operators_iff _ _).mp hc
    rcases List.mem_cons.mp hmem with rfl | hmem
    · exact ne_lineFeed_of_pair hpair rfl
    · exact second_ne_lineFeed hpair (List.mem_singleton.mp hmem).symm
  | shortOperator hc =>
    exact ne_lineFeed_of_pair ((mem_operators_iff _ _).mp hc) (List.mem_singleton.mp hmem).symm
  | slash => exact absurd (List.mem_singleton.mp hmem) (by decide)
  | point => exact absurd (List.mem_singleton.mp hmem) (by decide)

end Grammar

/-- No token of a scan has a line feed in it. -/
theorem token_no_lineFeed {source : String} {t : Token} (h : t ∈ (Scan.ofString source).tokens) :
    '\n' ∉ t.lexeme.toList := by
  obtain ⟨p, hp, htoken⟩ := List.mem_filterMap.mp h
  obtain ⟨c, cs, htext, houtcome⟩ := exists_cut_of_mem hp
  rw [(Piece.token?_eq_some htoken).2, String.toList_ofList, htext]
  cases hk : (cut c cs).outcome with
  | token kind literal =>
    have hrule := (Grammar.rule_iff c cs (cut c cs)).mpr rfl
    rw [show cut c cs = ⟨(cut c cs).taken, .token kind literal, (cut c cs).rest⟩ by rw [← hk]]
      at hrule
    exact hrule.no_lineFeed
  | report error =>
    rw [hk] at houtcome
    simp [Piece.token?, houtcome] at htoken
  | skip =>
    rw [hk] at houtcome
    simp [Piece.token?, houtcome] at htoken

/-! ## 2. The line of a piece -/

namespace Tiles

variable {here : Position} {text : List Char} {ps : List Piece}

theorem line_le_start (h : Tiles here text ps) : ∀ p ∈ ps, here.line ≤ p.start.line := by
  intro p hp
  obtain ⟨before, rest, -, hstart⟩ := h.exists_split p hp
  rw [hstart, Position.after_line]
  exact Nat.le_add_right _ _

/-- Lines do not go back from piece to piece. -/
theorem lines_pairwise (h : Tiles here text ps) :
    ps.Pairwise fun p q => p.start.line ≤ q.start.line := by
  induction h with
  | done => exact .nil
  | @piece p rest ps _ hps ih =>
    refine .cons ?_ ih
    intro q hq
    have hstop : p.start.line ≤ p.stop.line := by
      rw [Piece.stop, Position.after_line]
      exact Nat.le_add_right _ _
    exact Nat.le_trans hstop (hps.line_le_start q hq)

end Tiles

/-- Number of the line that an offset of a source is on, counted in the source. -/
def lineAt (source : String) (offset : Nat) : Nat := 1 + lineFeeds (between source 0 offset).toList

/-- The line of a piece is the one counted at its start. -/
theorem piece_line {source : String} {p : Piece} (h : p ∈ (Scan.ofString source).pieces) :
    p.start.line = lineAt source p.start.offset := by
  obtain ⟨before, rest, hsplit, hstart⟩ := (piecesFrom_tiles {} source.toList).exists_split p h
  have hbetween : between source 0 (byteLength before) = String.ofList before :=
    between_zero_of_split (by rw [hsplit, List.append_assoc])
  rw [hstart, Scanner.after_start, lineAt, hbetween, String.toList_ofList]

/-! ## 3. The counter of the machine -/

/-- **Whenever a turn begins, the counter is right.** -/
theorem Scanner.Head.line_eq {source : String} {sink : Collector} {s : Scanner}
    (h : Head source sink s) : s.cursor.line = 1 + lineFeeds s.cursor.passed := by
  obtain ⟨before, rest, done, hs⟩ := h.stands
  obtain ⟨b, t, hbt, hcursor⟩ := hs.cursor
  rw [hcursor, Cursor.zipper_line, Cursor.zipper_passed, hbt]

/-- It counts no line feed that the source does not have. -/
theorem Scanner.Head.line_le {source : String} {sink : Collector} {s : Scanner}
    (h : Head source sink s) : s.cursor.line ≤ 1 + lineFeeds source.toList := by
  obtain ⟨before, rest, done, hs⟩ := h.stands
  obtain ⟨b, t, hbt, hcursor⟩ := hs.cursor
  rw [hcursor, Cursor.zipper_line, ← hs.split, lineFeeds_append]
  omega

/-- So it fits 32 bits, if the source has not too many of them. -/
theorem Scanner.Head.line_lt {source : String} {sink : Collector} {s : Scanner}
    (h : Head source sink s) (hfeeds : lineFeeds source.toList < 2 ^ 32 - 1) :
    s.cursor.line < 2 ^ 32 := by
  have hle := h.line_le
  omega

/-! ## 4. All lines -/

/-- **Line numbers are exact.**  In the scan of a source with fewer than `2 ^ 32 - 1` line feeds the
counter is right at the beginning of every turn, and fits 32 bits; each token, each report and each
diagnostic is on the line that its piece starts on; lines never go back; no token has a line feed;
and the end of the scan is logged with the number of the last line. -/
theorem lines_are_exact (source : String) (sink : Collector)
    (hfeeds : lineFeeds source.toList < 2 ^ 32 - 1) :
    (∀ s, Scanner.Head source sink s →
        s.cursor.line = 1 + lineFeeds s.cursor.passed ∧ s.cursor.line < 2 ^ 32) ∧
      (Scanner.run source sink).tokens.toList = (Scan.ofString source).tokens ∧
      (Scanner.run source sink).log.toList = (Scan.ofString source).events ∧
      (Scanner.run source sink).sink = sink.absorb (Scan.ofString source) ∧
      (∀ t ∈ (Scan.ofString source).tokens,
        t.span.line = lineAt source t.span.start ∧ '\n' ∉ t.lexeme.toList) ∧
      (∀ r ∈ (Scan.ofString source).reports,
        r.start.line = lineAt source r.start.offset ∧ r.diagnostic.span.line = r.start.line) ∧
      (Scan.ofString source).tokens.Pairwise (fun a b => a.span.line ≤ b.span.line) ∧
      (Scan.ofString source).reports.Pairwise (fun a b => a.start.line ≤ b.start.line) ∧
      (Scan.ofString source).events.getLast? = some (.scanFinished
        (Scan.ofString source).tokens.length (Scan.ofString source).reports.length
        (1 + lineFeeds source.toList)) := by
  obtain ⟨htokens, hlog, hsink, -, -⟩ := Scanner.run_eq source sink
  have hpairs := (piecesFrom_tiles {} source.toList).lines_pairwise
  refine ⟨?_, htokens, hlog, hsink, ?_, ?_, ?_, ?_, ?_⟩
  · intro s hs
    have hle := hs.line_le
    exact ⟨hs.line_eq, by omega⟩
  · intro t ht
    obtain ⟨p, hp, htoken⟩ := List.mem_filterMap.mp ht
    refine ⟨?_, token_no_lineFeed ht⟩
    rw [(Piece.token?_eq_some htoken).1]
    exact piece_line hp
  · intro r hr
    obtain ⟨p, hp, hreport⟩ := List.mem_filterMap.mp hr
    refine ⟨?_, rfl⟩
    rw [Piece.report?_eq_some hreport]
    exact piece_line hp
  · refine List.Pairwise.filterMap _ ?_ hpairs
    intro p q hpq a ha b hb
    rw [(Piece.token?_eq_some ha).1, (Piece.token?_eq_some hb).1]
    exact hpq
  · refine List.Pairwise.filterMap _ ?_ hpairs
    intro p q hpq a ha b hb
    rw [Piece.report?_eq_some ha, Piece.report?_eq_some hb]
    exact hpq
  · have hlines : (Scan.ofString source).lines = 1 + lineFeeds source.toList :=
      Position.after_line {} source.toList
    rw [Scan.events, List.getLast?_concat, hlines]

/-- A string that breaks off at the end of the second line, behind a comment that takes up the first:
it is reported where it begins. -/
theorem lines_are_exact_broken_string :
    (⟨⟨6, 2⟩, .unfinishedString⟩ : Report) ∈ (Scan.ofString "/*\n*/ 'a\nb").reports ∧
      2 = lineAt "/*\n*/ 'a\nb" 6 := by
  have hfeeds : lineFeeds "/*\n*/ 'a\nb".toList < 2 ^ 32 - 1 := by decide
  have hmem : (⟨⟨6, 2⟩, .unfinishedString⟩ : Report) ∈
      (Scan.ofString "/*\n*/ 'a\nb").reports := by decide +kernel
  exact ⟨hmem, ((lines_are_exact _ {} hfeeds).2.2.2.2.2.1 _ hmem).1⟩

end CpScan
