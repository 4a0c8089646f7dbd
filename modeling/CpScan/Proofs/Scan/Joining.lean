/-
# Texts joined at a line feed

Scanning does not carry anything over a line feed: the scan of `a`, a line feed and `b` is the scan
of `a` followed by the scan of `b`, moved to where `b` stands (`scan_joins_at_lineFeed`).  Only a
comment that is still open at the end of `a` would run on into `b`.

What is compared is what the pieces ask for (`SameRecords`), and not the pieces themselves.  The
last piece of `a` may change when a line feed follows: a string that the end of the text broke off
takes the line feed with it.  It is malformed either way, and reported at the same place.  So are
the blanks behind a text: they may become part of its last piece, but they change no token and no
report (`records_append_blanks`).

Where a text stands shows in its pieces only as a shift of their places (`piecesFrom_shift`).
-/
import CpScan.Proofs.Scan.Lines
import CpScan.Proofs.Scan.Lookahead

namespace CpScan

/-! ## 1. Shifted places -/

/-- A place as many bytes and line feeds further on. -/
def Position.shift (bytes feeds : Nat) (p : Position) : Position :=
  ⟨p.offset + bytes, p.line + feeds⟩

/-- A piece further on. -/
def Piece.shift (bytes feeds : Nat) (p : Piece) : Piece :=
  { p with start := p.start.shift bytes feeds }

/-- A token further on. -/
def Token.shift (bytes feeds : Nat) (t : Token) : Token :=
  { t with span := ⟨t.span.start + bytes, t.span.stop + bytes, t.span.line + feeds⟩ }

/-- A report further on. -/
def Report.shift (bytes feeds : Nat) (r : Report) : Report :=
  { r with start := r.start.shift bytes feeds }

/-- A diagnostic that knows only its line, on a later one. -/
def Diagnostic.shift (feeds : Nat) (d : Diagnostic) : Diagnostic :=
  { d with span := { d.span with line := d.span.line + feeds } }

/-- Going over a text shifts a place by the bytes and the line feeds of the text. -/
theorem Position.after_eq_shift (p : Position) (text : List Char) :
    p.after text = p.shift (byteLength text) (lineFeeds text) := by
  have hoffset := p.after_offset text
  have hline := p.after_line text
  rw [Position.shift, ← hoffset, ← hline]

theorem Position.after_shift (p : Position) (bytes feeds : Nat) (text : List Char) :
    (p.shift bytes feeds).after text = (p.after text).shift bytes feeds := by
  rw [after_eq_shift, after_eq_shift]
  simp only [shift, Nat.add_right_comm]

theorem Piece.token?_shift (p : Piece) (bytes feeds : Nat) :
    (p.shift bytes feeds).token? = p.token?.map (Token.shift bytes feeds) := by
  obtain ⟨start, text, outcome⟩ := p
  cases outcome with
  | token kind literal =>
    simp only [shift, token?, stop, Position.after_shift, Option.map_some, Token.shift]
    rfl
  | report error => rfl
  | skip => rfl

theorem Piece.report?_shift (p : Piece) (bytes feeds : Nat) :
    (p.shift bytes feeds).report? = p.report?.map (Report.shift bytes feeds) := by
  obtain ⟨start, text, outcome⟩ := p
  cases outcome <;> rfl

/-- **Where a text stands only shifts its pieces.** -/
theorem piecesFrom_shift (here : Position) (bytes feeds : Nat) (text : List Char) :
    piecesFrom (here.shift bytes feeds) text =
      (piecesFrom here text).map (Piece.shift bytes feeds) := by
  induction text using rule_induction generalizing here with
  | nil => simp
  | piece taken outcome rest hrule ih =>
    rw [piecesFrom_of_rule hrule, piecesFrom_of_rule hrule, List.map_cons, Position.after_shift, ih]
    rfl

theorem tokens_map_shift (ps : List Piece) (bytes feeds : Nat) :
    (ps.map (Piece.shift bytes feeds)).filterMap Piece.token? =
      (ps.filterMap Piece.token?).map (Token.shift bytes feeds) := by
  rw [List.filterMap_map, List.map_filterMap]
  exact List.filterMap_congr fun p _ => p.token?_shift bytes feeds

theorem reports_map_shift (ps : List Piece) (bytes feeds : Nat) :
    (ps.map (Piece.shift bytes feeds)).filterMap Piece.report? =
      (ps.filterMap Piece.report?).map (Report.shift bytes feeds) := by
  rw [List.filterMap_map, List.map_filterMap]
  exact List.filterMap_congr fun p _ => p.report?_shift bytes feeds

/-! ## 2. Pieces that ask for the same -/

/-- Two lists of pieces ask for the same tokens and the same reports. -/
structure SameRecords (ps qs : List Piece) : Prop where
  tokens : ps.filterMap Piece.token? = qs.filterMap Piece.token?
  reports : ps.filterMap Piece.report? = qs.filterMap Piece.report?

namespace SameRecords

variable {ps qs rs : List Piece}

theorem refl (ps : List Piece) : SameRecords ps ps := ⟨rfl, rfl⟩

theorem trans (h : SameRecords ps qs) (g : SameRecords qs rs) : SameRecords ps rs :=
  ⟨h.tokens.trans g.tokens, h.reports.trans g.reports⟩

theorem cons (p : Piece) (h : SameRecords ps qs) : SameRecords (p :: ps) (p :: qs) := by
  refine ⟨?_, ?_⟩
  · rw [List.filterMap_cons, List.filterMap_cons, h.tokens]
  · rw [List.filterMap_cons, List.filterMap_cons, h.reports]

/-- Nothing is asked for by what is skipped. -/
theorem skip (here : Position) (text : List Char) (h : SameRecords ps qs) :
    SameRecords (⟨here, text, .skip⟩ :: ps) qs := ⟨h.tokens, h.reports⟩

/-- The text of a piece shows only if it is a token. -/
theorem cons_of_not_token (here : Position) (text text' : List Char) {outcome : Outcome}
    (hnot : ∀ kind literal, outcome ≠ .token kind literal) (h : SameRecords ps qs) :
    SameRecords (⟨here, text, outcome⟩ :: ps) (⟨here, text', outcome⟩ :: qs) := by
  cases outcome with
  | token kind literal => exact absurd rfl (hnot kind literal)
  | report error =>
    refine ⟨h.tokens, ?_⟩
    have hreports := h.reports
    simp only [List.filterMap_cons, Piece.report?, hreports]
  | skip => exact ⟨h.tokens, h.reports⟩

end SameRecords

/-- Blanks and line feeds before a text only move it on. -/
theorem records_blanks_append (here : Position) {w : List Char} (hw : ∀ c ∈ w, c ∈ Grammar.blanks)
    (text : List Char) :
    SameRecords (piecesFrom here (w ++ text)) (piecesFrom (here.after w) text) := by
  induction w generalizing here with
  | nil => exact .refl _
  | cons c w ih =>
    have hrule : Grammar.Rule (c :: (w ++ text)) ⟨[c], .skip, w ++ text⟩ :=
      .blank (hw c List.mem_cons_self)
    rw [List.cons_append, piecesFrom_of_rule hrule]
    exact .skip here [c] (ih (here.next c) fun d hd => hw d (List.mem_cons_of_mem c hd))

/-! ## 3. Blanks behind a text -/

namespace Grammar

/-- Blanks on a line. -/
def AllBlank (w : List Char) : Prop := ∀ c ∈ w, isBlank c = true

theorem AllBlank.mem_blanks {w : List Char} (h : AllBlank w) : ∀ c ∈ w, c ∈ blanks := fun c hc =>
  (mem_blanks_iff c).mpr (.inr (h c hc))

theorem AllBlank.quiet {w : List Char} (h : AllBlank w) : ∀ c more, w = c :: more → Quiet c := by
  rintro c more rfl
  exact quiet_of_mem_blanks (h.mem_blanks c List.mem_cons_self)

/-- No end of a comment comes in with blanks. -/
theorem NoEnd.append_blanks {body w : List Char} (h : NoEnd body) (hw : AllBlank w) :
    NoEnd (body ++ w) := by
  have hstar : '*' ∉ w := fun hm => absurd (hw _ hm) (by decide)
  have hslash : '/' ∉ w := fun hm => absurd (hw _ hm) (by decide)
  intro b r heq
  rcases List.append_eq_append_iff.mp heq with ⟨v, -, hv⟩ | ⟨v, hbody, hv⟩
  · exact hstar (hv ▸ by simp)
  · match v with
    | [] => exact hstar (by rw [List.nil_append] at hv; exact hv ▸ List.mem_cons_self)
    | [_] =>
      have hw : '/' :: r = w := (List.cons.inj hv).2
      exact hslash (hw ▸ List.mem_cons_self)
    | x :: y :: v =>
      obtain ⟨rfl, rfl⟩ : '*' = x ∧ '/' = y := by
        simp only [List.cons_append, List.cons.injEq] at hv
        exact ⟨hv.1, hv.2.1⟩
      exact h b v hbody

/-- A run up to the end of the text goes on over blanks. -/
theorem Longest.append_blanks {P : Char → Prop} {run w : List Char} (h : Longest P run [])
    (hP : ∀ c, isBlank c = true → P c) (hw : AllBlank w) : Longest P (run ++ w) [] := by
  refine longest_iff_stops.mpr ⟨?_, ?_⟩
  · intro c hc
    rcases List.mem_append.mp hc with hc | hc
    · exact h.1 c hc
    · exact hP c (hw c hc)
  · intro c more heq
    cases heq

/-- A piece that leans on the end of the text takes blanks that come before it. -/
theorem Leans.append_blanks {taken : List Char} {outcome : Outcome}
    (h : Leans ⟨taken, outcome, []⟩) {w : List Char} (hw : AllBlank w) :
    Rule (taken ++ w) ⟨taken ++ w, outcome, []⟩ := by
  have hfeed : ∀ c, isBlank c = true → c ≠ '\n' := by
    rintro c hc rfl
    exact absurd hc (by decide)
  generalize hrest : ([] : List Char) = rest at h
  cases h with
  | @lineComment run _ hrun =>
    subst hrest
    have hrule := Rule.lineComment (hrun.append_blanks hfeed hw)
    rwa [List.append_nil] at hrule
  | openComment hend => exact .openComment (hend.append_blanks hw)
  | openString hq hrun =>
    refine .openString hq (hrun.append_blanks ?_ hw)
    intro c hc
    refine ⟨?_, hfeed c hc⟩
    rintro rfl
    rcases hq with rfl | rfl
    · exact absurd hc (by decide)
    · exact absurd hc (by decide)
  | brokenFloat => cases hrest

end Grammar

/-- **Blanks behind a text change nothing that is asked for.** -/
theorem records_append_blanks (here : Position) (text : List Char) {w : List Char}
    (hw : Grammar.AllBlank w) :
    SameRecords (piecesFrom here (text ++ w)) (piecesFrom here text) := by
  induction text using rule_induction generalizing here with
  | nil =>
    have hskip := records_blanks_append here hw.mem_blanks []
    rw [List.append_nil, piecesFrom_nil] at hskip
    rwa [List.nil_append, piecesFrom_nil]
  | piece taken outcome rest hrule ih =>
    rcases hrule.append hw.quiet with hgoes | ⟨rfl, hleans⟩
    · rw [List.append_assoc, piecesFrom_of_rule hgoes, piecesFrom_of_rule hrule]
      exact (ih _).cons _
    · rw [List.append_nil] at hrule ⊢
      rw [piecesFrom_of_rule (hleans.append_blanks hw), piecesFrom_of_rule hrule]
      refine .cons_of_not_token here (taken ++ w) taken ?_ (by simpa using SameRecords.refl [])
      rintro kind literal rfl
      exact Grammar.Leans.not_token hleans

/-! ## 4. A line feed behind a text -/

/-- A line feed comes behind a piece that leans on the end of the text.  A comment without an end
takes it in and goes on.  A line comment leaves it; a broken string takes it and stops. -/
theorem Grammar.Leans.append_lineFeed {taken : List Char} {outcome : Outcome}
    (h : Leans ⟨taken, outcome, []⟩) (hopen : outcome ≠ .report .unfinishedComment)
    (b : List Char) :
    Rule (taken ++ '\n' :: b) ⟨taken, outcome, '\n' :: b⟩ ∨
      (outcome = .report .unfinishedString ∧
        Rule (taken ++ '\n' :: b) ⟨taken ++ ['\n'], outcome, b⟩) := by
  generalize hrest : ([] : List Char) = rest at h
  cases h with
  | lineComment hrun =>
    refine .inl (.lineComment (longest_iff_stops.mpr ⟨hrun.1, ?_⟩))
    rintro _ _ ⟨⟩ hne
    exact hne rfl
  | openComment => exact absurd rfl hopen
  | openString hq hrun =>
    refine .inr ⟨rfl, .brokenString hq (longest_iff_stops.mpr ⟨hrun.1, ?_⟩)⟩
    rintro _ _ ⟨⟩ ⟨-, hne⟩
    exact hne rfl
  | brokenFloat => cases hrest

/-- **A line feed parts what is asked for.**  The line feed is a piece of its own, or the last part
of a broken string. -/
theorem records_append_lineFeed (here : Position) (a b : List Char)
    (hclosed : ∀ p ∈ piecesFrom here a, p.outcome ≠ .report .unfinishedComment) :
    SameRecords (piecesFrom here (a ++ '\n' :: b))
      (piecesFrom here a ++ piecesFrom (here.after (a ++ ['\n'])) b) := by
  have hquiet : ∀ c more, '\n' :: b = c :: more → Grammar.Quiet c := by
    rintro _ _ ⟨⟩
    exact Grammar.quiet_of_mem_blanks (by decide)
  induction a using rule_induction generalizing here with
  | nil =>
    rw [piecesFrom_nil]
    refine records_blanks_append here (w := ['\n']) ?_ b
    intro c hc
    obtain rfl := List.mem_singleton.mp hc
    exact (Grammar.mem_blanks_iff _).mpr (.inl rfl)
  | piece taken outcome rest hrule ih =>
    rw [piecesFrom_of_rule hrule] at hclosed ⊢
    have hrest := ih (here.after taken) fun p hp => hclosed p (List.mem_cons_of_mem _ hp)
    rw [List.append_assoc taken rest ['\n'], Position.after_append]
    -- the piece stays what it is, or it is the last and takes the line feed
    have hpiece : Grammar.Rule (taken ++ (rest ++ '\n' :: b)) ⟨taken, outcome, rest ++ '\n' :: b⟩ ∨
        (rest = [] ∧ outcome = .report .unfinishedString ∧
          Grammar.Rule (taken ++ '\n' :: b) ⟨taken ++ ['\n'], outcome, b⟩) := by
      rcases hrule.append hquiet with hgoes | ⟨rfl, hleans⟩
      · exact .inl hgoes
      · have hopen := hclosed _ List.mem_cons_self
        rcases hleans.append_lineFeed hopen b with hgoes | hbroken
        · exact .inl hgoes
        · exact .inr ⟨rfl, hbroken⟩
    rcases hpiece with hgoes | ⟨rfl, hbroken, htakes⟩
    · rw [List.append_assoc, piecesFrom_of_rule hgoes]
      exact hrest.cons _
    · rw [List.append_nil, piecesFrom_of_rule htakes, piecesFrom_nil, List.nil_append,
        Position.after_append, List.singleton_append]
      refine .cons_of_not_token here _ _ ?_ (.refl _)
      rintro kind literal rfl
      cases hbroken

/-! ## 5. Whole scans -/

/-- What a collector holds behind a scan. -/
theorem Collector.absorb_diagnostics (c : Collector) (s : Scan) :
    (c.absorb s).diagnostics.toList = c.diagnostics.toList ++ s.diagnostics := by
  unfold absorb
  induction s.diagnostics generalizing c with
  | nil => simp
  | cons d ds ih =>
    rw [List.foldl_cons, ih]
    simp [emit]

/-- What a run tells its collector are the diagnostics of the scan, behind what it held before. -/
theorem Scanner.run_diagnostics (source : String) (sink : Collector) :
    (run source sink).sink.diagnostics.toList =
      sink.diagnostics.toList ++ (Scan.ofString source).diagnostics := by
  rw [(run_eq source sink).2.2.1, Collector.absorb_diagnostics]

/-- A report is made for each malformed piece. -/
theorem mem_reports_of_mem_pieces {s : Scan} {p : Piece} {error : LexicalError} (hp : p ∈ s.pieces)
    (h : p.outcome = .report error) : (⟨p.start, error⟩ : Report) ∈ s.reports := by
  refine List.mem_filterMap.mpr ⟨p, hp, ?_⟩
  rw [Piece.report?, h]

/-- The pieces of a text behind another are its own, shifted. -/
theorem piecesFrom_after (before text : List Char) :
    piecesFrom (Position.after {} before) text =
      (piecesFrom {} text).map (Piece.shift (byteLength before) (lineFeeds before)) := by
  rw [Position.after_eq_shift, piecesFrom_shift]

/-- The tokens and reports of two texts with a line feed between them. -/
theorem scan_append_lineFeed (a b : List Char)
    (hclosed : ∀ r ∈ (Scan.of a).reports, r.error ≠ .unfinishedComment) :
    (Scan.of (a ++ '\n' :: b)).tokens = (Scan.of a).tokens ++
        (Scan.of b).tokens.map (Token.shift (byteLength a + 1) (1 + lineFeeds a)) ∧
      (Scan.of (a ++ '\n' :: b)).reports = (Scan.of a).reports ++
        (Scan.of b).reports.map (Report.shift (byteLength a + 1) (1 + lineFeeds a)) := by
  have hpieces : ∀ p ∈ piecesFrom {} a, p.outcome ≠ .report .unfinishedComment := by
    intro p hp houtcome
    exact hclosed _ (mem_reports_of_mem_pieces (s := Scan.of a) hp houtcome) rfl
  have hbytes : byteLength (a ++ ['\n']) = byteLength a + 1 := by
    rw [byteLength_append]
    rfl
  have hfeeds : lineFeeds (a ++ ['\n']) = 1 + lineFeeds a := by
    rw [lineFeeds_append, Nat.add_comm]
    rfl
  have hsame := records_append_lineFeed {} a b hpieces
  rw [piecesFrom_after, hbytes, hfeeds] at hsame
  obtain ⟨htokens, hreports⟩ := hsame
  rw [List.filterMap_append, tokens_map_shift] at htokens
  rw [List.filterMap_append, reports_map_shift] at hreports
  exact ⟨htokens, hreports⟩

/-- **Scanning parts at a line feed.**  Let no comment be open at the end of `a`.  Then the tokens
of `a`, a line feed and `b` are those of `a` followed by those of `b`, shifted by the bytes and
lines before `b`, and so are the reports.  The machine finds these tokens, tells its collector of
these reports, and counts lines in 32 bits. -/
theorem scan_joins_at_lineFeed (a b : String)
    (hfeeds : lineFeeds a.toList + lineFeeds b.toList < 2 ^ 32 - 2)
    (hclosed : ∀ r ∈ (Scan.ofString a).reports, r.error ≠ .unfinishedComment) :
    let whole := a ++ "\n" ++ b
    let bytes := a.utf8ByteSize + 1
    let feeds := 1 + lineFeeds a.toList
    ((Scan.ofString whole).tokens =
        (Scan.ofString a).tokens ++ (Scan.ofString b).tokens.map (Token.shift bytes feeds) ∧
      (Scan.ofString whole).reports =
        (Scan.ofString a).reports ++ (Scan.ofString b).reports.map (Report.shift bytes feeds)) ∧
    ((Scanner.run whole {}).tokens.toList =
        (Scanner.run a {}).tokens.toList ++
          (Scanner.run b {}).tokens.toList.map (Token.shift bytes feeds) ∧
      (Scanner.run whole {}).sink.diagnostics.toList =
        (Scanner.run a {}).sink.diagnostics.toList ++
          (Scanner.run b {}).sink.diagnostics.toList.map (Diagnostic.shift feeds)) ∧
    ∀ s, Scanner.Head whole {} s → s.cursor.line < 2 ^ 32 := by
  intro whole bytes feeds
  have hwhole : whole.toList = a.toList ++ '\n' :: b.toList := by
    simp [whole]
  have hbytes : byteLength a.toList + 1 = bytes := by
    rw [← utf8ByteSize_ofList, String.ofList_toList]
  obtain ⟨htokens, hreports⟩ := scan_append_lineFeed a.toList b.toList hclosed
  rw [hbytes, ← hwhole] at htokens hreports
  refine ⟨⟨htokens, hreports⟩, ⟨?_, ?_⟩, ?_⟩
  · rw [(Scanner.run_eq whole {}).1, (Scanner.run_eq a {}).1, (Scanner.run_eq b {}).1]
    exact htokens
  · have hsink (source : String) : (Scanner.run source {}).sink.diagnostics.toList =
        (Scan.ofString source).reports.map Report.diagnostic := by
      rw [(Scanner.run_eq source {}).2.2.1, Collector.absorb_diagnostics]
      rfl
    rw [hsink, hsink, hsink, Scan.ofString, hreports, List.map_append, List.map_map, List.map_map]
    rfl
  · intro s hs
    refine hs.line_lt ?_
    rw [hwhole, lineFeeds_append, lineFeeds_cons_self]
    omega

/-- A string that the end of the first text breaks off takes the line feed, and is reported once,
where it begins. -/
theorem scan_joins_at_lineFeed_broken_string :
    (Scan.ofString ("x 'é" ++ "\n" ++ "@ 1")).reports =
        [⟨⟨2, 1⟩, .unfinishedString⟩, ⟨⟨6, 2⟩, .unexpectedCharacter '@'⟩] ∧
      (Scan.ofString ("x 'é" ++ "\n" ++ "@ 1")).tokens =
        [⟨.identifier, "x", none, ⟨0, 1, 1⟩⟩, ⟨.int, "1", some (.int 1), ⟨8, 9, 2⟩⟩] := by
  have hclosed : ∀ r ∈ (Scan.ofString "x 'é").reports, r.error ≠ .unfinishedComment := by
    decide +kernel
  obtain ⟨⟨htokens, hreports⟩, -⟩ := scan_joins_at_lineFeed "x 'é" "@ 1" (by decide) hclosed
  rw [htokens, hreports]
  decide +kernel

end CpScan
