/-
# Every byte is accounted for once

The pieces of a text lie side by side: the first starts where the text does, each starts where the
one before it stops, none is empty, and the last stops where the text does (`Tiles`).  Everything
else about where things are follows from that by going along the pieces:

* a place between two pieces is between two characters (`piece_between`);
* tokens do not overlap and come in order (`Tiles.tokens_pairwise`);
* the lexemes, with the text between them, make up the source again (`Tiles.rebuild_eq`);
* there are no more tokens and reports than characters (`Tiles.length_le`).

For the machine the same is said turn by turn (`Scanner.Turn`): a turn starts where the one before
it stopped, goes on by at least one character, and either records one token, which is the whole
piece, or makes one report, or records nothing.
-/
import CpScan.Proofs.Scan.Machine

namespace CpScan

/-! ## 1. Pieces side by side -/

/-- The pieces `ps` lie side by side from the place `here` on, and make up the text. -/
inductive Tiles : Position → List Char → List Piece → Prop
  | done {here : Position} : Tiles here [] []
  | piece {p : Piece} {rest : List Char} {ps : List Piece} (hne : p.text ≠ [])
      (hps : Tiles p.stop rest ps) : Tiles p.start (p.text ++ rest) (p :: ps)

/-- **The pieces of a text lie side by side.** -/
theorem piecesFrom_tiles (here : Position) (text : List Char) :
    Tiles here text (piecesFrom here text) := by
  induction text using cut_induction generalizing here with
  | nil =>
    rw [piecesFrom_nil]
    exact .done
  | cons c cs ih =>
    obtain ⟨more, htaken, -⟩ := cut_splits c cs
    have hne : (cut c cs).taken ≠ [] := by
      rw [htaken]
      exact List.cons_ne_nil _ _
    have htile : Tiles here ((cut c cs).taken ++ (cut c cs).rest) _ :=
      .piece (p := ⟨here, (cut c cs).taken, (cut c cs).outcome⟩) hne (ih _)
    rw [taken_append_rest] at htile
    rwa [piecesFrom_cons]

/-- Every piece of a text is cut off the text that starts with it. -/
theorem exists_cut_of_mem {here : Position} {text : List Char} {p : Piece}
    (h : p ∈ piecesFrom here text) :
    ∃ c cs, p.text = (cut c cs).taken ∧ p.outcome = (cut c cs).outcome := by
  induction text using cut_induction generalizing here with
  | nil =>
    rw [piecesFrom_nil] at h
    cases h
  | cons c cs ih =>
    rw [piecesFrom_cons] at h
    rcases List.mem_cons.mp h with rfl | h
    · exact ⟨c, cs, rfl, rfl⟩
    · exact ih h

namespace Piece

theorem stop_offset (p : Piece) : p.stop.offset = p.start.offset + byteLength p.text :=
  Position.after_offset p.start p.text

theorem start_lt_stop {p : Piece} (h : p.text ≠ []) : p.start.offset < p.stop.offset := by
  have hpos : byteLength p.text ≠ 0 := fun hzero => h (byteLength_eq_zero.mp hzero)
  rw [stop_offset]
  omega

/-- The token that a piece is has its place and its text. -/
theorem token?_eq_some {p : Piece} {t : Token} (h : p.token? = some t) :
    t.span = ⟨p.start.offset, p.stop.offset, p.start.line⟩ ∧ t.lexeme = String.ofList p.text := by
  unfold token? at h
  split at h
  · cases h
    exact ⟨rfl, rfl⟩
  · cases h

theorem report?_eq_some {p : Piece} {r : Report} (h : p.report? = some r) : r.start = p.start := by
  unfold report? at h
  split at h
  · cases h
    rfl
  · cases h

/-- A piece is a token, or malformed, or neither; never both. -/
theorem token?_or_report? (p : Piece) : p.token? = none ∨ p.report? = none := by
  unfold token? report?
  cases p.outcome with
  | token kind literal => exact .inr rfl
  | report error => exact .inl rfl
  | skip => exact .inl rfl

end Piece

/-! ## 2. Going along the pieces -/

namespace Tiles

variable {here : Position} {text : List Char} {ps : List Piece}

theorem text_ne_nil (h : Tiles here text ps) : ∀ p ∈ ps, p.text ≠ [] := by
  induction h with
  | done => intro p hp; cases hp
  | piece hne _ ih =>
    intro p hp
    rcases List.mem_cons.mp hp with rfl | hp
    · exact hne
    · exact ih p hp

/-- A piece stands in the text: some of the text is before it and some behind. -/
theorem exists_split (h : Tiles here text ps) :
    ∀ p ∈ ps, ∃ before rest, text = before ++ p.text ++ rest ∧ p.start = here.after before := by
  induction h with
  | done => intro p hp; cases hp
  | @piece q rest ps _ _ ih =>
    intro p hp
    rcases List.mem_cons.mp hp with rfl | hp
    · exact ⟨[], rest, rfl, rfl⟩
    · obtain ⟨before, rest', rfl, hstart⟩ := ih p hp
      refine ⟨q.text ++ before, rest', by simp, ?_⟩
      rw [hstart, Position.after_append]
      rfl

theorem le_start (h : Tiles here text ps) : ∀ p ∈ ps, here.offset ≤ p.start.offset := by
  intro p hp
  obtain ⟨before, rest, -, hstart⟩ := h.exists_split p hp
  rw [hstart, Position.after_offset]
  exact Nat.le_add_right _ _

/-- A piece stops before every later one starts. -/
theorem pairwise (h : Tiles here text ps) :
    ps.Pairwise fun p q => p.stop.offset ≤ q.start.offset := by
  induction h with
  | done => exact .nil
  | piece _ hps ih => exact .cons hps.le_start ih

theorem tokens_pairwise (h : Tiles here text ps) :
    (ps.filterMap Piece.token?).Pairwise fun a b => a.span.stop ≤ b.span.start := by
  refine List.Pairwise.filterMap _ ?_ h.pairwise
  intro p q hpq a ha b hb
  rw [(Piece.token?_eq_some ha).1, (Piece.token?_eq_some hb).1]
  exact hpq

/-- Each piece has a character, and at most one token or report. -/
theorem length_le (h : Tiles here text ps) :
    (ps.filterMap Piece.token?).length + (ps.filterMap Piece.report?).length ≤ text.length := by
  induction h with
  | done => exact Nat.le_refl _
  | @piece p rest ps hne _ ih =>
    have hpos : 0 < p.text.length := List.length_pos_iff.mpr hne
    rw [List.length_append]
    rcases p.token?_or_report? with hnone | hnone
    · rw [List.filterMap_cons_none hnone]
      cases hr : p.report? with
      | none => rw [List.filterMap_cons_none hr]; omega
      | some r => rw [List.filterMap_cons_some hr, List.length_cons]; omega
    · rw [List.filterMap_cons_none hnone]
      cases ht : p.token? with
      | none => rw [List.filterMap_cons_none ht]; omega
      | some t => rw [List.filterMap_cons_some ht, List.length_cons]; omega

end Tiles

/-! ## 3. Offsets in the source -/

/-- The text of a source between two offsets. -/
def between (source : String) (start stop : Nat) : String :=
  String.Pos.Raw.extract source ⟨start⟩ ⟨stop⟩

/-- The offset is between two characters of the source, or at one of its ends. -/
def IsBoundary (source : String) (offset : Nat) : Prop :=
  String.Pos.Raw.IsValid source ⟨offset⟩

theorem between_of_split {source : String} {s t u : List Char} (h : source.toList = s ++ t ++ u) :
    between source (byteLength s) (byteLength s + byteLength t) = String.ofList t := by
  have hsource : source = String.ofList (s ++ t ++ u) := by rw [← h, String.ofList_toList]
  rw [between, hsource]
  exact extract_ofList_append s t u

theorem between_zero_of_split {source : String} {before rest : List Char}
    (h : source.toList = before ++ rest) :
    between source 0 (byteLength before) = String.ofList before := by
  have hcut := between_of_split (s := []) (t := before) (u := rest) h
  rwa [byteLength_nil, Nat.zero_add] at hcut

theorem isBoundary_of_split {source : String} {s t : List Char} (h : source.toList = s ++ t) :
    IsBoundary source (byteLength s) := by
  refine String.Pos.Raw.isValid_iff_exists_append.mpr ⟨String.ofList s, String.ofList t, ?_, ?_⟩
  · rw [← String.ofList_append, ← h, String.ofList_toList]
  · rw [String.Pos.Raw.ext_iff, String.byteIdx_rawEndPos, utf8ByteSize_ofList]

/-- The source put together again from lexemes and the text between them, from an offset on. -/
def rebuild (source : String) (offset : Nat) : List Token → String
  | [] => between source offset source.utf8ByteSize
  | t :: ts => between source offset t.span.start ++ t.lexeme ++ rebuild source t.span.stop ts

/-- Going along the pieces, the text since the last token is the text between that token and the
next; `gap` is that text, as far as it has been gone over. -/
theorem Tiles.rebuild_eq {here : Position} {text : List Char} {ps : List Piece}
    (h : Tiles here text ps) (source : String) (before gap : List Char)
    (hsplit : source.toList = before ++ gap ++ text)
    (hhere : here.offset = byteLength before + byteLength gap) :
    rebuild source (byteLength before) (ps.filterMap Piece.token?) = String.ofList (gap ++ text) := by
  induction h generalizing before gap with
  | done =>
    have hsize : source.utf8ByteSize = byteLength before + byteLength gap := by
      rw [← String.ofList_toList (s := source), utf8ByteSize_ofList, hsplit, List.append_nil,
        byteLength_append]
    rw [List.filterMap_nil, rebuild, hsize, between_of_split hsplit, List.append_nil]
  | @piece p rest ps _ _ ih =>
    have hstop : p.stop.offset = byteLength (before ++ gap ++ p.text) := by
      rw [p.stop_offset, hhere, byteLength_append, byteLength_append]
    have hsplit' : source.toList = before ++ gap ++ p.text ++ rest := by
      rw [hsplit, List.append_assoc _ p.text rest]
    cases ht : p.token? with
    | none =>
      rw [List.filterMap_cons_none ht, ih before (gap ++ p.text)]
      · rw [List.append_assoc]
      · rw [hsplit', List.append_assoc before gap p.text]
      · rw [hstop, List.append_assoc, byteLength_append]
    | some t =>
      obtain ⟨hspan, hlexeme⟩ := Piece.token?_eq_some ht
      have hrest := ih (before ++ gap ++ p.text) [] (by rw [List.append_nil]; exact hsplit')
        (by rw [hstop, byteLength_nil, Nat.add_zero])
      rw [List.filterMap_cons_some ht, rebuild, hspan, hlexeme, hhere, between_of_split hsplit,
        hstop, hrest, List.nil_append, String.ofList_append, String.ofList_append,
        String.append_assoc]

/-! ## 4. One turn of the machine -/

namespace Scanner

/-- What one turn can do to the records: it records one token, which is all that was taken, or
makes one report, which is logged with the place of what was taken, or neither. -/
inductive OneOutcome (source : String) (s s' : Scanner) : Prop
  | token (t : Token) (htokens : s'.tokens = s.tokens.push t)
      (hspan : t.span = ⟨s'.cursor.start, s'.cursor.current, s'.startLine⟩)
      (hlexeme : t.lexeme = between source t.span.start t.span.stop)
      (herrors : s'.errors = s.errors) (hsink : s'.sink = s.sink) (hlog : s'.log = s.log)
  | report (r : Report) (htokens : s'.tokens = s.tokens) (hstart : r.start.offset = s'.cursor.start)
      (herrors : s'.errors = s.errors + 1)
      (hsink : s'.sink = s.sink.report r.start.line r.error.message)
      (hlog : s'.log = s.log.push (.lexicalError r))
  | silent (htokens : s'.tokens = s.tokens) (herrors : s'.errors = s.errors)
      (hsink : s'.sink = s.sink) (hlog : s'.log = s.log)

/-- A turn from `s` to `s'`: a piece that starts where the last one stopped, is not empty, is in
the source with both ends between characters, and comes to one outcome. -/
structure Turn (source : String) (s s' : Scanner) : Prop where
  start : s'.cursor.start = s.cursor.current
  nonempty : s'.cursor.start < s'.cursor.current
  bounded : s'.cursor.current ≤ source.utf8ByteSize
  startBoundary : IsBoundary source s'.cursor.start
  stopBoundary : IsBoundary source s'.cursor.current
  outcome : OneOutcome source s s'

/-- What is taken comes to one outcome. -/
theorem takes_oneOutcome {source : String} (s : Scanner) {line : Nat} {before : List Char} {k : Cut}
    (hsplit : source.toList = before ++ k.taken ++ k.rest) :
    OneOutcome source s (({ s with startLine := line } : Scanner).takes before k) := by
  obtain ⟨taken, outcome, rest⟩ := k
  cases outcome with
  | token kind literal =>
    refine .token _ rfl rfl ?_ rfl rfl rfl
    change (Cursor.zipper before taken rest line).lexeme = _
    rw [Cursor.zipper_lexeme]
    exact (between_of_split hsplit).symm
  | report error => exact .report ⟨⟨byteLength before, line⟩, error⟩ rfl rfl rfl rfl rfl
  | skip => exact .silent rfl rfl rfl rfl

/-- **Every turn accounts for one stretch of the source.** -/
theorem Head.turn_covers {source : String} {sink : Collector} {s : Scanner} (h : Head source sink s)
    (hend : s.cursor.atEnd = false) : Turn source s s.step := by
  obtain ⟨before, rest, done, hs⟩ := h.stands
  obtain ⟨b, t, hbt, hcursor⟩ := hs.cursor
  rw [hcursor, Cursor.zipper_atEnd] at hend
  obtain ⟨c, cs, rfl⟩ := List.exists_cons_of_ne_nil (List.isEmpty_eq_false_iff.mp hend)
  have hplace : s.cursor.current = byteLength before := by
    rw [hcursor, Cursor.zipper_current, ← byteLength_append, hbt]
  have hsplit : source.toList = before ++ (cut c cs).taken ++ (cut c cs).rest := by
    rw [List.append_assoc, taken_append_rest, hs.split]
  have hstart : s.step.cursor.start = byteLength before := by rw [hs.step_eq]; rfl
  have hstop : s.step.cursor.current = byteLength (before ++ (cut c cs).taken) := by
    rw [hs.step_eq, byteLength_append]; rfl
  have hpos : byteLength (cut c cs).taken ≠ 0 := by
    obtain ⟨more, htaken, -⟩ := cut_splits c cs
    rw [htaken, Ne, byteLength_eq_zero]
    exact List.cons_ne_nil _ _
  have hsize : source.utf8ByteSize =
      byteLength (before ++ (cut c cs).taken) + byteLength (cut c cs).rest := by
    rw [← byteLength_append, ← hsplit, ← utf8ByteSize_ofList, String.ofList_toList]
  refine ⟨?_, ?_, ?_, ?_, ?_, ?_⟩
  · rw [hstart, hplace]
  · rw [hstart, hstop, byteLength_append]
    omega
  · rw [hstop, hsize]
    exact Nat.le_add_right _ _
  · rw [hstart]
    exact isBoundary_of_split hs.split.symm
  · rw [hstop]
    exact isBoundary_of_split hsplit
  · rw [hs.step_eq]
    exact takes_oneOutcome s hsplit

/-- The machine stops where the source does. -/
theorem Head.current_of_atEnd {source : String} {sink : Collector} {s : Scanner}
    (h : Head source sink s) (hend : s.cursor.atEnd = true) :
    s.cursor.current = source.utf8ByteSize := by
  obtain ⟨b, t, hbt, hcursor⟩ := (h.stands_end hend).cursor
  rw [hcursor, Cursor.zipper_current, ← byteLength_append, hbt, ← utf8ByteSize_ofList,
    String.ofList_toList]

end Scanner

/-! ## 5. The whole scan -/

/-- A piece of a source is the text between its offsets, which are between characters. -/
theorem piece_between {source : String} {p : Piece} (h : p ∈ (Scan.ofString source).pieces) :
    between source p.start.offset p.stop.offset = String.ofList p.text ∧
      IsBoundary source p.start.offset ∧ IsBoundary source p.stop.offset := by
  obtain ⟨before, rest, hsplit, hstart⟩ := (piecesFrom_tiles {} source.toList).exists_split p h
  have hoffset : p.start.offset = byteLength before := by
    rw [hstart, Scanner.after_start]
  have hstop : p.stop.offset = byteLength before + byteLength p.text := by
    rw [p.stop_offset, hoffset]
  rw [hstop, hoffset]
  refine ⟨between_of_split hsplit, ?_, ?_⟩
  · exact isBoundary_of_split (by rw [hsplit, List.append_assoc])
  · rw [← byteLength_append]
    exact isBoundary_of_split hsplit

/-- **Every byte is accounted for exactly once.**  The machine begins at the first byte, covers one
stretch at each turn, and stops behind the last byte; the stretches are the pieces of the scan.
Tokens are therefore not empty, in order and apart from each other, their lexemes with the gaps
between them are the source, and there are no more tokens and reports than characters. -/
theorem scan_covers_source (source : String) (sink : Collector) :
    (Scanner.start source sink).cursor.current = 0 ∧
      (∀ s, Scanner.Head source sink s → s.cursor.atEnd = false → Scanner.Turn source s s.step) ∧
      (∀ s, Scanner.Head source sink s → s.cursor.atEnd = true →
        s.cursor.current = source.utf8ByteSize) ∧
      (Scanner.run source sink).tokens.toList = (Scan.ofString source).tokens ∧
      (Scanner.run source sink).log.toList = (Scan.ofString source).events ∧
      Tiles {} source.toList (Scan.ofString source).pieces ∧
      (∀ p ∈ (Scan.ofString source).pieces,
        between source p.start.offset p.stop.offset = String.ofList p.text ∧
          IsBoundary source p.start.offset ∧ IsBoundary source p.stop.offset) ∧
      (∀ t ∈ (Scan.ofString source).tokens,
        t.span.start < t.span.stop ∧ t.lexeme = between source t.span.start t.span.stop) ∧
      (Scan.ofString source).tokens.Pairwise (fun a b => a.span.stop ≤ b.span.start) ∧
      rebuild source 0 (Scan.ofString source).tokens = source ∧
      (Scan.ofString source).tokens.length + (Scan.ofString source).reports.length ≤
        source.length := by
  have htiles := piecesFrom_tiles {} source.toList
  refine ⟨rfl, fun s hs hend => hs.turn_covers hend, fun s hs hend => hs.current_of_atEnd hend,
    (Scanner.run_eq source sink).1, (Scanner.run_eq source sink).2.1, htiles,
    fun p hp => piece_between hp, ?_, htiles.tokens_pairwise, ?_, ?_⟩
  · intro t ht
    obtain ⟨p, hp, htoken⟩ := List.mem_filterMap.mp ht
    obtain ⟨hspan, hlexeme⟩ := Piece.token?_eq_some htoken
    rw [hspan, hlexeme]
    exact ⟨Piece.start_lt_stop (htiles.text_ne_nil p hp), (piece_between hp).1.symm⟩
  · have hrebuild := htiles.rebuild_eq source [] [] rfl rfl
    rwa [List.nil_append, String.ofList_toList] at hrebuild
  · rw [← String.length_toList]
    exact htiles.length_le

/-- In `é+` the first turn covers the two bytes of a character that opens no piece. -/
theorem scan_covers_source_two_bytes :
    (Scanner.start "é+" {}).cursor.atEnd = false ∧
      Scanner.Turn "é+" (Scanner.start "é+" {}) (Scanner.start "é+" {}).step := by
  have hend : (Scanner.start "é+" {}).cursor.atEnd = false := by decide
  exact ⟨hend, (scan_covers_source "é+" {}).2.1 _ .start hend⟩

end CpScan
