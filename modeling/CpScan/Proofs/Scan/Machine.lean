/-
# The machine cuts the pieces

`cut` says in one look at the text what its first piece is.  The `Scanner` finds out step by step,
over bytes, with a sentinel at the end and a line counter moved by hand.  This module proves that
they agree.

* One turn takes exactly the piece that `cut` cuts off, does what its outcome asks for on the line
  the piece starts on, and leaves the line counter ahead by the line feeds of the piece
  (`Scanner.step_zipper`).  There is one lemma for each way of reading a piece.
* A whole run therefore goes through the pieces of the text: its tokens, its log and what it
  reported are those of `Scan.ofString` (`Scanner.run_eq`).
* Between two turns the machine stands between two pieces (`Scanner.Head.stands`).

The line counter is where the work is.  A piece is reported on the line of its own start although
some errors are noticed further on, because no reading counts a line feed before it reports.
-/
import CpScan.Proofs.Text.Zipper

namespace CpScan

open Cursor

/-! ## 1. Characters that are no line feed -/

/-- A run of a class without the line feed has no line feed. -/
theorem lineFeeds_takeWhile {p : Char → Bool} (hp : p '\n' = false) (text : List Char) :
    lineFeeds (text.takeWhile p) = 0 := by
  rw [lineFeeds_eq_zero]
  intro hmem
  have htrue : p '\n' = true := by
    simpa using (List.all_eq_true.mp List.all_takeWhile) '\n' hmem
  rw [hp] at htrue
  exact Bool.noConfusion htrue

theorem ne_lineFeed_of_lone {c : Char} {kind : Kind} (h : lone? c = some kind) : c ≠ '\n' := by
  rintro rfl
  exact absurd h (by simp [lone?])

theorem ne_lineFeed_of_pair {c : Char} {p : Pair} (h : pair? c = some p) : c ≠ '\n' := by
  rintro rfl
  exact absurd h (by simp [pair?])

/-- No operator goes on with a line feed. -/
theorem second_ne_lineFeed {c : Char} {p : Pair} (h : pair? c = some p) : p.second ≠ '\n' := by
  unfold pair? at h
  split at h
  all_goals cases h
  all_goals decide

/-! ## 2. Where a run of digits goes on as a fraction -/

/-- The text goes on a run of digits as a fraction: a point, and a digit behind it. -/
def OpensFraction (text : List Char) : Prop :=
  ∃ d ds, text = '.' :: d :: ds ∧ isDecimalDigit d = true

/-- A cursor sees it by looking two characters ahead. -/
theorem opensFraction_iff (text : List Char) :
    OpensFraction text ↔
      (text.headD endMark == '.' && isDecimalDigit (text.tail.headD endMark)) = true := by
  constructor
  · rintro ⟨d, ds, rfl, hd⟩
    simpa using hd
  · intro h
    rw [Bool.and_eq_true, beq_iff_eq] at h
    obtain ⟨hpoint, hdigit⟩ := h
    match text with
    | [] => exact absurd hpoint (by decide)
    | [_] => exact absurd hdigit (by simp [isDecimalDigit, endMark])
    | p :: d :: ds => exact ⟨d, ds, by rw [show p = '.' from hpoint], hdigit⟩

theorem cutNumber_of_opensFraction {c d : Char} {cs ds : List Char}
    (hrest : cs.dropWhile isDecimalDigit = '.' :: d :: ds) (hd : isDecimalDigit d = true) :
    cutNumber c cs = cutFraction (c :: cs.takeWhile isDecimalDigit) (d :: ds) := by
  simp only [cutNumber, hrest, hd, if_true]

theorem cutNumber_of_not_opensFraction {c : Char} {cs : List Char}
    (h : ¬ OpensFraction (cs.dropWhile isDecimalDigit)) :
    cutNumber c cs = ⟨c :: cs.takeWhile isDecimalDigit,
      integerOutcome (c :: cs.takeWhile isDecimalDigit), cs.dropWhile isDecimalDigit⟩ := by
  unfold cutNumber
  split
  · next d ds hrest =>
    rw [hrest] at h ⊢
    rw [if_neg fun hd => h ⟨d, ds, rfl, hd⟩]
  · rfl

/-- Only a point spoils a fraction. -/
theorem fractionOutcome_of_ne {rest : List Char} (whole fraction : List Char)
    (h : ∀ more, rest ≠ '.' :: more) :
    fractionOutcome whole fraction rest =
      .token .float (some (.float (Double.ofDigits whole fraction))) := by
  unfold fractionOutcome
  split
  · next more => exact absurd rfl (h more)
  · rfl

/-! ## 3. Taking a piece -/

namespace Scanner

@[simp] theorem moved_cursor (s : Scanner) (c : Cursor) : (s.moved c).cursor = c := rfl

@[simp] theorem moved_startLine (s : Scanner) (c : Cursor) : (s.moved c).startLine = s.startLine :=
  rfl

@[simp] theorem moved_moved (s : Scanner) (c d : Cursor) : (s.moved c).moved d = s.moved d := rfl

/-- The machine behind a piece that it has taken: the piece stands between the mark and the place,
its outcome is settled, and the line feeds in it are counted. -/
def takes (s : Scanner) (before : List Char) (k : Cut) : Scanner :=
  ((s.moved (zipper before k.taken k.rest s.startLine)).settle k.outcome).moved
    (zipper before k.taken k.rest (s.startLine + lineFeeds k.taken))

/-- A piece without a line feed leaves the cursor on the line it started on. -/
theorem takes_eq_settle (s : Scanner) (before : List Char) {k : Cut} (h : lineFeeds k.taken = 0) :
    s.takes before k = (s.moved (zipper before k.taken k.rest s.startLine)).settle k.outcome := by
  unfold takes
  rw [h, Nat.add_zero]
  cases k.outcome with
  | token kind literal => rfl
  | report error => rfl
  | skip => rfl

/-- A piece of one character that is no line feed. -/
theorem takes_one (s : Scanner) (before : List Char) {c : Char} (h : c ≠ '\n') (outcome : Outcome)
    (rest : List Char) :
    s.takes before ⟨[c], outcome, rest⟩ =
      (s.moved (zipper before [c] rest s.startLine)).settle outcome :=
  takes_eq_settle s before (lineFeeds_cons_of_ne h [])

variable (s : Scanner) (before cs : List Char)

theorem readPair_zipper {c : Char} {p : Pair} (h : pair? c = some p) :
    (s.moved (zipper before [c] cs s.startLine)).readPair p = s.takes before (cutPair c p cs) := by
  have hc := lineFeeds_cons_of_ne (ne_lineFeed_of_pair h)
  cases cs with
  | nil =>
    rw [takes_eq_settle _ _ (hc [])]
    simp [readPair, cutPair, settle]
  | cons d ds =>
    by_cases hd : d = p.second
    · have hsecond := lineFeeds_cons_of_ne (second_ne_lineFeed h)
      subst hd
      have hcut : cutPair c p (p.second :: ds) = ⟨[c, p.second], .token p.long none, ds⟩ := by
        simp [cutPair]
      rw [hcut, takes_eq_settle _ _ ((hc _).trans (hsecond []))]
      simp [readPair, zipper_stepOver, settle]
    · have hcut : cutPair c p (d :: ds) = ⟨[c], .token p.short none, d :: ds⟩ := by
        simp [cutPair, hd]
      rw [hcut, takes_eq_settle _ _ (hc [])]
      simp [readPair, zipper_stepOver, hd, settle]

/-! ## 4. Numbers -/

/-- Digits are neither points nor line feeds. -/
theorem ne_point_of_isDecimalDigit {d : Char} (h : isDecimalDigit d = true) : d ≠ '.' := by
  rintro rfl
  exact absurd h (by decide)

theorem lineFeeds_digits {digits : List Char} (h : ∀ d ∈ digits, isDecimalDigit d = true) :
    lineFeeds digits = 0 := by
  rw [lineFeeds_eq_zero]
  intro hmem
  exact absurd (h _ hmem) (by decide)

/-- A decimal fraction is read by the digits on both sides of its point. -/
theorem fractionValue_point {whole : List Char} (fraction : List Char)
    (h : ∀ d ∈ whole, isDecimalDigit d = true) :
    fractionValue (String.ofList (whole ++ '.' :: fraction)) =
      Double.ofDigits whole fraction := by
  have hwhole : ∀ d ∈ whole, (d != '.') = true := fun d hd => by
    simpa using ne_point_of_isDecimalDigit (h d hd)
  unfold fractionValue
  rw [String.toList_ofList, List.takeWhile_append_of_pos hwhole,
    List.dropWhile_append_of_pos hwhole]
  simp

theorem readFraction_zipper (whole : List Char) (h : ∀ d ∈ whole, isDecimalDigit d = true) :
    (s.moved (zipper before (whole ++ ['.']) cs s.startLine)).readFraction =
      s.takes before (cutFraction whole cs) := by
  have hfeeds : lineFeeds (whole ++ '.' :: cs.takeWhile isDecimalDigit) = 0 := by
    rw [lineFeeds_append, lineFeeds_cons_of_ne (by decide), lineFeeds_digits h,
      lineFeeds_takeWhile (by decide)]
  have htaken : whole ++ ['.'] ++ cs.takeWhile isDecimalDigit =
      whole ++ '.' :: cs.takeWhile isDecimalDigit := by simp
  rw [takes_eq_settle _ _ hfeeds]
  simp only [readFraction, cutFraction, moved_cursor, moved_moved, zipper_eatDigits, zipper_peek,
    htaken, zipper_lexeme, fractionValue_point _ h]
  -- a point behind the digits is the only character that spoils the fraction
  cases cs.dropWhile isDecimalDigit with
  | nil => rfl
  | cons d rest =>
    by_cases hd : d = '.'
    · subst hd
      rfl
    · have hne : ∀ more, d :: rest ≠ '.' :: more := fun more heq => hd (List.cons.inj heq).1
      rw [fractionOutcome_of_ne _ _ hne, List.headD_cons, if_neg (by simpa using hd)]
      rfl

theorem readPoint_zipper :
    (s.moved (zipper before ['.'] cs s.startLine)).readPoint = s.takes before (cutPoint cs) := by
  cases cs with
  | nil =>
    rw [cutPoint, takes_one s before (by decide), readPoint,
      if_neg (by simp [isDecimalDigit, endMark])]
    rfl
  | cons d ds =>
    simp only [cutPoint, readPoint, moved_cursor, zipper_peek, List.headD_cons]
    by_cases hd : isDecimalDigit d = true
    · rw [if_pos hd, if_pos hd]
      exact readFraction_zipper s before (d :: ds) [] (by simp)
    · rw [if_neg hd, if_neg hd, takes_one s before (by decide)]
      rfl

theorem readNumber_zipper {c : Char} (hc : isDecimalDigit c = true) :
    (s.moved (zipper before [c] cs s.startLine)).readNumber = s.takes before (cutNumber c cs) := by
  have hdigits : ∀ d ∈ c :: cs.takeWhile isDecimalDigit, isDecimalDigit d = true := by
    intro d hd
    rcases List.mem_cons.mp hd with rfl | hd
    · exact hc
    · exact List.all_eq_true.mp List.all_takeWhile d hd
  have hlook : (s.moved (zipper before [c] cs s.startLine)).readNumber =
      if (cs.dropWhile isDecimalDigit).headD endMark == '.' &&
          isDecimalDigit ((cs.dropWhile isDecimalDigit).tail.headD endMark) then
        (s.moved (zipper before (c :: cs.takeWhile isDecimalDigit)
          (cs.dropWhile isDecimalDigit) s.startLine).advance.2).readFraction
      else (s.moved (zipper before (c :: cs.takeWhile isDecimalDigit)
          (cs.dropWhile isDecimalDigit) s.startLine)).settle
        (integerOutcome (c :: cs.takeWhile isDecimalDigit)) := by
    simp only [readNumber, moved_cursor, moved_moved, zipper_eatDigits, zipper_peek,
      zipper_peekNext, zipper_lexeme, String.toList_ofList, List.singleton_append]
  by_cases hopen : OpensFraction (cs.dropWhile isDecimalDigit)
  · rw [hlook, if_pos ((opensFraction_iff _).mp hopen)]
    obtain ⟨d, ds, hrest, hd⟩ := hopen
    rw [cutNumber_of_opensFraction hrest hd, hrest, zipper_advance]
    exact readFraction_zipper s before (d :: ds) _ hdigits
  · rw [hlook, if_neg fun h => hopen ((opensFraction_iff _).mpr h),
      cutNumber_of_not_opensFraction hopen, takes_eq_settle _ _ (lineFeeds_digits hdigits)]

/-! ## 5. Comments and strings -/

theorem readSlash_zipper :
    (s.moved (zipper before ['/'] cs s.startLine)).readSlash = s.takes before (cutSlash cs) := by
  cases cs with
  | nil =>
    rw [cutSlash, takes_one s before (by decide)]
    · simp [readSlash, settle]
    · rintro cs ⟨⟩
  | cons d ds =>
    by_cases hd : d = '*'
    · subst hd
      have heat := zipper_eatComment before ds s.startLine ['*', '/']
      simp only [readSlash, moved_cursor, moved_moved, zipper_stepOver, if_true, cutSlash]
      rw [show ['/'] ++ ['*'] = ['*', '/'].reverse from rfl]
      rw [show s.startLine + lineFeeds ['*', '/'].reverse = s.startLine from rfl] at heat
      rw [heat]
      cases closeComment ['*', '/'] ds with
      | some split => rfl
      | none => rfl
    · rw [cutSlash, takes_one s before (by decide)]
      · simp [readSlash, zipper_stepOver, hd, settle]
      · rintro cs ⟨⟩
        exact hd rfl

theorem lineComment_zipper :
    (s.moved (zipper before ['#'] cs s.startLine).eatLine) =
      s.takes before (cutLineComment cs) := by
  have hfeeds : lineFeeds ('#' :: cs.takeWhile (· != '\n')) = 0 := by
    rw [lineFeeds_cons_of_ne (by decide), lineFeeds_takeWhile (by decide)]
  rw [takes_eq_settle _ _ hfeeds, zipper_eatLine]
  rfl

/-- Between quotes of one byte stands the text that they quote. -/
theorem unquoted_ofList {q d : Char} (body : List Char) (hq : q.utf8Size = 1)
    (hd : d.utf8Size = 1) :
    unquoted (String.ofList (q :: (body ++ [d]))) = String.ofList body := by
  have hcut := extract_ofList_append [q] body [d]
  have hsize : byteLength (q :: (body ++ [d])) - 1 = 1 + byteLength body := by
    simp only [byteLength_cons, byteLength_append, byteLength_nil, hq, hd]
    omega
  unfold unquoted
  rw [utf8ByteSize_ofList, hsize]
  simpa only [byteLength_cons, byteLength_nil, hq, Nat.add_zero, List.cons_append,
    List.nil_append] using hcut

/-- What ends the inside of a string is its quote or a line feed. -/
theorem eq_of_not_isInside {q d : Char} (h : isInside q d = false) (hd : d ≠ '\n') : d = q := by
  simp only [isInside, Bool.and_eq_false_iff, bne_eq_false_iff_eq] at h
  exact h.resolve_right hd

theorem readString_zipper {q : Char} (hq : q = '"' ∨ q = '\'') :
    (s.moved (zipper before [q] cs s.startLine)).readString q = s.takes before (cutString q cs) := by
  have hq1 : q.utf8Size = 1 := by rcases hq with rfl | rfl <;> rfl
  have hqn : q ≠ '\n' := by rcases hq with rfl | rfl <;> decide
  have hbody : lineFeeds (cs.takeWhile (isInside q)) = 0 :=
    lineFeeds_takeWhile (by simp [isInside]) cs
  simp only [readString, moved_cursor, moved_moved, zipper_eatString, zipper_atEnd, zipper_peek,
    List.singleton_append, cutString]
  cases hrest : cs.dropWhile (isInside q) with
  | nil =>
    rw [takes_eq_settle _ _ (by rw [lineFeeds_cons_of_ne hqn, hbody])]
    simp [report, reportAt, settle, moved]
  | cons d rest =>
    by_cases hd : d = '\n'
    · subst hd
      -- the report is made on the line of the mark, and only then is the line feed counted
      simp [report, reportAt, settle, moved, takes, zipper_stepOver, lineFeeds_cons_of_ne hqn, hbody]
    · have hend : d = q := by
        refine eq_of_not_isInside ?_ hd
        have hhead := List.head?_dropWhile_not (isInside q) cs
        rw [hrest] at hhead
        simpa using hhead
      have hfeeds : lineFeeds (q :: (cs.takeWhile (isInside q) ++ [d])) = 0 := by
        rw [lineFeeds_cons_of_ne hqn, lineFeeds_append, hbody, hend, lineFeeds_cons_of_ne hqn,
          lineFeeds_nil]
      have hvalue := unquoted_ofList (cs.takeWhile (isInside q)) hq1 (hend ▸ hq1)
      have hgo : ((d :: rest).isEmpty || (d :: rest).headD endMark == '\n') = false := by
        simpa using hd
      simp only [if_neg hd, hgo, zipper_advance, zipper_lexeme, List.cons_append, hvalue,
        Bool.false_eq_true, if_false]
      rw [takes_eq_settle _ _ hfeeds]
      rfl

theorem readWord_zipper {c : Char} (hc : c ≠ '\n') :
    (s.moved (zipper before [c] cs s.startLine)).readWord = s.takes before (cutWord c cs) := by
  have hfeeds : lineFeeds (c :: cs.takeWhile isWordPart) = 0 := by
    rw [lineFeeds_cons_of_ne hc, lineFeeds_takeWhile (by decide)]
  rw [takes_eq_settle _ _ hfeeds]
  simp [readWord, zipper_eatWord, cutWord, settle]

/-! ## 6. One turn -/

/-- What a character opens is the piece that is cut off at it. -/
theorem readPiece_zipper (c : Char) :
    (s.moved (zipper before [c] cs s.startLine)).readPiece c = s.takes before (cut c cs) := by
  unfold readPiece cut
  cases hlone : lone? c with
  | some kind => exact (takes_one s before (ne_lineFeed_of_lone hlone) (.token kind none) cs).symm
  | none =>
    cases hpair : pair? c with
    | some p => exact readPair_zipper s before cs hpair
    | none =>
      dsimp only
      split
      · next h => subst h; exact readPoint_zipper s before cs
      split
      · next h => subst h; exact readSlash_zipper s before cs
      split
      · next h => subst h; exact lineComment_zipper s before cs
      split
      · next h => exact readString_zipper s before cs h
      by_cases hfeed : c = '\n'
      · subst hfeed
        rw [if_pos rfl, if_pos (Or.inl rfl)]
        rfl
      rw [if_neg hfeed]
      by_cases hblank : isBlank c = true
      · rw [if_pos hblank, if_pos (Or.inr hblank), takes_one s before hfeed]
        rfl
      rw [if_neg hblank, if_neg (not_or.mpr ⟨hfeed, hblank⟩)]
      split
      · next h => exact readNumber_zipper s before cs h
      split
      · exact readWord_zipper s before cs hfeed
      · exact (takes_one s before hfeed (.report (.unexpectedCharacter c)) cs).symm

/-- **One turn takes one piece.**  The mark goes to the place, whatever stood before it, and the
piece taken is the one that is cut off the text that was left. -/
theorem step_zipper (taken : List Char) (line : Nat) (c : Char) :
    (s.moved (zipper before taken (c :: cs) line)).step =
      ({ s with startLine := line } : Scanner).takes (before ++ taken) (cut c cs) := by
  rw [← readPiece_zipper]
  simp only [step, mark, moved_cursor, zipper_mark, zipper_advance, zipper_line, List.nil_append]
  rfl

end Scanner

/-! ## 7. What a run of turns records -/

/-- `s.Records ps s'`: what `s'` has recorded beyond what `s` has is what the pieces `ps` ask for,
in their order.  A token of theirs is in the tokens and nowhere else; a report is counted, logged
and told to the collector. -/
structure Scanner.Records (s : Scanner) (ps : List Piece) (s' : Scanner) : Prop where
  tokens : s'.tokens.toList = s.tokens.toList ++ ps.filterMap Piece.token?
  errors : s'.errors = s.errors + (ps.filterMap Piece.report?).length
  sink : s'.sink = ((ps.filterMap Piece.report?).map Report.diagnostic).foldl Collector.emit s.sink
  log : s'.log.toList = s.log.toList ++ (ps.filterMap Piece.report?).map Event.lexicalError

namespace Scanner

theorem Records.refl (s : Scanner) : s.Records [] s := ⟨by simp, by simp, by simp, by simp⟩

/-- Records add up. -/
theorem Records.trans {s s' s'' : Scanner} {ps qs : List Piece} (h : s.Records ps s')
    (g : s'.Records qs s'') : s.Records (ps ++ qs) s'' where
  tokens := by rw [g.tokens, h.tokens, List.filterMap_append, List.append_assoc]
  errors := by rw [g.errors, h.errors, List.filterMap_append, List.length_append, Nat.add_assoc]
  sink := by rw [g.sink, h.sink, List.filterMap_append, List.map_append, List.foldl_append]
  log := by rw [g.log, h.log, List.filterMap_append, List.map_append, List.append_assoc]

/-- **Taking a piece records it once**, with the place where it starts. -/
theorem takes_records (s : Scanner) (before : List Char) (k : Cut) :
    s.Records [⟨⟨byteLength before, s.startLine⟩, k.taken, k.outcome⟩] (s.takes before k) := by
  unfold takes
  cases k.outcome with
  | token kind literal =>
    refine ⟨?_, rfl, rfl, (List.append_nil _).symm⟩
    simp [settle, emit, moved, Piece.token?, Piece.stop, Span.between, Position.after_offset]
  | report error =>
    refine ⟨(List.append_nil _).symm, rfl, rfl, ?_⟩
    simp [settle, report, reportAt, moved, Piece.report?]
  | skip => exact ⟨(List.append_nil _).symm, rfl, rfl, (List.append_nil _).symm⟩

/-! ## 8. The machine between two turns -/

/-- The machine as it is before a turn, or behind the last one, in the scan of a text. -/
inductive Head (source : String) (sink : Collector) : Scanner → Prop
  | start : Head source sink (start source sink)
  | turn {s : Scanner} : Head source sink s → s.cursor.atEnd = false → Head source sink s.step

/-- Where the machine stands: behind the characters `before`, with the rest ahead, and with the
pieces `done` recorded. -/
structure Stands (source : String) (sink : Collector) (s : Scanner) (before rest : List Char)
    (done : List Piece) : Prop where
  split : before ++ rest = source.toList
  cursor : ∃ b t, b ++ t = before ∧ s.cursor = zipper b t rest (1 + lineFeeds before)
  pieces : done ++ piecesFrom (Position.after {} before) rest = piecesFrom {} source.toList
  records : (Scanner.start source sink).Records done s

theorem stands_start (source : String) (sink : Collector) :
    Stands source sink (start source sink) [] source.toList [] where
  split := rfl
  cursor := ⟨[], [], rfl, ofString_eq_zipper source⟩
  pieces := rfl
  records := Records.refl _

/-- A machine that stands somewhere, with a character ahead, takes the piece that the character
opens. -/
theorem Stands.step_eq {source : String} {sink : Collector} {s : Scanner} {before cs : List Char}
    {c : Char} {done : List Piece} (h : Stands source sink s before (c :: cs) done) :
    s.step = ({ s with startLine := 1 + lineFeeds before } : Scanner).takes before (cut c cs) := by
  obtain ⟨b, t, rfl, hcursor⟩ := h.cursor
  have hs : s = s.moved (zipper b t (c :: cs) (1 + lineFeeds (b ++ t))) := by
    rw [← hcursor]; rfl
  conv_lhs => rw [hs]
  exact step_zipper s b cs t _ c

/-- The place behind a stretch of text from the beginning. -/
theorem after_start (text : List Char) :
    Position.after {} text = ⟨byteLength text, 1 + lineFeeds text⟩ := by
  have hoffset := Position.after_offset {} text
  have hline := Position.after_line {} text
  rw [Nat.zero_add] at hoffset
  rw [← hoffset, ← hline]

/-- What a turn records. -/
theorem Stands.step_records {source : String} {sink : Collector} {s : Scanner}
    {before cs : List Char} {c : Char} {done : List Piece}
    (h : Stands source sink s before (c :: cs) done) :
    s.Records [⟨Position.after {} before, (cut c cs).taken, (cut c cs).outcome⟩] s.step := by
  have hone := takes_records { s with startLine := 1 + lineFeeds before } before (cut c cs)
  rw [h.step_eq, after_start]
  exact ⟨hone.tokens, hone.errors, hone.sink, hone.log⟩

/-- The step of the induction: a turn goes from standing to standing, one piece further. -/
theorem Stands.turn {source : String} {sink : Collector} {s : Scanner} {before cs : List Char}
    {c : Char} {done : List Piece} (h : Stands source sink s before (c :: cs) done) :
    Stands source sink s.step (before ++ (cut c cs).taken) (cut c cs).rest
      (done ++ [⟨Position.after {} before, (cut c cs).taken, (cut c cs).outcome⟩]) := by
  refine ⟨?_, ⟨before, (cut c cs).taken, rfl, ?_⟩, ?_, h.records.trans h.step_records⟩
  · rw [List.append_assoc, taken_append_rest, h.split]
  · rw [h.step_eq, lineFeeds_append, ← Nat.add_assoc]
    rfl
  · rw [← h.pieces, piecesFrom_cons, Position.after_append]
    simp

/-- **Between two turns the machine stands between two pieces.** -/
theorem Head.stands {source : String} {sink : Collector} {s : Scanner} (h : Head source sink s) :
    ∃ before rest done, Stands source sink s before rest done := by
  induction h with
  | start => exact ⟨_, _, _, stands_start source sink⟩
  | turn _ hend ih =>
    obtain ⟨before, rest, done, hs⟩ := ih
    obtain ⟨b, t, -, hcursor⟩ := hs.cursor
    cases rest with
    | nil =>
      rw [hcursor, zipper_atEnd] at hend
      exact absurd hend (by simp)
    | cons c cs => exact ⟨_, _, _, hs.turn⟩

/-! ## 9. The whole run -/

/-- The loop goes from head to head, and stops at one with nothing left. -/
theorem Head.loop {source : String} {sink : Collector} {s : Scanner} (h : Head source sink s) :
    Head source sink s.loop ∧ s.loop.cursor.atEnd = true := by
  fun_induction Scanner.loop s with
  | case1 s hend => exact ⟨h, hend⟩
  | case2 s hend ih => exact ih (h.turn (Bool.eq_false_iff.mpr hend))

/-- At the end of the text all its pieces are recorded. -/
theorem Head.stands_end {source : String} {sink : Collector} {s : Scanner}
    (h : Head source sink s) (hend : s.cursor.atEnd = true) :
    Stands source sink s source.toList [] (Scan.ofString source).pieces := by
  obtain ⟨before, rest, done, hs⟩ := h.stands
  obtain ⟨b, t, -, hcursor⟩ := hs.cursor
  rw [hcursor, zipper_atEnd, List.isEmpty_iff] at hend
  subst hend
  have hbefore : before = source.toList := by rw [← hs.split, List.append_nil]
  have hdone : done = (Scan.ofString source).pieces := by
    have hpieces := hs.pieces
    rwa [piecesFrom_nil, List.append_nil] at hpieces
  rw [← hbefore, ← hdone]
  exact hs

/-- **The machine and the pieces agree.**  The tokens of a run, its log, what it told the collector
and the line it ends on are those of the scan. -/
theorem run_eq (source : String) (sink : Collector) :
    (run source sink).tokens.toList = (Scan.ofString source).tokens ∧
      (run source sink).log.toList = (Scan.ofString source).events ∧
      (run source sink).sink = sink.absorb (Scan.ofString source) ∧
      (run source sink).errors = (Scan.ofString source).reports.length ∧
      (run source sink).cursor.line = (Scan.ofString source).lines := by
  have hstart : Head source sink (start source sink) := .start
  obtain ⟨hhead, hend⟩ := hstart.loop
  have hs := hhead.stands_end hend
  obtain ⟨b, t, hbt, hcursor⟩ := hs.cursor
  have htokens : (start source sink).loop.tokens.toList = (Scan.ofString source).tokens := by
    rw [hs.records.tokens]; rfl
  have herrors : (start source sink).loop.errors = (Scan.ofString source).reports.length := by
    rw [hs.records.errors]; exact Nat.zero_add _
  have hline : (start source sink).loop.cursor.line = (Scan.ofString source).lines := by
    rw [hcursor, zipper_line]
    exact (Position.after_line {} source.toList).symm
  refine ⟨htokens, ?_, hs.records.sink, herrors, hline⟩
  have hsize : (start source sink).loop.tokens.size = (Scan.ofString source).tokens.length := by
    rw [← htokens, Array.length_toList]
  simp only [run, finish, Array.toList_push, hs.records.log, hsize, herrors, hline]
  rfl

end Scanner

end CpScan
