/-
# A file and its lines

A source can be given as a file, which is decoded and scanned as a whole, or line by line to an
interactive session, which splits the bytes, decodes each line by itself, takes its line end off and
scans it from the start.  The two agree (`file_and_prompt_agree`), as long as no comment runs from
one line into the next: the tokens are the same and so are the diagnostics, only that each is then
on the line it stands on in the file.

The lines are put together one by one, with three facts about one line:

* bytes can be decoded in parts at a line feed (`Utf8.decode_append_ascii`);
* the carriage returns that are taken off at the end of a line change no token and no report, not
  even of a string or a comment that they would be part of (`records_line`);
* scanning carries nothing over a line feed (`scan_append_lineFeed`).
-/
import CpScan.Proofs.Scan.Joining
import CpScan.Proofs.Session.Prompt
import CpScan.Proofs.Text.Chunks
import Mathlib.Algebra.Ring.Nat

namespace CpScan

/-! ## 1. The end of a line -/

theorem trimLineEnd_append_lineFeed (text : List Char) :
    trimLineEnd (text ++ ['\n']) = trimLineEnd text := by
  simp [trimLineEnd]

/-- Only blanks are taken off a line, apart from its line feed. -/
theorem exists_trimLineEnd_append {text : List Char} (h : '\n' ∉ text) :
    ∃ w, Grammar.AllBlank w ∧ text = trimLineEnd text ++ w := by
  let isEnd : Char → Bool := fun c => c == '\n' || c == '\r'
  have htext : text = trimLineEnd text ++ (text.reverse.takeWhile isEnd).reverse := calc
    text = (text.reverse.takeWhile isEnd ++ text.reverse.dropWhile isEnd).reverse := by
      rw [List.takeWhile_append_dropWhile, List.reverse_reverse]
    _ = trimLineEnd text ++ (text.reverse.takeWhile isEnd).reverse := List.reverse_append
  refine ⟨_, ?_, htext⟩
  intro c hc
  have hmem : c ∈ text := by
    rw [htext]
    exact List.mem_append_right _ hc
  have hend : isEnd c = true := 
    List.all_eq_true.mp List.all_takeWhile c (List.mem_reverse.mp hc)
  simp only [isEnd, Bool.or_eq_true, beq_iff_eq] at hend
  rcases hend with rfl | rfl
  · exact absurd hmem h
  · decide

/-- **The line end asks for nothing.** -/
theorem records_line {content : List UInt8} (h : 0x0A ∉ content) :
    SameRecords (Scan.of (Utf8.decode content)).pieces (lineScan content).pieces := by
  obtain ⟨w, hw, htext⟩ := exists_trimLineEnd_append (Utf8.lineFeed_notMem_decode h)
  have hsame := records_append_blanks {} (trimLineEnd (Utf8.decode content)) hw
  rw [← htext] at hsame
  exact hsame

theorem tokens_line {content : List UInt8} (h : 0x0A ∉ content) :
    (Scan.of (Utf8.decode content)).tokens = (lineScan content).tokens := (records_line h).tokens

theorem reports_line {content : List UInt8} (h : 0x0A ∉ content) :
    (Scan.of (Utf8.decode content)).reports = (lineScan content).reports := (records_line h).reports

theorem decode_append_lineFeed (content bytes : List UInt8) :
    Utf8.decode (content ++ 0x0A :: bytes) = Utf8.decode content ++ '\n' :: Utf8.decode bytes :=
  Utf8.decode_append_ascii content (by decide) bytes

/-- A line is scanned without its line feed. -/
theorem lineScan_append_lineFeed (content : List UInt8) :
    lineScan (content ++ [0x0A]) = lineScan content := by
  unfold lineScan
  rw [decode_append_lineFeed, Utf8.decode_nil, trimLineEnd_append_lineFeed]

/-- What a text without line feeds reports is on the first line. -/
theorem report_line_eq_one {text : List Char} (h : '\n' ∉ text) :
    ∀ r ∈ (Scan.of text).reports, r.start.line = 1 := by
  intro r hr
  obtain ⟨p, hp, hreport⟩ := List.mem_filterMap.mp hr
  obtain ⟨before, rest, hsplit, hstart⟩ := (piecesFrom_tiles {} text).exists_split p hp
  have hbefore : lineFeeds before = 0 := by
    refine List.count_eq_zero.mpr fun hmem => h ?_
    rw [hsplit, List.append_assoc]
    exact List.mem_append_left _ hmem
  rw [Piece.report?_eq_some hreport, hstart, Position.after_line, hbefore]

/-! ## 2. The lines of a file -/

/-- A diagnostic on another line. -/
def Diagnostic.atLine (line : Nat) (d : Diagnostic) : Diagnostic :=
  { d with span := { d.span with line } }

/-- The diagnostics of lines that are scanned one by one, those of each on the line with its number;
the first line has the number `n`. -/
def lineDiagnostics (n : Nat) (ls : List (List UInt8)) : List Diagnostic :=
  (ls.zipIdx n).flatMap fun (line, i) => (lineScan line).diagnostics.map (Diagnostic.atLine i)

@[simp] theorem lineDiagnostics_nil (n : Nat) : lineDiagnostics n [] = [] := rfl

theorem lineDiagnostics_cons (n : Nat) (line : List UInt8) (ls : List (List UInt8)) :
    lineDiagnostics n (line :: ls) =
      (lineScan line).diagnostics.map (Diagnostic.atLine n) ++ lineDiagnostics (n + 1) ls := rfl

/-- One line further down, each line has the next number. -/
theorem lineDiagnostics_map_shift (n : Nat) (ls : List (List UInt8)) :
    (lineDiagnostics n ls).map (Diagnostic.shift 1) = lineDiagnostics (n + 1) ls := by
  induction ls generalizing n with
  | nil => rfl
  | cons line ls ih =>
    rw [lineDiagnostics_cons, lineDiagnostics_cons, List.map_append, List.map_map, ih]
    rfl

theorem length_lineDiagnostics (n : Nat) (ls : List (List UInt8)) :
    (lineDiagnostics n ls).length =
      (ls.map fun line => (lineScan line).diagnostics.length).sum := by
  induction ls generalizing n with
  | nil => rfl
  | cons line ls ih =>
    rw [lineDiagnostics_cons, List.length_append, List.length_map, ih, List.map_cons, List.sum_cons]

/-- The diagnostics of a line are on line one. -/
theorem lineScan_diagnostics_line {content : List UInt8} (h : 0x0A ∉ content) :
    ∀ d ∈ (lineScan content).diagnostics, d.span.line = 1 := by
  intro d hd
  obtain ⟨r, hr, rfl⟩ := List.mem_map.mp hd
  rw [← reports_line h] at hr
  exact report_line_eq_one (Utf8.lineFeed_notMem_decode h) r hr

theorem lineScan_diagnostics_atLine_one {content : List UInt8} (h : 0x0A ∉ content) :
    (lineScan content).diagnostics.map (Diagnostic.atLine 1) = (lineScan content).diagnostics := by
  have hself : ∀ d ∈ (lineScan content).diagnostics, d.atLine 1 = d := by
    intro d hd
    have hline := lineScan_diagnostics_line h d hd
    rw [Diagnostic.atLine, ← hline]
  rw [List.map_congr_left hself, List.map_id']

theorem LinesOf.diagnostics_line {bytes : List UInt8} {ls : List (List UInt8)}
    (hlines : LinesOf bytes ls) :
    ∀ line ∈ ls, ∀ d ∈ (lineScan line).diagnostics, d.span.line = 1 := by
  induction hlines with
  | none =>
    intro line hline
    cases hline
  | last _ h =>
    intro line hline
    obtain rfl := List.mem_singleton.mp hline
    exact lineScan_diagnostics_line h
  | @line content bytes ls h _ ih =>
    intro line hline
    rcases List.mem_cons.mp hline with rfl | hline
    · rw [lineScan_append_lineFeed]
      exact lineScan_diagnostics_line h
    · exact ih line hline

/-- The first line of a file, and the rest, which is one line further down. -/
theorem scan_first_line {content : List UInt8} (h : 0x0A ∉ content)
    (hclosed : ∀ r ∈ (lineScan content).reports, r.error ≠ .unfinishedComment)
    (bytes : List UInt8) :
    ∃ n, (Scan.of (Utf8.decode (content ++ 0x0A :: bytes))).tokens =
        (lineScan content).tokens ++ (Scan.of (Utf8.decode bytes)).tokens.map (Token.shift n 1) ∧
      (Scan.of (Utf8.decode (content ++ 0x0A :: bytes))).reports =
        (lineScan content).reports ++
          (Scan.of (Utf8.decode bytes)).reports.map (Report.shift n 1) := by
  rw [← reports_line h] at hclosed
  obtain ⟨htokens, hreports⟩ :=
    scan_append_lineFeed (Utf8.decode content) (Utf8.decode bytes) hclosed
  have hfeeds : lineFeeds (Utf8.decode content) = 0 := by
    rw [Utf8.lineFeeds_decode, List.count_eq_zero.mpr h]
  rw [hfeeds, tokens_line h] at htokens
  rw [hfeeds, reports_line h] at hreports
  rw [decode_append_lineFeed]
  exact ⟨_, htokens, hreports⟩

/-- **The tokens and the diagnostics of a file are those of its lines.**  Where a token stands does
not show in its text; a diagnostic is on the line with the number of its line. -/
theorem LinesOf.scan_eq {bytes : List UInt8} {ls : List (List UInt8)} (hlines : LinesOf bytes ls)
    (hclosed : ∀ line ∈ ls, ∀ r ∈ (lineScan line).reports, r.error ≠ .unfinishedComment) :
    (Scan.of (Utf8.decode bytes)).tokens.map Token.render =
        ls.flatMap (fun line => (lineScan line).tokens.map Token.render) ∧
      (Scan.of (Utf8.decode bytes)).diagnostics = lineDiagnostics 1 ls := by
  induction hlines with
  | none => simp [Scan.of, Scan.tokens, Scan.diagnostics, Scan.reports]
  | last _ h =>
    rw [lineDiagnostics_cons, lineScan_diagnostics_atLine_one h, Scan.diagnostics, reports_line h,
      tokens_line h]
    exact ⟨(List.flatMap_singleton _ _).symm, (List.append_nil _).symm⟩
  | @line content bytes ls h _ ih =>
    have hfirst := hclosed _ List.mem_cons_self
    rw [lineScan_append_lineFeed] at hfirst
    obtain ⟨n, htokens, hreports⟩ := scan_first_line h hfirst bytes
    obtain ⟨ihTokens, ihDiagnostics⟩ := ih fun line hm => hclosed line (List.mem_cons_of_mem _ hm)
    constructor
    · have hshift : Token.render ∘ Token.shift n 1 = Token.render := rfl
      rw [htokens, List.map_append, List.map_map, hshift, ihTokens, List.flatMap_cons,
        lineScan_append_lineFeed]
    · have hshift : (Scan.of (Utf8.decode bytes)).reports.map
          (Report.diagnostic ∘ Report.shift n 1) =
            (Scan.of (Utf8.decode bytes)).diagnostics.map (Diagnostic.shift 1) := by
        rw [Scan.diagnostics, List.map_map]
        rfl
      rw [Scan.diagnostics, hreports, List.map_append, List.map_map, hshift, ihDiagnostics,
        lineDiagnostics_map_shift, lineDiagnostics_cons, lineScan_append_lineFeed,
        lineScan_diagnostics_atLine_one h]
      rfl

/-! ## 3. What is written -/

/-- Where there is room for everything, a plan is carried out to its end. -/
theorem Plan.execute_unlimited (p : Plan) (log : Array Event) :
    (p.execute ⟨{}, {}, false, log⟩).1.out.content = outOf p.actions ∧
      (p.execute ⟨{}, {}, false, log⟩).1.err.content = errOf p.actions ∧
      (p.execute ⟨{}, {}, false, log⟩).2 = p.ending := by
  let c : Console := ⟨{}, {}, false, log⟩
  have hroom (as : List Action) : c.HasRoom as := by
    refine ⟨?_, ?_, fun _ => rfl⟩
    · rintro _ ⟨⟩
    · rintro _ ⟨⟩
  have hnone : (c.performAll p.actions).2 = none :=
    (Console.performAll_eq_none_iff (hroom []) p.actions).mpr (hroom p.actions)
  obtain ⟨wo, we, hgains, -, hall⟩ := c.performAll_emits p.actions
  obtain ⟨rfl, rfl⟩ := hall hnone
  have hexecute : p.execute c = ((c.performAll p.actions).1, p.ending) := by
    unfold execute
    rcases hp : c.performAll p.actions with ⟨c', _ | cause⟩
    · rfl
    · rw [hp] at hnone
      cases hnone
  change (p.execute c).1.out.content = _ ∧ (p.execute c).1.err.content = _ ∧ (p.execute c).2 = _
  rw [hexecute]
  exact ⟨hgains.out, hgains.err, rfl⟩

namespace Session

variable (s : Session)

/-- Without spans, the text of tokens has only what the tokens are, and not where. -/
theorem tokenText_of_spans_hidden (hspans : s.settings.showSpans = false) (scan : Scan) :
    s.tokenText scan =
      (scan.tokens.map Token.render).flatMap fun text => textBytes (text ++ "\n") := by
  rw [tokenText, List.flatMap_map]
  simp [renderToken, hspans]

/-- The plan for a file is to show the scan of its text. -/
theorem runFile_texts {files : Files} {path : String} {bytes : List UInt8}
    (hfile : files path = .file bytes) :
    outOf (s.runFile files path).actions = s.tokenText (Scan.of (Utf8.decode bytes)) ∧
      errOf (s.runFile files path).actions = s.diagnosticText (Scan.of (Utf8.decode bytes)) ∧
      (s.runFile files path).ending = verdict (Scan.of (Utf8.decode bytes)) := by
  obtain ⟨diagnostics, tokens, hshow, ho, he, ho', he'⟩ :=
    s.showScan_split (Scan.of (Utf8.decode bytes))
  have hplan : s.runFile files path =
      ⟨.log (.scanningFile path bytes.length) :: s.showScan (Scan.of (Utf8.decode bytes)),
        verdict (Scan.of (Utf8.decode bytes))⟩ := by
    rw [runFile, hfile]
    rfl
  rw [hplan]
  refine ⟨?_, ?_, rfl⟩
  · simp [hshow, ho, ho', Action.outBytes]
  · simp [hshow, he, he', Action.errBytes]

/-- A scan with diagnostics ends with their number. -/
theorem verdict_eq_reported_iff (scan : Scan) (n : Nat) :
    verdict scan = .error (.reported n) ↔ n = scan.diagnostics.length ∧ 0 < n := by
  have hlength : scan.diagnostics.length = scan.reports.length := List.length_map _
  rw [hlength, verdict]
  rcases scan.reports.length with _ | k
  · constructor
    · intro h
      cases h
    · rintro ⟨rfl, hpos⟩
      exact absurd hpos (Nat.lt_irrefl 0)
  · constructor
    · intro h
      cases h
      exact ⟨rfl, Nat.succ_pos k⟩
    · rintro ⟨rfl, -⟩
      rfl

/-- A scan without any succeeds. -/
theorem verdict_eq_ok {scan : Scan} (h : scan.diagnostics.length = 0) : verdict scan = .ok () := by
  have hlength : scan.reports.length = 0 := (List.length_map _).symm.trans h
  rw [verdict, hlength]
  rfl

end Session

/-! ## 4. The two modes -/

/-- **A file and its lines agree.**  Let a session show no spans, and let no line of the file,
scanned alone, report an unfinished comment.  Given the bytes of the file as input, the interactive
session writes its prompts and for each line the tokens and the diagnostics, which are all on line
one.  For the file it writes

* as output the same tokens, line after line and without the prompts;
* as diagnostics the same ones, those of the `i`-th line on line `i`.

It fails with the number of all these diagnostics if there is one, and otherwise succeeds. -/
theorem file_and_prompt_agree (s : Session) (hspans : s.settings.showSpans = false)
    (files : Files) (path : String) (bytes : List UInt8) (hfile : files path = .file bytes)
    (hfeeds : bytes.count 0x0A < 2 ^ 32 - 1) (ls : List (List UInt8)) (hlines : LinesOf bytes ls)
    (hclosed : ∀ line ∈ ls, ∀ r ∈ (lineScan line).reports, r.error ≠ .unfinishedComment)
    (log : Array Event) :
    let prompt := (s.runPrompt ⟨bytes, false⟩).execute ⟨{}, {}, false, log⟩
    let file := (s.runFile files path).execute ⟨{}, {}, false, log⟩
    let total := (ls.map fun line => (lineScan line).diagnostics.length).sum
    (prompt.1.out.content =
        (ls.flatMap fun line => s.promptText ++ s.tokenText (lineScan line)) ++ s.promptText ∧
      prompt.1.err.content = ls.flatMap (fun line => s.diagnosticText (lineScan line)) ∧
      prompt.2 = .ok () ∧
      ∀ line ∈ ls, ∀ d ∈ (lineScan line).diagnostics, d.span.line = 1) ∧
    (file.1.out.content = ls.flatMap (fun line => s.tokenText (lineScan line)) ∧
      file.1.err.content = (lineDiagnostics 1 ls).flatMap fun d =>
        textBytes (s.renderDiagnostic d ++ "\n")) ∧
    ((∀ n, file.2 = .error (.reported n) ↔ n = total ∧ 0 < n) ∧ (total = 0 → file.2 = .ok ())) ∧
    (Scan.of (Utf8.decode bytes)).lines < 2 ^ 32 := by
  intro prompt file total
  obtain ⟨hpromptOut, hpromptErr, hpromptEnd⟩ :=
    (s.runPrompt ⟨bytes, false⟩).execute_unlimited log
  obtain ⟨hfileOut, hfileErr, hfileEnd⟩ := (s.runFile files path).execute_unlimited log
  obtain ⟨hout, herr, hending⟩ := s.runFile_texts hfile
  have hread : Input.lines ⟨bytes, false⟩ = ls := Input.lines_eq hlines rfl
  obtain ⟨htokens, hdiagnostics⟩ := hlines.scan_eq hclosed
  refine ⟨⟨?_, ?_, hpromptEnd, hlines.diagnostics_line⟩, ⟨?_, ?_⟩, ?_, ?_⟩
  · rw [hpromptOut, Session.outOf_runPrompt, hread]
    rfl
  · rw [hpromptErr, Session.errOf_runPrompt, hread]
    rfl
  · rw [hfileOut, hout, s.tokenText_of_spans_hidden hspans, htokens, List.flatMap_assoc]
    simp only [s.tokenText_of_spans_hidden hspans]
  · rw [hfileErr, herr, Session.diagnosticText, hdiagnostics]
  · have htotal : (Scan.of (Utf8.decode bytes)).diagnostics.length = total := by
      rw [hdiagnostics, length_lineDiagnostics]
    have hfileVerdict : file.2 = Session.verdict (Scan.of (Utf8.decode bytes)) :=
      hfileEnd.trans hending
    rw [hfileVerdict, ← htotal]
    exact ⟨Session.verdict_eq_reported_iff _, Session.verdict_eq_ok⟩
  · have hlast : (Scan.of (Utf8.decode bytes)).lines = 1 + lineFeeds (Utf8.decode bytes) :=
      Position.after_line {} _
    rw [hlast, Utf8.lineFeeds_decode]
    omega

/-- Three lines, the first with a string that breaks off behind a byte that is not UTF-8 and before
a carriage return, the second empty, the last without a line feed. -/
theorem file_and_prompt_agree_broken_string :
    let bytes := [0x78, 0x20, 0x27, 0xFF, 0x0D, 0x0A, 0x0D, 0x0A, 0x40, 0x20, 0x31]
    let prompt := (Session.runPrompt {} ⟨bytes, false⟩).execute {}
    let file := (Session.runFile {} (fun _ => .file bytes) "three.cp").execute {}
    prompt.1.err.content =
        textBytes "Error [line 1]: Unfinished string\nError [line 1]: unexpected character '@'\n" ∧
      file.1.err.content =
        textBytes "Error [line 1]: Unfinished string\nError [line 3]: unexpected character '@'\n" ∧
      prompt.1.out.content = textBytes "cp> IDENTIFIER x null\ncp> cp> INT 1 1\ncp> " ∧
      file.1.out.content = textBytes "IDENTIFIER x null\nINT 1 1\n" ∧
      file.2 = .error (.reported 2) := by
  intro bytes prompt file
  have hlines : LinesOf bytes
      [[0x78, 0x20, 0x27, 0xFF, 0x0D, 0x0A], [0x0D, 0x0A], [0x40, 0x20, 0x31]] :=
    @LinesOf.line [0x78, 0x20, 0x27, 0xFF, 0x0D] _ _ (by decide)
      (@LinesOf.line [0x0D] _ _ (by decide) (.last (by decide) (by decide)))
  obtain ⟨⟨hpromptOut, hpromptErr, -, -⟩, ⟨hfileOut, hfileErr⟩, ⟨hfails, -⟩, -⟩ :=
    file_and_prompt_agree {} rfl (fun _ => .file bytes) "three.cp" bytes rfl (by decide) _ hlines
      (by decide +kernel) #[]
  refine ⟨hpromptErr.trans ?_, hfileErr.trans ?_, hpromptOut.trans ?_, hfileOut.trans ?_,
    (hfails 2).mpr ?_⟩
  all_goals decide +kernel

end CpScan
