/-
# Interactive sessions, whatever fails

An interactive session writes a prompt, reads a line, writes its diagnostics to one channel and its
tokens to the other, and goes on until the input ends.  Either channel may be full at any byte,
flushing may fail and so may reading.  This module says what is on the channels then.

* The lines are what the input is split into behind each line feed (`LinesOf`); a session reads all
  of them, or all but a last one that the input fails in (`Input.lines_eq`, `Input.lines_prefix`).
* The output of a session is meant to be `Session.sessionOut` and its diagnostics
  `Session.sessionErr`.  They are put together from the texts of single lines, each the result of
  a scan of its own, so what is wrong with one line cannot show in another.
* `prompt_session_prefix_closed`: the channels hold beginnings of the two texts; neither of them
  gets ahead of the other by more than the line they are at; and the session succeeds exactly if
  nothing fails.

What the channels hold comes from `Emits` and from the place of a line in the plan, and not from an
induction over the lines.
-/
import CpScan.Proofs.Session.Faults

namespace CpScan

/-! ## 1. The lines of an input -/

/-- `bytes` is split into `ls` behind each line feed.  The last line may be without one; it is not
empty then. -/
inductive LinesOf : List UInt8 → List (List UInt8) → Prop
  | none : LinesOf [] []
  | last {line : List UInt8} (hne : line ≠ []) (h : 0x0A ∉ line) : LinesOf line [line]
  | line {line bytes : List UInt8} {ls : List (List UInt8)} (h : 0x0A ∉ line)
      (hrest : LinesOf bytes ls) : LinesOf (line ++ 0x0A :: bytes) ((line ++ [0x0A]) :: ls)

namespace LinesOf

/-- Every input has lines: a byte that is no line feed joins the first line behind it. -/
theorem exists_lines (bytes : List UInt8) : ∃ ls, LinesOf bytes ls := by
  induction bytes with
  | nil => exact ⟨[], .none⟩
  | cons b bytes ih =>
    obtain ⟨ls, h⟩ := ih
    by_cases hb : b = 0x0A
    · subst hb
      exact ⟨_, .line List.not_mem_nil h⟩
    · have hcons {line : List UInt8} (hl : 0x0A ∉ line) : 0x0A ∉ b :: line :=
        fun hm => (List.mem_cons.mp hm).elim (fun e => hb e.symm) hl
      cases h with
      | none => exact ⟨_, .last (List.cons_ne_nil b []) (hcons List.not_mem_nil)⟩
      | last _ hl => exact ⟨_, .last (List.cons_ne_nil b _) (hcons hl)⟩
      | line hl hrest => exact ⟨_, .line (hcons hl) hrest⟩

end LinesOf

namespace Input

theorem splitLines_append {word : List UInt8} (h : 0x0A ∉ word) (line : List UInt8)
    (done : List (List UInt8)) (bytes : List UInt8) :
    splitLines line done (word ++ bytes) = splitLines (word.reverse ++ line) done bytes := by
  induction word generalizing line with
  | nil => rfl
  | cons b word ih =>
    rw [List.mem_cons, not_or] at h
    obtain ⟨hb, hword⟩ := h
    rw [List.cons_append, splitLines, if_neg (Ne.symm hb), ih hword, List.reverse_cons,
      List.append_assoc]
    rfl

/-- Splitting finds the lines there are: the whole ones, and the bytes behind the last line feed if
there are any. -/
theorem splitLines_of_linesOf {bytes : List UInt8} {ls : List (List UInt8)} (h : LinesOf bytes ls)
    (done : List (List UInt8)) :
    ∃ whole rest, splitLines [] done bytes = (whole, rest) ∧
      done.reverse ++ ls = whole ++ if rest.isEmpty then [] else [rest] := by
  induction h generalizing done with
  | none => exact ⟨_, _, rfl, rfl⟩
  | @last line hne h =>
    refine ⟨done.reverse, line, ?_, ?_⟩
    · have happ := splitLines_append h [] done []
      rw [List.append_nil] at happ
      simp [happ, splitLines]
    · simp [hne]
  | @line line bytes ls h _ ih =>
    obtain ⟨whole, rest, hsplit, heq⟩ := ih ((line ++ [0x0A]) :: done)
    refine ⟨whole, rest, ?_, ?_⟩
    · rw [splitLines_append h, splitLines, if_pos rfl, ← hsplit]
      simp
    · rw [← heq]
      simp

/-- An input that does not fail is read to its last line. -/
theorem lines_eq {i : Input} {ls : List (List UInt8)} (h : LinesOf i.bytes ls)
    (hfails : i.fails = false) : i.lines = ls := by
  obtain ⟨whole, rest, hsplit, heq⟩ := splitLines_of_linesOf h []
  rw [List.reverse_nil, List.nil_append] at heq
  subst heq
  simp only [lines, hsplit, hfails, Bool.false_or]
  split
  · rw [List.append_nil]
  · rfl

/-- An input that fails is read up to its last line feed. -/
theorem lines_prefix {i : Input} {ls : List (List UInt8)} (h : LinesOf i.bytes ls) :
    i.lines <+: ls := by
  cases hfails : i.fails with
  | false => exact lines_eq h hfails ▸ List.prefix_rfl
  | true =>
    obtain ⟨whole, rest, hsplit, heq⟩ := splitLines_of_linesOf h []
    rw [List.reverse_nil, List.nil_append] at heq
    subst heq
    simp only [lines, hsplit, hfails, Bool.true_or, if_true]
    exact List.prefix_append _ _

end Input

/-- There is one way to split an input into lines. -/
theorem LinesOf.unique {bytes : List UInt8} {ls ls' : List (List UInt8)} (h : LinesOf bytes ls)
    (h' : LinesOf bytes ls') : ls' = ls := by
  have hls : Input.lines ⟨bytes, false⟩ = ls := Input.lines_eq h rfl
  have hls' : Input.lines ⟨bytes, false⟩ = ls' := Input.lines_eq h' rfl
  exact hls'.symm.trans hls

/-! ## 2. The texts of a session -/

/-- The scan of an interactive line: of its characters, without the line end. -/
def lineScan (line : List UInt8) : Scan := Scan.of (trimLineEnd (Utf8.decode line))

namespace Session

/-- The tokens of a scan, each as a line. -/
def tokenText (s : Session) (scan : Scan) : List UInt8 :=
  scan.tokens.flatMap fun t => textBytes (s.renderToken t ++ "\n")

/-- The diagnostics of a scan, each as a line. -/
def diagnosticText (s : Session) (scan : Scan) : List UInt8 :=
  scan.diagnostics.flatMap fun d => textBytes (s.renderDiagnostic d ++ "\n")

/-- The prompt. -/
def promptText (s : Session) : List UInt8 := textBytes s.settings.prompt

/-- The whole output for lines: a prompt before the tokens of each line, and one more. -/
def sessionOut (s : Session) (lines : List (List UInt8)) : List UInt8 :=
  (lines.flatMap fun line => s.promptText ++ s.tokenText (lineScan line)) ++ s.promptText

/-- All diagnostics for lines. -/
def sessionErr (s : Session) (lines : List (List UInt8)) : List UInt8 :=
  lines.flatMap fun line => s.diagnosticText (lineScan line)

variable (s : Session)

theorem sessionOut_cons (line : List UInt8) (ls : List (List UInt8)) :
    s.sessionOut (line :: ls) =
      s.promptText ++ (s.tokenText (lineScan line) ++ s.sessionOut ls) := by
  simp [sessionOut]

theorem sessionErr_cons (line : List UInt8) (ls : List (List UInt8)) :
    s.sessionErr (line :: ls) = s.diagnosticText (lineScan line) ++ s.sessionErr ls := rfl

theorem sessionErr_concat (ls : List (List UInt8)) (line : List UInt8) :
    s.sessionErr (ls ++ [line]) = s.sessionErr ls ++ s.diagnosticText (lineScan line) := by
  simp [sessionErr]

theorem sessionErr_prefix {ls ls' : List (List UInt8)} (h : ls <+: ls') :
    s.sessionErr ls <+: s.sessionErr ls' := by
  obtain ⟨more, rfl⟩ := h
  rw [sessionErr, sessionErr, List.flatMap_append]
  exact List.prefix_append _ _

/-- The prompt that asks for the next line is the one the output for fewer lines ends with. -/
theorem sessionOut_prefix {ls ls' : List (List UInt8)} (h : ls <+: ls') :
    s.sessionOut ls <+: s.sessionOut ls' := by
  obtain ⟨more, rfl⟩ := h
  simp only [sessionOut, List.flatMap_append, List.append_assoc]
  rw [List.prefix_append_right_inj]
  cases more with
  | nil => exact List.prefix_rfl
  | cons line more =>
    rw [List.flatMap_cons, List.append_assoc, List.append_assoc]
    exact List.prefix_append _ _

/-! ## 3. What the actions write -/

/-- A scan is shown as its diagnostics and then its tokens; events are not seen. -/
theorem showScan_split (scan : Scan) :
    ∃ diagnostics tokens, s.showScan scan = diagnostics ++ tokens ∧
      outOf diagnostics = [] ∧ errOf diagnostics = s.diagnosticText scan ∧
      outOf tokens = s.tokenText scan ∧ errOf tokens = [] := by
  refine ⟨_, _, (List.append_assoc _ _ _).symm, ?_, ?_, ?_, ?_⟩
  · simp [outOf, List.flatMap_map, Action.outBytes]
  · simp [errOf, List.flatMap_map, Action.errBytes, diagnosticText]
  · simp [outOf, List.flatMap_map, Action.outBytes, tokenText]
  · simp [errOf, List.flatMap_map, Action.errBytes]

/-- A line is shown like any scan.  That it has errors is only logged. -/
theorem lineActions_split (n : Nat) (line : List UInt8) :
    ∃ diagnostics tokens, s.lineActions n line = diagnostics ++ tokens ∧
      outOf diagnostics = [] ∧ errOf diagnostics = s.diagnosticText (lineScan line) ∧
      outOf tokens = s.tokenText (lineScan line) ∧ errOf tokens = [] := by
  obtain ⟨diagnostics, tokens, hshow, ho, he, ho', he'⟩ := s.showScan_split (lineScan line)
  unfold lineActions
  change ∃ _ _, s.showScan (lineScan line) ++ _ = _ ∧ _
  rw [hshow, List.append_assoc]
  refine ⟨diagnostics, _, rfl, ho, he, ?_, ?_⟩
  · rw [outOf_append, ho']
    split <;> simp [Action.outBytes]
  · rw [errOf_append, he']
    split <;> simp [Action.errBytes]

theorem outOf_promptActions : outOf s.promptActions = s.promptText := by
  simp [promptActions, Action.outBytes, promptText]

theorem errOf_promptActions : errOf s.promptActions = [] := by
  simp [promptActions, Action.errBytes]

theorem linesActions_cons (n : Nat) (line : List UInt8) (ls : List (List UInt8)) :
    s.linesActions n (line :: ls) =
      s.promptActions ++ (s.lineActions n line ++ s.linesActions (n + 1) ls) := by
  simp [linesActions]

theorem linesActions_append (n : Nat) (ls ls' : List (List UInt8)) :
    s.linesActions n (ls ++ ls') = s.linesActions n ls ++ s.linesActions (n + ls.length) ls' := by
  simp [linesActions, List.zipIdx_append]

/-- All lines and the prompt behind them write the two texts. -/
theorem linesActions_texts (n : Nat) (ls : List (List UInt8)) :
    outOf (s.linesActions n ls ++ s.promptActions) = s.sessionOut ls ∧
      errOf (s.linesActions n ls ++ s.promptActions) = s.sessionErr ls := by
  induction ls generalizing n with
  | nil => exact ⟨s.outOf_promptActions, s.errOf_promptActions⟩
  | cons line ls ih =>
    obtain ⟨diagnostics, tokens, hline, ho, he, ho', he'⟩ := s.lineActions_split n line
    obtain ⟨ihOut, ihErr⟩ := ih (n + 1)
    rw [outOf_append] at ihOut
    rw [errOf_append] at ihErr
    rw [linesActions_cons, hline, sessionOut_cons, sessionErr_cons, ← ihOut, ← ihErr]
    constructor
    · simp [ho, ho', outOf_promptActions]
    · simp [he, he', errOf_promptActions]

/-- The plan of a session is to write the two texts for the lines that can be read. -/
theorem runPrompt_actions (input : Input) :
    ∃ last, (s.runPrompt input).actions =
        .log .sessionStarted :: (s.linesActions 1 input.lines ++ (s.promptActions ++ last)) ∧
      outOf last = [] ∧ errOf last = [] := by
  unfold runPrompt
  split
  · exact ⟨[], by simp, rfl, rfl⟩
  · exact ⟨[.log (.sessionEnded input.lines.length)], by simp, rfl, rfl⟩

theorem outOf_runPrompt (input : Input) :
    outOf (s.runPrompt input).actions = s.sessionOut input.lines := by
  obtain ⟨last, hactions, ho, -⟩ := s.runPrompt_actions input
  rw [hactions, ← (s.linesActions_texts 1 input.lines).1]
  simp [ho, Action.outBytes]

theorem errOf_runPrompt (input : Input) :
    errOf (s.runPrompt input).actions = s.sessionErr input.lines := by
  obtain ⟨last, hactions, -, he⟩ := s.runPrompt_actions input
  rw [hactions, ← (s.linesActions_texts 1 input.lines).2]
  simp [he, Action.errBytes]

theorem flush_mem_runPrompt (input : Input) : .flush ∈ (s.runPrompt input).actions := by
  obtain ⟨last, hactions, -⟩ := s.runPrompt_actions input
  rw [hactions]
  simp [promptActions]

/-- **The place of a line in the plan.**  Before it stand exactly the texts of the lines before it
and the prompt, then come its diagnostics, and all else is later. -/
theorem runPrompt_split {input : Input} {pre : List (List UInt8)} {line : List UInt8}
    (h : pre ++ [line] <+: input.lines) :
    ∃ before diagnostics later,
      (s.runPrompt input).actions = before ++ (diagnostics ++ later) ∧
      outOf before = s.sessionOut pre ∧ errOf before = s.sessionErr pre ∧
      outOf diagnostics = [] ∧ errOf diagnostics = s.diagnosticText (lineScan line) := by
  obtain ⟨post, hlines⟩ := h
  obtain ⟨last, hactions, -⟩ := s.runPrompt_actions input
  obtain ⟨diagnostics, tokens, hline, ho, he, -⟩ := s.lineActions_split (1 + pre.length) line
  obtain ⟨hout, herr⟩ := s.linesActions_texts 1 pre
  rw [← hlines, List.append_assoc, List.singleton_append, linesActions_append, linesActions_cons,
    hline] at hactions
  refine ⟨.log .sessionStarted :: (s.linesActions 1 pre ++ s.promptActions), diagnostics,
    tokens ++ (s.linesActions (1 + pre.length + 1) post ++ (s.promptActions ++ last)), ?_, ?_, ?_,
    ho, he⟩
  · rw [hactions]
    simp only [List.cons_append, List.append_assoc]
  · rw [outOf_cons, hout]
    rfl
  · rw [errOf_cons, herr]
    rfl

/-! ## 4. Whatever fails -/

variable {s} {input : Input} {ls pre post : List (List UInt8)} {line : List UInt8}
  {wo we : List UInt8}

/-- A line is read, or the input fails in it and only lines before it are read. -/
theorem reached_or_short (hlines : LinesOf input.bytes ls) (hls : ls = pre ++ line :: post) :
    pre ++ [line] <+: input.lines ∨ input.lines <+: pre := by
  have hread : input.lines <+: ls := Input.lines_prefix hlines
  have hline : pre ++ [line] <+: ls := ⟨post, by simp [hls]⟩
  rcases List.prefix_or_prefix_of_prefix hline hread with h | h
  · exact Or.inl h
  · rcases List.prefix_concat_iff.mp h with h | h
    · exact Or.inl (h ▸ List.prefix_rfl)
    · exact Or.inr h

/-- **Output of a line means that the diagnostics up to it are complete.** -/
theorem sessionErr_complete (hlines : LinesOf input.bytes ls)
    (hemits : Emits (s.runPrompt input).actions wo we) (hls : ls = pre ++ line :: post)
    (hlt : (s.sessionOut pre).length < wo.length) : s.sessionErr (pre ++ [line]) <+: we := by
  rcases reached_or_short hlines hls with hread | hshort
  · obtain ⟨before, diagnostics, later, hactions, hout, herr, ho, he⟩ := s.runPrompt_split hread
    rw [hactions, ← List.append_assoc] at hemits
    rw [sessionErr_concat, ← herr, ← he, ← errOf_append]
    refine hemits.err_complete ?_
    rw [outOf_append, ho, List.append_nil, hout]
    exact hlt
  · -- the line is never read, so there is no output beyond the lines before it
    have hle : wo.length ≤ (s.sessionOut pre).length := by
      refine Nat.le_trans hemits.out_prefix.length_le ?_
      rw [outOf_runPrompt]
      exact (s.sessionOut_prefix hshort).length_le
    omega

/-- **Diagnostics of a line mean that the output up to its prompt is complete.** -/
theorem sessionOut_complete (hlines : LinesOf input.bytes ls)
    (hemits : Emits (s.runPrompt input).actions wo we) (hls : ls = pre ++ line :: post)
    (hlt : (s.sessionErr pre).length < we.length) : s.sessionOut pre <+: wo := by
  rcases reached_or_short hlines hls with hread | hshort
  · obtain ⟨before, diagnostics, later, hactions, hout, herr, -⟩ := s.runPrompt_split hread
    rw [hactions] at hemits
    rw [← hout]
    rw [← herr] at hlt
    exact hemits.out_complete hlt
  · have hle : we.length ≤ (s.sessionErr pre).length := by
      refine Nat.le_trans hemits.err_prefix.length_le ?_
      rw [errOf_runPrompt]
      exact (s.sessionErr_prefix hshort).length_le
    omega

/-- A session succeeds exactly if no action fails and neither does the input; else it ends with an
input or output error. -/
theorem execute_runPrompt (s : Session) (input : Input) (c : Console) :
    ((s.runPrompt input).execute c).1 = (c.performAll (s.runPrompt input).actions).1 ∧
      (((s.runPrompt input).execute c).2 = .ok () ↔
        (c.performAll (s.runPrompt input).actions).2 = none ∧ input.fails = false) ∧
      (((s.runPrompt input).execute c).2 ≠ .ok () →
        ∃ cause, ((s.runPrompt input).execute c).2 = .error (.io cause)) := by
  have hending : (s.runPrompt input).ending =
      if input.fails then .error (.io .readFailed) else .ok () := by
    unfold runPrompt
    split <;> rfl
  unfold Plan.execute
  rcases c.performAll (s.runPrompt input).actions with ⟨c', _ | cause⟩
  · rw [hending]
    cases input.fails <;> simp
  · simp

/-- On channels with nothing on them there is room for a session if there is room for its texts. -/
theorem hasRoom_runPrompt (s : Session) (input : Input) (outRoom errRoom : Option Nat)
    (flushFails : Bool) (log : Array Event) :
    Console.HasRoom ⟨⟨outRoom, .empty⟩, ⟨errRoom, .empty⟩, flushFails, log⟩
        (s.runPrompt input).actions ↔
      flushFails = false ∧ (∀ n ∈ outRoom, (s.sessionOut input.lines).length ≤ n) ∧
        (∀ n ∈ errRoom, (s.sessionErr input.lines).length ≤ n) := by
  constructor
  · rintro ⟨hout, herr, hflush⟩
    rw [outOf_runPrompt] at hout
    rw [errOf_runPrompt] at herr
    refine ⟨hflush (s.flush_mem_runPrompt input), fun n hn => ?_, fun n hn => ?_⟩
    · simpa [Channel.content] using hout n hn
    · simpa [Channel.content] using herr n hn
  · rintro ⟨hflush, hout, herr⟩
    refine ⟨fun n hn => ?_, fun n hn => ?_, fun _ => hflush⟩
    · simpa [Channel.content, outOf_runPrompt] using hout n hn
    · simpa [Channel.content, errOf_runPrompt] using herr n hn

end Session

/-- **Interactive sessions are prefix-closed under faults.**  Whatever room there is on the
channels, whether flushing works and whether the input ends or fails: with `ls` for the lines of the
input,

* the channels hold the beginnings of the two texts of the session;
* output of a line beyond its prompt means that the diagnostics up to and including this line are
  complete, and a diagnostic of a line that the output up to and including its prompt is complete;
* the session succeeds exactly if flushing and reading work and there is room for both texts,
  which are complete then, and otherwise it ends with an input or output error. -/
theorem prompt_session_prefix_closed (s : Session) (input : Input) (outRoom errRoom : Option Nat)
    (flushFails : Bool) (log : Array Event) :
    ∃ ls, (∀ ls', LinesOf input.bytes ls' ↔ ls' = ls) ∧
      let after := (s.runPrompt input).execute
        ⟨⟨outRoom, .empty⟩, ⟨errRoom, .empty⟩, flushFails, log⟩
      let out := after.1.out.content
      let err := after.1.err.content
      (out <+: s.sessionOut ls ∧ err <+: s.sessionErr ls) ∧
      (∀ pre line post, ls = pre ++ line :: post →
        ((s.sessionOut pre).length < out.length → s.sessionErr (pre ++ [line]) <+: err) ∧
        ((s.sessionErr pre).length < err.length → s.sessionOut pre <+: out)) ∧
      (after.2 = .ok () ↔ flushFails = false ∧ input.fails = false ∧
        (∀ n ∈ outRoom, (s.sessionOut ls).length ≤ n) ∧
        (∀ n ∈ errRoom, (s.sessionErr ls).length ≤ n)) ∧
      (after.2 = .ok () → out = s.sessionOut ls ∧ err = s.sessionErr ls) ∧
      (after.2 ≠ .ok () → ∃ cause, after.2 = .error (.io cause)) := by
  obtain ⟨ls, hlines⟩ := LinesOf.exists_lines input.bytes
  refine ⟨ls, fun ls' => ⟨hlines.unique, fun h => h ▸ hlines⟩, ?_⟩
  intro after out err
  let c : Console := ⟨⟨outRoom, .empty⟩, ⟨errRoom, .empty⟩, flushFails, log⟩
  have hsound : c.Sound := ⟨fun _ _ => Nat.zero_le _, fun _ _ => Nat.zero_le _, by simp⟩
  obtain ⟨hconsole, hok, herror⟩ := Session.execute_runPrompt s input c
  obtain ⟨wo, we, hgains, hemits, hall⟩ := c.performAll_emits (s.runPrompt input).actions
  have hout : out = wo := by
    change after.1.out.content = wo
    rw [hconsole, hgains.out]
    rfl
  have herr : err = we := by
    change after.1.err.content = we
    rw [hconsole, hgains.err]
    rfl
  have hread : input.lines <+: ls := Input.lines_prefix hlines
  have hdone := (Console.performAll_eq_none_iff hsound (s.runPrompt input).actions).trans
    (s.hasRoom_runPrompt input outRoom errRoom flushFails log)
  rw [hout, herr]
  refine ⟨⟨?_, ?_⟩, ?_, ?_, ?_, herror⟩
  · have hprefix := hemits.out_prefix
    rw [Session.outOf_runPrompt] at hprefix
    exact hprefix.trans (s.sessionOut_prefix hread)
  · have hprefix := hemits.err_prefix
    rw [Session.errOf_runPrompt] at hprefix
    exact hprefix.trans (s.sessionErr_prefix hread)
  · intro pre line post hls
    exact ⟨Session.sessionErr_complete hlines hemits hls,
      Session.sessionOut_complete hlines hemits hls⟩
  · rw [hok, hdone]
    constructor
    · rintro ⟨⟨hflush, hroom⟩, hfails⟩
      exact ⟨hflush, hfails, Input.lines_eq hlines hfails ▸ hroom⟩
    · rintro ⟨hflush, hfails, hroom⟩
      exact ⟨⟨hflush, (Input.lines_eq hlines hfails).symm ▸ hroom⟩, hfails⟩
  · intro hafter
    obtain ⟨hnone, hfails⟩ := hok.mp hafter
    obtain ⟨rfl, rfl⟩ := hall hnone
    rw [Session.outOf_runPrompt, Session.errOf_runPrompt, Input.lines_eq hlines hfails]
    exact ⟨rfl, rfl⟩

/-- Room for nine bytes of output lets the session get to the first token of the second line, so the
diagnostics of both lines are complete. -/
theorem prompt_session_prefix_closed_nine_bytes :
    let after := (Session.runPrompt {} ⟨[0x40, 0x0A, 0x78, 0x0A], false⟩).execute
      ⟨⟨some 9, .empty⟩, ⟨none, .empty⟩, false, #[]⟩
    (Session.sessionOut {} [[0x40, 0x0A]]).length < after.1.out.content.length ∧
      Session.sessionErr {} [[0x40, 0x0A], [0x78, 0x0A]] <+: after.1.err.content ∧
      ∃ cause, after.2 = .error (.io cause) := by
  intro after
  obtain ⟨ls, hls, -, hline, hok, -, hio⟩ :=
    prompt_session_prefix_closed {} ⟨[0x40, 0x0A, 0x78, 0x0A], false⟩ (some 9) none false #[]
  have hlines : [[0x40, 0x0A], [0x78, 0x0A]] = ls :=
    (hls _).mp (@LinesOf.line [0x40] _ _ (by decide) (@LinesOf.line [0x78] _ _ (by decide) .none))
  subst hlines
  have hlt : (Session.sessionOut {} [[0x40, 0x0A]]).length < after.1.out.content.length := by
    decide +kernel
  refine ⟨hlt, (hline [[0x40, 0x0A]] [0x78, 0x0A] [] rfl).1 hlt, hio fun h => ?_⟩
  have hroom : (Session.sessionOut {} [[0x40, 0x0A], [0x78, 0x0A]]).length ≤ 9 :=
    (hok.mp h).2.2.1 9 rfl
  revert hroom
  decide +kernel

end CpScan
