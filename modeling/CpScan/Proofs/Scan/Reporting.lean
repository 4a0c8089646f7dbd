/-
# Every error is recorded once

A malformed piece leaves its trace in three places: the collector or listener is told of it, it is
logged, and the machine counts it.  Three things could come apart there and do not
(`every_error_is_recorded_once`).

* Whoever is told: a listener hears of each malformed piece once, whatever it makes of it
  (`Scanner.runCalling_eq`), and a collector is one (`Scanner.runCalling_report`).  The machine
  cannot depend on what its collector holds, as each turn can be taken with an empty one and comes
  out the same (`Scanner.Stands.step_muted`).
* Whatever came before: reports, finished diagnostics and scans of any texts may go to one
  collector in any order.  It holds what each of them adds, one behind the other
  (`Operation.performAll_diagnostics`).
* Wherever it is recorded: the log has the same errors in the same order, each with an offset
  behind the last one, and the number logged at the end is how many there are.
-/
import CpScan.Proofs.Scan.Joining
import CpScan.Scan.Calling

namespace CpScan

/-! ## 1. What a listener hears -/

/-- The call that a report is. -/
def Report.call (r : Report) : Call := (r.start.line, r.error.message)

/-- The calls that pieces ask for. -/
def callsOf (ps : List Piece) : List Call := (ps.filterMap Piece.report?).map Report.call

theorem callsOf_cons (p : Piece) (ps : List Piece) :
    callsOf (p :: ps) = callsOf [p] ++ callsOf ps := by
  rw [callsOf, callsOf, callsOf, ← List.map_append, ← List.filterMap_append, List.singleton_append]

namespace Scanner

theorem cursor_of_muted {s t : Scanner} (h : t.muted = s.muted) : t.cursor = s.cursor :=
  calc t.cursor = t.muted.cursor := rfl
    _ = s.muted.cursor := by rw [h]
    _ = s.cursor := rfl

/-- **Taking a piece does not depend on the collector**, and an empty collector behind it holds the
report that the piece asks for. -/
theorem takes_muted (s : Scanner) (before : List Char) (k : Cut) :
    (s.muted.takes before k).muted = (s.takes before k).muted ∧
      (s.muted.takes before k).sink.calls =
        callsOf [⟨⟨byteLength before, s.startLine⟩, k.taken, k.outcome⟩] := by
  obtain ⟨taken, outcome, rest⟩ := k
  cases outcome with
  | token kind literal => exact ⟨rfl, rfl⟩
  | report error => exact ⟨rfl, rfl⟩
  | skip => exact ⟨rfl, rfl⟩

variable {source : String} {sink : Collector} {s t : Scanner} {before cs : List Char} {c : Char}
  {done : List Piece}

/-- A turn can be taken with an empty collector. -/
theorem Stands.step_muted (h : Stands source sink s before (c :: cs) done) :
    s.muted.step.muted = s.step.muted ∧
      s.muted.step.sink.calls =
        callsOf [⟨Position.after {} before, (cut c cs).taken, (cut c cs).outcome⟩] := by
  have hmuted : s.muted.step =
      ({ s with startLine := 1 + lineFeeds before } : Scanner).muted.takes before (cut c cs) := by
    obtain ⟨b, r, rfl, hcursor⟩ := h.cursor
    have hs : s.muted = s.muted.moved (Cursor.zipper b r (c :: cs) (1 + lineFeeds (b ++ r))) := by
      rw [← hcursor]
      rfl
    rw [hs]
    exact step_zipper s.muted b cs r _ c
  rw [hmuted, h.step_eq, after_start]
  exact takes_muted _ before (cut c cs)

variable {σ : Type}

/-- The loop with a listener goes along with the loop, and the listener hears of the malformed
pieces that are left. -/
theorem Stands.loopCalling_eq {rest : List Char} (h : Stands source sink s before rest done)
    (hst : t.muted = s.muted) (hear : σ → Call → σ) (state : σ) :
    loopCalling hear t state =
      (s.loop.muted, (callsOf (piecesFrom (Position.after {} before) rest)).foldl hear state) := by
  -- along the loop that reports to the collector: at each turn the other machine differs from it in
  -- its collector alone
  fun_induction Scanner.loop s generalizing t before rest done state with
  | case1 s hend =>
    have hend' : t.cursor.atEnd = true := by rw [cursor_of_muted hst, hend]
    obtain ⟨b, r, -, hzipper⟩ := h.cursor
    have hrest : rest = [] := by
      rwa [hzipper, Cursor.zipper_atEnd, List.isEmpty_iff] at hend
    rw [loopCalling, dif_pos hend', hst, hrest, piecesFrom_nil]
    rfl
  | case2 s hend ih =>
    have hend' : ¬ t.cursor.atEnd = true := by rwa [cursor_of_muted hst]
    obtain ⟨b, r, -, hzipper⟩ := h.cursor
    cases rest with
    | nil =>
      rw [hzipper, Cursor.zipper_atEnd] at hend
      exact absurd rfl hend
    | cons c cs =>
      obtain ⟨hmuted, hcalls⟩ := h.step_muted
      rw [loopCalling, dif_neg hend', hst, ih h.turn hmuted, piecesFrom_cons, callsOf_cons,
        ← hcalls, List.foldl_append, Position.after_append]

/-- **A listener hears of each malformed piece once, in order**, and the machine is the same as with
any collector. -/
theorem runCalling_eq (source : String) (sink : Collector) (hear : σ → Call → σ) (state : σ) :
    runCalling hear source state =
      ((run source sink).muted,
        ((Scan.ofString source).reports.map Report.call).foldl hear state) := by
  have hloop := (stands_start source sink).loopCalling_eq (t := start source {}) rfl hear state
  rw [runCalling, hloop]
  rfl

/-- A collector is a listener like any other: called with each error, it becomes what it is behind a
scan that reports to it. -/
theorem runCalling_report (source : String) (sink : Collector) :
    runCalling (fun (c : Collector) call => c.report call.1 call.2) source sink =
      ((run source sink).muted, (run source sink).sink) := by
  rw [runCalling_eq source sink, (run_eq source sink).2.2.1, Collector.absorb, Scan.diagnostics,
    List.foldl_map, List.foldl_map]
  rfl

theorem foldl_keep (calls kept : List Call) :
    calls.foldl (fun calls call => calls ++ [call]) kept = kept ++ calls := by
  induction calls generalizing kept with
  | nil => rw [List.append_nil, List.foldl_nil]
  | cons call calls ih => rw [List.foldl_cons, ih, List.append_assoc, List.singleton_append]

theorem heard_eq (source : String) :
    heard source = (Scan.ofString source).reports.map Report.call := by
  rw [heard, runCalling_eq source {}, foldl_keep, List.nil_append]

end Scanner

/-! ## 2. What a collector holds -/

/-- What can be done to a collector. -/
inductive Operation where
  | report (line : Nat) (message : String)
  | emit (d : Diagnostic)
  /-- Scan a text, reporting to the collector. -/
  | scan (source : String)

namespace Operation

/-- The collector behind an operation. -/
def perform (c : Collector) : Operation → Collector
  | report line message => c.report line message
  | emit d => c.emit d
  | scan source => (Scanner.run source c).sink

/-- What an operation adds to a collector: a diagnostic that knows its line and no offsets for a
report, a finished diagnostic as it is, and for a scan one for each call to a listener. -/
def adds : Operation → List Diagnostic
  | report line message => [⟨message, ⟨0, 0, line⟩⟩]
  | emit d => [d]
  | scan source => (Scanner.heard source).map fun (line, message) => ⟨message, ⟨0, 0, line⟩⟩

/-- The step: an operation adds its diagnostics at the end. -/
theorem perform_diagnostics (c : Collector) (op : Operation) :
    (op.perform c).diagnostics.toList = c.diagnostics.toList ++ op.adds := by
  cases op with
  | report line message => exact Array.toList_push
  | emit d => exact Array.toList_push
  | scan source =>
    rw [perform, adds, Scanner.heard_eq, Scanner.run_diagnostics, List.map_map]
    rfl

/-- **A collector holds what was added**, one operation behind the other. -/
theorem performAll_diagnostics (c : Collector) (ops : List Operation) :
    (ops.foldl perform c).diagnostics.toList = c.diagnostics.toList ++ ops.flatMap adds := by
  induction ops generalizing c with
  | nil => rw [List.foldl_nil, List.flatMap_nil, List.append_nil]
  | cons op ops ih =>
    rw [List.foldl_cons, ih, perform_diagnostics, List.flatMap_cons, List.append_assoc]

end Operation

/-- What a collector answers is the number of its diagnostics. -/
theorem Collector.answers (c : Collector) :
    c.count = c.diagnostics.toList.length ∧
      (c.hasErrors = true ↔ c.diagnostics.toList.length ≠ 0) ∧
      c.check =
        if c.diagnostics.toList.length = 0 then .ok () else .error c.diagnostics.toList.length := by
  have hcount : c.count = c.diagnostics.toList.length := Array.length_toList.symm
  refine ⟨hcount, ?_, ?_⟩
  · rw [← hcount, hasErrors, count]
    simp
  · rw [check, hcount]

/-! ## 3. What is logged and counted -/

/-- A piece starts before every later one. -/
theorem Tiles.starts_pairwise {here : Position} {text : List Char} {ps : List Piece}
    (h : Tiles here text ps) : ps.Pairwise fun p q => p.start.offset < q.start.offset := by
  refine h.pairwise.imp_of_mem ?_
  intro p q hp _ hpq
  exact Nat.lt_of_lt_of_le (Piece.start_lt_stop (h.text_ne_nil p hp)) hpq

theorem reports_pairwise (source : String) :
    (Scan.ofString source).reports.Pairwise fun r q => r.start.offset < q.start.offset := by
  refine List.Pairwise.filterMap _ ?_ (piecesFrom_tiles {} source.toList).starts_pairwise
  intro p q hpq r hr r' hr'
  rw [Piece.report?_eq_some hr, Piece.report?_eq_some hr']
  exact hpq

/-- **Every error is recorded once, in the same order, everywhere.**  Whatever is done to a new
collector, it holds behind that what each operation adds, and for a scan this is a diagnostic for
each call that a listener hears; what it answers agrees with what it holds.  In each scan, whatever
the collector holds before, the tokens and the log are those of a scan with any listener; a listener
is called as one that only keeps the calls; the errors logged are these calls, with offsets that
increase; and the number that is counted and logged at the end is theirs. -/
theorem every_error_is_recorded_once :
    (∀ ops : List Operation,
      let c := ops.foldl Operation.perform {}
      let n := c.diagnostics.toList.length
      c.diagnostics.toList = ops.flatMap Operation.adds ∧
        c.count = n ∧ (c.hasErrors = true ↔ n ≠ 0) ∧
        c.check = if n = 0 then .ok () else .error n) ∧
    ∀ (source : String) (c : Collector),
      let s := Scanner.run source c
      let reports := (Scan.ofString source).reports
      let heard := Scanner.heard source
      (∀ {σ : Type} (hear : σ → Call → σ) (state : σ),
        s.tokens = (Scanner.runCalling hear source state).1.tokens ∧
          s.log = (Scanner.runCalling hear source state).1.log ∧
          (Scanner.runCalling hear source state).2 = heard.foldl hear state) ∧
      s.log.toList = reports.map Event.lexicalError ++
        [.scanFinished s.tokens.size heard.length (Scan.ofString source).lines] ∧
      reports.map (fun r => (r.start.line, r.error.message)) = heard ∧
      reports.Pairwise (fun r q => r.start.offset < q.start.offset) ∧
      s.errors = heard.length := by
  refine ⟨?_, ?_⟩
  · intro ops c n
    refine ⟨?_, c.answers⟩
    have hall := Operation.performAll_diagnostics {} ops
    exact hall
  · intro source c s reports heard
    obtain ⟨htokens, hlog, -, herrors, -⟩ := Scanner.run_eq source c
    have hheard : heard = reports.map Report.call := Scanner.heard_eq source
    have hnumber : heard.length = reports.length := by rw [hheard, List.length_map]
    refine ⟨?_, ?_, hheard.symm, reports_pairwise source, ?_⟩
    · intro σ hear state
      rw [Scanner.runCalling_eq source c, ← Scanner.heard_eq]
      exact ⟨rfl, rfl, rfl⟩
    · have hsize : s.tokens.size = (Scan.ofString source).tokens.length := by
        rw [← htokens, Array.length_toList]
      rw [hlog, hsize, hnumber]
      rfl
    · rw [hnumber]
      exact herrors

end CpScan
