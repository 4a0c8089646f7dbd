/-
# What one source comes to, on channels of any size

A session shows a scan by writing all its diagnostics to one channel and then all its tokens to the
other, line by line.  Either channel may be full at any byte, in the middle of a line or right
behind it.  This module says exactly what is on both channels then, and how the session ends
(`run_outcome_is_exact`).

The theory of faults (`Emits`) says that a channel holds a beginning of what was to be written.  How
long a beginning it is follows from two more facts:

* a channel that is written to until a write fails holds what fits of all that was tried, as if it
  had been written at once (`Channel.kept`);
* carrying actions out stops where there is no room, and each channel holds what fits of the actions
  tried so far (`Console.performAll_stops`).

So where only one of the channels can fill up, it holds what fits of everything
(`Console.performAll_kept`), and a session is two such stretches, the second of which begins only if
the first was done (`Console.performAll_stretches`).
-/
import CpScan.Proofs.Scan.Joining
import CpScan.Proofs.Session.Prompt

namespace CpScan

/-! ## 1. What a channel keeps -/

namespace Channel

/-- What a channel holds once `bytes` have been offered to it: of the bytes those that fit. -/
def kept (ch : Channel) (bytes : List UInt8) : List UInt8 :=
  match ch.capacity with
  | none => ch.content ++ bytes
  | some n => ch.content ++ bytes.take (n - ch.content.length)

@[simp] theorem kept_nil (ch : Channel) : ch.kept [] = ch.content := by
  unfold kept
  split <;> simp

/-- **A write keeps what fits.** -/
theorem write_kept (ch : Channel) (bytes : ByteArray) :
    (ch.write bytes).1.content = ch.kept bytes.data.toList := by
  obtain ⟨capacity, written⟩ := ch
  cases capacity with
  | none => simp [write, content, kept]
  | some n =>
    simp only [write, kept]
    split
    · next hroom =>
      have hall : bytes.data.toList.take (n - written.size) = bytes.data.toList :=
        List.take_of_length_le hroom
      simp [content, hall]
    · simp [content]

/-- All of it is kept where there is room for it. -/
theorem kept_of_admits {ch : Channel} {bytes : List UInt8}
    (h : ch.Admits (ch.content.length + bytes.length)) : ch.kept bytes = ch.content ++ bytes := by
  unfold kept
  split
  · rfl
  · next n hcapacity =>
    have hroom := h n hcapacity
    rw [List.take_of_length_le (by omega)]

/-- Writing on behind bytes that fitted is writing all of them at once. -/
theorem kept_append {ch ch' : Channel} {xs : List UInt8} (hcapacity : ch'.capacity = ch.capacity)
    (hcontent : ch'.content = ch.content ++ xs) (h : ch.Admits (ch.content.length + xs.length))
    (ys : List UInt8) : ch'.kept ys = ch.kept (xs ++ ys) := by
  unfold kept
  rw [hcapacity, hcontent]
  split
  · rw [List.append_assoc]
  · next n hn =>
    have hroom := h n hn
    have hrest : n - (ch.content ++ xs).length = n - ch.content.length - xs.length := by
      rw [List.length_append]
      omega
    rw [List.take_append, List.take_of_length_le (l := xs) (by omega), hrest, List.append_assoc]

/-- Nothing is kept behind bytes that did not fit. -/
theorem kept_append_of_full {ch : Channel} {xs : List UInt8}
    (h : ¬ ch.Admits (ch.content.length + xs.length)) (ys : List UInt8) :
    ch.kept (xs ++ ys) = ch.kept xs := by
  unfold kept
  split
  · next hnone =>
    refine absurd ?_ h
    intro n hn
    rw [hnone] at hn
    cases hn
  · next n hn =>
    have hfull : n < ch.content.length + xs.length := by
      by_contra hle
      refine h fun m hm => ?_
      rw [hn] at hm
      cases hm
      omega
    rw [List.take_append_of_le_length (by omega)]

/-- A channel with nothing on it has room for `n` bytes if `n` is its capacity. -/
theorem admits_of_empty (n : Nat) (bytes : List UInt8) :
    Admits ⟨some n, .empty⟩ ((content ⟨some n, .empty⟩).length + bytes.length) ↔
      ¬ n < bytes.length := by
  simp [Admits, content]

/-- It keeps the first `n` bytes. -/
theorem kept_of_empty (n : Nat) (bytes : List UInt8) :
    kept ⟨some n, .empty⟩ bytes = bytes.take (min n bytes.length) := by
  simp [kept, content, ← List.take_eq_take_min]

end Channel

/-! ## 2. Where carrying out stops -/

namespace Console

/-- Whether an action fails or not, each channel keeps what fits. -/
theorem perform_kept (c : Console) (a : Action) :
    (c.perform a).1.out.content = c.out.kept a.outBytes ∧
      (c.perform a).1.err.content = c.err.kept a.errBytes := by
  obtain ⟨out, err, flushFails, log⟩ := c
  cases a with
  | out text => exact ⟨out.write_kept text.toUTF8, err.kept_nil.symm⟩
  | err text => exact ⟨out.kept_nil.symm, err.write_kept text.toUTF8⟩
  | flush => exact ⟨out.kept_nil.symm, err.kept_nil.symm⟩
  | log event => exact ⟨out.kept_nil.symm, err.kept_nil.symm⟩

/-- **Carrying out stops where there is no room.**  Some of the actions were tried, for which there
was no room, and each channel has kept what fits of all that was tried. -/
theorem performAll_stops {c : Console} (hs : c.Sound) {as : List Action} (hfull : ¬ c.HasRoom as) :
    ∃ tried later, as = tried ++ later ∧ ¬ c.HasRoom tried ∧
      (c.performAll as).1.out.content = c.out.kept (outOf tried) ∧
      (c.performAll as).1.err.content = c.err.kept (errOf tried) := by
  induction as generalizing c with
  | nil => exact absurd hs hfull
  | cons a as ih =>
    have hone := perform_eq_none_iff hs a
    obtain ⟨hout, herr⟩ := c.perform_kept a
    obtain ⟨wo, we, hg, -, -, hall⟩ := c.perform_gains a
    unfold performAll
    rcases hp : c.perform a with ⟨c', _ | cause⟩
    · rw [hp] at hg hall hone
      obtain ⟨rfl, rfl⟩ := hall rfl
      have hroom : c.HasRoom [a] := hone.mp rfl
      have hs' : c'.Sound := ((hasRoom_cons hg []).mp hroom).2
      have hfull' : ¬ c'.HasRoom as := fun h => hfull ((hasRoom_cons hg as).mpr ⟨hroom, h⟩)
      obtain ⟨tried, later, rfl, hstop, hout', herr'⟩ := ih hs' hfull'
      have hroomOut : c.out.Admits (c.out.content.length + a.outBytes.length) :=
        hroom.out.mono (by simp)
      have hroomErr : c.err.Admits (c.err.content.length + a.errBytes.length) :=
        hroom.err.mono (by simp)
      refine ⟨a :: tried, later, rfl, fun h => hstop ((hasRoom_cons hg tried).mp h).2, ?_, ?_⟩
      · rw [hout', Channel.kept_append hg.outCapacity hg.out hroomOut]
        rfl
      · rw [herr', Channel.kept_append hg.errCapacity hg.err hroomErr]
        rfl
    · rw [hp] at hout herr hone
      refine ⟨[a], as, rfl, fun h => ?_, ?_, ?_⟩
      · cases hone.mpr h
      · rw [hout, outOf_cons, outOf_nil, List.append_nil]
      · rw [herr, errOf_cons, errOf_nil, List.append_nil]

/-- Where nothing is flushed, it is one of the channels that there is no room on. -/
theorem full_of_not_hasRoom {c : Console} {as : List Action} (hflush : .flush ∉ as)
    (h : ¬ c.HasRoom as) :
    ¬ c.out.Admits (c.out.content.length + (outOf as).length) ∨
      ¬ c.err.Admits (c.err.content.length + (errOf as).length) := by
  by_contra hnone
  rw [not_or, not_not, not_not] at hnone
  exact h ⟨hnone.1, hnone.2, fun hm => absurd hm hflush⟩

/-- **If only one of the channels can be full, it keeps what fits of all that goes to it.** -/
theorem performAll_kept {c : Console} (hs : c.Sound) {as : List Action} (hflush : .flush ∉ as) :
    (c.out.Admits (c.out.content.length + (outOf as).length) →
        (c.performAll as).1.err.content = c.err.kept (errOf as)) ∧
      (c.err.Admits (c.err.content.length + (errOf as).length) →
        (c.performAll as).1.out.content = c.out.kept (outOf as)) := by
  by_cases hroom : c.HasRoom as
  · obtain ⟨wo, we, hg, -, hall⟩ := c.performAll_emits as
    obtain ⟨rfl, rfl⟩ := hall ((performAll_eq_none_iff hs as).mpr hroom)
    rw [Channel.kept_of_admits hroom.out, Channel.kept_of_admits hroom.err]
    exact ⟨fun _ => hg.err, fun _ => hg.out⟩
  · obtain ⟨tried, later, rfl, hstop, hout, herr⟩ := performAll_stops hs hroom
    have hflush' : .flush ∉ tried := fun hm => hflush (List.mem_append_left later hm)
    rw [outOf_append, errOf_append, hout, herr, List.length_append, List.length_append]
    rcases full_of_not_hasRoom hflush' hstop with hfull | hfull
    · refine ⟨fun hadmits => absurd (hadmits.mono (by omega)) hfull, fun _ => ?_⟩
      rw [Channel.kept_append_of_full hfull]
    · refine ⟨fun _ => ?_, fun hadmits => absurd (hadmits.mono (by omega)) hfull⟩
      rw [Channel.kept_append_of_full hfull]

/-- Actions behind others are carried out if the others were. -/
theorem performAll_append (c : Console) (as bs : List Action) :
    c.performAll (as ++ bs) =
      match c.performAll as with
      | (c, none) => c.performAll bs
      | (c, some cause) => (c, some cause) := by
  induction as generalizing c with
  | nil => rfl
  | cons a as ih =>
    rw [List.cons_append, performAll, performAll]
    rcases c.perform a with ⟨c', _ | cause⟩
    · exact ih c'
    · rfl

/-- The cause of a failure other than to flush is a channel without room. -/
theorem perform_cause {c : Console} {a : Action} (hflush : .flush ≠ a) {cause : IoCause}
    (h : (c.perform a).2 = some cause) : cause = .channelFull := by
  obtain ⟨out, err, flushFails, log⟩ := c
  cases a with
  | out text =>
    simp only [perform] at h
    split at h
    · cases h
    · cases h
      rfl
  | err text =>
    simp only [perform] at h
    split at h
    · cases h
    · cases h
      rfl
  | flush => exact absurd rfl hflush
  | log event => cases h

/-- That is so of all actions together, where nothing is flushed. -/
theorem performAll_cause {c : Console} {as : List Action} (hflush : .flush ∉ as) {cause : IoCause}
    (h : (c.performAll as).2 = some cause) : cause = .channelFull := by
  induction as generalizing c with
  | nil => cases h
  | cons a as ih =>
    rw [List.mem_cons, not_or] at hflush
    unfold performAll at h
    rcases hp : c.perform a with ⟨c', _ | cause'⟩
    · rw [hp] at h
      exact ih hflush.2 h
    · rw [hp] at h
      cases h
      exact perform_cause hflush.1 (by rw [hp])

/-- Behind actions that were carried out, no more has been written than there is room for. -/
theorem Gains.sound {c c' : Console} {as : List Action} (h : c.Gains c' (outOf as) (errOf as))
    (hroom : c.HasRoom as) : c'.Sound := by
  refine ⟨?_, ?_, by simp⟩
  · intro n hn
    rw [h.outCapacity] at hn
    simpa [h.out] using hroom.out n hn
  · intro n hn
    rw [h.errCapacity] at hn
    simpa [h.err] using hroom.err n hn

/-- **Two stretches, each on one channel.**  Behind actions that write to the error channel come
actions that write to the output channel.  The error channel keeps what fits of the first; the
output channel what fits of the others if there was room for the first, and nothing if not. -/
theorem performAll_stretches {c : Console} (hs : c.Sound) {ds ts : List Action}
    (hds : outOf ds = []) (hts : errOf ts = []) (hflush : .flush ∉ ds ++ ts) :
    let after := c.performAll (ds ++ ts)
    let fitsErr := c.err.Admits (c.err.content.length + (errOf ds).length)
    let fitsOut := c.out.Admits (c.out.content.length + (outOf ts).length)
    after.1.err.content = c.err.kept (errOf ds) ∧
      (fitsErr → after.1.out.content = c.out.kept (outOf ts)) ∧
      (¬ fitsErr → after.1.out.content = c.out.content) ∧
      (after.2 = none ↔ fitsErr ∧ fitsOut) := by
  intro after fitsErr fitsOut
  have hroom : c.HasRoom (ds ++ ts) ↔ fitsErr ∧ fitsOut := by
    constructor
    · intro h
      have hout := h.out
      have herr := h.err
      rw [outOf_append, hds, List.nil_append] at hout
      rw [errOf_append, hts, List.append_nil] at herr
      exact ⟨herr, hout⟩
    · rintro ⟨herr, hout⟩
      refine ⟨?_, ?_, fun hm => absurd hm hflush⟩
      · rwa [outOf_append, hds, List.nil_append]
      · rwa [errOf_append, hts, List.append_nil]
  rw [List.mem_append, not_or] at hflush
  have hsilent : c.out.Admits (c.out.content.length + (outOf ds).length) := by
    rw [hds]
    exact hs.out
  have hkept := (performAll_kept hs hflush.1).1 hsilent
  have hfirst := performAll_eq_none_iff hs ds
  have hafter : after = _ := performAll_append c ds ts
  obtain ⟨wo, we, hg, hemits, hall⟩ := c.performAll_emits ds
  rcases hp : c.performAll ds with ⟨c', _ | cause⟩
  · rw [hp] at hkept hfirst hafter hg hall
    obtain ⟨rfl, rfl⟩ := hall rfl
    have hroomDs : c.HasRoom ds := hfirst.mp rfl
    have hs' : c'.Sound := hg.sound hroomDs
    obtain ⟨wo', we', hg', hemits', -⟩ := c'.performAll_emits ts
    have hnothing : we' = [] := List.prefix_nil.mp (hts ▸ hemits'.err_prefix)
    have hsilent' : c'.err.Admits (c'.err.content.length + (errOf ts).length) := by
      rw [hts]
      exact hs'.err
    have hkept' := (performAll_kept hs' hflush.2).2 hsilent'
    refine ⟨?_, fun _ => ?_, fun h => absurd hroomDs.err h,
      (performAll_eq_none_iff hs (ds ++ ts)).trans hroom⟩
    · rw [hafter, hg'.err, hnothing, List.append_nil]
      exact hkept
    · rw [hafter, hkept', Channel.kept_append hg.outCapacity hg.out hsilent, hds]
      rfl
  · rw [hp] at hkept hfirst hafter hg
    have hfull : ¬ fitsErr := by
      have hstop : ¬ c.HasRoom ds := fun h => by cases hfirst.mpr h
      exact (full_of_not_hasRoom hflush.1 hstop).resolve_left (absurd hsilent)
    have hnothing : wo = [] := List.prefix_nil.mp (hds ▸ hemits.out_prefix)
    refine ⟨?_, fun h => absurd h hfull, fun _ => ?_,
      (performAll_eq_none_iff hs (ds ++ ts)).trans hroom⟩
    · rw [hafter]
      exact hkept
    · rw [hafter]
      exact hg.out.trans (by rw [hnothing, List.append_nil])

end Console

/-! ## 3. One source -/

namespace Session

variable (s : Session)

/-- Showing a scan flushes nothing. -/
theorem flush_notMem_showScan (scan : Scan) : .flush ∉ s.showScan scan := by
  simp [showScan]

/-- How a scan ends. -/
theorem verdict_eq (scan : Scan) :
    verdict scan =
      if 0 < scan.reports.length then .error (.reported scan.reports.length) else .ok () := by
  unfold verdict
  rcases scan.reports.length with _ | k
  · rfl
  · rfl

/-- What the machine records of a source is what a session shows of it. -/
theorem machine_texts (source : String) :
    let scan := Scanner.run source {}
    scan.tokens.toList.flatMap (fun t => textBytes (s.renderToken t ++ "\n")) =
        s.tokenText (Scan.ofString source) ∧
      scan.sink.diagnostics.toList.flatMap (fun d => textBytes (s.renderDiagnostic d ++ "\n")) =
        s.diagnosticText (Scan.ofString source) ∧
      scan.sink.count = (Scan.ofString source).reports.length := by
  intro scan
  have hsink : scan.sink.diagnostics.toList = (Scan.ofString source).diagnostics :=
    Scanner.run_diagnostics source {}
  refine ⟨?_, ?_, ?_⟩
  · rw [(Scanner.run_eq source {}).1]
    rfl
  · rw [hsink]
    rfl
  · rw [Collector.count, ← Array.length_toList, hsink]
    exact List.length_map _

end Session

/-- **What one source comes to is exact.**  Let `diagnostics` and `tokens` be the lines for all that
the scan of a source reports and finds.  On an error channel with room for `errRoom` bytes and an
output channel with room for `outRoom` bytes,

* the error channel gets the first bytes of the diagnostics, as many as there is room for;
* the output channel gets the first bytes of the tokens, as many as there is room for, if there was
  room for all diagnostics, and nothing otherwise;
* the session fails for want of room if there was not room for both, and only otherwise with the
  number of reports, if there are any.

So there being something to report takes no token away, and does not hide that writing failed. -/
theorem run_outcome_is_exact (s : Session) (source : String) (outRoom errRoom : Nat)
    (flushFails : Bool) (log : Array Event) :
    let scan := Scanner.run source {}
    let diagnostics := scan.sink.diagnostics.toList.flatMap fun d =>
      textBytes (s.renderDiagnostic d ++ "\n")
    let tokens := scan.tokens.toList.flatMap fun t => textBytes (s.renderToken t ++ "\n")
    let after := (s.run source.toList).execute
      ⟨⟨some outRoom, .empty⟩, ⟨some errRoom, .empty⟩, flushFails, log⟩
    after.1.err.content = diagnostics.take (min errRoom diagnostics.length) ∧
      after.1.out.content =
        (if errRoom < diagnostics.length then [] else tokens.take (min outRoom tokens.length)) ∧
      after.2 =
        if errRoom < diagnostics.length ∨ outRoom < tokens.length then .error (.io .channelFull)
        else if 0 < scan.sink.count then .error (.reported scan.sink.count)
        else .ok () := by
  intro scan diagnostics tokens after
  let c : Console := ⟨⟨some outRoom, .empty⟩, ⟨some errRoom, .empty⟩, flushFails, log⟩
  have hsound : c.Sound := ⟨fun _ _ => Nat.zero_le _, fun _ _ => Nat.zero_le _, by simp⟩
  obtain ⟨htokens, hdiagnostics, hcount⟩ := s.machine_texts source
  change tokens = _ at htokens
  change diagnostics = _ at hdiagnostics
  change scan.sink.count = _ at hcount
  -- what is carried out is two stretches
  obtain ⟨ds, ts, hshow, hds, hds', hts', hts⟩ := s.showScan_split (Scan.ofString source)
  have hflush := s.flush_notMem_showScan (Scan.ofString source)
  rw [hshow] at hflush
  obtain ⟨herr, hfits, hfull, hnone⟩ := Console.performAll_stretches hsound hds hts hflush
  rw [hds', ← hdiagnostics] at herr hfits hfull hnone
  rw [hts', ← htokens] at hfits hnone
  rw [Channel.admits_of_empty] at hfits hfull hnone
  rw [Channel.admits_of_empty] at hnone
  rw [Channel.kept_of_empty] at herr hfits
  have hout : (c.performAll (ds ++ ts)).1.out.content =
      if errRoom < diagnostics.length then [] else tokens.take (min outRoom tokens.length) := by
    split
    · next hlt => exact hfull (not_not.mpr hlt)
    · next hroom => exact hfits hroom
  have hcause {cause : IoCause} (h : (c.performAll (ds ++ ts)).2 = some cause) :
      cause = .channelFull := Console.performAll_cause hflush h
  have hafter : after = match c.performAll (ds ++ ts) with
      | (c, none) => (c, Session.verdict (Scan.ofString source))
      | (c, some cause) => (c, .error (.io cause)) := by
    rw [← hshow]
    rfl
  rw [hafter, hcount, ← Session.verdict_eq]
  rcases hp : c.performAll (ds ++ ts) with ⟨c', _ | cause⟩
  · rw [hp] at herr hout hnone
    obtain ⟨hroomErr, hroomOut⟩ := hnone.mp rfl
    refine ⟨herr, hout, ?_⟩
    rw [if_neg (not_or.mpr ⟨hroomErr, hroomOut⟩)]
  · rw [hp] at herr hout hnone hcause
    obtain rfl := hcause rfl
    have hstop : errRoom < diagnostics.length ∨ outRoom < tokens.length := by
      by_contra hroom
      cases hnone.mpr (not_or.mp hroom)
    refine ⟨herr, hout, ?_⟩
    rw [if_pos hstop]

end CpScan
