/-
# Scanning again after an edit

A text `p ++ x ++ q` is edited to `p ++ y ++ q`.  How much of the old scan is still good?

* What stands well before the edit is: every turn whose piece ends two characters or more before the
  end of `p` is made again, at the same place and with the same outcome (`mem_piecesFrom_of_edit`).
  No rule looks further ahead than two characters.
* What stands behind it is, as soon as the two scans are in step: if both stand between two turns at
  the same place of `q`, they make the same turns from there to the end, with places shifted
  (`Scanner.Head.in_step`).  Nothing but the place is carried from turn to turn.

The turns are those of the machine: `Scanner.Runs s ps` says that from `s` on its turns take the
pieces `ps`.  From a machine between two turns it takes the pieces of the text that is left, and no
others (`Scanner.Head.runs_iff`).
-/
import CpScan.Proofs.Scan.Lines
import CpScan.Proofs.Scan.Lookahead

namespace CpScan

/-! ## 1. The turns of the machine -/

namespace Scanner

/-- From `s` to the end of its text, the turns of the machine take the pieces `ps`. -/
inductive Runs : Scanner → List Piece → Prop
  | done {s : Scanner} (hend : s.cursor.atEnd = true) : Runs s []
  | turn {s : Scanner} {k : Cut} {ps : List Piece} (hend : s.cursor.atEnd = false) (hk : s.Takes k)
      (hps : Runs s.step ps) :
      Runs s (⟨⟨s.cursor.current, s.cursor.line⟩, k.taken, k.outcome⟩ :: ps)

/-- The machine has one way to go on. -/
theorem Runs.unique {s : Scanner} {ps qs : List Piece} (h : s.Runs ps) (g : s.Runs qs) :
    ps = qs := by
  induction h generalizing qs with
  | done hend =>
    cases g with
    | done => rfl
    | turn hend' =>
      rw [hend] at hend'
      cases hend'
  | turn hend hk _ ih =>
    cases g with
    | done hend' =>
      rw [hend] at hend'
      cases hend'
    | turn _ hk' hps' =>
      rw [hk.unique hk', ih hps']

variable {source : String} {sink : Collector} {s : Scanner}

/-- Where the machine stands, it takes the pieces of what is left. -/
theorem Stands.runs {before rest : List Char} {done : List Piece} (hhead : Head source sink s)
    (h : Stands source sink s before rest done) :
    s.Runs (piecesFrom (Position.after {} before) rest) := by
  induction rest using cut_induction generalizing s before done with
  | nil =>
    obtain ⟨b, t, -, hcursor⟩ := h.cursor
    rw [piecesFrom_nil]
    refine .done ?_
    rw [hcursor, Cursor.zipper_atEnd, List.isEmpty_nil]
  | cons c cs ih =>
    obtain ⟨b, t, hbt, hcursor⟩ := h.cursor
    have hend : s.cursor.atEnd = false := by
      rw [hcursor, Cursor.zipper_atEnd, List.isEmpty_cons]
    have hleft : s.cursor.left = c :: cs := by
      rw [hcursor, Cursor.zipper_left]
    have hplace : Position.after {} before = ⟨s.cursor.current, s.cursor.line⟩ := by
      rw [after_start, hcursor, Cursor.zipper_current, Cursor.zipper_line, ← byteLength_append, hbt]
    have hrest := ih (hhead.turn hend) h.turn
    rw [Position.after_append, hplace] at hrest
    rw [piecesFrom_cons, hplace]
    exact .turn hend (hhead.takes hleft) hrest

/-- **Between two turns, the turns to come are the pieces of what is left.** -/
theorem Head.runs_iff (h : Head source sink s) :
    ∃ before rest, source.toList = before ++ rest ∧ s.cursor.current = byteLength before ∧
      ∀ ps, s.Runs ps ↔ ps = piecesFrom (Position.after {} before) rest := by
  obtain ⟨before, rest, done, hs⟩ := h.stands
  obtain ⟨b, t, hbt, hcursor⟩ := hs.cursor
  refine ⟨before, rest, hs.split.symm, ?_, ?_⟩
  · rw [hcursor, Cursor.zipper_current, ← byteLength_append, hbt]
  · intro ps
    constructor
    · intro hps
      exact hps.unique (hs.runs h)
    · rintro rfl
      exact hs.runs h

/-- The turns of a whole scan take the pieces of its text. -/
theorem start_runs_iff (source : String) (sink : Collector) (ps : List Piece) :
    (start source sink).Runs ps ↔ ps = (Scan.ofString source).pieces := by
  have hruns : (start source sink).Runs (Scan.ofString source).pieces :=
    (stands_start source sink).runs .start
  constructor
  · intro hps
    exact hps.unique hruns
  · rintro rfl
    exact hruns

end Scanner

/-! ## 2. Before the edit -/

/-- Of two beginnings of a text the one with fewer bytes is a beginning of the other. -/
theorem exists_append_of_byteLength_le {s t u v : List Char} (h : s ++ t = u ++ v)
    (hle : byteLength s ≤ byteLength u) : ∃ w, u = s ++ w ∧ t = w ++ v := by
  rcases List.append_eq_append_iff.mp h with ⟨w, hu, ht⟩ | ⟨w, hs, hv⟩
  · exact ⟨w, hu, ht⟩
  · have hzero : byteLength w = 0 := by
      rw [hs, byteLength_append] at hle
      omega
    rw [byteLength_eq_zero] at hzero
    subst hzero
    exact ⟨[], by simp [hs], by simp [hv]⟩

/-- The piece ends with at least `n` characters of the text `p` behind it. -/
def Piece.EndsBefore (q : Piece) (n : Nat) (p : List Char) : Prop :=
  ∃ before behind, p = before ++ behind ∧ q.stop.offset = byteLength before ∧ n ≤ behind.length

/-- A piece with two characters behind it that stay, stays. -/
theorem Grammar.Rule.behind_of_two {text taken m u : List Char} {outcome : Outcome}
    (h : Rule text ⟨taken, outcome, m ++ u⟩) (htwo : 2 ≤ m.length) (v : List Char) :
    Rule (taken ++ (m ++ v)) ⟨taken, outcome, m ++ v⟩ := by
  rcases m with _ | ⟨c, _ | ⟨d, m⟩⟩
  · simp at htwo
  · simp at htwo
  · exact h.behind_of_head (Fades.of_two c d (m ++ u) (m ++ v)) rfl

/-- **What ends two characters before an edit is not touched by it.**  All pieces up to such a piece
end before the edit too, so both scans come to it in the same way. -/
theorem mem_piecesFrom_of_edit (u v : List Char) {here : Position} {before behind : List Char}
    {q : Piece} (htwo : 2 ≤ behind.length)
    (hstop : q.stop.offset = here.offset + byteLength before)
    (hq : q ∈ piecesFrom here (before ++ behind ++ u)) :
    q ∈ piecesFrom here (before ++ behind ++ v) := by
  generalize htext : before ++ behind ++ u = text at hq
  induction text using rule_induction generalizing here before with
  | nil =>
    rw [piecesFrom_nil] at hq
    cases hq
  | piece taken outcome rest hrule ih =>
    rw [piecesFrom_of_rule hrule] at hq
    have hafter : byteLength taken ≤ byteLength before := by
      rw [Piece.stop_offset] at hstop
      rcases List.mem_cons.mp hq with rfl | hq
      · exact Nat.le_of_add_le_add_left (Nat.le_of_eq hstop)
      · have hle := (piecesFrom_tiles (here.after taken) rest).le_start q hq
        rw [Position.after_offset] at hle
        omega
    obtain ⟨w, rfl, rfl⟩ : ∃ w, before = taken ++ w ∧ rest = w ++ (behind ++ u) := by
      refine exists_append_of_byteLength_le ?_ hafter
      rw [← htext, List.append_assoc]
    rw [← List.append_assoc w behind u] at hrule hq ih
    have hlen : 2 ≤ (w ++ behind).length := by
      rw [List.length_append]
      omega
    have hassoc : taken ++ w ++ behind ++ v = taken ++ (w ++ behind ++ v) := by
      simp only [List.append_assoc]
    rw [hassoc, piecesFrom_of_rule (hrule.behind_of_two hlen v)]
    rcases List.mem_cons.mp hq with rfl | hq
    · exact List.mem_cons_self
    · refine List.mem_cons_of_mem _ (ih ?_ rfl hq)
      rw [hstop, Position.after_offset, byteLength_append, Nat.add_assoc]

/-! ## 3. Behind the edit -/

/-- The piece `q` is the piece `p`, moved from behind `x` to behind `y`. -/
structure Piece.Moved (x y : List Char) (p q : Piece) : Prop where
  offset : q.start.offset + byteLength x = p.start.offset + byteLength y
  line : q.start.line + lineFeeds x = p.start.line + lineFeeds y
  text : q.text = p.text
  outcome : q.outcome = p.outcome

/-- A text at another place has the same pieces, moved. -/
theorem piecesFrom_moved {x y : List Char} {here there : Position} (text : List Char)
    (hoffset : there.offset + byteLength x = here.offset + byteLength y)
    (hline : there.line + lineFeeds x = here.line + lineFeeds y) :
    List.Forall₂ (Piece.Moved x y) (piecesFrom here text) (piecesFrom there text) := by
  induction text using rule_induction generalizing here there with
  | nil =>
    rw [piecesFrom_nil, piecesFrom_nil]
    exact .nil
  | piece taken outcome rest hrule ih =>
    rw [piecesFrom_of_rule hrule, piecesFrom_of_rule hrule]
    refine .cons ⟨hoffset, hline, rfl, rfl⟩ (ih ?_ ?_)
    · rw [Position.after_offset, Position.after_offset]
      omega
    · rw [Position.after_line, Position.after_line]
      omega

/-- **In step once, in step to the end.**  Two machines that stand at the same place of `q`, one in
`p ++ x ++ q` and the other in `p ++ y ++ q`, make the same turns. -/
theorem Scanner.Head.in_step {p x y q : String} {sink : Collector} {m m' : Scanner}
    (hm : Head (p ++ x ++ q) sink m) (hm' : Head (p ++ y ++ q) sink m')
    (hbehind : p.utf8ByteSize + x.utf8ByteSize ≤ m.cursor.current)
    (hplace : m'.cursor.current + x.utf8ByteSize = m.cursor.current + y.utf8ByteSize) :
    ∃ ps ps', (∀ qs, m.Runs qs ↔ qs = ps) ∧ (∀ qs, m'.Runs qs ↔ qs = ps') ∧
      List.Forall₂ (Piece.Moved x.toList y.toList) ps ps' := by
  have hsize (s : String) : s.utf8ByteSize = byteLength s.toList := by
    rw [← utf8ByteSize_ofList, String.ofList_toList]
  obtain ⟨before, rest, hsplit, hcurrent, hruns⟩ := hm.runs_iff
  obtain ⟨before', rest', hsplit', hcurrent', hruns'⟩ := hm'.runs_iff
  rw [String.toList_append, String.toList_append] at hsplit hsplit'
  rw [hsize, hsize, hcurrent] at hbehind
  rw [hsize, hsize, hcurrent, hcurrent'] at hplace
  -- each machine has gone over its beginning and some of `q`
  obtain ⟨w, rfl, hw⟩ := exists_append_of_byteLength_le hsplit (by rw [byteLength_append]; omega)
  obtain ⟨w', rfl, hw'⟩ := exists_append_of_byteLength_le hsplit' (by rw [byteLength_append]; omega)
  simp only [byteLength_append] at hplace
  have hq : w ++ rest = w' ++ rest' := hw.symm.trans hw'
  have hlen : byteLength w = byteLength w' := by omega
  obtain ⟨v, rfl, hrest⟩ := exists_append_of_byteLength_le hq (Nat.le_of_eq hlen)
  have hv : v = [] := by
    rw [byteLength_append] at hlen
    exact byteLength_eq_zero.mp (by omega)
  subst hv
  rw [List.nil_append] at hrest
  subst hrest
  refine ⟨_, _, hruns, hruns', piecesFrom_moved rest ?_ ?_⟩
  · simp only [Position.after_offset, byteLength_append, byteLength_nil]
    omega
  · simp only [Position.after_line, lineFeeds_append, lineFeeds_nil]
    omega

/-! ## 4. Both sides of the edit -/

/-- **Scanning again after an edit is sound.**  Let `s` be the text before the edit and `t` the text
after it.  A turn of the scan of `s` that ends two characters or more before the end of `p` is a
turn of the scan of `t`: it has the same place, the same line, the same text and the same outcome.
And if both scans stand at the same place of `q`, all their turns from there on are the same, but
for a shift by the bytes and line feeds of `y` in place of those of `x`.  Lines are counted in 32
bits in both. -/
theorem relexing_is_sound (p x y q : String) (sink : Collector)
    (hs : lineFeeds (p ++ x ++ q).toList < 2 ^ 32 - 1)
    (ht : lineFeeds (p ++ y ++ q).toList < 2 ^ 32 - 1) :
    let s := p ++ x ++ q
    let t := p ++ y ++ q
    (∃ ps ps', (∀ qs, (Scanner.start s sink).Runs qs ↔ qs = ps) ∧
      (∀ qs, (Scanner.start t sink).Runs qs ↔ qs = ps') ∧
      ∀ piece ∈ ps, piece.EndsBefore 2 p.toList → piece ∈ ps') ∧
    (∀ m m', Scanner.Head s sink m → Scanner.Head t sink m' →
      p.utf8ByteSize + x.utf8ByteSize ≤ m.cursor.current →
      m'.cursor.current + x.utf8ByteSize = m.cursor.current + y.utf8ByteSize →
      ∃ ps ps', (∀ qs, m.Runs qs ↔ qs = ps) ∧ (∀ qs, m'.Runs qs ↔ qs = ps') ∧
        List.Forall₂ (Piece.Moved x.toList y.toList) ps ps') ∧
    (∀ m, Scanner.Head s sink m → m.cursor.line < 2 ^ 32) ∧
    ∀ m, Scanner.Head t sink m → m.cursor.line < 2 ^ 32 := by
  intro s t
  refine ⟨⟨_, _, Scanner.start_runs_iff s sink, Scanner.start_runs_iff t sink, ?_⟩, ?_, ?_, ?_⟩
  · rintro piece hmem ⟨before, behind, hp, hstop, htwo⟩
    have hstop' : piece.stop.offset = ({} : Position).offset + byteLength before := by
      rw [hstop, Nat.zero_add]
    have htext (z : String) : (p ++ z ++ q).toList = before ++ behind ++ (z ++ q).toList := by
      rw [String.append_assoc, String.toList_append, hp]
    have hmem' : piece ∈ piecesFrom {} (before ++ behind ++ (x ++ q).toList) := by
      rw [← htext]
      exact hmem
    have hedit := mem_piecesFrom_of_edit _ (y ++ q).toList htwo hstop' hmem'
    rwa [← htext] at hedit
  · intro m m' hm hm' hbehind hplace
    exact hm.in_step hm' hbehind hplace
  · intro m hm
    exact hm.line_lt hs
  · intro m hm
    exact hm.line_lt ht

/-- A line feed put in before the last word of `a  b`: the first word is found again, and the scans
are in step from the last word on. -/
theorem relexing_is_sound_new_line :
    let m := (Scanner.start ("a  " ++ "" ++ "b") {}).step.step.step
    let m' := (Scanner.start ("a  " ++ "\n" ++ "b") {}).step.step.step.step
    (⟨⟨0, 1⟩, ['a'], .token .identifier none⟩ : Piece) ∈
        (Scan.ofString ("a  " ++ "\n" ++ "b")).pieces ∧
      ∃ ps ps', m.Runs ps ∧ m'.Runs ps' ∧ List.Forall₂ (Piece.Moved [] ['\n']) ps ps' := by
  intro m m'
  obtain ⟨⟨ps, ps', hps, hps', hkept⟩, hstep, -⟩ :=
    relexing_is_sound "a  " "" "\n" "b" {} (by decide) (by decide)
  have hpieces : ps = (Scan.ofString ("a  " ++ "" ++ "b")).pieces :=
    (Scanner.start_runs_iff _ _ _).mp ((hps ps).mpr rfl)
  have hpieces' : ps' = (Scan.ofString ("a  " ++ "\n" ++ "b")).pieces :=
    (Scanner.start_runs_iff _ _ _).mp ((hps' ps').mpr rfl)
  have hm : Scanner.Head ("a  " ++ "" ++ "b") {} m :=
    .turn (.turn (.turn .start (by decide +kernel)) (by decide +kernel)) (by decide +kernel)
  have hm' : Scanner.Head ("a  " ++ "\n" ++ "b") {} m' :=
    .turn (.turn (.turn (.turn .start (by decide +kernel)) (by decide +kernel)) (by decide +kernel))
      (by decide +kernel)
  refine ⟨?_, ?_⟩
  · rw [← hpieces']
    refine hkept _ ?_ ⟨['a'], [' ', ' '], rfl, rfl, by decide⟩
    rw [hpieces]
    decide +kernel
  · obtain ⟨qs, qs', hqs, hqs', hmoved⟩ := hstep m m' hm hm' (by decide +kernel) (by decide +kernel)
    exact ⟨qs, qs', (hqs qs).mpr rfl, (hqs' qs').mpr rfl, hmoved⟩

end CpScan
