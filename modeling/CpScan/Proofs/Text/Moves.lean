/-
# Any sequence of moves

A cursor is moved by steps, and copies of it can be kept and gone back to.  This module says what
every sequence of such moves does, without bytes: a `Zipper` is a text in three parts, the
characters before the mark, those taken since, and those that remain, and each step of a zipper is
a plain move of characters (`Step.onZipper`).

A cursor and a zipper that are moved in the same way from the beginning of a text answer the same,
and what the cursor shows is always what the parts say (`Cursor.Refines`).  One step is
`Step.onCursor_cursor`, one move, with the copies, `Move.perform_cursor`, and all moves are
`cursor_refines_zipper`.
-/
import CpScan.Proofs.Text.Zipper
import Mathlib.Data.List.Forall2

namespace CpScan

/-! ## 1. Moves -/

/-- What is done with a cursor. -/
inductive Step where
  /-- Look at the next character. -/
  | peek
  /-- Look at the character behind the next one. -/
  | peekNext
  | advance
  | mark
  | newLine
  /-- Step over the next character if it is this one. -/
  | stepOver (expected : Char)
deriving DecidableEq, Repr

/-- What a step answers. -/
inductive Answer where
  | nothing
  | saw (c : Char)
  | told (b : Bool)
deriving DecidableEq, Repr

/-- A step, or something that is done with the copies that are kept. -/
inductive Move where
  | step (s : Step)
  /-- Keep a copy. -/
  | save
  /-- Go back to a copy, by the number of copies that were kept before it. -/
  | restore (n : Nat)
deriving DecidableEq, Repr

/-- Something that moves, and the copies of it that are kept, the first of them first. -/
structure Kept (α : Type) where
  now : α
  copies : List α

/-- At first there is no copy. -/
def Kept.fresh {α : Type} (a : α) : Kept α := ⟨a, []⟩

section Performing

variable {α : Type} (take : Step → α → Answer × α)

/-- Make a move, where `take` says what a step does. -/
def Move.perform (k : Kept α) : Move → Answer × Kept α
  | .step s => ((take s k.now).1, { k with now := (take s k.now).2 })
  | .save => (.nothing, { k with copies := k.copies ++ [k.now] })
  | .restore n => (.nothing, { k with now := k.copies[n]?.getD k.now })

/-- Make moves one after the other, and give the answers. -/
def Move.performAll (k : Kept α) : List Move → List Answer × Kept α
  | [] => ([], k)
  | m :: more =>
    let (answer, k) := m.perform take k
    let (answers, k) := performAll k more
    (answer :: answers, k)

end Performing

/-- A step of a cursor. -/
def Step.onCursor : Step → Cursor → Answer × Cursor
  | .peek, c => (.saw c.peek, c)
  | .peekNext, c => (.saw c.peekNext, c)
  | .advance, c => (.saw c.advance.1, c.advance.2)
  | .mark, c => (.nothing, c.mark)
  | .newLine, c => (.nothing, c.newLine)
  | .stepOver expected, c => (.told (c.stepOver expected).1, (c.stepOver expected).2)

/-! ## 2. Characters in three parts -/

/-- A text taken apart, and a line number. -/
structure Zipper where
  /-- The characters before the mark. -/
  before : List Char
  /-- The characters taken since the mark. -/
  taken : List Char
  /-- The characters that remain. -/
  rest : List Char
  line : Nat
deriving DecidableEq, Repr

namespace Zipper

/-- A text of which nothing is taken. -/
def ofString (source : String) : Zipper := ⟨[], [], source.toList, 1⟩

/-- The whole text. -/
def text (z : Zipper) : List Char := z.before ++ z.taken ++ z.rest

/-- The cursor that stands for the parts. -/
def cursor (z : Zipper) : Cursor := Cursor.zipper z.before z.taken z.rest z.line

end Zipper

/-- A step of a zipper.  U+0000 stands for a character that is not there. -/
def Step.onZipper : Step → Zipper → Answer × Zipper
  | .peek, z => (.saw (z.rest[0]?.getD '\x00'), z)
  | .peekNext, z => (.saw (z.rest[1]?.getD '\x00'), z)
  | .advance, z =>
    match z.rest with
    | [] => (.saw '\x00', z)
    | c :: rest => (.saw c, { z with taken := z.taken ++ [c], rest := rest })
  | .mark, z => (.nothing, { z with before := z.before ++ z.taken, taken := [] })
  | .newLine, z => (.nothing, { z with line := z.line + 1 })
  | .stepOver expected, z =>
    match z.rest with
    | [] => (.told false, z)
    | c :: rest =>
      if c = expected then (.told true, { z with taken := z.taken ++ [c], rest := rest })
      else (.told false, z)

/-! ## 3. One move -/

/-- **A step of the cursor is the step of its zipper.** -/
theorem Step.onCursor_cursor (s : Step) (z : Zipper) :
    s.onCursor z.cursor = ((s.onZipper z).1, (s.onZipper z).2.cursor) := by
  obtain ⟨before, taken, rest, line⟩ := z
  cases s with
  | peek => cases rest <;> simp [onCursor, onZipper, Zipper.cursor, Cursor.endMark]
  | peekNext =>
    match rest with
    | [] => simp [onCursor, onZipper, Zipper.cursor, Cursor.endMark]
    | [_] => simp [onCursor, onZipper, Zipper.cursor, Cursor.endMark]
    | _ :: _ :: _ => simp [onCursor, onZipper, Zipper.cursor]
  | advance =>
    cases rest with
    | nil => simp [onCursor, onZipper, Zipper.cursor, Cursor.advance, Cursor.endMark]
    | cons c rest => simp [onCursor, onZipper, Zipper.cursor]
  | mark => simp [onCursor, onZipper, Zipper.cursor]
  | newLine => simp [onCursor, onZipper, Zipper.cursor]
  | stepOver expected =>
    cases rest with
    | nil => simp [onCursor, onZipper, Zipper.cursor]
    | cons c rest =>
      simp only [onCursor, onZipper, Zipper.cursor, Cursor.zipper_stepOver]
      by_cases hc : c = expected
      · simp only [if_pos hc]
      · simp only [if_neg hc]

/-- A step loses no character. -/
theorem Step.onZipper_text (s : Step) (z : Zipper) : (s.onZipper z).2.text = z.text := by
  obtain ⟨before, taken, rest, line⟩ := z
  cases s with
  | advance => cases rest <;> simp [onZipper, Zipper.text]
  | stepOver expected =>
    cases rest with
    | nil => simp [onZipper]
    | cons c rest =>
      simp only [onZipper]
      split
      · simp [Zipper.text]
      · rfl
  | _ => simp [onZipper, Zipper.text]

/-- Only a new line moves the line number. -/
theorem Step.onCursor_line (s : Step) (c : Cursor) :
    (s.onCursor c).2.line = c.line ∨ s = .newLine := by
  cases s with
  | newLine => exact .inr rfl
  | advance =>
    refine .inl ?_
    simp only [onCursor, Cursor.advance]
    split
    · rfl
    · split
      · rfl
      · rfl
  | stepOver expected =>
    refine .inl ?_
    simp only [onCursor, Cursor.stepOver]
    split
    · rfl
    · rfl
  | _ => exact .inl rfl

/-- The cursors that stand for a zipper and for its copies. -/
def Kept.cursors (k : Kept Zipper) : Kept Cursor := ⟨k.now.cursor, k.copies.map Zipper.cursor⟩

theorem Move.perform_cursor (k : Kept Zipper) (m : Move) :
    m.perform Step.onCursor k.cursors =
      ((m.perform Step.onZipper k).1,
        (m.perform Step.onZipper k).2.cursors) := by
  cases m with
  | step s => simp only [perform, Kept.cursors, Step.onCursor_cursor]
  | save => simp only [perform, Kept.cursors, List.map_append, List.map_cons, List.map_nil]
  | restore n =>
    simp only [perform, Kept.cursors, List.getElem?_map]
    cases k.copies[n]? with
    | none => rfl
    | some z => rfl

/-- Only a new line and going back move the line number. -/
theorem Move.perform_line (k : Kept Cursor) (m : Move) :
    (m.perform Step.onCursor k).2.now.line = k.now.line ∨
      m = .step .newLine ∨ ∃ n, m = .restore n := by
  cases m with
  | step s =>
    rcases s.onCursor_line k.now with h | h
    · exact .inl h
    · exact .inr (.inl (congrArg Move.step h))
  | save => exact .inl rfl
  | restore n => exact .inr (.inr ⟨n, rfl⟩)

/-! ## 4. All moves -/

/-- Moves of the cursors are moves of the zippers. -/
theorem Move.performAll_cursor (k : Kept Zipper) (moves : List Move) :
    performAll Step.onCursor k.cursors moves =
      ((performAll Step.onZipper k moves).1,
        (performAll Step.onZipper k moves).2.cursors) := by
  induction moves generalizing k with
  | nil => rfl
  | cons m moves ih => simp only [performAll, perform_cursor, ih]

/-- The parts make up a text, and so do those of every copy. -/
structure Kept.Of (text : List Char) (k : Kept Zipper) : Prop where
  now : k.now.text = text
  copies : ∀ z ∈ k.copies, z.text = text

/-- A move loses no character, of the text or of a copy. -/
theorem Move.perform_text {text : List Char} {k : Kept Zipper} (h : k.Of text) (m : Move) :
    (m.perform Step.onZipper k).2.Of text := by
  cases m with
  | step s => exact ⟨(s.onZipper_text k.now).trans h.now, h.copies⟩
  | save =>
    refine ⟨h.now, fun z hz => ?_⟩
    rcases List.mem_append.mp hz with hold | hnew
    · exact h.copies z hold
    · rw [List.mem_singleton.mp hnew]
      exact h.now
  | restore n =>
    refine ⟨?_, h.copies⟩
    simp only [perform]
    cases hcopy : k.copies[n]? with
    | none => exact h.now
    | some z => exact h.copies z (List.mem_of_getElem? hcopy)

theorem Move.performAll_text {text : List Char} {k : Kept Zipper} (h : k.Of text)
    (moves : List Move) : (performAll Step.onZipper k moves).2.Of text := by
  induction moves generalizing k with
  | nil => exact h
  | cons m moves ih => exact ih (m.perform_text h)

/-- What a cursor shows is what the parts of a text say. -/
structure Cursor.Refines (c : Cursor) (z : Zipper) : Prop where
  source : c.source.toList = z.text
  start : c.start = byteLength z.before
  current : c.current = byteLength (z.before ++ z.taken)
  line : c.line = z.line
  peek : c.peek = z.rest[0]?.getD '\x00'
  peekNext : c.peekNext = z.rest[1]?.getD '\x00'
  lexeme : c.lexeme.toList = z.taken
  atEnd : c.atEnd = true ↔ z.rest = []
  bounds : c.start ≤ c.current ∧ c.current ≤ c.source.utf8ByteSize

theorem Zipper.cursor_refines (z : Zipper) : z.cursor.Refines z where
  source := by simp [cursor, Cursor.zipper, text]
  start := rfl
  current := by simp [cursor]
  line := rfl
  peek := by
    have hpeek := (Prod.mk.inj (Step.peek.onCursor_cursor z)).1
    simpa [Step.onCursor, Step.onZipper] using hpeek
  peekNext := by
    have hpeek := (Prod.mk.inj (Step.peekNext.onCursor_cursor z)).1
    simpa [Step.onCursor, Step.onZipper] using hpeek
  lexeme := by simp [cursor]
  atEnd := by simp [cursor]
  bounds := by
    rw [cursor, Cursor.zipper_size, Cursor.zipper_start, Cursor.zipper_current]
    omega

/-- **The cursor is a zipper of characters.**  Whatever moves are made from the beginning of a text,
going back to copies included, each of them is answered as the moves of characters are; what the
cursor and its copies show behind them is what the parts of the text say, and these make up the
whole text.  One more move leaves the line number as it is, unless it is a new line or going
back. -/
theorem cursor_refines_zipper (source : String) (moves : List Move) :
    let run := Move.performAll Step.onCursor (.fresh (Cursor.ofString source)) moves
    let told := Move.performAll Step.onZipper (.fresh (Zipper.ofString source)) moves
    run.1 = told.1 ∧
      (run.2.now.Refines told.2.now ∧ told.2.now.text = source.toList) ∧
      List.Forall₂ (fun c z => c.Refines z ∧ z.text = source.toList) run.2.copies told.2.copies ∧
      ∀ m : Move, (m.perform Step.onCursor run.2).2.now.line = run.2.now.line ∨
        m = .step .newLine ∨ ∃ n, m = .restore n := by
  intro run told
  have hfresh : Kept.fresh (Cursor.ofString source) =
      (Kept.fresh (Zipper.ofString source)).cursors := by
    rw [Cursor.ofString_eq_zipper]
    rfl
  have hall : run = (told.1, told.2.cursors) := by
    rw [← Move.performAll_cursor, ← hfresh]
  have htext : told.2.Of source.toList :=
    Move.performAll_text (k := .fresh (Zipper.ofString source)) ⟨rfl, by simp [Kept.fresh]⟩ moves
  have hcopies : List.Forall₂ (fun c z => c.Refines z ∧ z.text = source.toList)
      (told.2.copies.map Zipper.cursor) told.2.copies := by
    rw [List.forall₂_map_left_iff, List.forall₂_same]
    intro z hz
    exact ⟨z.cursor_refines, htext.copies z hz⟩
  rw [hall]
  exact ⟨rfl, ⟨told.2.now.cursor_refines, htext.now⟩, hcopies, Move.perform_line _⟩

end CpScan
