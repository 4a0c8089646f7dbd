/-
# Places in a source text

A place is a byte offset together with the number of the line it is on.  Offsets count UTF-8
bytes, so a character moves a place by one to four bytes; lines are counted from one, and only
a line feed starts a new one.

`Position.after` is where a place ends up behind a stretch of text.  It depends on the text
alone through its length in bytes and its number of line feeds (`Position.after_offset`,
`Position.after_line`), and stretches compose (`Position.after_append`).
-/

namespace CpScan

/-! ## 1. Positions -/

/-- A place in a source text. -/
structure Position where
  /-- UTF-8 bytes before the place. -/
  offset : Nat := 0
  /-- Number of the line the place is on, from one. -/
  line : Nat := 1
deriving DecidableEq, Repr, Inhabited

namespace Position

/-- The place behind one character. -/
def next (p : Position) (c : Char) : Position :=
  ⟨p.offset + c.utf8Size, if c = '\n' then p.line + 1 else p.line⟩

/-- The place behind a stretch of text. -/
def after (p : Position) (text : List Char) : Position := text.foldl next p

@[simp] theorem after_nil (p : Position) : p.after [] = p := rfl

@[simp] theorem after_cons (p : Position) (c : Char) (text : List Char) :
    p.after (c :: text) = (p.next c).after text := rfl

/-- Going over two stretches is going over the first, then the second. -/
theorem after_append (p : Position) (s t : List Char) :
    p.after (s ++ t) = (p.after s).after t := by
  simp [after, List.foldl_append]

end Position

/-- UTF-8 bytes of a stretch of text. -/
def byteLength (text : List Char) : Nat := text.foldr (fun c n => c.utf8Size + n) 0

/-- Line feeds in a stretch of text. -/
def lineFeeds (text : List Char) : Nat := text.count '\n'

namespace Position

/-- The offset behind a text is its own plus the bytes of the text. -/
theorem after_offset (p : Position) (text : List Char) :
    (p.after text).offset = p.offset + byteLength text := by
  induction text generalizing p with
  | nil => simp [byteLength]
  | cons c text ih =>
    rw [after_cons, ih]
    simp [next, byteLength, Nat.add_assoc]

/-- The line behind a text is its own plus the line feeds of the text. -/
theorem after_line (p : Position) (text : List Char) :
    (p.after text).line = p.line + lineFeeds text := by
  induction text generalizing p with
  | nil => simp [lineFeeds]
  | cons c text ih =>
    rw [after_cons, ih]
    by_cases h : c = '\n'
    · subst h
      simp only [next, lineFeeds, List.count_cons_self, if_true]
      omega
    · simp [next, lineFeeds, h]

end Position

/-! ## 2. Spans -/

/-- A half-open byte range of a source text, with the line it starts on. -/
structure Span where
  start : Nat
  stop : Nat
  line : Nat
deriving DecidableEq, Repr, Inhabited

namespace Span

/-- A span that only knows its line. -/
def ofLine (line : Nat) : Span := ⟨0, 0, line⟩

/-- The span from one place to another. -/
def between (first last : Position) : Span := ⟨first.offset, last.offset, first.line⟩

/-- A span as `start..stop`. -/
def render (s : Span) : String := s!"{s.start}..{s.stop}"

end Span

end CpScan
