/-
# Scanning a source text

A scan cuts a source text into its pieces, from the front to the end (`piecesFrom`).  A piece
knows the place it starts at, its text and what it is; the place of the next piece is the place
behind its text.  Everything a scan is asked for is a view of the list of pieces:

* `Scan.tokens`, the pieces that are tokens, with their spans;
* `Scan.reports`, the malformed pieces, each on the line it starts on;
* `Scan.lines`, the line the text ends on.

The scan goes from piece to piece with the pieces done so far in hand, so that a long text needs
no deep recursion; `piecesFrom_cons` gives the plain reading, the first piece followed by the
pieces of the rest.
-/
import CpScan.Scan.Cut

namespace CpScan

/-! ## 1. Pieces in place -/

/-- A piece of a source text. -/
structure Piece where
  /-- The place of its first character. -/
  start : Position
  /-- Its characters; there is always at least one. -/
  text : List Char
  outcome : Outcome
deriving DecidableEq, Repr, Inhabited

/-- A malformed piece, as it is reported. -/
structure Report where
  /-- The place the piece starts at. -/
  start : Position
  error : LexicalError
deriving DecidableEq, Repr, Inhabited

namespace Piece

/-- The place behind the piece. -/
def stop (p : Piece) : Position := p.start.after p.text

/-- The token that the piece is. -/
def token? (p : Piece) : Option Token :=
  match p.outcome with
  | .token kind literal =>
    some ⟨kind, String.ofList p.text, literal, Span.between p.start p.stop⟩
  | _ => none

/-- The report that the piece asks for. -/
def report? (p : Piece) : Option Report :=
  match p.outcome with
  | .report error => some ⟨p.start, error⟩
  | _ => none

end Piece

/-! ## 2. All pieces of a text -/

/-- The pieces of a text that starts at `here`, behind the pieces `done`, the last of them first. -/
def collect (here : Position) (done : List Piece) : List Char → List Piece
  | [] => done.reverse
  | c :: cs =>
    let k := cut c cs
    collect (here.after k.taken) (⟨here, k.taken, k.outcome⟩ :: done) k.rest
termination_by text => text.length
decreasing_by exact Nat.lt_succ_of_le (cut_rest_length_le c cs)

/-- The pieces of a text that starts at the place `here`. -/
def piecesFrom (here : Position) (text : List Char) : List Piece := collect here [] text

theorem collect_eq (here : Position) (done : List Piece) (text : List Char) :
    collect here done text = done.reverse ++ piecesFrom here text := by
  unfold piecesFrom
  induction text using cut_induction generalizing here done with
  | nil => simp [collect]
  | cons c cs ih =>
    rw [collect, collect, ih _ (_ :: done), ih _ [_]]
    simp

@[simp] theorem piecesFrom_nil (here : Position) : piecesFrom here [] = [] := by
  simp [piecesFrom, collect]

/-- The pieces of a text are the first piece and the pieces of the rest. -/
theorem piecesFrom_cons (here : Position) (c : Char) (cs : List Char) :
    piecesFrom here (c :: cs) =
      ⟨here, (cut c cs).taken, (cut c cs).outcome⟩ ::
        piecesFrom (here.after (cut c cs).taken) (cut c cs).rest := by
  rw [piecesFrom, collect, collect_eq]
  simp

/-! ## 3. Scans -/

/-- A source text taken apart. -/
structure Scan where
  pieces : List Piece
  /-- The place behind the text. -/
  stop : Position
deriving Repr

namespace Scan

/-- Scan a source text. -/
def of (source : List Char) : Scan := ⟨piecesFrom {} source, Position.after {} source⟩

/-- Scan a source text given as a string. -/
def ofString (source : String) : Scan := of source.toList

/-- The tokens, in source order. -/
def tokens (s : Scan) : List Token := s.pieces.filterMap Piece.token?

/-- The malformed pieces, in source order. -/
def reports (s : Scan) : List Report := s.pieces.filterMap Piece.report?

/-- The line the text ends on. -/
def lines (s : Scan) : Nat := s.stop.line

end Scan

end CpScan
