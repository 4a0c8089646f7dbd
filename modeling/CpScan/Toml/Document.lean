/-
# TOML documents

A document is read in two steps.  `readStatements` takes the text apart into statements, each a
line of its own: a header `[a.b]`, a header `[[a.b]]`, or an assignment `a.b = value`.  `Draft.add`
then puts one statement after the other into the tree.

What may be added where follows from how a table came to be.  A header may name a table that was
only implied before, and makes it its own; every other table is complete once it is there.  A
dotted key may go on through tables that dotted keys made, and never into one with a header or
in braces.  No key is ever given twice.
-/
import CpScan.Toml.Number

namespace CpScan.Toml

/-! ## 1. Dotted keys -/

/-- Give a key its value, below the keys on the way to it. -/
def Entries.assign (value : Value) (last : String) : List String → Entries → Option Entries
  | [], es => if (es.get? last).isSome then none else some (es.add last value)
  | key :: way, es =>
    match es.get? key with
    | none => (assign value last way []).map fun inner => es.add key (.table .dotted inner)
    | some (.table kind inner) =>
      if kind = .dotted ∨ (kind = .implied ∧ way ≠ []) then
        (assign value last way inner).map fun inner => es.replace key (.table kind inner)
      else none
    | some _ => none

/-- The table of assignments in braces. -/
def Entries.ofAssignments (assignments : List (Key × Value)) : Option Entries :=
  assignments.foldlM (fun es (key, value) => es.assign value key.last key.parents) []

/-! ## 2. Values -/

/-- The items of an array, behind its opening bracket; `done` has the items read, the last first,
and at most so many may still follow. -/
def readItems (item : Reader Value) (done : List Value) : Nat → Reader (List Value)
  | 0, _ => none
  | limit + 1, cs =>
    match dropFill false cs with
    | some (']' :: rest) => some (done.reverse, rest)
    | some cs =>
      match item cs with
      | none => none
      | some (value, rest) =>
        match dropFill false rest with
        | some (',' :: rest) => readItems item (value :: done) limit rest
        | some (']' :: rest) => some ((value :: done).reverse, rest)
        | _ => none
    | none => none

/-- An assignment: a key, an equals sign and a value. -/
def readAssignment (item : Reader Value) (cs : List Char) :
    Option ((Key × Value) × List Char) := do
  let (key, rest) ← readKey cs
  let rest ← expect '=' rest
  let (value, rest) ← item (dropSpaces rest)
  return ((key, value), rest)

/-- The assignments in braces, at least one; `done` has those read, the last first, and at most so
many may still follow. -/
def readAssignments (item : Reader Value) (done : List (Key × Value)) :
    Nat → Reader (List (Key × Value))
  | 0, _ => none
  | limit + 1, cs =>
    match readAssignment item cs with
    | none => none
    | some (assignment, rest) =>
      match dropSpaces rest with
      | ',' :: rest => readAssignments item (assignment :: done) limit rest
      | '\x7d' :: rest => some ((assignment :: done).reverse, rest)
      | _ => none

/-- A table in braces, behind the opening one. -/
def readBraces (item : Reader Value) (cs : List Char) : Option (Value × List Char) :=
  match dropSpaces cs with
  | '\x7d' :: rest => some (.table .inline [], rest)
  | cs =>
    match readAssignments item [] (cs.length + 1) cs with
    | none => none
    | some (assignments, rest) =>
      (Entries.ofAssignments assignments).map fun es => (.table .inline es, rest)

/-- A value that holds no other. -/
def readScalar : Reader Value
  | '"' :: rest => (readString ('"' :: rest)).map fun (text, rest) => (.string text, rest)
  | '\'' :: rest => (readString ('\'' :: rest)).map fun (text, rest) => (.string text, rest)
  | 't' :: 'r' :: 'u' :: 'e' :: rest => some (.boolean true, rest)
  | 'f' :: 'a' :: 'l' :: 's' :: 'e' :: rest => some (.boolean false, rest)
  | cs => readMomentOrNumber cs

/-- A value with brackets and braces nested at most so deep. -/
def readValue : Nat → Reader Value
  | 0, cs => readScalar cs
  | depth + 1, cs =>
    match cs with
    | '[' :: rest =>
      (readItems (readValue depth) [] (rest.length + 1) rest).map fun (items, rest) =>
        (.array .listed items, rest)
    | '\x7b' :: rest => readBraces (readValue depth) rest
    | cs => readScalar cs

/-! ## 3. Statements -/

/-- A line of a document that says something. -/
inductive Statement where
  /-- A table header, `[a.b]`. -/
  | header (key : Key)
  /-- A header of one more table of an array, `[[a.b]]`. -/
  | element (key : Key)
  /-- A key and its value, `a.b = value`. -/
  | assignment (key : Key) (value : Value)
deriving Repr

/-- The statement at the front of a text, and the text behind its line. -/
def readStatement (cs : List Char) : Option (Statement × List Char) :=
  match cs with
  | '[' :: '[' :: rest => do
    let (key, rest) ← readKey rest
    let rest ← expect ']' rest
    let rest ← expect ']' rest
    let rest ← lineEnd? rest
    return (.element key, rest)
  | '[' :: rest => do
    let (key, rest) ← readKey rest
    let rest ← expect ']' rest
    let rest ← lineEnd? rest
    return (.header key, rest)
  | cs => do
    let ((key, value), rest) ← readAssignment (readValue (depthLimit - 1)) cs
    let rest ← lineEnd? rest
    return (.assignment key value, rest)

/-- The statements of a text; `done` has those before it, the last first, and at most so many lines
may still follow. -/
def readStatements (done : List Statement) : Nat → List Char → Option (List Statement)
  | 0, _ => none
  | limit + 1, cs =>
    match dropSpaces cs with
    | [] => some done.reverse
    | c :: rest =>
      if c = '\n' ∨ c = '\r' ∨ c = '#' then
        match lineEnd? (c :: rest) with
        | some rest => readStatements done limit rest
        | none => none
      else
        match readStatement (c :: rest) with
        | some (statement, rest) => readStatements (statement :: done) limit rest
        | none => none

/-! ## 4. Assembly -/

/-- Change the table at the end of a list of keys.  Tables that are missing on the way are implied,
and in an array of tables the way goes on in its last one. -/
def Entries.atTable (change : Entries → Option Entries) :
    List String → Entries → Option Entries
  | [], es => change es
  | key :: way, es =>
    match es.get? key with
    | none => (atTable change way []).map fun inner => es.add key (.table .implied inner)
    | some (.table kind inner) =>
      if kind = .inline then none
      else (atTable change way inner).map fun inner => es.replace key (.table kind inner)
    | some (.array .headed items) =>
      match items.getLast? with
      | some (.table kind inner) =>
        (atTable change way inner).map fun inner =>
          es.replace key (.array .headed (items.dropLast ++ [.table kind inner]))
      | _ => none
    | some _ => none

/-- Open the table that a header names. -/
def Entries.openTable (key : String) (es : Entries) : Option Entries :=
  match es.get? key with
  | none => some (es.add key (.table .headed []))
  | some (.table .implied inner) => some (es.replace key (.table .headed inner))
  | some _ => none

/-- Open one more table of the array that a header in double brackets names. -/
def Entries.openElement (key : String) (es : Entries) : Option Entries :=
  match es.get? key with
  | none => some (es.add key (.array .headed [.table .headed []]))
  | some (.array .headed items) =>
    some (es.replace key (.array .headed (items ++ [.table .headed []])))
  | some _ => none

/-- A document in the making: its tree, and the keys of the table that assignments go to. -/
structure Draft where
  root : Entries := []
  here : List String := []
deriving Repr

/-- Add a statement. -/
def Draft.add (d : Draft) : Statement → Option Draft
  | .header key =>
    (d.root.atTable (·.openTable key.last) key.parents).map (⟨·, key.parents ++ [key.last]⟩)
  | .element key =>
    (d.root.atTable (·.openElement key.last) key.parents).map (⟨·, key.parents ++ [key.last]⟩)
  | .assignment key value =>
    (d.root.atTable (·.assign value key.last key.parents) d.here).map (⟨·, d.here⟩)

/-- The tree that statements make. -/
def assemble (statements : List Statement) : Option Entries :=
  (statements.foldlM Draft.add {}).map Draft.root

/-! ## 5. Documents -/

/-- A text without the byte order mark that may stand at its front. -/
def dropByteOrderMark : List Char → List Char
  | '\uFEFF' :: rest => rest
  | cs => cs

/-- The tree of a document, or nothing if the text is none. -/
def parse (text : List Char) : Option Entries :=
  let text := dropByteOrderMark text
  (readStatements [] (text.length + 1) text).bind assemble

end CpScan.Toml
