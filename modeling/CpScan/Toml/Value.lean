/-
# The tree of a TOML document

A TOML document is a tree of tables, arrays and scalars.  Beside its contents, a table remembers
how it came to be (`TableKind`), and so does an array (`ArrayKind`): this decides which later lines
of the document may still add to it, and nothing else.  Floats and dates keep the text they are
written with.
-/

namespace CpScan.Toml

/-- How a table came to be. -/
inductive TableKind where
  /-- By a header of its own. -/
  | headed
  /-- Only on the way to a table with a header. -/
  | implied
  /-- On the way to a value with a dotted key. -/
  | dotted
  /-- Written in braces. -/
  | inline
deriving DecidableEq, Repr

/-- How an array came to be. -/
inductive ArrayKind where
  /-- Written in brackets. -/
  | listed
  /-- Gathered from headers in double brackets. -/
  | headed
deriving DecidableEq, Repr

/-- A value of a TOML document. -/
inductive Value where
  | string (text : String)
  | integer (value : Int)
  | float (written : String)
  | boolean (value : Bool)
  | moment (written : String)
  | array (kind : ArrayKind) (items : List Value)
  | table (kind : TableKind) (entries : List (String × Value))
deriving Repr

/-- The contents of a table: its keys and their values, in order of appearance. -/
abbrev Entries := List (String × Value)

namespace Entries

/-- The value of a key. -/
def get? (es : Entries) (key : String) : Option Value := es.lookup key

/-- Put a new key at the end. -/
def add (es : Entries) (key : String) (value : Value) : Entries := es ++ [(key, value)]

/-- Give a key that is there another value. -/
def replace (es : Entries) (key : String) (value : Value) : Entries :=
  es.map fun e => if e.1 == key then (key, value) else e

end Entries

end CpScan.Toml
