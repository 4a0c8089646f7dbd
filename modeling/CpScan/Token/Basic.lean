/-
# Tokens

A token is one lexeme of a source text: its kind, its exact text, the value it stands for if
its kind has one, and where it is.  Strings stand for the text between their quotes, with no
escapes; integers for a 64-bit signed number; floats for a binary64 number.

`Token.render` is the line of a token dump, `KIND lexeme literal`, with `null` in place of a
missing value.
-/
import CpScan.Decimal.Layout
import CpScan.Source.Position
import CpScan.Token.Kind

namespace CpScan

/-! ## 1. Literals -/

/-- The value that a string, integer or float token stands for. -/
inductive Literal where
  /-- The text between the quotes. -/
  | str (text : String)
  /-- The value of a run of digits. -/
  | int (value : Int)
  /-- The value of a decimal fraction. -/
  | float (value : Double)
deriving DecidableEq, Repr, Inhabited

namespace Literal

/-- Text as it is, integers in decimal, floats with the fewest digits that read back. -/
def render : Literal → String
  | str text => text
  | int value => toString value
  | float value => value.render

/-- Equality of values; floats are compared as numbers, so a NaN differs from itself. -/
def same : Literal → Literal → Bool
  | str a, str b => a == b
  | int a, int b => a == b
  | float a, float b => a.same b
  | _, _ => false

end Literal

/-! ## 2. Tokens -/

/-- One lexeme of a source text. -/
structure Token where
  kind : Kind
  /-- The exact source text. -/
  lexeme : String
  /-- The value, for the kinds that have one. -/
  literal : Option Literal
  /-- Where the lexeme is; the line is the one it starts on. -/
  span : Span
deriving DecidableEq, Repr, Inhabited

namespace Token

/-- A token as `KIND lexeme literal`. -/
def render (t : Token) : String :=
  let value := match t.literal with
    | some l => l.render
    | none => "null"
  t.kind.name ++ " " ++ t.lexeme ++ " " ++ value

/-- A token as `KIND lexeme literal @start..stop`. -/
def renderWithSpan (t : Token) : String := t.render ++ " @" ++ t.span.render

/-- Equality in every field, with floats compared as numbers. -/
def same (a b : Token) : Bool :=
  let values := match a.literal, b.literal with
    | some x, some y => x.same y
    | none, none => true
    | _, _ => false
  a.kind == b.kind && a.lexeme == b.lexeme && values && a.span == b.span

end Token

end CpScan
