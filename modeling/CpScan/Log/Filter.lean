/-
# Which events are shown

A filter is written as directives with commas between them, each of which names the least
important level that is shown, and may say of which events:

    debug                  of all events
    cpc_lex=debug          of those whose source starts so
    cpc_lex                the same, with all levels
    [{offset}]=debug       of those with a value of this name
    cpc_lex[{offset}]      both

Of the directives that an event falls under the most specific one decides (`Filter.decisive?`): the
one with the longest source, then one that names a value; of two alike the later.  An event that
falls under none is not shown.

A directive may also single out the events of a span of work, `[span]`, or those of a value with a
given content, `[{line=3}]`, which is a number or a pattern.  No event takes place in a span, so
nothing falls under such a directive (`Directive.never`); but it is a directive, and a filter of it
alone shows nothing, where one without any shows errors.

Space in front of a directive is passed over when the directive is divided, and yet counted when the
parts are taken: with one space in front, each part starts and ends one byte early.  Space behind
it belongs to its last part.
-/
import CpScan.Log.Event
import CpScan.Log.Pattern

namespace CpScan

/-! ## 1. Thresholds -/

/-- The least important level shown, or nothing at all. -/
abbrev Threshold := Option Level

namespace Threshold

/-- Whether a level is shown. -/
def shows (t : Threshold) (l : Level) : Bool :=
  match t with
  | none => false
  | some least => least.rank ≤ l.rank

/-- The threshold with this number: from nothing at all to everything. -/
def ofNumber? : Nat → Option Threshold
  | 0 => some none
  | 1 => some (some .error)
  | 2 => some (some .warn)
  | 3 => some (some .info)
  | 4 => some (some .debug)
  | 5 => some (some .trace)
  | _ => none

/-- The number that a text of decimal digits stands for; a plus sign may stand before it. -/
def number? (cs : List Char) : Option Nat :=
  let digits := match cs with
    | '+' :: more => more
    | _ => cs
  if !digits.isEmpty && digits.all Char.isDigit then
    some (digits.foldl (fun n c => 10 * n + (c.toNat - '0'.toNat)) 0)
  else none

/-- The threshold with this name, in any case of letters, or number. -/
def ofName? (name : String) : Option Threshold :=
  match number? name.toList with
  | some n => ofNumber? n
  | none =>
    match String.ofList (name.toList.map Char.toLower) with
    | "trace" => some (some .trace)
    | "debug" => some (some .debug)
    | "info" => some (some .info)
    | "warn" => some (some .warn)
    | "error" => some (some .error)
    | "off" => some none
    | _ => none

end Threshold

/-! ## 2. Directives -/

/-- A threshold, and the events it is for. -/
structure Directive where
  threshold : Threshold := some .trace
  /-- What the source of an event starts with. -/
  source : String := ""
  /-- The name of a value that an event has. -/
  field : Option String := none
  /-- Whether no event falls under it. -/
  never : Bool := false
deriving DecidableEq, Repr

namespace Directive

/-- Whether an event falls under a directive. -/
def covers (d : Directive) (e : Event) : Bool :=
  !d.never && e.source.startsWith d.source &&
    match d.field with
    | none => true
    | some name => e.fieldNames.contains name

/-- Whether the second of two directives is as specific as the first, or more. -/
def yieldsTo (d d' : Directive) : Bool :=
  d.source.utf8ByteSize < d'.source.utf8ByteSize ||
    (d.source.utf8ByteSize == d'.source.utf8ByteSize &&
      match d.field, d'.field with
      | none, _ => true
      | some _, none => false
      | some name, some name' => !(name' < name))

end Directive

/-! ## 3. Reading a directive

A directive is divided at places counted in bytes from its first character that is no space, and its
parts are taken at these places from the text as it stands. -/

namespace Directive

/-- The characters that a source can start with. -/
def opensSource (c : Char) : Bool :=
  Text.isAlphanumeric c || c = '-' || c = ':' || c = '_'

/-- A text without its first `n` bytes. -/
def dropBytes : (n : Nat) → List Char → List Char
  | _, [] => []
  | n, c :: cs => if n = 0 then c :: cs else dropBytes (n - c.utf8Size) cs

/-- The first `n` bytes of a text. -/
def takeBytes : (n : Nat) → List Char → List Char
  | _, [] => []
  | n, c :: cs => if n = 0 then [] else c :: takeBytes (n - c.utf8Size) cs

/-- The part of a text from one place to another. -/
def part (text : List Char) (start stop : Nat) : String :=
  String.ofList (takeBytes (stop - start) (dropBytes start text))

/-- The part of a text from a place to its end. -/
def partFrom (text : List Char) (start : Nat) : String := String.ofList (dropBytes start text)

/-- A directive with the threshold that its last part names; nothing stands for everything. -/
def withThreshold (d : Directive) (name : String) : Option Directive :=
  if name.isEmpty then some { d with threshold := some .trace }
  else (Threshold.ofName? name).map fun t => { d with threshold := t }

/-- The end of a directive, at a place: an equals sign and a threshold, or nothing. -/
def readEnd (text : List Char) (d : Directive) (place : Nat) : List Char → Option Directive
  | [] => some d
  | '=' :: _ => d.withThreshold (partFrom text (place + 1))
  | _ => none

/-- A directive for events with a value of this name; between an equals sign and the next one, if
any, with this content. -/
def withField (d : Directive) (field : List Char) : Option Directive :=
  let name := field.takeWhile (· != '=')
  let d := { d with field := some (String.ofList name) }
  match field.drop name.length with
  | [] => some d
  | _ :: content =>
    if Pattern.isContent (content.takeWhile (· != '=')) then some { d with never := true } else none

/-- What stands in brackets, at a place: the name of a span, and in braces the name of a value. -/
def readBrackets (text : List Char) (d : Directive) (place : Nat) (cs : List Char) :
    Option Directive :=
  let span := cs.takeWhile fun c => c != ']' && c != '\x7b'
  let behind := place + byteLength span
  match cs.drop span.length with
  | ']' :: more => readEnd text { d with never := true } (behind + 1) more
  | '\x7b' :: more =>
    let field := more.takeWhile (· != '\x7d')
    let stop := behind + 1 + byteLength field
    match more.drop field.length with
    | '\x7d' :: ']' :: more =>
      if field.isEmpty then none
      else
        let d := { d with never := !span.isEmpty }
        match d.withField (part text (behind + 1) stop).toList with
        | some d => readEnd text d (stop + 2) more
        | none => none
    | _ => none
  | _ => none

/-- Read a directive. -/
def read? (text : List Char) : Option Directive :=
  match Text.trimSpace text with
  | [] => none
  | '[' :: more => readBrackets text {} 1 more
  | c :: more =>
    if opensSource c then
      let source := c :: more.takeWhile fun c => c != '=' && c != '['
      let place := byteLength source
      let d : Directive := { source := part text 0 place }
      match (c :: more).drop source.length with
      | '[' :: more => readBrackets text d (place + 1) more
      | [] =>
        let whole := String.ofList text
        match Threshold.ofName? whole with
        | some t => some { threshold := t }
        | none => some { source := whole }
      | behind => readEnd text d place behind
    else none

end Directive

/-! ## 4. Filters -/

/-- Directives, in the order they are given. -/
structure Filter where
  directives : List Directive
deriving DecidableEq, Repr

namespace Filter

/-- The filter that shows nothing. -/
def nothing : Filter := ⟨[]⟩

/-- The filter that shows all events from a level on. -/
def atLeast (l : Level) : Filter := ⟨[{ threshold := some l }]⟩

/-- The directive that decides about an event. -/
def decisive? (f : Filter) (e : Event) : Option Directive :=
  (f.directives.filter (·.covers e)).foldl
    (fun best d =>
      match best with
      | none => some d
      | some b => if b.yieldsTo d then some d else some b)
    none

/-- Whether an event is shown. -/
def shows (f : Filter) (e : Event) : Bool :=
  match f.decisive? e with
  | none => false
  | some d => d.threshold.shows e.level

/-- Read a filter.  Without any directive it shows errors. -/
def read? (text : String) : Option Filter :=
  match (text.splitOn ",").filter (!·.isEmpty) with
  | [] => some (atLeast .error)
  | pieces => (pieces.mapM fun piece => Directive.read? piece.toList).map Filter.mk

/-- The filter in force: the one that is chosen if it can be read, and otherwise warnings, or more
when `verbose`. -/
def choose (chosen : Option String) (verbose : Bool) : Filter :=
  (chosen.bind read?).getD (atLeast (if verbose then .debug else .warn))

/-- A filter of one threshold shows the levels from there on, of all events. -/
theorem shows_atLeast (l : Level) (e : Event) :
    (atLeast l).shows e = Threshold.shows (some l) e.level := by
  have h : Directive.covers { threshold := some l } e = true := by
    simp [Directive.covers]
  simp [shows, decisive?, atLeast, h]

end Filter

end CpScan
