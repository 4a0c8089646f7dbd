/-
# Reading bytes as text

Source files and prompt lines arrive as bytes that need not be UTF-8.  They are read with a
decoder that never fails: a well-formed sequence becomes its character, and every maximal
prefix of an ill-formed one becomes a single U+FFFD, the replacement character.

The decoder takes one byte at a time.  Between characters it holds nothing; inside a
multi-byte sequence it holds a `Partial`: the bits read so far, how many continuation bytes
are still owed, and the range the next of them must lie in.  Only the second byte of a
sequence has a range narrower than `80..BF`, and narrowing it is all that is needed to refuse
overlong forms, surrogates and values past U+10FFFF.  A byte outside the range ends the
sequence: one replacement character is written for what was held, and the byte is looked at
again as the first of something new.

Because an ASCII byte is never a continuation byte, it always leaves the decoder holding
nothing (`Decoder.step_ascii`), whatever came before.
-/

namespace CpScan.Utf8

/-! ## 1. Sequences that have begun -/

/-- A multi-byte sequence of which some bytes have been read. -/
structure Partial where
  /-- The bits of the code point read so far. -/
  bits : Nat
  /-- Continuation bytes owed after the next one. -/
  owed : Nat
  /-- Least value the next byte may have. -/
  low : Nat
  /-- Greatest value the next byte may have. -/
  high : Nat
  /-- No continuation byte is an ASCII byte. -/
  low_ge : 0x80 ≤ low
deriving Repr

/-- What a first byte opens: nothing for a byte that cannot open a multi-byte sequence. -/
def Partial.opened? (b : Nat) : Option Partial :=
  if 0xC2 ≤ b ∧ b ≤ 0xDF then some ⟨b - 0xC0, 0, 0x80, 0xBF, by decide⟩
  else if b = 0xE0 then some ⟨0, 1, 0xA0, 0xBF, by decide⟩
  else if b = 0xED then some ⟨0xD, 1, 0x80, 0x9F, by decide⟩
  else if 0xE1 ≤ b ∧ b ≤ 0xEF then some ⟨b - 0xE0, 1, 0x80, 0xBF, by decide⟩
  else if b = 0xF0 then some ⟨0, 2, 0x90, 0xBF, by decide⟩
  else if 0xF1 ≤ b ∧ b ≤ 0xF3 then some ⟨b - 0xF0, 2, 0x80, 0xBF, by decide⟩
  else if b = 0xF4 then some ⟨4, 2, 0x80, 0x8F, by decide⟩
  else none

/-! ## 2. The decoder -/

/-- What is written for bytes that are not UTF-8. -/
def replacement : Char := '\uFFFD'

/-- The decoder between two bytes: the characters written so far, the last one first, and the
sequence it is inside of. -/
structure Decoder where
  written : List Char
  held : Option Partial
deriving Repr

namespace Decoder

/-- A decoder that has read nothing. -/
def start : Decoder := ⟨[], none⟩

/-- Read a byte as the first of a character, after the characters `written`. -/
def lead (written : List Char) (b : Nat) : Decoder :=
  if b < 0x80 then ⟨Char.ofNat b :: written, none⟩
  else match Partial.opened? b with
    | some p => ⟨written, some p⟩
    | none => ⟨replacement :: written, none⟩

/-- Read one byte. -/
def step (d : Decoder) (byte : UInt8) : Decoder :=
  let b := byte.toNat
  match d.held with
  | none => lead d.written b
  | some p =>
    if p.low ≤ b ∧ b ≤ p.high then
      let bits := p.bits * 0x40 + (b - 0x80)
      match p.owed with
      | 0 => ⟨Char.ofNat bits :: d.written, none⟩
      | n + 1 => ⟨d.written, some ⟨bits, n, 0x80, 0xBF, by decide⟩⟩
    else lead (replacement :: d.written) b

/-- The text read, once no byte follows: a sequence left open is replaced like any other. -/
def finish (d : Decoder) : List Char :=
  match d.held with
  | none => d.written.reverse
  | some _ => (replacement :: d.written).reverse

end Decoder

/-- The text of a byte sequence: UTF-8 where it is well formed, and one U+FFFD for each maximal
prefix of an ill-formed sequence. -/
def decode (bytes : List UInt8) : List Char := (bytes.foldl Decoder.step Decoder.start).finish

/-! ## 3. Small facts -/

@[simp] theorem decode_nil : decode [] = [] := rfl

namespace Decoder

/-- The characters written, with what is held replaced: what `finish` gives, the last first. -/
def flushed (d : Decoder) : List Char :=
  match d.held with
  | none => d.written
  | some _ => replacement :: d.written

theorem finish_eq (d : Decoder) : d.finish = d.flushed.reverse := by
  unfold finish flushed
  split <;> rfl

/-- An ASCII byte closes everything.  It is written as itself behind what the decoder holds,
and nothing stays held. -/
theorem step_ascii (d : Decoder) {b : UInt8} (h : b.toNat < 0x80) :
    d.step b = ⟨Char.ofNat b.toNat :: d.flushed, none⟩ := by
  unfold step flushed
  split
  · simp [lead, h]
  · next p _ =>
    have hp := p.low_ge
    have : ¬ (p.low ≤ b.toNat ∧ b.toNat ≤ p.high) := by omega
    simp [this, lead, h]

end Decoder

end CpScan.Utf8
