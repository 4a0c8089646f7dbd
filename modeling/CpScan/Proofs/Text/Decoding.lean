/-
# Decoding in parts

The decoder keeps what it has written: behind other characters it writes the same
(`Decoder.step_behind`, `Decoder.finish_behind`).  An ASCII byte leaves it holding nothing, so bytes
may be parted at any ASCII byte and each part decoded by itself (`decode_append_ascii`), well formed
or not.
-/
import CpScan.Text.Utf8

namespace CpScan.Utf8

namespace Decoder

/-- The decoder with `base`, the last character first, written before all it has written. -/
def behind (base : List Char) (d : Decoder) : Decoder := ⟨d.written ++ base, d.held⟩

theorem lead_behind (base written : List Char) (b : Nat) :
    lead (written ++ base) b = (lead written b).behind base := by
  unfold lead
  split
  · rfl
  · split <;> rfl

theorem step_behind (base : List Char) (d : Decoder) (byte : UInt8) :
    (d.behind base).step byte = (d.step byte).behind base := by
  obtain ⟨written, held⟩ := d
  cases held with
  | none => exact lead_behind base written byte.toNat
  | some p =>
    simp only [step, behind]
    split
    · split <;> rfl
    · exact lead_behind base (replacement :: written) byte.toNat

theorem foldl_step_behind (base : List Char) (d : Decoder) (bytes : List UInt8) :
    bytes.foldl step (d.behind base) = (bytes.foldl step d).behind base := by
  induction bytes generalizing d with
  | nil => rfl
  | cons b bytes ih => rw [List.foldl_cons, List.foldl_cons, step_behind, ih]

theorem finish_behind (base : List Char) (d : Decoder) :
    (d.behind base).finish = base.reverse ++ d.finish := by
  obtain ⟨written, held⟩ := d
  cases held with
  | none => simp [behind, finish]
  | some p => simp [behind, finish]

end Decoder

/-- **Bytes are decoded in parts at an ASCII byte.** -/
theorem decode_append_ascii (x : List UInt8) {b : UInt8} (h : b.toNat < 0x80) (y : List UInt8) :
    decode (x ++ b :: y) = decode x ++ Char.ofNat b.toNat :: decode y := by
  let d := x.foldl Decoder.step Decoder.start
  -- behind the byte the decoder is a fresh one with all of the first part written before it
  have hfresh : d.step b = Decoder.start.behind (Char.ofNat b.toNat :: d.flushed) := d.step_ascii h
  unfold decode
  rw [List.foldl_append, List.foldl_cons]
  change (y.foldl Decoder.step (d.step b)).finish = d.finish ++ _
  rw [hfresh, Decoder.foldl_step_behind, Decoder.finish_behind, Decoder.finish_eq d]
  simp

end CpScan.Utf8
