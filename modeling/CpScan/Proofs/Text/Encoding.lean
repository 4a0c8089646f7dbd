/-
# The bytes of characters

An ASCII character is its own byte.  Any other is a first byte, which says how many bytes follow,
and in each of these six bits of its code point (`utf8EncodeChar_cases`); none of its bytes is an
ASCII byte (`ge_of_mem_utf8EncodeChar`).

The bytes of a character are never the front of those of another, so what character bytes begin
with is settled without a look at what follows it (`utf8EncodeChar_append_inj`).
-/
import CpScan.Source.Position
import Mathlib.Data.String.Basic

namespace CpScan

/-! ## 1. Characters of several bytes -/

/-- A number below 256 is the value of one byte. -/
theorem byte_ofNat_eq_iff {n : Nat} (hn : n < 256) (b : UInt8) : UInt8.ofNat n = b ↔ n = b.toNat := by
  rw [← UInt8.toNat_inj, UInt8.toNat_ofNat', Nat.mod_eq_of_lt hn]

/-- The last `n` bytes of the code point `v`: six of its bits in each. -/
def continuation (v : Nat) : Nat → List UInt8
  | 0 => []
  | n + 1 => UInt8.ofNat (v / 0x40 ^ n % 0x40 + 0x80) :: continuation v n

theorem continuation_succ (v n : Nat) :
    continuation v (n + 1) = UInt8.ofNat (v / 0x40 ^ n % 0x40 + 0x80) :: continuation v n := rfl

theorem ge_of_mem_continuation {v n : Nat} {b : UInt8} (hb : b ∈ continuation v n) :
    0x80 ≤ b.toNat := by
  induction n with
  | zero => cases hb
  | succ n ih =>
    rw [continuation_succ, List.mem_cons, eq_comm, byte_ofNat_eq_iff (by omega)] at hb
    rcases hb with hnat | hrest
    · omega
    · exact ih hrest

/-- A character beyond ASCII has one, two or three bytes behind the first. -/
theorem utf8EncodeChar_cases {c : Char} (hc : 0x80 ≤ c.toNat) :
    (c.toNat < 0x800 ∧
      String.utf8EncodeChar c = UInt8.ofNat (c.toNat / 0x40 + 0xC0) :: continuation c.toNat 1) ∨
    (0x800 ≤ c.toNat ∧ c.toNat < 0x10000 ∧
      String.utf8EncodeChar c = UInt8.ofNat (c.toNat / 0x1000 + 0xE0) :: continuation c.toNat 2) ∨
    (0x10000 ≤ c.toNat ∧
      String.utf8EncodeChar c =
        UInt8.ofNat (c.toNat / 0x40000 + 0xF0) :: continuation c.toNat 3) := by
  have hvalid : c.toNat.isValidChar := c.valid
  have hval : c.val.toNat = c.toNat := rfl
  simp only [String.utf8EncodeChar, hval, continuation, Nat.reducePow, Nat.div_one]
  split
  · omega
  split
  · have hlead : c.toNat / 0x40 % 0x20 = c.toNat / 0x40 := Nat.mod_eq_of_lt (by omega)
    rw [hlead]
    exact .inl ⟨by omega, rfl⟩
  split
  · have hlead : c.toNat / 0x1000 % 0x10 = c.toNat / 0x1000 := Nat.mod_eq_of_lt (by omega)
    rw [hlead]
    exact .inr (.inl ⟨by omega, by omega, rfl⟩)
  · have hlead : c.toNat / 0x40000 % 0x8 = c.toNat / 0x40000 := Nat.mod_eq_of_lt (by omega)
    rw [hlead]
    exact .inr (.inr ⟨by omega, rfl⟩)

/-! ## 2. ASCII and beyond -/

/-- An ASCII character is its own byte. -/
theorem utf8EncodeChar_ascii {c : Char} (hc : c.toNat < 0x80) :
    String.utf8EncodeChar c = [UInt8.ofNat c.toNat] := by
  have hle : c.val.toNat ≤ 0x7F := Nat.le_of_lt_succ hc
  simp only [String.utf8EncodeChar, hle, if_true]
  rfl

theorem utf8EncodeChar_ofNat {b : UInt8} (hb : b.toNat < 0x80) :
    String.utf8EncodeChar (Char.ofNat b.toNat) = [b] := by
  have hnat : (Char.ofNat b.toNat).toNat = b.toNat := by
    rw [Char.ofNat, dif_pos (.inl (by omega))]
    rfl
  rw [utf8EncodeChar_ascii (by omega), hnat, UInt8.ofNat_toNat]

/-- The bytes of a character beyond ASCII are beyond ASCII. -/
theorem ge_of_mem_utf8EncodeChar {c : Char} (hc : 0x80 ≤ c.toNat) {b : UInt8}
    (hb : b ∈ String.utf8EncodeChar c) : 0x80 ≤ b.toNat := by
  have hvalid : c.toNat.isValidChar := c.valid
  have hcons {lead n : Nat} (hlow : 0x80 ≤ lead) (hhigh : lead < 256)
      (henc : String.utf8EncodeChar c = UInt8.ofNat lead :: continuation c.toNat n) :
      0x80 ≤ b.toNat := by
    rw [henc, List.mem_cons, eq_comm, byte_ofNat_eq_iff hhigh] at hb
    rcases hb with hnat | hrest
    · omega
    · exact ge_of_mem_continuation hrest
  rcases utf8EncodeChar_cases hc with ⟨hhigh, henc⟩ | ⟨-, hhigh, henc⟩ | ⟨-, henc⟩
  · exact hcons (by omega) (by omega) henc
  · exact hcons (by omega) (by omega) henc
  · exact hcons (by omega) (by omega) henc

/-- A byte beyond ASCII opens a character beyond ASCII. -/
theorem ge_of_utf8EncodeChar_eq_cons {c : Char} {b : UInt8} {rest : List UInt8}
    (h : String.utf8EncodeChar c = b :: rest) (hb : 0x80 ≤ b.toNat) : 0x80 ≤ c.toNat := by
  by_contra hlt
  rw [utf8EncodeChar_ascii (by omega)] at h
  have hbyte := (byte_ofNat_eq_iff (by omega) b).mp (List.cons.inj h).1
  omega

/-- Only the line feed has the byte of the line feed. -/
theorem eq_lineFeed_of_mem_utf8EncodeChar {c : Char} (h : 0x0A ∈ String.utf8EncodeChar c) :
    c = '\n' := by
  rcases Nat.lt_or_ge c.toNat 0x80 with hc | hc
  · rw [utf8EncodeChar_ascii hc, List.mem_singleton, eq_comm, byte_ofNat_eq_iff (by omega)] at h
    exact Char.toNat_inj.mp h
  · exact absurd (ge_of_mem_utf8EncodeChar hc h) (by decide)

/-- A character has the byte as often as it is the line feed. -/
theorem count_lineFeed_append (c : Char) {rest : List UInt8} {text : List Char}
    (h : rest.count 0x0A = lineFeeds text) :
    (String.utf8EncodeChar c ++ rest).count 0x0A = lineFeeds (c :: text) := by
  rw [List.count_append, h, lineFeeds, lineFeeds, List.count_cons, Nat.add_comm]
  congr 1
  by_cases hc : c = '\n'
  · subst hc
    decide
  · rw [if_neg (by simpa using hc), List.count_eq_zero]
    exact fun hmem => hc (eq_lineFeed_of_mem_utf8EncodeChar hmem)

/-! ## 3. Texts -/

/-- The bytes of a string are those of its characters. -/
theorem toUTF8_ofList (text : List Char) :
    (String.ofList text).toUTF8.data.toList = text.flatMap String.utf8EncodeChar := by
  rw [String.toUTF8_eq_toByteArray, String.toByteArray_ofList]
  exact List.toList_data_toByteArray

/-- Bytes begin with one character at most. -/
theorem utf8EncodeChar_append_inj {c c' : Char} {rest rest' : List UInt8}
    (h : String.utf8EncodeChar c ++ rest = String.utf8EncodeChar c' ++ rest') : c = c' := by
  have hread (c : Char) (rest : List UInt8) :
      (String.utf8EncodeChar c ++ rest).toByteArray.utf8DecodeChar? 0 = some c := by
    rw [List.toByteArray_append]
    exact ByteArray.utf8DecodeChar?_utf8EncodeChar_append
  have hboth := hread c rest
  rw [h, hread c' rest'] at hboth
  exact (Option.some.inj hboth).symm

end CpScan
