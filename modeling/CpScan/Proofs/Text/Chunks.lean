/-
# What bytes are decoded as

The bytes of a file, and of each line of interactive input, need not be UTF-8.  They are read in
chunks (`Reads`): a character that the bytes begin with is kept, and where they begin with none, a
front of them is replaced by one U+FFFD.  What is replaced is the longest front that some character
begins with, or a single byte if no character begins with it (`Replaceable`).  Nothing in this
speaks of a decoder.  It settles the chunks of any bytes (`Reads.unique`), and the decoder writes
their characters (`Reads.decode_eq`).

The decoder works with ranges of bytes, and the argument is what these ranges mean.  A sequence that
is held covers code points (`Partial.Covers`), all of which are characters, and the bytes held go on
to the bytes of a character exactly if its code point is covered (`Partial.Stands`).  Hence a byte
out of range shows that no character goes on so, and a byte in range that some character does.

A front of the chunks is read from its own bytes alone (`Reads.take`).  So every place in the decoded
text is where the decoding of a front of the bytes ends, and has as many line feeds before it as
there are in these bytes.
-/
import CpScan.Proofs.Text.Decoding
import CpScan.Proofs.Text.Encoding

namespace CpScan.Utf8

/-! ## 1. Chunks -/

/-- A stretch of bytes, and the character it is read as. -/
structure Chunk where
  bytes : List UInt8
  char : Char
deriving Repr

/-- Some character begins with the bytes. -/
def Begun (part : List UInt8) : Prop := ∃ c : Char, part <+: String.utf8EncodeChar c

/-- The bytes are ill-formed from the first on, and `part` is the maximal prefix of them that is
replaced as one. -/
structure Replaceable (part bytes : List UInt8) : Prop where
  front : part <+: bytes
  nonempty : part ≠ []
  illFormed : ∀ c : Char, ¬ String.utf8EncodeChar c <+: bytes
  begun : part.length = 1 ∨ Begun part
  longest : ∀ q, q <+: bytes → q.length = 1 ∨ Begun q → q.length ≤ part.length

/-- The chunks that bytes are read in. -/
inductive Reads : List UInt8 → List Chunk → Prop
  | nil : Reads [] []
  | kept (c : Char) {rest : List UInt8} {chunks : List Chunk} (h : Reads rest chunks) :
      Reads (String.utf8EncodeChar c ++ rest) (⟨String.utf8EncodeChar c, c⟩ :: chunks)
  | replaced {part rest : List UInt8} {chunks : List Chunk}
      (hpart : Replaceable part (part ++ rest)) (h : Reads rest chunks) :
      Reads (part ++ rest) (⟨part, replacement⟩ :: chunks)

/-! ## 2. What is replaced -/

/-- A front of two parts is a front of the first, or has all of it and a byte of the second. -/
theorem front_append_cases {q part rest : List UInt8} (h : q <+: part ++ rest) :
    q <+: part ∨ ∃ b ∈ rest.head?, part ++ [b] <+: q := by
  rcases List.prefix_or_prefix_of_prefix h (List.prefix_append part rest) with hin | ⟨t, rfl⟩
  · exact .inl hin
  · cases t with
    | nil => exact .inl ⟨[], List.append_nil _ |>.trans (List.append_nil part)⟩
    | cons b t =>
      obtain ⟨u, rfl⟩ := (List.prefix_append_right_inj part).mp h
      refine .inr ⟨b, rfl, t, ?_⟩
      rw [List.append_assoc, List.singleton_append]

namespace Replaceable

variable {part rest : List UInt8}

/-- What has begun, has no character in front and goes on to none is replaced. -/
theorem of_stuck (hne : part ≠ []) (hbegun : part.length = 1 ∨ Begun part)
    (hnone : ∀ c : Char, ¬ String.utf8EncodeChar c <+: part)
    (hstop : ∀ b ∈ rest.head?, ¬ Begun (part ++ [b])) : Replaceable part (part ++ rest) where
  front := List.prefix_append part rest
  nonempty := hne
  illFormed c hc := by
    rcases front_append_cases hc with hin | ⟨b, hb, hover⟩
    · exact hnone c hin
    · exact hstop b hb ⟨c, hover⟩
  begun := hbegun
  longest q hq hcase := by
    rcases front_append_cases hq with hin | ⟨b, hb, hover⟩
    · exact hin.length_le
    · rcases hcase with hone | ⟨c, hc⟩
      · rw [hone]
        exact List.length_pos_iff.mpr hne
      · exact absurd ⟨c, hover.trans hc⟩ (hstop b hb)

/-- What is replaced does not depend on how far the bytes go on. -/
theorem of_front {rest' : List UInt8} (h : Replaceable part (part ++ rest))
    (hrest : rest' <+: rest) : Replaceable part (part ++ rest') := by
  have hfront : part ++ rest' <+: part ++ rest := (List.prefix_append_right_inj part).mpr hrest
  exact
    { front := List.prefix_append part rest'
      nonempty := h.nonempty
      illFormed := fun c hc => h.illFormed c (hc.trans hfront)
      begun := h.begun
      longest := fun q hq => h.longest q (hq.trans hfront) }

theorem unique {part' bytes : List UInt8} (h : Replaceable part bytes)
    (h' : Replaceable part' bytes) : part = part' := by
  have hle := h'.longest part h.front h.begun
  have hge := h.longest part' h'.front h'.begun
  exact (List.prefix_of_prefix_length_le h.front h'.front hle).eq_of_length_le hge

/-- No line feed is replaced: it is a character, and no other character has its byte. -/
theorem lineFeed_notMem {bytes : List UInt8} (h : Replaceable part bytes) : 0x0A ∉ part := by
  intro hmem
  have hpart : part = [0x0A] := by
    rcases h.begun with hone | ⟨c, hc⟩
    · obtain ⟨b, rfl⟩ := List.length_eq_one_iff.mp hone
      rw [List.mem_singleton.mp hmem]
    · obtain rfl := eq_lineFeed_of_mem_utf8EncodeChar (hc.subset hmem)
      exact hc.eq_of_length_le (List.length_pos_iff.mpr h.nonempty)
  have hfront := h.front
  rw [hpart] at hfront
  exact h.illFormed '\n' hfront

end Replaceable

namespace Reads

variable {bytes : List UInt8} {chunks : List Chunk}

/-- No byte is lost. -/
theorem bytes_eq (h : Reads bytes chunks) : chunks.flatMap Chunk.bytes = bytes := by
  induction h with
  | nil => rfl
  | kept c _ ih => rw [List.flatMap_cons, ih]
  | replaced _ _ ih => rw [List.flatMap_cons, ih]

/-- **Bytes are read in one way.** -/
theorem unique {chunks' : List Chunk} (h : Reads bytes chunks) (h' : Reads bytes chunks') :
    chunks = chunks' := by
  induction h generalizing chunks' with
  | nil =>
    generalize hbytes : ([] : List UInt8) = bytes at h'
    cases h' with
    | nil => rfl
    | kept c => exact absurd (List.append_eq_nil_iff.mp hbytes.symm).1 String.utf8EncodeChar_ne_nil
    | replaced hpart => exact absurd (List.append_eq_nil_iff.mp hbytes.symm).1 hpart.nonempty
  | @kept c rest chunks _ ih =>
    generalize hbytes : String.utf8EncodeChar c ++ rest = bytes at h'
    cases h' with
    | nil => exact absurd (List.append_eq_nil_iff.mp hbytes).1 String.utf8EncodeChar_ne_nil
    | kept c' hrest =>
      obtain rfl := utf8EncodeChar_append_inj hbytes
      rw [List.append_cancel_left hbytes] at ih
      rw [ih hrest]
    | replaced hpart =>
      rw [← hbytes] at hpart
      exact absurd (List.prefix_append _ rest) (hpart.illFormed c)
  | @replaced part rest chunks hpart _ ih =>
    generalize hbytes : part ++ rest = bytes at h' hpart
    cases h' with
    | nil => exact absurd (List.append_eq_nil_iff.mp hbytes).1 hpart.nonempty
    | kept c => exact absurd (List.prefix_append _ _) (hpart.illFormed c)
    | replaced hpart' hrest =>
      obtain rfl := hpart.unique hpart'
      rw [List.append_cancel_left hbytes] at ih
      rw [ih hrest]

/-- No line feed is lost, and none is made. -/
theorem count_lineFeed (h : Reads bytes chunks) :
    bytes.count 0x0A = lineFeeds (chunks.map Chunk.char) := by
  induction h with
  | nil => rfl
  | kept c _ ih => exact count_lineFeed_append c ih
  | replaced hpart _ ih =>
    rw [List.count_append, List.count_eq_zero.mpr hpart.lineFeed_notMem, Nat.zero_add, ih]
    rfl

/-- A front of the chunks is what their own bytes are read in. -/
theorem take (h : Reads bytes chunks) (i : Nat) :
    Reads ((chunks.take i).flatMap Chunk.bytes) (chunks.take i) := by
  induction h generalizing i with
  | nil =>
    rw [List.take_nil]
    exact .nil
  | kept c _ ih =>
    cases i with
    | zero => exact .nil
    | succ i => exact .kept c (ih i)
  | @replaced part rest chunks hpart hrest ih =>
    cases i with
    | zero => exact .nil
    | succ i =>
      have hfront : (chunks.take i).flatMap Chunk.bytes <+: rest := by
        refine ⟨(chunks.drop i).flatMap Chunk.bytes, ?_⟩
        rw [← List.flatMap_append, List.take_append_drop, hrest.bytes_eq]
      exact .replaced (hpart.of_front hfront) (ih i)

/-- The bytes of a text are read character by character. -/
theorem encoded (text : List Char) :
    Reads (text.flatMap String.utf8EncodeChar)
      (text.map fun c => ⟨String.utf8EncodeChar c, c⟩) := by
  induction text with
  | nil => exact .nil
  | cons c text ih => exact .kept c ih

end Reads

/-! ## 3. What a sequence can stand for -/

namespace Partial

/-- The code points that the sequence can stand for: they have the bits that were read, and the next
six are in the range of the next byte. -/
def Covers (p : Partial) (v : Nat) : Prop :=
  v / 0x40 ^ (p.owed + 1) = p.bits ∧
    p.low ≤ v / 0x40 ^ p.owed % 0x40 + 0x80 ∧ v / 0x40 ^ p.owed % 0x40 + 0x80 ≤ p.high

/-- The first byte of a character beyond ASCII opens a sequence that covers it. -/
theorem opened_of_encode {c : Char} (hc : 0x80 ≤ c.toNat) {b : UInt8} {rest : List UInt8}
    (h : String.utf8EncodeChar c = b :: rest) :
    ∃ p, opened? b.toNat = some p ∧ p.Covers c.toNat ∧
      rest = continuation c.toNat (p.owed + 1) := by
  have hvalid : c.toNat.isValidChar := c.valid
  rcases utf8EncodeChar_cases hc with ⟨hhigh, henc⟩ | ⟨hlow, hhigh, henc⟩ | ⟨hlow, henc⟩
  all_goals
    obtain ⟨hb, rfl⟩ := List.cons.inj (h.symm.trans henc)
    rw [eq_comm, byte_ofNat_eq_iff (by omega)] at hb
    rw [← hb, opened?]
  · rw [if_pos (by omega)]
    exact ⟨_, rfl, by simp only [Covers]; omega, rfl⟩
  · rw [if_neg (by omega)]
    split
    · exact ⟨_, rfl, by simp only [Covers]; omega, rfl⟩
    split
    · exact ⟨_, rfl, by simp only [Covers]; omega, rfl⟩
    rw [if_pos (by omega)]
    exact ⟨_, rfl, by simp only [Covers]; omega, rfl⟩
  · rw [if_neg (by omega), if_neg (by omega), if_neg (by omega), if_neg (by omega)]
    split
    · exact ⟨_, rfl, by simp only [Covers]; omega, rfl⟩
    split
    · exact ⟨_, rfl, by simp only [Covers]; omega, rfl⟩
    rw [if_pos (by omega)]
    exact ⟨_, rfl, by simp only [Covers]; omega, rfl⟩

theorem range_of_opened {b : Nat} {p : Partial} (h : opened? b = some p) :
    0x80 ≤ b ∧ p.low ≤ p.high ∧ p.high ≤ 0xBF := by
  unfold opened? at h
  repeat' split at h
  all_goals simp only [Option.some.injEq, reduceCtorEq] at h
  all_goals
    subst h
    simp only
    omega

/-- What is covered by a sequence just opened is a character, and as long as the sequence.  This is
what the ranges of the second byte are for. -/
theorem covers_of_opened {b : Nat} {p : Partial} (h : opened? b = some p) {v : Nat}
    (hv : p.Covers v) :
    v.isValidChar ∧
      ((p.owed = 0 ∧ v / 0x40 + 0xC0 = b ∧ 0x80 ≤ v ∧ v < 0x800) ∨
        (p.owed = 1 ∧ v / 0x1000 + 0xE0 = b ∧ 0x800 ≤ v ∧ v < 0x10000) ∨
        (p.owed = 2 ∧ v / 0x40000 + 0xF0 = b ∧ 0x10000 ≤ v)) := by
  unfold opened? at h
  repeat' split at h
  all_goals simp only [Option.some.injEq, reduceCtorEq] at h
  all_goals
    subst h
    simp only [Covers, Nat.isValidChar, Nat.reduceAdd, Nat.reducePow, Nat.div_one, true_and]
      at hv ⊢
    omega

/-- A character that is covered by a sequence just opened begins with its byte. -/
theorem encode_of_opened {b : UInt8} {p : Partial} (h : opened? b.toNat = some p) {c : Char}
    (hc : p.Covers c.toNat) :
    String.utf8EncodeChar c = b :: continuation c.toNat (p.owed + 1) := by
  obtain ⟨-, hopened⟩ := covers_of_opened h hc
  have hbyte {n : Nat} (hn : n = b.toNat) : UInt8.ofNat n = b := by rw [hn, UInt8.ofNat_toNat]
  have hwide : 0x80 ≤ c.toNat := by omega
  rcases hopened with ⟨howed, hb, hlow, hhigh⟩ | ⟨howed, hb, hlow, hhigh⟩ | ⟨howed, hb, hlow⟩
  · rcases utf8EncodeChar_cases hwide with ⟨-, henc⟩ | ⟨hlow', -⟩ | ⟨hlow', -⟩
    · rw [henc, hbyte hb, howed]
    · omega
    · omega
  · rcases utf8EncodeChar_cases hwide with ⟨hhigh', -⟩ | ⟨-, -, henc⟩ | ⟨hlow', -⟩
    · omega
    · rw [henc, hbyte hb, howed]
    · omega
  · rcases utf8EncodeChar_cases hwide with ⟨hhigh', -⟩ | ⟨-, hhigh', -⟩ | ⟨-, henc⟩
    · omega
    · omega
    · rw [henc, hbyte hb, howed]

/-! ## 4. What is held -/

/-- The sequence is what the bytes `q` have begun: they go on to the characters that it covers. -/
structure Stands (p : Partial) (q : List UInt8) : Prop where
  nonempty : q ≠ []
  encode_iff : ∀ (c : Char) (rest : List UInt8), q ++ rest = String.utf8EncodeChar c ↔
    p.Covers c.toNat ∧ rest = continuation c.toNat (p.owed + 1)
  isValidChar : ∀ v, p.Covers v → v.isValidChar
  low_le_high : p.low ≤ p.high
  high_le : p.high ≤ 0xBF

theorem stands_of_opened {b : UInt8} {p : Partial} (h : opened? b.toNat = some p) :
    p.Stands [b] where
  nonempty := List.cons_ne_nil _ _
  encode_iff c rest := by
    obtain ⟨hb, -⟩ := range_of_opened h
    constructor
    · intro henc
      have hc : 0x80 ≤ c.toNat := ge_of_utf8EncodeChar_eq_cons henc.symm hb
      obtain ⟨p', hp', hcovers, hrest⟩ := opened_of_encode hc henc.symm
      rw [h] at hp'
      obtain rfl := Option.some.inj hp'
      exact ⟨hcovers, hrest⟩
    · rintro ⟨hcovers, rfl⟩
      exact (encode_of_opened h hcovers).symm
  isValidChar _ hv := (covers_of_opened h hv).1
  low_le_high := (range_of_opened h).2.1
  high_le := (range_of_opened h).2.2

/-- The byte `b` is in range and more are owed behind it: `p'` is the sequence then. -/
structure GoesOn (p : Partial) (b : UInt8) (p' : Partial) : Prop where
  owed : p.owed = p'.owed + 1
  bits : p'.bits = p.bits * 0x40 + (b.toNat - 0x80)
  low : p'.low = 0x80
  high : p'.high = 0xBF
  inRange : p.low ≤ b.toNat ∧ b.toNat ≤ p.high

variable {p p' : Partial} {q : List UInt8} {b : UInt8}

/-- Of the code points covered, a byte leaves those that have it. -/
theorem GoesOn.covers_iff (h : p.GoesOn b p') (hle : p.high ≤ 0xBF) (v : Nat) :
    p'.Covers v ↔ p.Covers v ∧ UInt8.ofNat (v / 0x40 ^ p.owed % 0x40 + 0x80) = b := by
  obtain ⟨howed, hbits, hlow, hhigh, hrange⟩ := h
  have hge := p.low_ge
  have hdiv : v / 0x40 ^ (p.owed + 1) = v / 0x40 ^ p.owed / 0x40 := by
    rw [Nat.pow_succ, Nat.div_div_eq_div_mul]
  rw [byte_ofNat_eq_iff (by omega), Covers, Covers, hbits, hlow, hhigh, ← howed, hdiv]
  omega

/-- What goes on is held with the byte. -/
theorem Stands.goesOn (h : p.Stands q) (hgo : p.GoesOn b p') : p'.Stands (q ++ [b]) where
  nonempty := List.append_ne_nil_of_right_ne_nil _ (List.cons_ne_nil _ _)
  encode_iff c rest := by
    rw [List.append_assoc, List.singleton_append, h.encode_iff, hgo.covers_iff h.high_le,
      continuation_succ, List.cons.injEq, ← hgo.owed, and_assoc, eq_comm (a := b)]
  isValidChar v hv := h.isValidChar v ((hgo.covers_iff h.high_le v).mp hv).1
  low_le_high := by
    rw [hgo.low, hgo.high]
    decide
  high_le := Nat.le_of_eq hgo.high

theorem Stands.toNat_ofNat (h : p.Stands q) {v : Nat} (hv : p.Covers v) :
    (Char.ofNat v).toNat = v := by
  rw [Char.ofNat, dif_pos (h.isValidChar v hv)]
  rfl

/-- A byte in range, with no more owed: a character is complete. -/
theorem Stands.encode_last (h : p.Stands q) (howed : p.owed = 0)
    (hrange : p.low ≤ b.toNat ∧ b.toNat ≤ p.high) :
    String.utf8EncodeChar (Char.ofNat (p.bits * 0x40 + (b.toNat - 0x80))) = q ++ [b] := by
  let v := p.bits * 0x40 + (b.toNat - 0x80)
  have hge := p.low_ge
  have hle := h.high_le
  have hcovers : p.Covers v := by
    rw [Covers, howed]
    omega
  have hnat : (Char.ofNat v).toNat = v := h.toNat_ofNat hcovers
  have hbyte : UInt8.ofNat (v / 0x40 ^ 0 % 0x40 + 0x80) = b :=
    (byte_ofNat_eq_iff (by omega) b).mpr (by omega)
  refine ((h.encode_iff _ _).mpr ?_).symm
  rw [hnat, howed, continuation_succ, hbyte]
  exact ⟨hcovers, rfl⟩

/-- What is held goes on to some character. -/
theorem Stands.exists_encode (h : p.Stands q) :
    ∃ (c : Char) (rest : List UInt8), rest ≠ [] ∧ q ++ rest = String.utf8EncodeChar c := by
  have hge := p.low_ge
  have hlow := h.low_le_high
  have hhigh := h.high_le
  -- the next byte is the least that it can be, and all bits behind it are zero
  let v := (p.bits * 0x40 + (p.low - 0x80)) * 0x40 ^ p.owed
  have hdiv : v / 0x40 ^ p.owed = p.bits * 0x40 + (p.low - 0x80) :=
    Nat.mul_div_cancel _ (Nat.pow_pos (by decide))
  have hcovers : p.Covers v := by
    rw [Covers, Nat.pow_succ, ← Nat.div_div_eq_div_mul, hdiv]
    omega
  have hnat : (Char.ofNat v).toNat = v := h.toNat_ofNat hcovers
  refine ⟨Char.ofNat v, continuation v (p.owed + 1), List.cons_ne_nil _ _, ?_⟩
  rw [h.encode_iff, hnat]
  exact ⟨hcovers, rfl⟩

/-- What is held has no character in front. -/
theorem Stands.not_encode_front (h : p.Stands q) (c : Char) :
    ¬ String.utf8EncodeChar c <+: q := by
  rintro ⟨t, rfl⟩
  obtain ⟨c', rest, hne, henc⟩ := h.exists_encode
  rw [List.append_assoc] at henc
  obtain rfl : c = c' := utf8EncodeChar_append_inj (henc.trans (List.append_nil _).symm)
  exact hne (List.append_eq_nil_iff.mp (List.append_right_eq_self.mp henc)).2

/-- A byte out of range goes on to no character. -/
theorem Stands.not_begun (h : p.Stands q) (hb : ¬ (p.low ≤ b.toNat ∧ b.toNat ≤ p.high)) :
    ¬ Begun (q ++ [b]) := by
  rintro ⟨c, t, hc⟩
  rw [List.append_assoc, List.singleton_append, h.encode_iff, continuation_succ] at hc
  obtain ⟨⟨-, hlow, hhigh⟩, hcons⟩ := hc
  have hbyte := (byte_ofNat_eq_iff (by omega) b).mp (List.cons.inj hcons).1.symm
  omega

/-- **What is held is replaced** where the bytes end or go on out of range. -/
theorem Stands.replaceable (h : p.Stands q) {rest : List UInt8}
    (hstop : ∀ b ∈ rest.head?, ¬ (p.low ≤ b.toNat ∧ b.toNat ≤ p.high)) :
    Replaceable q (q ++ rest) := by
  obtain ⟨c, tail, -, henc⟩ := h.exists_encode
  exact .of_stuck h.nonempty (.inr ⟨c, tail, henc⟩) h.not_encode_front
    fun b hb => h.not_begun (hstop b hb)

/-- **A byte that opens nothing is replaced.** -/
theorem replaceable_of_not_opened (hb : 0x80 ≤ b.toNat) (h : opened? b.toNat = none)
    (rest : List UInt8) : Replaceable [b] ([b] ++ rest) := by
  have hnone (c : Char) (t : List UInt8) : String.utf8EncodeChar c ≠ b :: t := by
    intro henc
    obtain ⟨p, hp, -⟩ := opened_of_encode (ge_of_utf8EncodeChar_eq_cons henc hb) henc
    rw [h] at hp
    cases hp
  refine .of_stuck (List.cons_ne_nil _ _) (.inl rfl) ?_ ?_
  · intro c hc
    rcases List.prefix_cons_iff.mp hc with hnil | ⟨t, ht, -⟩
    · exact String.utf8EncodeChar_ne_nil hnil
    · exact hnone c t ht
  · rintro b' - ⟨c, t, hc⟩
    exact hnone c _ hc.symm

end Partial

/-! ## 5. The decoder -/

/-- Behind the characters `written`, the last one first, the bytes are read as the rest of `text`. -/
def ReadsAs (written : List Char) (bytes : List UInt8) (text : List Char) : Prop :=
  ∃ chunks, Reads bytes chunks ∧ text = written.reverse ++ chunks.map Chunk.char

namespace ReadsAs

variable {written text : List Char} {rest : List UInt8}

theorem kept (c : Char) (h : ReadsAs (c :: written) rest text) :
    ReadsAs written (String.utf8EncodeChar c ++ rest) text := by
  obtain ⟨chunks, hreads, rfl⟩ := h
  refine ⟨_, hreads.kept c, ?_⟩
  rw [List.reverse_cons, List.append_assoc, List.singleton_append, List.map_cons]

theorem replaced {part : List UInt8} (hpart : Replaceable part (part ++ rest))
    (h : ReadsAs (replacement :: written) rest text) : ReadsAs written (part ++ rest) text := by
  obtain ⟨chunks, hreads, rfl⟩ := h
  refine ⟨_, hreads.replaced hpart, ?_⟩
  rw [List.reverse_cons, List.append_assoc, List.singleton_append, List.map_cons]

end ReadsAs

namespace Decoder

/-- What the decoder holds is what the bytes `q` have begun. -/
def Holds (d : Decoder) (q : List UInt8) : Prop :=
  match d.held with
  | none => q = []
  | some p => p.Stands q

/-- The first byte of a character, if what follows is read rightly. -/
theorem lead_readsAs (written : List Char) (b : UInt8) {bytes : List UInt8}
    (hrest : ∀ (d : Decoder) (q : List UInt8), d.Holds q →
      ReadsAs d.written (q ++ bytes) (bytes.foldl step d).finish) :
    ReadsAs written (b :: bytes) (bytes.foldl step (lead written b.toNat)).finish := by
  unfold lead
  split
  · next hascii =>
    have hkept := ReadsAs.kept _ (hrest ⟨Char.ofNat b.toNat :: written, none⟩ [] rfl)
    rw [utf8EncodeChar_ofNat hascii] at hkept
    exact hkept
  · next hwide =>
    split
    · next p hp => exact hrest ⟨written, some p⟩ [b] (Partial.stands_of_opened hp)
    · next hp =>
      exact .replaced (Partial.replaceable_of_not_opened (by omega) hp bytes)
        (hrest ⟨replacement :: written, none⟩ [] rfl)

/-- **The decoder reads what it holds and all that follows.** -/
theorem foldl_step_readsAs {d : Decoder} {q : List UInt8} (hd : d.Holds q) (bytes : List UInt8) :
    ReadsAs d.written (q ++ bytes) (bytes.foldl step d).finish := by
  induction bytes generalizing d q with
  | nil =>
    obtain ⟨written, held⟩ := d
    cases held with
    | none =>
      obtain rfl : q = [] := hd
      exact ⟨[], .nil, (List.append_nil _).symm⟩
    | some p =>
      have hpart : Replaceable q (q ++ []) := Partial.Stands.replaceable hd (by rintro b ⟨⟩)
      exact .replaced hpart ⟨[], .nil, (List.append_nil _).symm⟩
  | cons b bytes ih =>
    have hlead (written : List Char) := lead_readsAs written b fun _ _ hd => ih hd
    obtain ⟨written, held⟩ := d
    cases held with
    | none =>
      obtain rfl : q = [] := hd
      exact hlead written
    | some p =>
      have hstands : p.Stands q := hd
      rw [List.foldl_cons]
      simp only [step]
      split
      · next hrange =>
        have hsplit : q ++ b :: bytes = q ++ [b] ++ bytes := by
          rw [List.append_assoc, List.singleton_append]
        rw [hsplit]
        split
        · next howed =>
          rw [← hstands.encode_last howed hrange]
          exact .kept _ (ih (d := ⟨_ :: written, none⟩) rfl)
        · next n howed =>
          exact ih (d := ⟨written, some _⟩) (hstands.goesOn ⟨howed, rfl, rfl, rfl, hrange⟩)
      · next hrange =>
        -- what was held is replaced, and the byte is read as the first of something new
        have hstop : ∀ b' ∈ (b :: bytes).head?, ¬ (p.low ≤ b'.toNat ∧ b'.toNat ≤ p.high) := by
          rintro _ ⟨⟩
          exact hrange
        exact .replaced (hstands.replaceable hstop) (hlead (replacement :: written))

end Decoder

theorem exists_reads (bytes : List UInt8) :
    ∃ chunks, Reads bytes chunks ∧ decode bytes = chunks.map Chunk.char :=
  Decoder.foldl_step_readsAs (d := .start) (q := []) rfl bytes

/-- **The decoder writes the characters of the chunks.** -/
theorem Reads.decode_eq {bytes : List UInt8} {chunks : List Chunk} (h : Reads bytes chunks) :
    decode bytes = chunks.map Chunk.char := by
  obtain ⟨chunks', h', hdecode⟩ := exists_reads bytes
  rw [h.unique h', hdecode]

/-- **Decoding makes no line feed and loses none.** -/
theorem lineFeeds_decode (bytes : List UInt8) : lineFeeds (decode bytes) = bytes.count 0x0A := by
  obtain ⟨chunks, hreads, hdecode⟩ := exists_reads bytes
  rw [hdecode, hreads.count_lineFeed]

/-- Bytes without a line feed are text without one. -/
theorem lineFeed_notMem_decode {bytes : List UInt8} (h : 0x0A ∉ bytes) : '\n' ∉ decode bytes := by
  have hcount := lineFeeds_decode bytes
  rw [List.count_eq_zero.mpr h] at hcount
  exact List.count_eq_zero.mp hcount

/-! ## 6. Transparent and exact -/

/-- **Decoding is transparent for ASCII and exact on UTF-8.**

* The bytes of a text are decoded as the text.
* At an ASCII byte, whatever stands on either side, it is decoded as its character and parts the
  bytes into two that are decoded by themselves.
* All bytes are read in chunks, in one way only, and their characters are what the bytes are decoded
  as: those that are well formed, and one U+FFFD for each maximal prefix of an ill-formed sequence.
* The first `i` of these characters are what the bytes of the first `i` chunks are decoded as, and
  have as many line feeds as these bytes. -/
theorem decoding_is_transparent_and_exact (text : String) (x y : List UInt8) {a : UInt8}
    (ha : a.toNat < 0x80) (bytes : List UInt8) :
    decode text.toUTF8.data.toList = text.toList ∧
      decode (x ++ [a] ++ y) = decode x ++ [Char.ofNat a.toNat] ++ decode y ∧
      ∃ chunks, Reads bytes chunks ∧ (∀ chunks', Reads bytes chunks' → chunks' = chunks) ∧
        chunks.flatMap Chunk.bytes = bytes ∧ decode bytes = chunks.map Chunk.char ∧
        ∀ i, decode ((chunks.take i).flatMap Chunk.bytes) = (decode bytes).take i ∧
          lineFeeds ((decode bytes).take i) =
            ((chunks.take i).flatMap Chunk.bytes).count 0x0A := by
  refine ⟨?_, ?_, ?_⟩
  · have htext := (Reads.encoded text.toList).decode_eq
    rw [← toUTF8_ofList, String.ofList_toList, List.map_map] at htext
    exact htext.trans (List.map_id _)
  · rw [List.append_assoc, List.singleton_append, decode_append_ascii x ha, List.append_assoc,
      List.singleton_append]
  · obtain ⟨chunks, hreads, hdecode⟩ := exists_reads bytes
    refine ⟨chunks, hreads, fun _ h => h.unique hreads, hreads.bytes_eq, hdecode, fun i => ?_⟩
    have hfront := (hreads.take i).decode_eq
    rw [List.map_take, ← hdecode] at hfront
    refine ⟨hfront, ?_⟩
    rw [← hfront, lineFeeds_decode]

/-- A sequence cut off by a line feed, a surrogate, a character of four bytes, an overlong form and a
sequence that the end cuts off. -/
theorem decoding_is_transparent_and_exact_mixed :
    let bytes : List UInt8 :=
      [0x61, 0xE2, 0x82, 0x0A, 0xED, 0xA0, 0x80, 0xF0, 0x9F, 0x98, 0x80, 0x0A, 0xC0, 0xF4, 0x8F]
    decode "né€😀".toUTF8.data.toList = ['n', 'é', '€', '😀'] ∧
      decode ([0xE2, 0x82] ++ [0x0A] ++ [0x82]) = ['\uFFFD'] ++ ['\n'] ++ ['\uFFFD'] ∧
      ∃ chunks, Reads bytes chunks ∧
        chunks.map Chunk.char =
          ['a', '\uFFFD', '\n', '\uFFFD', '\uFFFD', '\uFFFD', '😀', '\n', '\uFFFD', '\uFFFD'] ∧
        ((chunks.take 7).flatMap Chunk.bytes).count 0x0A = 1 ∧
        ((chunks.take 8).flatMap Chunk.bytes).count 0x0A = 2 := by
  intro bytes
  obtain ⟨htext, hparts, chunks, hreads, -, -, hdecode, hfeeds⟩ :=
    decoding_is_transparent_and_exact "né€😀" [0xE2, 0x82] [0x82] (a := 0x0A) (by decide) bytes
  refine ⟨htext.trans (by decide), hparts.trans (by decide +kernel), chunks, hreads, ?_, ?_, ?_⟩
  · exact hdecode.symm.trans (by decide +kernel)
  · exact (hfeeds 7).2.symm.trans (by decide +kernel)
  · exact (hfeeds 8).2.symm.trans (by decide +kernel)

end CpScan.Utf8
