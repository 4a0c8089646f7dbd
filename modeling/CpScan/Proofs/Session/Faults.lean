/-
# Carrying a plan out, whatever fails

A plan is carried out action by action, and the first action that fails ends it.  This module says
once what that can come to, for every list of actions and every console:

* everything is done exactly if there is room for all of it and flushing works
  (`Console.performAll_eq_none_iff`, `Console.HasRoom`);
* what has been written in either case is what all actions up to some point write, and part of what
  the next one writes (`Emits`, `Console.performAll_emits`).

From `Emits` alone follows what a reader of the two channels can rely on: each holds the beginning
of what was to be written to it (`Emits.out_prefix`, `Emits.err_prefix`), and bytes of an action on
one channel mean that everything planned before it is complete on the other (`Emits.err_complete`,
`Emits.out_complete`).
-/
import CpScan.Session.Basic
import Mathlib.Data.List.Basic

namespace CpScan

/-! ## 1. Bytes of texts and channels -/

/-- The bytes of a text. -/
def textBytes (text : String) : List UInt8 := text.toUTF8.data.toList

namespace Channel

/-- The bytes that have been written, as a list. -/
def content (ch : Channel) : List UInt8 := ch.written.data.toList

/-- There may be this many bytes on the channel. -/
def Admits (ch : Channel) (n : Nat) : Prop := ∀ m ∈ ch.capacity, n ≤ m

theorem Admits.mono {ch : Channel} {n k : Nat} (h : ch.Admits n) (hle : k ≤ n) : ch.Admits k :=
  fun m hm => Nat.le_trans hle (h m hm)

/-- A write succeeds exactly if there is room for its bytes behind what is there already. -/
theorem write_fits_iff {ch : Channel} (hs : ch.Admits ch.content.length) (bytes : ByteArray) :
    (ch.write bytes).2 = true ↔ ch.Admits (ch.content.length + bytes.data.toList.length) := by
  obtain ⟨capacity, written⟩ := ch
  cases capacity with
  | none => exact iff_of_true rfl fun m hm => by cases hm
  | some n =>
    have hle : written.size ≤ n := hs n rfl
    have hroom : bytes.size ≤ n - written.size ↔ written.size + bytes.size ≤ n := by omega
    have hadmits (k : Nat) : Admits ⟨some n, written⟩ k ↔ k ≤ n := by simp [Admits]
    rw [hadmits]
    change _ ↔ written.size + bytes.size ≤ n
    rw [← hroom, write]
    split
    · exact iff_of_true rfl (by assumption)
    · exact iff_of_false Bool.false_ne_true (by assumption)

/-- In every case the channel goes on with some of the bytes, from the first on, and with all of
them if nothing is said to be missing. -/
theorem write_content (ch : Channel) (bytes : ByteArray) :
    (ch.write bytes).1.capacity = ch.capacity ∧
      ∃ part, part <+: bytes.data.toList ∧ (ch.write bytes).1.content = ch.content ++ part ∧
        ((ch.write bytes).2 = true → part = bytes.data.toList) := by
  obtain ⟨capacity, written⟩ := ch
  cases capacity with
  | none => exact ⟨rfl, _, List.prefix_rfl, by simp [write, content], fun _ => rfl⟩
  | some n =>
    simp only [write]
    split
    · exact ⟨rfl, _, List.prefix_rfl, by simp [content], fun _ => rfl⟩
    · refine ⟨rfl, bytes.data.toList.take (n - written.size), List.take_prefix _ _, ?_, ?_⟩
      · simp [content]
      · intro h
        cases h

end Channel

/-! ## 2. What actions write -/

namespace Action

/-- What an action writes to the output channel. -/
def outBytes : Action → List UInt8
  | out text => textBytes text
  | _ => []

/-- What an action writes to the error channel. -/
def errBytes : Action → List UInt8
  | err text => textBytes text
  | _ => []

end Action

/-- What actions write to the output channel. -/
def outOf (actions : List Action) : List UInt8 := actions.flatMap Action.outBytes

/-- What actions write to the error channel. -/
def errOf (actions : List Action) : List UInt8 := actions.flatMap Action.errBytes

@[simp] theorem outOf_nil : outOf [] = [] := rfl

@[simp] theorem errOf_nil : errOf [] = [] := rfl

@[simp] theorem outOf_cons (a : Action) (as : List Action) :
    outOf (a :: as) = a.outBytes ++ outOf as := rfl

@[simp] theorem errOf_cons (a : Action) (as : List Action) :
    errOf (a :: as) = a.errBytes ++ errOf as := rfl

@[simp] theorem outOf_append (as bs : List Action) : outOf (as ++ bs) = outOf as ++ outOf bs :=
  List.flatMap_append

@[simp] theorem errOf_append (as bs : List Action) : errOf (as ++ bs) = errOf as ++ errOf bs :=
  List.flatMap_append

/-- Carrying `as` out may have written `wo` to the output channel and `we` to the error channel: all
that the actions up to some point write, and part of what the next one does. -/
inductive Emits : List Action → List UInt8 → List UInt8 → Prop
  | done : Emits [] [] []
  | broken {a : Action} {as : List Action} {wo we : List UInt8} (ho : wo <+: a.outBytes)
      (he : we <+: a.errBytes) : Emits (a :: as) wo we
  | next {a : Action} {as : List Action} {wo we : List UInt8} (h : Emits as wo we) :
      Emits (a :: as) (a.outBytes ++ wo) (a.errBytes ++ we)

namespace Emits

variable {as : List Action} {wo we : List UInt8}

/-- The output channel has the beginning of what was to be written to it. -/
theorem out_prefix (h : Emits as wo we) : wo <+: outOf as := by
  induction h with
  | done => exact List.prefix_rfl
  | broken ho _ => exact ho.trans (List.prefix_append _ _)
  | next _ ih => exact (List.prefix_append_right_inj _).mpr ih

/-- The error channel has the beginning of what was to be written to it. -/
theorem err_prefix (h : Emits as wo we) : we <+: errOf as := by
  induction h with
  | done => exact List.prefix_rfl
  | broken _ he => exact he.trans (List.prefix_append _ _)
  | next _ ih => exact (List.prefix_append_right_inj _).mpr ih

/-- **Output beyond some actions means that their diagnostics are complete.** -/
theorem err_complete {xs ys : List Action} (h : Emits (xs ++ ys) wo we)
    (hlt : (outOf xs).length < wo.length) : errOf xs <+: we := by
  induction xs generalizing wo we with
  | nil => exact List.nil_prefix
  | cons a xs ih =>
    rw [outOf_cons, List.length_append] at hlt
    cases h with
    | broken ho _ =>
      have hle := ho.length_le
      omega
    | next h =>
      rw [List.length_append] at hlt
      exact (List.prefix_append_right_inj _).mpr (ih h (by omega))

/-- **Diagnostics beyond some actions mean that their output is complete.** -/
theorem out_complete {xs ys : List Action} (h : Emits (xs ++ ys) wo we)
    (hlt : (errOf xs).length < we.length) : outOf xs <+: wo := by
  induction xs generalizing wo we with
  | nil => exact List.nil_prefix
  | cons a xs ih =>
    rw [errOf_cons, List.length_append] at hlt
    cases h with
    | broken _ he =>
      have hle := he.length_le
      omega
    | next h =>
      rw [List.length_append] at hlt
      exact (List.prefix_append_right_inj _).mpr (ih h (by omega))

end Emits

/-! ## 3. One action -/

namespace Console

/-- `c'` is `c` after `wo` has been written to the output channel and `we` to the error channel. -/
structure Gains (c c' : Console) (wo we : List UInt8) : Prop where
  outCapacity : c'.out.capacity = c.out.capacity
  errCapacity : c'.err.capacity = c.err.capacity
  flushFails : c'.flushFails = c.flushFails
  out : c'.out.content = c.out.content ++ wo
  err : c'.err.content = c.err.content ++ we

namespace Gains

variable {c c' c'' : Console} {wo we wo' we' : List UInt8}

theorem refl (c : Console) : c.Gains c [] [] :=
  ⟨rfl, rfl, rfl, (List.append_nil _).symm, (List.append_nil _).symm⟩

theorem trans (h : c.Gains c' wo we) (h' : c'.Gains c'' wo' we') :
    c.Gains c'' (wo ++ wo') (we ++ we') where
  outCapacity := h'.outCapacity.trans h.outCapacity
  errCapacity := h'.errCapacity.trans h.errCapacity
  flushFails := h'.flushFails.trans h.flushFails
  out := by rw [h'.out, h.out, List.append_assoc]
  err := by rw [h'.err, h.err, List.append_assoc]

end Gains

/-- There is room for all that actions write, and flushing works if they flush. -/
structure HasRoom (c : Console) (as : List Action) : Prop where
  out : c.out.Admits (c.out.content.length + (outOf as).length)
  err : c.err.Admits (c.err.content.length + (errOf as).length)
  flush : .flush ∈ as → c.flushFails = false

theorem HasRoom.head {c : Console} {a : Action} {as : List Action} (h : c.HasRoom (a :: as)) :
    c.HasRoom [a] where
  out := h.out.mono (by simp)
  err := h.err.mono (by simp)
  flush hm := h.flush (List.mem_cons.mpr (Or.inl (List.mem_singleton.mp hm)))

/-- Nothing more has been written than there is room for. -/
def Sound (c : Console) : Prop := c.HasRoom []

/-- There is room for an action and more if there is room for the action and then for the rest. -/
theorem hasRoom_cons {c c' : Console} {a : Action} (h : c.Gains c' a.outBytes a.errBytes)
    (as : List Action) : c.HasRoom (a :: as) ↔ c.HasRoom [a] ∧ c'.HasRoom as := by
  have hout (n : Nat) : c'.out.Admits n ↔ c.out.Admits n := by
    simp only [Channel.Admits, h.outCapacity]
  have herr (n : Nat) : c'.err.Admits n ↔ c.err.Admits n := by
    simp only [Channel.Admits, h.errCapacity]
  constructor
  · intro hroom
    refine ⟨hroom.head, ⟨?_, ?_, fun hm => ?_⟩⟩
    · rw [hout, h.out]
      simpa [Nat.add_assoc] using hroom.out
    · rw [herr, h.err]
      simpa [Nat.add_assoc] using hroom.err
    · rw [h.flushFails]
      exact hroom.flush (List.mem_cons_of_mem a hm)
  · rintro ⟨⟨-, -, hf⟩, ⟨ho', he', hf'⟩⟩
    rw [hout, h.out] at ho'
    rw [herr, h.err] at he'
    refine ⟨?_, ?_, fun hm => ?_⟩
    · simpa [Nat.add_assoc] using ho'
    · simpa [Nat.add_assoc] using he'
    · rcases List.mem_cons.mp hm with hm | hm
      · exact hf (List.mem_singleton.mpr hm)
      · exact h.flushFails ▸ hf' hm

/-- What one action does to a console: it writes the beginning of its bytes, and all of them unless
it fails. -/
theorem perform_gains (c : Console) (a : Action) :
    ∃ wo we, c.Gains (c.perform a).1 wo we ∧ wo <+: a.outBytes ∧ we <+: a.errBytes ∧
      ((c.perform a).2 = none → wo = a.outBytes ∧ we = a.errBytes) := by
  obtain ⟨out, err, flushFails, log⟩ := c
  cases a with
  | out text =>
    obtain ⟨hcap, part, hpart, hcontent, hall⟩ := out.write_content text.toUTF8
    refine ⟨part, [], ⟨hcap, rfl, rfl, hcontent, (List.append_nil _).symm⟩, hpart,
      List.nil_prefix, fun h => ⟨hall ?_, rfl⟩⟩
    simpa [perform] using h
  | err text =>
    obtain ⟨hcap, part, hpart, hcontent, hall⟩ := err.write_content text.toUTF8
    refine ⟨[], part, ⟨rfl, hcap, rfl, (List.append_nil _).symm, hcontent⟩, List.nil_prefix,
      hpart, fun h => ⟨rfl, hall ?_⟩⟩
    simpa [perform] using h
  | flush => exact ⟨[], [], Gains.refl _, List.nil_prefix, List.nil_prefix, fun _ => ⟨rfl, rfl⟩⟩
  | log event =>
    refine ⟨[], [], ⟨rfl, rfl, rfl, ?_, ?_⟩, List.nil_prefix, List.nil_prefix,
      fun _ => ⟨rfl, rfl⟩⟩
    · exact (List.append_nil _).symm
    · exact (List.append_nil _).symm

/-- One action succeeds exactly if there is room for it. -/
theorem perform_eq_none_iff {c : Console} (hs : c.Sound) (a : Action) :
    (c.perform a).2 = none ↔ c.HasRoom [a] := by
  obtain ⟨hout, herr, -⟩ := hs
  obtain ⟨out, err, flushFails, log⟩ := c
  cases a with
  | out text =>
    have hfits := Channel.write_fits_iff hout text.toUTF8
    have hnone : (perform ⟨out, err, flushFails, log⟩ (.out text)).2 = none ↔
        (out.write text.toUTF8).2 = true := by simp [perform]
    rw [hnone, hfits]
    refine ⟨fun h => ⟨?_, herr, by simp⟩, fun h => ?_⟩
    · simpa [Action.outBytes, textBytes] using h
    · simpa [Action.outBytes, textBytes] using h.out
  | err text =>
    have hfits := Channel.write_fits_iff herr text.toUTF8
    have hnone : (perform ⟨out, err, flushFails, log⟩ (.err text)).2 = none ↔
        (err.write text.toUTF8).2 = true := by simp [perform]
    rw [hnone, hfits]
    refine ⟨fun h => ⟨hout, ?_, by simp⟩, fun h => ?_⟩
    · simpa [Action.errBytes, textBytes] using h
    · simpa [Action.errBytes, textBytes] using h.err
  | flush =>
    have hnone : (perform ⟨out, err, flushFails, log⟩ .flush).2 = none ↔ flushFails = false := by
      simp [perform]
    rw [hnone]
    exact ⟨fun h => ⟨hout, herr, fun _ => h⟩, fun h => h.flush (List.mem_singleton.mpr rfl)⟩
  | log event => exact iff_of_true rfl ⟨hout, herr, by simp⟩

/-! ## 4. All actions -/

/-- **Whatever fails, what is on the channels is what the actions up to some point write, and part
of what the next one does.** -/
theorem performAll_emits (c : Console) (as : List Action) :
    ∃ wo we, c.Gains (c.performAll as).1 wo we ∧ Emits as wo we ∧
      ((c.performAll as).2 = none → wo = outOf as ∧ we = errOf as) := by
  induction as generalizing c with
  | nil => exact ⟨[], [], Gains.refl c, .done, fun _ => ⟨rfl, rfl⟩⟩
  | cons a as ih =>
    obtain ⟨wo, we, hg, ho, he, hall⟩ := c.perform_gains a
    unfold performAll
    rcases hp : c.perform a with ⟨c', _ | cause⟩
    · rw [hp] at hg hall
      obtain ⟨rfl, rfl⟩ := hall rfl
      obtain ⟨wo', we', hg', hemits, hall'⟩ := ih c'
      refine ⟨_, _, hg.trans hg', .next hemits, fun hnone => ?_⟩
      obtain ⟨rfl, rfl⟩ := hall' hnone
      exact ⟨rfl, rfl⟩
    · rw [hp] at hg
      refine ⟨wo, we, hg, .broken ho he, fun hnone => ?_⟩
      cases hnone

/-- **All actions succeed exactly if there is room for all of them.** -/
theorem performAll_eq_none_iff {c : Console} (hs : c.Sound) (as : List Action) :
    (c.performAll as).2 = none ↔ c.HasRoom as := by
  induction as generalizing c with
  | nil => exact iff_of_true rfl hs
  | cons a as ih =>
    have hone := perform_eq_none_iff hs a
    obtain ⟨wo, we, hg, -, -, hall⟩ := c.perform_gains a
    unfold performAll
    rcases hp : c.perform a with ⟨c', _ | cause⟩
    · rw [hp] at hg hall hone
      obtain ⟨rfl, rfl⟩ := hall rfl
      have hroom : c.HasRoom [a] := hone.mp rfl
      have hs' : c'.Sound := ((hasRoom_cons hg []).mp hroom).2
      rw [hasRoom_cons hg as, and_iff_right hroom]
      exact ih hs'
    · rw [hp] at hone
      refine iff_of_false (by simp) fun hroom => ?_
      cases hone.mpr hroom.head

end Console

end CpScan
