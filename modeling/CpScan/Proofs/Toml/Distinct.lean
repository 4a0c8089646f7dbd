/-
# No key is given twice

A document that gives a key twice is refused, however the two are written: by assignments, with
dotted keys, in braces, or by headers.  So in the tree of a document no table has a key twice, and
this holds for the tables in arrays and in other tables too (`Value.Distinct`).  What is found under
a key is then all that the document says about it (`Entries.Distinct.get?_eq_some_iff`), and the
order of the keys does not matter.

The proof follows the document.  Adding a key that is not there and giving one that is there another
value keep keys distinct; so does everything that statements do to a tree, by induction on the way
to the table they change (`Entries.Distinct.assign`, `Entries.Distinct.atTable`).  The main result
is `parse_distinct`.
-/
import Mathlib.Data.List.Nodup
import CpScan.Toml.Document

namespace CpScan.Toml

/-! ## 1. Trees with distinct keys -/

/-- A value that holds no other. -/
def Value.Scalar : Value → Prop
  | .array .. | .table .. => False
  | _ => True

/-- No table in the value has a key twice, nor has the value itself. -/
inductive Value.Distinct : Value → Prop
  | scalar {v : Value} (h : v.Scalar) : Distinct v
  | array {kind : ArrayKind} {items : List Value} (h : ∀ v ∈ items, Distinct v) :
    Distinct (.array kind items)
  | table {kind : TableKind} {es : Entries} (hkeys : (es.map Prod.fst).Nodup)
    (h : ∀ e ∈ es, Distinct e.2) : Distinct (.table kind es)

/-- No table of a tree has a key twice, nor has the tree itself. -/
structure Entries.Distinct (es : Entries) : Prop where
  keys : (es.map Prod.fst).Nodup
  values : ∀ e ∈ es, e.2.Distinct

theorem Value.distinct_table_iff {kind : TableKind} {es : Entries} :
    (Value.table kind es).Distinct ↔ es.Distinct := by
  constructor
  · rintro (h | _ | ⟨hkeys, h⟩)
    · exact h.elim
    · exact ⟨hkeys, h⟩
  · intro h
    exact .table h.keys h.values

theorem Value.distinct_array_iff {kind : ArrayKind} {items : List Value} :
    (Value.array kind items).Distinct ↔ ∀ v ∈ items, v.Distinct := by
  constructor
  · rintro (h | h | _)
    · exact h.elim
    · exact h
  · exact .array

/-- What each step of a fold keeps, the fold keeps. -/
theorem foldlM_preserves {α β : Type} {P : β → Prop} {f : β → α → Option β} {as : List α}
    (hstep : ∀ b, ∀ a ∈ as, ∀ b', P b → f b a = some b' → P b') {b b' : β} (h : P b)
    (heq : as.foldlM f b = some b') : P b' := by
  induction as generalizing b with
  | nil =>
    obtain rfl := Option.some.inj heq
    exact h
  | cons a as ih =>
    rw [List.foldlM_cons] at heq
    obtain ⟨c, hfirst, hrest⟩ := Option.bind_eq_some_iff.mp heq
    have hc := hstep b a List.mem_cons_self c h hfirst
    exact ih (fun b a ha => hstep b a (List.mem_cons_of_mem _ ha)) hc hrest

namespace Entries

variable {es es' : Entries} {key : String} {value : Value}

/-! ## 2. Looking up, adding and replacing -/

theorem get?_eq_none_iff : es.get? key = none ↔ ∀ e ∈ es, e.1 ≠ key := by
  rw [get?, List.lookup_eq_none_iff]
  simp only [bne_iff_ne, ne_comm]

theorem mem_of_get? (h : es.get? key = some value) : (key, value) ∈ es := by
  obtain ⟨front, back, rfl, -⟩ := List.lookup_eq_some_iff.mp h
  exact List.mem_append_right _ List.mem_cons_self

/-- **What is found under a key is all there is.** -/
theorem Distinct.get?_eq_some_iff (h : es.Distinct) :
    es.get? key = some value ↔ (key, value) ∈ es := by
  refine ⟨mem_of_get?, fun hmem => ?_⟩
  cases hget : es.get? key with
  | none => exact absurd rfl (get?_eq_none_iff.mp hget _ hmem)
  | some other =>
    have heq := List.inj_on_of_nodup_map h.keys (mem_of_get? hget) hmem rfl
    rw [(Prod.mk.inj heq).2]

theorem Distinct.nil : Distinct [] := ⟨List.nodup_nil, by simp⟩

theorem Distinct.of_get? (h : es.Distinct) (hget : es.get? key = some value) : value.Distinct :=
  h.values _ (mem_of_get? hget)

/-- A table that is found has distinct keys itself. -/
theorem Distinct.inner {kind : TableKind} {inner : Entries} (h : es.Distinct)
    (hget : es.get? key = some (.table kind inner)) : inner.Distinct :=
  Value.distinct_table_iff.mp (h.of_get? hget)

/-- A key that is not there can be added. -/
theorem Distinct.add (h : es.Distinct) (hnew : es.get? key = none) (hvalue : value.Distinct) :
    (es.add key value).Distinct := by
  rw [get?_eq_none_iff] at hnew
  constructor
  · rw [Entries.add, List.map_append, List.nodup_append]
    refine ⟨h.keys, List.nodup_singleton _, ?_⟩
    rintro _ hmem _ hkey rfl
    obtain ⟨e, he, heq⟩ := List.mem_map.mp hmem
    exact hnew e he (heq.trans (List.mem_singleton.mp hkey))
  · intro e he
    rcases List.mem_append.mp he with hold | hlast
    · exact h.values e hold
    · rw [List.mem_singleton.mp hlast]
      exact hvalue

/-- A key can be given another value. -/
theorem Distinct.replace (h : es.Distinct) (key : String) (hvalue : value.Distinct) :
    (es.replace key value).Distinct := by
  have hkeys : (es.replace key value).map Prod.fst = es.map Prod.fst := by
    rw [Entries.replace, List.map_map]
    refine List.map_congr_left fun e _ => ?_
    by_cases hkey : e.1 = key
    · simp [hkey]
    · simp [hkey]
  refine ⟨hkeys ▸ h.keys, fun e he => ?_⟩
  obtain ⟨old, hold, rfl⟩ := List.mem_map.mp he
  split
  · exact hvalue
  · exact h.values old hold

/-! ## 3. Changes below a key -/

/-- **An assignment keeps keys distinct.** -/
theorem Distinct.assign {last : String} (hvalue : value.Distinct) {way : List String}
    (h : es.Distinct) (heq : Entries.assign value last way es = some es') : es'.Distinct := by
  induction way generalizing es es' with
  | nil =>
    rw [Entries.assign] at heq
    split at heq
    · cases heq
    · next hnew =>
      obtain rfl := Option.some.inj heq
      exact h.add (Option.not_isSome_iff_eq_none.mp hnew) hvalue
  | cons key way ih =>
    rw [Entries.assign] at heq
    split at heq
    · next hnew =>
      obtain ⟨inner, hinner, rfl⟩ := Option.map_eq_some_iff.mp heq
      exact h.add hnew (Value.distinct_table_iff.mpr (ih .nil hinner))
    · next kind inner hget =>
      split at heq
      · obtain ⟨inner', hinner, rfl⟩ := Option.map_eq_some_iff.mp heq
        exact h.replace key (Value.distinct_table_iff.mpr (ih (h.inner hget) hinner))
      · cases heq
    · cases heq

/-- **A change of one table keeps keys distinct**, if it does so by itself. -/
theorem Distinct.atTable {change : Entries → Option Entries}
    (hchange : ∀ {es es'}, Distinct es → change es = some es' → Distinct es') {way : List String}
    (h : es.Distinct) (heq : Entries.atTable change way es = some es') : es'.Distinct := by
  induction way generalizing es es' with
  | nil => exact hchange h heq
  | cons key way ih =>
    rw [Entries.atTable] at heq
    split at heq
    · next hnew =>
      obtain ⟨inner, hinner, rfl⟩ := Option.map_eq_some_iff.mp heq
      exact h.add hnew (Value.distinct_table_iff.mpr (ih .nil hinner))
    · next kind inner hget =>
      split at heq
      · cases heq
      · obtain ⟨inner', hinner, rfl⟩ := Option.map_eq_some_iff.mp heq
        exact h.replace key (Value.distinct_table_iff.mpr (ih (h.inner hget) hinner))
    · next items hget =>
      split at heq
      · next kind inner hlast =>
        obtain ⟨inner', hinner, rfl⟩ := Option.map_eq_some_iff.mp heq
        have hitems := Value.distinct_array_iff.mp (h.of_get? hget)
        have hbefore := Value.distinct_table_iff.mp (hitems _ (List.mem_of_getLast? hlast))
        refine h.replace key (Value.distinct_array_iff.mpr fun v hv => ?_)
        rcases List.mem_append.mp hv with hold | hnew
        · exact hitems v (List.dropLast_sublist _ |>.mem hold)
        · rw [List.mem_singleton.mp hnew]
          exact Value.distinct_table_iff.mpr (ih hbefore hinner)
      · cases heq
    · cases heq

/-- Opening a table makes a new one, or one out of what was implied before. -/
theorem Distinct.openTable (h : es.Distinct) (heq : es.openTable key = some es') :
    es'.Distinct := by
  rw [Entries.openTable] at heq
  split at heq
  · next hnew =>
    obtain rfl := Option.some.inj heq
    exact h.add hnew (Value.distinct_table_iff.mpr .nil)
  · next inner hget =>
    obtain rfl := Option.some.inj heq
    exact h.replace key (Value.distinct_table_iff.mpr (h.inner hget))
  · cases heq

/-- One more table in an array is an empty one. -/
theorem Distinct.openElement (h : es.Distinct) (heq : es.openElement key = some es') :
    es'.Distinct := by
  have hempty : (Value.table .headed []).Distinct := Value.distinct_table_iff.mpr .nil
  rw [Entries.openElement] at heq
  split at heq
  · next hnew =>
    obtain rfl := Option.some.inj heq
    refine h.add hnew (Value.distinct_array_iff.mpr fun v hv => ?_)
    rwa [List.mem_singleton.mp hv]
  · next items hget =>
    obtain rfl := Option.some.inj heq
    have hitems := Value.distinct_array_iff.mp (h.of_get? hget)
    refine h.replace key (Value.distinct_array_iff.mpr fun v hv => ?_)
    rcases List.mem_append.mp hv with hold | hnew
    · exact hitems v hold
    · rwa [List.mem_singleton.mp hnew]
  · cases heq

/-- A table in braces has distinct keys. -/
theorem distinct_ofAssignments {assignments : List (Key × Value)}
    (h : ∀ a ∈ assignments, a.2.Distinct) (heq : ofAssignments assignments = some es) :
    es.Distinct :=
  foldlM_preserves (fun _ a ha _ hbefore hassign => hbefore.assign (h a ha) hassign) .nil heq

end Entries

/-! ## 4. Values that are read -/

/-- Whatever the reader gives has the property. -/
def Yields {α : Type} (P : α → Prop) (read : Reader α) : Prop :=
  ∀ {cs a rest}, read cs = some (a, rest) → P a

theorem scalar_of_readBase (base : Nat) : Yields Value.Scalar (readBase base) := by
  intro cs v rest h
  unfold readBase at h
  dsimp only at h
  split at h
  · cases h
  · split at h
    · cases h
      trivial
    · cases h

theorem scalar_of_readDecimal (negative : Bool) (cs : List Char) :
    Yields Value.Scalar (readDecimal negative cs) := by
  intro unsigned v rest h
  obtain ⟨⟨whole, _⟩, -, h⟩ := Option.bind_eq_some_iff.mp h
  obtain ⟨⟨fraction, _⟩, -, h⟩ := Option.bind_eq_some_iff.mp h
  obtain ⟨⟨exponent, _⟩, -, h⟩ := Option.bind_eq_some_iff.mp h
  dsimp only at h
  split at h
  · generalize (if negative then -(digitsValue whole : Int) else digitsValue whole) = n at h
    split at h
    · cases h
      trivial
    · cases h
  · split at h
    · cases h
    · cases h
      trivial

theorem scalar_of_readSigned (negative : Bool) (cs : List Char) :
    Yields Value.Scalar (readSigned negative cs) := by
  intro unsigned v rest h
  unfold readSigned at h
  split at h
  · cases h
    trivial
  · cases h
    trivial
  · exact scalar_of_readDecimal _ _ h

theorem scalar_of_readNumber : Yields Value.Scalar readNumber := by
  intro cs v rest h
  unfold readNumber at h
  split at h
  · exact scalar_of_readBase 16 h
  · exact scalar_of_readBase 8 h
  · exact scalar_of_readBase 2 h
  · exact scalar_of_readSigned _ _ h
  · exact scalar_of_readSigned _ _ h
  · exact scalar_of_readSigned _ _ h

theorem scalar_of_readMomentOrNumber : Yields Value.Scalar readMomentOrNumber := by
  intro cs v rest h
  have hstamp : ∀ {left}, readMomentOrNumber.stamp cs left = some (v, rest) → v.Scalar := by
    intro left h
    obtain ⟨_, -, heq⟩ := Option.map_eq_some_iff.mp h
    cases heq
    trivial
  unfold readMomentOrNumber at h
  split at h
  · split at h
    · exact hstamp h
    · exact scalar_of_readNumber h
  · split at h
    · exact hstamp h
    · exact scalar_of_readNumber h
  · exact scalar_of_readNumber h

theorem scalar_of_readScalar : Yields Value.Scalar readScalar := by
  intro cs v rest h
  unfold readScalar at h
  split at h
  · obtain ⟨_, -, heq⟩ := Option.map_eq_some_iff.mp h
    obtain ⟨rfl, -⟩ := Prod.mk.inj heq
    trivial
  · obtain ⟨_, -, heq⟩ := Option.map_eq_some_iff.mp h
    obtain ⟨rfl, -⟩ := Prod.mk.inj heq
    trivial
  · cases h
    trivial
  · cases h
    trivial
  · exact scalar_of_readMomentOrNumber h

section Readers

variable {item : Reader Value} (hitem : Yields Value.Distinct item)
include hitem

/-- The items of an array are what the reader of items gives. -/
theorem distinct_of_readItems {limit : Nat} {done items : List Value} {cs rest : List Char}
    (hdone : ∀ v ∈ done, v.Distinct) (h : readItems item done limit cs = some (items, rest)) :
    ∀ v ∈ items, v.Distinct := by
  induction limit generalizing done cs with
  | zero => cases h
  | succ limit ih =>
    rw [readItems] at h
    split at h
    · cases h
      exact fun v hv => hdone v (List.mem_reverse.mp hv)
    · split at h
      · cases h
      · next value _ hvalue =>
        have hmore : ∀ v ∈ value :: done, v.Distinct := fun v hv =>
          (List.mem_cons.mp hv).elim (fun heq => heq ▸ hitem hvalue) (hdone v)
        split at h
        · exact ih hmore h
        · cases h
          exact fun v hv => hmore v (List.mem_reverse.mp hv)
        · cases h
    · cases h

theorem distinct_of_readAssignment : Yields (fun a => a.2.Distinct) (readAssignment item) := by
  intro cs a rest h
  obtain ⟨⟨key, rest₁⟩, -, h⟩ := Option.bind_eq_some_iff.mp h
  obtain ⟨rest₂, -, h⟩ := Option.bind_eq_some_iff.mp h
  obtain ⟨⟨value, rest₃⟩, hvalue, h⟩ := Option.bind_eq_some_iff.mp h
  cases h
  exact hitem hvalue

theorem distinct_of_readAssignments {limit : Nat} {done assignments : List (Key × Value)}
    {cs rest : List Char} (hdone : ∀ a ∈ done, a.2.Distinct)
    (h : readAssignments item done limit cs = some (assignments, rest)) :
    ∀ a ∈ assignments, a.2.Distinct := by
  induction limit generalizing done cs with
  | zero => cases h
  | succ limit ih =>
    rw [readAssignments] at h
    split at h
    · cases h
    · next assignment _ hassignment =>
      have hmore : ∀ a ∈ assignment :: done, a.2.Distinct := fun a ha =>
        (List.mem_cons.mp ha).elim
          (fun heq => heq ▸ distinct_of_readAssignment hitem hassignment) (hdone a)
      split at h
      · exact ih hmore h
      · cases h
        exact fun a ha => hmore a (List.mem_reverse.mp ha)
      · cases h

theorem distinct_of_readBraces : Yields Value.Distinct (readBraces item) := by
  intro cs v rest h
  unfold readBraces at h
  split at h
  · cases h
    exact Value.distinct_table_iff.mpr .nil
  · split at h
    · cases h
    · next assignments _ hread =>
      obtain ⟨es, hes, heq⟩ := Option.map_eq_some_iff.mp h
      cases heq
      have hall := distinct_of_readAssignments hitem (by simp) hread
      exact Value.distinct_table_iff.mpr (Entries.distinct_ofAssignments hall hes)

end Readers

/-- **No value that is read has a key twice**, by induction on how deep values are nested. -/
theorem distinct_of_readValue (depth : Nat) : Yields Value.Distinct (readValue depth) := by
  induction depth with
  | zero => exact fun h => .scalar (scalar_of_readScalar h)
  | succ depth ih =>
    intro cs v rest h
    unfold readValue at h
    split at h
    · obtain ⟨⟨items, _⟩, hread, heq⟩ := Option.map_eq_some_iff.mp h
      cases heq
      exact .array (distinct_of_readItems ih (by simp) hread)
    · exact distinct_of_readBraces ih h
    · exact .scalar (scalar_of_readScalar h)

/-! ## 5. Statements and documents -/

/-- The value of an assignment has distinct keys; headers have none. -/
def Statement.Distinct : Statement → Prop
  | .assignment _ value => value.Distinct
  | _ => True

theorem distinct_of_readStatement : Yields Statement.Distinct readStatement := by
  intro cs statement rest h
  unfold readStatement at h
  split at h
  · obtain ⟨⟨key, _⟩, -, h⟩ := Option.bind_eq_some_iff.mp h
    obtain ⟨_, -, h⟩ := Option.bind_eq_some_iff.mp h
    obtain ⟨_, -, h⟩ := Option.bind_eq_some_iff.mp h
    obtain ⟨_, -, h⟩ := Option.bind_eq_some_iff.mp h
    cases h
    trivial
  · obtain ⟨⟨key, _⟩, -, h⟩ := Option.bind_eq_some_iff.mp h
    obtain ⟨_, -, h⟩ := Option.bind_eq_some_iff.mp h
    obtain ⟨_, -, h⟩ := Option.bind_eq_some_iff.mp h
    cases h
    trivial
  · obtain ⟨⟨⟨key, value⟩, _⟩, hread, h⟩ := Option.bind_eq_some_iff.mp h
    obtain ⟨_, -, h⟩ := Option.bind_eq_some_iff.mp h
    cases h
    exact distinct_of_readAssignment (distinct_of_readValue _) hread

theorem distinct_of_readStatements {limit : Nat} {done statements : List Statement}
    {cs : List Char} (hdone : ∀ s ∈ done, s.Distinct)
    (h : readStatements done limit cs = some statements) : ∀ s ∈ statements, s.Distinct := by
  induction limit generalizing done cs with
  | zero => cases h
  | succ limit ih =>
    rw [readStatements] at h
    split at h
    · cases h
      exact fun s hs => hdone s (List.mem_reverse.mp hs)
    · split at h
      · split at h
        · exact ih hdone h
        · cases h
      · split at h
        · next statement _ hread =>
          refine ih (fun s hs => ?_) h
          rcases List.mem_cons.mp hs with rfl | hs
          · exact distinct_of_readStatement hread
          · exact hdone s hs
        · cases h

/-- A statement keeps the keys of the tree distinct. -/
theorem Draft.distinct_add {d d' : Draft} {statement : Statement} (hs : statement.Distinct)
    (h : d.root.Distinct) (heq : d.add statement = some d') : d'.root.Distinct := by
  cases statement with
  | header key =>
    obtain ⟨root, hroot, rfl⟩ := Option.map_eq_some_iff.mp heq
    exact h.atTable Entries.Distinct.openTable hroot
  | element key =>
    obtain ⟨root, hroot, rfl⟩ := Option.map_eq_some_iff.mp heq
    exact h.atTable Entries.Distinct.openElement hroot
  | assignment key value =>
    obtain ⟨root, hroot, rfl⟩ := Option.map_eq_some_iff.mp heq
    exact h.atTable (Entries.Distinct.assign hs) hroot

/-- **No key of a document is given twice.** -/
theorem parse_distinct {text : List Char} {es : Entries} (h : parse text = some es) :
    es.Distinct := by
  obtain ⟨statements, hread, h⟩ := Option.bind_eq_some_iff.mp h
  obtain ⟨d, hfold, rfl⟩ := Option.map_eq_some_iff.mp h
  have hall := distinct_of_readStatements (by simp) hread
  exact foldlM_preserves (P := fun d => d.root.Distinct)
    (fun _ s hs _ hbefore hadd => Draft.distinct_add (hall s hs) hbefore hadd) .nil hfold

end CpScan.Toml
