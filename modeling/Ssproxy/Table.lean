/-
  Ssproxy.Table

  The channel table: reading a slot after a write, after `free` and after
  `alloc`.  `TableOk` is what keeps every slot index in range.
-/

import Ssproxy.Channel

namespace Ssproxy

open Lib

/-- The free ids are slots, and there are at most `max_channels` slots. -/
structure TableOk (t : ChannelTable) : Prop where
  free : ∀ id ∈ t.free, id.toNat < t.slots.length
  bound : t.slots.length ≤ t.maxChannels.toNat

theorem TableOk.new (maxChannels : UInt32) : TableOk (.new maxChannels) :=
  ⟨by simp [ChannelTable.new], by simp [ChannelTable.new]⟩

namespace ChannelTable

variable {t t' : ChannelTable} {id j : UInt32} {ch ch' : Channel}

theorem toNat_ne {i j : UInt32} (h : j ≠ i) : i.toNat ≠ j.toNat :=
  fun heq => h (UInt32.toNat_inj.mp heq).symm

theorem lt_of_get? (h : t.get? id = some ch) : id.toNat < t.slots.length := by
  unfold get? at h
  by_contra hlt
  rw [List.getElem?_eq_none (Nat.le_of_not_lt hlt)] at h
  cases h

-- ============================================================================
-- Writing a slot
-- ============================================================================

@[simp] theorem get?_set_self (h : t.get? id = some ch) : (t.set id ch').get? id = some ch' := by
  simp only [get?, set, List.getElem?_set_self (lt_of_get? h), Option.join_some]

theorem get?_set_ne (h : j ≠ id) : (t.set id ch).get? j = t.get? j := by
  simp only [get?, set, List.getElem?_set_ne (toNat_ne h)]

/-- Writing a channel back as it was. -/
theorem set_get? (h : t.get? id = some ch) : t.set id ch = t := by
  have hlt := lt_of_get? h
  have hslot : t.slots[id.toNat] = some ch := by
    unfold get? at h
    rw [List.getElem?_eq_getElem hlt] at h
    exact h
  unfold set
  rw [← hslot, List.set_getElem_self]

/-- A write to a live slot replaces its channel. -/
theorem get?_set (h : t.get? id = some ch) (j : UInt32) :
    (t.set id ch').get? j = if j = id then some ch' else t.get? j := by
  split
  · rename_i hj
    rw [hj, get?_set_self h]
  · rename_i hj
    exact get?_set_ne hj

@[simp] theorem set_set (t : ChannelTable) (id : UInt32) (ch ch' : Channel) :
    (t.set id ch).set id ch' = t.set id ch' := by
  simp only [set, List.set_set]

@[simp] theorem slots_length_set : (t.set id ch).slots.length = t.slots.length := by
  simp [set]

-- ============================================================================
-- Freeing a slot
-- ============================================================================

theorem release_of_none (h : t.get? id = none) : t.release id = t := by
  unfold release
  rw [h]

theorem release_of_some (h : t.get? id = some ch) :
    t.release id = { t with slots := t.slots.set id.toNat none, free := id :: t.free } := by
  unfold release
  rw [h]

theorem get?_release_self (t : ChannelTable) (id : UInt32) : (t.release id).get? id = none := by
  cases h : t.get? id with
  | none => rw [release_of_none h, h]
  | some ch =>
    rw [release_of_some h]
    simp only [get?, List.getElem?_set_self (lt_of_get? h), Option.join_some]

theorem get?_release_ne (t : ChannelTable) (h : j ≠ id) : (t.release id).get? j = t.get? j := by
  cases hid : t.get? id with
  | none => rw [release_of_none hid]
  | some ch =>
    rw [release_of_some hid]
    simp only [get?, List.getElem?_set_ne (toNat_ne h)]

-- ============================================================================
-- Filling a slot
-- ============================================================================

/-- What `alloc` did. -/
structure Placed (t : ChannelTable) (ch : Channel) (id : UInt32) (t' : ChannelTable) : Prop where
  table : TableOk t'
  self : t'.get? id = some { ch with localId := id }
  other : ∀ j, j ≠ id → t'.get? j = t.get? j

theorem place_apply (h : id.toNat < t.slots.length) :
    place id ch t = .ok id (t.set id { ch with localId := id }) := by
  simp [place, h]

theorem get?_set_of_lt (h : id.toNat < t.slots.length) : (t.set id ch).get? id = some ch := by
  simp only [get?, set, List.getElem?_set_self h, Option.join_some]

end ChannelTable

open ChannelTable in
theorem TableOk.set {t : ChannelTable} (h : TableOk t) (id : UInt32) (ch : Channel) :
    TableOk (t.set id ch) where
  free := by
    intro i hi
    rw [slots_length_set]
    exact h.free i hi
  bound := by
    rw [slots_length_set]
    exact h.bound

namespace ChannelTable

variable {t t' : ChannelTable} {id j : UInt32} {ch ch' : Channel}

/-- `alloc` takes the top of the free list, else a new slot, else it fails. -/
theorem alloc_cases (h : TableOk t) (ch : Channel) :
    (∃ id rest, t.free = id :: rest ∧
      alloc ch t = .ok id ({ t with free := rest }.set id { ch with localId := id })) ∨
    (∃ id, t.free = [] ∧ id.toNat = t.slots.length ∧ t.slots.length < t.maxChannels.toNat ∧
      alloc ch t
        = .ok id ({ t with slots := t.slots ++ [none] }.set id { ch with localId := id })) ∨
    (t.free = [] ∧ t.slots.length = t.maxChannels.toNat ∧ ∃ e, alloc ch t = .err e t) := by
  obtain hf | ⟨id, rest, hf⟩ : t.free = [] ∨ ∃ id rest, t.free = id :: rest := by
    cases t.free with
    | nil => exact .inl rfl
    | cons id rest => exact .inr ⟨id, rest, rfl⟩
  · -- within the limit the number of slots fits a `u32`
    have hmax := t.maxChannels.toNat_lt
    have hbound := h.bound
    have hnat : (UInt32.ofNat t.slots.length).toNat = t.slots.length := by
      rw [UInt32.toNat_ofNat', Nat.mod_eq_of_lt (by omega)]
    by_cases hfull : UInt32.ofNat t.slots.length ≥ t.maxChannels
    · have hle := UInt32.le_iff_toNat_le.mp hfull
      refine .inr (.inr ⟨hf, by omega, .protocol "too many channels", ?_⟩)
      simp [alloc, hf, hfull]
    · have hroom : t.slots.length < t.maxChannels.toNat := by
        rw [← hnat]
        exact UInt32.lt_iff_toNat_lt.mp (UInt32.not_le.mp hfull)
      refine .inr (.inl ⟨_, hf, hnat, hroom, ?_⟩)
      unfold alloc
      simp only [Proc.bind_apply, Proc.get_apply, Outcome.bind_ok, hf, Proc.ite_apply,
        if_neg hfull, Proc.modify_apply]
      refine place_apply (t := { t with slots := t.slots ++ [none], free := [] }) ?_
      rw [hnat, List.length_append, List.length_singleton]
      exact Nat.lt_succ_self _
  · have hlt : id.toNat < t.slots.length := h.free id (by rw [hf]; exact List.mem_cons_self)
    refine .inl ⟨id, rest, hf, ?_⟩
    unfold alloc
    simp only [Proc.bind_apply, Proc.get_apply, Outcome.bind_ok, hf, Proc.modify_apply]
    exact place_apply (t := { t with free := rest }) hlt

/-- `alloc` stays inside the table; it fails only when the table is full. -/
theorem alloc_sat (h : TableOk t) (ch : Channel) :
    (alloc ch t).Sat (fun id t' => Placed t ch id t') (fun _ t' => t' = t) := by
  rcases alloc_cases h ch with ⟨id, rest, hf, ha⟩ | ⟨id, hf, hid, hroom, ha⟩ | ⟨hf, hfull, e, ha⟩
  · rw [ha]
    have hlt : id.toNat < t.slots.length := h.free id (by rw [hf]; exact List.mem_cons_self)
    have hok : TableOk { t with free := rest } :=
      ⟨fun i hi => h.free i (by rw [hf]; exact List.mem_cons_of_mem _ hi), h.bound⟩
    exact ⟨TableOk.set hok _ _, get?_set_of_lt (t := { t with free := rest }) hlt,
      fun j hj => get?_set_ne hj⟩
  · rw [ha]
    let grown : ChannelTable := { t with slots := t.slots ++ [none] }
    have hlt : id.toNat < grown.slots.length := by
      rw [hid]
      simp [grown]
    have hok : TableOk grown := by
      refine ⟨?_, ?_⟩
      · intro i hi
        rw [show grown.free = t.free from rfl, hf] at hi
        cases hi
      · simp only [grown, List.length_append, List.length_singleton]
        omega
    refine ⟨TableOk.set hok _ _, get?_set_of_lt hlt, fun j hj => ?_⟩
    rw [get?_set_ne hj]
    simp only [get?]
    by_cases hj' : j.toNat < t.slots.length
    · rw [List.getElem?_append_left hj']
    · have hne := toNat_ne hj
      rw [List.getElem?_eq_none (Nat.le_of_not_lt hj'), List.getElem?_eq_none]
      rw [List.length_append, List.length_singleton]
      omega
  · rw [ha]
    rfl

end ChannelTable

open ChannelTable in
theorem TableOk.release {t : ChannelTable} (h : TableOk t) (id : UInt32) :
    TableOk (t.release id) := by
  cases hg : t.get? id with
  | none => rw [release_of_none hg]; exact h
  | some ch =>
    rw [release_of_some hg]
    refine ⟨?_, ?_⟩
    · intro i hi
      simp only [List.length_set]
      rcases List.mem_cons.mp hi with rfl | hi
      · exact lt_of_get? hg
      · exact h.free i hi
    · simp only [List.length_set]
      exact h.bound

-- ============================================================================
-- What the table represents
-- ============================================================================

/-- `len_active`. -/
def ChannelTable.lenActive (t : ChannelTable) : Nat := t.slots.countP Option.isSome

/-- The free list and the slots agree, and every channel knows its slot. -/
structure ChannelTable.Represents (t : ChannelTable) : Prop where
  bound : t.slots.length ≤ t.maxChannels.toNat
  nodup : t.free.Nodup
  empty : ∀ id : UInt32, id ∈ t.free ↔ t.slots[id.toNat]? = some none
  localId : ∀ id ch, t.get? id = some ch → ch.localId = id

/-- What is done to a table. -/
inductive TableOp where
  | alloc (ch : Channel)
  | free (id : UInt32)
  /-- A write through `get_mut`. -/
  | update (id : UInt32) (f : Channel → Channel)

namespace TableOp

/-- A failed `alloc` leaves the state it reached, like any failed call. -/
def apply : TableOp → ChannelTable → ChannelTable
  | alloc ch, t => ((ChannelTable.alloc ch t).state?).getD t
  | free id, t => t.release id
  | update id f, t =>
      match t.get? id with
      | some ch => t.set id (f ch)
      | none => t

/-- An update keeps `local_id`. -/
def KeepsId : TableOp → Prop
  | update _ f => ∀ ch, (f ch).localId = ch.localId
  | _ => True

/-- The table after the operations. -/
def applyAll (ops : List TableOp) (t : ChannelTable) : ChannelTable :=
  ops.foldl (fun t op => op.apply t) t

/-- What the updates of `ops` make of channel `id`, as long as it is not freed. -/
def updated (id : UInt32) : List TableOp → Channel → Channel
  | [], ch => ch
  | update j f :: ops, ch => updated id ops (if j = id then f ch else ch)
  | _ :: ops, ch => updated id ops ch

end TableOp

namespace ChannelTable.Represents

variable {t : ChannelTable} {id : UInt32} {ch : Channel}

theorem new (maxChannels : UInt32) : Represents (.new maxChannels) where
  bound := Nat.zero_le _
  nodup := List.nodup_nil
  empty := by simp [ChannelTable.new]
  localId := by simp [ChannelTable.new, get?]

theorem tableOk (h : Represents t) : TableOk t where
  free := by
    intro id hid
    exact (List.getElem?_eq_some_iff.mp ((h.empty id).mp hid)).1
  bound := h.bound

theorem slot (hch : t.get? id = some ch) : t.slots[id.toNat]? = some (some ch) :=
  Option.join_eq_some_iff.mp hch

theorem lt_of_empty (h : t.slots[id.toNat]? = some none) : id.toNat < t.slots.length :=
  (List.getElem?_eq_some_iff.mp h).1

/-- A write that keeps the id. -/
theorem set (h : Represents t) (hch : t.get? id = some ch) {ch' : Channel}
    (hid : ch'.localId = ch.localId) : Represents (t.set id ch') where
  bound := by
    rw [slots_length_set]
    exact h.bound
  nodup := h.nodup
  empty := by
    intro j
    show j ∈ t.free ↔ (t.slots.set id.toNat (some ch'))[j.toNat]? = some none
    rw [h.empty j]
    by_cases hj : j = id
    · subst hj
      rw [slot hch, List.getElem?_set_self (lt_of_get? hch)]
      simp
    · rw [List.getElem?_set_ne (toNat_ne hj)]
  localId := by
    intro j k hk
    rw [get?_set hch] at hk
    split at hk
    · rename_i hj
      cases hk
      rw [hid, hj]
      exact h.localId id ch hch
    · exact h.localId j k hk

theorem release (h : Represents t) (id : UInt32) : Represents (t.release id) := by
  cases hch : t.get? id with
  | none =>
    rw [release_of_none hch]
    exact h
  | some ch =>
    have hfresh : id ∉ t.free := by
      intro hmem
      have hslot := (h.empty id).mp hmem
      rw [slot hch] at hslot
      cases hslot
    rw [release_of_some hch]
    refine ⟨?_, List.nodup_cons.mpr ⟨hfresh, h.nodup⟩, ?_, ?_⟩
    · show (t.slots.set id.toNat none).length ≤ _
      rw [List.length_set]
      exact h.bound
    · intro j
      show j ∈ id :: t.free ↔ (t.slots.set id.toNat none)[j.toNat]? = some none
      rw [List.mem_cons, h.empty j]
      by_cases hj : j = id
      · subst hj
        simp [List.getElem?_set_self (lt_of_get? hch)]
      · rw [List.getElem?_set_ne (toNat_ne hj)]
        simp [hj]
    · intro j k hk
      have hj : j ≠ id := by
        rintro rfl
        have hnone := get?_release_self t j
        rw [release_of_some hch, hk] at hnone
        cases hnone
      have hsame := get?_release_ne t hj
      rw [release_of_some hch, hk] at hsame
      exact h.localId j k hsame.symm

/-- An index of the slots as an id. -/
theorem toNat_ofNat (h : Represents t) {i : Nat} (hi : i < t.slots.length) :
    (UInt32.ofNat i).toNat = i := by
  have hmax := t.maxChannels.toNat_lt
  have hbound := h.bound
  rw [UInt32.toNat_ofNat', Nat.mod_eq_of_lt (by omega)]

theorem lenActive_le (t : ChannelTable) : t.lenActive ≤ t.slots.length :=
  List.countP_le_length

/-- Without a free id every slot is live. -/
theorem lenActive_of_full (h : Represents t) (hfree : t.free = []) :
    t.lenActive = t.slots.length := by
  refine List.countP_eq_length.mpr fun s hs => ?_
  obtain ⟨i, hi, rfl⟩ := List.getElem_of_mem hs
  cases hslot : t.slots[i] with
  | some ch => rfl
  | none =>
    have hmem : UInt32.ofNat i ∈ t.free := by
      rw [h.empty, h.toNat_ofNat hi, List.getElem?_eq_getElem hi, hslot]
    rw [hfree] at hmem
    cases hmem

/-- With a free id some slot is not. -/
theorem lenActive_of_free (h : Represents t) (hid : id ∈ t.free) :
    t.lenActive < t.slots.length := by
  refine Nat.lt_of_le_of_ne (lenActive_le t) fun heq => ?_
  have hall := List.countP_eq_length.mp heq
  have hnone := hall none (List.mem_of_getElem? ((h.empty id).mp hid))
  cases hnone

theorem placed_localId {t' : ChannelTable} (h : Represents t) (hp : Placed t ch id t') :
    ∀ j k, t'.get? j = some k → k.localId = j := by
  intro j k hk
  by_cases hj : j = id
  · subst hj
    rw [hp.self] at hk
    cases hk
    rfl
  · rw [hp.other j hj] at hk
    exact h.localId j k hk

/-- `alloc` fills an empty slot, or fails because no slot is left. -/
theorem alloc (h : Represents t) (ch : Channel) :
    (ChannelTable.alloc ch t).Sat
      (fun id t' => Represents t' ∧ t.get? id = none ∧ Placed t ch id t' ∧
        t.lenActive < t.maxChannels.toNat ∧ t'.maxChannels = t.maxChannels)
      (fun _ t' => t' = t ∧ t.lenActive = t.maxChannels.toNat) := by
  have hbound := h.bound
  have hplaced := alloc_sat h.tableOk ch
  rcases alloc_cases h.tableOk ch with ⟨id, rest, hf, ha⟩ | ⟨id, hf, hid, hroom, ha⟩ | ⟨hf, hfull, e, ha⟩
  · rw [ha] at hplaced ⊢
    have hmem : id ∈ t.free := by
      rw [hf]
      exact List.mem_cons_self
    have hslot := (h.empty id).mp hmem
    have hlt := lt_of_empty hslot
    have hnodup := h.nodup
    rw [hf, List.nodup_cons] at hnodup
    have hlive := h.lenActive_of_free hmem
    refine ⟨⟨?_, hnodup.2, ?_, ?_⟩, ?_, hplaced, by omega, rfl⟩
    · rw [slots_length_set]
      exact hbound
    · intro j
      show j ∈ rest ↔ (t.slots.set id.toNat (some _))[j.toNat]? = some none
      by_cases hj : j = id
      · subst hj
        simp [List.getElem?_set_self hlt, hnodup.1]
      · have hfree := h.empty j
        rw [hf, List.mem_cons] at hfree
        rw [List.getElem?_set_ne (toNat_ne hj), ← hfree]
        simp [hj]
    · exact placed_localId h hplaced
    · simp only [get?, hslot, Option.join_some]
  · rw [ha] at hplaced ⊢
    have hempty : ∀ j : UInt32, t.slots[j.toNat]? ≠ some none := by
      intro j hj
      have hmem := (h.empty j).mpr hj
      rw [hf] at hmem
      cases hmem
    have hlive := Nat.lt_of_le_of_lt (lenActive_le t) hroom
    refine ⟨⟨?_, ?_, ?_, ?_⟩, ?_, hplaced, hlive, rfl⟩
    · rw [slots_length_set, List.length_append, List.length_singleton]
      exact hroom
    · show t.free.Nodup
      rw [hf]
      exact List.nodup_nil
    · intro j
      show j ∈ t.free ↔ ((t.slots ++ [none]).set id.toNat (some _))[j.toNat]? = some none
      rw [hf, hid]
      have hno : ((t.slots ++ [none]).set t.slots.length
          (some { ch with localId := id }))[j.toNat]? ≠ some none := by
        rw [List.getElem?_set]
        split
        · simp
        · rename_i hne
          by_cases hj : j.toNat < t.slots.length
          · rw [List.getElem?_append_left hj]
            exact hempty j
          · rw [List.getElem?_eq_none (by simp; omega)]
            simp
      exact ⟨fun hmem => absurd hmem List.not_mem_nil, fun heq => absurd heq hno⟩
    · exact placed_localId h hplaced
    · have hnone : t.slots[id.toNat]? = none := List.getElem?_eq_none (by omega)
      simp only [get?, hnone, Option.join_none]
  · rw [ha]
    refine ⟨rfl, ?_⟩
    rw [h.lenActive_of_full hf, hfull]

end ChannelTable.Represents

namespace TableOp

open ChannelTable

variable {t : ChannelTable} {id : UInt32} {ch : Channel} {op : TableOp} {ops : List TableOp}

/-- One operation. -/
theorem represents (h : t.Represents) (hk : op.KeepsId) :
    (op.apply t).Represents ∧ (op.apply t).maxChannels = t.maxChannels := by
  cases op with
  | alloc ch =>
    have hsat := h.alloc ch
    simp only [apply]
    cases ha : ChannelTable.alloc ch t with
    | ok id t' =>
      rw [ha] at hsat
      exact ⟨hsat.1, hsat.2.2.2.2⟩
    | err e t' =>
      rw [ha] at hsat
      rw [show (Outcome.err e t' : Outcome ChannelTable Error UInt32).state?.getD t = t from hsat.1]
      exact ⟨h, rfl⟩
    | panic =>
      exact ⟨h, rfl⟩
  | free id =>
    refine ⟨h.release id, ?_⟩
    simp only [apply, ChannelTable.release]
    split <;> rfl
  | update id f =>
    simp only [apply]
    cases hget : t.get? id with
    | none => exact ⟨h, rfl⟩
    | some ch => exact ⟨h.set hget (hk ch), rfl⟩

/-- One operation that does not free `id`. -/
theorem get?_apply (h : t.Represents) (hget : t.get? id = some ch) (hfree : op ≠ free id) :
    (op.apply t).get? id = some (updated id [op] ch) := by
  cases op with
  | alloc ch' =>
    have hsat := h.alloc ch'
    simp only [apply]
    cases ha : ChannelTable.alloc ch' t with
    | ok j t' =>
      rw [ha] at hsat
      have hne : id ≠ j := by
        rintro rfl
        rw [hsat.2.1] at hget
        cases hget
      exact (hsat.2.2.1.other id hne).trans hget
    | err e t' =>
      rw [ha] at hsat
      exact (congrArg (ChannelTable.get? · id) hsat.1).trans hget
    | panic => exact hget
  | free j =>
    have hne : id ≠ j := by
      rintro rfl
      exact hfree rfl
    exact (get?_release_ne t hne).trans hget
  | update j f =>
    simp only [apply, updated]
    by_cases hj : j = id
    · subst hj
      rw [hget, if_pos rfl]
      exact get?_set_self hget
    · rw [if_neg hj]
      cases hget' : t.get? j with
      | none => exact hget
      | some ch' => exact (get?_set_ne (Ne.symm hj)).trans hget

/-- Any operations. -/
theorem represents_all (ops : List TableOp) (h : t.Represents) (hk : ∀ op ∈ ops, op.KeepsId) :
    (applyAll ops t).Represents ∧ (applyAll ops t).maxChannels = t.maxChannels := by
  induction ops generalizing t with
  | nil => exact ⟨h, rfl⟩
  | cons op ops ih =>
    obtain ⟨h1, hmax⟩ := represents h (hk op List.mem_cons_self)
    obtain ⟨h2, hmax'⟩ := ih h1 fun o ho => hk o (List.mem_cons_of_mem _ ho)
    exact ⟨h2, hmax'.trans hmax⟩

theorem updated_cons (id : UInt32) (op : TableOp) (ops : List TableOp) (ch : Channel) :
    updated id (op :: ops) ch = updated id ops (updated id [op] ch) := by
  cases op <;> rfl

/-- A channel stays in its slot until the slot is freed. -/
theorem get?_applyAll (h : t.Represents) (hget : t.get? id = some ch)
    (hk : ∀ op ∈ ops, op.KeepsId) (hfree : free id ∉ ops) :
    (applyAll ops t).get? id = some (updated id ops ch) := by
  induction ops generalizing t ch with
  | nil => exact hget
  | cons op ops ih =>
    have hop : op ≠ free id := fun heq => hfree (heq ▸ List.mem_cons_self)
    have h1 := (represents h (hk op List.mem_cons_self)).1
    have hlive := ih h1 (get?_apply h hget hop) (fun o ho => hk o (List.mem_cons_of_mem _ ho))
      fun hmem => hfree (List.mem_cons_of_mem _ hmem)
    rw [updated_cons]
    exact hlive

end TableOp

namespace ChannelTable

variable {t : ChannelTable}

/-- `iter_ids` lists the live ids. -/
theorem Represents.mem_iterIds (h : t.Represents) (id : UInt32) :
    id ∈ t.iterIds ↔ (t.get? id).isSome = true := by
  unfold iterIds
  rw [List.mem_filterMap]
  constructor
  · rintro ⟨s, hs, hid⟩
    obtain ⟨i, hi, rfl⟩ := List.getElem_of_mem hs
    cases hslot : t.slots[i] with
    | none =>
      rw [hslot] at hid
      cases hid
    | some ch =>
      rw [hslot] at hid
      have hget : t.get? (UInt32.ofNat i) = some ch := by
        simp only [get?, h.toNat_ofNat hi, List.getElem?_eq_getElem hi, hslot, Option.join_some]
      have hlocal := h.localId _ _ hget
      rw [← Option.some.inj hid, hlocal, hget]
      rfl
  · intro hsome
    obtain ⟨ch, hch⟩ := Option.isSome_iff_exists.mp hsome
    exact ⟨some ch, List.mem_of_getElem? (Represents.slot hch), congrArg some (h.localId id ch hch)⟩

theorem Represents.nodup_iterIds (h : t.Represents) : t.iterIds.Nodup := by
  unfold iterIds
  refine List.pairwise_filterMap.mpr (List.pairwise_iff_getElem.mpr ?_)
  intro i j hi hj hij a ha b hb hab
  have hlocal : ∀ {k : Nat} (hk : k < t.slots.length) {id : UInt32},
      t.slots[k].map Channel.localId = some id → id.toNat = k := by
    intro k hk id hid
    cases hslot : t.slots[k] with
    | none =>
      rw [hslot] at hid
      cases hid
    | some ch =>
      rw [hslot] at hid
      have hget : t.get? (UInt32.ofNat k) = some ch := by
        simp only [get?, h.toNat_ofNat hk, List.getElem?_eq_getElem hk, hslot, Option.join_some]
      rw [← Option.some.inj hid, h.localId _ _ hget, h.toNat_ofNat hk]
  have hia := hlocal hi ha
  have hjb := hlocal hj hb
  rw [hab] at hia
  omega

theorem release_release (t : ChannelTable) (id : UInt32) :
    (t.release id).release id = t.release id :=
  release_of_none (get?_release_self t id)

open TableOp in
/-- The table after any operations: `alloc` gives an id nobody has, and fails
    only when `max_channels` channels are live; the channel stays until it is
    freed; `free` empties its slot and no other; a second `free` does nothing. -/
theorem sequence_represents (maxChannels : UInt32) (ops : List TableOp)
    (hk : ∀ op ∈ ops, op.KeepsId) :
    let t := applyAll ops (.new maxChannels)
    (t.Represents ∧ t.maxChannels = maxChannels) ∧
    (∀ ch, (∃ id t', ChannelTable.alloc ch t = .ok id t' ∧ t.get? id = none ∧
        t.lenActive < maxChannels.toNat ∧
        ∀ later : List TableOp, (∀ op ∈ later, op.KeepsId) → TableOp.free id ∉ later →
          (applyAll later t').get? id = some (updated id later { ch with localId := id })) ∨
      ∃ e, ChannelTable.alloc ch t = .err e t ∧ t.lenActive = maxChannels.toNat) ∧
    (∀ id, (t.release id).get? id = none ∧ ∀ j, j ≠ id → (t.release id).get? j = t.get? j) ∧
    (∀ id, (t.release id).release id = t.release id) ∧
    t.iterIds.Nodup ∧ ∀ id, id ∈ t.iterIds ↔ (t.get? id).isSome = true := by
  intro t
  obtain ⟨h, hmax⟩ : t.Represents ∧ t.maxChannels = maxChannels :=
    represents_all ops (.new maxChannels) hk
  have hfreed : ∀ id, (t.release id).get? id = none ∧
      ∀ j, j ≠ id → (t.release id).get? j = t.get? j :=
    fun id => ⟨get?_release_self t id, fun _ hj => get?_release_ne t hj⟩
  refine ⟨⟨h, hmax⟩, fun ch => ?_, hfreed, release_release t, h.nodup_iterIds, h.mem_iterIds⟩
  have hsat := h.alloc ch
  cases ha : ChannelTable.alloc ch t with
  | ok id t' =>
    rw [ha] at hsat
    obtain ⟨h', hnone, hplaced, hlt, -⟩ := hsat
    rw [hmax] at hlt
    exact .inl ⟨id, t', rfl, hnone, hlt, fun later hlater hfree =>
      get?_applyAll h' hplaced.self hlater hfree⟩
  | err e t' =>
    rw [ha] at hsat
    obtain ⟨rfl, hfull⟩ := hsat
    exact .inr ⟨e, rfl, hfull.trans (congrArg UInt32.toNat hmax)⟩
  | panic =>
    rw [ha] at hsat
    exact hsat.elim

/-- Two ids given away, the second freed twice and given away again. -/
def freedTwice : List TableOp :=
  [.alloc (.new 0 .session 1 1 1 1), .alloc (.new 0 .session 2 2 2 2), .free 1, .free 1,
    .alloc (.new 0 .session 3 3 3 3)]

theorem sequence_represents_freedTwice :
    (TableOp.applyAll freedTwice (.new 2)).iterIds = [0, 1] ∧
      (TableOp.applyAll freedTwice (.new 2)).Represents ∧
      ((TableOp.applyAll freedTwice (.new 2)).release 1).get? 1 = none := by
  have h := sequence_represents 2 freedTwice (by simp [freedTwice, TableOp.KeepsId])
  exact ⟨by decide, h.1.1, (h.2.2.1 1).1⟩

end ChannelTable

end Ssproxy
