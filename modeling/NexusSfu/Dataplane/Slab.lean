import Mathlib.Data.Finset.Card
import Mathlib.Algebra.Ring.Nat

/-!
Slab storage with generations. The free list, the empty slots and the count agree by construction;
an operation that would panic gives `none`.
-/

namespace NexusSfu.Dataplane

open Function Option

structure Key where
  index : Nat
  gen : UInt32
  deriving DecidableEq, Repr

structure Slot (α : Type*) where
  gen : UInt32
  value : Option α

structure Slab (α : Type*) where
  slots : List (Slot α)
  free : List Nat
  len : Nat
  free_nodup : free.Nodup
  mem_free : ∀ i, i ∈ free ↔ ∃ g, slots[i]? = some ⟨g, none⟩
  len_add_free : len + free.length = slots.length

namespace Slab

variable {α : Type*} {s s' : Slab α} {k k' : Key} {v old : α} {i : Nat} {gen : UInt32}

def new : Slab α := ⟨[], [], 0, .nil, by simp, rfl⟩

def slotCount (s : Slab α) : Nat := s.slots.length

def keyAt (s : Slab α) (index : Nat) : Option Key :=
  match s.slots[index]? with
  | some ⟨gen, some _⟩ => some ⟨index, gen⟩
  | _ => none

def get (s : Slab α) (k : Key) : Option α :=
  match s.slots[k.index]? with
  | some ⟨gen, value⟩ => if gen = k.gen then value else none
  | none => none

theorem get_eq_some : s.get k = some v ↔ s.slots[k.index]? = some ⟨k.gen, some v⟩ := by
  rw [get]
  cases s.slots[k.index]? with
  | none => simp
  | some x =>
    cases x
    simp only [Option.some.injEq, Slot.mk.injEq]
    split_ifs <;> simp_all

theorem notMem_free (h : s.slots[i]? = some ⟨gen, some v⟩) : i ∉ s.free := by
  intro hi
  obtain ⟨g, hg⟩ := (s.mem_free i).1 hi
  simp [h] at hg

theorem free_lt (h : i ∈ s.free) : i < s.slots.length := by
  obtain ⟨g, hg⟩ := (s.mem_free i).1 h
  exact (List.getElem?_eq_some_iff.1 hg).1

theorem length_free_lt (hi : i < s.slots.length) (hfree : i ∉ s.free) :
    s.free.length < s.slots.length := by
  have hsub : i :: s.free ⊆ List.range s.slots.length := by
    intro j hj
    cases List.mem_cons.1 hj with
    | inl h => exact List.mem_range.2 (h ▸ hi)
    | inr h => exact List.mem_range.2 (free_lt h)
  have hnodup : (i :: s.free).Nodup := List.nodup_cons.2 ⟨hfree, s.free_nodup⟩
  have hlen := (hnodup.subperm hsub).length_le
  simp only [List.length_cons, List.length_range] at hlen
  omega

def updated (s : Slab α) (h : s.get k = some old) (v : α) : Slab α where
  slots := s.slots.set k.index ⟨k.gen, some v⟩
  free := s.free
  len := s.len
  free_nodup := s.free_nodup
  mem_free j := by
    rw [get_eq_some] at h
    rw [s.mem_free, List.getElem?_set]
    by_cases hj : k.index = j
    · subst hj
      rw [h]
      simp only [if_true]
      grind
    · simp [hj]
  len_add_free := by simpa using s.len_add_free

def set (s : Slab α) (k : Key) (v : α) : Option (Slab α) :=
  match h : s.get k with
  | some _ => some (s.updated h v)
  | none => none

def pushed (s : Slab α) (v : α) : Slab α where
  slots := s.slots ++ [⟨0, some v⟩]
  free := s.free
  len := s.len + 1
  free_nodup := s.free_nodup
  mem_free i := by
    rw [s.mem_free, List.getElem?_append]
    split_ifs with hi
    · rfl
    · rw [List.getElem?_eq_none (by omega), List.getElem?_singleton]
      split_ifs <;> simp
  len_add_free := by
    have := s.len_add_free
    simp
    omega

def reused (s : Slab α) {rest : List Nat} (h : s.free = i :: rest) (gen : UInt32) (v : α) :
    Slab α where
  slots := s.slots.set i ⟨gen, some v⟩
  free := rest
  len := s.len + 1
  free_nodup := (List.nodup_cons.1 (h ▸ s.free_nodup)).2
  mem_free j := by
    have hi := (List.nodup_cons.1 (h ▸ s.free_nodup)).1
    have hmem := s.mem_free j
    rw [h, List.mem_cons] at hmem
    rw [List.getElem?_set]
    by_cases hj : i = j
    · subst hj
      simp only [hi, false_iff, if_true]
      grind
    · have hne : j ≠ i := fun e => hj e.symm
      simpa [hj, hne] using hmem
  len_add_free := by
    have := s.len_add_free
    rw [h] at this
    simp at this ⊢
    omega

def insert (s : Slab α) (v : α) : Option (Key × Slab α) :=
  match h : s.free with
  | i :: _ =>
    match s.slots[i]? with
    | some ⟨gen, none⟩ => some (⟨i, gen + 1⟩, s.reused h (gen + 1) v)
    | _ => none
  | [] =>
    if s.slots.length < 2 ^ 32 then some (⟨s.slots.length, 0⟩, s.pushed v) else none

def emptied (s : Slab α) (h : s.get k = some old) : Slab α where
  slots := s.slots.set k.index ⟨k.gen, none⟩
  free := k.index :: s.free
  len := s.len - 1
  free_nodup := List.nodup_cons.2 ⟨notMem_free (get_eq_some.1 h), s.free_nodup⟩
  mem_free j := by
    have hi := (List.getElem?_eq_some_iff.1 (get_eq_some.1 h)).1
    rw [List.mem_cons, s.mem_free, List.getElem?_set]
    by_cases hj : k.index = j
    · subst hj
      simp [hi]
    · have hne : j ≠ k.index := fun e => hj e.symm
      simp [hj, hne]
  len_add_free := by
    have hget := get_eq_some.1 h
    have hlen := s.len_add_free
    have hlt := length_free_lt (List.getElem?_eq_some_iff.1 hget).1 (notMem_free hget)
    simp
    omega

def remove (s : Slab α) (k : Key) : Option (α × Slab α) :=
  match h : s.get k with
  | some v => some (v, s.emptied h)
  | none => none

@[simp] theorem get_new : (new : Slab α).get k = none := rfl

theorem get_of_set {value : Option α} (hi : k.index < s.slots.length)
    (hs : s'.slots = s.slots.set k.index ⟨k.gen, value⟩) :
    s'.get k' = if k' = k then value else if k'.index = k.index then none else s.get k' := by
  rw [get, hs, List.getElem?_set]
  by_cases hk : k.index = k'.index
  · by_cases hg : k.gen = k'.gen
    · have : k' = k := by cases k; cases k'; simp_all
      simp [this, hi]
    · have hne : k' ≠ k := fun e => hg (e ▸ rfl)
      simp [hk, hk ▸ hi, hg, hne]
  · have hne : k' ≠ k := fun e => hk (e ▸ rfl)
    simp [hk, hne, get, Ne.symm hk]

theorem get_eq_none_of_index (h : s.get k = some old) (hi : k'.index = k.index) (hk : k' ≠ k) :
    s.get k' = none := by
  have hg : k.gen ≠ k'.gen := fun e => hk (by cases k; cases k'; simp_all)
  rw [get, hi, get_eq_some.1 h]
  simp [hg]

structure Wrote (s : Slab α) (k : Key) (v : α) (s' : Slab α) : Prop where
  get : s'.get = update s.get k (some v)
  len : s'.len = s.len
  slotCount : s'.slotCount = s.slotCount

theorem Wrote.refl {v : α} (h : s.get k = some v) : s.Wrote k v s :=
  ⟨(update_eq_self_iff.2 h.symm).symm, rfl, rfl⟩

theorem Wrote.trans {s'' : Slab α} {v w : α} (h : s.Wrote k v s') (h' : s'.Wrote k w s'') :
    s.Wrote k w s'' :=
  ⟨by rw [h'.get, h.get, update_idem], h'.len.trans h.len, h'.slotCount.trans h.slotCount⟩

theorem Wrote.get_self {v : α} (h : s.Wrote k v s') : s'.get k = some v := by
  rw [h.get, update_self]

theorem set_spec (h : s.get k = some old) (v : α) :
    ∃ s', s.set k v = some s' ∧ s.Wrote k v s' := by
  refine ⟨s.updated h v, ?_, funext fun k' => ?_, rfl, by simp [updated, slotCount]⟩
  · rw [set]
    split
    · rfl
    · simp_all
  · rw [get_of_set (List.getElem?_eq_some_iff.1 (get_eq_some.1 h)).1 rfl, update_apply]
    split_ifs with hk hi
    · rfl
    · rw [get_eq_none_of_index h hi hk]
    · rfl

theorem remove_spec (h : s.get k = some old) :
    ∃ s', s.remove k = some (old, s') ∧ s'.len + 1 = s.len ∧ s'.slotCount = s.slotCount ∧
      s'.get = update s.get k none := by
  have hget := get_eq_some.1 h
  have hi := (List.getElem?_eq_some_iff.1 hget).1
  refine ⟨s.emptied h, ?_, ?_, by simp [emptied, slotCount], funext fun k' => ?_⟩
  · rw [remove]
    split
    · rename_i w hw
      obtain rfl := Option.some.inj (hw.symm.trans h)
      rfl
    · simp_all
  · have hlen := s.len_add_free
    have hlt := length_free_lt hi (notMem_free hget)
    simp only [emptied]
    omega
  · rw [get_of_set hi rfl, update_apply]
    split_ifs with hk hi
    · rfl
    · rw [get_eq_none_of_index h hi hk]
    · rfl

theorem insert_spec (h : s.len < 2 ^ 32) (v : α) :
    ∃ k s', s.insert v = some (k, s') ∧ s.get k = none ∧ s'.len = s.len + 1 ∧
      s'.slotCount ≤ max s.slotCount (s.len + 1) ∧ s'.get = update s.get k (some v) := by
  cases hf : s.free with
  | nil =>
    have hlen := s.len_add_free
    rw [hf, List.length_nil, Nat.add_zero] at hlen
    refine ⟨⟨s.slots.length, 0⟩, s.pushed v, ?_, ?_, rfl, ?_, funext fun k' => ?_⟩
    · rw [insert]
      split
      · simp_all
      · rw [if_pos (by omega)]
    · simp [get]
    · simp [pushed, slotCount]
      omega
    · simp only [update_apply, get, pushed, List.getElem?_append]
      by_cases hlt : k'.index < s.slots.length
      · have hne : k' ≠ ⟨s.slots.length, 0⟩ := fun e => by simp [e] at hlt
        simp [hlt, hne]
      · by_cases heq : k' = ⟨s.slots.length, 0⟩
        · simp [heq]
        · have hnone : s.slots[k'.index]? = none := List.getElem?_eq_none (by omega)
          rw [if_neg hlt, List.getElem?_singleton, if_neg heq, hnone]
          split_ifs with hz
          · have hidx : k'.index = s.slots.length := by omega
            have hgen : (0 : UInt32) ≠ k'.gen := fun e => heq (by cases k'; simp_all)
            simp [hgen]
          · rfl
  | cons i rest =>
    obtain ⟨gen, hslot⟩ := (s.mem_free i).1 (by simp [hf])
    have hi := (List.getElem?_eq_some_iff.1 hslot).1
    refine ⟨⟨i, gen + 1⟩, s.reused hf (gen + 1) v, ?_, ?_, rfl, ?_, funext fun k' => ?_⟩
    · rw [insert]
      split
      · rename_i j rest' hf'
        obtain ⟨rfl, rfl⟩ := List.cons.inj (hf.symm.trans hf')
        simp only [hslot]
      · simp_all
    · simp [get, hslot]
    · simp only [reused, slotCount, List.length_set]
      exact Nat.le_max_left _ _
    · rw [get_of_set (k := ⟨i, gen + 1⟩) hi rfl, update_apply]
      split_ifs with hk hi
      · rfl
      · rw [get, hi, hslot]
        simp
      · rfl

theorem keyAt_eq_some : s.keyAt i = some k ↔ k.index = i ∧ (s.get k).isSome := by
  rw [keyAt, get]
  constructor
  · intro h
    split at h
    · rename_i hslot
      cases h
      simp [hslot]
    · cases h
  · rintro ⟨rfl, h⟩
    split at h
    · rename_i g value hslot
      rw [hslot]
      split_ifs at h with hg
      · subst hg
        cases value with
        | none => cases h
        | some v => rfl
      · cases h
    · cases h

def keys (s : Slab α) : Finset Key := ((List.range s.slotCount).filterMap s.keyAt).toFinset

theorem index_lt (h : (s.get k).isSome) : k.index < s.slotCount := by
  obtain ⟨v, hv⟩ := isSome_iff_exists.1 h
  exact (List.getElem?_eq_some_iff.1 (get_eq_some.1 hv)).1

theorem mem_keys : k ∈ s.keys ↔ (s.get k).isSome := by
  simp only [keys, List.mem_toFinset, List.mem_filterMap, List.mem_range]
  constructor
  · rintro ⟨i, -, hi⟩
    exact (keyAt_eq_some.1 hi).2
  · intro h
    exact ⟨k.index, index_lt h, keyAt_eq_some.2 ⟨rfl, h⟩⟩

theorem image_index_keys : s.keys.image Key.index = Finset.range s.slotCount \ s.free.toFinset := by
  ext i
  simp only [Finset.mem_image, mem_keys, Finset.mem_sdiff, Finset.mem_range, List.mem_toFinset]
  constructor
  · rintro ⟨k, hk, rfl⟩
    obtain ⟨v, hv⟩ := isSome_iff_exists.1 hk
    exact ⟨index_lt hk, notMem_free (get_eq_some.1 hv)⟩
  · rintro ⟨hi, hfree⟩
    cases hslot : s.slots[i]? with
    | none => exact absurd hi (by simpa [slotCount] using hslot)
    | some slot =>
      obtain ⟨g, value⟩ := slot
      cases value with
      | none => exact absurd ((s.mem_free i).2 ⟨g, hslot⟩) hfree
      | some v => exact ⟨⟨i, g⟩, by simp [get, hslot], rfl⟩

theorem card_keys (s : Slab α) : s.keys.card = s.len := by
  have hinj : Set.InjOn Key.index (s.keys : Set Key) := by
    intro k hk k' hk' e
    obtain ⟨v, hv⟩ := isSome_iff_exists.1 (mem_keys.1 (Finset.mem_coe.1 hk))
    by_contra hne
    have hnone := get_eq_none_of_index hv e.symm (Ne.symm hne)
    simp [mem_keys, hnone] at hk'
  have hsub : s.free.toFinset ⊆ Finset.range s.slotCount := fun i hi =>
    Finset.mem_range.2 (free_lt (List.mem_toFinset.1 hi))
  rw [← Finset.card_image_of_injOn hinj, image_index_keys, Finset.card_sdiff_of_subset hsub,
    Finset.card_range, List.toFinset_card_of_nodup s.free_nodup]
  have := s.len_add_free
  rw [slotCount]
  omega

end Slab
end NexusSfu.Dataplane
