import Mathlib.Data.List.Perm.Basic
import Mathlib.Data.List.Nodup

namespace NexusSfu.Base

open List

variable {α : Type*} {l : List α} {i cap : Nat} {x : α} {p : α → Bool}

def swapRemove (l : List α) (i : Nat) : List α :=
  match l.getLast? with
  | none => []
  | some last => (l.set i last).dropLast

theorem swapRemove_perm (hi : i < l.length) : (swapRemove l i).Perm (l.eraseIdx i) := by
  obtain ⟨init, last, rfl⟩ : ∃ init last, l = init ++ [last] :=
    ⟨l.dropLast, l.getLast (by rintro rfl; simp at hi), (dropLast_append_getLast _).symm⟩
  simp only [length_append, length_singleton] at hi
  simp only [swapRemove, getLast?_append, getLast?_singleton, Option.some_or]
  by_cases hlt : i < init.length
  · rw [set_append_left _ _ hlt, dropLast_concat, eraseIdx_append_of_lt_length hlt]
    exact (set_perm_cons_eraseIdx hlt last).trans (perm_append_singleton _ _).symm
  · obtain rfl : i = init.length := by omega
    rw [set_append_right _ _ (Nat.le_refl _), eraseIdx_append_of_length_le (Nat.le_refl _)]
    simp

theorem length_swapRemove (hi : i < l.length) : (swapRemove l i).length + 1 = l.length := by
  rw [(swapRemove_perm hi).length_eq, length_eraseIdx_add_one hi]

theorem getElem?_of_swapRemove {j : Nat} (hj : j < i) (h : (swapRemove l i)[j]? = some x) :
    l[j]? = some x := by
  rw [swapRemove] at h
  cases hlast : l.getLast? with
  | none => simp [hlast] at h
  | some last =>
    simp only [hlast, getElem?_dropLast] at h
    split_ifs at h
    rwa [getElem?_set_ne (Nat.ne_of_gt hj)] at h

@[ext]
structure FixedVec (α : Type*) (cap : Nat) where
  items : List α
  length_le : items.length ≤ cap
  deriving DecidableEq

namespace FixedVec

variable {v : FixedVec α cap}

def new : FixedVec α cap := ⟨[], Nat.zero_le cap⟩

def push (v : FixedVec α cap) (x : α) : Bool × FixedVec α cap :=
  if h : v.items.length < cap then (true, ⟨v.items ++ [x], by simpa [Nat.succ_le_iff] using h⟩)
  else (false, v)

def swapRemoveWhere (v : FixedVec α cap) (p : α → Bool) : Option α × FixedVec α cap :=
  match h : v.items.findIdx? p with
  | none => (none, v)
  | some i => (v.items[i]?, ⟨swapRemove v.items i, by
      have hi := (findIdx?_eq_some_iff_findIdx_eq.1 h).1
      have hlen := length_swapRemove hi
      have := v.length_le
      omega⟩)

theorem push_of_lt (h : v.items.length < cap) :
    (v.push x).1 = true ∧ (v.push x).2.items = v.items ++ [x] := by
  simp [push, h]

theorem swapRemoveWhere_none (h : ∀ a ∈ v.items, p a = false) :
    v.swapRemoveWhere p = (none, v) := by
  rw [swapRemoveWhere]
  split
  · rfl
  · rename_i i hi
    obtain ⟨hlt, hfind⟩ := findIdx?_eq_some_iff_findIdx_eq.1 hi
    have hp := findIdx_getElem (w := hfind ▸ hlt)
    rw [h _ (getElem_mem _)] at hp
    cases hp

theorem swapRemoveWhere_some (h : ∃ a ∈ v.items, p a = true) :
    ∃ a, p a = true ∧ (v.swapRemoveWhere p).1 = some a ∧
      v.items.Perm (a :: (v.swapRemoveWhere p).2.items) := by
  rw [swapRemoveWhere]
  split
  · rename_i hnone
    obtain ⟨a, ha, hp⟩ := h
    simp [findIdx?_eq_none_iff.1 hnone a ha] at hp
  · rename_i i hi
    obtain ⟨hlt, hfind⟩ := findIdx?_eq_some_iff_findIdx_eq.1 hi
    subst hfind
    refine ⟨_, findIdx_getElem (w := hlt), getElem?_eq_getElem hlt, ?_⟩
    exact (getElem_cons_eraseIdx_perm hlt).symm.trans ((swapRemove_perm hlt).symm.cons _)

end FixedVec
end NexusSfu.Base
