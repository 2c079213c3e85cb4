import Mathlib.Data.List.Chain
import Mathlib.Algebra.BigOperators.Group.List.Basic
import Mathlib.Algebra.Ring.Nat

namespace NexusSfu.Base

open List

variable {α : Type*} (size : α → Nat) (cap : Nat)

def total (g : List α) : Nat := (g.map size).sum

def put (gs : List (List α)) (a : α) : List (List α) :=
  match gs.getLast? with
  | some g => if total size g + size a ≤ cap then gs.dropLast ++ [g ++ [a]] else gs ++ [[a]]
  | none => gs ++ [[a]]

def pack (as : List α) : List (List α) := as.foldl (put size cap) []

/-- No group is empty, only a single item may be too large, and no group has room for the first
item of the next. -/
structure Packed (gs : List (List α)) : Prop where
  ne_nil : ∀ g ∈ gs, g ≠ []
  fits : ∀ g ∈ gs, total size g ≤ cap ∨ ∃ a, g = [a]
  tight : gs.IsChain fun g g' => ∀ a ∈ g'.head?, cap < total size g + size a

variable {size cap} {gs : List (List α)} {g : List α} {a : α}

@[simp] theorem total_nil : total size ([] : List α) = 0 := rfl

@[simp] theorem total_cons : total size (a :: g) = size a + total size g := sum_cons

@[simp] theorem total_append {g' : List α} :
    total size (g ++ g') = total size g + total size g' := by
  simp [total]

theorem put_nil : put size cap [] a = [[a]] := rfl

theorem put_concat : put size cap (gs ++ [g]) a =
    if total size g + size a ≤ cap then gs ++ [g ++ [a]] else gs ++ [g] ++ [[a]] := by
  simp [put]

theorem flatten_put (gs : List (List α)) (a : α) :
    (put size cap gs a).flatten = gs.flatten ++ [a] := by
  induction gs using List.reverseRecOn with
  | nil => rfl
  | append_singleton gs g _ =>
    rw [put_concat]
    split_ifs <;> simp

theorem Packed.put (h : Packed size cap gs) (a : α) : Packed size cap (put size cap gs a) := by
  induction gs using List.reverseRecOn with
  | nil => exact ⟨by simp [put_nil], by simp [put_nil], isChain_singleton _⟩
  | append_singleton gs g _ =>
    have hg : g ≠ [] := h.ne_nil g (by simp)
    obtain ⟨hchain, -, hlast⟩ := isChain_append.1 h.tight
    rw [put_concat]
    by_cases hroom : total size g + size a ≤ cap
    · rw [if_pos hroom]
      refine ⟨fun x hx => ?_, fun x hx => ?_, hchain.append (isChain_singleton _) ?_⟩
      · rcases mem_append.1 hx with hx | hx
        · exact h.ne_nil x (mem_append_left _ hx)
        · rw [mem_singleton.1 hx]
          simp
      · rcases mem_append.1 hx with hx | hx
        · exact h.fits x (mem_append_left _ hx)
        · rw [mem_singleton.1 hx]
          exact .inl (by simpa using hroom)
      · intro x hx y hy b hb
        cases Option.some.inj hy
        rw [head?_append_of_ne_nil _ hg] at hb
        exact hlast x hx g rfl b hb
    · rw [if_neg hroom]
      refine ⟨fun x hx => ?_, fun x hx => ?_, h.tight.append (isChain_singleton _) ?_⟩
      · rcases mem_append.1 hx with hx | hx
        · exact h.ne_nil x hx
        · rw [mem_singleton.1 hx]
          simp
      · rcases mem_append.1 hx with hx | hx
        · exact h.fits x hx
        · exact .inr ⟨a, mem_singleton.1 hx⟩
      · intro x hx y hy b hb
        rw [getLast?_concat] at hx
        cases hx
        cases hy
        cases hb
        exact not_le.1 hroom

theorem packed_foldl (h : Packed size cap gs) (as : List α) :
    Packed size cap (as.foldl (NexusSfu.Base.put size cap) gs) := by
  induction as generalizing gs with
  | nil => exact h
  | cons a as ih => exact ih (h.put a)

theorem flatten_foldl (as : List α) : (as.foldl (put size cap) gs).flatten = gs.flatten ++ as := by
  induction as generalizing gs with
  | nil => simp
  | cons a as ih => rw [foldl_cons, ih, flatten_put, append_assoc, singleton_append]

theorem packed_pack (as : List α) : Packed size cap (pack size cap as) :=
  packed_foldl ⟨by simp, by simp, isChain_nil⟩ as

theorem flatten_pack (as : List α) : (pack size cap as).flatten = as := flatten_foldl as

end NexusSfu.Base
