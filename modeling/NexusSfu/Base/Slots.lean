import Mathlib.Data.Fintype.Card

namespace NexusSfu.Base

open Function Finset

variable {α : Type*} {n : Nat} {s : Fin n → α} {p : α → Bool} {i : Fin n}

def position (s : Fin n → α) (p : α → Bool) : Option (Fin n) :=
  (List.finRange n).find? fun i => p (s i)

def count (s : Fin n → α) (p : α → Bool) : Nat :=
  (Finset.univ.filter fun i => p (s i) = true).card

theorem position_some (h : position s p = some i) : p (s i) = true := by
  simpa using List.find?_some h

theorem position_eq_none : position s p = none ↔ ∀ i, p (s i) = false := by
  simp [position]

theorem exists_position (h : p (s i) = true) : ∃ j, position s p = some j := by
  rcases hp : position s p with - | j
  · simp [position_eq_none.1 hp i] at h
  · exact ⟨j, rfl⟩

theorem position_of_unique (h : p (s i) = true) (hu : ∀ j, p (s j) = true → j = i) :
    position s p = some i := by
  obtain ⟨j, hj⟩ := exists_position h
  rw [hj, hu j (position_some hj)]

theorem position_update {x : α} (h : p x = p (s i)) :
    position (update s i x) p = position s p := by
  have hp : (fun j => p (update s i x j)) = fun j => p (s j) := by
    funext j
    by_cases hj : j = i
    · subst hj
      simpa using h
    · simp [hj]
  rw [position, position, hp]

theorem count_eq_one (h : p (s i) = true) (hu : ∀ j, p (s j) = true → j = i) :
    count s p = 1 := by
  rw [count, card_eq_one]
  refine ⟨i, Finset.ext fun j => ?_⟩
  simp only [mem_filter, mem_univ, true_and, mem_singleton]
  exact ⟨hu j, fun e => e ▸ h⟩

theorem count_mono {t : Fin n → α} (h : ∀ i, p (t i) = true → p (s i) = true) :
    count t p ≤ count s p := by
  refine card_le_card fun i hi => ?_
  rw [mem_filter] at hi ⊢
  exact ⟨hi.1, h i hi.2⟩

theorem count_update_le (x : α) : count (update s i x) p ≤ count s p + 1 := by
  refine (card_le_card ?_).trans (card_insert_le i _)
  intro j hj
  rw [mem_filter] at hj
  rw [mem_insert, mem_filter]
  by_cases hji : j = i
  · exact .inl hji
  · rw [update_of_ne hji] at hj
    exact .inr hj

end NexusSfu.Base
