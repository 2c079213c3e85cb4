import Mathlib.Data.List.Basic
import Mathlib.Order.Nat

/-!
Items that are renumbered as they come, mostly in order: each has a number `p` where it comes from
and a number `q` where it goes to, and a shift between the two that only closes gaps.
-/

namespace NexusSfu.Base

open List

variable {α : Type*} {p q : α → Nat} {log : List α} {e f l x : α}

def SameShift (p q : α → Nat) (e f : α) : Prop := q e + p f = q f + p e

instance : Decidable (SameShift p q e f) := inferInstanceAs (Decidable (_ = _))

/-- `l` is the last item, and of two items the later one goes out later by at most as much as it
came later. -/
structure Renumbers (p q : α → Nat) (log : List α) (l : α) : Prop where
  mem : l ∈ log
  le : ∀ e ∈ log, p e ≤ p l
  distinct : ∀ e ∈ log, ∀ f ∈ log, p e = p f → e = f
  closes : ∀ e ∈ log, ∀ f ∈ log, p e < p f → q e < q f ∧ q f + p e ≤ q e + p f

namespace Renumbers

theorem lt_iff (h : Renumbers p q log l) (he : e ∈ log) (hf : f ∈ log) :
    p e < p f ↔ q e < q f := by
  rcases Nat.lt_trichotomy (p e) (p f) with hlt | heq | hgt
  · have := (h.closes e he f hf hlt).1
    omega
  · obtain rfl := h.distinct e he f hf heq
    simp
  · have := (h.closes f hf e he hgt).1
    omega

theorem eq_or_lt (h : Renumbers p q log l) (he : e ∈ log) : e = l ∨ p e < p l := by
  rcases Nat.eq_or_lt_of_le (h.le e he) with heq | hlt
  · exact .inl (h.distinct e he l h.mem heq)
  · exact .inr hlt

theorem sameShift_of_le (h : Renumbers p q log l) (he : e ∈ log) (hs : SameShift p q e l)
    (hf : f ∈ log) (hle : p e ≤ p f) : SameShift p q f l := by
  simp only [SameShift] at *
  rcases Nat.eq_or_lt_of_le hle with heq | hlt
  · obtain rfl := h.distinct e he f hf heq
    exact hs
  rcases h.eq_or_lt hf with rfl | hfl
  · rfl
  have := h.closes e he f hf hlt
  have := h.closes f hf l h.mem hfl
  omega

theorem singleton (x : α) : Renumbers p q [x] x where
  mem := mem_singleton_self x
  le := by simp
  distinct := by simp
  closes := by simp

section Cons

theorem cons (h : Renumbers p q log l) {l' : α} (hmem : l' ∈ x :: log)
    (hle : ∀ e ∈ x :: log, p e ≤ p l') (hx : ∀ e ∈ log, p e ≠ p x)
    (hbelow : ∀ e ∈ log, p e < p x → q e < q x ∧ q x + p e ≤ q e + p x)
    (habove : ∀ e ∈ log, p x < p e → q x < q e ∧ q e + p x ≤ q x + p e) :
    Renumbers p q (x :: log) l' where
  mem := hmem
  le := hle
  distinct e he f hf hef := by
    rcases mem_cons.1 he with rfl | he' <;> rcases mem_cons.1 hf with rfl | hf'
    · rfl
    · exact absurd hef.symm (hx f hf')
    · exact absurd hef (hx e he')
    · exact h.distinct e he' f hf' hef
  closes e he f hf hef := by
    rcases mem_cons.1 he with rfl | he' <;> rcases mem_cons.1 hf with rfl | hf'
    · exact absurd hef (Nat.lt_irrefl _)
    · exact habove f hf' hef
    · exact hbelow e he' hef
    · exact h.closes e he' f hf' hef

theorem newer (h : Renumbers p q log l) (hp : p l < p x) (hq : q l < q x)
    (hgap : q x + p l ≤ q l + p x) : Renumbers p q (x :: log) x := by
  have hlt : ∀ e ∈ log, p e < p x := fun e he => Nat.lt_of_le_of_lt (h.le e he) hp
  apply h.cons mem_cons_self
  · intro e he
    rcases mem_cons.1 he with rfl | he
    · exact le_rfl
    · exact (hlt e he).le
  · exact fun e he => (hlt e he).ne
  · intro e he _
    rcases h.eq_or_lt he with rfl | hel
    · exact ⟨hq, hgap⟩
    · have := h.closes e he l h.mem hel
      omega
  · exact fun e he hex => absurd (hlt e he) (by omega)

theorem late (h : Renumbers p q log l) (hp : p x < p l) (hx : ∀ e ∈ log, p e ≠ p x)
    (hs : SameShift p q x l)
    (hsettled : (∀ e ∈ log, SameShift p q e l) ∨ ∃ e ∈ log, p e < p x ∧
      SameShift p q e l) :
    Renumbers p q (x :: log) l := by
  have habove : ∀ f ∈ log, p x < p f → SameShift p q f l := by
    intro f hf hxf
    rcases hsettled with hall | ⟨e, he, hex, hel⟩
    · exact hall f hf
    · exact h.sameShift_of_le he hel hf (by omega)
  apply h.cons (mem_cons_of_mem x h.mem)
  · intro e he
    rcases mem_cons.1 he with rfl | he
    · exact hp.le
    · exact h.le e he
  · exact hx
  · intro f hf hfx
    rcases hsettled with hall | ⟨e, he, hex, hel⟩
    · have := hall f hf
      simp only [SameShift] at *
      omega
    · rcases Nat.lt_or_ge (p f) (p e) with hfe | hef
      · have := h.closes f hf e he hfe
        simp only [SameShift] at *
        omega
      · have := h.sameShift_of_le he hel hf hef
        simp only [SameShift] at *
        omega
  · intro f hf hxf
    have := habove f hf hxf
    simp only [SameShift] at *
    omega

end Cons
end Renumbers
end NexusSfu.Base
