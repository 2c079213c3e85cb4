import Mathlib.Algebra.Order.BigOperators.Group.Finset
import Mathlib.Data.Finmap

/-!
Tables that refer to each other: an index that names the entries of a store, and stores whose
entries list the entries they own. Everything is stated on partial maps, which an operation
changes at one key.
-/

namespace NexusSfu.Base

open Function Option Finset

variable {ι κ κ' α β : Type*}

section Project

variable {get : κ → Option α} {k : κ} {v old : α}

def project (get : κ → Option α) (f : α → β) : κ → Option β := fun k => (get k).map f

@[simp] theorem project_apply (f : α → β) : project get f k = (get k).map f := rfl

theorem project_project {γ : Type*} (f : α → β) (g : β → γ) :
    project (project get f) g = project get (g ∘ f) := by
  funext j
  simp

variable [DecidableEq κ]

@[simp] theorem project_update (f : α → β) :
    project (update get k (some v)) f = update (project get f) k (some (f v)) := by
  funext j
  by_cases hj : j = k
  · subst hj
    simp
  · simp [hj]

@[simp] theorem project_update_none (f : α → β) :
    project (update get k none) f = update (project get f) k none := by
  funext j
  by_cases hj : j = k
  · subst hj
    simp
  · simp [hj]

theorem project_set {get' : κ → Option α} (f : α → β) (hget : get' = update get k (some v))
    (hk : get k = some old) (hf : f v = f old) : project get' f = project get f := by
  rw [hget, project_update, hf]
  exact update_eq_self_iff.2 (by simp [hk])

end Project

section Finmap

variable [DecidableEq ι] (m : Finmap fun _ : ι => κ) (i : ι)

theorem lookup_insert (k : κ) : (m.insert i k).lookup = update m.lookup i (some k) := by
  funext j
  by_cases hj : j = i
  · subst hj
    simp
  · simp [hj, Finmap.lookup_insert_of_ne _ hj]

theorem lookup_erase : (m.erase i).lookup = update m.lookup i none := by
  funext j
  by_cases hj : j = i
  · subst hj
    simp
  · simp [hj, Finmap.lookup_erase_ne hj]

end Finmap

section Inverse

variable {m : ι → Option κ} {name : κ → Option ι} {i : ι} {k : κ}

def Inverse (m : ι → Option κ) (name : κ → Option ι) : Prop :=
  ∀ i k, m i = some k ↔ name k = some i

theorem Inverse.card_eq (h : Inverse m name) {names : Finset ι} {entries : Finset κ}
    (hn : ∀ i, i ∈ names ↔ (m i).isSome) (he : ∀ k, k ∈ entries ↔ (name k).isSome) :
    names.card = entries.card := by
  refine card_bij (fun i hi => (m i).get ((hn i).1 hi)) ?_ ?_ ?_
  · intro i hi
    rw [he, (h i _).1 (some_get _).symm]
    rfl
  · intro i hi j hj e
    have hmi := (h i _).1 (some_get ((hn i).1 hi)).symm
    have hmj := (h j _).1 (some_get ((hn j).1 hj)).symm
    rw [e, hmj] at hmi
    exact (Option.some.inj hmi).symm
  · intro k hk
    obtain ⟨i, hi⟩ := isSome_iff_exists.1 ((he k).1 hk)
    have hm := (h i k).2 hi
    exact ⟨i, (hn i).2 (by simp [hm]), by simp [hm]⟩

variable [DecidableEq ι] [DecidableEq κ]

theorem Inverse.insert (h : Inverse m name) (hm : m i = none) (hk : name k = none) :
    Inverse (update m i (some k)) (update name k (some i)) := by
  intro j l
  by_cases hj : j = i
  · subst hj
    by_cases hl : l = k
    · subst hl
      simp
    · have : name l ≠ some j := fun e => by simp [(h j l).2 e] at hm
      simp [hl, Ne.symm hl, this]
  · by_cases hl : l = k
    · subst hl
      have : m j ≠ some l := fun e => by simp [(h j l).1 e] at hk
      simp [hj, Ne.symm hj, this]
    · simpa [hj, hl] using h j l

theorem Inverse.erase (h : Inverse m name) (hk : name k = some i) :
    Inverse (update m i none) (update name k none) := by
  intro j l
  by_cases hj : j = i
  · subst hj
    by_cases hl : l = k
    · subst hl
      simp
    · have : name l ≠ some j := fun e => hl (Option.some.inj
        (((h j l).2 e).symm.trans ((h j k).2 hk)))
      simp [hl, this]
  · by_cases hl : l = k
    · subst hl
      have : m j ≠ some l := fun e => hj (Option.some.inj (((h j l).1 e).symm.trans hk))
      simp [hj, this]
    · simpa [hj, hl] using h j l

end Inverse

section Lists

variable {list : κ → Option (List κ')} {owner : κ' → Option κ} {k : κ} {x : κ'}
  {l l' : List κ'}

structure Lists (list : κ → Option (List κ')) (owner : κ' → Option κ) : Prop where
  nodup : ∀ k l, list k = some l → l.Nodup
  mem : ∀ k l x, list k = some l → (x ∈ l ↔ owner x = some k)
  live : ∀ x k, owner x = some k → (list k).isSome

theorem Lists.owner_lists {get : κ → Option α} {f : α → List κ'}
    (h : Lists (project get f) owner) (hx : owner x = some k) :
    ∃ a, get k = some a ∧ (f a).Nodup ∧ x ∈ f a := by
  obtain ⟨l, hl⟩ := isSome_iff_exists.1 (h.live x k hx)
  obtain ⟨a, ha, rfl⟩ := map_eq_some_iff.1 hl
  exact ⟨a, ha, h.nodup _ _ hl, (h.mem _ _ x hl).2 hx⟩

theorem Lists.change [DecidableEq κ] {owner' : κ' → Option κ} {new : Option (List κ')}
    (h : Lists list owner) (hother : ∀ y j, j ≠ k → (owner' y = some j ↔ owner y = some j))
    (hsome : ∀ l, new = some l → l.Nodup ∧ ∀ y, y ∈ l ↔ owner' y = some k)
    (hnone : new = none → ∀ y, owner' y ≠ some k) : Lists (update list k new) owner' where
  nodup j l hj := by
    by_cases hjk : j = k
    · subst hjk
      exact (hsome l (by simpa using hj)).1
    · exact h.nodup j l (by simpa [hjk] using hj)
  mem j l y hj := by
    by_cases hjk : j = k
    · subst hjk
      exact (hsome l (by simpa using hj)).2 y
    · rw [hother y j hjk]
      exact h.mem j l y (by simpa [hjk] using hj)
  live y j hy := by
    by_cases hjk : j = k
    · subst hjk
      rw [update_self]
      cases hn : new with
      | none => exact absurd hy (hnone hn y)
      | some l => rfl
    · rw [update_of_ne hjk]
      exact h.live y j ((hother y j hjk).1 hy)

theorem Lists.card_le [DecidableEq κ'] (h : Lists list owner) {n : Nat}
    (hn : ∀ k l, list k = some l → l.length ≤ n) {owners : Finset κ} {entries : Finset κ'}
    (ho : ∀ k, k ∈ owners ↔ (list k).isSome)
    (he : ∀ x, x ∈ entries ↔ (owner x).isSome) :
    entries.card ≤ owners.card * n := by
  have hsub : entries ⊆ owners.biUnion fun k => ((list k).getD []).toFinset := by
    intro x hx
    obtain ⟨k, hk⟩ := isSome_iff_exists.1 ((he x).1 hx)
    have hlive := h.live x k hk
    obtain ⟨l, hl⟩ := isSome_iff_exists.1 hlive
    refine mem_biUnion.2 ⟨k, (ho k).2 hlive, ?_⟩
    simp [hl, (h.mem k l x hl).2 hk]
  refine (card_le_card hsub).trans (card_biUnion_le_card_mul _ _ _ fun k hk => ?_)
  obtain ⟨l, hl⟩ := isSome_iff_exists.1 ((ho k).1 hk)
  rw [hl]
  exact (List.toFinset_card_le l).trans (hn k l hl)

variable [DecidableEq κ]

theorem Lists.add [DecidableEq κ'] (h : Lists list owner) (hk : list k = some l)
    (hx : owner x = none) (hl : l'.Perm (x :: l)) :
    Lists (update list k (some l')) (update owner x (some k)) := by
  have hnew : x ∉ l := fun hm => by simp [(h.mem k l x hk).1 hm] at hx
  refine h.change ?_ ?_ (by simp)
  · intro y j hj
    by_cases hy : y = x
    · subst hy
      simp [hx, Ne.symm hj]
    · simp [hy]
  · rintro _ ⟨⟩
    refine ⟨hl.nodup_iff.2 (List.nodup_cons.2 ⟨hnew, h.nodup k l hk⟩), fun y => ?_⟩
    by_cases hy : y = x
    · subst hy
      simp [hl.mem_iff]
    · simp [hl.mem_iff, hy, h.mem k l y hk]

theorem Lists.remove [DecidableEq κ'] (h : Lists list owner) (hk : list k = some l)
    (hx : owner x = some k) (hl : l'.Perm (l.erase x)) :
    Lists (update list k (some l')) (update owner x none) := by
  refine h.change ?_ ?_ (by simp)
  · intro y j hj
    by_cases hy : y = x
    · subst hy
      simp [hx, Ne.symm hj]
    · simp [hy]
  · rintro _ ⟨⟩
    refine ⟨hl.nodup_iff.2 ((h.nodup k l hk).erase x), fun y => ?_⟩
    rw [hl.mem_iff, (h.nodup k l hk).mem_erase_iff]
    by_cases hy : y = x
    · subst hy
      simp
    · simp [hy, h.mem k l y hk]

theorem Lists.reorder (h : Lists list owner) (hk : list k = some l) (hl : l'.Perm l) :
    Lists (update list k (some l')) owner := by
  refine h.change (fun y j _ => Iff.rfl) ?_ (by simp)
  rintro _ ⟨⟩
  refine ⟨hl.nodup_iff.2 (h.nodup k l hk), fun y => ?_⟩
  rw [hl.mem_iff, h.mem k l y hk]

theorem Lists.opened (h : Lists list owner) (hk : list k = none) :
    Lists (update list k (some [])) owner := by
  refine h.change (fun y j _ => Iff.rfl) ?_ (by simp)
  rintro _ ⟨⟩
  refine ⟨List.nodup_nil, fun y => ?_⟩
  have hy : owner y ≠ some k := fun e => by simpa [hk] using h.live y k e
  simp [hy]

theorem Lists.closed (h : Lists list owner) (hk : list k = some []) :
    Lists (update list k none) owner := by
  refine h.change (fun y j _ => Iff.rfl) (by simp) fun _ y hy => ?_
  simpa using (h.mem k [] y hk).2 hy

end Lists
end NexusSfu.Base
