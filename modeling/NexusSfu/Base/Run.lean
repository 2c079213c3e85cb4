import Mathlib.Data.List.Basic

namespace NexusSfu.Base

open Option

variable {σ α : Type*} {step : σ → α → Option σ} {I : σ → Prop}

def run (step : σ → α → Option σ) : σ → List α → Option σ
  | s, [] => some s
  | s, a :: as => (step s a).bind fun s' => run step s' as

theorem run_one {s s' : σ} {a : α} (h : step s a = some s') : run step s [a] = some s' := by
  rw [run, h, bind_some, run]

theorem run_append {s t s' : σ} {as bs : List α} (h : run step s as = some t)
    (h' : run step t bs = some s') : run step s (as ++ bs) = some s' := by
  induction as generalizing s with
  | nil =>
    cases h
    exact h'
  | cons a as ih =>
    obtain ⟨u, hstep, hrun⟩ := bind_eq_some_iff.1 h
    rw [List.cons_append, run, hstep, bind_some, ih hrun]

theorem run_append_iff {s s' : σ} {as bs : List α} :
    run step s (as ++ bs) = some s' ↔
      ∃ t, run step s as = some t ∧ run step t bs = some s' := by
  refine ⟨fun h => ?_, fun ⟨t, h, h'⟩ => run_append h h'⟩
  induction as generalizing s with
  | nil => exact ⟨s, rfl, h⟩
  | cons a as ih =>
    obtain ⟨u, hstep, hrun⟩ := bind_eq_some_iff.1 h
    obtain ⟨t, has, hbs⟩ := ih hrun
    exact ⟨t, by rw [run, hstep, bind_some, has], hbs⟩

theorem run_invariant (h : ∀ s a, I s → ∃ s', step s a = some s' ∧ I s') {s : σ} (hs : I s)
    (as : List α) : ∃ s', run step s as = some s' ∧ I s' := by
  induction as generalizing s with
  | nil => exact ⟨s, rfl, hs⟩
  | cons a as ih =>
    obtain ⟨s', hstep, hs'⟩ := h s a hs
    obtain ⟨t, hrun, ht⟩ := ih hs'
    exact ⟨t, by rw [run, hstep, bind_some, hrun], ht⟩

theorem run_preserves (h : ∀ s a s', I s → step s a = some s' → I s') {s s' : σ} (hs : I s)
    {as : List α} (hrun : run step s as = some s') : I s' := by
  induction as generalizing s with
  | nil =>
    cases hrun
    exact hs
  | cons a as ih =>
    obtain ⟨t, hstep, hrun⟩ := bind_eq_some_iff.1 hrun
    exact ih (h s a t hs hstep) hrun

section Permitted

variable {G : σ → α → Prop}

def Permitted (G : σ → α → Prop) (step : σ → α → Option σ) : σ → List α → Prop
  | _, [] => True
  | s, a :: as => G s a ∧ ∀ s', step s a = some s' → Permitted G step s' as

instance Permitted.decidable [∀ s a, Decidable (G s a)] :
    (s : σ) → (as : List α) → Decidable (Permitted G step s as)
  | _, [] => .isTrue trivial
  | s, a :: as =>
    match h : step s a with
    | none => decidable_of_iff (G s a)
        ⟨fun hg => ⟨hg, fun _ hs => by rw [h] at hs; cases hs⟩, And.left⟩
    | some s' =>
      have := Permitted.decidable s' as
      decidable_of_iff (G s a ∧ Permitted G step s' as)
        ⟨fun hg => ⟨hg.1, fun _ hs => Option.some.inj (h.symm.trans hs) ▸ hg.2⟩,
          fun hg => ⟨hg.1, hg.2 s' h⟩⟩

theorem Permitted.mono {G' : σ → α → Prop} (hG : ∀ s a, G s a → G' s a) {s : σ}
    {as : List α} (h : Permitted G step s as) : Permitted G' step s as := by
  induction as generalizing s with
  | nil => trivial
  | cons a as ih => exact ⟨hG s a h.1, fun t ht => ih (h.2 t ht)⟩

theorem Permitted.append {s : σ} {as bs : List α} (h : Permitted G step s as)
    (h' : ∀ t, run step s as = some t → Permitted G step t bs) :
    Permitted G step s (as ++ bs) := by
  induction as generalizing s with
  | nil => exact h' s rfl
  | cons a as ih =>
    refine ⟨h.1, fun t ht => ih (h.2 t ht) fun u hu => h' u ?_⟩
    rw [run, ht, bind_some, hu]

theorem Permitted.at {s t : σ} {as bs : List α} {a : α} (h : Permitted G step s (as ++ a :: bs))
    (hrun : run step s as = some t) : G t a := by
  induction as generalizing s with
  | nil =>
    cases hrun
    exact h.1
  | cons b as ih =>
    obtain ⟨u, hstep, hrun⟩ := bind_eq_some_iff.1 hrun
    exact ih (h.2 u hstep) hrun

theorem permitted_invariant (h : ∀ s a, I s → G s a → ∃ s', step s a = some s' ∧ I s')
    {s : σ} (hs : I s) {as : List α} (hg : Permitted G step s as) :
    ∃ s', run step s as = some s' ∧ I s' := by
  induction as generalizing s with
  | nil => exact ⟨s, rfl, hs⟩
  | cons a as ih =>
    obtain ⟨s', hstep, hs'⟩ := h s a hs hg.1
    obtain ⟨t, hrun, ht⟩ := ih hs' (hg.2 s' hstep)
    exact ⟨t, by rw [run, hstep, bind_some, hrun], ht⟩

end Permitted

section Guarded

variable {act : σ → α → σ} {G : σ → α → Prop}

def Guarded (G : σ → α → Prop) (act : σ → α → σ) : σ → List α → Prop
  | _, [] => True
  | s, a :: as => G s a ∧ Guarded G act (act s a) as

instance Guarded.decidable [∀ s a, Decidable (G s a)] :
    (s : σ) → (as : List α) → Decidable (Guarded G act s as)
  | _, [] => .isTrue trivial
  | s, a :: as => @instDecidableAnd _ _ _ (Guarded.decidable (act s a) as)

theorem guarded_concat {s : σ} {as : List α} {a : α} :
    Guarded G act s (as ++ [a]) ↔ Guarded G act s as ∧ G (as.foldl act s) a := by
  induction as generalizing s with
  | nil => simp [Guarded]
  | cons b as ih => simp [Guarded, ih, and_assoc]

theorem guarded_invariant (h : ∀ s a, I s → G s a → I (act s a)) {s : σ} (hs : I s)
    {as : List α} (hg : Guarded G act s as) : I (as.foldl act s) := by
  induction as generalizing s with
  | nil => exact hs
  | cons a as ih => exact ih (h s a hs hg.1) hg.2

end Guarded
end NexusSfu.Base
