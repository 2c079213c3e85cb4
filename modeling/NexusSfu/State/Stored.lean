import NexusSfu.Base.Run
import NexusSfu.State.Layout
import NexusSfu.State.Replicas

namespace NexusSfu.State

open Base Option Function

variable {ι T : Type} [DecidableEq ι] [DecidableEq T]

def SetOp.store (w : ι → OrswotSlots T) : SetOp ι T → Option (ι → OrswotSlots T)
  | add i element dot => ((w i).add element dot).map fun r => update w i r.2
  | remove i element dot => ((w i).remove element dot).map fun r => update w i r.2
  | merge i j => ((w i).merge (w j)).map fun r => update w i r.2

namespace OrswotSlots

def Stores (w : ι → OrswotSlots T) (v : ι → Orswot T) : Prop :=
  ∀ i, (w i).WellFormed ∧ (w i).toOrswot = v i

variable {w : ι → OrswotSlots T} {v : ι → Orswot T}

omit [DecidableEq T] in
theorem Stores.set (h : Stores w v) (i : ι) {ρ : Type} {r : Option (ρ × OrswotSlots T)}
    {q : ρ × Orswot T} (hr : Refines r q) : ∃ w', r.map (fun r => update w i r.2) = some w' ∧
      Stores w' (update v i q.2) := by
  obtain ⟨s, rfl, hq, hs⟩ := hr
  refine ⟨update w i s, rfl, fun j => ?_⟩
  by_cases hj : j = i
  · subst hj
    rw [update_self, update_self]
    exact ⟨hs, hq⟩
  · rw [update_of_ne hj, update_of_ne hj]
    exact h j

theorem Stores.store (h : Stores w v) (op : SetOp ι T) :
    ∃ w', op.store w = some w' ∧ Stores w' (op.apply v) := by
  cases op with
  | add i x d => exact h.set i ((h i).2 ▸ add_refines (h i).1 x d)
  | remove i x d => exact h.set i ((h i).2 ▸ remove_refines (h i).1 x d)
  | merge i j => exact h.set i ((h i).2 ▸ (h j).2 ▸ merge_refines (h i).1)

theorem Stores.run (h : Stores w v) (ops : List (SetOp ι T)) :
    ∃ w', Base.run SetOp.store w ops = some w' ∧ Stores w' (ops.foldl SetOp.apply v) := by
  induction ops generalizing w v with
  | nil => exact ⟨w, rfl, h⟩
  | cons op ops ih =>
    obtain ⟨w₁, hstore, h₁⟩ := h.store op
    obtain ⟨w₂, hrun, h₂⟩ := ih h₁
    exact ⟨w₂, by rw [Base.run, hstore]; exact hrun, h₂⟩

/-- Whatever replicas add, remove and merge, no assertion of the stored sets fails, they hold what
the sets hold, and their counters count it. -/
theorem run_stored {capacity : Nat} {s : OrswotSlots T} (hs : withCapacity capacity = some s)
    (ops : List (SetOp ι T)) : ∃ w, Base.run SetOp.store (fun _ => s) ops = some w ∧ ∀ i,
      (w i).toOrswot = ops.foldl SetOp.apply (fun _ => .withCapacity capacity) i ∧
      (w i).len.toNat = (w i).iter.length ∧
        (w i).tombstoneCount.toNat = (w i).tombstones.length := by
  have hn : 0 < capacity ∧ capacity ≤ maxElementsLimit := by
    by_contra hn
    simp [withCapacity, hn] at hs
  obtain ⟨_, hs', hset, hwf⟩ := withCapacity_refines hn
  cases hs.symm.trans hs'
  obtain ⟨w, hrun, hw⟩ := Stores.run (w := fun _ : ι => s) (fun _ => ⟨hwf, hset⟩) ops
  refine ⟨w, hrun, fun i => ⟨(hw i).2, ?_, (hw i).1.tombstoneCount⟩⟩
  rw [iter_eq, List.length_map]
  exact (hw i).1.count

theorem run_stored_pair :
    ∃ (s : OrswotSlots Nat) (w : Bool → OrswotSlots Nat), withCapacity 1 = some s ∧
    Base.run SetOp.store (fun _ => s) [.add true 5 ⟨1, 1⟩, .merge false true,
      .remove true 5 ⟨1, 2⟩] = some w ∧ ∀ i, (w i).len.toNat = (w i).iter.length := by
  obtain ⟨s, hs, -⟩ := withCapacity_refines (T := Nat) (n := 1) (by decide)
  obtain ⟨w, hrun, hw⟩ :=
    run_stored hs [.add true 5 ⟨1, 1⟩, .merge false true, .remove true 5 ⟨1, 2⟩]
  exact ⟨s, w, hs, hrun, fun i => (hw i).2.1⟩

end OrswotSlots
end NexusSfu.State
