import NexusSfu.State.Laws

namespace NexusSfu.State

open Base Orswot List Function

inductive SetOp (ι T : Type)
  | add (i : ι) (element : T) (dot : Dot)
  | remove (i : ι) (element : T) (dot : Dot)
  | merge (i j : ι)

namespace SetOp

variable {ι T : Type} [DecidableEq ι] [DecidableEq T]

def apply (w : ι → Orswot T) : SetOp ι T → ι → Orswot T
  | add i element dot => update w i ((w i).add element dot).2
  | remove i element dot => update w i ((w i).remove element dot).2
  | merge i j => update w i ((w i).merge (w j)).2

def dot? : SetOp ι T → Option Dot
  | add _ _ dot | remove _ _ dot => some dot
  | merge _ _ => none

def added? : SetOp ι T → Option (T × Dot)
  | add _ element dot => if dot.Valid then some (element, dot) else none
  | remove _ _ _ | merge _ _ => none

def isRemove : SetOp ι T → Bool
  | remove _ _ _ => true
  | add _ _ _ | merge _ _ => false

end SetOp

/-- A run whose events have dots of their own and that stays below the limits of sets of
`capacity` elements: it adds no more elements than fit in a set, and removes no more often than
the ring has room for. -/
structure Orderly {ι T : Type} [DecidableEq T] (capacity : Nat) (ops : List (SetOp ι T)) :
    Prop where
  unique : (ops.filterMap SetOp.dot?).Nodup
  elements : ((ops.filterMap SetOp.added?).map Prod.fst).dedup.length ≤ capacity
  tombstones : ops.countP SetOp.isRemove ≤ min (2 * capacity) maxTombstonesLimit

variable {ι T : Type} [DecidableEq ι] [DecidableEq T] {adds : List (T × Dot)} {buried : List Dot}
  {s : Orswot T} {x : T} {d e : Dot} {w : ι → Orswot T} {ops : List (SetOp ι T)}
    {capacity : Nat}

namespace Orswot

theorem Knows.add (h : Knows adds buried s) (hx : d.Valid → (x, d) ∈ adds) :
    Knows adds buried (s.add x d).2 := by
  by_cases hv : d.Valid
  · by_cases hd : s.isTombstoned d = true
    · rwa [Orswot.add, if_neg (by simpa using hv.1), if_neg hv.2, if_pos hd]
    · have hd : s.isTombstoned d = false := by simpa using hd
      exact h.added (hx hv) hd (add_spec h (hx hv) hd).2
  · have unchanged : (s.add x d).2 = s := by
      rw [Orswot.add]
      by_cases hactor : d.actorId ≥ maxActors
      · rw [if_pos hactor]
      · by_cases hclock : d.clock = 0
        · rw [if_neg hactor, if_pos hclock]
        · exact absurd ⟨not_le.1 hactor, hclock⟩ hv
    rwa [unchanged]

theorem Knows.remove (h : Knows adds buried s) (hlt : buried.length < s.maxTombstones) :
    ∃ buried', Knows adds buried' (s.remove x d).2 ∧ buried ⊆ buried' ∧
      buried'.length ≤ buried.length + 1 := by
  have unchanged : ∃ buried', Knows adds buried' s ∧ buried ⊆ buried' ∧
      buried'.length ≤ buried.length + 1 := ⟨buried, h, List.Subset.refl _, Nat.le_succ _⟩
  rw [Orswot.remove]
  split_ifs
  · exact unchanged
  · cases hdot : s.dotOf x with
    | none => exact unchanged
    | some old =>
      dsimp only
      split_ifs
      · have hold := (dotOf_eq_some h.keys).1 hdot
        have h' : Knows adds (old :: buried) s := h.mono (subset_cons_self _ _) hlt
        refine ⟨old :: buried, ?_, subset_cons_self _ _, le_rfl⟩
        have hel : ((s.addTombstone old).setEntry x none).elements
            = s.elements.eraseP (fun e => e.1 = x) :=
          (items_replaceFirst_none _).trans (congrArg _ addTombstone_elements)
        have hmem : ∀ p, p ∈ ((s.addTombstone old).setEntry x none).elements ↔
            p ∈ s.elements ∧ p.1 ≠ x := fun p => by rw [hel, mem_eraseP_key h.keys]
        exact
          { unique := h.unique
            valid := h.valid
            room := by simpa [setEntry] using h.room
            space := by simpa [setEntry] using h'.space
            keys := by
              rw [hel]
              exact h.keys.sublist (eraseP_sublist.map _)
            tombs := nodup_addTombstone h' mem_cons_self
            born := fun p hp => h.born p ((hmem p).1 hp).1
            dead := fun e he => ((mem_addTombstone h' mem_cons_self).1 he).elim (h'.dead e)
              (· ▸ mem_cons_self)
            live := by
              intro p hp he
              obtain ⟨hp, hpx⟩ := (hmem p).1 hp
              rcases (mem_addTombstone h' mem_cons_self).1 he with he | he
              · exact h.live p hp he
              · exact hpx (congrArg Prod.fst
                  (eq_of_dot h.unique (h.born p hp) (h.born _ hold) he)) }
      · exact unchanged

theorem add_maxTombstones : (s.add x d).2.maxTombstones = s.maxTombstones :=
  (add_adds s x d).limits.2

theorem remove_maxTombstones : (s.remove x d).2.maxTombstones = s.maxTombstones := by
  unfold Orswot.remove
  split_ifs
  · rfl
  · split
    · split_ifs
      · exact addTombstone_maxTombstones
      · rfl
    · rfl

theorem mergeElements_maxTombstones (l : List (T × Dot)) :
    (s.mergeElements l).2.maxTombstones = s.maxTombstones := by
  induction l generalizing s with
  | nil => rfl
  | cons p l ih =>
    rw [mergeElements]
    split_ifs
    · exact ih
    · split
      · next heq => exact (congrArg (·.2.maxTombstones) heq).symm.trans add_maxTombstones
      · next heq =>
          exact ih.trans ((congrArg (·.2.maxTombstones) heq).symm.trans add_maxTombstones)

theorem merge_maxTombstones (t : Orswot T) : (s.merge t).2.maxTombstones = s.maxTombstones := by
  rw [merge, mergeElements_maxTombstones]
  induction t.tombstones generalizing s with
  | nil => rfl
  | cons d ds ih => exact ih.trans addTombstone_maxTombstones

end Orswot

theorem apply_maxTombstones (op : SetOp ι T) (i : ι) :
    (op.apply w i).maxTombstones = (w i).maxTombstones := by
  have updated : ∀ j (s' : Orswot T), s'.maxTombstones = (w j).maxTombstones →
      (update w j s' i).maxTombstones = (w i).maxTombstones := by
    intro j s' hs
    by_cases hi : i = j
    · subst hi
      rw [update_self, hs]
    · rw [update_of_ne hi]
  cases op with
  | add j element dot => exact updated j _ add_maxTombstones
  | remove j element dot => exact updated j _ remove_maxTombstones
  | merge j k => exact updated j _ (merge_maxTombstones _)

theorem knows_apply (hw : ∀ i, Knows adds buried (w i)) (op : SetOp ι T)
    (hop : ∀ p, op.added? = some p → p ∈ adds)
    (hroom : ∀ i, buried.length + (if op.isRemove then 1 else 0) ≤ (w i).maxTombstones) :
    ∃ buried', buried'.length ≤ buried.length + (if op.isRemove then 1 else 0) ∧
      ∀ i, Knows adds buried' (op.apply w i) := by
  have updated : ∀ {buried'} j (s' : Orswot T), (∀ i, Knows adds buried' (w i)) →
      Knows adds buried' s' → ∀ i, Knows adds buried' (update w j s' i) := by
    intro buried' j s' hw hs i
    by_cases hi : i = j
    · subst hi
      rwa [update_self]
    · rw [update_of_ne hi]
      exact hw i
  cases op with
  | add j element dot =>
    refine ⟨buried, le_rfl, updated j _ hw ((hw j).add fun hv => hop _ ?_)⟩
    exact if_pos hv
  | remove j element dot =>
    obtain ⟨buried', hk, hsub, hle⟩ := (hw j).remove (x := element) (d := dot) (hroom j)
    refine ⟨buried', hle, updated j _ (fun i => (hw i).mono hsub ?_) hk⟩
    exact hle.trans (hroom i)
  | merge j k => exact ⟨buried, le_rfl, updated j _ hw ((hw j).merge (hw k))⟩

theorem knows_run (hops : ops.filterMap SetOp.added? ⊆ adds) (hw : ∀ i, Knows adds buried (w i))
    (hroom : ∀ i, buried.length + ops.countP SetOp.isRemove ≤ (w i).maxTombstones) :
    ∃ buried', ∀ i, Knows adds buried' (ops.foldl SetOp.apply w i) := by
  induction ops generalizing w buried with
  | nil => exact ⟨buried, hw⟩
  | cons op ops ih =>
    simp only [countP_cons] at hroom
    obtain ⟨buried', hle, hk⟩ := knows_apply hw op (fun p hp => hops (by simp [hp])) fun i => by
      have := hroom i
      omega
    refine ih (fun p hp => hops ?_) hk fun i => ?_
    · rw [filterMap_cons]
      split
      · exact hp
      · exact mem_cons_of_mem _ hp
    · rw [apply_maxTombstones]
      have := hroom i
      omega

omit [DecidableEq ι] [DecidableEq T] in
theorem added_sublist (ops : List (SetOp ι T)) :
    ((ops.filterMap SetOp.added?).map Prod.snd).Sublist (ops.filterMap SetOp.dot?) := by
  induction ops with
  | nil => exact List.Sublist.slnil
  | cons op ops ih =>
    cases op with
    | add i element dot =>
      by_cases hv : dot.Valid
      · simpa [SetOp.added?, SetOp.dot?, hv] using ih
      · simpa [SetOp.added?, SetOp.dot?, hv] using ih.cons dot
    | remove i element dot => exact ih.cons dot
    | merge i j => exact ih

omit [DecidableEq ι] [DecidableEq T] in
theorem added_valid {op : SetOp ι T} {p : T × Dot} (h : op.added? = some p) : p.2.Valid := by
  cases op with
  | add i element dot =>
    rw [SetOp.added?] at h
    split_ifs at h with hv
    cases h
    exact hv
  | remove i element dot => cases h
  | merge i j => cases h

theorem orderly_knows (h : Orderly capacity ops) :
    ∃ buried, ∀ i, Knows (ops.filterMap SetOp.added?) buried
      (ops.foldl SetOp.apply (fun _ => withCapacity capacity) i) := by
  refine knows_run (List.Subset.refl _) (fun _ => (?_ : Knows _ [] _)) fun _ => ?_
  · exact
      { unique := h.unique.sublist (added_sublist ops)
        valid := fun p hp => by
          obtain ⟨op, -, hop⟩ := mem_filterMap.1 hp
          exact added_valid hop
        room := h.elements
        space := Nat.zero_le _
        keys := nodup_nil
        tombs := nodup_nil
        born := nofun
        dead := nofun
        live := nofun }
  · simpa [withCapacity] using h.tombstones

/-- Merging is idempotent. It commutes exactly where of each element the newest dot that neither set
has removed is in both of them or covered by no tombstone. Where tombstones cover nothing that is
not removed, it is associative exactly if both ways mask the same. -/
theorem merge_laws (capacity : Nat) (ops : List (SetOp ι T)) (h : Orderly capacity ops)
    (i j k : ι) :
    let w := ops.foldl SetOp.apply fun _ => withCapacity capacity
    ((w i).merge (w i)).2.snapshot.eq (w i).snapshot = true ∧
    (((w i).merge (w j)).2.snapshot.eq ((w j).merge (w i)).2.snapshot = true ↔
      HeldOrClear (w i) (w j)) ∧
    (Clear [w i, w j, w k] →
      ((((w i).merge (w j)).2.merge (w k)).2.snapshot.eq
        ((w i).merge ((w j).merge (w k)).2).2.snapshot = true ↔
      MaskedAlike (w i) (w j) (w k))) := by
  intro w
  obtain ⟨buried, hw⟩ := orderly_knows h
  have hij := (hw i).merge (hw j)
  refine ⟨?_, ?_, fun hx => ?_⟩
  · exact (snapshot_eq_iff ((hw i).merge (hw i)) (hw i)).2 (merge_idem_same (hw i))
  · rw [snapshot_eq_iff hij ((hw j).merge (hw i))]
    exact merge_comm_same_iff (hw i) (hw j)
  · rw [snapshot_eq_iff (hij.merge (hw k)) ((hw i).merge ((hw j).merge (hw k)))]
    exact merge_assoc_same_iff (hw i) (hw j) (hw k) hx

def removedElsewhere : List (SetOp (Fin 3) Nat) :=
  [.add 0 7 ⟨0, 1⟩, .add 2 7 ⟨2, 2⟩, .merge 1 2, .remove 1 7 ⟨1, 3⟩,
    .add 2 8 ⟨2, 4⟩]

theorem merge_laws_removedElsewhere :
    let w := removedElsewhere.foldl SetOp.apply fun _ => withCapacity maxElementsLimit
    (HeldOrClear (w 0) (w 1) ∧ Clear [w 0, w 1, w 2] ∧ MaskedAlike (w 0) (w 1) (w 2)) ∧
      ((w 0).merge (w 1)).2.snapshot.eq ((w 1).merge (w 0)).2.snapshot = true ∧
      (((w 0).merge (w 1)).2.merge (w 2)).2.snapshot.eq
        ((w 0).merge ((w 1).merge (w 2)).2).2.snapshot = true := by
  have h : Orderly maxElementsLimit removedElsewhere := ⟨by decide, by decide, by decide⟩
  have hlaws := merge_laws maxElementsLimit removedElsewhere h 0 1 2
  exact ⟨by decide, hlaws.2.1.2 (by decide), (hlaws.2.2 (by decide)).2 (by decide)⟩

/-- A tombstone also covers its actor's earlier adds: what is merged into an empty set loses the
element added before the removed one, what the empty set is merged into keeps it. -/
theorem merge_not_commutative : ∃ ops : List (SetOp (Fin 2) Nat), Orderly maxElementsLimit ops ∧
      let w := ops.foldl SetOp.apply fun _ => withCapacity maxElementsLimit
      ((w 0).merge (w 1)).2.snapshot.eq ((w 1).merge (w 0)).2.snapshot = false ∧
      ((w 0).merge (w 1)).2.contains 7 = false ∧ ((w 1).merge (w 0)).2.contains 7 = true :=
  ⟨[.add 1 7 ⟨0, 1⟩, .add 1 8 ⟨0, 2⟩, .remove 1 8 ⟨0, 3⟩],
    ⟨by decide, by decide, by decide⟩, by decide, by decide, by decide⟩

section Failure

variable {p : T × Dot} {l : List (T × Dot)} {err : CrdtError} {s' : Orswot T}

namespace Orswot

omit [DecidableEq T] in
theorem mem_of_mem_mergeTombstones {ds : List Dot}
    (hp : p ∈ (ds.foldl mergeTombstone s).elements) : p ∈ s.elements := by
  induction ds generalizing s with
  | nil => exact hp
  | cons d ds ih =>
    have hp := ih hp
    rw [mergeTombstone, removeByDot_elements, addTombstone_elements] at hp
    exact mem_of_mem_eraseP hp

theorem mem_of_mem_mergeElements (hp : p ∈ (s.mergeElements l).2.elements) :
    p ∈ s.elements ∨ p ∈ l := by
  induction l generalizing s with
  | nil => exact .inl hp
  | cons q l ih =>
    obtain ⟨x, d⟩ := q
    have hadds := s.add_adds x d
    rw [mergeElements] at hp
    split_ifs at hp
    · exact (ih hp).imp_right (mem_cons_of_mem _)
    · have hstep : p ∈ (s.add x d).2.elements → p ∈ s.elements ∨ p ∈ (x, d) :: l := by
        intro hp
        rcases hadds.mem hp with hp | ⟨rfl, -⟩
        · exact .inl hp
        · exact .inr mem_cons_self
      cases hadd : s.add x d with
      | mk r t =>
        rw [hadd] at hp hstep
        cases r with
        | error e => exact hstep hp
        | ok b =>
          rcases ih hp with hp | hp
          · exact hstep hp
          · exact .inr (mem_cons_of_mem _ hp)

theorem mergeElements_error (h : s.mergeElements l = (.error err, s')) :
    ∃ done x d rest, l = done ++ (x, d) :: rest ∧ s.mergeElements done = (.ok (), s') ∧
      s'.isTombstoned d = false ∧ s'.add x d = (.error err, s') := by
  induction l generalizing s with
  | nil => cases h
  | cons q l ih =>
    obtain ⟨x, d⟩ := q
    rw [mergeElements] at h
    split_ifs at h with htomb
    · obtain ⟨done, y, e, rest, rfl, hdone, hadd⟩ := ih h
      exact ⟨(x, d) :: done, y, e, rest, rfl, by rw [mergeElements, if_pos htomb, hdone], hadd⟩
    · cases hadd : s.add x d with
      | mk r t =>
        rw [hadd] at h
        cases r with
        | error e =>
          have hsame := add_error (congrArg Prod.fst hadd)
          rw [hadd] at hsame
          cases h
          cases hsame
          exact ⟨[], x, d, l, rfl, rfl, Bool.eq_false_iff.2 htomb, hadd⟩
        | ok b =>
          obtain ⟨done, y, e, rest, rfl, hdone, hfail⟩ := ih h
          exact ⟨(x, d) :: done, y, e, rest,
            rfl, by rw [mergeElements, if_neg htomb, hadd]; exact hdone, hfail⟩

end Orswot

theorem valid_apply (hw : ∀ i, ∀ p ∈ (w i).elements, p.2.Valid) (op : SetOp ι T) (i : ι) :
    ∀ p ∈ (op.apply w i).elements, p.2.Valid := by
  intro p hp
  cases op with
  | add j x d =>
    by_cases hi : i = j
    · subst hi
      rw [SetOp.apply, update_self] at hp
      rcases (add_adds (w i) x d).mem hp with hp | ⟨rfl, hv⟩
      · exact hw i p hp
      · exact hv
    · rw [SetOp.apply, update_of_ne hi] at hp
      exact hw i p hp
  | remove j x d =>
    by_cases hi : i = j
    · subst hi
      rw [SetOp.apply, update_self] at hp
      exact hw i p ((remove_sublist (w i) x d).subset hp)
    · rw [SetOp.apply, update_of_ne hi] at hp
      exact hw i p hp
  | merge j k =>
    by_cases hi : i = j
    · subst hi
      rw [SetOp.apply, update_self] at hp
      rcases mem_of_mem_mergeElements hp with hp | hp
      · exact hw i p (mem_of_mem_mergeTombstones hp)
      · exact hw k p hp
    · rw [SetOp.apply, update_of_ne hi] at hp
      exact hw i p hp

theorem valid_run (hw : ∀ i, ∀ p ∈ (w i).elements, p.2.Valid) (ops : List (SetOp ι T))
    (i : ι) :
    ∀ p ∈ (ops.foldl SetOp.apply w i).elements, p.2.Valid := by
  induction ops generalizing w with
  | nil => exact hw i
  | cons op ops ih => exact ih (valid_apply hw op)

theorem failed_merge (capacity : ι → Nat) (ops : List (SetOp ι T)) (i j : ι) {a : Orswot T}
    (h : ((ops.foldl SetOp.apply fun k => withCapacity (capacity k)) i).merge
      ((ops.foldl SetOp.apply fun k => withCapacity (capacity k)) j) = (.error err, a)) :
    let w := ops.foldl SetOp.apply fun k => withCapacity (capacity k)
    ∃ done x d rest, (w j).elements = done ++ (x, d) :: rest ∧
      (w i).merge { w j with entries := done.map some } = (.ok (), a) ∧
      err = .capacityExhausted a.maxElements ∧ a.maxElements ≤ a.len ∧
      x ∉ a.elements.map Prod.fst ∧ a.isTombstoned d = false := by
  intro w
  have hvalid : ∀ p ∈ (w j).elements, p.2.Valid := valid_run nofun ops j
  obtain ⟨done, x, d, rest, heq, hdone, htomb, hadd⟩ := mergeElements_error h
  have hv : d.Valid := hvalid (x, d) (heq ▸ mem_append_right _ mem_cons_self)
  have hprefix : (w i).merge { w j with entries := done.map some } = (.ok (), a) := by
    rw [Orswot.merge, Orswot.elements, items, filterMap_map]
    simpa using hdone
  have hfull := add_adds a x d
  rw [hadd] at hfull
  cases hfull with
  | invalid e hv' => exact absurd hv hv'
  | full _ _ hx hle =>
    exact ⟨done, x, d, rest, heq, hprefix, rfl, hle, dotOf_eq_none.1 hx, htomb⟩

def overfull : List (SetOp (Fin 2) Nat) :=
  [.add ⟨0, Nat.two_pos⟩ 1 ⟨0, 1⟩, .add ⟨1, Nat.one_lt_two⟩ 2 ⟨1, 1⟩,
  .add ⟨1, Nat.one_lt_two⟩ 3 ⟨1, 2⟩]

theorem failed_merge_overfull :
    let w := overfull.foldl SetOp.apply fun _ => withCapacity 2
    ∃ done x d rest, (w 1).elements = done ++ (x, d) :: rest ∧
      (w 0).merge { w 1 with entries := done.map some } = (.ok (), ((w 0).merge (w 1)).2) ∧
      CrdtError.capacityExhausted 2 = .capacityExhausted ((w 0).merge (w 1)).2.maxElements ∧
      ((w 0).merge (w 1)).2.maxElements ≤ ((w 0).merge (w 1)).2.len ∧
      x ∉ ((w 0).merge (w 1)).2.elements.map Prod.fst ∧
      ((w 0).merge (w 1)).2.isTombstoned d = false :=
  failed_merge (fun _ => 2) overfull 0 1 (by decide)

theorem failed_merge_changes :
    let w := overfull.foldl SetOp.apply fun _ => withCapacity 2
    ((w 0).merge (w 1)).1 = .error (.capacityExhausted 2) ∧
      (w 0).elements = [(1, ⟨0, 1⟩)] ∧
      ((w 0).merge (w 1)).2.elements = [(1, ⟨0, 1⟩), (2, ⟨1, 1⟩)] := by
  decide

end Failure
end NexusSfu.State
