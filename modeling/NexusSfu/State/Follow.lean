import NexusSfu.State.Merge

namespace NexusSfu.State

open Base Orswot List

inductive Delta (T : Type)
  | add (element : T) (dot : Dot)
  | remove (element : T) (dot : Dot)
  deriving DecidableEq

namespace Delta

variable {T : Type} [DecidableEq T]

def element : Delta T → T
  | add x _ | remove x _ => x

def dot : Delta T → Dot
  | add _ d | remove _ d => d

def leaves : Delta T → Option Dot
  | add _ d => some d
  | remove _ _ => none

def apply (s : Orswot T) : Delta T → Except CrdtError Bool × Orswot T
  | add x d => s.add x d
  | remove x d => s.remove x d

def latest (ds : List (Delta T)) (x : T) : Option Dot :=
  ds.foldl (fun d δ => if δ.element = x then δ.leaves else d) none

end Delta

variable {T : Type} [DecidableEq T] {ds : List (Delta T)} {δ : Delta T} {s : Orswot T} {x : T}
  {d : Dot}

open Delta

theorem latest_concat : latest (ds ++ [δ]) x =
    if δ.element = x then δ.leaves else latest ds x := by
  simp [latest]

theorem latest_other (h : δ.element ≠ x) : latest (ds ++ [δ]) x = latest ds x := by
  rw [latest_concat, if_neg h]

theorem latest_self : latest (ds ++ [δ]) δ.element = δ.leaves := by
  rw [latest_concat, if_pos rfl]

theorem latest_some (h : latest ds x = some d) : .add x d ∈ ds := by
  induction ds using List.reverseRecOn with
  | nil => cases h
  | append_singleton ds δ ih =>
    rw [latest_concat] at h
    split_ifs at h with hx
    · cases δ with
      | add y e =>
        cases h
        cases hx
        exact mem_append_right _ (mem_singleton_self _)
      | remove y e => cases h
    · exact mem_append_left _ (ih h)

structure Follows (ds : List (Delta T)) (s : Orswot T) : Prop where
  keys : (s.elements.map Prod.fst).Nodup
  elements : ∀ x d, (x, d) ∈ s.elements ↔ latest ds x = some d
  tombs : ∀ t ∈ s.tombstones, ∃ δ ∈ ds, δ.dot = t

structure Next (ds : List (Delta T)) (δ : Delta T) : Prop where
  valid : δ.dot.Valid
  fresh : ∀ δ' ∈ ds, δ'.dot.actorId = δ.dot.actorId → δ'.dot.clock < δ.dot.clock
  owner : ∀ δ' ∈ ds, δ'.element = δ.element → δ'.dot.actorId = δ.dot.actorId

theorem Follows.not_tombstoned (h : Follows ds s) (hn : Next ds δ) :
    s.isTombstoned δ.dot = false := by
  rw [isTombstoned, any_eq_false]
  intro t ht hcov
  obtain ⟨δ', hδ', rfl⟩ := h.tombs t ht
  simp only [ge_iff_le, Bool.and_eq_true, decide_eq_true_eq] at hcov
  exact absurd (hn.fresh δ' hδ' hcov.1) (by omega)

theorem dot_lt_of_clock {d e : Dot} (h : d.clock < e.clock) : d < e :=
  Prod.Lex.toLex_lt_toLex.2 (.inl h)

theorem Follows.older (h : Follows ds s) (hn : Next ds δ) (hd : (δ.element, d) ∈ s.elements) :
    d < δ.dot := by
  have hmem := latest_some ((h.elements _ _).1 hd)
  exact dot_lt_of_clock (hn.fresh _ hmem (hn.owner _ hmem rfl))

omit [DecidableEq T] in
theorem mem_addTombstone_of {t : Dot} (h : t ∈ (s.addTombstone d).tombstones) :
    t = d ∨ t ∈ s.tombstones := by
  rw [addTombstone] at h
  split_ifs at h
  · exact .inr h
  · exact (mem_append.1 h).elim .inr fun h => .inl (mem_singleton.1 h)
  · exact (mem_or_eq_of_mem_set h).elim .inr .inl

theorem Follows.add (h : Follows ds s) (hn : Next ds (.add x d))
    (hok : ∃ b, (s.add x d).1 = .ok b) : Follows (ds ++ [.add x d]) (s.add x d).2 := by
  have htomb : ∀ t ∈ s.tombstones, ∃ δ ∈ ds ++ [.add x d], δ.dot = t := by
    intro t ht
    obtain ⟨δ, hδ, heq⟩ := h.tombs t ht
    exact ⟨δ, mem_append_left _ hδ, heq⟩
  have hother : ∀ {y e}, y ≠ x →
      (latest (ds ++ [.add x d]) y = some e ↔ (y, e) ∈ s.elements) := by
    intro y e hy
    rw [latest_other (δ := .add x d) hy.symm, h.elements]
  have hself : ∀ {e}, latest (ds ++ [.add x d]) x = some e ↔ e = d := by
    intro e
    rw [show latest (ds ++ [.add x d]) x = some d from latest_self]
    exact ⟨fun h => (Option.some.inj h).symm, fun h => h ▸ rfl⟩
  obtain ⟨b, hb⟩ := hok
  have hactor : ¬ d.actorId ≥ maxActors := not_le.2 hn.valid.1
  have hclock : d.clock ≠ 0 := hn.valid.2
  have hcov : ¬ s.isTombstoned d = true := Bool.eq_false_iff.1 (h.not_tombstoned hn)
  rw [Orswot.add, if_neg hactor, if_neg hclock, if_neg hcov] at hb ⊢
  cases hdot : s.dotOf x with
  | some old =>
    have hold := (dotOf_eq_some h.keys).1 hdot
    have holder : old < d := h.older hn hold
    simp only [if_pos holder]
    refine ⟨?_, fun y e => ?_, htomb⟩
    · rw [setEntry_elements, map_replaceFirst_key (k := x) rfl]
      exact h.keys
    · rw [setEntry_elements, mem_replaceFirst_key h.keys (k := x) rfl ⟨_, hold, rfl⟩]
      by_cases hy : y = x
      · subst hy
        rw [hself]
        simp
      · rw [hother hy]
        simp [hy]
  | none =>
    have hnew := dotOf_eq_none.1 hdot
    simp only [hdot] at hb ⊢
    split_ifs at hb ⊢ with hlen
    have hperm : (items (fill (x, d) s.entries)).Perm ((x, d) :: s.elements) := items_fill _ _
    refine ⟨((hperm.map Prod.fst).nodup_iff).2 (nodup_cons.2 ⟨hnew, h.keys⟩),
      fun y e => ?_, htomb⟩
    refine hperm.mem_iff.trans ?_
    by_cases hy : y = x
    · subst hy
      have hn : (y, e) ∉ s.elements := fun he => hnew (mem_map_of_mem he)
      rw [hself]
      simp [hn]
    · rw [hother hy]
      simp [hy]

theorem Follows.remove (h : Follows ds s) (hn : Next ds (.remove x d)) :
    (∃ b, (s.remove x d).1 = .ok b) ∧ Follows (ds ++ [.remove x d]) (s.remove x d).2 := by
  have hother : ∀ {y e}, y ≠ x →
      (latest (ds ++ [.remove x d]) y = some e ↔ (y, e) ∈ s.elements) := by
    intro y e hy
    rw [latest_other (δ := .remove x d) hy.symm, h.elements]
  have hself : ∀ {e}, ¬ latest (ds ++ [.remove x d]) x = some e := by
    intro e
    rw [show latest (ds ++ [.remove x d]) x = none from latest_self]
    exact nofun
  have htomb : ∀ t ∈ s.tombstones, ∃ δ ∈ ds ++ [.remove x d], δ.dot = t := by
    intro t ht
    obtain ⟨δ, hδ, heq⟩ := h.tombs t ht
    exact ⟨δ, mem_append_left _ hδ, heq⟩
  have hactor : ¬ d.actorId ≥ maxActors := not_le.2 hn.valid.1
  rw [Orswot.remove, if_neg hactor]
  cases hdot : s.dotOf x with
  | some old =>
    have hold := (dotOf_eq_some h.keys).1 hdot
    have holder : old ≤ d := (h.older hn hold).le
    simp only [if_pos holder]
    have hel : ((s.addTombstone old).setEntry x none).elements
        = s.elements.eraseP (fun e => e.1 = x) :=
      (items_replaceFirst_none _).trans (congrArg _ addTombstone_elements)
    refine ⟨⟨true, rfl⟩, ?_, fun y e => ?_, fun t ht => ?_⟩
    · rw [hel]
      exact h.keys.sublist (eraseP_sublist.map _)
    · rw [hel, mem_eraseP_key h.keys]
      by_cases hy : y = x
      · subst hy
        exact ⟨fun he => absurd rfl he.2, fun he => absurd he hself⟩
      · rw [hother hy]
        simp [hy]
    · rcases mem_addTombstone_of ht with ht | ht
      · rw [ht]
        exact ⟨.add x old, mem_append_left _ (latest_some ((h.elements _ _).1 hold)), rfl⟩
      · exact htomb t ht
  | none =>
    have hnew := dotOf_eq_none.1 hdot
    refine ⟨⟨false, rfl⟩, h.keys, fun y e => ?_, htomb⟩
    by_cases hy : y = x
    · subst hy
      exact ⟨fun he => absurd (mem_map_of_mem he) hnew, fun he => absurd he hself⟩
    · rw [hother hy]

theorem Follows.step (h : Follows ds s) (hn : Next ds δ) (hok : ∃ b, (δ.apply s).1 = .ok b) :
    Follows (ds ++ [δ]) (δ.apply s).2 := by
  cases δ with
  | add x d => exact h.add hn hok
  | remove x d => exact (h.remove hn).2

theorem follows_nil (h : s.elements = []) (ht : s.tombstones = []) : Follows [] s :=
  ⟨by simp [h], by simp [h, latest], by simp [ht]⟩

theorem Follows.contains (h : Follows ds s) (x : T) : s.contains x = (latest ds x).isSome := by
  rw [Bool.eq_iff_iff, Orswot.contains, any_eq_true, Option.isSome_iff_exists]
  constructor
  · rintro ⟨⟨y, d⟩, hmem, hy⟩
    cases of_decide_eq_true hy
    exact ⟨d, (h.elements _ _).1 hmem⟩
  · rintro ⟨d, hd⟩
    exact ⟨(x, d), (h.elements x d).2 hd, decide_eq_true rfl⟩

end NexusSfu.State
