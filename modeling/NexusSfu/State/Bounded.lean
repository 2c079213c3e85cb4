import NexusSfu.State.Follow
import NexusSfu.State.Layout

namespace NexusSfu.State

open Base Delta List

variable {T : Type} [DecidableEq T]

/-- A set of at most `capacity` elements; the flag is whether the call succeeded. -/
def boundedApply (capacity : Nat) (S : Finset T) : Delta T → Bool × Finset T
  | .add x _ => if x ∉ S ∧ capacity ≤ S.card then (false, S) else (true, insert x S)
  | .remove x _ => (true, S.erase x)

def boundedRun (capacity : Nat) : Finset T → List (Delta T) → List Bool × Finset T
  | S, [] => ([], S)
  | S, δ :: ds =>
    let (ok, S) := boundedApply capacity S δ
    let (oks, S) := boundedRun capacity S ds
    (ok :: oks, S)

def OrswotSlots.apply (s : OrswotSlots T) :
    Delta T → Option (Except CrdtError Bool × OrswotSlots T)
  | .add x d => s.add x d
  | .remove x d => s.remove x d

def OrswotSlots.run : OrswotSlots T → List (Delta T) →
    Option (List (Except CrdtError Bool) × OrswotSlots T)
  | s, [] => some ([], s)
  | s, δ :: ds => do
    let (result, s) ← s.apply δ
    let (results, s) ← s.run ds
    some (result :: results, s)

structure SingleWriter (actor : Nat) (ds : List (Delta T)) : Prop where
  valid : ∀ δ ∈ ds, δ.dot.Valid
  actor : ∀ δ ∈ ds, δ.dot.actorId = actor
  later : ds.Pairwise fun δ δ' => δ.dot.clock < δ'.dot.clock

structure Shows (s : OrswotSlots T) (S : Finset T) : Prop where
  nodup : s.iter.Nodup
  iter : s.iter.toFinset = S
  len : s.len.toNat = S.card
  contains : ∀ x, s.contains x = decide (x ∈ S)

variable {capacity actor : Nat} {o : Orswot T} {s : OrswotSlots T} {S : Finset T} {x : T} {d : Dot}
  {ds done : List (Delta T)} {δ : Delta T}

structure Orswot.Holds (capacity actor : Nat) (done : List (Delta T)) (S : Finset T)
    (o : Orswot T) :
    Prop where
  follows : Follows done o
  made : ∀ δ ∈ done, δ.dot.actorId = actor
  room : o.maxElements = capacity
  keys : ∀ x, x ∈ o.elements.map Prod.fst ↔ x ∈ S

theorem Orswot.Holds.card (h : o.Holds capacity actor done S) : S.card = o.len := by
  have hset : (o.elements.map Prod.fst).toFinset = S := by
    ext x
    rw [mem_toFinset, h.keys]
  rw [← hset, toFinset_card_of_nodup h.follows.keys, length_map, Orswot.len]

theorem add_refused_iff (hv : d.Valid) (hcov : o.isTombstoned d = false) :
    (∃ e, (o.add x d).1 = .error e) ↔
      x ∉ o.elements.map Prod.fst ∧ o.maxElements ≤ o.len := by
  rw [← Orswot.dotOf_eq_none]
  cases hadd : o.add x d with
  | mk r o' =>
    have h := o.add_adds x d
    rw [hadd] at h
    cases h with
    | invalid e hv' => exact absurd hv hv'
    | tombstoned _ ht => simp [ht] at hcov
    | older _ _ hx => simp [hx]
    | renewed _ _ hx => simp [hx]
    | full _ _ hx hle => simp [hx, hle]
    | added _ _ hx hlt => simp [hlt]

theorem Orswot.Holds.ok (h : o.Holds capacity actor done S) (hn : Next done δ)
    (hactor : δ.dot.actorId = actor) (hok : ∃ b, (δ.apply o).1 = .ok b) {S' : Finset T}
    (hS : ∀ x, x ∈ S' ↔ if δ.element = x then δ.leaves.isSome = true else x ∈ S)
    (hroom : (δ.apply o).2.maxElements = o.maxElements) :
    (δ.apply o).2.Holds capacity actor (done ++ [δ]) S' := by
  have hf := h.follows.step hn hok
  refine ⟨hf, ?_, hroom.trans h.room, fun x => ?_⟩
  · intro δ' hδ'
    rcases mem_append.1 hδ' with hδ' | hδ'
    · exact h.made δ' hδ'
    · rwa [mem_singleton.1 hδ']
  · have hlatest : ∀ {ds : List (Delta T)} {o : Orswot T}, Follows ds o →
        (x ∈ o.elements.map Prod.fst ↔ (latest ds x).isSome = true) := by
      intro ds o hf
      rw [mem_map, Option.isSome_iff_exists]
      constructor
      · rintro ⟨⟨y, d⟩, hmem, rfl⟩
        exact ⟨d, (hf.elements _ _).1 hmem⟩
      · rintro ⟨d, hd⟩
        exact ⟨(x, d), (hf.elements x d).2 hd, rfl⟩
    rw [hlatest hf, latest_concat, hS, ← h.keys, hlatest h.follows]
    split_ifs <;> rfl

theorem Orswot.Holds.step (h : o.Holds capacity actor done S) (hn : Next done δ)
    (hactor : δ.dot.actorId = actor) : (δ.apply o).1.isOk = (boundedApply capacity S δ).1 ∧
      ∃ done', (δ.apply o).2.Holds capacity actor done' (boundedApply capacity S δ).2 ∧
        ∀ δ' ∈ done', δ' ∈ done ∨ δ' = δ := by
  have hkeep : ∀ δ' ∈ done ++ [δ], δ' ∈ done ∨ δ' = δ := fun δ' hδ' =>
    (mem_append.1 hδ').imp_right mem_singleton.1
  cases δ with
  | add x d =>
    have hrefused := add_refused_iff (o := o) (x := x) hn.valid (h.follows.not_tombstoned hn)
    rw [h.keys, h.room, ← h.card, Delta.dot] at hrefused
    simp only [boundedApply]
    split_ifs with hfull
    · obtain ⟨e, he⟩ := hrefused.2 hfull
      refine ⟨by rw [Delta.apply, he]; rfl, done, ?_, fun δ' hδ' => .inl hδ'⟩
      rw [Delta.apply, Orswot.add_error he]
      exact h
    · have hok : ∃ b, (o.add x d).1 = .ok b := by
        cases hres : (o.add x d).1 with
        | ok b => exact ⟨b, rfl⟩
        | error e => exact absurd (hrefused.1 ⟨e, hres⟩) hfull
      refine ⟨?_, _, h.ok hn hactor hok ?_ (o.add_adds x d).limits.1, hkeep⟩
      · obtain ⟨b, hb⟩ := hok
        rw [Delta.apply, hb]
        rfl
      · intro y
        by_cases hy : x = y
        · simp [Delta.element, Delta.leaves, hy]
        · simp [Delta.element, hy, Ne.symm hy]
  | remove x d =>
    obtain ⟨hok, -⟩ := h.follows.remove hn
    refine ⟨?_, _, h.ok hn hactor hok ?_ Orswot.remove_maxElements, hkeep⟩
    · obtain ⟨b, hb⟩ := hok
      rw [Delta.apply, hb]
      rfl
    · intro y
      by_cases hy : x = y
      · simp [boundedApply, Delta.element, Delta.leaves, hy]
      · simp [boundedApply, Delta.element, hy, Ne.symm hy]

theorem apply_refines (h : s.WellFormed) (δ : Delta T) :
    OrswotSlots.Refines (s.apply δ) (δ.apply s.toOrswot) := by
  cases δ with
  | add x d => exact OrswotSlots.add_refines h x d
  | remove x d => exact OrswotSlots.remove_refines h x d

theorem Orswot.Holds.shows (h : s.toOrswot.Holds capacity actor done S) (hs : s.WellFormed) :
    Shows s S := by
  have hiter : ∀ x, x ∈ s.iter ↔ x ∈ S := fun x => by rw [OrswotSlots.iter_eq, h.keys]
  refine ⟨?_, ?_, hs.count.trans h.card.symm, fun x => ?_⟩
  · rw [OrswotSlots.iter_eq]
    exact h.follows.keys
  · ext x
    rw [mem_toFinset, hiter]
  · rw [OrswotSlots.contains_eq, Orswot.contains, Bool.eq_iff_iff, decide_eq_true_eq, ← h.keys]
    simp

theorem Orswot.Holds.run (h : s.toOrswot.Holds capacity actor done S) (hs : s.WellFormed)
    (hds : SingleWriter actor ds)
    (hlater : ∀ δ ∈ done, ∀ δ' ∈ ds, δ.dot.clock < δ'.dot.clock) :
    ∃ results s', s.run ds = some (results, s') ∧
      results.map Except.isOk = (boundedRun capacity S ds).1 ∧
      Shows s' (boundedRun capacity S ds).2 := by
  induction ds generalizing s S done with
  | nil => exact ⟨[], s, rfl, rfl, h.shows hs⟩
  | cons δ ds ih =>
    obtain ⟨hvalid, hvalids⟩ := forall_mem_cons.1 hds.valid
    obtain ⟨hactor, hactors⟩ := forall_mem_cons.1 hds.actor
    obtain ⟨hfirst, hrest⟩ := pairwise_cons.1 hds.later
    have hn : Next done δ :=
      ⟨hvalid, fun δ' hδ' _ => hlater δ' hδ' δ mem_cons_self,
        fun δ' hδ' _ => (h.made δ' hδ').trans hactor.symm⟩
    obtain ⟨hok, done', h', hkeep⟩ := h.step hn hactor
    obtain ⟨t, ht, heq, hwf⟩ := apply_refines hs δ
    rw [← heq] at h'
    have hlater' : ∀ δ₁ ∈ done', ∀ δ₂ ∈ ds, δ₁.dot.clock < δ₂.dot.clock := by
      intro δ₁ h₁ δ₂ h₂
      rcases hkeep δ₁ h₁ with h₁ | rfl
      · exact hlater δ₁ h₁ δ₂ (mem_cons_of_mem δ h₂)
      · exact hfirst δ₂ h₂
    obtain ⟨results, s', hrun, hoks, hshows⟩ := ih h' hwf ⟨hvalids, hactors, hrest⟩ hlater'
    refine ⟨(δ.apply s.toOrswot).1 :: results, s', ?_, ?_, hshows⟩
    · simp only [OrswotSlots.run, ht, hrun, Option.bind_eq_bind, Option.bind_some]
    · rw [map_cons, hok, hoks]
      rfl

/-- Any run of one writer's calls on a set of any capacity: no assertion fails, a call fails exactly
when the bounded set refuses it, and the set shows what the bounded set holds. -/
theorem run_refines_bounded (hcap : 0 < capacity ∧ capacity ≤ maxElementsLimit)
    (hds : SingleWriter actor ds) :
    ∃ s₀ results s, OrswotSlots.withCapacity capacity = some s₀ ∧
      s₀.run ds = some (results, s) ∧
        results.map Except.isOk = (boundedRun capacity ∅ ds).1 ∧
      Shows s (boundedRun capacity ∅ ds).2 := by
  obtain ⟨s₀, hs₀, heq, hwf⟩ := OrswotSlots.withCapacity_refines (T := T) hcap
  have hempty : s₀.toOrswot.Holds capacity actor [] ∅ := by
    rw [heq]
    exact ⟨follows_nil rfl rfl, nofun, rfl,
      fun x => iff_of_false not_mem_nil (Finset.notMem_empty x)⟩
  obtain ⟨results, s, hrun⟩ := hempty.run hwf hds nofun
  exact ⟨s₀, results, s, hs₀, hrun⟩

def churn : List (Delta Nat) :=
  [.add 1 ⟨7, 1⟩, .add 2 ⟨7, 2⟩, .remove 1 ⟨7, 3⟩, .add 2 ⟨7, 4⟩,
    .remove 2 ⟨7, 5⟩, .add 1 ⟨7, 6⟩, .remove 1 ⟨7, 7⟩, .add 1 ⟨7, 8⟩,
    .remove 1 ⟨7, 9⟩, .add 2 ⟨7, 10⟩, .remove 2 ⟨7, 11⟩, .add 3 ⟨7, 12⟩]

theorem run_refines_bounded_churn : ∃ s₀ results s, OrswotSlots.withCapacity 1 = some s₀ ∧
    s₀.run churn = some (results, s) ∧ results.map Except.isOk = (boundedRun 1 ∅ churn).1 ∧
    Shows s (boundedRun 1 ∅ churn).2 :=
  have hchurn : SingleWriter 7 churn := ⟨by decide, by decide, by decide⟩
  run_refines_bounded (by decide) hchurn

end NexusSfu.State
