import NexusSfu.Base.Run
import NexusSfu.State.Bounded
import NexusSfu.State.Distributed

/-!
The set operations of the replicated state under concurrent calls. A call takes its dot under the
lock of the clock and then waits for the lock of the set, so dots may arrive in another order.
-/

namespace NexusSfu.State

open Base Function Option

structure SafeSet (T : Type) where
  slots : OrswotSlots T
  wellFormed : slots.WellFormed

namespace SafeSet

variable {T : Type} [DecidableEq T]

variable (s : SafeSet T)

/-- A call; `none` is an assertion that fails. -/
def apply (δ : Delta T) : Option (Except CrdtError Bool × SafeSet T) :=
  match h : s.slots.apply δ with
  | none => none
  | some (result, slots) =>
    some (result, ⟨slots, by
      obtain ⟨t, ht, -, hwf⟩ := apply_refines s.wellFormed δ
      cases h.symm.trans ht
      exact hwf⟩)

def settle (δ : Delta T) (asserted : Bool) : Option (Except CrdtError Dot × SafeSet T) :=
  match s.apply δ with
  | none => none
  | some (.error e, s) => some (.error e, s)
  | some (.ok _, s) =>
    if asserted = true ∧ s.slots.contains δ.element ≠ δ.leaves.isSome then none
    else some (.ok δ.dot, s)

def InOrder : Delta T → Prop
  | .add x d => s.slots.isTombstoned d = false ∨ s.slots.contains x = true
  | .remove x d => ∀ e, s.slots.find x = some e → e.dot ≤ d

def Settles (δ : Delta T) (asserted : Bool) : Prop :=
  ∃ result s', s.settle δ asserted = some (result, s') ∧
    ∀ d, result = .ok d → s'.slots.contains δ.element = δ.leaves.isSome

end SafeSet

namespace SafeSet

variable {T : Type} [DecidableEq T] {s : SafeSet T} {δ : Delta T}

theorem apply_eq (s : SafeSet T) (δ : Delta T) :
    ∃ s', s.apply δ = some ((δ.apply s.slots.toOrswot).1, s') ∧
      s'.slots.toOrswot = (δ.apply s.slots.toOrswot).2 := by
  obtain ⟨t, ht, heq, -⟩ := apply_refines s.wellFormed δ
  rw [apply]
  split
  · rename_i hnone
    cases hnone.symm.trans ht
  · rename_i result slots hsome
    cases hsome.symm.trans ht
    exact ⟨_, rfl, heq⟩

theorem inOrder_iff (hv : δ.dot.Valid) {b : Bool} (h : (δ.apply s.slots.toOrswot).1 = .ok b) :
    (δ.apply s.slots.toOrswot).2.contains δ.element = δ.leaves.isSome ↔ s.InOrder δ := by
  cases δ with
  | add x d =>
    rw [InOrder, OrswotSlots.isTombstoned_eq, OrswotSlots.contains_eq]
    exact Orswot.add_contains_iff h
  | remove x d =>
    refine (Orswot.remove_contains_iff hv.1 s.wellFormed.keys).trans
      ⟨fun h e he => h _ ?_, fun h old hold => ?_⟩
    · rw [← OrswotSlots.find_eq, he, map_some]
    · rw [← OrswotSlots.find_eq] at hold
      obtain ⟨e, he, rfl⟩ := map_eq_some_iff.1 hold
      exact h e he

theorem inOrder_of_error (hv : δ.dot.Valid) {e : CrdtError}
    (h : (δ.apply s.slots.toOrswot).1 = .error e) :
    s.InOrder δ := by
  cases δ with
  | add x d =>
    have hadds := s.slots.toOrswot.add_adds x d
    cases hadd : s.slots.toOrswot.add x d with
    | mk r o' =>
      rw [Delta.apply, hadd] at h
      rw [hadd] at hadds
      cases hadds with
      | invalid _ hv' => exact absurd hv hv'
      | tombstoned | older | renewed | added => cases h
      | full _ ht => exact .inl ((OrswotSlots.isTombstoned_eq _ _).trans ht)
  | remove x d =>
    have hactor : ¬ d.actorId ≥ maxActors := not_le.2 hv.1
    rw [Delta.apply, Orswot.remove, if_neg hactor] at h
    split at h
    · split_ifs at h
    · cases h

theorem settles_iff (s : SafeSet T) (hv : δ.dot.Valid) (asserted : Bool) :
    s.Settles δ asserted ↔ s.InOrder δ := by
  obtain ⟨s', happly, heq⟩ := s.apply_eq δ
  have hcontains := OrswotSlots.contains_eq s'.slots δ.element
  rw [heq] at hcontains
  unfold Settles settle
  rw [happly]
  cases hresult : (δ.apply s.slots.toOrswot).1 with
  | error e => exact iff_of_true ⟨.error e, s', rfl, nofun⟩ (inOrder_of_error hv hresult)
  | ok b =>
    rw [← inOrder_iff hv hresult, ← hcontains]
    constructor
    · rintro ⟨result, t, ht, hok⟩
      dsimp only at ht
      split_ifs at ht
      cases ht
      exact hok δ.dot rfl
    · intro hdone
      exact ⟨.ok δ.dot, s', if_neg fun h => h.2 hdone, fun _ _ => hdone⟩

end SafeSet

inductive SetCall
  | addParticipant (roomId : RoomId) (participantId : ParticipantId)
  | removeParticipant (roomId : RoomId) (participantId : ParticipantId)
  | addSubscription (trackId : TrackId) (participantId : ParticipantId)
  | removeSubscription (trackId : TrackId) (participantId : ParticipantId)

def SetCall.check : SetCall → Except CrdtError Unit
  | addParticipant roomId participantId | removeParticipant roomId participantId =>
    checkParticipantIds roomId participantId
  | addSubscription trackId participantId | removeSubscription trackId participantId =>
    checkSubscriptionIds trackId participantId

structure SharedSets where
  localActor : Nat
  actor_lt : localActor < maxActors
  clock : Nat
  rooms : RoomId → Option (Nat × SafeSet ParticipantId)
  subscriptions : SafeSet (TrackId × ParticipantId)
  maxSubscriptions : Nat

namespace SharedSets

variable (s : SharedSets)

def setRoom (roomId : RoomId) (max : Nat) (set : SafeSet ParticipantId) : SharedSets :=
  { s with rooms := update s.rooms roomId (some (max, set)) }

def participantExists (roomId : RoomId) (participantId : ParticipantId) : Bool :=
  (s.rooms roomId).any fun room => room.2.slots.contains participantId

def locked (dot : Dot) : SetCall → Option (Except CrdtError Dot × SharedSets)
  | .addParticipant roomId participantId =>
    match s.rooms roomId with
    | none => some (.error .elementNotFound, s)
    | some (max, set) =>
      if set.slots.len.toNat ≥ max then some (.error (.capacityExhausted max), s)
      else (set.settle (.add participantId dot) true).map (Prod.map id (s.setRoom roomId max))
  | .removeParticipant roomId participantId =>
    match s.rooms roomId with
    | none => some (.error .elementNotFound, s)
    | some (max, set) =>
      (set.settle (.remove participantId dot) true).map (Prod.map id (s.setRoom roomId max))
  | .addSubscription trackId participantId =>
    if s.subscriptions.slots.len.toNat ≥ s.maxSubscriptions then
      some (.error (.capacityExhausted s.maxSubscriptions), s)
    else (s.subscriptions.settle (.add (trackId, participantId) dot) false).map
      (Prod.map id fun set => { s with subscriptions := set })
  | .removeSubscription trackId participantId =>
    (s.subscriptions.settle (.remove (trackId, participantId) dot) false).map
      (Prod.map id fun set => { s with subscriptions := set })

def Shows : SetCall → Prop
  | .addParticipant roomId participantId => s.participantExists roomId participantId = true
  | .removeParticipant roomId participantId => s.participantExists roomId participantId = false
  | .addSubscription trackId participantId =>
    s.subscriptions.slots.contains (trackId, participantId) = true
  | .removeSubscription trackId participantId =>
    s.subscriptions.slots.contains (trackId, participantId) = false

def InOrder (dot : Dot) : SetCall → Prop
  | .addParticipant roomId participantId => ∀ max set, s.rooms roomId = some (max, set) →
      set.slots.len.toNat < max → set.InOrder (.add participantId dot)
  | .removeParticipant roomId participantId => ∀ max set, s.rooms roomId = some (max, set) →
      set.InOrder (.remove participantId dot)
  | .addSubscription trackId participantId =>
    s.subscriptions.slots.len.toNat < s.maxSubscriptions →
      s.subscriptions.InOrder (.add (trackId, participantId) dot)
  | .removeSubscription trackId participantId =>
    s.subscriptions.InOrder (.remove (trackId, participantId) dot)

def Atomic (dot : Dot) (c : SetCall) : Prop :=
  ∃ result s', s.locked dot c = some (result, s') ∧ ∀ d, result = .ok d → s'.Shows c

theorem stored_iff {T : Type} [DecidableEq T] {set : SafeSet T} (δ : Delta T) {asserted : Bool}
    (hv : δ.dot.Valid) {store : SafeSet T → SharedSets} {P : SharedSets → Prop}
    (hP : ∀ set, P (store set) ↔ set.slots.contains δ.element = δ.leaves.isSome) :
    (∃ result s', (set.settle δ asserted).map (Prod.map id store) = some (result, s') ∧
      ∀ d, result = .ok d → P s') ↔ set.InOrder δ := by
  rw [← set.settles_iff hv asserted]
  constructor
  · rintro ⟨result, s', hsettle, hok⟩
    obtain ⟨⟨r, set'⟩, hset', heq⟩ := map_eq_some_iff.1 hsettle
    cases heq
    exact ⟨r, set', hset', fun d hd => (hP set').1 (hok d hd)⟩
  · rintro ⟨result, set', hsettle, hok⟩
    exact ⟨result, store set', by rw [hsettle]; rfl, fun d hd => (hP set').2 (hok d hd)⟩

theorem atomic_iff {dot : Dot} (hv : dot.Valid) (c : SetCall) :
    s.Atomic dot c ↔ s.InOrder dot c := by
  have hrefused : ∀ {e : CrdtError}, ∃ result s', some (Except.error e, s) =
      some (result, s') ∧ ∀ d : Dot, result = .ok d → s'.Shows c :=
        fun {e} => ⟨.error e, s, rfl, nofun⟩
  cases c with
  | addParticipant roomId participantId =>
    simp only [Atomic, locked, InOrder]
    cases hroom : s.rooms roomId with
    | none => exact iff_of_true hrefused (fun _ _ h => nomatch h)
    | some room =>
      obtain ⟨max, set⟩ := room
      dsimp only
      split_ifs with hfull
      · refine iff_of_true hrefused fun max' set' heq hlt => ?_
        cases heq
        exact absurd hlt (not_lt.2 hfull)
      · refine (stored_iff (.add participantId dot) hv fun set' => ?_).trans
          ⟨fun h _ _ heq _ => ?_, fun h => h max set rfl (not_le.1 hfull)⟩
        · simp [Shows, participantExists, setRoom, Delta.element, Delta.leaves]
        · cases heq
          exact h
  | removeParticipant roomId participantId =>
    simp only [Atomic, locked, InOrder]
    cases hroom : s.rooms roomId with
    | none => exact iff_of_true hrefused (fun _ _ h => nomatch h)
    | some room =>
      obtain ⟨max, set⟩ := room
      refine (stored_iff (.remove participantId dot) hv fun set' => ?_).trans
        ⟨fun h _ _ heq => ?_, fun h => h max set rfl⟩
      · simp [Shows, participantExists, setRoom, Delta.element, Delta.leaves]
      · cases heq
        exact h
  | addSubscription trackId participantId =>
    simp only [Atomic, locked, InOrder]
    split_ifs with hfull
    · exact iff_of_true hrefused fun hlt => absurd hlt (not_lt.2 hfull)
    · exact (stored_iff (.add (trackId, participantId) dot) hv fun _ => Iff.rfl).trans
        ⟨fun h _ => h, fun h => h (not_le.1 hfull)⟩
  | removeSubscription trackId participantId =>
    exact stored_iff (.remove (trackId, participantId) dot) hv fun _ => Iff.rfl

end SharedSets

structure SetPool where
  sets : SharedSets
  waiting : List (SetCall × { d : Dot // d.Valid }) := []

inductive SetStep
  | call (c : SetCall)
  | enter (i : Nat)

namespace SetPool

def step (p : SetPool) : SetStep → Option SetPool
  | .call c =>
    match c.check with
    | .error _ => some p
    | .ok () =>
      if p.sets.clock + 1 < 2 ^ 64 then
        some {
          sets := { p.sets with clock := p.sets.clock + 1 }
          waiting := p.waiting ++
            [(c, ⟨⟨p.sets.localActor, p.sets.clock + 1⟩, p.sets.actor_lt,
              Nat.succ_ne_zero _⟩)] }
      else none
  | .enter i =>
    match p.waiting[i]? with
    | none => some p
    | some (c, dot) => (p.sets.locked dot c).map fun r => ⟨r.2, p.waiting.eraseIdx i⟩

variable (p : SetPool)

def Atomic : SetStep → Prop
  | .call c => (p.step (.call c)).isSome = true
  | .enter i => ∀ c dot, p.waiting[i]? = some (c, dot) → p.sets.Atomic dot c

def InOrder : SetStep → Prop
  | .call c => c.check = .ok () → p.sets.clock + 1 < 2 ^ 64
  | .enter i => ∀ c dot, p.waiting[i]? = some (c, dot) → p.sets.InOrder dot c

theorem atomic_step_iff (a : SetStep) : p.Atomic a ↔ p.InOrder a := by
  cases a with
  | call c =>
    rw [Atomic, InOrder, step]
    cases c.check with
    | error e => simp
    | ok u => simp
  | enter i => exact forall₃_congr fun c dot _ => p.sets.atomic_iff dot.2 c

/-- From any state and for any number of callers: in a run every call is atomic exactly if each
reaches its set with its dot in order. -/
theorem calls_atomic_iff (steps : List SetStep) :
    Permitted Atomic step p steps ↔ Permitted InOrder step p steps := by
  have hsame : Atomic = InOrder := by
    funext p a
    exact propext (p.atomic_step_iff a)
  rw [hsame]

def emptySet (T : Type) : SafeSet T where
  slots := { maxElements := 10, maxTombstones := 20 }
  wellFormed := by
    refine ⟨?_, Nat.zero_le _, rfl, ⟨Nat.succ_pos _, ?_⟩, Nat.succ_pos _, List.not_mem_nil,
      Nat.zero_le _, rfl, List.nodup_nil⟩
    · exact Nat.le_of_ble_eq_true rfl
    · exact Nat.le_of_ble_eq_true rfl

def opened : SetPool where
  sets := {
    localActor := 3
    actor_lt := by decide
    clock := 0
    rooms := fun r => if r = 1 then some (10, emptySet ParticipantId) else none
    subscriptions := emptySet (TrackId × ParticipantId)
    maxSubscriptions := 10 }

def overtaken (add remove : ParticipantId → SetCall) : List SetStep :=
  [.call (add 7), .call (add 8), .enter 1, .call (remove 8), .enter 1, .enter 0]

theorem overtaken_add_lost :
    run step opened (overtaken (.addParticipant 1) (.removeParticipant 1)) = none ∧
      (run step opened (overtaken (.addSubscription 1) (.removeSubscription 1))).any (fun p =>
        p.waiting.isEmpty && !p.sets.subscriptions.slots.contains (1, 7)) = true ∧
      ((run step opened (overtaken (.addSubscription 1) (.removeSubscription 1)).dropLast).bind
        fun p =>
        p.waiting[0]?.bind fun w => (p.sets.locked w.2 w.1).map fun r =>
        r.1) = some (.ok ⟨3, 1⟩) := by
  decide +kernel

end SetPool
end NexusSfu.State
