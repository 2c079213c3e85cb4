import NexusSfu.Swim.Shared

namespace NexusSfu.Swim

open Base State List

inductive NodeCall
  | createRoom (roomId : RoomId) (name : String) (maxParticipants : Nat)
  | operation (op : Operation)
  | mergeDelta (update : Update)

def NodeCall.apply (s : DistributedState) : NodeCall → DistributedState
  | createRoom r name n => (s.createRoom r name n).2
  | operation op => op.perform s
  | mergeDelta (.delta u) => (s.mergeDelta u).2
  | mergeDelta (.trackUpdated t info timestamp actor) =>
    (s.mergeTrackUpdated t info timestamp actor).2
  | mergeDelta (.relaySubscribe _ _) | mergeDelta (.relayUnsubscribe _ _) => s

structure Keyed (s : DistributedState) : Prop where
  actor : s.localActor < maxActors
  rooms : ∀ room ∈ s.rooms, (room.participants.elements.map Prod.fst).Nodup
  subscriptions : (s.subscriptions.elements.map Prod.fst).Nodup

namespace Keyed

variable {s : DistributedState} {r : RoomId}

theorem setParticipants (h : Keyed s) {set : Orswot ParticipantId}
    (hset : (set.elements.map Prod.fst).Nodup) : Keyed (s.setParticipants r set) := by
  refine ⟨h.actor, fun room hroom => ?_, h.subscriptions⟩
  obtain ⟨room', hroom', rfl⟩ := mem_map.1 hroom
  split_ifs
  · exact hset
  · exact h.rooms room' hroom'

theorem insertRoom (h : Keyed s) (r : RoomId) (name : String) (n : Nat) :
    Keyed (s.insertRoom r name n) := by
  refine ⟨h.actor, fun room hroom => ?_, h.subscriptions⟩
  rcases mem_append.1 hroom with hroom | hroom
  · exact h.rooms room hroom
  · cases mem_singleton.1 hroom
    exact nodup_nil

theorem getRoom (h : Keyed s) {room : Room} (hroom : s.getRoom r = some room) :
    (room.participants.elements.map Prod.fst).Nodup :=
  h.rooms room (mem_of_find?_eq_some hroom)

theorem keys_add {T : Type} [DecidableEq T] {o : Orswot T} (h : (o.elements.map Prod.fst).Nodup)
    (x : T) (d : Dot) : ((o.add x d).2.elements.map Prod.fst).Nodup :=
  (o.add_adds x d).keys h

theorem keys_remove {T : Type} [DecidableEq T] {o : Orswot T} (h : (o.elements.map Prod.fst).Nodup)
    (x : T) (d : Dot) : ((o.remove x d).2.elements.map Prod.fst).Nodup :=
  h.sublist ((o.remove_sublist x d).map _)

theorem edit {op : Operation} {s' : DistributedState} (h : Keyed s) (he : op.Edit s s') :
    Keyed s' := by
  cases he with
  | keep => exact ⟨h.actor, h.rooms, h.subscriptions⟩
  | openRoom name n r nextRoomId =>
    exact insertRoom (s := { s.tick with nextRoomId })
      ⟨h.actor, h.rooms, h.subscriptions⟩ r name n
  | closeRoom r =>
    exact ⟨h.actor, fun room hroom => h.rooms room (mem_of_mem_filter hroom), h.subscriptions⟩
  | addParticipant r p room broadcast hroom =>
    obtain ⟨ha, hr, hs⟩ := h.setParticipants (r := r) (keys_add (h.getRoom hroom) p s.nextDot)
    exact ⟨ha, hr, hs⟩
  | removeParticipant r p room broadcast hroom =>
    obtain ⟨ha, hr, hs⟩ :=
      h.setParticipants (r := r) (keys_remove (h.getRoom hroom) p s.nextDot)
    exact ⟨ha, hr, hs⟩
  | addTrack | updateTrack | removeTrack | fail => exact ⟨h.actor, h.rooms, h.subscriptions⟩
  | addSubscription t p => exact ⟨h.actor, h.rooms, keys_add h.subscriptions (t, p) s.nextDot⟩
  | removeSubscription t p =>
    exact ⟨h.actor, h.rooms, keys_remove h.subscriptions (t, p) s.nextDot⟩

theorem updateParticipants (h : Keyed s)
    {update : Orswot ParticipantId → Except CrdtError Bool × Orswot ParticipantId}
    (hu : ∀ o : Orswot ParticipantId, (o.elements.map Prod.fst).Nodup →
      ((update o).2.elements.map Prod.fst).Nodup) : Keyed (s.updateParticipants r update).2 := by
  unfold DistributedState.updateParticipants
  cases hroom : s.getRoom r with
  | none => exact h
  | some room => exact h.setParticipants (hu _ (h.getRoom hroom))

theorem mergeDelta (h : Keyed s) (u : StateUpdate) : Keyed (s.mergeDelta u).2 := by
  unfold DistributedState.mergeDelta
  cases checkDelta u with
  | error e => exact h
  | ok _ =>
    cases u with
    | participantAdded r p d => exact h.updateParticipants fun o ho => keys_add ho p d
    | participantRemoved r p d => exact h.updateParticipants fun o ho => keys_remove ho p d
    | subscriptionAdded t p d =>
      dsimp only
      split_ifs
      · exact h
      · exact ⟨h.actor, h.rooms, keys_add h.subscriptions (t, p) d⟩
    | subscriptionRemoved t p d =>
      exact ⟨h.actor, h.rooms, keys_remove h.subscriptions (t, p) d⟩

theorem createRoom (h : Keyed s) (r : RoomId) (name : String) (n : Nat) :
    Keyed (s.createRoom r name n).2 := by
  unfold DistributedState.createRoom
  split_ifs
  · exact h
  all_goals
    cases checkRoomInput name n with
    | error e => exact h
    | ok _ => ?_
  · exact ⟨h.actor, h.rooms, h.subscriptions⟩
  · exact ⟨h.actor, h.rooms, h.subscriptions⟩
  · exact insertRoom (s := s.tick) ⟨h.actor, h.rooms, h.subscriptions⟩ r name n

theorem apply (h : Keyed s) (c : NodeCall) : Keyed (c.apply s) := by
  cases c with
  | createRoom r name n => exact h.createRoom r name n
  | operation op => exact h.edit (op.edit_perform s)
  | mergeDelta u =>
    cases u with
    | delta u => exact h.mergeDelta u
    | trackUpdated t info timestamp actor =>
      rw [NodeCall.apply, DistributedState.mergeTrackUpdated]
      split_ifs <;> exact ⟨h.actor, h.rooms, h.subscriptions⟩
    | relaySubscribe | relayUnsubscribe => exact h

theorem run (h : Keyed s) (calls : List NodeCall) : Keyed (calls.foldl NodeCall.apply s) := by
  induction calls generalizing s with
  | nil => exact h
  | cons c calls ih => exact ih (h.apply c)

end Keyed

variable {s : DistributedState}

theorem keyed_new (config : DistributedStateConfig) : Keyed (.new config) :=
  ⟨config.actor_lt, nofun, nodup_nil⟩

theorem Keyed.nextDot_valid (h : Keyed s) : s.nextDot.Valid :=
  ⟨h.actor, Nat.succ_ne_zero s.clock⟩

theorem Keyed.removeParticipant_iff (h : Keyed s) (r : RoomId) (p : ParticipantId) :
    ((∃ d, (s.removeParticipant r p).1 = .ok d) →
      (s.removeParticipant r p).2.participantExists r p = false) ↔
    (r ≠ 0 → p ≠ 0 → ∀ room old, s.getRoom r = some room →
      room.participants.dotOf p = some old → old ≤ s.nextDot) := by
  unfold DistributedState.removeParticipant checkParticipantIds
  by_cases hr : r = 0
  · simp [hr]
  by_cases hp : p = 0
  · simp [hr, hp]
  rw [if_neg hr, if_neg hp]
  cases hroom : s.getRoom r with
  | none => simp
  | some room =>
    obtain ⟨b, hb⟩ := remove_ok (o := room.participants) (x := p) h.nextDot_valid
    have hiff := room.participants.remove_contains_iff (x := p) h.nextDot_valid.1 (h.getRoom hroom)
    cases hremove : room.participants.remove p s.nextDot with
    | mk res set =>
      rw [hremove] at hb hiff
      cases hb
      have hexists : ((s.tick.setParticipants r set).send
          (.participantRemoved r p s.nextDot)).participantExists r p = set.contains p :=
        (DistributedState.participantExists_setParticipants (s := s.tick) hroom r p).trans
          (if_pos rfl)
      simp only [hremove]
      rw [hexists, hiff]
      constructor
      · rintro h - - room' old hroom' hold
        cases hroom'
        exact h ⟨_, rfl⟩ old hold
      · exact fun h _ old hold => h hr hp room old rfl hold

theorem Keyed.removeSubscription_iff (h : Keyed s) (t : TrackId) (p : ParticipantId) :
    ((∃ d, (s.removeSubscription t p).1 = .ok d) →
      (s.removeSubscription t p).2.subscriptions.contains (t, p) = false) ↔
    (t ≠ 0 → p ≠ 0 → ∀ old, s.subscriptions.dotOf (t, p) = some old →
      old ≤ s.nextDot) := by
  unfold DistributedState.removeSubscription checkSubscriptionIds
  by_cases ht : t = 0
  · simp [ht]
  by_cases hp : p = 0
  · simp [ht, hp]
  rw [if_neg ht, if_neg hp]
  obtain ⟨b, hb⟩ := remove_ok (o := s.subscriptions) (x := (t, p)) h.nextDot_valid
  have hiff := s.subscriptions.remove_contains_iff (x := (t, p)) h.nextDot_valid.1 h.subscriptions
  cases hremove : s.subscriptions.remove (t, p) s.nextDot with
  | mk res set =>
    rw [hremove] at hb hiff
    cases hb
    simp only [DistributedState.send]
    rw [hiff]
    exact ⟨fun h _ _ => h ⟨_, rfl⟩, fun h _ => h ht hp⟩

/-- A removal that returns without an error has removed the element, unless the element is there
under a dot that is newer than the node's own next one. -/
theorem removal_works_iff (config : DistributedStateConfig) (calls : List NodeCall) (r : RoomId)
    (t : TrackId) (p : ParticipantId) :
    let s := calls.foldl NodeCall.apply (.new config)
    (((∃ d, (s.removeParticipant r p).1 = .ok d) →
        (s.removeParticipant r p).2.participantExists r p = false) ↔
      (r ≠ 0 → p ≠ 0 → ∀ room old, s.getRoom r = some room →
        room.participants.dotOf p = some old → old ≤ s.nextDot)) ∧
    (((∃ d, (s.removeSubscription t p).1 = .ok d) →
        (s.removeSubscription t p).2.subscriptions.contains (t, p) = false) ↔
      (t ≠ 0 → p ≠ 0 → ∀ old, s.subscriptions.dotOf (t, p) = some old →
        old ≤ s.nextDot)) := by
  intro s
  have hs : Keyed s := (keyed_new config).run calls
  exact ⟨hs.removeParticipant_iff r p, hs.removeSubscription_iff t p⟩

def addedAhead : List NodeCall :=
  [.createRoom 1 "a" 2, .mergeDelta (.delta (.participantAdded 1 5 ⟨1, 9⟩)),
    .mergeDelta (.delta (.subscriptionAdded 3 5 ⟨1, 10⟩))]

theorem removal_leaves_addedAhead :
    let s := addedAhead.foldl NodeCall.apply (.new { localActor := 0 })
    (s.removeParticipant 1 5).1 = .ok ⟨0, 2⟩ ∧
      (s.removeParticipant 1 5).2.participantExists 1 5 = true ∧
      (s.removeSubscription 3 5).1 = .ok ⟨0, 2⟩ ∧
      (s.removeSubscription 3 5).2.subscriptions.contains (3, 5) = true := by
  decide +kernel

end NexusSfu.Swim
