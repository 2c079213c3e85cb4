import NexusSfu.State.Node
import NexusSfu.Swim.Membership

namespace NexusSfu.State

open Base List

namespace Orswot

variable {T : Type} [DecidableEq T]

/-- What `add` asserts when it takes a slot: there is one, and then the element is in the set. -/
def addAsserts (s : Orswot T) (element : T) (dot : Dot) : Bool :=
  match s.dotOf element, s.add element dot with
  | none, (.ok true, s') =>
    (s.entries.any Option.isNone || s.entries.length < s.maxElements) && s'.contains element
  | _, _ => true

def addTombstoneAsserts (s : Orswot T) (dot : Dot) : Bool :=
  s.hasTombstone dot ||
    (s.tombstones.length < s.maxTombstones || s.nextTombstone < s.maxTombstones)
      && (s.addTombstone dot).tombstones.length ≤ s.maxTombstones

def removeAsserts (s : Orswot T) (element : T) (dot : Dot) : Bool :=
  match s.dotOf element, s.remove element dot with
  | some entryDot, (.ok true, s') => s.addTombstoneAsserts entryDot && !s'.contains element
  | _, _ => true

/-- A set in which only a node whose clock reads `clock` has written. -/
structure DatedBy (clock : Nat) (s : Orswot T) : Prop where
  keys : (s.elements.map Prod.fst).Nodup
  next : s.nextTombstone < s.maxTombstones
  room : s.tombstones.length ≤ s.maxTombstones
  elements : ∀ e ∈ s.elements, e.2.clock ≤ clock
  tombstones : ∀ t ∈ s.tombstones, t.clock ≤ clock

variable {s : Orswot T} {element : T} {dot : Dot} {clock clock' : Nat}

omit [DecidableEq T] in
theorem datedBy_withCapacity {n : Nat} (h : 0 < n) : DatedBy clock (withCapacity n : Orswot T) :=
  ⟨nodup_nil, lt_min (Nat.mul_pos Nat.two_pos h) (Nat.succ_pos 4999), Nat.zero_le _,
    nofun, nofun⟩

omit [DecidableEq T] in
theorem DatedBy.mono (h : DatedBy clock s) (hle : clock ≤ clock') : DatedBy clock' s :=
  ⟨h.keys, h.next, h.room, fun e he => (h.elements e he).trans hle,
    fun t ht => (h.tombstones t ht).trans hle⟩

theorem addAsserts_eq : s.addAsserts element dot = true := by
  unfold addAsserts
  split
  case h_1 s' hnone hadd =>
    have hadds := s.add_adds element dot
    rw [hadd] at hadds
    cases hadds with
    | renewed _ _ hx => cases hnone.symm.trans hx
    | added _ _ _ hlt =>
      rw [contains_fill, Bool.and_true, Bool.or_eq_true, decide_eq_true_eq]
      by_cases hfree : s.entries.any Option.isNone
      · exact .inl hfree
      · exact .inr ((length_items_of_full hfree) ▸ hlt)
  case h_2 => rfl

omit [DecidableEq T] in
theorem length_addTombstone (hroom : s.tombstones.length ≤ s.maxTombstones) :
    (s.addTombstone dot).tombstones.length ≤ s.maxTombstones := by
  unfold addTombstone
  split_ifs with hhas hlt
  · exact hroom
  · simpa using Nat.succ_le_of_lt hlt
  · simpa using hroom

omit [DecidableEq T] in
theorem DatedBy.addTombstone (h : DatedBy clock s) (hdot : dot.clock ≤ clock) :
    DatedBy clock (s.addTombstone dot) := by
  refine ⟨?_, ?_, ?_, ?_, fun t ht => ?_⟩
  · rw [addTombstone_elements]
    exact h.keys
  · unfold Orswot.addTombstone
    split_ifs
    · exact h.next
    · exact h.next
    · exact Nat.mod_lt _ (Nat.zero_lt_of_lt h.next)
  · rw [addTombstone_maxTombstones]
    exact length_addTombstone h.room
  · rw [addTombstone_elements]
    exact h.elements
  · rcases mem_addTombstone_of ht with rfl | ht
    · exact hdot
    · exact h.tombstones t ht

theorem DatedBy.dotOf (h : DatedBy clock s) {old : Dot} (hx : s.dotOf element = some old) :
    old.clock ≤ clock :=
  h.elements (element, old) ((dotOf_eq_some h.keys).1 hx)

theorem DatedBy.add (h : DatedBy clock s) (element : T) (hdot : dot.clock ≤ clock) :
    DatedBy clock (s.add element dot).2 := by
  have hadds := s.add_adds element dot
  obtain ⟨htombs, hnext⟩ := hadds.ring
  refine ⟨hadds.keys h.keys, ?_, ?_, fun e he => ?_, ?_⟩
  · rw [hnext, hadds.limits.2]
    exact h.next
  · rw [htombs, hadds.limits.2]
    exact h.room
  · rcases hadds.mem he with he | ⟨rfl, -⟩
    · exact h.elements e he
    · exact hdot
  · rw [htombs]
    exact h.tombstones

theorem DatedBy.remove (h : DatedBy clock s) (element : T) (dot : Dot) :
    DatedBy clock (s.remove element dot).2 := by
  unfold Orswot.remove
  split_ifs
  · exact h
  · cases hx : s.dotOf element with
    | none => exact h
    | some old =>
      dsimp only
      split_ifs
      · have htomb := h.addTombstone (h.dotOf hx)
        have hsub : ((s.addTombstone old).setEntry element none).elements.Sublist
            (s.addTombstone old).elements := by
          rw [Orswot.elements, setEntry, items_replaceFirst_none]
          exact eraseP_sublist
        exact ⟨htomb.keys.sublist (hsub.map _), htomb.next, htomb.room,
          fun e he => htomb.elements e (hsub.subset he), htomb.tombstones⟩
      · exact h

theorem DatedBy.removeAsserts (h : DatedBy clock s) : s.removeAsserts element dot = true := by
  unfold Orswot.removeAsserts
  split
  case h_1 old s' hx hremove =>
    have hgone : s'.contains element = false := by
      rw [Orswot.remove, hx] at hremove
      split_ifs at hremove
      · cases hremove
      · dsimp only at hremove
        split_ifs at hremove
        · cases hremove
          exact contains_setEntry_none _ (h.addTombstone (h.dotOf hx)).keys element
        · cases hremove
    rw [hgone, Bool.not_false, Bool.and_true, addTombstoneAsserts]
    simp [h.next, length_addTombstone h.room]
  case h_2 => rfl

/-- The next dot of the node is neither buried nor older than what is there, so a call does what it
is for. -/
theorem DatedBy.contains_add (h : DatedBy clock s) (hdot : dot.clock = clock + 1) {b : Bool}
    (hok : (s.add element dot).1 = .ok b) : (s.add element dot).2.contains element = true := by
  refine (add_contains_iff hok).2 (.inl ?_)
  rw [isTombstoned, any_eq_false]
  intro t ht hcover
  have hle := h.tombstones t ht
  simp only [Bool.and_eq_true, decide_eq_true_eq] at hcover
  omega

theorem DatedBy.contains_remove (h : DatedBy clock s) (element : T) (hdot : dot.clock = clock + 1)
    (hactor : dot.actorId < maxActors) : (s.remove element dot).2.contains element = false := by
  refine (remove_contains_iff hactor h.keys).2 fun old hold => (dot_lt_of_clock ?_).le
  have hle := h.dotOf hold
  omega

end Orswot

namespace DistributedState

variable {s : DistributedState} {r : RoomId}

structure Sound (s : DistributedState) : Prop where
  actor : s.localActor < maxActors
  rooms : ∀ room ∈ s.rooms, room.participants.DatedBy s.clock
  subscriptions : s.subscriptions.DatedBy s.clock
  nextRoomId : 0 < s.nextRoomId

theorem sound_new (config : DistributedStateConfig) : Sound (.new config) :=
  ⟨config.actor_lt, nofun, Orswot.datedBy_withCapacity (by decide), Nat.one_pos⟩

theorem Sound.getRoom (h : Sound s) {room : Room} (hroom : s.getRoom r = some room) :
    room.participants.DatedBy s.clock := h.rooms room (mem_of_find?_eq_some hroom)

theorem Sound.later (h : Sound s) {clock : Nat} {nextRoomId : RoomId} (hclock : s.clock ≤ clock)
    (hnext : s.nextRoomId ≤ nextRoomId) : Sound { s with clock, nextRoomId } :=
  ⟨h.actor, fun room hroom => (h.rooms room hroom).mono hclock, h.subscriptions.mono hclock,
    h.nextRoomId.trans_le hnext⟩

theorem Sound.tick (h : Sound s) : Sound s.tick := h.later (Nat.le_succ s.clock) le_rfl

theorem Sound.setParticipants (h : Sound s) {set : Orswot ParticipantId}
    (hset : set.DatedBy s.clock) : Sound (s.setParticipants r set) := by
  refine ⟨h.actor, fun room hroom => ?_, h.subscriptions, h.nextRoomId⟩
  obtain ⟨room', hroom', rfl⟩ := mem_map.1 hroom
  split_ifs
  · exact hset
  · exact h.rooms room' hroom'

theorem Sound.insertRoom (h : Sound s) {name : String} {n : Nat} (hn : 0 < n) :
    Sound (s.insertRoom r name n) := by
  refine ⟨h.actor, fun room hroom => ?_, h.subscriptions, h.nextRoomId⟩
  rcases mem_append.1 hroom with hroom | hroom
  · exact h.rooms room hroom
  · cases mem_singleton.1 hroom
    exact Orswot.datedBy_withCapacity hn

theorem checkRoomInput_ok {name : String} {n : Nat} (h : checkRoomInput name n = .ok ()) :
    name.utf8ByteSize ≤ maxRoomNameLen ∧ 0 < n ∧ n ≤ maxParticipantsPerRoomLimit := by
  unfold checkRoomInput at h
  split_ifs at h with hname hn
  push Not at hn
  exact ⟨not_lt.1 hname, Nat.pos_of_ne_zero hn.1, hn.2⟩

/-- What is asserted on the way of a new room into the tables: in the allocation, in
`RoomMetadata::new`, in `insert_room` and in `Orswot::with_capacity`. -/
def insertRoomAsserts (s : DistributedState) (name : String) (maxParticipants : Nat) : Bool :=
  s.nextRoomId ≠ 0 &&
    match s.createRoomAuto name maxParticipants with
    | (.ok id, s') =>
      id ≠ 0 && name.utf8ByteSize ≤ maxRoomNameLen && 0 < maxParticipants
        && maxParticipants ≤ maxParticipantsPerRoomLimit && !s.roomExists id
        && s.rooms.length < s.maxRooms && maxParticipants ≤ maxElementsLimit && s'.roomExists id
    | (.error _, _) => true

theorem roomExists_insertRoom (name : String) (n : Nat) :
    (s.insertRoom r name n).roomExists r = true := by
  rw [roomExists, DistributedState.getRoom, find?_isSome]
  exact ⟨_, mem_append_right _ (mem_singleton_self _), decide_eq_true rfl⟩

theorem Sound.insertRoomAsserts (h : Sound s) (name : String) (n : Nat) :
    s.insertRoomAsserts name n = true := by
  rw [DistributedState.insertRoomAsserts, Bool.and_eq_true]
  refine ⟨decide_eq_true h.nextRoomId.ne', ?_⟩
  unfold DistributedState.createRoomAuto
  cases hinput : checkRoomInput name n with
  | error e => rfl
  | ok _ =>
    dsimp only
    by_cases hmax : s.rooms.length ≥ s.maxRooms
    · rw [if_pos hmax]
    · rw [if_neg hmax]
      cases halloc : s.allocate (s.maxRooms + 1) s.nextRoomId with
      | mk res next =>
        cases res with
        | error e => rfl
        | ok id =>
          obtain ⟨hname, hpos, hle⟩ := checkRoomInput_ok hinput
          obtain ⟨hfree, hid, -⟩ := allocate_ok halloc
          have hne : id ≠ 0 := (h.nextRoomId.trans_le hid).ne'
          have hlimit : n ≤ maxElementsLimit := hle.trans (by decide)
          simp [hne, hname, hpos, hle, hfree, not_le.1 hmax, hlimit, roomExists_insertRoom]

theorem lookup_setTrack (t : TrackId) (reg : LwwReg TrackInfo) (t' : TrackId) :
    (s.setTrack t reg).tracks.lookup t' = if t' = t then some reg else s.tracks.lookup t' := by
  rw [setTrack]
  dsimp only
  induction s.tracks with
  | nil =>
    split_ifs with h
    · simp [h]
    · simp [lookup_cons, beq_eq_false_iff_ne.2 h]
  | cons e l ih =>
    by_cases hkey : e.1 = t
    · rw [filter_cons_of_neg (by simp [hkey]), ih]
      split_ifs with h
      · rfl
      · rw [lookup_cons, hkey, beq_eq_false_iff_ne.2 h]
    · rw [filter_cons_of_pos (by simp [hkey]), cons_append, lookup_cons, lookup_cons, ih]
      cases heq : t' == e.1 with
      | true =>
        have hne : t' ≠ t := fun h => hkey ((eq_of_beq heq).symm.trans h)
        rw [if_neg hne, if_neg hne]
      | false => rfl

end DistributedState
end NexusSfu.State

namespace NexusSfu.Swim

open Base State Checked

/-- The state, and what it has sent to the gossip thread and is not taken yet. -/
structure Shared where
  state : DistributedState
  channel : List Update := []
  deriving DecidableEq

inductive Operation
  | createRoomAuto (name : String) (maxParticipants : Nat)
  | removeRoom (roomId : RoomId)
  | addParticipant (roomId : RoomId) (participantId : ParticipantId)
  | removeParticipant (roomId : RoomId) (participantId : ParticipantId)
  | addTrack (trackId : TrackId) (info : TrackInfo)
  | updateTrack (trackId : TrackId) (info : TrackInfo)
  | removeTrack (trackId : TrackId)
  | addSubscription (trackId : TrackId) (participantId : ParticipantId)
  | removeSubscription (trackId : TrackId) (participantId : ParticipantId)
  | handleNodeFailure (failedActorId : ActorId)
  deriving DecidableEq

namespace Operation

variable (s : DistributedState)

def perform : Operation → DistributedState
  | createRoomAuto name maxParticipants => (s.createRoomAuto name maxParticipants).2
  | removeRoom r => (s.removeRoom r).2
  | addParticipant r p => (s.addParticipant r p).2
  | removeParticipant r p => (s.removeParticipant r p).2
  | addTrack t info => (s.addTrack t info).2
  | updateTrack t info => (s.updateTrack t info).2
  | removeTrack t => (s.removeTrack t).2
  | addSubscription t p => (s.addSubscription t p).2
  | removeSubscription t p => (s.removeSubscription t p).2
  | handleNodeFailure a => s.handleNodeFailure a

def onOk {α : Type} (update : α → Update) : Except CrdtError α → List Update
  | .ok a => [update a]
  | .error _ => []

def announces : Operation → List Update
  | addParticipant r p =>
    onOk (fun dot => .delta (.participantAdded r p dot)) (s.addParticipant r p).1
  | removeParticipant r p =>
    onOk (fun dot => .delta (.participantRemoved r p dot)) (s.removeParticipant r p).1
  | addTrack t info => onOk (.trackUpdated t info · s.localActor) (s.addTrack t info).1
  | updateTrack t info => onOk (.trackUpdated t info · s.localActor) (s.updateTrack t info).1
  | addSubscription t p =>
    onOk (fun dot => .delta (.subscriptionAdded t p dot)) (s.addSubscription t p).1
  | removeSubscription t p =>
    onOk (fun dot => .delta (.subscriptionRemoved t p dot)) (s.removeSubscription t p).1
  | createRoomAuto _ _ | removeRoom _ | removeTrack _ | handleNodeFailure _ => []

/-- The assertions of an operation, those that a check of its arguments would have kept from being
reached included. -/
def asserts : Operation → Bool
  | addParticipant r p => s.localActor < maxActors
    && (s.getRoom r).all (fun room => room.participants.addAsserts p s.nextDot)
    && match s.addParticipant r p with
      | (.ok _, s') => s'.participantExists r p
      | (.error _, _) => true
  | removeParticipant r p => s.localActor < maxActors
    && (s.getRoom r).all (fun room => room.participants.removeAsserts p s.nextDot)
    && match s.removeParticipant r p with
      | (.ok _, s') => !s'.participantExists r p
      | (.error _, _) => true
  | createRoomAuto name n => s.localActor < maxActors && s.insertRoomAsserts name n
  | addTrack _ _ | updateTrack _ _ => s.localActor < maxActors
  | addSubscription t p =>
    s.localActor < maxActors && s.subscriptions.addAsserts (t, p) s.nextDot
  | removeSubscription t p =>
    s.localActor < maxActors && s.subscriptions.removeAsserts (t, p) s.nextDot
  | handleNodeFailure a => a < maxActors
  | removeRoom _ | removeTrack _ => true

def run (op : Operation) : Checked Panic Shared Unit := do
  let s ← get
  assert .assertion (op.asserts s.state)
  assert .clockOverflow ((op.perform s.state).clock ≤ u64Max)
  set (⟨op.perform s.state, s.channel ++ op.announces s.state⟩ : Shared)

section Perform

variable {s s' : DistributedState} {op : Operation}

inductive Edit (s : DistributedState) : Operation → DistributedState → Prop
  | keep {op : Operation} (clock nextRoomId : Nat) (hle : s.clock ≤ clock)
    (h : clock ≤ s.clock + 1)
    (hnext : s.nextRoomId ≤ nextRoomId) : Edit s op { s with clock, nextRoomId }
  | openRoom (name : String) (n : Nat) (r : RoomId) (nextRoomId : Nat) (hn : 0 < n)
    (hr : s.roomExists r = false) (hnext : s.nextRoomId ≤ nextRoomId) :
    Edit s (createRoomAuto name n) ({ s.tick with nextRoomId }.insertRoom r name n)
  | closeRoom (r : RoomId) : Edit s (removeRoom r) (s.removeRoom r).2
  | addParticipant (r : RoomId) (p : ParticipantId) (room : Room) (broadcast : List StateUpdate)
    (hroom : s.getRoom r = some room) : Edit s (addParticipant r p)
      { s.tick.setParticipants r (room.participants.add p s.nextDot).2 with broadcast }
  | removeParticipant (r : RoomId) (p : ParticipantId) (room : Room) (broadcast : List StateUpdate)
    (hroom : s.getRoom r = some room) : Edit s (removeParticipant r p)
      { s.tick.setParticipants r (room.participants.remove p s.nextDot).2 with broadcast }
  | addTrack (t : TrackId) (info : TrackInfo) (hlen : s.tracks.length < s.maxTracks) :
    Edit s (addTrack t info) (s.tick.setTrack t
      (((s.tracks.lookup t).getD (.new ⟨0, 0, 0, 0, 0⟩ s.localActor)).set info
        (s.clock + 1) s.localActor))
  | updateTrack (t : TrackId) (info : TrackInfo) (reg : LwwReg TrackInfo)
    (hreg : s.tracks.lookup t = some reg) :
    Edit s (updateTrack t info) (s.tick.setTrack t (reg.set info (s.clock + 1) s.localActor))
  | removeTrack (t : TrackId) : Edit s (removeTrack t) (s.removeTrack t).2
  | addSubscription (t : TrackId) (p : ParticipantId) (broadcast : List StateUpdate) :
    Edit s (addSubscription t p) { s.tick with
      subscriptions := (s.subscriptions.add (t, p) s.nextDot).2, broadcast }
  | removeSubscription (t : TrackId) (p : ParticipantId) (broadcast : List StateUpdate) :
    Edit s (removeSubscription t p) { s.tick with
      subscriptions := (s.subscriptions.remove (t, p) s.nextDot).2, broadcast }
  | fail (a : ActorId) : Edit s (handleNodeFailure a) (s.handleNodeFailure a)

theorem edit_tick : Edit s op s.tick :=
  .keep (s.clock + 1) s.nextRoomId (Nat.le_succ _) le_rfl le_rfl

theorem edit_refl : Edit s op s := .keep s.clock s.nextRoomId le_rfl (Nat.le_succ _) le_rfl

theorem edit_createRoomAuto (s : DistributedState) (name : String) (n : Nat) :
    Edit s (createRoomAuto name n) (s.createRoomAuto name n).2 := by
  rw [DistributedState.createRoomAuto]
  cases hinput : checkRoomInput name n with
  | error e => exact edit_refl
  | ok _ =>
    dsimp only
    split_ifs
    · exact edit_tick
    · cases halloc : s.allocate (s.maxRooms + 1) s.nextRoomId with
      | mk res next =>
        have hnext := DistributedState.allocate_next_le halloc
        cases res with
        | error e => exact .keep (s.clock + 1) next (Nat.le_succ _) le_rfl hnext
        | ok r =>
          exact .openRoom name n r next (DistributedState.checkRoomInput_ok hinput).2.1
            (DistributedState.allocate_ok halloc).1 hnext

theorem edit_addParticipant (s : DistributedState) (r : RoomId) (p : ParticipantId) :
    Edit s (addParticipant r p) (s.addParticipant r p).2 := by
  rw [DistributedState.addParticipant]
  cases checkParticipantIds r p with
  | error e => exact edit_refl
  | ok _ =>
    cases hroom : s.getRoom r with
    | none => exact edit_tick
    | some room =>
      have hedit := fun broadcast => Edit.addParticipant r p room broadcast hroom
      dsimp only
      split_ifs
      · exact edit_tick
      · rcases hadd : room.participants.add p s.nextDot with ⟨e | b, set⟩
        all_goals
          rw [hadd] at hedit
          exact hedit _

theorem edit_removeParticipant (s : DistributedState) (r : RoomId) (p : ParticipantId) :
    Edit s (removeParticipant r p) (s.removeParticipant r p).2 := by
  rw [DistributedState.removeParticipant]
  cases checkParticipantIds r p with
  | error e => exact edit_refl
  | ok _ =>
    cases hroom : s.getRoom r with
    | none => exact edit_tick
    | some room =>
      have hedit := fun broadcast => Edit.removeParticipant r p room broadcast hroom
      rcases hremove : room.participants.remove p s.nextDot with ⟨e | b, set⟩
      all_goals
        rw [hremove] at hedit
        dsimp only
        rw [hremove]
        exact hedit _

theorem edit_addSubscription (s : DistributedState) (t : TrackId) (p : ParticipantId) :
    Edit s (addSubscription t p) (s.addSubscription t p).2 := by
  have hedit := fun broadcast => Edit.addSubscription (s := s) t p broadcast
  rw [DistributedState.addSubscription]
  cases checkSubscriptionIds t p with
  | error e => exact edit_refl
  | ok _ =>
    dsimp only
    split_ifs
    · exact edit_tick
    · rcases hadd : s.subscriptions.add (t, p) s.nextDot with ⟨e | b, set⟩
      all_goals
        rw [hadd] at hedit
        exact hedit _

theorem edit_removeSubscription (s : DistributedState) (t : TrackId) (p : ParticipantId) :
    Edit s (removeSubscription t p) (s.removeSubscription t p).2 := by
  have hedit := fun broadcast => Edit.removeSubscription (s := s) t p broadcast
  rw [DistributedState.removeSubscription]
  cases checkSubscriptionIds t p with
  | error e => exact edit_refl
  | ok _ =>
    dsimp only
    rcases hremove : s.subscriptions.remove (t, p) s.nextDot with ⟨e | b, set⟩
    all_goals
      rw [hremove] at hedit
      exact hedit _

theorem edit_perform (s : DistributedState) (op : Operation) : Edit s op (op.perform s) := by
  cases op with
  | createRoomAuto name n => exact edit_createRoomAuto s name n
  | removeRoom r => exact .closeRoom r
  | addParticipant r p => exact edit_addParticipant s r p
  | removeParticipant r p => exact edit_removeParticipant s r p
  | addTrack t info =>
    rw [perform, DistributedState.addTrack]
    split_ifs with ht hlen
    · exact edit_refl
    · exact edit_tick
    · exact .addTrack t info (not_le.1 hlen)
  | updateTrack t info =>
    rw [perform, DistributedState.updateTrack]
    split_ifs with ht
    · exact edit_refl
    · cases hreg : s.tracks.lookup t with
      | none => exact edit_tick
      | some reg => exact .updateTrack t info reg hreg
  | removeTrack t => exact .removeTrack t
  | addSubscription t p => exact edit_addSubscription s t p
  | removeSubscription t p => exact edit_removeSubscription s t p
  | handleNodeFailure a => exact .fail a

theorem Edit.sound (h : s.Sound) (hedit : Edit s op s') : s'.Sound := by
  have htick := h.tick
  cases hedit with
  | keep clock nextRoomId hle _ hnext => exact h.later hle hnext
  | openRoom name n r nextRoomId hn hr hnext =>
    exact DistributedState.Sound.insertRoom (h.later (Nat.le_succ _) hnext) hn
  | closeRoom r =>
    exact ⟨h.actor, fun room hroom => h.rooms room (List.mem_of_mem_filter hroom),
      h.subscriptions, h.nextRoomId⟩
  | addParticipant r p room broadcast hroom =>
    have hdated : (room.participants.add p s.nextDot).2.DatedBy s.tick.clock :=
      (htick.getRoom hroom).add p le_rfl
    have hset := htick.setParticipants (r := r) hdated
    exact ⟨hset.actor, hset.rooms, hset.subscriptions, hset.nextRoomId⟩
  | removeParticipant r p room broadcast hroom =>
    have hset := htick.setParticipants (r := r) ((htick.getRoom hroom).remove p s.nextDot)
    exact ⟨hset.actor, hset.rooms, hset.subscriptions, hset.nextRoomId⟩
  | addTrack t info hlen =>
    exact ⟨htick.actor, htick.rooms, htick.subscriptions, htick.nextRoomId⟩
  | updateTrack t info reg hreg =>
    exact ⟨htick.actor, htick.rooms, htick.subscriptions, htick.nextRoomId⟩
  | removeTrack t => exact ⟨h.actor, h.rooms, h.subscriptions, h.nextRoomId⟩
  | addSubscription t p broadcast =>
    exact ⟨htick.actor, htick.rooms, htick.subscriptions.add (t, p) le_rfl, htick.nextRoomId⟩
  | removeSubscription t p broadcast =>
    exact ⟨htick.actor, htick.rooms, htick.subscriptions.remove (t, p) s.nextDot,
      htick.nextRoomId⟩
  | fail a => exact ⟨h.actor, h.rooms, h.subscriptions, h.nextRoomId⟩

theorem Edit.clock_le (hedit : Edit s op s') : s'.clock ≤ s.clock + 1 := by
  cases hedit with
  | keep clock nextRoomId _ h => exact h
  | closeRoom r => exact Nat.le_succ s.clock
  | removeTrack t => exact Nat.le_succ s.clock
  | fail a => exact Nat.le_succ s.clock
  | openRoom | addParticipant | removeParticipant | addTrack | updateTrack | addSubscription
  | removeSubscription => exact le_rfl

theorem onOk_length_le {α : Type} {update : α → Update} {result : Except CrdtError α} :
    (onOk update result).length ≤ 1 := by
  cases result with
  | ok a => exact le_rfl
  | error e => exact Nat.zero_le 1

theorem announces_length_le (s : DistributedState) (op : Operation) :
    (op.announces s).length ≤ 1 := by
  cases op with
  | createRoomAuto | removeRoom | removeTrack | handleNodeFailure => exact Nat.zero_le 1
  | addParticipant | removeParticipant | addTrack | updateTrack | addSubscription |
    removeSubscription =>
    exact onOk_length_le

theorem participantExists_add (h : s.Sound) {r : RoomId} {p : ParticipantId} {dot : Dot}
    (hadd : s.addParticipant r p = (.ok dot, s')) : s'.participantExists r p = true := by
  unfold DistributedState.addParticipant at hadd
  split at hadd
  · cases hadd
  split at hadd
  · cases hadd
  rename_i room hroom
  split_ifs at hadd
  · cases hadd
  cases hset : room.participants.add p s.nextDot with
  | mk res set =>
    rw [hset] at hadd
    cases res with
    | error e => cases hadd
    | ok b =>
      cases hadd
      have hthere := (h.getRoom hroom).contains_add rfl (congrArg Prod.fst hset)
      rw [hset] at hthere
      refine (DistributedState.participantExists_setParticipants (s := s.tick) hroom r p).trans ?_
      rwa [if_pos rfl]

theorem participantExists_remove (h : s.Sound) {r : RoomId} {p : ParticipantId} {dot : Dot}
    (hremove : s.removeParticipant r p = (.ok dot, s')) : s'.participantExists r p = false := by
  unfold DistributedState.removeParticipant at hremove
  split at hremove
  · cases hremove
  split at hremove
  · cases hremove
  rename_i room hroom
  have hgone : (room.participants.remove p s.nextDot).2.contains p = false :=
    (h.getRoom hroom).contains_remove p rfl h.actor
  cases hset : room.participants.remove p s.nextDot with
  | mk res set =>
    rw [hset] at hgone
    rw [hset] at hremove
    cases res with
    | error e => cases hremove
    | ok b =>
      cases hremove
      refine (DistributedState.participantExists_setParticipants (s := s.tick) hroom r p).trans ?_
      rw [if_pos rfl]
      exact hgone

theorem asserts_of_sound (h : s.Sound) (hop : ∀ a, op = .handleNodeFailure a → a < maxActors) :
    op.asserts s = true := by
  have hactor : decide (s.localActor < maxActors) = true := decide_eq_true h.actor
  cases op with
  | createRoomAuto name n => simp [asserts, hactor, h.insertRoomAsserts]
  | removeRoom r => rfl
  | addParticipant r p =>
    have hset : (s.getRoom r).all (fun room => room.participants.addAsserts p s.nextDot) =
        true := by
      cases s.getRoom r with
      | none => rfl
      | some room => exact Orswot.addAsserts_eq (s := room.participants)
    rw [asserts, hactor, hset]
    cases hadd : s.addParticipant r p with
    | mk res s' =>
      cases res with
      | error e => rfl
      | ok dot => exact participantExists_add h hadd
  | removeParticipant r p =>
    have hset : (s.getRoom r).all (fun room => room.participants.removeAsserts p s.nextDot) =
        true := by
      cases hroom : s.getRoom r with
      | none => rfl
      | some room => exact (h.getRoom hroom).removeAsserts
    rw [asserts, hactor, hset]
    cases hremove : s.removeParticipant r p with
    | mk res s' =>
      cases res with
      | error e => rfl
      | ok dot => simp [participantExists_remove h hremove]
  | addTrack t info => exact hactor
  | updateTrack t info => exact hactor
  | removeTrack t => rfl
  | addSubscription t p => simp [asserts, hactor, Orswot.addAsserts_eq]
  | removeSubscription t p => simp [asserts, hactor, h.subscriptions.removeAsserts]
  | handleNodeFailure a => exact decide_eq_true (hop a rfl)

end Perform
end Operation

/-- The operation an update is applied as: its dot, timestamp and actor are not looked at. -/
def Update.operation (s : DistributedState) : Update → Option Operation
  | delta (.participantAdded r p _) => some (.addParticipant r p)
  | delta (.participantRemoved r p _) => some (.removeParticipant r p)
  | trackUpdated t info _ _ =>
    if (s.getTrack t).isSome then some (.updateTrack t info) else some (.addTrack t info)
  | delta (.subscriptionAdded t p _) => some (.addSubscription t p)
  | delta (.subscriptionRemoved t p _) => some (.removeSubscription t p)
  | relaySubscribe _ _ | relayUnsubscribe _ _ => none

def applyStateUpdate (update : Update) : Checked Panic Shared Unit := do
  assert .assertion ((← get).state.localActor < maxActors)
  match update.operation (← get).state with
  | some op => op.run
  | none => pure ()

section Applied

variable {A : Panic → Prop} {s : Shared} {op : Operation} {u : Update} {us : List Update}

def Shared.performed (s : Shared) (op : Operation) : Shared :=
  ⟨op.perform s.state, s.channel ++ op.announces s.state⟩

theorem ensures_run (h : s.state.Sound) (hop : ∀ a, op = .handleNodeFailure a → a < maxActors)
    (hclock : A .clockOverflow ∨ s.state.clock < u64Max) :
    Ensures A op.run s fun _ s' => s' = s.performed op ∧ s'.state.clock ≤ u64Max := by
  simp only [Operation.run, ensures_bind, ensures_get, ensures_assert,
    Operation.asserts_of_sound h hop, if_true, ensures_set, Shared.performed]
  split_ifs with hle
  · exact ⟨trivial, of_decide_eq_true hle⟩
  · rcases hclock with hA | hclock
    · exact hA
    · have hedit := (Operation.edit_perform s.state op).clock_le
      exact absurd (decide_eq_true (hedit.trans hclock)) hle

def Shared.applied (s : Shared) (u : Update) : Shared :=
  match u.operation s.state with
  | some op => s.performed op
  | none => s

theorem Update.operation_ne_failure {state : DistributedState} (h : u.operation state = some op)
    (a : ActorId) :
    op ≠ .handleNodeFailure a := by
  unfold Update.operation at h
  split at h
  case h_3 =>
    split_ifs at h <;> cases h <;> nofun
  all_goals cases h <;> nofun

theorem ensures_applyStateUpdate (h : s.state.Sound) (hfits : s.state.clock ≤ u64Max)
    (hclock : A .clockOverflow ∨ s.state.clock < u64Max) :
    Ensures A (applyStateUpdate u) s fun _ s' => s' = s.applied u ∧
      s'.state.clock ≤ u64Max := by
  simp only [applyStateUpdate, ensures_bind, ensures_get, ensures_assert, h.actor,
    decide_true, if_true]
  unfold Shared.applied
  cases hop : u.operation s.state with
  | none => exact ⟨rfl, hfits⟩
  | some op =>
    exact ensures_run h (fun a ha => absurd ha (Update.operation_ne_failure hop a)) hclock

theorem Shared.applied_cases (s : Shared) (u : Update) :
    s.applied u = s ∨ ∃ op, u.operation s.state = some op ∧ s.applied u = s.performed op := by
  unfold Shared.applied
  cases u.operation s.state with
  | none => exact .inl rfl
  | some op => exact .inr ⟨op, rfl, rfl⟩

theorem sound_applied (h : s.state.Sound) : (s.applied u).state.Sound := by
  rcases s.applied_cases u with hu | ⟨op, -, hu⟩
  · rwa [hu]
  · rw [hu]
    exact (Operation.edit_perform s.state op).sound h

theorem clock_applied_le : (s.applied u).state.clock ≤ s.state.clock + 1 := by
  rcases s.applied_cases u with hu | ⟨op, -, hu⟩
  · rw [hu]
    exact Nat.le_succ _
  · rw [hu]
    exact (Operation.edit_perform s.state op).clock_le

theorem channel_applied_le : (s.applied u).channel.length ≤ s.channel.length + 1 := by
  rcases s.applied_cases u with hu | ⟨op, -, hu⟩
  · rw [hu]
    exact Nat.le_succ _
  · rw [hu, Shared.performed, List.length_append]
    exact Nat.add_le_add_left (op.announces_length_le s.state) _

end Applied
end NexusSfu.Swim
