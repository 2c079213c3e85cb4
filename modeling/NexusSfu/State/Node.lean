import NexusSfu.State.Convergence

namespace NexusSfu.State

open Base Delta List Function

def Orswot.MadeBy (actor clock : Nat) (set : Orswot ParticipantId) : Prop :=
  ∃ ds, Follows ds set ∧ ∀ δ ∈ ds, δ.dot.actorId = actor ∧ δ.dot.clock ≤ clock

namespace Orswot

variable {actor clock : Nat} {set : Orswot ParticipantId} {p : ParticipantId}

theorem MadeBy.mono (h : MadeBy actor clock set) {clock' : Nat} (hc : clock ≤ clock') :
    MadeBy actor clock' set := by
  obtain ⟨ds, hf, hds⟩ := h
  exact ⟨ds, hf, fun δ hδ => ⟨(hds δ hδ).1, (hds δ hδ).2.trans hc⟩⟩

theorem madeBy_withCapacity (n : Nat) : MadeBy actor clock (withCapacity n) :=
  ⟨[], follows_nil rfl rfl, nofun⟩

theorem MadeBy.step (h : MadeBy actor clock set) (hactor : actor < maxActors)
    {δ : Delta ParticipantId} (hδ : δ.dot = ⟨actor, clock + 1⟩)
    (hok : ∃ b, (δ.apply set).1 = .ok b) : MadeBy actor (clock + 1) (δ.apply set).2 ∧
      ∀ q, (δ.apply set).2.contains q = if δ.element = q then δ.leaves.isSome
        else set.contains q := by
  obtain ⟨ds, hf, hds⟩ := h
  have hnext : Next ds δ := by
    refine ⟨?_, fun δ' h' _ => ?_, fun δ' h' _ => ?_⟩
    · rw [hδ]
      exact ⟨hactor, Nat.succ_ne_zero clock⟩
    · rw [hδ]
      exact Nat.lt_succ_of_le (hds δ' h').2
    · rw [hδ]
      exact (hds δ' h').1
  have hf' := hf.step hnext hok
  refine ⟨⟨_, hf', fun δ' h' => ?_⟩, fun q => ?_⟩
  · rcases mem_append.1 h' with h' | h'
    · exact ⟨(hds δ' h').1, (hds δ' h').2.trans (Nat.le_succ clock)⟩
    · cases mem_singleton.1 h'
      rw [hδ]
      exact ⟨rfl, le_rfl⟩
  · rw [hf'.contains, latest_concat, hf.contains]
    split_ifs
    · rfl
    · rfl

end Orswot

namespace DistributedState

variable {s : DistributedState} {r : RoomId} {p : ParticipantId}

def titles (s : DistributedState) : List (RoomId × String) :=
  s.rooms.map fun r => (r.roomId, r.name)

theorem titles_ids : s.titles.map Prod.fst = s.rooms.map Room.roomId := by
  simp [titles, comp_def]

theorem roomExists_iff : s.roomExists r = true ↔ ∃ name, (r, name) ∈ s.titles := by
  rw [roomExists, getRoom, find?_isSome]
  simp [titles]

structure Alone (s : DistributedState) : Prop where
  actor : s.localActor < maxActors
  ids : (s.rooms.map Room.roomId).Nodup
  fresh : ∀ room ∈ s.rooms, room.roomId < s.nextRoomId
  nonzero : ∀ room ∈ s.rooms, room.roomId ≠ 0
  positive : 0 < s.nextRoomId
  made : ∀ room ∈ s.rooms, room.participants.MadeBy s.localActor s.clock

theorem alone_new (config : DistributedStateConfig) : Alone (.new config) :=
  ⟨config.actor_lt, nodup_nil, nofun, nofun, Nat.one_pos, nofun⟩

theorem Alone.tick (h : Alone s) : Alone s.tick :=
  ⟨h.actor, h.ids, h.fresh, h.nonzero, h.positive,
    fun room hroom => (h.made room hroom).mono (Nat.le_succ _)⟩

section SetParticipants

variable {set : Orswot ParticipantId} {room : Room}

theorem getRoom_setParticipants (r' : RoomId) : (s.setParticipants r set).getRoom r' =
    (s.getRoom r').map fun room => if room.roomId = r then { room with participants := set }
      else room := by
  rw [getRoom, setParticipants, find?_map, getRoom]
  congr 2
  funext room
  simp only [comp_apply]
  split_ifs
  · rfl
  · rfl

theorem titles_setParticipants : (s.setParticipants r set).titles = s.titles := by
  rw [titles, setParticipants, titles, map_map]
  refine map_congr_left fun room _ => ?_
  simp only [comp_apply]
  split_ifs
  · rfl
  · rfl

theorem participantExists_setParticipants (hroom : s.getRoom r = some room) (r' : RoomId)
    (q : ParticipantId) : (s.setParticipants r set).participantExists r' q =
      if r' = r then set.contains q else s.participantExists r' q := by
  rw [participantExists, getRoom_setParticipants, participantExists]
  by_cases hr : r' = r
  · subst hr
    have hid : room.roomId = r' := by simpa using find?_some hroom
    simp [hroom, hid]
  · rw [if_neg hr]
    cases h' : s.getRoom r' with
    | none => rfl
    | some room' =>
      have hid : room'.roomId = r' := by simpa using find?_some h'
      simp [hid, hr]

theorem Alone.setParticipants (h : Alone s) (hset : set.MadeBy s.localActor (s.clock + 1)) :
    Alone (s.tick.setParticipants r set) := by
  have htick := h.tick
  have hids : (s.tick.setParticipants r set).rooms.map Room.roomId = s.rooms.map Room.roomId := by
    rw [← titles_ids, titles_setParticipants, titles_ids, DistributedState.tick]
  have hsame : ∀ room ∈ (s.tick.setParticipants r set).rooms, ∃ room' ∈ s.rooms,
      room'.roomId = room.roomId :=
    fun room hroom => mem_map.1 (hids ▸ mem_map_of_mem hroom)
  refine ⟨h.actor, hids ▸ h.ids, fun room hroom => ?_, fun room hroom => ?_, h.positive,
    fun room hroom => ?_⟩
  · obtain ⟨room', hroom', heq⟩ := hsame room hroom
    exact heq ▸ h.fresh room' hroom'
  · obtain ⟨room', hroom', heq⟩ := hsame room hroom
    exact heq ▸ h.nonzero room' hroom'
  · obtain ⟨room', hroom', rfl⟩ := mem_map.1 hroom
    split_ifs
    · exact hset
    · exact htick.made room' hroom'

end SetParticipants

structure Becomes (s s' : DistributedState) (now : RoomId → ParticipantId → Bool) : Prop where
  alone : Alone s'
  next : s.nextRoomId ≤ s'.nextRoomId
  titles : s'.titles = s.titles
  members : ∀ r q, s'.participantExists r q = now r q

theorem Alone.ticked (h : Alone s) : Becomes s s.tick s.participantExists :=
  ⟨h.tick, le_rfl, rfl, fun _ _ => rfl⟩

theorem Alone.change (h : Alone s) {room : Room} (hroom : s.getRoom r = some room)
    {δ : Delta ParticipantId} (hδ : δ.dot = s.nextDot)
    (hok : ∃ b, (δ.apply room.participants).1 = .ok b) :
    Becomes s (s.tick.setParticipants r (δ.apply room.participants).2) fun r' q =>
      if r' = r ∧ δ.element = q then δ.leaves.isSome else s.participantExists r' q := by
  have hmem := mem_of_find?_eq_some hroom
  obtain ⟨hmade, hcontains⟩ := (h.made room hmem).step h.actor hδ hok
  refine ⟨h.setParticipants hmade, le_rfl, titles_setParticipants, fun r' q => ?_⟩
  rw [participantExists_setParticipants (s := s.tick) hroom, hcontains]
  by_cases hr : r' = r
  · subst hr
    have hex : s.participantExists r' q = room.participants.contains q := by
      rw [participantExists, hroom]
    simp [hex]
  · simp only [hr, false_and, if_false]
    rfl

theorem Alone.unchanged (h : Alone s) {room : Room} (hroom : s.getRoom r = some room) :
    Becomes s (s.tick.setParticipants r room.participants) s.participantExists := by
  have hmem := mem_of_find?_eq_some hroom
  refine ⟨h.setParticipants ((h.made room hmem).mono (Nat.le_succ _)), le_rfl,
    titles_setParticipants, ?_⟩
  intro r' q
  rw [participantExists_setParticipants (s := s.tick) hroom]
  split_ifs with hr
  · rw [hr, participantExists, hroom]
  · rfl

theorem Alone.addParticipant (h : Alone s) (r : RoomId) (p : ParticipantId) :
    Becomes s (s.addParticipant r p).2 fun r' q =>
      (s.addParticipant r p).1.isOk && decide (r' = r ∧ p = q) || s.participantExists r' q := by
  unfold DistributedState.addParticipant
  cases checkParticipantIds r p with
  | error e => exact ⟨h, le_rfl, rfl, fun _ _ => rfl⟩
  | ok _ =>
    cases hroom : s.getRoom r with
    | none => exact h.ticked
    | some room =>
      dsimp only
      by_cases hcap : room.participants.len ≥ room.maxParticipants
      · rw [if_pos hcap]
        exact h.ticked
      · rw [if_neg hcap]
        cases hadd : room.participants.add p s.nextDot with
        | mk res set =>
          cases res with
          | error e =>
            have hset := Orswot.add_error (s := room.participants) (congrArg Prod.fst hadd)
            rw [hadd] at hset
            subst hset
            exact h.unchanged hroom
          | ok b =>
            obtain ⟨halone, hnext, htitles, hmem⟩ := h.change hroom (δ := .add p s.nextDot) rfl
              ⟨b, congrArg Prod.fst hadd⟩
            simp only [Delta.apply, hadd] at halone htitles hmem
            refine ⟨⟨halone.actor, halone.ids, halone.fresh, halone.nonzero, halone.positive,
              halone.made⟩, hnext, htitles, fun r' q => (hmem r' q).trans ?_⟩
            by_cases hrq : r' = r ∧ p = q
            · simp [hrq, Except.isOk, Except.toBool, Delta.element, Delta.leaves]
            · simp [hrq, Except.isOk, Except.toBool, Delta.element]

theorem Alone.removeParticipant (h : Alone s) (hr : r ≠ 0) (hp : p ≠ 0) :
    Becomes s (s.removeParticipant r p).2 fun r' q =>
      if r' = r ∧ p = q then false else s.participantExists r' q := by
  have hcheck : checkParticipantIds r p = .ok () := by simp [checkParticipantIds, hr, hp]
  unfold DistributedState.removeParticipant
  rw [hcheck]
  cases hroom : s.getRoom r with
  | none =>
    refine ⟨h.tick, le_rfl, rfl, fun r' q => ?_⟩
    split_ifs with hrq
    · show s.participantExists r' q = false
      rw [hrq.1, participantExists, hroom]
    · rfl
  | some room =>
    have hok := remove_ok (o := room.participants) (x := p) (d := s.nextDot)
      ⟨h.actor, Nat.succ_ne_zero s.clock⟩
    obtain ⟨halone, hnext, htitles, hmem⟩ := h.change hroom (δ := .remove p s.nextDot) rfl hok
    obtain ⟨b, hb⟩ := hok
    cases hrem : room.participants.remove p s.nextDot with
    | mk res set =>
      rw [hrem] at hb
      cases hb
      simp only [Delta.apply, hrem] at halone htitles hmem
      dsimp only
      rw [hrem]
      exact ⟨⟨halone.actor, halone.ids, halone.fresh, halone.nonzero, halone.positive,
        halone.made⟩, hnext, htitles, fun r' q => hmem r' q⟩

theorem participantExists_of_absent (h : s.roomExists r = false) (q : ParticipantId) :
    s.participantExists r q = false := by
  rw [roomExists, Option.isSome_eq_false_iff, Option.isNone_iff_eq_none] at h
  rw [participantExists, h]

theorem allocate_ok {tries : Nat} {next id next' : RoomId}
    (h : s.allocate tries next = (.ok id, next')) :
    s.roomExists id = false ∧ next ≤ id ∧ next' = id + 1 := by
  induction tries generalizing next with
  | zero => cases h
  | succ tries ih =>
    rw [allocate] at h
    split_ifs at h with hmax hex
    · cases h
    · obtain ⟨hfree, hle, heq⟩ := ih h
      exact ⟨hfree, (Nat.le_succ next).trans hle, heq⟩
    · cases h
      exact ⟨Bool.eq_false_iff.2 hex, le_rfl, rfl⟩

theorem allocate_next_le {tries : Nat} {next next' : RoomId} {res : Except CrdtError RoomId}
    (h : s.allocate tries next = (res, next')) : next ≤ next' := by
  induction tries generalizing next with
  | zero =>
    cases h
    exact le_rfl
  | succ tries ih =>
    rw [allocate] at h
    split_ifs at h
    · cases h
      exact le_rfl
    · exact (Nat.le_succ next).trans (ih h)
    · cases h
      exact Nat.le_succ next

theorem Alone.setNext (h : Alone s) {next : RoomId} (hle : s.nextRoomId ≤ next) :
    Alone { s with nextRoomId := next } :=
  ⟨h.actor, h.ids, fun room hroom => (h.fresh room hroom).trans_le hle, h.nonzero,
    h.positive.trans_le hle, h.made⟩

structure Opens (s s' : DistributedState) (id : RoomId) (name : String) : Prop where
  alone : Alone s'
  fresh : s.roomExists id = false
  later : s.nextRoomId ≤ id
  titles : s'.titles = s.titles ++ [(id, name)]
  members : ∀ r q, s'.participantExists r q = s.participantExists r q

theorem Alone.insertRoom (h : Alone s) {id : RoomId} (hfree : s.roomExists id = false)
    (hle : s.nextRoomId ≤ id) (name : String) (n : Nat) :
    Opens s ({ s.tick with nextRoomId := id + 1 }.insertRoom id name n) id name := by
  have hnot : id ∉ s.rooms.map Room.roomId := fun hmem => by
    obtain ⟨room, hroom, heq⟩ := mem_map.1 hmem
    exact absurd (heq ▸ h.fresh room hroom) (not_lt.2 hle)
  refine ⟨⟨h.actor, ?_, ?_, ?_, Nat.succ_pos id, ?_⟩, hfree, hle, map_append, ?_⟩
  · rw [DistributedState.insertRoom, map_append]
    refine nodup_append.2 ⟨h.ids, by simp, fun a ha b hb heq => ?_⟩
    rw [heq, mem_singleton.1 hb] at ha
    exact hnot ha
  · intro room hroom
    rcases mem_append.1 hroom with hroom | hroom
    · exact (h.fresh room hroom).trans_le (hle.trans (Nat.le_succ id))
    · cases mem_singleton.1 hroom
      exact Nat.lt_succ_self id
  · intro room hroom
    rcases mem_append.1 hroom with hroom | hroom
    · exact h.nonzero room hroom
    · cases mem_singleton.1 hroom
      exact (h.positive.trans_le hle).ne'
  · intro room hroom
    rcases mem_append.1 hroom with hroom | hroom
    · exact h.tick.made room hroom
    · cases mem_singleton.1 hroom
      exact Orswot.madeBy_withCapacity n
  · intro r q
    have hfind : ({ s.tick with nextRoomId := id + 1 }.insertRoom id name n).getRoom r
        = (s.getRoom r).or (if id = r then some ⟨id, name, n, .withCapacity n⟩ else none) := by
      rw [getRoom, DistributedState.insertRoom, find?_append, getRoom]
      simp [DistributedState.tick]
    rw [participantExists, hfind, participantExists]
    cases hroom : s.getRoom r with
    | some room => rfl
    | none =>
      split_ifs
      · rfl
      · rfl

theorem Alone.createRoomAuto (h : Alone s) (name : String) (n : Nat) :
    match s.createRoomAuto name n with
    | (.ok id, s') => Opens s s' id name
    | (.error _, s') => Becomes s s' s.participantExists := by
  unfold DistributedState.createRoomAuto
  cases checkRoomInput name n with
  | error e => exact ⟨h, le_rfl, rfl, fun _ _ => rfl⟩
  | ok _ =>
    dsimp only
    by_cases hmax : s.rooms.length ≥ s.maxRooms
    · rw [if_pos hmax]
      exact h.ticked
    · rw [if_neg hmax]
      cases halloc : s.allocate (s.maxRooms + 1) s.nextRoomId with
      | mk res next =>
        cases res with
        | error e =>
          exact ⟨h.tick.setNext (allocate_next_le halloc), allocate_next_le halloc, rfl,
            fun _ _ => rfl⟩
        | ok id =>
          obtain ⟨hfree, hle, rfl⟩ := allocate_ok halloc
          exact h.insertRoom hfree hle name n

theorem Alone.removeRoom (h : Alone s) (r : RoomId) : Alone (s.removeRoom r).2 ∧
    (s.removeRoom r).2.titles = s.titles.filter (·.1 ≠ r) ∧
      ∀ r' q, (s.removeRoom r).2.participantExists r' q
      = (decide (r' ≠ r) && s.participantExists r' q) := by
  refine ⟨⟨h.actor, h.ids.sublist (filter_sublist.map _), fun room hroom =>
    h.fresh room (mem_of_mem_filter hroom), fun room hroom =>
    h.nonzero room (mem_of_mem_filter hroom), h.positive, fun room hroom =>
    h.made room (mem_of_mem_filter hroom)⟩, ?_, fun r' q => ?_⟩
  · simp [DistributedState.titles, DistributedState.removeRoom, filter_map, comp_def]
  · have hfind : (s.removeRoom r).2.getRoom r' = if r' = r then none else s.getRoom r' := by
      rw [getRoom, DistributedState.removeRoom, find?_filter, getRoom]
      split_ifs with hr
      · simp [hr]
      · refine congrArg (fun f => s.rooms.find? f) (funext fun room => ?_)
        by_cases hid : room.roomId = r'
        · simp [hid, hr]
        · simp [hid]
    rw [participantExists, hfind, participantExists]
    by_cases hr : r' = r
    · simp [hr]
    · simp [hr]

theorem participantExists_iff_mem : s.participantExists r p = true ↔
    ∃ room, s.getRoom r = some room ∧ p ∈ room.participants.elements.map Prod.fst := by
  unfold participantExists
  cases s.getRoom r with
  | none => simp
  | some room => simp [Orswot.contains, any_eq_true]

theorem mem_getParticipants (h : p ∈ s.getParticipants r) : s.participantExists r p = true := by
  unfold getParticipants at h
  cases hroom : s.getRoom r with
  | none => simp [hroom] at h
  | some room =>
    rw [hroom] at h
    exact participantExists_iff_mem.2 ⟨room, hroom, mem_of_mem_take h⟩

theorem contains_eq_false {o : Orswot ParticipantId} :
    (∀ q, o.contains q = false) ↔ o.elements = [] := by
  simp only [Orswot.contains, any_eq_false]
  constructor
  · intro h
    exact eq_nil_iff_forall_not_mem.2 fun e he => h e.1 e he (decide_eq_true rfl)
  · intro h q e he
    simp [h] at he

theorem getParticipants_eq_nil :
    s.getParticipants r = [] ↔ ∀ q, s.participantExists r q = false := by
  unfold getParticipants participantExists
  cases s.getRoom r with
  | none => simp
  | some room =>
    dsimp only
    rw [contains_eq_false, take_eq_nil_iff, map_eq_nil_iff]
    simp

theorem participantCount_eq_zero :
    s.participantCount r = 0 ↔ ∀ q, s.participantExists r q = false := by
  unfold participantCount participantExists
  cases s.getRoom r with
  | none => simp
  | some room =>
    dsimp only
    rw [contains_eq_false, Orswot.len, length_eq_zero_iff]

end DistributedState
end NexusSfu.State
