import NexusSfu.State.Node

/-!
Room ids under concurrent calls. A call checks its input and takes its clock value first and then
waits for the room locks; what it does under both of them is one step.
-/

namespace NexusSfu.State

open Base List DistributedState

inductive RoomCall
  | createRoom (roomId : RoomId) (name : String) (maxParticipants : Nat)
  | createRoomAuto (name : String) (maxParticipants : Nat)
  | removeRoom (roomId : RoomId)
  deriving DecidableEq

namespace DistributedState

def createRoomLocked (s : DistributedState) (roomId : RoomId) (name : String)
    (maxParticipants : Nat) : Except CrdtError Unit × DistributedState :=
  if s.roomExists roomId then (.error .duplicateElement, s)
  else if s.rooms.length ≥ s.maxRooms then (.error (.capacityExhausted s.maxRooms), s)
  else (.ok (), s.insertRoom roomId name maxParticipants)

def createRoomAutoLocked (s : DistributedState) (name : String) (maxParticipants : Nat) :
    Except CrdtError RoomId × DistributedState :=
  if s.rooms.length ≥ s.maxRooms then (.error (.capacityExhausted s.maxRooms), s)
  else match s.allocate (s.maxRooms + 1) s.nextRoomId with
    | (.error e, next) => (.error e, { s with nextRoomId := next })
    | (.ok roomId, next) =>
      (.ok roomId, { s with nextRoomId := next }.insertRoom roomId name maxParticipants)

variable {s : DistributedState}

section Allocate

variable {tries next next' : Nat} {res : Except CrdtError RoomId}

theorem allocate_passes (h : s.allocate tries next = (res, next')) {j : Nat} (hj : next ≤ j)
    (hlt : j < next') : s.roomExists j = true ∨ res = .ok j := by
  induction tries generalizing next with
  | zero =>
    cases h
    omega
  | succ tries ih =>
    rw [allocate] at h
    split_ifs at h with hmax hex
    · cases h
      omega
    · rcases hj.eq_or_lt with rfl | hj
      · exact .inl hex
      · exact ih h hj
    · cases h
      exact .inr (congrArg Except.ok (hj.antisymm (Nat.le_of_lt_succ hlt)))

theorem allocate_next_le_max (h : s.allocate tries next = (res, next')) (hle : next ≤ u32Max) :
    next' ≤ u32Max := by
  induction tries generalizing next with
  | zero =>
    cases h
    exact hle
  | succ tries ih =>
    rw [allocate] at h
    split_ifs at h with hmax hex
    · cases h
      exact hle
    · exact ih h (Nat.succ_le_of_lt (not_le.1 hmax))
    · cases h
      exact Nat.succ_le_of_lt (not_le.1 hmax)

theorem allocate_error {e : CrdtError} (h : s.allocate tries next = (.error e, next')) :
    u32Max ≤ next' ∨ next' = next + tries := by
  induction tries generalizing next with
  | zero =>
    cases h
    exact .inr rfl
  | succ tries ih =>
    rw [allocate] at h
    split_ifs at h with hmax hex
    · cases h
      exact .inl hmax
    · exact (ih h).imp_right fun heq => by omega
    · cases h

theorem length_le_of_taken (next k : Nat)
    (h : ∀ j, next ≤ j → j < next + k → s.roomExists j = true) : k ≤ s.rooms.length := by
  have hsub : List.range' next k ⊆ s.rooms.map Room.roomId := by
    intro j hj
    obtain ⟨hle, hlt⟩ := mem_range'_1.1 hj
    obtain ⟨name, hmem⟩ := roomExists_iff.1 (h j hle hlt)
    rw [← titles_ids]
    exact mem_map.2 ⟨_, hmem, rfl⟩
  have hlen := ((nodup_range' : (List.range' next k).Nodup).subperm hsub).length_le
  rwa [length_range', length_map] at hlen

/-- The search has one try more than there can be rooms: it only fails at the end of the ids. -/
theorem allocate_finds {e : CrdtError} (hroom : s.rooms.length < tries)
    (h : s.allocate tries next = (.error e, next')) : u32Max ≤ next' := by
  rcases allocate_error h with hmax | rfl
  · exact hmax
  · have hk := length_le_of_taken next tries fun j hj hlt =>
      (allocate_passes h hj hlt).resolve_right nofun
    omega

end Allocate

section Locked

variable {id : RoomId} {name : String} {n : Nat}

theorem roomExists_of_insertRoom {j : RoomId} (h : (s.insertRoom id name n).roomExists j = true) :
    s.roomExists j = true ∨ id = j := by
  obtain ⟨title, hmem⟩ := roomExists_iff.1 h
  rw [titles, insertRoom, map_append] at hmem
  rcases mem_append.1 hmem with hmem | hmem
  · exact .inl (roomExists_iff.2 ⟨title, hmem⟩)
  · cases mem_singleton.1 hmem
    exact .inr rfl

structure Takes (s s' : DistributedState) (id : Option RoomId) : Prop where
  max : s'.maxRooms = s.maxRooms
  rooms_le : s.rooms.length ≤ s.maxRooms → s'.rooms.length ≤ s.maxRooms
  later : s.nextRoomId ≤ s'.nextRoomId
  next_le : s.nextRoomId ≤ u32Max → s'.nextRoomId ≤ u32Max
  passed : ∀ j, s.nextRoomId ≤ j → j < s'.nextRoomId → s.roomExists j = true ∨ id = some j
  rooms : ∀ j, s'.roomExists j = true → s.roomExists j = true ∨ id = some j

theorem Takes.refl (s : DistributedState) : Takes s s none :=
  ⟨rfl, id, le_rfl, id, fun _ hj hlt => absurd hlt (not_lt.2 hj), fun _ => .inl⟩

theorem createRoomAutoLocked_ok (h : (s.createRoomAutoLocked name n).1 = .ok id) :
    s.rooms.length < s.maxRooms ∧ s.allocate (s.maxRooms + 1) s.nextRoomId = (.ok id, id + 1) ∧
      (s.createRoomAutoLocked name n).2 = { s with nextRoomId := id + 1 }.insertRoom id name n := by
  unfold createRoomAutoLocked at *
  by_cases hmax : s.rooms.length ≥ s.maxRooms
  · rw [if_pos hmax] at h
    cases h
  rw [if_neg hmax] at *
  cases halloc : s.allocate (s.maxRooms + 1) s.nextRoomId with
  | mk res next =>
    rw [halloc] at h
    cases res with
    | error e => cases h
    | ok id' =>
      cases h
      obtain ⟨-, -, rfl⟩ := allocate_ok halloc
      exact ⟨not_le.1 hmax, rfl, rfl⟩

theorem createRoomAutoLocked_error {e : CrdtError}
    (h : (s.createRoomAutoLocked name n).1 = .error e) :
    s.maxRooms ≤ s.rooms.length ∧ (s.createRoomAutoLocked name n).2 = s ∨
      ∃ next e', s.allocate (s.maxRooms + 1) s.nextRoomId = (.error e', next) ∧
        s.rooms.length < s.maxRooms ∧
        (s.createRoomAutoLocked name n).2 = { s with nextRoomId := next } := by
  unfold createRoomAutoLocked at *
  by_cases hmax : s.rooms.length ≥ s.maxRooms
  · exact .inl ⟨hmax, by rw [if_pos hmax]⟩
  rw [if_neg hmax] at *
  cases halloc : s.allocate (s.maxRooms + 1) s.nextRoomId with
  | mk res next =>
    rw [halloc] at h
    cases res with
    | ok id => cases h
    | error e' => exact .inr ⟨next, e', rfl, not_le.1 hmax, rfl⟩

theorem createRoomLocked_takes (s : DistributedState) (id : RoomId) (name : String) (n : Nat) :
    Takes s (s.createRoomLocked id name n).2 (if (s.createRoomLocked id name n).1.isOk then some id
      else none) := by
  rw [createRoomLocked]
  by_cases hex : s.roomExists id = true
  · rw [if_pos hex]
    exact .refl s
  rw [if_neg hex]
  by_cases hmax : s.rooms.length ≥ s.maxRooms
  · rw [if_pos hmax]
    exact .refl s
  rw [if_neg hmax]
  refine ⟨rfl, fun _ => ?_, le_rfl, fun h => h, fun _ hj hlt => absurd hlt (not_lt.2 hj),
    fun j hj => ?_⟩
  · rw [insertRoom, length_append]
    exact not_le.1 hmax
  · exact (roomExists_of_insertRoom hj).imp_right (congrArg some)

theorem createRoomAutoLocked_takes (s : DistributedState) (name : String) (n : Nat) :
    Takes s (s.createRoomAutoLocked name n).2 (s.createRoomAutoLocked name n).1.toOption := by
  cases hres : (s.createRoomAutoLocked name n).1 with
  | error e =>
    rcases createRoomAutoLocked_error hres with ⟨-, hs⟩ | ⟨next, e', halloc, -, hs⟩
    · rw [hs]
      exact .refl s
    · rw [hs]
      exact ⟨rfl, id, allocate_next_le halloc, allocate_next_le_max halloc, fun j hj hlt =>
        .inl ((allocate_passes halloc hj hlt).resolve_right nofun), fun _ => .inl⟩
  | ok id =>
    obtain ⟨hmax, halloc, hs⟩ := createRoomAutoLocked_ok hres
    rw [hs]
    refine ⟨rfl, fun _ => ?_, allocate_next_le halloc, allocate_next_le_max halloc,
      fun j hj hlt => (allocate_passes halloc hj hlt).imp_right fun heq => ?_, fun j hj => ?_⟩
    · rw [insertRoom, length_append]
      exact hmax
    · cases heq
      rfl
    · exact (roomExists_of_insertRoom hj).imp_right (congrArg some)

theorem removeRoom_takes (s : DistributedState) (r : RoomId) : Takes s (s.removeRoom r).2 none := by
  refine ⟨rfl, (length_filter_le ..).trans, le_rfl, fun h => h,
    fun _ hj hlt => absurd hlt (not_lt.2 hj), fun j hj => .inl ?_⟩
  rw [roomExists, getRoom, find?_isSome] at *
  obtain ⟨room, hroom, hid⟩ := hj
  exact ⟨room, mem_of_mem_filter hroom, hid⟩

end Locked
end DistributedState

namespace RoomCall

def check : RoomCall → Except CrdtError Unit
  | .createRoom roomId name maxParticipants =>
    if roomId = 0 then .error (.invalidState "room id 0") else checkRoomInput name maxParticipants
  | .createRoomAuto name maxParticipants => checkRoomInput name maxParticipants
  | .removeRoom _ => .ok ()

def begin : RoomCall → DistributedState → DistributedState
  | .removeRoom _, s => s
  | _, s => s.tick

def locked : RoomCall → DistributedState → Option RoomId × DistributedState
  | .createRoom roomId name maxParticipants, s =>
    let (res, s) := s.createRoomLocked roomId name maxParticipants
    (if res.isOk then some roomId else none, s)
  | .createRoomAuto name maxParticipants, s =>
    let (res, s) := s.createRoomAutoLocked name maxParticipants
    (res.toOption, s)
  | .removeRoom roomId, s => (none, (s.removeRoom roomId).2)

def auto : RoomCall → Bool
  | .createRoomAuto _ _ => true
  | _ => false

theorem locked_takes (c : RoomCall) (s : DistributedState) :
    s.Takes (c.locked s).2 (c.locked s).1 := by
  cases c with
  | createRoom roomId name n => exact s.createRoomLocked_takes roomId name n
  | createRoomAuto name n => exact s.createRoomAutoLocked_takes name n
  | removeRoom roomId => exact s.removeRoom_takes roomId

theorem locked_auto {c : RoomCall} {s : DistributedState} {id : RoomId} (hc : c.auto = true)
    (h : (c.locked s).1 = some id) :
    s.roomExists id = false ∧ s.nextRoomId ≤ id ∧ id < (c.locked s).2.nextRoomId := by
  cases c with
  | createRoom roomId name n => cases hc
  | removeRoom roomId => cases hc
  | createRoomAuto name n =>
    have hres : (s.createRoomAutoLocked name n).1 = .ok id := by
      change (s.createRoomAutoLocked name n).1.toOption = some id at h
      cases hres : (s.createRoomAutoLocked name n).1 with
      | error e =>
        rw [hres] at h
        cases h
      | ok id' =>
        rw [hres] at h
        cases h
        rfl
    obtain ⟨-, halloc, hs⟩ := createRoomAutoLocked_ok hres
    obtain ⟨hfree, hle, -⟩ := allocate_ok halloc
    refine ⟨hfree, hle, ?_⟩
    change id < (s.createRoomAutoLocked name n).2.nextRoomId
    rw [hs]
    exact Nat.lt_succ_self id

theorem begin_takes (c : RoomCall) (s : DistributedState) : s.Takes (c.begin s) none := by
  cases c with
  | createRoom roomId name n => exact { DistributedState.Takes.refl s with }
  | createRoomAuto name n => exact { DistributedState.Takes.refl s with }
  | removeRoom roomId => exact .refl s

end RoomCall

/-- A state shared by callers: who waits for its room locks, and the rooms opened so far in the
order of the locks. -/
structure RoomPool where
  state : DistributedState
  waiting : List RoomCall := []
  opened : List (RoomCall × RoomId) := []
  deriving DecidableEq

inductive RoomStep
  | call (c : RoomCall)
  | enter (i : Nat)

namespace RoomPool

def start (config : DistributedStateConfig) : RoomPool := { state := .new config }

def step (p : RoomPool) : RoomStep → Option RoomPool
  | .call c =>
    match c.check with
    | .error _ => some p
    | .ok () => some { p with state := c.begin p.state, waiting := p.waiting ++ [c] }
  | .enter i =>
    match p.waiting[i]? with
    | none => none
    | some c =>
      let (id, state) := c.locked p.state
      some {
        state
        waiting := p.waiting.eraseIdx i
        opened := p.opened ++ (id.map fun id => (c, id)).toList }

def openedIds (p : RoomPool) : List RoomId := p.opened.map Prod.snd

def autoIds (p : RoomPool) : List RoomId := (p.opened.filter (·.1.auto)).map Prod.snd

def UsedUp (p : RoomPool) : Prop := ∀ id, 0 < id → id < u32Max → id ∈ p.openedIds

structure Allots (config : DistributedStateConfig) (p : RoomPool) : Prop where
  max : p.state.maxRooms = config.maxRooms
  rooms_le : p.state.rooms.length ≤ config.maxRooms
  positive : 0 < p.state.nextRoomId
  next_le : p.state.nextRoomId ≤ u32Max
  passed : ∀ id, 0 < id → id < p.state.nextRoomId → id ∈ p.openedIds
  rooms : ∀ id, p.state.roomExists id = true → id ∈ p.openedIds
  increasing : p.autoIds.Pairwise (· < ·)
  below : ∀ id ∈ p.autoIds, 0 < id ∧ id < p.state.nextRoomId

variable {config : DistributedStateConfig} {p p' : RoomPool} {s : DistributedState}

theorem allots_start (config : DistributedStateConfig) : Allots config (start config) :=
  ⟨rfl, Nat.zero_le _, Nat.one_pos, by change 1 ≤ u32Max; decide,
    fun _ hpos hlt => absurd hlt (not_lt.2 hpos), nofun, List.Pairwise.nil, nofun⟩

theorem Allots.takes (h : Allots config p) {id : Option RoomId} (ht : p.state.Takes s id)
    {opened : List (RoomCall × RoomId)} (hopened : opened.map Prod.snd = p.openedIds ++ id.toList)
    {waiting : List RoomCall} (hauto : (autoIds ⟨s, waiting, opened⟩).Pairwise (· < ·))
    (hbelow : ∀ i ∈ autoIds ⟨s, waiting, opened⟩, 0 < i ∧ i < s.nextRoomId) :
    Allots config ⟨s, waiting, opened⟩ := by
  have hgrow : ∀ j, j ∈ p.openedIds ∨ id = some j → j ∈ opened.map Prod.snd := by
    intro j hj
    rw [hopened, mem_append, Option.mem_toList]
    exact hj
  refine ⟨ht.max.trans h.max, h.max ▸ ht.rooms_le (h.max ▸ h.rooms_le),
    h.positive.trans_le ht.later, ht.next_le h.next_le, fun j hpos hlt => hgrow j ?_,
    fun j hj => hgrow j ?_, hauto, hbelow⟩
  · rcases lt_or_ge j p.state.nextRoomId with hj | hj
    · exact .inl (h.passed j hpos hj)
    · exact (ht.passed j hj hlt).imp_left (h.rooms j)
  · exact (ht.rooms j hj).imp_left (h.rooms j)

theorem autoIds_enter (c : RoomCall) (id : Option RoomId) (waiting : List RoomCall) :
    autoIds ⟨s, waiting, p.opened ++ (id.map fun id => (c, id)).toList⟩ =
      p.autoIds ++ if c.auto then id.toList else [] := by
  cases id with
  | none => simp [autoIds]
  | some id => cases hc : c.auto <;> simp [autoIds, hc]

theorem Allots.enter (h : Allots config p) (c : RoomCall) (waiting : List RoomCall) :
    Allots config ⟨(c.locked p.state).2, waiting,
      p.opened ++ ((c.locked p.state).1.map fun id => (c, id)).toList⟩ := by
  have ht := c.locked_takes p.state
  have hnew : ∀ i ∈ (if c.auto then (c.locked p.state).1.toList else []),
      p.state.nextRoomId ≤ i ∧ i < (c.locked p.state).2.nextRoomId := by
    intro i hi
    split_ifs at hi with hc
    · exact (RoomCall.locked_auto hc (Option.mem_toList.1 hi)).2
    · cases hi
  refine h.takes ht ?_ ?_ ?_
  · cases (c.locked p.state).1 <;> simp [openedIds]
  · rw [autoIds_enter]
    refine pairwise_append.2 ⟨h.increasing, ?_, fun i hi j hj =>
      (h.below i hi).2.trans_le (hnew j hj).1⟩
    split_ifs
    · cases (c.locked p.state).1 <;> simp
    · exact List.Pairwise.nil
  · rw [autoIds_enter]
    intro i hi
    rcases mem_append.1 hi with hi | hi
    · exact ⟨(h.below i hi).1, (h.below i hi).2.trans_le ht.later⟩
    · exact ⟨h.positive.trans_le (hnew i hi).1, (hnew i hi).2⟩

theorem Allots.step (h : Allots config p) {a : RoomStep} (hstep : p.step a = some p') :
    Allots config p' := by
  cases a with
  | call c =>
    rw [RoomPool.step] at hstep
    cases hc : c.check with
    | error e =>
      rw [hc] at hstep
      cases hstep
      exact h
    | ok _ =>
      rw [hc] at hstep
      cases hstep
      have ht := c.begin_takes p.state
      exact h.takes ht (append_nil _).symm h.increasing fun i hi =>
        ⟨(h.below i hi).1, (h.below i hi).2.trans_le ht.later⟩
  | enter i =>
    rw [RoomPool.step] at hstep
    cases hc : p.waiting[i]? with
    | none =>
      rw [hc] at hstep
      cases hstep
    | some c =>
      rw [hc] at hstep
      cases hstep
      exact h.enter c _

theorem Allots.fails (h : Allots config p) {name : String} {n : Nat} {e : CrdtError}
    (he : (p.state.createRoomAutoLocked name n).1 = .error e) :
    p.state.rooms.length = config.maxRooms ∨ p.UsedUp := by
  rcases createRoomAutoLocked_error he with ⟨hmax, -⟩ | ⟨next, e', halloc, hlt, -⟩
  · exact .inl (h.rooms_le.antisymm (h.max ▸ hmax))
  · have hend := allocate_finds (Nat.lt_succ_of_lt hlt) halloc
    refine .inr fun id hpos hid => ?_
    rcases lt_or_ge id p.state.nextRoomId with hj | hj
    · exact h.passed id hpos hj
    · exact h.rooms id ((allocate_passes halloc hj (hid.trans_le hend)).resolve_right
        nofun)

/-- The ids of `createRoomAuto` grow in the order of the locks, and none is 0. Of those waiting,
whoever gets the locks next either takes an id that no room has, or there are as many rooms as
there may be, or the ids are used up. -/
theorem run_allots {steps : List RoomStep} (hrun : run step (start config) steps = some p) :
    p.autoIds.Pairwise (· < ·) ∧ (∀ id ∈ p.autoIds, id ≠ 0) ∧
      ∀ name n, .createRoomAuto name n ∈ p.waiting →
        match (p.state.createRoomAutoLocked name n).1 with
        | .ok id => id ≠ 0 ∧ (∀ i ∈ p.autoIds, i < id) ∧ p.state.roomExists id = false
        | .error _ => p.state.rooms.length = config.maxRooms ∨ p.UsedUp := by
  have h := run_preserves (fun _ _ _ h => h.step) (allots_start config) hrun
  refine ⟨h.increasing, fun id hid => (h.below id hid).1.ne', fun name n _ => ?_⟩
  cases hres : (p.state.createRoomAutoLocked name n).1 with
  | error e => exact h.fails hres
  | ok id =>
    obtain ⟨-, halloc, -⟩ := createRoomAutoLocked_ok hres
    obtain ⟨hfree, hle, -⟩ := allocate_ok halloc
    exact ⟨(h.positive.trans_le hle).ne', fun i hi => (h.below i hi).2.trans_le hle, hfree⟩

def crossing : List RoomStep := [.call (.createRoomAuto "a" 2), .call (.createRoom 1 "b" 2),
  .call (.createRoomAuto "c" 2), .enter 1, .enter 0]

def threeRooms : DistributedStateConfig :=
  { DistributedStateConfig.new 0 with maxRooms := 3, rooms_le := by decide }

theorem run_allots_crossing : ∃ p, run step (start threeRooms) crossing = some p ∧
    p.autoIds = [2] ∧ p.waiting = [.createRoomAuto "c" 2] ∧
      match (p.state.createRoomAutoLocked "c" 2).1 with
      | .ok id => id ≠ 0 ∧ (∀ i ∈ p.autoIds, i < id) ∧ p.state.roomExists id = false
      | .error _ => p.state.rooms.length = threeRooms.maxRooms ∨ p.UsedUp := by
  have hrun : run step (start threeRooms) crossing = some _ := rfl
  exact ⟨_, hrun, by decide +kernel, by decide +kernel,
    (run_allots hrun).2.2 "c" 2 (by decide +kernel)⟩

end RoomPool
end NexusSfu.State
