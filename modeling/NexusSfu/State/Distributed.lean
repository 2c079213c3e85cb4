import NexusSfu.State.Orswot

namespace NexusSfu.State

open Base

abbrev RoomId := Nat
abbrev ParticipantId := Nat
abbrev TrackId := Nat

abbrev maxRoomsLimit : Nat := 10000
abbrev maxTracksLimit : Nat := 100000
abbrev maxSubscriptionsLimit : Nat := 500000
abbrev maxParticipantsPerRoomLimit : Nat := 2000
abbrev maxRoomNameLen : Nat := 256
abbrev u32Max : Nat := 4294967295

structure Room where
  roomId : RoomId
  name : String
  maxParticipants : Nat
  participants : Orswot ParticipantId
  deriving DecidableEq

inductive StateUpdate
  | participantAdded (roomId : RoomId) (participantId : ParticipantId) (dot : Dot)
  | participantRemoved (roomId : RoomId) (participantId : ParticipantId) (dot : Dot)
  | subscriptionAdded (trackId : TrackId) (participantId : ParticipantId) (dot : Dot)
  | subscriptionRemoved (trackId : TrackId) (participantId : ParticipantId) (dot : Dot)
  deriving DecidableEq

structure TrackInfo where
  trackType : Nat
  contentType : Nat
  codec : Nat := 0
  bitrateKbps : Nat := 0
  ownerNode : Nat := 0
  deriving DecidableEq

structure LwwReg (T : Type) where
  value : T
  timestamp : Nat
  writer : Nat
  deriving DecidableEq

namespace LwwReg

variable {T : Type}

def new (initial : T) (actorId : Nat) : LwwReg T := ⟨initial, 0, actorId⟩

def set (r : LwwReg T) (value : T) (timestamp actorId : Nat) : LwwReg T :=
  if r.timestamp < timestamp ∨ timestamp = r.timestamp ∧ r.writer < actorId then
    ⟨value, timestamp, actorId⟩
  else r

end LwwReg

/-- `clock` is this node's own entry of its version vector, the only one it reads; `broadcast` is
what it sent through the broadcast channel. -/
structure DistributedState where
  localActor : Nat
  clock : Nat := 0
  rooms : List Room := []
  subscriptions : Orswot (TrackId × ParticipantId) := .withCapacity maxElementsLimit
  tracks : List (TrackId × LwwReg TrackInfo) := []
  maxTracks : Nat := maxTracksLimit
  maxRooms : Nat := maxRoomsLimit
  maxSubscriptions : Nat := maxSubscriptionsLimit
  nextRoomId : RoomId := 1
  broadcast : List StateUpdate := []
  deriving DecidableEq

structure DistributedStateConfig where
  localActor : Nat
  maxRooms : Nat := maxRoomsLimit
  maxTracks : Nat := maxTracksLimit
  maxSubscriptions : Nat := maxSubscriptionsLimit
  actor_lt : localActor < maxActors := by decide
  rooms_le : 0 < maxRooms ∧ maxRooms ≤ maxRoomsLimit := by decide
  tracks_le : 0 < maxTracks ∧ maxTracks ≤ maxTracksLimit := by decide
  subscriptions_le : 0 < maxSubscriptions ∧ maxSubscriptions ≤ maxSubscriptionsLimit := by
    decide

def DistributedStateConfig.new (localActor : Nat) (actor_lt : localActor < maxActors := by decide) :
    DistributedStateConfig where
  localActor
  actor_lt

def DistributedState.new (config : DistributedStateConfig) : DistributedState where
  localActor := config.localActor
  maxRooms := config.maxRooms
  maxTracks := config.maxTracks
  maxSubscriptions := config.maxSubscriptions

def checkParticipantIds (roomId : RoomId) (participantId : ParticipantId) : Except CrdtError Unit :=
  if roomId = 0 then .error (.invalidState "room id 0")
  else if participantId = 0 then .error (.invalidState "participant id 0")
  else .ok ()

def checkSubscriptionIds (trackId : TrackId) (participantId : ParticipantId) :
    Except CrdtError Unit :=
  if trackId = 0 then .error (.invalidState "track id 0")
  else if participantId = 0 then .error (.invalidState "participant id 0")
  else .ok ()

def checkDot (dot : Dot) : Except CrdtError Unit :=
  if dot.actorId ≥ maxActors ∨ dot.clock = 0 then .error (.invalidDot dot.actorId dot.clock)
  else .ok ()

def checkRoomInput (name : String) (maxParticipants : Nat) : Except CrdtError Unit :=
  if name.utf8ByteSize > maxRoomNameLen then .error (.invalidState "room name too long")
  else if maxParticipants = 0 ∨ maxParticipants > maxParticipantsPerRoomLimit then
    .error (.invalidState "max_participants out of range")
  else .ok ()

def checkDelta : StateUpdate → Except CrdtError Unit
  | .participantAdded roomId participantId dot | .participantRemoved roomId participantId dot => do
    checkParticipantIds roomId participantId
    checkDot dot
  | .subscriptionAdded trackId participantId dot
  | .subscriptionRemoved trackId participantId dot => do
    checkSubscriptionIds trackId participantId
    checkDot dot

namespace DistributedState

variable (s : DistributedState)

def nextDot : Dot := ⟨s.localActor, s.clock + 1⟩

def tick : DistributedState := { s with clock := s.clock + 1 }

variable (roomId : RoomId)

def getRoom : Option Room :=
  s.rooms.find? (·.roomId = roomId)

def roomExists : Bool := (s.getRoom roomId).isSome

def roomCount : Nat := s.rooms.length

/-- The first free id from `next` on, in at most `tries` tries, and the next id to try. -/
def allocate (s : DistributedState) : Nat → RoomId → Except CrdtError RoomId × RoomId
  | 0, next => (.error (.capacityExhausted s.maxRooms), next)
  | tries + 1, next =>
    -- the last id is not handed out
    if next ≥ u32Max then (.error .overflow, next)
    else if s.roomExists next then allocate s tries (next + 1)
    else (.ok next, next + 1)

def insertRoom (name : String) (maxParticipants : Nat) :
    DistributedState :=
  { s with rooms :=
    s.rooms ++ [⟨roomId, name, maxParticipants, .withCapacity maxParticipants⟩] }

def createRoom (name : String) (maxParticipants : Nat) :
    Except CrdtError Unit × DistributedState :=
  if roomId = 0 then (.error (.invalidState "room id 0"), s)
  else match checkRoomInput name maxParticipants with
    | .error e => (.error e, s)
    | .ok () =>
      if s.roomExists roomId then (.error .duplicateElement, s.tick)
      else if s.rooms.length ≥ s.maxRooms then (.error (.capacityExhausted s.maxRooms), s.tick)
      else (.ok (), s.tick.insertRoom roomId name maxParticipants)

def createRoomAuto (name : String) (maxParticipants : Nat) :
    Except CrdtError RoomId × DistributedState :=
  match checkRoomInput name maxParticipants with
  | .error e => (.error e, s)
  | .ok () =>
    if s.rooms.length ≥ s.maxRooms then (.error (.capacityExhausted s.maxRooms), s.tick)
    else match s.allocate (s.maxRooms + 1) s.nextRoomId with
      | (.error e, next) => (.error e, { s.tick with nextRoomId := next })
      | (.ok roomId, next) =>
        (.ok roomId, { s.tick with nextRoomId := next }.insertRoom roomId name maxParticipants)

def removeRoom : Bool × DistributedState :=
  (s.roomExists roomId, { s with rooms := s.rooms.filter (·.roomId ≠ roomId) })

def setParticipants (participants : Orswot ParticipantId) :
    DistributedState :=
  { s with rooms := s.rooms.map fun r => if r.roomId = roomId then { r with participants } else r }

def send (update : StateUpdate) : DistributedState :=
  { s with broadcast := s.broadcast ++ [update] }

def addParticipant (participantId : ParticipantId) :
    Except CrdtError Dot × DistributedState :=
  match checkParticipantIds roomId participantId with
  | .error e => (.error e, s)
  | .ok () =>
    match s.getRoom roomId with
    | none => (.error .elementNotFound, s.tick)
    | some room =>
      if room.participants.len ≥ room.maxParticipants then
        (.error (.capacityExhausted room.maxParticipants), s.tick)
      else match room.participants.add participantId s.nextDot with
        | (.error e, set) => (.error e, s.tick.setParticipants roomId set)
        | (.ok _, set) =>
          (.ok s.nextDot,
            (s.tick.setParticipants roomId set).send
              (.participantAdded roomId participantId s.nextDot))

def removeParticipant (participantId : ParticipantId) :
    Except CrdtError Dot × DistributedState :=
  match checkParticipantIds roomId participantId with
  | .error e => (.error e, s)
  | .ok () =>
    match s.getRoom roomId with
    | none => (.error .elementNotFound, s.tick)
    | some room =>
      match room.participants.remove participantId s.nextDot with
      | (.error e, set) => (.error e, s.tick.setParticipants roomId set)
      | (.ok _, set) =>
        (.ok s.nextDot,
          (s.tick.setParticipants roomId set).send
            (.participantRemoved roomId participantId s.nextDot))

def getParticipants : List ParticipantId :=
  match s.getRoom roomId with
  | none => []
  | some room => (room.participants.elements.map Prod.fst).take maxParticipantsPerRoomLimit

def participantCount : Nat :=
  match s.getRoom roomId with
  | none => 0
  | some room => room.participants.len

def participantExists (participantId : ParticipantId) :
    Bool :=
  match s.getRoom roomId with
  | none => false
  | some room => room.participants.contains participantId

variable (trackId : TrackId)

def addSubscription (participantId : ParticipantId) :
    Except CrdtError Dot × DistributedState :=
  match checkSubscriptionIds trackId participantId with
  | .error e => (.error e, s)
  | .ok () =>
    if s.subscriptions.len ≥ s.maxSubscriptions then
      (.error (.capacityExhausted s.maxSubscriptions), s.tick)
    else match s.subscriptions.add (trackId, participantId) s.nextDot with
      | (.error e, subscriptions) => (.error e, { s.tick with subscriptions })
      | (.ok _, subscriptions) =>
        (.ok s.nextDot,
          { s.tick with subscriptions }.send (.subscriptionAdded trackId participantId s.nextDot))

def removeSubscription (participantId : ParticipantId) :
    Except CrdtError Dot × DistributedState :=
  match checkSubscriptionIds trackId participantId with
  | .error e => (.error e, s)
  | .ok () =>
    match s.subscriptions.remove (trackId, participantId) s.nextDot with
    | (.error e, subscriptions) => (.error e, { s.tick with subscriptions })
    | (.ok _, subscriptions) =>
      (.ok s.nextDot,
        { s.tick with subscriptions }.send (.subscriptionRemoved trackId participantId s.nextDot))

def setTrack (reg : LwwReg TrackInfo) : DistributedState :=
  { s with tracks := s.tracks.filter (·.1 ≠ trackId) ++ [(trackId, reg)] }

def addTrack (info : TrackInfo) :
    Except CrdtError Nat × DistributedState :=
  if trackId = 0 then (.error (.invalidState "track id 0"), s)
  else if s.tracks.length ≥ s.maxTracks then (.error (.capacityExhausted s.maxTracks), s.tick)
  else
    let reg := (s.tracks.lookup trackId).getD (.new ⟨0, 0, 0, 0, 0⟩ s.localActor)
    (.ok (s.clock + 1), s.tick.setTrack trackId (reg.set info (s.clock + 1) s.localActor))

def updateTrack (info : TrackInfo) :
    Except CrdtError Nat × DistributedState :=
  if trackId = 0 then (.error (.invalidState "track id 0"), s)
  else match s.tracks.lookup trackId with
    | none => (.error .elementNotFound, s.tick)
    | some reg =>
      (.ok (s.clock + 1), s.tick.setTrack trackId (reg.set info (s.clock + 1) s.localActor))

def getTrack : Option TrackInfo :=
  (s.tracks.lookup trackId).map LwwReg.value

def handleNodeFailure (failedActorId : Nat) : DistributedState :=
  let removed :=
    ((s.tracks.filter fun t => t.2.writer = failedActorId).map Prod.fst).take s.maxTracks
  { s with tracks := s.tracks.filter (·.1 ∉ removed) }

def removeTrack : Bool × DistributedState :=
  ((s.getTrack trackId).isSome, { s with tracks := s.tracks.filter (·.1 ≠ trackId) })

/-- A participant set after an update of it; a room the node does not have is left for later. -/
def updateParticipants
    (update : Orswot ParticipantId → Except CrdtError Bool × Orswot ParticipantId) :
    Except CrdtError Unit × DistributedState :=
  match s.getRoom roomId with
  | none => (.ok (), s)
  | some room =>
    let (result, set) := update room.participants
    (result.map fun _ => (), s.setParticipants roomId set)

def mergeTrackUpdated (info : TrackInfo)
    (timestamp actor : Nat) : Except CrdtError Unit × DistributedState :=
  if trackId = 0 then (.error (.invalidState "track id 0"), s)
  else if timestamp = 0 then (.error (.invalidTimestamp timestamp), s)
  else if actor ≥ maxActors then (.error (.invalidActorId actor), s)
  else if s.tracks.lookup trackId = none ∧ s.tracks.length ≥ s.maxTracks then
    (.error (.capacityExhausted s.maxTracks), s)
  else
    let reg := (s.tracks.lookup trackId).getD (.new ⟨0, 0, 0, 0, 0⟩ actor)
    (.ok (), s.setTrack trackId (reg.set info timestamp actor))

def mergeDelta (update : StateUpdate) :
    Except CrdtError Unit × DistributedState :=
  match checkDelta update with
  | .error e => (.error e, s)
  | .ok () =>
    match update with
    | .participantAdded roomId participantId dot =>
      s.updateParticipants roomId fun set => set.add participantId dot
    | .participantRemoved roomId participantId dot =>
      s.updateParticipants roomId fun set => set.remove participantId dot
    | .subscriptionAdded trackId participantId dot =>
      if s.subscriptions.len ≥ s.maxSubscriptions
          ∧ s.subscriptions.contains (trackId, participantId) = false then
        (.error (.capacityExhausted s.maxSubscriptions), s)
      else
        let (result, subscriptions) := s.subscriptions.add (trackId, participantId) dot
        (result.map fun _ => (), { s with subscriptions })
    | .subscriptionRemoved trackId participantId dot =>
      let (result, subscriptions) := s.subscriptions.remove (trackId, participantId) dot
      (result.map fun _ => (), { s with subscriptions })

end DistributedState
end NexusSfu.State
