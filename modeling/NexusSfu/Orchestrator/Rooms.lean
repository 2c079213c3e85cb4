import NexusSfu.Base.Assoc
import NexusSfu.Orchestrator.Signal

namespace NexusSfu.Orchestrator

open Base Prog State

abbrev maxRooms : Nat := 10000
abbrev maxParticipantsPerRoom : Nat := 1000
abbrev maxParticipantNameLen : Nat := 256
abbrev maxRoomsPerCreator : Nat := 4

structure Rooms where
  sessions : Assoc ParticipantId ParticipantHandle := ∅
  state : DistributedState
  roomNames : Assoc String RoomId := ∅
  created : Assoc ParticipantId (List RoomId) := ∅
  outbox : List (ParticipantId × SignalMessage) := []

def debugError : CrdtError → String
  | .capacityExhausted n => "CapacityExhausted \x7b capacity: " ++ n.repr ++ " \x7d"
  | .invalidDot a c => "InvalidDot \x7b actor_id: " ++ a.repr ++ ", clock: " ++ c.repr ++ " \x7d"
  | .elementNotFound => "ElementNotFound"
  | .duplicateElement => "DuplicateElement"
  | .overflow => "Overflow"
  | .invalidState reason => "InvalidState \x7b reason: \"" ++ reason ++ "\" \x7d"
  | .invalidTimestamp t => "InvalidTimestamp \x7b timestamp: " ++ t.repr ++ " \x7d"
  | .invalidActorId a => "InvalidActorId \x7b actor_id: " ++ a.repr ++ " \x7d"

namespace Rooms

variable (participantId : ParticipantId)

def sendTo (msg : SignalMessage) : Prog Rooms Unit :=
  modify fun s =>
    if participantId ∈ s.sessions then { s with outbox := s.outbox ++ [(participantId, msg)] }
    else s

def sendError (code message : String) : Prog Rooms Unit :=
  sendTo participantId (.error code message)

def forbiddenMessage : String := "Token does not grant this room"

def granted (s : Rooms) (participantId : ParticipantId) (name : Option String) : Bool :=
  (s.sessions.lookup participantId).any fun handle => handle.grant.allows name

def roomOf (s : Rooms) (participantId : ParticipantId) : Option RoomId :=
  (s.sessions.lookup participantId).bind ParticipantHandle.roomId

def handleConnected (grant : RoomGrant) : Prog Rooms Unit := do
  if participantId = 0 then return
  modify fun s => { s with sessions := s.sessions.insert participantId { grant } }

def allocateRoom (name : Option String) : Prog Rooms (Except String RoomId) := do
  let s ← get
  match s.state.createRoomAuto (name.getD "") maxParticipantsPerRoom with
  | (.ok roomId, state) =>
    set { s with state }
    assert (roomId ≠ 0)
    return .ok roomId
  | (.error .overflow, state) =>
    set { s with state }
    return .error "Room ids exhausted"
  | (.error _, state) =>
    set { s with state }
    return .error "Room not created"

def createdRooms (s : Rooms) (participantId : ParticipantId) : List RoomId :=
  ((s.created.lookup participantId).getD []).filter s.state.roomExists

def newRoom (name : Option String) : Prog Rooms (Option RoomId) := do
  if name.any fun n => n.utf8ByteSize > maxRoomNameLen then
    sendError participantId "INVALID_INPUT" "Room name longer than 256 bytes"
    return none
  if (← get).state.roomCount ≥ maxRooms then
    sendError participantId "ROOM_LIMIT" "Maximum rooms reached"
    return none
  let mine := (← get).createdRooms participantId
  modify fun s => { s with created := s.created.insert participantId mine }
  if mine.length ≥ maxRoomsPerCreator then
    sendError participantId "ROOM_LIMIT" "At most 4 rooms created per connection"
    return none
  match ← allocateRoom name with
  | .error reason =>
    sendError participantId "ROOM_LIMIT" reason
    return none
  | .ok roomId =>
    let mine := ((← get).created.lookup participantId).getD []
    assert (mine.length < maxRoomsPerCreator)
    modify fun s => { s with created := s.created.insert participantId (mine ++ [roomId]) }
    return some roomId

def handleCreate (roomName : Option String) : Prog Rooms Unit := do
  if participantId = 0 then return
  let s ← get
  if !s.granted participantId roomName then
    sendError participantId "FORBIDDEN" forbiddenMessage
    return
  match roomName.bind s.roomNames.lookup with
  | some existing => sendTo participantId (.created existing roomName)
  | none =>
    let some roomId ← newRoom participantId roomName | return
    match roomName with
    | some name => modify fun s => { s with roomNames := s.roomNames.insert name roomId }
    | none => pure ()
    sendTo participantId (.created roomId roomName)

variable (roomId : RoomId)

def roomGranted : Prog Rooms Bool := do
  let s ← get
  match s.state.getRoom roomId with
  | none =>
    sendError participantId "ROOM_NOT_FOUND" "Room does not exist"
    return false
  | some room =>
    assert (room.roomId = roomId)
    if !s.granted participantId (some room.name) then
      sendError participantId "FORBIDDEN" forbiddenMessage
      return false
    return true

def publishedInfo (state : DistributedState) (publisherId : ParticipantId) (trackId : TrackId) :
    PublishedInfo :=
  match state.getTrack trackId.get.toNat with
  | none => ⟨trackId, publisherId, "video", "camera"⟩
  | some info =>
    { trackId
      publisherId
      kind := if info.trackType = 0 then "audio" else "video"
      content := match info.contentType with
        | 1 => "screen"
        | 2 => "audio"
        | _ => "camera" }

def publishedInfos (s : Rooms) (participants : List ParticipantId) : List PublishedInfo :=
  (participants.flatMap fun pid =>
    match s.sessions.lookup pid with
    | none => []
    | some handle => handle.publishedTracks.map (publishedInfo s.state pid)).take 64

def announceJoin (name : String) :
    Prog Rooms Unit := do
  let s ← get
  let participants := s.state.getParticipants roomId
  let others := participants.filter (· ≠ participantId)
  sendTo participantId
    (.joined participantId roomId ((others.take 100).map fun pid => ⟨pid, ""⟩)
    (s.publishedInfos others))
  each (fun pid => sendTo pid (.participantJoined participantId name))
    ((participants.take maxParticipantsPerRoom).filter (· ≠ participantId))

def setRoom : Prog Rooms Unit :=
  modify fun s => match s.sessions.lookup participantId with
    | none => s
    | some handle =>
      { s with sessions := s.sessions.insert participantId { handle with roomId := some roomId } }

def handleJoin (roomId : Nat) (participantName : String) :
    Prog Rooms Unit := do
  if participantId = 0 ∨ roomId = 0 then
    sendError participantId "INVALID_INPUT" "Invalid participant or room ID"
    return
  if participantName.utf8ByteSize > maxParticipantNameLen then
    sendError participantId "INVALID_INPUT" "Name longer than 256 bytes"
    return
  -- a larger id names no room
  if roomId > u32Max then
    sendError participantId "ROOM_NOT_FOUND" "Room does not exist"
    return
  if ((← get).roomOf participantId).isSome then
    sendError participantId "ALREADY_IN_ROOM" "Already in a room"
    return
  if !(← roomGranted participantId roomId) then return
  if (← get).state.participantCount roomId ≥ maxParticipantsPerRoom then
    sendError participantId "ROOM_FULL" "Room is full"
    return
  let s ← get
  let (result, state) := s.state.addParticipant roomId participantId
  set { s with state }
  match result with
  | .error e => sendError participantId "JOIN_FAILED" (debugError e)
  | .ok _ =>
    setRoom participantId roomId
    announceJoin participantId roomId participantName

def dropRoom : Prog Rooms Unit :=
  modify fun s => { s with
    state := (s.state.removeRoom roomId).2
    roomNames := s.roomNames.retain fun _ v => v ≠ roomId }

def releaseCreatedRooms : Prog Rooms Unit := do
  let some rooms := (← get).created.lookup participantId | return
  modify fun s => { s with created := s.created.erase participantId }
  assert (rooms.length ≤ maxRoomsPerCreator)
  each (fun room => do
    let s ← get
    if s.state.roomExists room && s.state.participantCount room == 0 then dropRoom room) rooms

def cleanupParticipantRoom : Prog Rooms Unit := do
  let some roomId := (← get).roomOf participantId | return
  modify fun s => { s with state := (s.state.removeParticipant roomId participantId).2 }
  let participants := (← get).state.getParticipants roomId
  each (fun pid => sendTo pid (.participantLeft participantId))
    ((participants.take maxParticipantsPerRoom).filter (· ≠ participantId))
  if participants.isEmpty then dropRoom roomId

def handleLeave : Prog Rooms Unit := do
  if participantId = 0 then return
  cleanupParticipantRoom participantId
  releaseCreatedRooms participantId

def handleDisconnected : Prog Rooms Unit := do
  if participantId = 0 then return
  cleanupParticipantRoom participantId
  releaseCreatedRooms participantId

def removeSession : Prog Rooms Unit :=
  modify fun s => { s with sessions := s.sessions.erase participantId }

end Rooms
end NexusSfu.Orchestrator
