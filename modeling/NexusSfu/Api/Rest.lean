import NexusSfu.Orchestrator.Lobby

namespace NexusSfu.Api

open Base Prog State Orchestrator DistributedState

structure RoomResponse where
  id : RoomId
  name : String
  participantCount : Nat
  maxParticipants : Nat
  deriving DecidableEq

inductive ApiError
  | badRequest (message : String)
  | forbidden (reason : String)
  | notFound (resource : String)
  | internal (message : String)
  deriving DecidableEq

structure Server where
  lobby : Lobby
  listed : List RoomResponse := []

namespace Server

def new (config : DistributedStateConfig) : Server := { lobby := .new config }

abbrev state (sv : Server) : DistributedState := sv.lobby.rooms.state

def setState (sv : Server) (state : DistributedState) : Server :=
  { sv with lobby := { sv.lobby with rooms := { sv.lobby.rooms with state } } }

variable (grant : RoomGrant)

def createRoomHandler (name : String) (maxParticipants : Nat) :
    Prog Server (Except ApiError RoomResponse) := do
  if name = "" then return .error (.badRequest "Room name cannot be empty")
  if !grant.allows (some name) then
    return .error (.forbidden ("token does not grant room '" ++ name ++ "'"))
  if name.utf8ByteSize > 256 then
    return .error (.badRequest "Room name too long (max 256 characters)")
  if maxParticipants = 0 ∨ maxParticipants > 1000 then
    return .error (.badRequest "max_participants must be between 1 and 1000")
  let sv ← get
  if sv.listed.any fun r => r.name = name then
    return .error (.badRequest ("Room '" ++ name ++ "' already exists"))
  match sv.state.createRoomAuto name maxParticipants with
  | (.error e, state) =>
    set (sv.setState state)
    return .error (.internal ("Failed to create room in distributed state: " ++ debugError e))
  | (.ok id, state) =>
    let room : RoomResponse := ⟨id, name, 0, maxParticipants⟩
    set { sv.setState state with listed := sv.listed ++ [room] }
    return .ok room

def listRoomsHandler : Prog Server (List RoomResponse) := do
  return (← get).listed.filter fun r => grant.allows (some r.name)

def forbiddenById : ApiError := .forbidden "token does not grant this room"

def getRoomHandler (id : RoomId) : Prog Server (Except ApiError RoomResponse) := do
  match (← get).listed.find? fun r => r.id = id with
  | none => return .error (.notFound ("room " ++ id.repr))
  | some room =>
    if !grant.allows (some room.name) then return .error forbiddenById
    return .ok room

def deleteRoomHandler (id : RoomId) : Prog Server (Except ApiError Unit) := do
  let sv ← get
  match sv.listed.find? fun r => r.id = id with
  | none => return .error (.notFound ("room " ++ id.repr))
  | some room =>
    if !grant.allows (some room.name) then return .error forbiddenById
    let rest := sv.listed.filter fun r => r.id ≠ id
    assert (rest.length + 1 = sv.listed.length)
    set { sv.setState (sv.state.removeRoom id).2 with listed := rest }
    return .ok ()

end Server

inductive ServerAction
  | signal (a : RoomAction)
  | createRoom (grant : RoomGrant) (name : String) (maxParticipants : Nat)
  | listRooms (grant : RoomGrant)
  | getRoom (grant : RoomGrant) (id : RoomId)
  | deleteRoom (grant : RoomGrant) (id : RoomId)

namespace Server

def step (sv : Server) : ServerAction → Option Server
  | .signal a => (sv.lobby.step a).map fun lobby => { sv with lobby }
  | .createRoom grant name n => (createRoomHandler grant name n sv).map Prod.snd
  | .listRooms grant => (listRoomsHandler grant sv).map Prod.snd
  | .getRoom grant id => (getRoomHandler grant id sv).map Prod.snd
  | .deleteRoom grant id => (deleteRoomHandler grant id sv).map Prod.snd

structure Agrees (sv : Server) : Prop where
  listed : ∀ e ∈ sv.listed, ∃ room, sv.state.getRoom e.id = some room ∧ room.name = e.name
  names : ∀ room ∈ sv.state.rooms, ∀ room' ∈ sv.state.rooms, room.name ≠ "" →
    room.name = room'.name → room = room'

def Separate (sv : Server) : ServerAction → Prop
  | .signal a => ∀ e ∈ sv.listed, a.name ≠ some e.name ∧ a.room ≠ some e.id
  | .createRoom _ name _ => sv.lobby.rooms.roomNames.lookup name = none
  | _ => True

instance (sv : Server) : (a : ServerAction) → Decidable (sv.Separate a)
  | .signal a =>
    inferInstanceAs
      (Decidable (∀ e ∈ sv.listed, a.name ≠ some e.name ∧ a.room ≠ some e.id))
  | .createRoom _ name _ =>
    inferInstanceAs (Decidable (AList.lookup name sv.lobby.rooms.roomNames = none))
  | .listRooms _ | .getRoom _ _ | .deleteRoom _ _ => .isTrue trivial

end Server
end NexusSfu.Api
