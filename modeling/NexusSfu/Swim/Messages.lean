import NexusSfu.Dataplane.Types
import NexusSfu.State.Distributed

namespace NexusSfu.Swim

open Base State
open Dataplane (SocketAddr)

abbrev ActorId := Nat

abbrev maxPeers : Nat := 256
abbrev maxMessageSize : Nat := 1400
abbrev maxPiggybackUpdates : Nat := 16
abbrev maxEncodedUpdateLen : Nat := 43
abbrev snapshotMemberSize : Nat := 17

abbrev maxSnapshotMembers : Nat :=
  (maxMessageSize - (1 + 8 + 8 + 2 + 2) - maxPiggybackUpdates * (2 + maxEncodedUpdateLen))
    / snapshotMemberSize

abbrev u64Max : Nat := 18446744073709551615

inductive Update
  | delta (update : StateUpdate)
  | trackUpdated (trackId : TrackId) (info : TrackInfo) (timestamp : Nat) (actor : ActorId)
  | relaySubscribe (trackId : TrackId) (requesterNode : Nat)
  | relayUnsubscribe (trackId : TrackId) (requesterNode : Nat)
  deriving DecidableEq

inductive GossipMessage
  | ping (sender : ActorId) (incarnation : Nat) (piggyback : List Update)
  | ack (sender : ActorId) (incarnation : Nat) (piggyback : List Update)
  | pingReq (sender target : ActorId) (targetAddr requesterAddr : SocketAddr)
  | suspect (actorId : ActorId) (incarnation : Nat)
  | alive (actorId : ActorId) (incarnation : Nat)
  | dead (actorId : ActorId)
  | forwardedAck (target : ActorId) (incarnation : Nat)
  | stateSnapshot (sender : ActorId) (incarnation : Nat) (members : List (ActorId × Nat × UInt8))
    (updates : List Update)
  deriving DecidableEq

def GossipMessage.updates : GossipMessage → List Update
  | ping _ _ us | ack _ _ us | stateSnapshot _ _ _ us => us
  | pingReq _ _ _ _ | suspect _ _ | alive _ _ | dead _ | forwardedAck _ _ => []

section Encode

def encodeSocketAddr : SocketAddr → Bytes
  | .v4 ip port => 0 :: (ip.toList ++ beBytes 2 port.toNat)
  | .v6 ip port flowinfo scopeId =>
    1 :: (ip.toList ++ beBytes 2 port.toNat ++ beBytes 4 flowinfo.toNat ++ beBytes 4 scopeId.toNat)

def encodeTrackInfo (info : TrackInfo) : Bytes :=
  beBytes 1 info.trackType ++ beBytes 1 info.contentType ++ beBytes 4 info.codec
    ++ beBytes 4 info.bitrateKbps ++ beBytes 8 info.ownerNode

def encodeDot (dot : Dot) : Bytes := beBytes 8 dot.actorId ++ beBytes 8 dot.clock

def Update.encode : Update → Bytes
  | delta (.participantAdded roomId participantId dot) =>
    0 :: (beBytes 4 roomId ++ beBytes 8 participantId ++ encodeDot dot)
  | delta (.participantRemoved roomId participantId dot) =>
    1 :: (beBytes 4 roomId ++ beBytes 8 participantId ++ encodeDot dot)
  | trackUpdated trackId info timestamp actor =>
    2 :: (beBytes 8 trackId ++ encodeTrackInfo info ++ beBytes 8 timestamp ++ beBytes 8 actor)
  | delta (.subscriptionAdded trackId participantId dot) =>
    3 :: (beBytes 8 trackId ++ beBytes 8 participantId ++ encodeDot dot)
  | delta (.subscriptionRemoved trackId participantId dot) =>
    4 :: (beBytes 8 trackId ++ beBytes 8 participantId ++ encodeDot dot)
  | relaySubscribe trackId requesterNode => 5 :: (beBytes 8 trackId ++ beBytes 8 requesterNode)
  | relayUnsubscribe trackId requesterNode => 6 :: (beBytes 8 trackId ++ beBytes 8 requesterNode)

def encodeUpdates (updates : List Update) : Bytes :=
  beBytes 2 (min updates.length maxPiggybackUpdates)
    ++ (updates.take maxPiggybackUpdates).flatMap fun u => beBytes 2 u.encode.length ++ u.encode

def encodeMembers (members : List (ActorId × Nat × UInt8)) : Bytes :=
  beBytes 2 (min members.length maxSnapshotMembers)
    ++ (members.take maxSnapshotMembers).flatMap fun m =>
      beBytes 8 m.1 ++ beBytes 8 m.2.1 ++ [m.2.2]

namespace GossipMessage

def layout : GossipMessage → Bytes
  | ping sender incarnation piggyback =>
    0 :: (beBytes 8 sender ++ beBytes 8 incarnation ++ encodeUpdates piggyback)
  | ack sender incarnation piggyback =>
    1 :: (beBytes 8 sender ++ beBytes 8 incarnation ++ encodeUpdates piggyback)
  | pingReq sender target targetAddr requesterAddr =>
    2 :: (beBytes 8 sender ++ beBytes 8 target ++ encodeSocketAddr targetAddr
      ++ encodeSocketAddr requesterAddr)
  | suspect actorId incarnation => 3 :: (beBytes 8 actorId ++ beBytes 8 incarnation)
  | alive actorId incarnation => 4 :: (beBytes 8 actorId ++ beBytes 8 incarnation)
  | dead actorId => 5 :: beBytes 8 actorId
  | forwardedAck target incarnation => 6 :: (beBytes 8 target ++ beBytes 8 incarnation)
  | stateSnapshot sender incarnation members updates =>
    7 :: (beBytes 8 sender ++ beBytes 8 incarnation ++ encodeMembers members ++
      encodeUpdates updates)

def encode (msg : GossipMessage) : Option Bytes :=
  if msg.layout.length ≤ maxMessageSize then some msg.layout else none

end GossipMessage

theorem length_encodeSocketAddr_le (addr : SocketAddr) : (encodeSocketAddr addr).length ≤ 27 := by
  cases addr with
  | v4 ip port => simp [encodeSocketAddr]
  | v6 ip port flowinfo scopeId => simp [encodeSocketAddr]

theorem Update.length_encode_le (u : Update) : u.encode.length ≤ maxEncodedUpdateLen := by
  cases u with
  | delta u => cases u <;> simp [encode, encodeDot, maxEncodedUpdateLen]
  | trackUpdated trackId info timestamp actor => simp [encode, encodeTrackInfo, maxEncodedUpdateLen]
  | relaySubscribe trackId requesterNode => simp [encode, maxEncodedUpdateLen]
  | relayUnsubscribe trackId requesterNode => simp [encode, maxEncodedUpdateLen]

theorem length_flatMap_take_le {α : Type} {f : α → Bytes} {k : Nat}
    (hf : ∀ a, (f a).length ≤ k) (n : Nat) (l : List α) :
    ((l.take n).flatMap f).length ≤ n * k := by
  induction l generalizing n with
  | nil => simp
  | cons a l ih =>
    cases n with
    | zero => simp
    | succ n =>
      rw [List.take_succ_cons, List.flatMap_cons, List.length_append, Nat.succ_mul, Nat.add_comm]
      exact Nat.add_le_add (ih n) (hf a)

theorem length_encodeUpdates_le (us : List Update) :
    (encodeUpdates us).length ≤ 2 + maxPiggybackUpdates * (2 + maxEncodedUpdateLen) := by
  rw [encodeUpdates, List.length_append, length_beBytes]
  refine Nat.add_le_add_left (length_flatMap_take_le (fun u => ?_) _ us) 2
  rw [List.length_append, length_beBytes]
  exact Nat.add_le_add_left u.length_encode_le 2

theorem length_encodeMembers_le (members : List (ActorId × Nat × UInt8)) :
    (encodeMembers members).length ≤ 2 + maxSnapshotMembers * snapshotMemberSize := by
  rw [encodeMembers, List.length_append, length_beBytes]
  exact Nat.add_le_add_left (length_flatMap_take_le (fun m => by simp) _ members) 2

theorem GossipMessage.length_layout_le (msg : GossipMessage) :
    msg.layout.length ≤ maxMessageSize := by
  have hus : _ ≤ 722 := length_encodeUpdates_le msg.updates
  change msg.layout.length ≤ 1400
  cases msg with
  | ping sender incarnation piggyback =>
    simp only [updates] at hus
    simp only [layout, List.length_cons, List.length_append, length_beBytes]
    omega
  | ack sender incarnation piggyback =>
    simp only [updates] at hus
    simp only [layout, List.length_cons, List.length_append, length_beBytes]
    omega
  | pingReq sender target targetAddr requesterAddr =>
    have ht := length_encodeSocketAddr_le targetAddr
    have hr := length_encodeSocketAddr_le requesterAddr
    simp only [layout, List.length_cons, List.length_append, length_beBytes]
    omega
  | stateSnapshot sender incarnation members us =>
    have hm : _ ≤ 648 := length_encodeMembers_le members
    simp only [updates] at hus
    simp only [layout, List.length_cons, List.length_append, length_beBytes]
    omega
  | suspect actorId incarnation => simp [layout]
  | alive actorId incarnation => simp [layout]
  | dead actorId => simp [layout]
  | forwardedAck target incarnation => simp [layout]

theorem GossipMessage.length_layout_pos (msg : GossipMessage) : 0 < msg.layout.length := by
  cases msg <;> exact Nat.succ_pos _

theorem GossipMessage.encode_eq (msg : GossipMessage) : msg.encode = some msg.layout :=
  if_pos msg.length_layout_le

end Encode

section Decode

variable (data : Bytes)

def byteAt (offset : Nat) : UInt8 := data.getD offset 0

def numAt (k : Nat) (data : Bytes) (offset : Nat) : Nat := beNat (slice data offset k)

def decodeSocketAddr : Option (SocketAddr × Nat) :=
  match data.head? with
  | some 0 =>
    if data.length < 7 then none
    else some (.v4 (.ofFn fun i => byteAt data (i + 1)) (.ofNat (numAt 2 data 5)), 7)
  | some 1 =>
    if data.length < 27 then none
    else
      -- the flow information and the scope are not kept
      some (.v6 (.ofFn fun i => byteAt data (i + 1)) (.ofNat (numAt 2 data 17)) 0 0, 27)
  | _ => none

def decodeTrackInfo : Option (TrackInfo × Nat) :=
  if data.length < 18 then none
  else some (⟨numAt 1 data 0, numAt 1 data 1, numAt 4 data 2, numAt 4 data 6, numAt 8 data 10⟩,
    18)

def decodeDotAt (offset : Nat) : Option Dot :=
  if data.length < offset + 16 then none
  else
    let dot : Dot := ⟨numAt 8 data offset, numAt 8 data (offset + 8)⟩
    if dot.actorId ≥ maxActors then none
    else if dot.clock = 0 then none
    else some dot

def decodeParticipantUpdate (isAdd : Bool) : Option (Update × Nat) :=
  if data.length < 29 then none
  else do
    let roomId := numAt 4 data 1
    let participantId := numAt 8 data 5
    let dot ← decodeDotAt data 13
    if roomId = 0 ∨ roomId > u32Max / 2 ∨ participantId = 0 then none
    else if isAdd then some (.delta (.participantAdded roomId participantId dot), 29)
    else some (.delta (.participantRemoved roomId participantId dot), 29)

def decodeSubscriptionUpdate (isAdd : Bool) : Option (Update × Nat) :=
  if data.length < 33 then none
  else do
    let trackId := numAt 8 data 1
    let participantId := numAt 8 data 9
    let dot ← decodeDotAt data 17
    if trackId = 0 ∨ trackId > u64Max / 2 ∨ participantId = 0 then none
    else if isAdd then some (.delta (.subscriptionAdded trackId participantId dot), 33)
    else some (.delta (.subscriptionRemoved trackId participantId dot), 33)

def decodeRelayUpdate (isSubscribe : Bool) : Option (Update × Nat) :=
  if data.length < 17 then none
  else
    let trackId := numAt 8 data 1
    let requesterNode := numAt 8 data 9
    if trackId = 0 ∨ requesterNode = 0 then none
    else if isSubscribe then some (.relaySubscribe trackId requesterNode, 17)
    else some (.relayUnsubscribe trackId requesterNode, 17)

def decodeTrackUpdate : Option (Update × Nat) :=
  if data.length < 30 then none
  else do
    let trackId := numAt 8 data 1
    let (info, infoLen) ← decodeTrackInfo (data.drop 9)
    let offset := 9 + infoLen
    if data.length < offset + 16 then none
    else
      let timestamp := numAt 8 data offset
      let actor := numAt 8 data (offset + 8)
      if actor ≥ maxActors then none
      else if trackId = 0 ∨ trackId > u64Max / 2 ∨ timestamp = 0 then none
      else some (.trackUpdated trackId info timestamp actor, offset + 16)

def Update.decode : Option (Update × Nat) :=
  match data.head? with
  | some 0 => decodeParticipantUpdate data true
  | some 1 => decodeParticipantUpdate data false
  | some 2 => decodeTrackUpdate data
  | some 3 => decodeSubscriptionUpdate data true
  | some 4 => decodeSubscriptionUpdate data false
  | some 5 => decodeRelayUpdate data true
  | some 6 => decodeRelayUpdate data false
  | _ => none

def decodeUpdates (noLength noUpdate : String) (data : Bytes) :
    (count offset : Nat) → Except String (List Update)
  | 0, _ => .ok []
  | count + 1, offset =>
    if offset + 2 > data.length then .error noLength
    else
      let updateLen := numAt 2 data offset
      if offset + 2 + updateLen > data.length then .error noUpdate
      else do
        let rest ← decodeUpdates noLength noUpdate data count (offset + 2 + updateLen)
        match Update.decode (slice data (offset + 2) updateLen) with
        | some (update, _) => .ok (update :: rest)
        | none => .ok rest

def decodeMembers (data : Bytes) :
    (count offset : Nat) → Except String (List (ActorId × Nat × UInt8) × Nat)
  | 0, offset => .ok ([], offset)
  | count + 1, offset =>
    if offset + 17 > data.length then .error "member data truncated"
    else do
      let actorId := numAt 8 data offset
      let state := byteAt data (offset + 16)
      let (rest, last) ← decodeMembers data count (offset + 17)
      if actorId < maxActors ∧
        state ≤ 2 then .ok ((actorId, numAt 8 data (offset + 8), state) :: rest, last)
      else .ok (rest, last)

namespace GossipMessage

def decodePiggyback (tooShort invalid : String)
    (make : ActorId → Nat → List Update → GossipMessage) (data : Bytes) :
    Except String GossipMessage :=
  if data.length < 18 then .error tooShort
  else
    let sender := numAt 8 data 0
    if sender ≥ maxActors then .error invalid
    else
      let piggybackCount := numAt 2 data 16
      if piggybackCount > maxPiggybackUpdates then .error "too many piggyback updates"
      else do
        let piggyback ← decodeUpdates "piggyback data truncated" "piggyback update truncated" data
          piggybackCount 18
        .ok (make sender (numAt 8 data 8) piggyback)

def decodePing (data : Bytes) : Except String GossipMessage :=
  decodePiggyback "ping message too short" "invalid actor_id in ping" ping data

def decodeAck (data : Bytes) : Except String GossipMessage :=
  decodePiggyback "ack message too short" "invalid actor_id in ack" ack data

def decodePingReq (data : Bytes) : Except String GossipMessage :=
  if data.length < 17 then .error "ping_req message too short"
  else
    let sender := numAt 8 data 0
    let target := numAt 8 data 8
    if sender ≥ maxActors then .error "invalid from actor_id in ping_req"
    else if target ≥ maxActors then .error "invalid target actor_id in ping_req"
    else match decodeSocketAddr (data.drop 16) with
      | none => .error "invalid target_addr in ping_req"
      | some (targetAddr, targetAddrLen) =>
        match decodeSocketAddr (data.drop (16 + targetAddrLen)) with
        | none => .error "invalid requester_addr in ping_req"
        | some (requesterAddr, _) => .ok (.pingReq sender target targetAddr requesterAddr)

def decodeReport (tooShort invalid : String) (make : ActorId → Nat → GossipMessage)
    (data : Bytes) :
    Except String GossipMessage :=
  if data.length < 16 then .error tooShort
  else
    let actorId := numAt 8 data 0
    if actorId ≥ maxActors then .error invalid else .ok (make actorId (numAt 8 data 8))

def decodeSuspect (data : Bytes) : Except String GossipMessage :=
  decodeReport "suspect message too short" "invalid actor_id in suspect" suspect data

def decodeAlive (data : Bytes) : Except String GossipMessage :=
  decodeReport "alive message too short" "invalid actor_id in alive" alive data

def decodeForwardedAck (data : Bytes) : Except String GossipMessage :=
  decodeReport "forwarded_ack message too short" "invalid target in forwarded_ack" forwardedAck data

def decodeDead (data : Bytes) : Except String GossipMessage :=
  if data.length < 8 then .error "dead message too short"
  else
    let actorId := numAt 8 data 0
    if actorId ≥ maxActors then .error "invalid actor_id in dead" else .ok (.dead actorId)

def decodeStateSnapshot (data : Bytes) : Except String GossipMessage :=
  if data.length < 18 then .error "state_snapshot message too short"
  else
    let sender := numAt 8 data 0
    if sender ≥ maxActors then .error "invalid from in state_snapshot"
    else
      let memberCount := numAt 2 data 16
      if memberCount > maxPeers then .error "too many members in state_snapshot"
      else do
        let (members, offset) ← decodeMembers data memberCount 18
        if offset + 2 > data.length then .error "update count truncated"
        else
          let updateCount := numAt 2 data offset
          if updateCount > maxPiggybackUpdates then .error "too many updates in state_snapshot"
          else do
            let updates ← decodeUpdates "update data truncated" "update truncated"
                data updateCount
              (offset + 2)
            .ok (.stateSnapshot sender (numAt 8 data 8) members updates)

def decode : Bytes → Except String GossipMessage
  | [] => .error "empty message"
  | 0 :: data => decodePing data
  | 1 :: data => decodeAck data
  | 2 :: data => decodePingReq data
  | 3 :: data => decodeSuspect data
  | 4 :: data => decodeAlive data
  | 5 :: data => decodeDead data
  | 6 :: data => decodeForwardedAck data
  | 7 :: data => decodeStateSnapshot data
  | _ :: _ => .error "invalid message type"

end GossipMessage
end Decode
end NexusSfu.Swim
