import NexusSfu.Orchestrator.Sdp
import NexusSfu.State.Distributed

namespace NexusSfu.Orchestrator

open Dataplane
open State (RoomId ParticipantId)

abbrev TrackId := NexusSfu.Dataplane.TrackId

inductive RoomGrant
  | any
  | names (names : List String)
  deriving DecidableEq

def RoomGrant.allows : RoomGrant → Option String → Bool
  | any, _ => true
  | names _, none => false
  | names ns, some name => name ≠ "" ∧ name ∈ ns

structure ParticipantInfo where
  id : ParticipantId
  name : String
  deriving DecidableEq

structure PublishedInfo where
  trackId : TrackId
  publisherId : ParticipantId
  kind : String
  content : String
  deriving DecidableEq

structure OfferTrack where
  trackId : TrackId
  mid : String
  deriving DecidableEq

inductive OfferMline
  | recycled (mid : String) (kind : MediaKind) (direction : Direction)
    (rtcpFbs : List (String × String))
  | track (ssrc : UInt32) (kind : MediaKind) (mid identity : String)
    (rtcpFbs : List (String × String))
  deriving DecidableEq

structure OfferSdp where
  sessionId : Nat
  version : Nat
  mlines : List OfferMline
  deriving DecidableEq

inductive SignalMessage
  | create (roomName : Option String)
  | created (roomId : RoomId) (roomName : Option String)
  | join (roomId : Nat) (participantName : String)
  | joined (participantId : ParticipantId) (roomId : RoomId) (participants : List ParticipantInfo)
    (tracks : List PublishedInfo)
  | leave
  | participantJoined (participantId : ParticipantId) (name : String)
  | participantLeft (participantId : ParticipantId)
  | publish (kinds contents : List String)
  | unpublish (trackIds : List UInt64)
  | offer (sdp : OfferSdp) (tracks : List OfferTrack)
  | answer (sdp : AnswerSdp)
  | iceCandidate (candidate : String) (sdpMid : Option String) (sdpMlineIndex : Option Nat)
  | endOfCandidates
  | subscribe (trackIds : List UInt64)
  | subscribed (trackIds : List TrackId)
  | unsubscribe (trackIds : List UInt64)
  | unsubscribed (trackIds : List TrackId)
  | trackPublished (publisherId : ParticipantId) (trackId : TrackId) (kind content : String)
  | trackUnpublished (trackId : TrackId)
  | published (trackId : TrackId) (mid kind : String)
  | viewport (visible pinned : List UInt64)
  | viewportUpdated (visibleCount pinnedCount : Nat)
  | setContent (trackId : UInt64) (content : String)
  | contentSet (trackId : UInt64) (content : String)
  | ping
  | pong
  | error (code message : String)
  deriving DecidableEq

structure ParticipantHandle where
  grant : RoomGrant
  roomId : Option RoomId := none
  publishedTracks : List TrackId := []

end NexusSfu.Orchestrator
