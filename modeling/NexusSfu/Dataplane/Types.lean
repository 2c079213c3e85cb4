import Mathlib.Data.List.Basic
import NexusSfu.Srtp.Crypto

namespace NexusSfu.Dataplane

open Base Srtp

inductive SocketAddr
  | v4 (ip : Vector UInt8 4) (port : UInt16)
  | v6 (ip : Vector UInt8 16) (port : UInt16) (flowinfo scopeId : UInt32)
  deriving DecidableEq

theorem firstId_ne_zero : (1 : UInt64) ≠ 0 := by decide

structure SessionId where
  get : UInt64
  ne_zero : get ≠ 0
  deriving DecidableEq

structure TrackId where
  get : UInt64
  ne_zero : get ≠ 0
  deriving DecidableEq

structure SubscriptionId where
  get : UInt64
  ne_zero : get ≠ 0
  deriving DecidableEq

abbrev maxShards : Nat := 64

abbrev ShardId := Fin maxShards

structure TrackRef where
  shard : ShardId
  track : TrackId
  deriving DecidableEq

structure ShortBytes (cap : Nat) where
  asBytes : Bytes
  ne_nil : asBytes ≠ []
  length_le : asBytes.length ≤ cap
  deriving DecidableEq

abbrev MidValue := ShortBytes 16

abbrev CnameValue := ShortBytes 255

inductive MediaKind
  | audio
  | video
  deriving DecidableEq, Repr

structure CodecParams where
  pt : UInt8
  clockRate : UInt32
  deriving DecidableEq, Repr

structure ExtIds where
  mid : UInt8
  audioLevel : UInt8
  videoOrientation : UInt8
  deriving DecidableEq, Repr

structure TrackSpec where
  kind : MediaKind
  mid : MidValue
  ssrc : Option UInt32
  codec : CodecParams
  ext : ExtIds
  cname : CnameValue
  deriving DecidableEq

structure PtMap where
  pairs : List (UInt8 × UInt8)
  length_le : pairs.length ≤ 2
  seven_bit : ∀ p ∈ pairs, p.1 ≤ 127 ∧ p.2 ≤ 127
  nodup : (pairs.map Prod.fst).Nodup
  deriving DecidableEq

def PtMap.map (m : PtMap) (pt : UInt8) : Option UInt8 :=
  (m.pairs.find? fun p => p.1 = pt).map Prod.snd

/-- Publisher one-byte extension ids to subscriber ids, 0 to drop, and the subscriber's id for
`mid`, 0 when declined. -/
structure ExtMap where
  map : Vector UInt8 15
  mid : UInt8
  deriving DecidableEq

structure SubSpec where
  outSsrc : UInt32
  mid : MidValue
  ptMap : PtMap
  extMap : ExtMap
  source : TrackRef
  deriving DecidableEq

structure IceParams where
  localUfrag : Vector UInt8 16
  localPwd : Vector UInt8 32
  deriving DecidableEq

structure KeyMaterial where
  deriveKeys : Except SrtpError SrtpCipher

structure SrtpInstall where
  «local» : KeyMaterial
  remote : KeyMaterial

inductive Command
  | createSession (id : SessionId) (ice : IceParams) (outSsrcBase : UInt32)
  | sendDatagram (id : SessionId) (bytes : Bytes)
  | installSrtp (id : SessionId) (keys : SrtpInstall)
  | addTrack (id : SessionId) (track : TrackId) (spec : TrackSpec)
  | removeTrack (track : TrackId)
  | subscribe (id : SessionId) (sub : SubscriptionId) (track : TrackId) (spec : SubSpec)
  | unsubscribe (sub : SubscriptionId)
  | closeSession (id : SessionId)

inductive SelectReason
  | nominated
  | rebound
  deriving DecidableEq, Repr

inductive RejectReason
  | unknownSession
  | unknownTrack
  | unknownSubscription
  | duplicateId
  | sessionLimit
  | trackLimit
  | subscriptionLimit
  | srtpAlreadyInstalled
  | srtpSetup
  | outSsrcNotMonotonic
  | ssrcInUse
  | wrongShard
  | invalidSpec
  deriving DecidableEq, Repr

inductive Event
  | dtlsDatagram (id : SessionId) (bytes : Bytes)
  | addressSelected (id : SessionId) (addr : SocketAddr) (reason : SelectReason)
  | peerSrtpVerified (id : SessionId)
  | consentLost (id : SessionId)
  | commandRejected (id : Option SessionId) (reason : RejectReason)
  deriving DecidableEq

namespace Event

def session : Event → Option SessionId
  | dtlsDatagram id _ | addressSelected id _ _ | peerSrtpVerified id | consentLost id => some id
  | commandRejected id _ => id

def isDtls : Event → Bool
  | dtlsDatagram _ _ => true
  | _ => false

end Event
end NexusSfu.Dataplane
