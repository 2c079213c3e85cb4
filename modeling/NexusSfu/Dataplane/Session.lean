import NexusSfu.Base.Vec
import NexusSfu.Dataplane.Rewrite
import NexusSfu.Srtp.Inbound
import NexusSfu.Srtp.Outbound

/-!
Sessions and published tracks. Times are nanoseconds of the shard's clock.
-/

namespace NexusSfu.Dataplane

open Base Srtp

abbrev maxTracksPerSession : Nat := 10

abbrev maxSubsPerSession : Nat := 31

def maxOutSsrcOffset : UInt32 := 0x7FFFFFFF

abbrev dtlsBudgetPerSweep : Nat := 32

abbrev recentTransactionsMax : Nat := 16

abbrev TransactionId := Vector UInt8 12

structure SrInfo where
  ntp : UInt64
  rtp : UInt32
  deriving DecidableEq

structure Layer where
  ssrc : Option UInt32
  lastSr : Option SrInfo

structure PublishedTrack where
  id : TrackId
  session : Key
  spec : TrackSpec
  layer : Layer
  subscribers : List Key
  lastPli : Option Nat

def PublishedTrack.new (id : TrackId) (session : Key) (spec : TrackSpec) : PublishedTrack :=
  ⟨id, session, spec, ⟨spec.ssrc, none⟩, [], none⟩

structure Session where
  id : SessionId
  addr : Option SocketAddr
  prevAddr : Option SocketAddr
  lastRxSelected : Nat
  ice : IceParams
  srtpIn : Option SrtpInbound
  srtpOut : Option SrtpOutbound
  srtpVerified : Bool
  consentLost : Bool
  dtlsBudget : Nat
  lastSwitch : Option Nat
  pendingNomination : Option SocketAddr
  switchListed : Bool
  unreportedSwitch : Option SelectReason
  recentTransactions : Vector TransactionId recentTransactionsMax
  recentLen : Nat
  nextTransaction : Fin recentTransactionsMax
  outSsrcBase : UInt32
  lastOutSsrcOffset : UInt32
  published : FixedVec (UInt32 × Key) maxTracksPerSession
  unbound : FixedVec Key maxTracksPerSession
  subs : List Key

namespace Session

def new (id : SessionId) (ice : IceParams) (outSsrcBase : UInt32) (now : Nat) : Session where
  id
  addr := none
  prevAddr := none
  lastRxSelected := now
  ice
  srtpIn := none
  srtpOut := none
  srtpVerified := false
  consentLost := false
  dtlsBudget := dtlsBudgetPerSweep
  lastSwitch := none
  pendingNomination := none
  switchListed := false
  unreportedSwitch := none
  recentTransactions := Vector.replicate _ (Vector.replicate _ 0)
  recentLen := 0
  nextTransaction := 0
  outSsrcBase
  lastOutSsrcOffset := 0
  published := .new
  unbound := .new
  subs := []

variable (s : Session)

def rtcpSsrc : UInt32 := s.outSsrcBase

def trackCount : Nat := s.published.items.length + s.unbound.items.length

def trackOfSsrc (ssrc : UInt32) : Option Key :=
  (s.published.items.find? fun p => p.1 = ssrc).map Prod.snd

def noteTransaction (id : TransactionId) : Bool × Session :=
  if id ∈ s.recentTransactions.toList.take s.recentLen then (true, s)
  else (false, { s with
    recentTransactions := s.recentTransactions.set s.nextTransaction id
    nextTransaction := s.nextTransaction + 1
    recentLen := min (s.recentLen + 1) recentTransactionsMax })

def outSsrcOffset (ssrc : UInt32) : UInt32 := ssrc - s.outSsrcBase

end Session
end NexusSfu.Dataplane
