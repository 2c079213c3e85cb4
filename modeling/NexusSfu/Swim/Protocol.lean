import NexusSfu.Base.Assoc
import NexusSfu.Swim.Shared

namespace NexusSfu.Swim

open Base State Checked
open Dataplane (SocketAddr)

abbrev maxPiggybackQueueSize : Nat := maxPiggybackUpdates * 10
abbrev maxPendingIndirect : Nat := maxPeers
abbrev maxPendingPings : Nat := maxPeers
abbrev maxRelayEvents : Nat := 1024
abbrev maxSeedPeers : Nat := 16
abbrev maxUpdatesPerIteration : Nat := 4096
abbrev defaultAntiEntropyIntervalMs : Nat := 10000

structure GossipConfig where
  probeIntervalMs : Nat := 1000
  pingTimeoutMs : Nat := 1000
  suspectTimeoutMs : Nat := 5000
  fanout : Nat := 3
  maxPiggybackUpdates : Nat := 16
  seedPeers : List (ActorId × SocketAddr) := []
  deriving DecidableEq

def GossipConfig.validate (c : GossipConfig) : Except GossipError Unit :=
  if c.probeIntervalMs = 0 then .error (.config "probe_interval_ms must be > 0")
  else if c.pingTimeoutMs = 0 then .error (.config "ping_timeout_ms must be > 0")
  else if c.suspectTimeoutMs ≤ c.pingTimeoutMs then
    .error (.config "suspect_timeout_ms must be > ping_timeout_ms")
  else if c.fanout = 0 then .error (.config "fanout must be > 0")
  else if c.fanout > maxPeers then .error (.config "fanout must be <= MAX_PEERS (256)")
  else if c.maxPiggybackUpdates = 0 then .error (.config "max_piggyback_updates must be > 0")
  else if c.maxPiggybackUpdates > Swim.maxPiggybackUpdates then
    .error (.config "max_piggyback_updates must be <= MAX_PIGGYBACK_UPDATES (16)")
  else if c.seedPeers.length > maxSeedPeers then
    .error (.config "seed_peers.len() must be <= MAX_SEED_PEERS (16)")
  else .ok ()

structure PendingPing where
  target : ActorId
  targetAddr : SocketAddr
  sentAtNs : Nat
  indirectRequested : Bool
  deriving DecidableEq

structure PendingIndirect where
  target : ActorId
  requester : ActorId
  requesterAddr : SocketAddr
  sentAtNs : Nat
  deriving DecidableEq

inductive RelayEvent
  | subscribe (trackId : TrackId) (requesterNode : Nat)
  | unsubscribe (trackId : TrackId) (requesterNode : Nat)
  deriving DecidableEq

inductive SendResult
  | sent
  | wouldBlock
  | failed
  deriving DecidableEq

/-- What the node's surroundings answer during one event: the readings of its clock, its random
draws and the results of its sends, in order. -/
structure Tape where
  times : List Nat := []
  draws : List (List Nat) := []
  sends : List SendResult := []
  deriving DecidableEq

structure Sent where
  msg : GossipMessage
  dest : SocketAddr
  taken : Bool
  deriving DecidableEq

structure SwimProtocol where
  localActor : ActorId
  membership : MembershipList
  localAddr : SocketAddr
  config : GossipConfig
  pendingPings : Assoc ActorId PendingPing := ∅
  pendingIndirect : Assoc ActorId PendingIndirect := ∅
  lastProbeNs : Nat := 0
  lastAntiEntropyNs : Nat := 0
  antiEntropyIntervalMs : Nat := defaultAntiEntropyIntervalMs
  piggybackQueue : List Update := []
  shared : Option Shared := none
  relayEvents : List RelayEvent := []
  outbox : List Sent := []
  tape : Tape := {}

abbrev Routine (α : Type) := Checked Panic SwimProtocol α

def msToNs (ms : Nat) : Nat := ms * 1000000 % (u64Max + 1)

def actorIdsInRange : GossipMessage → Bool
  | .ping sender _ _ | .ack sender _ _ | .stateSnapshot sender _ _ _ => sender < maxActors
  | .pingReq sender target _ _ => sender < maxActors && target < maxActors
  | .suspect actorId _ | .alive actorId _ | .dead actorId => actorId < maxActors
  | .forwardedAck target _ => target < maxActors

namespace SwimProtocol

def new (localActor : ActorId) (bindAddr : SocketAddr) (config : GossipConfig) :
    Option (Except GossipError SwimProtocol) :=
  if localActor < maxActors then
    some (config.validate.map fun _ =>
      { localActor, membership := .new localActor, localAddr := bindAddr, config })
  else none

def withState (s : SwimProtocol) (state : DistributedState) : SwimProtocol :=
  { s with shared := some ⟨state, []⟩ }

def onMembers {α : Type} (m : Checked Panic MembershipList α) : Routine α :=
  zoom membership (fun s m => { s with membership := m }) m

def onShared (m : Checked Panic Shared Unit) : Routine Unit := fun s =>
  match s.shared with
  | none => .ok ((), s)
  | some shared => (m shared).map fun r => ((), { s with shared := some r.2 })

def currentTimeNs : Routine Nat := do
  let tape := (← get).tape
  modify fun s => { s with tape := { tape with times := tape.times.tail } }
  return tape.times.headD 0

def getrandom : Routine (List Nat) := do
  let tape := (← get).tape
  modify fun s => { s with tape := { tape with draws := tape.draws.tail } }
  return tape.draws.headD []

def send (msg : GossipMessage) (dest : SocketAddr) : Routine (Except GossipError Unit) := do
  let data ← expect .assertion msg.encode
  assert .assertion (0 < data.length && data.length ≤ maxMessageSize)
  let tape := (← get).tape
  let result := tape.sends.headD .sent
  modify fun s => { s with
    tape := { tape with sends := tape.sends.tail }
    outbox := s.outbox ++ [⟨msg, dest, result = .sent⟩] }
  return if result = .failed then .error .transport else .ok ()

def sendAll (msg : GossipMessage) (peers : List PeerInfo) : Routine Unit :=
  each (fun peer => do let _ ← send msg peer.addr) peers

def getPiggybackUpdates : Routine (List Update) := do
  let s ← get
  let count := min s.piggybackQueue.length s.config.maxPiggybackUpdates
  set { s with piggybackQueue := s.piggybackQueue.drop count }
  return s.piggybackQueue.take count

def sendWithUpdates (msg : List Update → GossipMessage) (dest : SocketAddr) :
    Routine (Except GossipError Unit) := do
  let updates ← getPiggybackUpdates
  send (msg updates) dest

@[irreducible] def newest {α : Type} (n : Nat) (l : List α) : List α := l.drop (l.length - n)

def enqueued (queue : List Update) (update : Update) : List Update :=
  newest maxPiggybackQueueSize (queue ++ [update])

def broadcastStateUpdate (update : Update) : Routine Unit := do
  modify fun s => { s with piggybackQueue := enqueued s.piggybackQueue update }
  assert .assertion ((← get).piggybackQueue.length ≤ maxPiggybackQueueSize)

def broadcastAlive (actorId : ActorId) (incarnation : Nat) : Routine Unit := do
  sendAll (.alive actorId incarnation) (← get).membership.getAlivePeers

def fanoutPeers (exclude : ActorId) : Routine (List PeerInfo) := do
  let draws ← getrandom
  let s ← get
  return s.membership.getRandomAlivePeers s.config.fanout exclude draws

def broadcastSuspect (actorId : ActorId) (incarnation : Nat) : Routine Unit := do
  sendAll (.suspect actorId incarnation) (← fanoutPeers actorId)

def broadcastDead (actorId : ActorId) : Routine Unit := do
  sendAll (.dead actorId) (← fanoutPeers actorId)

def requestIndirectProbes (target : ActorId) (targetAddr : SocketAddr) : Routine Unit := do
  let s ← get
  sendAll (.pingReq s.localActor target targetAddr s.localAddr) (← fanoutPeers target)

section Receive

variable (actorId sender : ActorId) (incarnation : Nat)

def markAlive : Routine Unit := do
  let now ← currentTimeNs
  let _ ← onMembers (MembershipList.markAlive now actorId incarnation)

def touch : Routine Unit := do
  let now ← currentTimeNs
  onMembers (modify (·.touch now actorId))

def welcome (source : SocketAddr) : Routine Unit := do
  let now ← currentTimeNs
  let _ ← onMembers (MembershipList.addPeer now sender source)
  markAlive sender incarnation
  touch sender

def pushRelayEvent (events : List RelayEvent) (event : RelayEvent) : List RelayEvent :=
  if events.length < maxRelayEvents then events ++ [event] else events

def noted (events : List RelayEvent) : Update → List RelayEvent
  | .relaySubscribe trackId requesterNode =>
    pushRelayEvent events (.subscribe trackId requesterNode)
  | .relayUnsubscribe trackId requesterNode =>
    pushRelayEvent events (.unsubscribe trackId requesterNode)
  | .delta _ | .trackUpdated _ _ _ _ => events

def requeued (queue : List Update) (update : Update) : List Update :=
  if queue.length < maxPiggybackQueueSize then queue ++ [update] else queue

def rebroadcast (update : Update) : Routine Unit :=
  modify fun s => { s with
    relayEvents := noted s.relayEvents update, piggybackQueue := requeued s.piggybackQueue update }

def processStateUpdates (updates : List Update) : Routine Unit := do
  let updates := updates.take maxPiggybackUpdates
  each (fun u => onShared (applyStateUpdate u)) updates
  each rebroadcast updates
  assert .assertion ((← get).piggybackQueue.length ≤ maxPiggybackQueueSize)

def handlePing (piggyback : List Update)
    (source : SocketAddr) : Routine (Except GossipError Unit) := do
  if sender ≠ (← get).localActor then welcome sender incarnation source
  processStateUpdates piggyback
  let s ← get
  sendWithUpdates (.ack s.localActor s.membership.incarnation) source

def forwardAck : Routine Unit := do
  match (← get).pendingIndirect.lookup sender with
  | none => pure ()
  | some pending =>
    modify fun s => { s with pendingIndirect := s.pendingIndirect.erase sender }
    let _ ← send (.forwardedAck sender incarnation) pending.requesterAddr

def handleAck (piggyback : List Update) :
    Routine (Except GossipError Unit) := do
  modify fun s => { s with pendingPings := s.pendingPings.erase sender }
  if sender ≠ (← get).localActor then
    markAlive sender incarnation
    touch sender
  forwardAck sender incarnation
  processStateUpdates piggyback
  return .ok ()

def handlePingReq (sender target : ActorId) (targetAddr requesterAddr : SocketAddr) :
    Routine (Except GossipError Unit) := do
  let s ← get
  if target = s.localActor then
    return .error (.invalidMessage "ping-req targets the local actor")
  match ← sendWithUpdates (.ping s.localActor s.membership.incarnation) targetAddr with
  | .error e => return .error e
  | .ok () =>
    let sentAtNs ← currentTimeNs
    modify fun s =>
      if s.pendingIndirect.entries.length < maxPendingIndirect then { s with
        pendingIndirect :=
          s.pendingIndirect.insert target ⟨target, sender, requesterAddr, sentAtNs⟩ }
      else s
    return .ok ()

def handleSuspect : Routine (Except GossipError Unit) := do
  if actorId = (← get).localActor then
    let incarnation ← onMembers MembershipList.incrementIncarnation
    broadcastAlive actorId incarnation
  else
    let now ← currentTimeNs
    let _ ← onMembers (MembershipList.markSuspect now actorId incarnation)
  return .ok ()

def handleAlive : Routine (Except GossipError Unit) := do
  markAlive actorId incarnation
  return .ok ()

def handleDead : Routine (Except GossipError Unit) := do
  if actorId ≠ (← get).localActor then
    let now ← currentTimeNs
    let _ ← onMembers (MembershipList.markDead now actorId)
  return .ok ()

def handleForwardedAck (target : ActorId) (incarnation : Nat) :
    Routine (Except GossipError Unit) := do
  modify fun s => { s with pendingPings := s.pendingPings.erase target }
  if target ≠ (← get).localActor then
    markAlive target incarnation
    touch target
  return .ok ()

def mergeMember (member : ActorId × Nat × UInt8) : Routine Unit := do
  let (actorId, incarnation, state) := member
  let s ← get
  if actorId = s.localActor ∨ actorId ≥ maxActors ∨
    (s.membership.findPeer actorId).isNone then pure ()
  else match PeerState.fromU8 state with
    | none => pure ()
    | some .alive => markAlive actorId incarnation
    | some .suspect =>
      let now ← currentTimeNs
      let _ ← onMembers (MembershipList.markSuspect now actorId incarnation)
    | some .dead =>
      let now ← currentTimeNs
      let _ ← onMembers (MembershipList.markDead now actorId)

def handleStateSnapshot
    (members : List (ActorId × Nat × UInt8)) (updates : List Update) (source : SocketAddr) :
    Routine (Except GossipError Unit) := do
  if sender ≠ (← get).localActor then welcome sender incarnation source
  each mergeMember (members.take maxPeers)
  processStateUpdates updates
  return .ok ()

def handleMessage (msg : GossipMessage) (source : SocketAddr) : Routine (Except GossipError Unit) :=
  if actorIdsInRange msg = false then return .error (.invalidMessage "actor id out of range")
  else match msg with
    | .ping sender incarnation piggyback => handlePing sender incarnation piggyback source
    | .ack sender incarnation piggyback => handleAck sender incarnation piggyback
    | .pingReq sender target targetAddr requesterAddr =>
      handlePingReq sender target targetAddr requesterAddr
    | .suspect actorId incarnation => handleSuspect actorId incarnation
    | .alive actorId incarnation => handleAlive actorId incarnation
    | .dead actorId => handleDead actorId
    | .forwardedAck target incarnation => handleForwardedAck target incarnation
    | .stateSnapshot sender incarnation members updates =>
      handleStateSnapshot sender incarnation members updates source

def handleDatagram (data : Bytes) (source : SocketAddr) : Routine (Except GossipError Unit) :=
  if data.length > maxMessageSize then
    return .error (.invalidMessage "datagram exceeds MAX_MESSAGE_SIZE")
  else match GossipMessage.decode data with
    | .ok msg => handleMessage msg source
    | .error reason => return .error (.invalidMessage reason)

end Receive

section Probe

def sendPing (target : PeerInfo) : Routine (Except GossipError Unit) := do
  assert .assertion (target.state = .alive)
  let s ← get
  match ← sendWithUpdates (.ping s.localActor s.membership.incarnation) target.addr with
  | .error e => return .error e
  | .ok () =>
    if ((← get).pendingPings.lookup target.actorId).isNone then
      let sentAtNs ← currentTimeNs
      modify fun s => { s with
        pendingPings := s.pendingPings.insert target.actorId
          ⟨target.actorId, target.addr, sentAtNs, false⟩ }
    return .ok ()

variable (now : Nat)

def pingTimedOut (actorId : ActorId) (pending : PendingPing) : Routine Unit := do
  if pending.indirectRequested then
    modify fun s => { s with pendingPings := s.pendingPings.erase actorId }
    match (← get).membership.findPeer actorId with
    | none => pure ()
    | some peer =>
      let seen ← currentTimeNs
      let _ ← onMembers (MembershipList.markSuspect seen actorId peer.incarnation)
      broadcastSuspect actorId peer.incarnation
  else
    requestIndirectProbes actorId pending.targetAddr
    modify fun s => { s with
      pendingPings :=
        s.pendingPings.replace actorId { pending with indirectRequested := true, sentAtNs := now } }

def checkPingTimeouts : Routine Unit := do
  let s ← get
  let pingTimeoutNs := msToNs s.config.pingTimeoutMs
  let indirectTimeoutNs := pingTimeoutNs * 2 % (u64Max + 1)
  modify fun s => { s with
    pendingIndirect := s.pendingIndirect.retain fun _ p => now - p.sentAtNs < indirectTimeoutNs }
  let timedOut := (s.pendingPings.entries.filter fun e => now - e.2.sentAtNs > pingTimeoutNs).take
    maxPendingPings
  each (fun e => pingTimedOut now e.1 e.2) timedOut

def expireSuspects : Routine (List ActorId) := do
  let (markedDead, m) := (← get).membership.checkTimeouts now
  assert .assertion (m.getAllPeers.all fun p => !MembershipList.expired now p)
  modify fun s => { s with membership := m }
  each broadcastDead markedDead
  return markedDead

def runAntiEntropy : Routine Unit := do
  let s ← get
  if now - s.lastAntiEntropyNs < msToNs s.antiEntropyIntervalMs then pure ()
  else
    modify fun s => { s with lastAntiEntropyNs := now }
    let draws ← getrandom
    match s.membership.getRandomAlivePeer (draws.headD 0) with
    | none => pure ()
    | some peer =>
      let members := (s.membership.getAllPeers.take maxSnapshotMembers).map fun p =>
        (p.actorId, p.incarnation, p.state.byte)
      let _ ← sendWithUpdates
          (.stateSnapshot s.localActor s.membership.incarnation members) peer.addr

def finishProbe : Routine (Except GossipError (List ActorId)) := do
  modify fun s => { s with lastProbeNs := now }
  checkPingTimeouts now
  let markedDead ← expireSuspects now
  runAntiEntropy now
  return .ok markedDead

def runProbeCycle : Routine (Except GossipError (List ActorId)) := do
  let now ← currentTimeNs
  let s ← get
  if now - s.lastProbeNs < msToNs s.config.probeIntervalMs then
    checkPingTimeouts now
    let markedDead ← expireSuspects now
    return .ok markedDead
  else
    let draws ← getrandom
    match s.membership.getRandomAlivePeer (draws.headD 0) with
    | none => finishProbe now
    | some peer =>
      match ← sendPing peer with
      | .error e => return .error e
      | .ok () => finishProbe now

def addSeedPeer (actorId : ActorId) (addr : SocketAddr) : Routine (Except GossipError Unit) := do
  let now ← currentTimeNs
  match ← onMembers (MembershipList.addPeer now actorId addr) with
  | .error e => return .error e
  | .ok () =>
    let s ← get
    match ← sendWithUpdates (.ping s.localActor s.membership.incarnation) addr with
    | .error e => return .error e
    | .ok () =>
      let sentAtNs ← currentTimeNs
      modify fun s => { s with
        pendingPings := s.pendingPings.insert actorId ⟨actorId, addr, sentAtNs, false⟩ }
      return .ok ()

end Probe

section Loop

def forwardUpdates : Routine Unit := do
  match (← get).shared with
  | none => pure ()
  | some shared =>
    modify fun s => { s with
      shared := some { shared with channel := shared.channel.drop maxUpdatesPerIteration } }
    each broadcastStateUpdate (shared.channel.take maxUpdatesPerIteration)

def recvLoopIteration : Option (Bytes × SocketAddr) → Routine (Except GossipError Unit)
  | none => return .ok ()
  | some (data, source) => do
    assert .assertion (0 < data.length && data.length ≤ maxMessageSize)
    match ← handleDatagram data source with
    | .error (.invalidMessage _) => return .ok ()
    | result => return result

/-- One turn of the gossip thread, with the datagram its socket has; `stop` is either of the two
signals to end. -/
def iteration (stop : Bool) (incoming : Option (Bytes × SocketAddr)) : Routine Bool := do
  if stop then return false
  else
    forwardUpdates
    match ← runProbeCycle with
    | .ok deadNodes =>
      each (fun dead => onShared (Operation.run (.handleNodeFailure dead))) deadNodes
    | .error _ => pure ()
    let _ ← recvLoopIteration incoming
    return true

end Loop
end SwimProtocol
end NexusSfu.Swim
