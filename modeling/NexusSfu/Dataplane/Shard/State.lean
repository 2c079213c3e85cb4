import NexusSfu.Dataplane.Shard.Net
import NexusSfu.Dataplane.Shard.Tables
import NexusSfu.Dataplane.Stun

namespace NexusSfu.Dataplane

open Base Prog

abbrev commandQueueCapacity : Nat := 4096

abbrev commandBudget : Nat := 64

abbrev eventRetention : Nat := 256

abbrev housekeepingInterval : Nat := 1000000000

abbrev minSwitchInterval : Nat := 100000000

abbrev prevAddrGrace : Nat := 1000000000

structure ShardConfig where
  shard : ShardId
  poolBuffers : Nat
  maxSessions : Nat
  consentTimeout : Nat
  rebindSilence : Nat
  rngSeed : UInt64
  dtlsBudgetPerSweep : Nat

structure ConfigError where
  message : String
  deriving DecidableEq, Repr

abbrev maxPoolBuffers : Nat := 1048576

def ShardConfig.validate (c : ShardConfig) : Except ConfigError Unit :=
  if c.poolBuffers < recvBatch + sendBatch then
    .error ⟨"pool_buffers must cover a receive and a send batch"⟩
  else if c.poolBuffers > maxPoolBuffers then .error ⟨"pool_buffers too large"⟩
  else if c.maxSessions = 0 then .error ⟨"max_sessions must be positive"⟩
  else if c.consentTimeout = 0 ∨ c.rebindSilence = 0 then .error ⟨"timeouts must be positive"⟩
  else if c.dtlsBudgetPerSweep = 0 then .error ⟨"dtls_budget_per_sweep must be positive"⟩
  else if c.rebindSilence ≥ c.consentTimeout then
    .error ⟨"rebind_silence must be below consent_timeout"⟩
  else .ok ()

inductive Counter
  | iterations | rxDatagrams | rxBytes | rxTruncated | rxErrors | rxUnreadable
  | txDatagrams | txBytes | dropSendFailed | txFullFlushes | dropUnclassified | dropStun
  | dropStunAuth | dropUnknownAddr | dropDtlsUnselected | dropDtlsVerified | dropDtlsBudget
  | dropDtlsShardBudget | dropNoSrtp | dropSrtpAuth | dropMalformed | dropNoRoute
  | dropUnmappedPt | dropTooLarge | dropSrtpProtect | dropPoolEmpty | dropEventFull
  | dropEventClosed | dropAfterConsent | dropSendDatagram | dropRtcpMalformed | stunAnswered
  | nominations | rebinds | switchThrottled | stunRepeated | rebased | ssrcsLearned
  | rtcpReceived | rtcpIgnored | srTranslated | keyframeRequests | keyframeThrottled
  | consentLost | commands | commandsRejected
  deriving DecidableEq, Repr

inductive SinkResult
  | accepted
  | full
  | closed
  deriving DecidableEq, Repr

class EventSink (ε : Type) where
  trySend : ε → Event → SinkResult × ε

structure Emission where
  serial : Nat
  event : Event
  deriving DecidableEq

inductive Fate
  | sent
  | retained
  | full
  | closed
  | afterConsent
  deriving DecidableEq, Repr

inductive Entry
  | opened (id : SessionId)
  | closed (id : SessionId)
  | emitted (event : Event) (waiting : Nat) (fate : Fate)
  deriving DecidableEq

/-- The sink and the events it refused. The serial numbers, `accepted` and `log` record what
happened and are read by no branch. -/
structure Outbox (ε : Type) where
  events : ε
  pending : List Emission
  accepted : List Emission
  log : List Entry

structure Shard (ι ε : Type) where
  config : ShardConfig
  stun : StunHash
  epoch : Nat
  net : Net ι
  tables : Tables
  outbox : Outbox ε
  commands : List Command
  rng : Rng
  counters : Counter → Nat
  nextHousekeeping : Nat
  dtlsBudget : Nat

namespace Shard

variable {ι ε : Type} {α : Type}

def new (config : ShardConfig) (stun : StunHash) (io : ι) (events : ε) (now : Nat) :
    Except ConfigError (Shard ι ε) :=
  match config.validate with
  | .error e => .error e
  | .ok _ => .ok {
      config
      stun
      epoch := now
      net := ⟨io, .new config.poolBuffers, [], []⟩
      tables := .new
      outbox := ⟨events, [], [], []⟩
      commands := []
      rng := ⟨config.rngSeed⟩
      counters := fun _ => 0
      nextHousekeeping := now + housekeepingInterval
      dtlsBudget := config.dtlsBudgetPerSweep }

def pushCommand (command : Command) : Prog (Shard ι ε) Bool := do
  let s ← get
  if s.commands.length ≥ commandQueueCapacity then return false
  set { s with commands := s.commands ++ [command] }
  return true

def addTo (c : Counter) (n : Nat) : Prog (Shard ι ε) Unit :=
  modify fun s => { s with counters := Function.update s.counters c (s.counters c + n) }

def count (c : Counter) : Prog (Shard ι ε) Unit := addTo c 1

def onTables (m : Prog Tables α) : Prog (Shard ι ε) α :=
  zoom Shard.tables (fun s tables => { s with tables }) m

def onNet (m : Prog (Net ι) α) : Prog (Shard ι ε) α :=
  zoom Shard.net (fun s net => { s with net }) m

def nowS (s : Shard ι ε) (now : Nat) : Nat := min ((now - s.epoch) / 1000000000) 4294967295

section Wire

variable [DatagramIo ι]

def flush : Prog (Shard ι ε) Unit := do
  if (← get).net.tx.isEmpty then return ()
  let (queued, sent) ← onNet Net.flush
  addTo .txDatagrams sent.datagrams
  addTo .txBytes sent.bytes
  addTo .dropSendFailed (queued - sent.datagrams)

def flushIfFull : Prog (Shard ι ε) Unit := do
  if (← get).net.txIsFull then
    count .txFullFlushes
    flush

def send (buf len : Nat) (addr : SocketAddr) : Prog (Shard ι ε) Unit := do
  flushIfFull
  onNet (Net.push ⟨buf, len, addr⟩)

end Wire

section Events

variable [EventSink ε]

variable (event : Event)

def consentWasLost : Prog (Shard ι ε) Bool := do
  match event.session.bind (← get).tables.sessionIds.lookup with
  | none => return false
  | some idx => return (← onTables (Tables.session idx)).consentLost

def note (fate : Fate) : Prog (Shard ι ε) Unit :=
  modify fun s => { s with outbox := { s.outbox with
    log := s.outbox.log ++ [.emitted event s.outbox.pending.length fate] } }

def retain : Prog (Shard ι ε) Bool := do
  let s ← get
  if event.isDtls ∨ s.outbox.pending.length = eventRetention then
    count .dropEventFull
    note event .full
    return false
  note event .retained
  modify fun s => { s with outbox := { s.outbox with
    pending := s.outbox.pending ++ [⟨s.outbox.log.length - 1, event⟩] } }
  assert ((← get).outbox.pending.length ≤ eventRetention)
  return true

def emit : Prog (Shard ι ε) Bool := do
  if ← consentWasLost event then
    count .dropAfterConsent
    note event .afterConsent
    return true
  let s ← get
  if s.outbox.pending.isEmpty ∨ event.isDtls then
    let (result, events) := EventSink.trySend s.outbox.events event
    set { s with outbox := { s.outbox with events } }
    match result with
    | .accepted =>
      note event .sent
      modify fun s => { s with outbox := { s.outbox with
        accepted := s.outbox.accepted ++ [⟨s.outbox.log.length - 1, event⟩] } }
      return true
    | .closed =>
      count .dropEventClosed
      note event .closed
      return true
    | .full => retain event
  else retain event

def offerPending : List Emission → Prog (Shard ι ε) Unit
  | [] => return ()
  | e :: rest => do
    let s ← get
    let (result, events) := EventSink.trySend s.outbox.events e.event
    match result with
    | .accepted =>
      set { s with outbox := { s.outbox with
        events, pending := rest, accepted := s.outbox.accepted ++ [e] } }
      offerPending rest
    | .closed =>
      set { s with outbox := { s.outbox with events, pending := rest } }
      count .dropEventClosed
      offerPending rest
    | .full => set { s with outbox := { s.outbox with events } }

def pushPending : Prog (Shard ι ε) Unit := do offerPending (← get).outbox.pending

end Events
end Shard
end NexusSfu.Dataplane
