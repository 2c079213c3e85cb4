import NexusSfu.Dataplane.Shard.Ingress

namespace NexusSfu.Dataplane

open Base Prog Srtp

def Command.session : Command → Option SessionId
  | createSession id _ _ | sendDatagram id _ | installSrtp id _ | addTrack id _ _ => some id
  | subscribe id _ _ _ | closeSession id => some id
  | removeTrack _ | unsubscribe _ => none

namespace Shard

variable {ι ε : Type} [DatagramIo ι] [EventSink ε]

section Commands

def noteSession (entry : Entry) : Prog (Shard ι ε) Unit :=
  modify fun s => { s with outbox := { s.outbox with log := s.outbox.log ++ [entry] } }

variable (id : SessionId)

def createSession (ice : IceParams) (base : UInt32) (now : Nat) :
    Prog (Shard ι ε) Outcome := do
  match ← onTables (Tables.createSession (← get).config.maxSessions id ice base now) with
  | .error reason => return .error reason
  | .ok _ =>
    noteSession (.opened id)
    return .ok ()

def sendDatagram (bytes : Bytes) : Prog (Shard ι ε) Outcome := do
  let some idx := (← get).tables.sessionIds.lookup id | return .error .unknownSession
  let some addr := (← onTables (Tables.session idx)).addr | do
    count .dropSendDatagram
    return .ok ()
  if bytes = [] ∨ bytes.length > bufSize then
    count .dropSendDatagram
    return .ok ()
  let some buf ← onNet Net.take | do
    count .dropPoolEmpty
    return .ok ()
  onNet (Net.write buf bytes)
  send buf bytes.length addr
  return .ok ()

def installSrtp (keys : SrtpInstall) (now : Nat) : Prog (Shard ι ε) Outcome := do
  match ← onTables (Tables.setupSrtp id keys) with
  | .error reason => return .error reason
  | .ok idx =>
    let session ← onTables (Tables.session idx)
    each (fun i => do
      let session ← onTables (Tables.session idx)
      let sub ← onTables (Tables.sub (← expect session.subs[i]?))
      requestKeyframe sub.track now) (List.range session.subs.length)
    return .ok ()

def subscribe (sub : SubscriptionId) (track : TrackId) (spec : SubSpec)
    (now : Nat) : Prog (Shard ι ε) Outcome := do
  match ← onTables (Tables.addSubscription (← get).config.shard id sub track spec) with
  | .error reason => return .error reason
  | .ok (idx, tidx) =>
    if (← onTables (Tables.session idx)).srtpOut.isSome then requestKeyframe tidx now
    return .ok ()

def closeSession : Prog (Shard ι ε) Outcome := do
  match ← onTables (Tables.closeSession id) with
  | .error reason => return .error reason
  | .ok _ =>
    noteSession (.closed id)
    return .ok ()

def execute (now : Nat) : Command → Prog (Shard ι ε) Outcome
  | .createSession id ice base => createSession id ice base now
  | .sendDatagram id bytes => sendDatagram id bytes
  | .installSrtp id keys => installSrtp id keys now
  | .addTrack id track spec => onTables (Tables.addTrack id track spec)
  | .removeTrack track => onTables (Tables.removeTrackCmd track)
  | .subscribe id sub track spec => subscribe id sub track spec now
  | .unsubscribe sub => onTables (Tables.unsubscribe sub)
  | .closeSession id => closeSession id

def handleCommand (now : Nat) (command : Command) : Prog (Shard ι ε) Unit := do
  count .commands
  match ← execute now command with
  | .error reason =>
    count .commandsRejected
    let _ ← emit (.commandRejected command.session reason)
  | .ok _ => pure ()
  onTables Tables.checkTables

def nextCommand (now : Nat) : Prog (Shard ι ε) Bool := do
  let s ← get
  match s.commands with
  | [] => return false
  | command :: commands =>
    set { s with commands }
    handleCommand now command
    return true

def drainCommands (now : Nat) : (budget : Nat) → Prog (Shard ι ε) Nat
  | 0 => return 0
  | budget + 1 => do
    if ← nextCommand now then return (← drainCommands now budget) + 1
    return 0

end Commands

section Housekeeping

/-- `ConsentLost` once the selected address was silent for `consentTimeout`; a refused event is
retried by the next sweep. -/
def checkConsent (idx : Key) (now : Nat) : Prog (Shard ι ε) Unit := do
  let session ← onTables (Tables.session idx)
  if session.consentLost ∨ now - session.lastRxSelected < (← get).config.consentTimeout then
    return ()
  if ← emit (.consentLost session.id) then
    let session ← onTables (Tables.session idx)
    onTables (Tables.setSession idx { session with consentLost := true })
    count .consentLost

def sweepSession (now : Nat) (idx : Key) : Prog (Shard ι ε) Unit := do
  let nowS := (← get).nowS now
  let session ← onTables (Tables.session idx)
  onTables (Tables.setSession idx { session with
    dtlsBudget := dtlsBudgetPerSweep
    srtpIn := session.srtpIn.map fun inbound => (inbound.evictIdle nowS inboundIdleEvictS).2 })
  if session.lastSwitch.all fun last => decide (now - last ≥ prevAddrGrace) then
    onTables (Tables.dropPrevAddr idx)
  match session.unreportedSwitch with
  | some reason => reportSwitch idx reason
  | none => pure ()
  checkConsent idx now

def housekeeping (now : Nat) : Prog (Shard ι ε) Unit := do
  modify fun s => { s with dtlsBudget := s.config.dtlsBudgetPerSweep }
  let s ← get
  assert (s.tables.sessions.slotCount ≤ s.config.maxSessions)
  each (fun index => do
    match (← get).tables.sessions.keyAt index with
    | some idx => sweepSession now idx
    | none => pure ()) (List.range s.tables.sessions.slotCount)

end Housekeeping

structure IterationStats where
  received : Nat
  taken : Nat
  wouldBlock : Bool
  commands : Nat
  deriving DecidableEq

def receive : Prog (Shard ι ε) RecvResult := do
  count .iterations
  let result ← onNet Net.receive
  match result with
  | .ok _ => pure ()
  | .error _ => count .rxErrors
  let received := RecvResult.ofCall result
  assert (received.received = (← get).net.rx.length)
  addTo .rxTruncated received.truncated
  addTo .rxUnreadable received.unreadable
  return received

def handleNext (now : Nat) : Prog (Shard ι ε) Unit := do
  match ← onNet Net.nextReceived with
  | none => return ()
  | some d =>
    handleDatagram d now
    onNet (Net.put d.buf)

def sweep (now : Nat) : Prog (Shard ι ε) Unit := do
  if now ≥ (← get).nextHousekeeping then
    housekeeping now
    modify fun s => { s with nextHousekeeping := now + housekeepingInterval }

/-- One loop iteration. The batch is taken off from its front; the source indexes it and clears it
afterwards. -/
def iterate (now : Nat) : Prog (Shard ι ε) IterationStats := do
  let received ← receive
  each (fun _ => handleNext now) (List.range (← get).net.rx.length)
  applyPendingSwitches now
  flush
  let commands ← drainCommands now commandBudget
  flush
  pushPending
  sweep now
  assert (← get).net.tx.isEmpty
  return ⟨received.received, received.taken, received.wouldBlock, commands⟩

inductive Action
  | iterate (now : Nat)
  | receive
  | next (now : Nat)
  | switches (now : Nat)
  | flush
  | command (now : Nat)
  | retry
  | sweep (now : Nat)
  | push (command : Command)

def act : Action → Prog (Shard ι ε) Unit
  | .iterate now => do
    if (← get).net.rx.isEmpty then
      let _ ← iterate now
  | .receive => do
    if (← get).net.rx.isEmpty then
      let _ ← receive
  | .next now => handleNext now
  | .switches now => applyPendingSwitches now
  | .flush => flush
  | .command now => do
    let _ ← nextCommand now
  | .retry => pushPending
  | .sweep now => sweep now
  | .push command => do
    let _ ← pushCommand command

def step (s : Shard ι ε) (a : Action) : Option (Shard ι ε) := ((act a) s).map Prod.snd

end Shard
end NexusSfu.Dataplane
