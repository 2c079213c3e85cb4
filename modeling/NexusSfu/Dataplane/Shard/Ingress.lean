import NexusSfu.Dataplane.Rtcp
import NexusSfu.Dataplane.Shard.State

namespace NexusSfu.Dataplane

open Base Prog Srtp

abbrev pliThrottle : Nat := 500000000

inductive Class
  | stun
  | dtls
  | rtp
  | rtcp
  | other
  deriving DecidableEq, Repr

def classify (data : Bytes) : Class :=
  match data with
  | [] => .other
  | first :: rest =>
    if first ≤ 3 then .stun
    else if 20 ≤ first ∧ first ≤ 63 then .dtls
    else if 128 ≤ first ∧ first ≤ 191 then
      match rest with
      | [] => .other
      | b :: _ => if 64 ≤ b &&& 0x7F ∧ b &&& 0x7F ≤ 95 then .rtcp else .rtp
    else .other

def protectWritten (outbound : SrtpOutbound) :
    Option (Bytes × Nat) → Option (Bytes × Nat) × SrtpOutbound
  | none => (none, outbound)
  | some (dst, n) => outbound.protectRtcp dst n

def unprotectWith (rtcp : Bool) (inbound : SrtpInbound) (buf : Bytes) (len nowS : Nat) :
    Option (Bytes × Nat) × SrtpInbound :=
  if rtcp then inbound.unprotectRtcp buf len nowS else inbound.unprotectRtp buf len nowS

namespace Shard

variable {ι ε : Type} [DatagramIo ι] [EventSink ε]

section Rtcp

def requestKeyframe (tidx : Key) (now : Nat) : Prog (Shard ι ε) Unit := do
  flushIfFull
  let track ← onTables (Tables.track tidx)
  if track.lastPli.any fun last => decide (now - last < pliThrottle) then
    count .keyframeThrottled
    return ()
  let some mediaSsrc := track.layer.ssrc | return ()
  let session ← onTables (Tables.session track.session)
  let some outbound := session.srtpOut | return ()
  let some addr := session.addr | return ()
  let some out ← onNet Net.take | count .dropPoolEmpty
  let protected' := protectWritten outbound
    (writePli (← onNet (Net.buf out)) session.outSsrcBase mediaSsrc)
  onTables (Tables.setSession track.session { session with srtpOut := some protected'.2 })
  match protected'.1 with
  | none =>
    count .dropSrtpProtect
    onNet (Net.put out)
  | some (bytes, n) =>
    onNet (Net.write out bytes)
    onNet (Net.push ⟨out, n, addr⟩)
    onTables (Tables.setTrack tidx { track with lastPli := some now })
    count .keyframeRequests

def translateSrTo (tidx : Key) (sr : SrInfo) (i : Nat) : Prog (Shard ι ε) Unit := do
  flushIfFull
  let track ← onTables (Tables.track tidx)
  let sub ← onTables (Tables.sub (← expect track.subscribers[i]?))
  let session ← onTables (Tables.session sub.session)
  let some outbound := session.srtpOut | return ()
  let some addr := session.addr | return ()
  if !sub.rewrite.started ∨ sub.rewrite.layer ≠ 0 then return ()
  let some out ← onNet Net.take | count .dropPoolEmpty
  let translated : SrInfo := ⟨sr.ntp, sr.rtp + sub.rewrite.tsOffset⟩
  let written := writeTranslatedSr (← onNet (Net.buf out)) sub.rewrite.outSsrc translated
    sub.sentPackets sub.sentOctets track.spec.cname
  let protected' := protectWritten outbound written
  onTables (Tables.setSession sub.session { session with srtpOut := some protected'.2 })
  match protected'.1 with
  | none =>
    count .dropSrtpProtect
    onNet (Net.put out)
  | some (bytes, n) =>
    onNet (Net.write out bytes)
    count .srTranslated
    onNet (Net.push ⟨out, n, addr⟩)

def translateSr (publisher : Key) (ssrc : UInt32) (sr : SrInfo) : Prog (Shard ι ε) Unit := do
  let some tidx := (← onTables (Tables.session publisher)).trackOfSsrc ssrc | return ()
  let track ← onTables (Tables.track tidx)
  onTables (Tables.setTrack tidx { track with layer := { track.layer with lastSr := some sr } })
  each (translateSrTo tidx sr) (List.range track.subscribers.length)

def findSub (ssrc : UInt32) : List Key → Prog Tables (Option Key)
  | [] => return none
  | x :: xs => do
    if (← Tables.sub x).rewrite.outSsrc = ssrc then return some x
    findSub ssrc xs

def keyframeWanted (subscriber : Key) (now : Nat) (mediaSsrc : UInt32) :
    Prog (Shard ι ε) Unit := do
  let session ← onTables (Tables.session subscriber)
  let some sidx ← onTables (findSub mediaSsrc session.subs) | return ()
  requestKeyframe (← onTables (Tables.sub sidx)).track now

def handleRtcpCompound (idx : Key) (buf len now : Nat) : Prog (Shard ι ε) Unit := do
  match Requests.read (← onNet (Net.data buf len)) with
  | none => count .dropRtcpMalformed
  | some requests =>
    addTo .rtcpIgnored requests.ignored
    each (fun p => translateSr idx p.1 p.2) requests.srs
    each (keyframeWanted idx now) requests.keyframes.items

end Rtcp

section Addresses

/-- Emits `AddressSelected` for the current address; the sweep retries what the sink refuses. -/
def reportSwitch (idx : Key) (reason : SelectReason) : Prog (Shard ι ε) Unit := do
  let session ← onTables (Tables.session idx)
  let some addr := session.addr | return ()
  let delivered ← emit (.addressSelected session.id addr reason)
  let session ← onTables (Tables.session idx)
  onTables (Tables.setSession idx { session with
    unreportedSwitch := if delivered then none else some reason })

def switchTo (idx : Key) (addr : SocketAddr) (reason : SelectReason) (now : Nat) :
    Prog (Shard ι ε) Unit := do
  onTables (Tables.selectAddr idx addr now)
  count (match reason with
    | .nominated => .nominations
    | .rebound => .rebinds)
  reportSwitch idx reason

def deferNomination (maxSessions : Nat) (idx : Key) (addr : SocketAddr) : Prog Tables Unit := do
  let session ← Tables.session idx
  if session.switchListed then
    Tables.setSession idx { session with pendingNomination := some addr }
  else
    let t ← get
    assert (t.pendingSwitches.length < maxSessions)
    Tables.setSession idx { session with pendingNomination := some addr, switchListed := true }
    modify fun t => { t with pendingSwitches := t.pendingSwitches ++ [idx] }

def selectAddress (idx : Key) (addr : SocketAddr) (nominated : Bool) (now : Nat) :
    Prog (Shard ι ε) Unit := do
  let session ← onTables (Tables.session idx)
  if session.addr = some addr then
    onTables (Tables.setSession idx { session with
      lastRxSelected := now
      pendingNomination := if nominated then none else session.pendingNomination })
    return ()
  let config := (← get).config
  let silent := now - session.lastRxSelected
  if !nominated ∧ ¬ (session.addr.isSome ∧ silent ≥ config.rebindSilence) then return ()
  let reason := if nominated then SelectReason.nominated else .rebound
  if session.lastSwitch.any fun last => decide (now - last < minSwitchInterval) then
    count .switchThrottled
    if nominated then onTables (deferNomination config.maxSessions idx addr)
    return ()
  onTables (Tables.setSession idx { session with pendingNomination := none })
  switchTo idx addr reason now

/-- Applies the nominations from position `i` on whose interval passed; `fuel` is what is left of
the list. -/
def applySwitches (now : Nat) : (fuel i : Nat) → Prog (Shard ι ε) Unit
  | 0, _ => return ()
  | fuel + 1, i => do
    let idx ← expect (← get).tables.pendingSwitches[i]?
    let session ← onTables (Tables.session idx)
    let due := session.lastSwitch.all fun last => decide (now - last ≥ minSwitchInterval)
    if session.pendingNomination.isSome ∧ !due then applySwitches now fuel (i + 1)
    else
      modify fun s => { s with tables := { s.tables with
        pendingSwitches := swapRemove s.tables.pendingSwitches i } }
      onTables (Tables.setSession idx { session with
        switchListed := false, pendingNomination := none })
      match session.pendingNomination with
      | some addr => switchTo idx addr .nominated now
      | none => pure ()
      applySwitches now fuel i

def applyPendingSwitches (now : Nat) : Prog (Shard ι ε) Unit := do
  applySwitches now (← get).tables.pendingSwitches.length 0

end Addresses

variable (d : Datagram)

def handleStun (now : Nat) : Prog (Shard ι ε) Unit := do
  let s ← get
  let data := (s.net.pool.buf d.buf).take d.len
  let some request := Stun.scan data | count .dropStun
  let some idx := s.tables.byUfrag.lookup request.localUfrag | count .dropStun
  let password := (← onTables (Tables.session idx)).ice.localPwd.toList
  if !Stun.verify s.stun data request password then
    count .dropStunAuth
    return ()
  let some out ← onNet Net.take | count .dropPoolEmpty
  assert (d.buf != out)
  match ← expect (Stun.writeSuccess s.stun (s.net.pool.buf out) request d.addr password) with
  | some (bytes, len) =>
    onNet (Net.write out bytes)
    count .stunAnswered
    send out len d.addr
  | none => onNet (Net.put out)
  let (replayed, session) :=
    (← onTables (Tables.session idx)).noteTransaction request.transactionId
  onTables (Tables.setSession idx session)
  if replayed then
    count .stunRepeated
    return ()
  selectAddress idx d.addr request.useCandidate now

def handleDtls : Prog (Shard ι ε) Unit := do
  let s ← get
  let some idx := s.tables.byAddr.lookup d.addr | count .dropUnknownAddr
  let session ← onTables (Tables.session idx)
  if session.addr ≠ some d.addr then
    count .dropDtlsUnselected
    return ()
  if session.srtpVerified then
    count .dropDtlsVerified
    return ()
  if session.dtlsBudget = 0 then
    count .dropDtlsBudget
    return ()
  if s.dtlsBudget = 0 then
    count .dropDtlsShardBudget
    return ()
  onTables (Tables.setSession idx { session with dtlsBudget := session.dtlsBudget - 1 })
  modify fun s => { s with dtlsBudget := s.dtlsBudget - 1 }
  let _ ← emit (.dtlsDatagram session.id ((s.net.pool.buf d.buf).take d.len))

def srtpSession : Prog (Shard ι ε) (Option Key) := do
  let some idx := (← get).tables.byAddr.lookup d.addr | do
    count .dropUnknownAddr
    return none
  if (← onTables (Tables.session idx)).srtpIn.isNone then
    count .dropNoSrtp
    return none
  return some idx

def authenticated (idx : Key) (addr : SocketAddr) (now : Nat) : Prog (Shard ι ε) Unit := do
  let session ← onTables (Tables.session idx)
  let session := if session.addr = some addr then { session with lastRxSelected := now }
    else session
  onTables (Tables.setSession idx session)
  if !session.srtpVerified then
    if ← emit (.peerSrtpVerified session.id) then
      let session ← onTables (Tables.session idx)
      onTables (Tables.setSession idx { session with srtpVerified := true })

/-- Rewrite, protect and queue for one subscription. What a refused packet leaves in its buffer
is not modelled: the buffer goes back to the pool. -/
def forward (src len : Nat) (header : Rtp.RtpHeader) (now : Nat) (sidx : Key) :
    Prog (Shard ι ε) Unit := do
  assert (!(← get).net.txIsFull)
  let sub ← onTables (Tables.sub sidx)
  let session ← onTables (Tables.session sub.session)
  let some outbound := session.srtpOut | return ()
  let some addr := session.addr | return ()
  let some out ← onNet Net.take | count .dropPoolEmpty
  assert (src != out)
  let s ← get
  let done := forwardPacket sub outbound s.rng ((s.net.pool.buf src).take len) header now
    (s.net.pool.buf out)
  set { s with rng := done.rng }
  onTables (Tables.setSub sidx done.sub)
  onTables (Tables.setSession sub.session { session with srtpOut := some done.outbound })
  match done.result with
  | .error drop =>
    count (match drop with
      | .unmappedPt => .dropUnmappedPt
      | .tooLarge => .dropTooLarge
      | .srtpProtect => .dropSrtpProtect)
    onNet (Net.put out)
  | .ok (bytes, n, rebased) =>
    onNet (Net.write out bytes)
    addTo .rebased rebased.toNat
    onNet (Net.push ⟨out, n, addr⟩)

def fanOut (tidx : Key) (src len : Nat) (header : Rtp.RtpHeader) (now : Nat) :
    Prog (Shard ι ε) Unit := do
  let track ← onTables (Tables.track tidx)
  each (fun i => do
    flushIfFull
    let track ← onTables (Tables.track tidx)
    forward src len header now (← expect track.subscribers[i]?))
    (List.range track.subscribers.length)

def findUnbound (packet : Bytes) (header : Rtp.RtpHeader) : List Key → Prog Tables (Option Key)
  | [] => return none
  | x :: xs => do
    let spec := (← Tables.track x).spec
    if Rtp.findElement packet header spec.ext.mid = some spec.mid.asBytes then return some x
    findUnbound packet header xs

def learnSsrc (idx : Key) (buf len : Nat) (header : Rtp.RtpHeader) :
    Prog (Shard ι ε) (Option Key) := do
  let session ← onTables (Tables.session idx)
  let packet ← onNet (Net.data buf len)
  let some tidx ← onTables (findUnbound packet header session.unbound.items) | return none
  onTables (Tables.bindSsrc idx tidx header.ssrc)
  count .ssrcsLearned
  return some tidx

def unprotect (idx : Key) (d : Datagram) (now : Nat) (rtcp : Bool) :
    Prog (Shard ι ε) (Option Nat) := do
  let s ← get
  let session ← onTables (Tables.session idx)
  let inbound ← expect session.srtpIn
  let opened := unprotectWith rtcp inbound (s.net.pool.buf d.buf) d.len (s.nowS now)
  onTables (Tables.setSession idx { session with srtpIn := some opened.2 })
  match opened.1 with
  | none =>
    count .dropSrtpAuth
    return none
  | some (bytes, len) =>
    onNet (Net.write d.buf bytes)
    return some len

def handleRtp (now : Nat) : Prog (Shard ι ε) Unit := do
  let some idx ← srtpSession d | return ()
  let some len ← unprotect idx d now false | return ()
  authenticated idx d.addr now
  let .ok header := Rtp.RtpHeader.parse (← onNet (Net.data d.buf len))
    | count .dropMalformed
  match (← onTables (Tables.session idx)).trackOfSsrc header.ssrc with
  | some track => fanOut track d.buf len header now
  | none =>
    let some track ← learnSsrc idx d.buf len header | count .dropNoRoute
    fanOut track d.buf len header now

def handleRtcp (now : Nat) : Prog (Shard ι ε) Unit := do
  let some idx ← srtpSession d | return ()
  let some len ← unprotect idx d now true | return ()
  authenticated idx d.addr now
  count .rtcpReceived
  handleRtcpCompound idx d.buf len now

def handleDatagram (now : Nat) : Prog (Shard ι ε) Unit := do
  count .rxDatagrams
  addTo .rxBytes d.len
  match classify (← onNet (Net.data d.buf d.len)) with
  | .stun => handleStun d now
  | .dtls => handleDtls d
  | .rtp => handleRtp d now
  | .rtcp => handleRtcp d now
  | .other => count .dropUnclassified

end Shard
end NexusSfu.Dataplane
