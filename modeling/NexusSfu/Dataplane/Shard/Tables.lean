import Mathlib.Data.Finmap
import NexusSfu.Base.Prog
import NexusSfu.Dataplane.Session

/-!
The shard's tables and the operations that change what is in them. A panic is `none`.
-/

namespace NexusSfu.Dataplane

open Base Prog Srtp

abbrev Map (ι κ : Type) := Finmap fun _ : ι => κ

abbrev Ufrag := Vector UInt8 16

structure Tables where
  sessions : Slab Session
  tracks : Slab PublishedTrack
  subs : Slab Subscription
  sessionIds : Map SessionId Key
  trackIds : Map TrackId Key
  subIds : Map SubscriptionId Key
  byAddr : Map SocketAddr Key
  byUfrag : Map Ufrag Key
  pendingSwitches : List Key

abbrev Outcome := Except RejectReason Unit

def extIdsValid : List UInt8 → List UInt8 → Bool
  | [], _ => true
  | id :: ids, used =>
    if id = 0 then extIdsValid ids used
    else if id > 14 ∨ id ∈ used then false
    else extIdsValid ids (id :: used)

def extMapIsValid (m : ExtMap) : Bool :=
  extIdsValid (m.map.toList ++ [m.mid]) [] && m.map[0] == 0

namespace Tables

def new : Tables := ⟨.new, .new, .new, ∅, ∅, ∅, ∅, ∅, []⟩

def session (k : Key) : Prog Tables Session := do expect ((← get).sessions.get k)

def track (k : Key) : Prog Tables PublishedTrack := do expect ((← get).tracks.get k)

def sub (k : Key) : Prog Tables Subscription := do expect ((← get).subs.get k)

def setSession (k : Key) (v : Session) : Prog Tables Unit := do
  let t ← get
  let sessions ← expect (t.sessions.set k v)
  set { t with sessions }

def setTrack (k : Key) (v : PublishedTrack) : Prog Tables Unit := do
  let t ← get
  let tracks ← expect (t.tracks.set k v)
  set { t with tracks }

def setSub (k : Key) (v : Subscription) : Prog Tables Unit := do
  let t ← get
  let subs ← expect (t.subs.set k v)
  set { t with subs }

def createSession (maxSessions : Nat) (id : SessionId) (ice : IceParams) (base : UInt32)
    (now : Nat) : Prog Tables Outcome := do
  let t ← get
  if id ∈ t.sessionIds ∨ ice.localUfrag ∈ t.byUfrag then return .error .duplicateId
  if t.sessions.len ≥ maxSessions then return .error .sessionLimit
  let (idx, sessions) ← expect (t.sessions.insert (.new id ice base now))
  set { t with
    sessions
    sessionIds := t.sessionIds.insert id idx
    byUfrag := t.byUfrag.insert ice.localUfrag idx }
  return .ok ()

def registerAll (outbound : SrtpOutbound) :
    List UInt32 → Prog Tables (Except SrtpError SrtpOutbound)
  | [] => return .ok outbound
  | ssrc :: ssrcs => do
    match ← expect (outbound.register ssrc) with
    | (.error e, _) => return .error e
    | (.ok _, outbound) => registerAll outbound ssrcs

def pinAll (inbound : SrtpInbound) : List UInt32 → Prog Tables (Except SrtpError SrtpInbound)
  | [] => return .ok inbound
  | ssrc :: ssrcs => do
    match ← expect (inbound.pin ssrc) with
    | (.error e, _) => return .error e
    | (.ok _, inbound) => pinAll inbound ssrcs

def outSsrcs : List Key → Prog Tables (List UInt32)
  | [] => return []
  | x :: xs => do
    let sub ← sub x
    return sub.rewrite.outSsrc :: (← outSsrcs xs)

def setupSrtp (id : SessionId) (keys : SrtpInstall) : Prog Tables (Except RejectReason Key) := do
  let some idx := (← get).sessionIds.lookup id | return .error .unknownSession
  let session ← session idx
  if session.srtpIn.isSome then return .error .srtpAlreadyInstalled
  assert session.srtpOut.isNone
  let .ok remote := keys.remote.deriveKeys | return .error .srtpSetup
  let .ok «local» := keys.local.deriveKeys | return .error .srtpSetup
  let ssrcs ← outSsrcs session.subs
  let .ok outbound ← registerAll (.fromKeys «local» session.outSsrcBase)
      (session.rtcpSsrc :: ssrcs)
    | return .error .srtpSetup
  let .ok inbound ← pinAll (.fromKeys remote) (session.published.items.map Prod.fst)
    | return .error .srtpSetup
  setSession idx { session with srtpIn := some inbound, srtpOut := some outbound }
  return .ok idx

variable (idx : Key)

def pinSsrc (ssrc : UInt32) : Prog Tables (Except SrtpError Unit) := do
  let session ← session idx
  match session.srtpIn with
  | none => return .ok ()
  | some inbound =>
    let (result, inbound) ← expect (inbound.pin ssrc)
    setSession idx { session with srtpIn := some inbound }
    return result

def insertTrack (track : TrackId) (spec : TrackSpec) : Prog Tables Unit := do
  let t ← get
  let (tidx, tracks) ← expect (t.tracks.insert (.new track idx spec))
  set { t with tracks }
  let session ← session idx
  match spec.ssrc with
  | some ssrc =>
    let (added, published) := session.published.push (ssrc, tidx)
    setSession idx { session with published }
    assert added
  | none =>
    let (added, unbound) := session.unbound.push tidx
    setSession idx { session with unbound }
    assert added
  modify fun t => { t with trackIds := t.trackIds.insert track tidx }

def addTrack (id : SessionId) (track : TrackId) (spec : TrackSpec) : Prog Tables Outcome := do
  let t ← get
  let some idx := t.sessionIds.lookup id | return .error .unknownSession
  if track ∈ t.trackIds then return .error .duplicateId
  let session ← session idx
  if session.trackCount ≥ maxTracksPerSession then return .error .trackLimit
  match spec.ssrc with
  | some ssrc =>
    if (session.trackOfSsrc ssrc).isSome then return .error .ssrcInUse
    let .ok _ ← pinSsrc idx ssrc | return .error .srtpSetup
    insertTrack idx track spec
    return .ok ()
  | none =>
    insertTrack idx track spec
    return .ok ()

def removeSubscription (sidx : Key) : Prog Tables Unit := do
  let t ← get
  let (sub, subs) ← expect (t.subs.remove sidx)
  set { t with subs }
  let session ← session sub.session
  assert (sidx ∈ session.subs)
  -- The order is kept: `setupSrtp` registers in offset order.
  setSession sub.session { session with
    srtpOut := session.srtpOut.map fun outbound => outbound.retire sub.rewrite.outSsrc
    subs := session.subs.erase sidx }
  let track ← track sub.track
  let pos ← expect (track.subscribers.findIdx? fun s => s = sidx)
  setTrack sub.track { track with subscribers := swapRemove track.subscribers pos }
  let t ← get
  assert (t.subIds.lookup sub.id = some sidx)
  set { t with subIds := t.subIds.erase sub.id }

/-- Removes the subscriptions of a track, the last first; `fuel` bounds the passes. -/
def removeSubscribers (tidx : Key) : Nat → Prog Tables Unit
  | 0 => panic
  | fuel + 1 => do
    match (← track tidx).subscribers.getLast? with
    | none => return ()
    | some sidx =>
      removeSubscription sidx
      removeSubscribers tidx fuel

def unlistTrack (session : Session) (tidx : Key) : Prog Tables Session := do
  let (bound, published) := session.published.swapRemoveWhere fun p => p.2 = tidx
  let (unbound, rest) := session.unbound.swapRemoveWhere fun t => t = tidx
  assert (bound.isSome != unbound.isSome)
  let srtpIn := match bound with
    | some (ssrc, _) => session.srtpIn.map fun inbound => inbound.unpin ssrc
    | none => session.srtpIn
  return { session with published, unbound := rest, srtpIn }

def removeTrack (tidx : Key) : Prog Tables Unit := do
  removeSubscribers tidx ((← track tidx).subscribers.length + 1)
  let t ← get
  let (track, tracks) ← expect (t.tracks.remove tidx)
  set { t with tracks }
  setSession track.session (← unlistTrack (← session track.session) tidx)
  let t ← get
  assert (t.trackIds.lookup track.id = some tidx)
  set { t with trackIds := t.trackIds.erase track.id }

def removeTrackCmd (track : TrackId) : Prog Tables Outcome := do
  let some tidx := (← get).trackIds.lookup track | return .error .unknownTrack
  removeTrack tidx
  return .ok ()

def registerSsrc (ssrc : UInt32) : Prog Tables (Except SrtpError Unit) := do
  let session ← session idx
  match session.srtpOut with
  | none => return .ok ()
  | some outbound =>
    let (result, outbound) ← expect (outbound.register ssrc)
    setSession idx { session with srtpOut := some outbound }
    return result

def insertSubscription (idx tidx : Key) (sub : SubscriptionId) (spec : SubSpec) :
    Prog Tables Unit := do
  let track ← track tidx
  let t ← get
  let (sidx, subs) ← expect (t.subs.insert {
    id := sub
    session := idx
    track := tidx
    rewrite := .new spec.outSsrc
    extMap := spec.extMap
    pubMid := track.spec.ext.mid
    clockRate := track.spec.codec.clockRate
    ptMap := spec.ptMap
    mid := spec.mid
    sentPackets := 0
    sentOctets := 0 })
  set { t with subs }
  let session ← session idx
  setSession idx { session with subs := session.subs ++ [sidx] }
  setTrack tidx { track with subscribers := track.subscribers ++ [sidx] }
  modify fun t => { t with subIds := t.subIds.insert sub sidx }

def addSubscription (shard : ShardId) (id : SessionId) (sub : SubscriptionId) (track : TrackId)
    (spec : SubSpec) : Prog Tables (Except RejectReason (Key × Key)) := do
  let t ← get
  let some idx := t.sessionIds.lookup id | return .error .unknownSession
  let some tidx := t.trackIds.lookup track | return .error .unknownTrack
  if sub ∈ t.subIds then return .error .duplicateId
  if spec.source.shard ≠ shard ∨ spec.source.track ≠ track then return .error .wrongShard
  if !extMapIsValid spec.extMap then return .error .invalidSpec
  let session ← session idx
  if session.subs.length ≥ maxSubsPerSession then return .error .subscriptionLimit
  -- Strictly above every earlier out SSRC of the session.
  let offset := session.outSsrcOffset spec.outSsrc
  if offset ≤ session.lastOutSsrcOffset ∨ offset > maxOutSsrcOffset then
    return .error .outSsrcNotMonotonic
  let .ok _ ← registerSsrc idx spec.outSsrc | return .error .srtpSetup
  setSession idx { (← Tables.session idx) with lastOutSsrcOffset := offset }
  insertSubscription idx tidx sub spec
  return .ok (idx, tidx)

def unsubscribe (sub : SubscriptionId) : Prog Tables Outcome := do
  let some sidx := (← get).subIds.lookup sub | return .error .unknownSubscription
  removeSubscription sidx
  return .ok ()

def removeTracks (idx : Key) : Nat → Prog Tables Unit
  | 0 => panic
  | fuel + 1 => do
    let session ← session idx
    match (session.published.items.head?.map Prod.snd).or session.unbound.items.head? with
    | none => return ()
    | some tidx =>
      removeTrack tidx
      removeTracks idx fuel

def removeSubs (idx : Key) : Nat → Prog Tables Unit
  | 0 => panic
  | fuel + 1 => do
    match (← session idx).subs.getLast? with
    | none => return ()
    | some sidx =>
      removeSubscription sidx
      removeSubs idx fuel

def unmap (m : Map SocketAddr Key) (idx : Key) : Option SocketAddr → Map SocketAddr Key
  | some a => if m.lookup a = some idx then m.erase a else m
  | none => m

def unmapAddr (addr : Option SocketAddr) : Prog Tables Unit :=
  modify fun t => { t with byAddr := unmap t.byAddr idx addr }

def closeSession (id : SessionId) : Prog Tables Outcome := do
  let some idx := (← get).sessionIds.lookup id | return .error .unknownSession
  removeTracks idx ((← session idx).trackCount + 1)
  removeSubs idx ((← session idx).subs.length + 1)
  modify fun t => { t with pendingSwitches := t.pendingSwitches.filter fun k => k ≠ idx }
  let t ← get
  let (session, sessions) ← expect (t.sessions.remove idx)
  set { t with sessions }
  unmapAddr idx session.addr
  unmapAddr idx session.prevAddr
  let t ← get
  assert (t.byUfrag.lookup session.ice.localUfrag = some idx)
  set { t with
    byUfrag := t.byUfrag.erase session.ice.localUfrag
    sessionIds := t.sessionIds.erase id }
  return .ok ()

def dropPrevAddr : Prog Tables Unit := do
  let session ← session idx
  setSession idx { session with prevAddr := none }
  unmapAddr idx session.prevAddr

def forgetAddress (addr : SocketAddr) : Prog Tables Unit := do
  let session ← session idx
  setSession idx { session with
    addr := if session.addr = some addr then none else session.addr
    prevAddr := if session.prevAddr = some addr then none else session.prevAddr }

def claimAddress (addr : SocketAddr) : Prog Tables Unit := do
  let t ← get
  set { t with byAddr := t.byAddr.insert addr idx }
  match t.byAddr.lookup addr with
  | some other => if other ≠ idx then forgetAddress other addr
  | none => return ()

/-- `addr` becomes the selected address; the old one stays mapped as the previous one. -/
def selectAddr (addr : SocketAddr) (now : Nat) : Prog Tables Unit := do
  assert ((← session idx).addr != some addr)
  dropPrevAddr idx
  let session ← session idx
  setSession idx { session with
    prevAddr := session.addr
    addr := some addr
    lastRxSelected := now
    lastSwitch := some now }
  claimAddress idx addr

def bindSsrc (idx tidx : Key) (ssrc : UInt32) : Prog Tables Unit := do
  let session ← session idx
  let (removed, unbound) := session.unbound.swapRemoveWhere fun t => t = tidx
  let (added, published) := session.published.push (ssrc, tidx)
  setSession idx { session with unbound, published }
  assert (removed.isSome && added)
  let pinned ← pinSsrc idx ssrc
  assert pinned.isOk
  let track ← track tidx
  setTrack tidx { track with layer := { track.layer with ssrc := some ssrc } }

def checkTables : Prog Tables Unit := do
  let t ← get
  assert (t.sessionIds.keys.card = t.sessions.len)
  assert (t.byUfrag.keys.card = t.sessions.len)
  assert (t.trackIds.keys.card = t.tracks.len)
  assert (t.subIds.keys.card = t.subs.len)
  assert (t.byAddr.keys.card ≤ 2 * t.sessions.len)

end Tables
end NexusSfu.Dataplane
