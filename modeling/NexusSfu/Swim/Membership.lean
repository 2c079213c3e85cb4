import NexusSfu.Base.Checked
import NexusSfu.Swim.Messages

namespace NexusSfu.Swim

open Base State Checked List
open Dataplane (SocketAddr)

abbrev suspectTimeoutMs : Nat := 5000

inductive PeerState
  | alive
  | suspect
  | dead
  deriving DecidableEq, Repr

def PeerState.asStr : PeerState → String
  | alive => "Alive"
  | suspect => "Suspect"
  | dead => "Dead"

def PeerState.byte : PeerState → UInt8
  | alive => 0
  | suspect => 1
  | dead => 2

def PeerState.fromU8 : UInt8 → Option PeerState
  | 0 => some alive
  | 1 => some suspect
  | 2 => some dead
  | _ => none

theorem PeerState.eq_byte_of_fromU8 {b : UInt8} {state : PeerState} (h : fromU8 b = some state) :
    b = state.byte := by
  unfold fromU8 at h
  split at h <;> cases h <;> rfl

structure PeerInfo where
  actorId : ActorId
  addr : SocketAddr
  state : PeerState := .alive
  incarnation : Nat
  lastSeenNs : Nat
  deriving DecidableEq

structure Opinion where
  state : PeerState
  incarnation : Nat
  deriving DecidableEq

def PeerInfo.opinion (p : PeerInfo) : Opinion := ⟨p.state, p.incarnation⟩

inductive GossipError
  | peerCapacityExhausted (max : Nat)
  | invalidStateTransition (old new : String)
  | peerNotFound (actorId : ActorId)
  | invalidMessage (reason : String)
  | transport
  | config (reason : String)
  deriving DecidableEq, Repr

inductive Panic
  | assertion
  | clockOverflow
  deriving DecidableEq, Repr

structure MembershipList where
  localActor : ActorId
  peers : List (Option PeerInfo) := List.replicate maxPeers none
  peerCount : Nat := 0
  incarnation : Nat := 1
  deriving DecidableEq

def validateTransition (old new : PeerState) (oldIncarnation newIncarnation : Nat) : Bool :=
  if old = new then newIncarnation ≥ oldIncarnation
  else match old, new with
    | .alive, .suspect => newIncarnation ≥ oldIncarnation
    | .alive, .dead => true
    | .suspect, .alive => newIncarnation > oldIncarnation
    | .suspect, .dead => true
    | .dead, .alive => newIncarnation > oldIncarnation
    | _, _ => false

namespace MembershipList

def new (localActor : ActorId) : MembershipList := { localActor }

variable (m : MembershipList)

def getAllPeers : List PeerInfo := items m.peers

def findPeer (actorId : ActorId) : Option PeerInfo :=
  m.getAllPeers.find? (·.actorId = actorId)

def put (peer : PeerInfo) : MembershipList :=
  { m with peers := replaceFirst (·.any fun p => p.actorId = peer.actorId) (some peer) m.peers }

variable (now : Nat)

/-- `addPeer` past its preconditions: a known peer at a new address starts over as alive. -/
def insertPeer (actorId : ActorId) (addr : SocketAddr) :
    Except GossipError Unit × MembershipList :=
  match m.findPeer actorId with
  | some peer =>
    (.ok (), if peer.addr ≠ addr then
      m.put { actorId, addr, incarnation := peer.incarnation, lastSeenNs := peer.lastSeenNs }
        else m)
  | none =>
    if m.peerCount ≥ maxPeers then (.error (.peerCapacityExhausted maxPeers), m)
    else if m.peers.any Option.isNone then
      (.ok (), { m with
        peers := replaceFirst Option.isNone
          (some { actorId, addr, incarnation := 0, lastSeenNs := now }) m.peers
        peerCount := m.peerCount + 1 })
    else (.error (.peerCapacityExhausted maxPeers), m)

def addPeer (actorId : ActorId) (addr : SocketAddr) :
    Checked Panic MembershipList (Except GossipError Unit) := do
  assert .assertion (actorId < maxActors)
  assert .assertion (actorId ≠ (← get).localActor)
  let (result, m) := (← get).insertPeer now actorId addr
  set m
  assert .assertion (!result.isOk || (m.findPeer actorId).isSome)
  return result

def transition (actorId : ActorId) (state : PeerState)
    (incarnation : Nat) : Except GossipError Unit × MembershipList :=
  match m.findPeer actorId with
  | none => (.error (.peerNotFound actorId), m)
  | some peer =>
    if validateTransition peer.state state peer.incarnation incarnation then
      (.ok (), m.put { peer with state, incarnation, lastSeenNs := now })
    else (.error (.invalidStateTransition peer.state.asStr state.asStr), m)

def updateState (actorId : ActorId) (state : PeerState) (incarnation : Nat) :
    Checked Panic MembershipList (Except GossipError Unit) := do
  assert .assertion (actorId < maxActors)
  let (result, m) := (← get).transition now actorId state incarnation
  set m
  return result

def refute (incarnation : Nat) : MembershipList :=
  if m.incarnation > incarnation then m
  else { m with incarnation := min (incarnation + 1) u64Max }

def incrementIncarnation : Checked Panic MembershipList Nat := do
  let incarnation := min ((← get).incarnation + 1) u64Max
  modify fun m => { m with incarnation }
  return incarnation

def markAlive (actorId : ActorId) (incarnation : Nat) :
    Checked Panic MembershipList (Except GossipError Unit) := do
  assert .assertion (actorId < maxActors)
  if actorId = (← get).localActor then
    modify (·.refute incarnation)
    return .ok ()
  else updateState now actorId .alive incarnation

def markSuspect (actorId : ActorId) (incarnation : Nat) :
    Checked Panic MembershipList (Except GossipError Unit) := do
  assert .assertion (actorId ≠ (← get).localActor)
  assert .assertion (actorId < maxActors)
  let result ← updateState now actorId .suspect incarnation
  assert .assertion (!result.isOk || ((← get).findPeer actorId).all (·.state = .suspect))
  return result

def markDead (actorId : ActorId) :
    Checked Panic MembershipList (Except GossipError Unit) := do
  assert .assertion (actorId ≠ (← get).localActor)
  assert .assertion (actorId < maxActors)
  let incarnation := match (← get).findPeer actorId with
    | some peer => peer.incarnation
    | none => 0
  let result ← updateState now actorId .dead incarnation
  assert .assertion (!result.isOk || ((← get).findPeer actorId).all (·.state = .dead))
  return result

def getAlivePeers : List PeerInfo := m.getAllPeers.filter (·.state = .alive)

def getRandomAlivePeer (draw : Nat) : Option PeerInfo :=
  m.getAlivePeers[draw % m.getAlivePeers.length]?

def swap {α : Type} (l : List α) (i j : Nat) : List α :=
  match l[i]?, l[j]? with
  | some a, some b => (l.set i b).set j a
  | _, _ => l

def shuffle {α : Type} : (i : Nat) → (draws : List Nat) → List α → List α
  | 0, _, l => l
  | i + 1, draws, l => shuffle i draws.tail (swap l (i + 1) (draws.headD 0 % (i + 2)))

def getRandomAlivePeers (count : Nat) (exclude : ActorId) (draws : List Nat) :
    List PeerInfo :=
  let alive := m.getAlivePeers.filter (·.actorId ≠ exclude)
  (shuffle (alive.length - 1) draws alive).take (min count maxPeers)

def expired (p : PeerInfo) : Bool :=
  p.state = .suspect && now - p.lastSeenNs > suspectTimeoutMs * 1000000

def checkTimeouts : List ActorId × MembershipList :=
  ((m.getAllPeers.filter (expired now)).map PeerInfo.actorId,
    { m with peers := m.peers.map (Option.map fun p =>
      if expired now p then { p with state := .dead, lastSeenNs := now } else p) })

def touch (actorId : ActorId) : MembershipList :=
  match m.findPeer actorId with
  | some peer => m.put { peer with lastSeenNs := now }
  | none => m

section FindPeer

variable {m : MembershipList} {p q : PeerInfo} {now : Nat} {a : ActorId} {addr : SocketAddr}
  {state : PeerState} {inc : Nat}

theorem mem_of_findPeer (h : m.findPeer a = some p) : p ∈ m.getAllPeers ∧ p.actorId = a :=
  ⟨mem_of_find?_eq_some h, by simpa using find?_some h⟩

theorem getAllPeers_put :
    (m.put p).getAllPeers = replaceFirst (·.actorId = p.actorId) p m.getAllPeers :=
  items_replaceFirst_some m.peers

theorem findPeer_put (h : m.findPeer p.actorId = some q) (x : ActorId) :
    (m.put p).findPeer x = if x = p.actorId then some p else m.findPeer x := by
  rw [findPeer, getAllPeers_put]
  exact find?_replaceFirst_key rfl ⟨q, mem_of_findPeer h⟩ x

theorem findPeer_enlist (hfree : m.peers.any Option.isNone) (hnew : m.findPeer q.actorId = none)
    (count : Nat) (x : ActorId) :
    findPeer { m with peers := replaceFirst Option.isNone (some q) m.peers, peerCount := count } x =
      if x = q.actorId then some q else m.findPeer x :=
  find?_items_replaceFirst_isNone hfree (by simpa [findPeer, getAllPeers] using hnew) x

theorem findPeer_transition (x : ActorId) :
    (m.transition now a state inc).2.findPeer x = (m.findPeer x).map fun p =>
      if x = a ∧ validateTransition p.state state p.incarnation inc then
        { p with state, incarnation := inc, lastSeenNs := now } else p := by
  unfold transition
  cases ha : m.findPeer a with
  | none =>
    by_cases hx : x = a
    · simp [hx, ha]
    · simp [hx]
  | some p =>
    obtain ⟨-, rfl⟩ := mem_of_findPeer ha
    dsimp only
    split_ifs with hv
    · dsimp only
      rw [findPeer_put (p := { p with state, incarnation := inc, lastSeenNs := now }) ha]
      by_cases hx : x = p.actorId
      · simp [hx, ha, hv]
      · simp [hx]
    · by_cases hx : x = p.actorId
      · simp [hx, ha, hv]
      · simp [hx]

theorem transition_asserts : (!(m.transition now a state inc).1.isOk ||
    ((m.transition now a state inc).2.findPeer a).all (·.state = state)) = true := by
  rw [findPeer_transition]
  unfold transition
  cases m.findPeer a with
  | none => rfl
  | some p =>
    dsimp only
    split_ifs with hv
    · simp [hv]
    · rfl

theorem findPeer_touch (x : ActorId) : (m.touch now a).findPeer x =
    (m.findPeer x).map fun p => if x = a then { p with lastSeenNs := now } else p := by
  unfold touch
  cases ha : m.findPeer a with
  | none =>
    by_cases hx : x = a
    · simp [hx, ha]
    · simp [hx]
  | some p =>
    obtain ⟨-, rfl⟩ := mem_of_findPeer ha
    dsimp only
    rw [findPeer_put (p := { p with lastSeenNs := now }) ha]
    by_cases hx : x = p.actorId
    · simp [hx, ha]
    · simp [hx]

theorem getAllPeers_checkTimeouts : (m.checkTimeouts now).2.getAllPeers =
    m.getAllPeers.map fun p => if expired now p then { p with state := .dead, lastSeenNs := now }
      else p := by
  simp [getAllPeers, checkTimeouts, items, filterMap_map, map_filterMap]

theorem checkTimeouts_asserts (m : MembershipList) (now : Nat) :
    ((m.checkTimeouts now).2.getAllPeers.all fun p => !expired now p) = true := by
  rw [getAllPeers_checkTimeouts, all_map, all_eq_true]
  intro p _
  rw [Function.comp_apply]
  split_ifs with hp
  · rfl
  · simpa using hp

theorem findPeer_checkTimeouts (x : ActorId) :
    (m.checkTimeouts now).2.findPeer x = (m.findPeer x).map fun p =>
      if expired now p then { p with state := .dead, lastSeenNs := now } else p := by
  rw [findPeer, getAllPeers_checkTimeouts, find?_map, findPeer]
  congr 2
  funext p
  simp only [Function.comp_apply]
  split_ifs
  · rfl
  · rfl

theorem findPeer_insertPeer_of_known {x : ActorId} (hx : m.findPeer x = some p) :
    (m.insertPeer now a addr).2.findPeer x = some (if x = a ∧ p.addr ≠ addr then
      { p with addr, state := .alive } else p) := by
  obtain ⟨-, rfl⟩ := mem_of_findPeer hx
  unfold insertPeer
  cases ha : m.findPeer a with
  | none =>
    have hne : p.actorId ≠ a := fun h => by simp [h ▸ hx] at ha
    have hsame : ¬ (p.actorId = a ∧ p.addr ≠ addr) := fun h => hne h.1
    rw [if_neg hsame]
    dsimp only
    split_ifs with hcount hfree
    · exact hx
    · exact (findPeer_enlist (q := ⟨a, addr, .alive, 0, now⟩) hfree ha _ _).trans
        ((if_neg hne).trans hx)
    · exact hx
  | some q =>
    dsimp only
    split_ifs with haddr hpq hpq
    · obtain ⟨-, rfl⟩ := mem_of_findPeer ha
      rw [hpq.1, ha, Option.some.injEq] at hx
      subst hx
      exact (findPeer_put (p := { q with addr, state := .alive }) ha q.actorId).trans (if_pos rfl)
    · obtain ⟨-, rfl⟩ := mem_of_findPeer ha
      refine (findPeer_put (p := { q with addr, state := .alive }) ha p.actorId).trans ?_
      rw [if_neg, hx]
      intro hid
      rw [hid, ha, Option.some.injEq] at hx
      exact hpq ⟨hid, hx ▸ haddr⟩
    · rw [hpq.1, ha, Option.some.injEq] at hx
      exact absurd (hx ▸ hpq.2) haddr
    · exact hx

theorem insertPeer_asserts (m : MembershipList) (now : Nat) (a : ActorId) (addr : SocketAddr) :
    (!(m.insertPeer now a addr).1.isOk ||
    ((m.insertPeer now a addr).2.findPeer a).isSome) = true := by
  cases ha : m.findPeer a with
  | some p =>
    rw [findPeer_insertPeer_of_known ha, Option.isSome_some, Bool.or_true]
  | none =>
    unfold insertPeer
    rw [ha]
    dsimp only
    split_ifs with hcount hfree
    · rfl
    · rw [findPeer_enlist (q := ⟨a, addr, .alive, 0, now⟩) hfree ha, if_pos rfl,
        Option.isSome_some, Bool.or_true]
    · rfl

theorem findPeer_insertPeer_of_unknown {x : ActorId} (hx : m.findPeer x = none)
    (hp : (m.insertPeer now a addr).2.findPeer x = some p) :
    x = a ∧ p = { actorId := a, addr, incarnation := 0, lastSeenNs := now } := by
  unfold insertPeer at hp
  cases ha : m.findPeer a with
  | none =>
    rw [ha] at hp
    dsimp only at hp
    split_ifs at hp with hcount hfree
    · simp [hx] at hp
    · have hp := (findPeer_enlist (q := ⟨a, addr, .alive, 0, now⟩) hfree ha _ _).symm.trans hp
      split_ifs at hp with hxa
      · exact ⟨hxa, (Option.some.inj hp).symm⟩
      · simp [hx] at hp
    · simp [hx] at hp
  | some q =>
    rw [ha] at hp
    obtain ⟨-, rfl⟩ := mem_of_findPeer ha
    dsimp only at hp
    split_ifs at hp with haddr
    · have hp := (findPeer_put (p := { q with addr, state := .alive }) ha x).symm.trans hp
      split_ifs at hp with hxq
      · simp [hxq, ha] at hx
      · simp [hx] at hp
    · simp [hx] at hp

end FindPeer

section Wf

variable {m m' : MembershipList} {p : PeerInfo} {now : Nat} {a : ActorId} {addr : SocketAddr}
  {state : PeerState} {inc : Nat}

def ids (m : MembershipList) : List ActorId := m.getAllPeers.map PeerInfo.actorId

structure Wf (m : MembershipList) : Prop where
  slots : m.peers.length = maxPeers
  nodup : m.ids.Nodup
  range : ∀ a ∈ m.ids, a < maxActors ∧ a ≠ m.localActor
  count : m.peerCount = m.ids.length

theorem wf_new (localActor : ActorId) : Wf (new localActor) := by
  have hids : (new localActor).ids = [] := by simp [ids, getAllPeers, new, items]
  refine ⟨length_replicate, ?_, ?_, ?_⟩
  · rw [hids]
    exact nodup_nil
  · rw [hids]
    simp
  · rw [hids]
    rfl

def SameIds (m m' : MembershipList) : Prop :=
  m'.localActor = m.localActor ∧ m'.peers.length = m.peers.length ∧
    m'.peerCount = m.peerCount ∧ m'.ids = m.ids

theorem Wf.of_sameIds (h : Wf m) (hm : SameIds m m') : Wf m' := by
  obtain ⟨hlocal, hslots, hcount, hids⟩ := hm
  refine ⟨hslots.trans h.slots, hids ▸ h.nodup, ?_, ?_⟩
  · rw [hids, hlocal]
    exact h.range
  · rw [hids, hcount, h.count]

theorem Wf.findPeer_eq_some (h : Wf m) :
    m.findPeer a = some p ↔ p ∈ m.getAllPeers ∧ p.actorId = a := by
  refine ⟨mem_of_findPeer, ?_⟩
  rintro ⟨hp, rfl⟩
  have hsome : (m.findPeer p.actorId).isSome := by
    rw [findPeer, find?_isSome]
    exact ⟨p, hp, by simp⟩
  obtain ⟨q, hq⟩ := Option.isSome_iff_exists.1 hsome
  obtain ⟨hmem, hid⟩ := mem_of_findPeer hq
  rw [hq, inj_on_of_nodup_map h.nodup hmem hp hid]

theorem sameIds_refl (m : MembershipList) : SameIds m m := ⟨rfl, rfl, rfl, rfl⟩

theorem sameIds_put : SameIds m (m.put p) := by
  refine ⟨rfl, length_replaceFirst, rfl, ?_⟩
  rw [ids, getAllPeers_put, map_replaceFirst_key rfl, ids]

theorem sameIds_transition : SameIds m (m.transition now a state inc).2 := by
  unfold transition
  split
  · exact sameIds_refl m
  · split_ifs
    · exact sameIds_put
    · exact sameIds_refl m

theorem sameIds_touch : SameIds m (m.touch now a) := by
  unfold touch
  split
  · exact sameIds_put
  · exact sameIds_refl m

theorem sameIds_checkTimeouts : SameIds m (m.checkTimeouts now).2 := by
  refine ⟨rfl, length_map _, rfl, ?_⟩
  rw [ids, getAllPeers_checkTimeouts, map_map, ids]
  refine map_congr_left fun p _ => ?_
  simp only [Function.comp_apply]
  split_ifs
  · rfl
  · rfl

theorem Wf.insertPeer (h : Wf m) (ha : a < maxActors) (hlocal : a ≠ m.localActor) (now : Nat)
    (addr : SocketAddr) :
    Wf (m.insertPeer now a addr).2 ∧ (m.insertPeer now a addr).2.localActor = m.localActor := by
  unfold MembershipList.insertPeer
  cases hfind : m.findPeer a with
  | some peer =>
    dsimp only
    split_ifs
    · exact ⟨h.of_sameIds sameIds_put, rfl⟩
    · exact ⟨h, rfl⟩
  | none =>
    dsimp only
    split_ifs with hcount hfree
    · exact ⟨h, rfl⟩
    · have hperm :=
        (items_fill (⟨a, addr, .alive, 0, now⟩ : PeerInfo) m.peers).map PeerInfo.actorId
      rw [fill, if_pos hfree] at hperm
      have hnew : a ∉ m.ids := by
        intro hmem
        obtain ⟨p, hp, rfl⟩ := mem_map.1 hmem
        simp only [findPeer, find?_eq_none] at hfind
        exact hfind p hp (by simp)
      refine ⟨⟨length_replaceFirst.trans h.slots, ?_, ?_, ?_⟩, rfl⟩
      · exact hperm.nodup_iff.2 (nodup_cons.2 ⟨hnew, h.nodup⟩)
      · intro x hx
        rcases mem_cons.1 (hperm.mem_iff.1 hx) with rfl | hx
        · exact ⟨ha, hlocal⟩
        · exact h.range x hx
      · rw [h.count]
        exact hperm.length_eq.symm
    · exact ⟨h, rfl⟩

end Wf
end MembershipList
end NexusSfu.Swim
