import NexusSfu.Swim.Messages

namespace NexusSfu.Swim

open Base State Option
open Dataplane (SocketAddr)

section Fields

variable {data rest : Bytes} {i k n : Nat}

theorem numAt_of_drop (h : data.drop i = beBytes k n ++ rest) (hn : n < 256 ^ k) :
    numAt k data i = n := by
  rw [numAt, slice_of_drop h (length_beBytes k n), beNat_beBytes_of_lt hn]

theorem drop_field (h : data.drop i = beBytes k n ++ rest) : data.drop (i + k) = rest :=
  drop_of_drop h (length_beBytes k n)

theorem byteAt_of_drop {b : UInt8} (h : data.drop i = b :: rest) : byteAt data i = b := by
  rw [byteAt, List.getD_eq_getElem?_getD, ← Nat.add_zero i, ← List.getElem?_drop, h]
  rfl

end Fields

namespace Update

def Fits : Update → Prop
  | delta (.participantAdded roomId participantId dot) |
    delta (.participantRemoved roomId participantId dot) =>
    roomId < 256 ^ 4 ∧ participantId < 256 ^ 8 ∧ dot.actorId < 256 ^ 8 ∧ dot.clock < 256 ^ 8
  | delta (.subscriptionAdded trackId participantId dot) |
    delta (.subscriptionRemoved trackId participantId dot) =>
    trackId < 256 ^ 8 ∧ participantId < 256 ^ 8 ∧ dot.actorId < 256 ^ 8 ∧ dot.clock < 256 ^ 8
  | trackUpdated trackId info timestamp actor => trackId < 256 ^ 8 ∧ info.trackType < 256 ^ 1 ∧
    info.contentType < 256 ^ 1 ∧ info.codec < 256 ^ 4 ∧ info.bitrateKbps < 256 ^ 4 ∧
    info.ownerNode < 256 ^ 8 ∧ timestamp < 256 ^ 8 ∧ actor < 256 ^ 8
  | relaySubscribe trackId requesterNode | relayUnsubscribe trackId requesterNode =>
    trackId < 256 ^ 8 ∧ requesterNode < 256 ^ 8

def Named : Update → Prop
  | delta (.participantAdded id participantId dot) |
    delta (.participantRemoved id participantId dot)
  | delta (.subscriptionAdded id participantId dot) |
    delta (.subscriptionRemoved id participantId dot) =>
    id ≠ 0 ∧ participantId ≠ 0 ∧ dot.actorId < maxActors ∧ dot.clock ≠ 0
  | trackUpdated trackId _ _ actor => trackId ≠ 0 ∧ actor < maxActors
  | relaySubscribe trackId requesterNode | relayUnsubscribe trackId requesterNode =>
    trackId ≠ 0 ∧ requesterNode ≠ 0

/-- The room or track id is in the lower half of its type, the timestamp of a track is not zero. -/
def InRange : Update → Prop
  | delta (.participantAdded roomId _ _) | delta (.participantRemoved roomId _ _) =>
    roomId ≤ u32Max / 2
  | delta (.subscriptionAdded trackId _ _) | delta (.subscriptionRemoved trackId _ _) =>
    trackId ≤ u64Max / 2
  | trackUpdated trackId _ timestamp _ => trackId ≤ u64Max / 2 ∧ timestamp ≠ 0
  | relaySubscribe _ _ | relayUnsubscribe _ _ => True

instance (u : Update) : Decidable u.Named := by
  unfold Named
  split <;> infer_instance

instance (u : Update) : Decidable u.InRange := by
  unfold InRange
  split <;> infer_instance

theorem decodeDotAt_of_drop {data rest : Bytes} {i : Nat} {dot : Dot}
    (h : data.drop i = encodeDot dot ++ rest) (ha : dot.actorId < 256 ^ 8)
    (hc : dot.clock < 256 ^ 8) :
    decodeDotAt data i = if dot.actorId < maxActors ∧ dot.clock ≠ 0 then some dot
      else none := by
  rw [encodeDot, List.append_assoc] at h
  have hlen := congrArg List.length h
  simp only [List.length_drop, List.length_append, length_beBytes] at hlen
  rw [decodeDotAt, if_neg (by omega), numAt_of_drop h ha, numAt_of_drop (drop_field h) hc]
  by_cases hactor : dot.actorId < maxActors
  · by_cases hclock : dot.clock = 0
    · simp [hclock]
    · simp [Nat.not_le.2 hactor, hactor, hclock]
  · simp [Nat.not_lt.1 hactor, hactor]

theorem decodeParticipantUpdate_encode {b : UInt8} {roomId participantId : Nat} {dot : Dot}
    (hr : roomId < 256 ^ 4) (hp : participantId < 256 ^ 8) (ha : dot.actorId < 256 ^ 8)
    (hc : dot.clock < 256 ^ 8) (isAdd : Bool) :
    decodeParticipantUpdate
      (b :: (beBytes 4 roomId ++ beBytes 8 participantId ++ encodeDot dot)) isAdd =
      if (roomId ≠ 0 ∧ participantId ≠ 0 ∧ dot.actorId < maxActors ∧ dot.clock ≠ 0) ∧
        roomId ≤ u32Max / 2 then
        some (.delta (if isAdd then .participantAdded roomId participantId dot
          else .participantRemoved roomId participantId dot), 29)
      else none := by
  generalize hdata : b :: (beBytes 4 roomId ++ beBytes 8 participantId ++ encodeDot dot) = data
  have hlen : data.length = 29 := by simp [← hdata, encodeDot]
  have h1 : data.drop 1 = beBytes 4 roomId ++
      (beBytes 8 participantId ++ (encodeDot dot ++ [])) := by
    simp [← hdata]
  have h5 := drop_field h1
  rw [decodeParticipantUpdate, if_neg (by omega), numAt_of_drop h1 hr, numAt_of_drop h5 hp,
    decodeDotAt_of_drop (drop_field h5) ha hc]
  by_cases hdot : dot.actorId < maxActors ∧ dot.clock ≠ 0
  · rw [if_pos hdot, bind_eq_bind, bind_some]
    grind
  · rw [if_neg hdot, if_neg fun h => hdot h.1.2.2]
    rfl

theorem decodeSubscriptionUpdate_encode {b : UInt8} {trackId participantId : Nat} {dot : Dot}
    (ht : trackId < 256 ^ 8) (hp : participantId < 256 ^ 8) (ha : dot.actorId < 256 ^ 8)
    (hc : dot.clock < 256 ^ 8) (isAdd : Bool) :
    decodeSubscriptionUpdate
      (b :: (beBytes 8 trackId ++ beBytes 8 participantId ++ encodeDot dot)) isAdd =
      if (trackId ≠ 0 ∧ participantId ≠ 0 ∧ dot.actorId < maxActors ∧ dot.clock ≠ 0) ∧
        trackId ≤ u64Max / 2 then
        some (.delta (if isAdd then .subscriptionAdded trackId participantId dot
          else .subscriptionRemoved trackId participantId dot), 33)
      else none := by
  generalize hdata : b :: (beBytes 8 trackId ++ beBytes 8 participantId ++ encodeDot dot) = data
  have hlen : data.length = 33 := by simp [← hdata, encodeDot]
  have h1 : data.drop 1 = beBytes 8 trackId ++
      (beBytes 8 participantId ++ (encodeDot dot ++ [])) := by
    simp [← hdata]
  have h9 := drop_field h1
  rw [decodeSubscriptionUpdate, if_neg (by omega), numAt_of_drop h1 ht, numAt_of_drop h9 hp,
    decodeDotAt_of_drop (drop_field h9) ha hc]
  by_cases hdot : dot.actorId < maxActors ∧ dot.clock ≠ 0
  · rw [if_pos hdot, bind_eq_bind, bind_some]
    grind
  · rw [if_neg hdot, if_neg fun h => hdot h.1.2.2]
    rfl

theorem decodeRelayUpdate_encode {b : UInt8} {trackId requesterNode : Nat} (ht : trackId < 256 ^ 8)
    (hn : requesterNode < 256 ^ 8) (isSubscribe : Bool) :
    decodeRelayUpdate (b :: (beBytes 8 trackId ++ beBytes 8 requesterNode)) isSubscribe =
      if trackId ≠ 0 ∧ requesterNode ≠ 0 then
        some (if isSubscribe then .relaySubscribe trackId requesterNode
          else .relayUnsubscribe trackId requesterNode, 17)
      else none := by
  generalize hdata : b :: (beBytes 8 trackId ++ beBytes 8 requesterNode) = data
  have hlen : data.length = 17 := by simp [← hdata]
  have h1 : data.drop 1 = beBytes 8 trackId ++ (beBytes 8 requesterNode ++ []) := by
    simp [← hdata]
  rw [decodeRelayUpdate, if_neg (by omega), numAt_of_drop h1 ht, numAt_of_drop (drop_field h1) hn]
  grind

theorem decodeTrackInfo_encode {info : TrackInfo} {rest : Bytes} (htype : info.trackType < 256 ^ 1)
    (hcontent : info.contentType < 256 ^ 1) (hcodec : info.codec < 256 ^ 4)
    (hrate : info.bitrateKbps < 256 ^ 4) (howner : info.ownerNode < 256 ^ 8) :
    decodeTrackInfo (encodeTrackInfo info ++ rest) = some (info, 18) := by
  generalize hdata : encodeTrackInfo info ++ rest = data
  have hlen : 18 ≤ data.length := by
    simp only [← hdata, encodeTrackInfo, List.length_append, length_beBytes]
    omega
  have h0 : data.drop 0 = beBytes 1 info.trackType ++
      (beBytes 1 info.contentType ++
        (beBytes 4 info.codec ++
          (beBytes 4 info.bitrateKbps ++ (beBytes 8 info.ownerNode ++ rest)))) := by
    simp [← hdata, encodeTrackInfo]
  have h1 := drop_field h0
  have h2 := drop_field h1
  have h6 := drop_field h2
  rw [decodeTrackInfo, if_neg (by omega), numAt_of_drop h0 htype, numAt_of_drop h1 hcontent,
    numAt_of_drop h2 hcodec, numAt_of_drop h6 hrate, numAt_of_drop (drop_field h6) howner]

theorem decodeTrackUpdate_encode {b : UInt8} {trackId timestamp actor : Nat} {info : TrackInfo}
    (h : (trackUpdated trackId info timestamp actor).Fits) :
    decodeTrackUpdate
      (b :: (beBytes 8 trackId ++ encodeTrackInfo info ++ beBytes 8 timestamp ++ beBytes 8 actor)) =
      if (trackId ≠ 0 ∧ actor < maxActors) ∧ trackId ≤ u64Max / 2 ∧ timestamp ≠ 0 then
        some (.trackUpdated trackId info timestamp actor, 43)
      else none := by
  obtain ⟨ht, htype, hcontent, hcodec, hrate, howner, hts, ha⟩ := h
  generalize hdata : b ::
    (beBytes 8 trackId ++ encodeTrackInfo info ++ beBytes 8 timestamp ++ beBytes 8 actor) = data
  have hlen : data.length = 43 := by simp [← hdata, encodeTrackInfo]
  have h1 : data.drop 1 = beBytes 8 trackId ++
      (encodeTrackInfo info ++ (beBytes 8 timestamp ++ (beBytes 8 actor ++ []))) := by
    simp [← hdata]
  have h9 := drop_field h1
  have h27 := drop_of_drop h9 (k := 18) (by simp [encodeTrackInfo])
  rw [decodeTrackUpdate, if_neg (by omega), numAt_of_drop h1 ht, h9,
    decodeTrackInfo_encode htype hcontent hcodec hrate howner, bind_eq_bind, bind_some]
  dsimp only
  rw [if_neg (by omega), numAt_of_drop h27 hts, numAt_of_drop (drop_field h27) ha]
  grind

theorem decode_encode {u : Update} (h : u.Fits) :
    Update.decode u.encode = if u.Named ∧ u.InRange then some (u, u.encode.length) else none := by
  cases u with
  | delta u =>
    cases u with
    | participantAdded roomId participantId dot =>
      exact (decodeParticipantUpdate_encode h.1 h.2.1 h.2.2.1 h.2.2.2 true).trans
        (by simp [encode, encodeDot, Named, InRange])
    | participantRemoved roomId participantId dot =>
      exact (decodeParticipantUpdate_encode h.1 h.2.1 h.2.2.1 h.2.2.2 false).trans
        (by simp [encode, encodeDot, Named, InRange])
    | subscriptionAdded trackId participantId dot =>
      exact (decodeSubscriptionUpdate_encode h.1 h.2.1 h.2.2.1 h.2.2.2 true).trans
        (by simp [encode, encodeDot, Named, InRange])
    | subscriptionRemoved trackId participantId dot =>
      exact (decodeSubscriptionUpdate_encode h.1 h.2.1 h.2.2.1 h.2.2.2 false).trans
        (by simp [encode, encodeDot, Named, InRange])
  | trackUpdated trackId info timestamp actor =>
    exact (decodeTrackUpdate_encode h).trans (by simp [encode, encodeTrackInfo, Named, InRange])
  | relaySubscribe trackId requesterNode =>
    exact (decodeRelayUpdate_encode h.1 h.2 true).trans (by simp [encode, Named, InRange])
  | relayUnsubscribe trackId requesterNode =>
    exact (decodeRelayUpdate_encode h.1 h.2 false).trans (by simp [encode, Named, InRange])

end Update

section Lists

variable {data rest : Bytes} {i : Nat}

theorem decodeUpdates_of_drop {us : List Update} (noLength noUpdate : String)
    (hus : ∀ u ∈ us, u.Fits)
    (h : data.drop i = (us.flatMap fun u => beBytes 2 u.encode.length ++ u.encode) ++ rest) :
    decodeUpdates noLength noUpdate data us.length i =
      .ok (us.filter fun u => u.Named ∧ u.InRange) := by
  induction us generalizing i with
  | nil => rfl
  | cons u us ih =>
    obtain ⟨hu, hus⟩ := List.forall_mem_cons.1 hus
    rw [List.flatMap_cons, List.append_assoc, List.append_assoc] at h
    have hlen := congrArg List.length h
    simp only [List.length_drop, List.length_append, length_beBytes] at hlen
    have hsize : u.encode.length < 256 ^ 2 := u.length_encode_le.trans_lt (by decide)
    have hnum := numAt_of_drop h hsize
    have h2 := drop_field h
    rw [List.length_cons, decodeUpdates, if_neg (by omega)]
    dsimp only
    rw [hnum, if_neg (by omega), ih hus (drop_of_drop h2 rfl), slice_of_drop h2 rfl,
      Update.decode_encode hu, List.filter_cons]
    by_cases hok : u.Named ∧ u.InRange
    · simp only [if_pos hok, decide_eq_true hok, if_true]
      rfl
    · simp only [if_neg hok, decide_eq_false hok, Bool.false_eq_true, if_false]
      rfl

def known (m : ActorId × Nat × UInt8) : Bool := m.2.2 ≤ 2

theorem decodeMembers_of_drop {members : List (ActorId × Nat × UInt8)}
    (hm : ∀ m ∈ members, m.1 < maxActors ∧ m.2.1 < 256 ^ 8)
    (h : data.drop i = (members.flatMap fun m => beBytes 8 m.1 ++ beBytes 8 m.2.1 ++ [m.2.2]) ++
      rest) :
    decodeMembers data members.length i = .ok (members.filter known, i + 17 * members.length) := by
  induction members generalizing i with
  | nil => rfl
  | cons m members ih =>
    obtain ⟨⟨ha, hinc⟩, hm⟩ := List.forall_mem_cons.1 hm
    have hactor : m.1 < 256 ^ 8 := ha.trans (by decide)
    rw [List.flatMap_cons, List.append_assoc, List.append_assoc, List.append_assoc] at h
    have hlen := congrArg List.length h
    simp only [List.length_drop, List.length_append, length_beBytes, List.length_singleton] at hlen
    have h8 := drop_field h
    have h16 := drop_field h8
    have h17 := drop_of_drop h16 (k := 1) rfl
    rw [Nat.add_assoc, List.singleton_append] at h16
    rw [List.length_cons, decodeMembers, if_neg (by omega)]
    dsimp only
    rw [ih hm h17, numAt_of_drop h hactor, numAt_of_drop h8 hinc, byteAt_of_drop h16,
      List.filter_cons, Nat.mul_succ, Nat.add_assoc i 17, Nat.add_comm 17]
    by_cases hstate : m.2.2 ≤ 2
    · simp [known, hstate, ha]
      rfl
    · simp [known, hstate]
      rfl

end Lists

def plain : SocketAddr → SocketAddr
  | .v4 ip port => .v4 ip port
  | .v6 ip port _ _ => .v6 ip port 0 0

theorem ofFn_byteAt {n : Nat} {data rest : Bytes} {b : UInt8} {ip : Vector UInt8 n}
    (h : data = b :: (ip.toList ++ rest)) :
    Vector.ofFn (fun i : Fin n => byteAt data (i + 1)) = ip := by
  ext i hi
  simp [h, byteAt, List.getElem?_append_left (show i < ip.toList.length by simpa using hi), hi]

theorem decodeSocketAddr_encode (addr : SocketAddr) (rest : Bytes) :
    decodeSocketAddr (encodeSocketAddr addr ++ rest) =
      some (plain addr, (encodeSocketAddr addr).length) := by
  cases addr with
  | v4 ip port =>
    generalize hdata : encodeSocketAddr (.v4 ip port) ++ rest = data
    have hcons : data = 0 :: (ip.toList ++ (beBytes 2 port.toNat ++ rest)) := by
      simp [← hdata, encodeSocketAddr]
    have hlen : 7 ≤ data.length := by
      simp [hcons]
      omega
    have h5 : data.drop 5 = beBytes 2 port.toNat ++ rest := by
      rw [hcons, List.drop_succ_cons, List.drop_left' (by simp)]
    have hhead := congrArg List.head? hcons
    rw [decodeSocketAddr, hhead, List.head?_cons]
    refine (if_neg (Nat.not_lt.2 hlen)).trans ?_
    rw [ofFn_byteAt hcons, numAt_of_drop h5 port.toNat_lt, UInt16.ofNat_toNat]
    simp [plain, encodeSocketAddr]
  | v6 ip port flowinfo scopeId =>
    generalize hdata : encodeSocketAddr (.v6 ip port flowinfo scopeId) ++ rest = data
    have hcons : data = 1 :: (ip.toList ++ (beBytes 2 port.toNat ++
        (beBytes 4 flowinfo.toNat ++ (beBytes 4 scopeId.toNat ++ rest)))) := by
      simp [← hdata, encodeSocketAddr]
    have hlen : 27 ≤ data.length := by
      simp [hcons]
      omega
    have h17 : data.drop 17 = beBytes 2 port.toNat ++
        (beBytes 4 flowinfo.toNat ++ (beBytes 4 scopeId.toNat ++ rest)) := by
      rw [hcons, List.drop_succ_cons, List.drop_left' (by simp)]
    have hhead := congrArg List.head? hcons
    rw [decodeSocketAddr, hhead, List.head?_cons]
    refine (if_neg (Nat.not_lt.2 hlen)).trans ?_
    rw [ofFn_byteAt hcons, numAt_of_drop h17 port.toNat_lt, UInt16.ofNat_toNat]
    simp [plain, encodeSocketAddr]

namespace GossipMessage

def Fits : GossipMessage → Prop
  | ping _ incarnation us | ack _ incarnation us => incarnation < 256 ^ 8 ∧ ∀ u ∈ us, u.Fits
  | pingReq _ _ _ _ | dead _ => True
  | suspect _ incarnation | alive _ incarnation | forwardedAck _ incarnation =>
    incarnation < 256 ^ 8
  | stateSnapshot _ incarnation members us =>
    incarnation < 256 ^ 8 ∧ (∀ m ∈ members, m.2.1 < 256 ^ 8) ∧ ∀ u ∈ us, u.Fits

/-- The actors are in range, the lists are not longer than a datagram takes, and the updates are
named. -/
def Sendable : GossipMessage → Prop
  | ping sender _ us | ack sender _ us =>
    sender < maxActors ∧ us.length ≤ maxPiggybackUpdates ∧ ∀ u ∈ us, u.Named
  | pingReq sender target _ _ => sender < maxActors ∧ target < maxActors
  | suspect actorId _ | alive actorId _ | dead actorId | forwardedAck actorId _ =>
    actorId < maxActors
  | stateSnapshot sender _ members us =>
    sender < maxActors ∧ members.length ≤ maxSnapshotMembers ∧
      (∀ m ∈ members, m.1 < maxActors) ∧ us.length ≤ maxPiggybackUpdates ∧
      ∀ u ∈ us, u.Named

def Lossless : GossipMessage → Prop
  | ping _ _ us | ack _ _ us => ∀ u ∈ us, u.InRange
  | pingReq _ _ target requester => plain target = target ∧ plain requester = requester
  | suspect _ _ | alive _ _ | dead _ | forwardedAck _ _ => True
  | stateSnapshot _ _ members us => (∀ m ∈ members, m.2.2 ≤ 2) ∧ ∀ u ∈ us, u.InRange

def received : GossipMessage → GossipMessage
  | ping sender incarnation us => ping sender incarnation (us.filter fun u => u.Named ∧ u.InRange)
  | ack sender incarnation us => ack sender incarnation (us.filter fun u => u.Named ∧ u.InRange)
  | pingReq sender target targetAddr requesterAddr =>
    pingReq sender target (plain targetAddr) (plain requesterAddr)
  | suspect actorId incarnation => suspect actorId incarnation
  | alive actorId incarnation => alive actorId incarnation
  | dead actorId => dead actorId
  | forwardedAck target incarnation => forwardedAck target incarnation
  | stateSnapshot sender incarnation members us =>
    stateSnapshot sender incarnation (members.filter known)
      (us.filter fun u => u.Named ∧ u.InRange)

theorem filter_updates_eq {us : List Update} (h : ∀ u ∈ us, u.Named) :
    us.filter (fun u => u.Named ∧ u.InRange) = us ↔ ∀ u ∈ us, u.InRange := by
  simp only [List.filter_eq_self, decide_eq_true_eq]
  exact ⟨fun hall u hu => (hall u hu).2, fun hall u hu => ⟨h u hu, hall u hu⟩⟩

theorem received_eq_iff {msg : GossipMessage} (h : msg.Sendable) :
    msg.received = msg ↔ msg.Lossless := by
  cases msg with
  | ping sender incarnation us => simp [received, Lossless, ← filter_updates_eq h.2.2]
  | ack sender incarnation us => simp [received, Lossless, ← filter_updates_eq h.2.2]
  | pingReq sender target targetAddr requesterAddr => simp [received, Lossless]
  | suspect | alive | dead | forwardedAck => simp [received, Lossless]
  | stateSnapshot sender incarnation members us =>
    simp [received, Lossless, ← filter_updates_eq h.2.2.2.2, List.filter_eq_self, known]

variable {data rest : Bytes} {a n : Nat}

theorem actor_lt (h : a < maxActors) : a < 256 ^ 8 := h.trans (by decide)

theorem encodeUpdates_eq {us : List Update} (h : us.length ≤ maxPiggybackUpdates) :
    encodeUpdates us =
    beBytes 2 us.length ++ us.flatMap fun u => beBytes 2 u.encode.length ++ u.encode := by
  rw [encodeUpdates, Nat.min_eq_left h, List.take_of_length_le h]

theorem encodeMembers_eq {members : List (ActorId × Nat × UInt8)}
    (h : members.length ≤ maxSnapshotMembers) :
    encodeMembers members = beBytes 2 members.length ++
      members.flatMap fun m => beBytes 8 m.1 ++ beBytes 8 m.2.1 ++ [m.2.2] := by
  rw [encodeMembers, Nat.min_eq_left h, List.take_of_length_le h]

theorem decodePiggyback_encode {us : List Update} {tooShort invalid : String}
    {make : ActorId → Nat → List Update → GossipMessage} (ha : a < maxActors)
    (hn : n < 256 ^ 8) (hlen : us.length ≤ maxPiggybackUpdates) (hus : ∀ u ∈ us, u.Fits) :
    decodePiggyback tooShort invalid make (beBytes 8 a ++ beBytes 8 n ++ encodeUpdates us) =
      .ok (make a n (us.filter fun u => u.Named ∧ u.InRange)) := by
  generalize hdata : beBytes 8 a ++ beBytes 8 n ++ encodeUpdates us = data
  have h0 : data.drop 0 = beBytes 8 a ++ (beBytes 8 n ++ (beBytes 2 us.length ++
      ((us.flatMap fun u => beBytes 2 u.encode.length ++ u.encode) ++ []))) := by
    simp [← hdata, encodeUpdates_eq hlen]
  have hsize : 18 ≤ data.length := by
    simp only [← hdata, encodeUpdates_eq hlen, List.length_append, length_beBytes]
    omega
  have h8 := drop_field h0
  have h16 := drop_field h8
  have hcount : us.length < 256 ^ 2 := hlen.trans_lt (by decide)
  rw [decodePiggyback, if_neg (by omega), numAt_of_drop h0 (actor_lt ha), if_neg (Nat.not_le.2 ha)]
  dsimp only
  rw [numAt_of_drop h16 hcount, if_neg (Nat.not_lt.2 hlen),
    decodeUpdates_of_drop _ _ hus (drop_field h16), numAt_of_drop h8 hn]
  rfl

theorem decodeReport_encode {tooShort invalid : String} {make : ActorId → Nat → GossipMessage}
    (ha : a < maxActors) (hn : n < 256 ^ 8) :
    decodeReport tooShort invalid make (beBytes 8 a ++ beBytes 8 n) = .ok (make a n) := by
  generalize hdata : beBytes 8 a ++ beBytes 8 n = data
  have h0 : data.drop 0 = beBytes 8 a ++ (beBytes 8 n ++ []) := by simp [← hdata]
  have hsize : data.length = 16 := by simp [← hdata]
  rw [decodeReport, if_neg (by omega), numAt_of_drop h0 (actor_lt ha), if_neg (Nat.not_le.2 ha),
    numAt_of_drop (drop_field h0) hn]

theorem decodePingReq_encode {target : ActorId} {targetAddr requesterAddr : SocketAddr}
    (ha : a < maxActors) (ht : target < maxActors) :
    decodePingReq (beBytes 8 a ++ beBytes 8 target ++ encodeSocketAddr targetAddr ++
      encodeSocketAddr requesterAddr) = .ok (.pingReq a target (plain targetAddr)
      (plain requesterAddr)) := by
  generalize hdata : beBytes 8 a ++ beBytes 8 target ++ encodeSocketAddr targetAddr ++
    encodeSocketAddr requesterAddr = data
  have h0 : data.drop 0 = beBytes 8 a ++ (beBytes 8 target ++ (encodeSocketAddr targetAddr ++
      (encodeSocketAddr requesterAddr ++ []))) := by
    simp [← hdata]
  have hpos : 0 < (encodeSocketAddr targetAddr).length := by
    cases targetAddr <;> exact Nat.succ_pos _
  have hsize := congrArg List.length h0
  simp only [List.length_drop, List.length_append, length_beBytes] at hsize
  have h8 := drop_field h0
  have h16 := drop_field h8
  rw [decodePingReq, if_neg (by omega), numAt_of_drop h0 (actor_lt ha),
    numAt_of_drop h8 (actor_lt ht), if_neg (Nat.not_le.2 ha), if_neg (Nat.not_le.2 ht)]
  have hfirst := decodeSocketAddr_encode targetAddr (encodeSocketAddr requesterAddr ++ [])
  rw [← h16] at hfirst
  have hsecond := decodeSocketAddr_encode requesterAddr []
  rw [← drop_of_drop h16 rfl] at hsecond
  simp only [hfirst, hsecond]

theorem decodeDead_encode (ha : a < maxActors) : decodeDead (beBytes 8 a) = .ok (.dead a) := by
  have h0 : (beBytes 8 a).drop 0 = beBytes 8 a ++ [] := by simp
  rw [decodeDead, length_beBytes, if_neg (by decide), numAt_of_drop h0 (actor_lt ha),
    if_neg (Nat.not_le.2 ha)]

theorem decodeStateSnapshot_encode {members : List (ActorId × Nat × UInt8)} {us : List Update}
    (ha : a < maxActors) (hn : n < 256 ^ 8) (hmlen : members.length ≤ maxSnapshotMembers)
    (hm : ∀ m ∈ members, m.1 < maxActors ∧ m.2.1 < 256 ^ 8)
    (hlen : us.length ≤ maxPiggybackUpdates) (hus : ∀ u ∈ us, u.Fits) :
    decodeStateSnapshot (beBytes 8 a ++ beBytes 8 n ++ encodeMembers members ++ encodeUpdates us) =
      .ok (.stateSnapshot a n (members.filter known)
        (us.filter fun u => u.Named ∧ u.InRange)) := by
  generalize hdata : beBytes 8 a ++ beBytes 8 n ++ encodeMembers members ++ encodeUpdates us = data
  have h0 : data.drop 0 = beBytes 8 a ++ (beBytes 8 n ++ (beBytes 2 members.length ++
      ((members.flatMap fun m => beBytes 8 m.1 ++ beBytes 8 m.2.1 ++ [m.2.2]) ++
        (beBytes 2 us.length ++
          ((us.flatMap fun u => beBytes 2 u.encode.length ++ u.encode) ++ []))))) := by
    simp [← hdata, encodeUpdates_eq hlen, encodeMembers_eq hmlen]
  have hflat : (members.flatMap fun m => beBytes 8 m.1 ++ beBytes 8 m.2.1 ++ [m.2.2]).length =
      17 * members.length := by
    simp [List.length_flatMap, Nat.mul_comm]
  have hsize := congrArg List.length h0
  simp only [List.length_drop, List.length_append, length_beBytes, hflat] at hsize
  have h8 := drop_field h0
  have h16 := drop_field h8
  have h18 := drop_field h16
  have hafter := drop_of_drop h18 hflat
  have hmcount : members.length ≤ maxPeers := hmlen.trans (by decide)
  have hmnum : members.length < 256 ^ 2 := hmcount.trans_lt (by decide)
  have hcount : us.length < 256 ^ 2 := hlen.trans_lt (by decide)
  rw [decodeStateSnapshot, if_neg (by omega), numAt_of_drop h0 (actor_lt ha),
    if_neg (Nat.not_le.2 ha)]
  dsimp only
  rw [numAt_of_drop h16 hmnum, if_neg (Nat.not_lt.2 hmcount), decodeMembers_of_drop hm h18,
    numAt_of_drop h8 hn]
  refine (if_neg (by omega)).trans ?_
  rw [numAt_of_drop hafter hcount, if_neg (Nat.not_lt.2 hlen),
    decodeUpdates_of_drop _ _ hus (drop_field hafter)]
  rfl

theorem decode_layout {msg : GossipMessage} (hfits : msg.Fits) (h : msg.Sendable) :
    decode msg.layout = .ok msg.received := by
  cases msg with
  | ping sender incarnation us =>
    rw [layout, decode, decodePing, decodePiggyback_encode h.1 hfits.1 h.2.1 hfits.2, received]
  | ack sender incarnation us =>
    rw [layout, decode, decodeAck, decodePiggyback_encode h.1 hfits.1 h.2.1 hfits.2, received]
  | pingReq sender target targetAddr requesterAddr =>
    rw [layout, decode, decodePingReq_encode h.1 h.2, received]
  | suspect actorId incarnation =>
    rw [layout, decode, decodeSuspect, decodeReport_encode h hfits, received]
  | alive actorId incarnation =>
    rw [layout, decode, decodeAlive, decodeReport_encode h hfits, received]
  | dead actorId => rw [layout, decode, decodeDead_encode h, received]
  | forwardedAck target incarnation =>
    rw [layout, decode, decodeForwardedAck, decodeReport_encode h hfits, received]
  | stateSnapshot sender incarnation members us =>
    rw [layout, decode, decodeStateSnapshot_encode h.1 hfits.1 h.2.1
      (fun m hm => ⟨h.2.2.1 m hm, hfits.2.1 m hm⟩)
      h.2.2.2.1 hfits.2.2, received]

/-- A message is encoded into a datagram, and decoded to itself exactly when the decoder's own
limits drop no part of it. -/
theorem codec_roundTrip_iff {msg : GossipMessage} (hfits : msg.Fits) (h : msg.Sendable) :
    ∃ data, msg.encode = some data ∧ data.length ≤ maxMessageSize ∧
      (decode data = .ok msg ↔ msg.Lossless) := by
  refine ⟨msg.layout, msg.encode_eq, msg.length_layout_le, ?_⟩
  rw [decode_layout hfits h, Except.ok.injEq]
  exact received_eq_iff h

theorem encodeUpdates_nil : encodeUpdates [] = beBytes 2 0 := rfl

theorem decodePiggyback_nil {tooShort invalid : String}
    {make : ActorId → Nat → List Update → GossipMessage} {msg : GossipMessage}
    (h : decodePiggyback tooShort invalid make (beBytes 8 a ++ beBytes 8 n ++ encodeUpdates []) =
      .ok msg) : ∃ sender incarnation, msg = make sender incarnation [] := by
  generalize hdata : beBytes 8 a ++ beBytes 8 n ++ encodeUpdates [] = data at h
  have h16 : data.drop 16 = beBytes 2 0 ++ [] := by
    rw [← hdata, List.drop_left' (by simp), encodeUpdates_nil, List.append_nil]
  simp only [decodePiggyback, numAt_of_drop h16 (show 0 < 256 ^ 2 by decide)] at h
  split_ifs at h
  cases h
  exact ⟨_, _, rfl⟩

theorem decodeMembers_offset {count i : Nat} {r : List (ActorId × Nat × UInt8) × Nat}
    (h : decodeMembers data count i = .ok r) : r.2 = i + 17 * count := by
  induction count generalizing i r with
  | zero =>
    cases h
    rfl
  | succ count ih =>
    rw [decodeMembers] at h
    split_ifs at h
    cases hrest : decodeMembers data count (i + 17) with
    | error e => simp [hrest, bind, Except.bind] at h
    | ok r =>
      have hlast := ih hrest
      simp only [hrest, bind, Except.bind] at h
      split_ifs at h <;> cases h <;> exact hlast.trans (by omega)

theorem decodeStateSnapshot_nil {members : List (ActorId × Nat × UInt8)} {msg : GossipMessage}
    (h : decodeStateSnapshot (beBytes 8 a ++ beBytes 8 n ++ encodeMembers members ++
      encodeUpdates []) = .ok msg) : msg.updates = [] := by
  generalize hdata : beBytes 8 a ++ beBytes 8 n ++ encodeMembers members ++ encodeUpdates [] = data
    at h
  have hflat : ((members.take maxSnapshotMembers).flatMap fun m =>
      beBytes 8 m.1 ++ beBytes 8 m.2.1 ++ [m.2.2]).length =
        17 * min members.length maxSnapshotMembers := by
    simp [List.length_flatMap, Nat.mul_comm, Nat.min_comm]
  have h16 : data.drop 16 = beBytes 2 (min members.length maxSnapshotMembers) ++
      (((members.take maxSnapshotMembers).flatMap fun m =>
        beBytes 8 m.1 ++ beBytes 8 m.2.1 ++ [m.2.2]) ++ (beBytes 2 0 ++ [])) := by
    rw [← hdata, List.append_assoc, List.drop_left' (by simp), encodeUpdates_nil, encodeMembers,
      List.append_assoc, List.append_nil]
  have hcount := numAt_of_drop h16 ((Nat.min_le_right ..).trans_lt (by decide))
  have hlast := drop_of_drop (drop_field h16) hflat
  simp only [decodeStateSnapshot, hcount] at h
  split_ifs at h
  cases hmembers : decodeMembers data (min members.length maxSnapshotMembers) 18 with
  | error e => simp [hmembers, bind, Except.bind] at h
  | ok r =>
    have hzero : numAt 2 data r.2 = 0 := by
      rw [decodeMembers_offset hmembers]
      exact numAt_of_drop hlast (by decide)
    simp only [hmembers, bind, Except.bind, hzero] at h
    split_ifs at h
    cases h
    rfl

theorem decodeReport_nil {tooShort invalid : String} {make : ActorId → Nat → GossipMessage}
    {msg : GossipMessage} (h : decodeReport tooShort invalid make data = .ok msg) :
    ∃ actorId incarnation, msg = make actorId incarnation := by
  simp only [decodeReport] at h
  split_ifs at h
  cases h
  exact ⟨_, _, rfl⟩

theorem updates_decode_layout {msg msg' : GossipMessage} (hnil : msg.updates = [])
    (h : decode msg.layout = .ok msg') : msg'.updates = [] := by
  cases msg with
  | ping =>
    cases hnil
    rw [layout, decode, decodePing] at h
    obtain ⟨sender, incarnation, rfl⟩ := decodePiggyback_nil h
    rfl
  | ack =>
    cases hnil
    rw [layout, decode, decodeAck] at h
    obtain ⟨sender, incarnation, rfl⟩ := decodePiggyback_nil h
    rfl
  | stateSnapshot =>
    cases hnil
    exact decodeStateSnapshot_nil h
  | pingReq =>
    simp only [layout, decode, decodePingReq] at h
    split_ifs at h
    split at h
    · cases h
    · split at h
      · cases h
      · cases h
        rfl
  | suspect =>
    rw [layout, decode, decodeSuspect] at h
    obtain ⟨a, n, rfl⟩ := decodeReport_nil h
    rfl
  | alive =>
    rw [layout, decode, decodeAlive] at h
    obtain ⟨a, n, rfl⟩ := decodeReport_nil h
    rfl
  | forwardedAck =>
    rw [layout, decode, decodeForwardedAck] at h
    obtain ⟨a, n, rfl⟩ := decodeReport_nil h
    rfl
  | dead =>
    simp only [layout, decode, decodeDead] at h
    split_ifs at h
    cases h
    rfl

def joining (roomId : RoomId) : GossipMessage :=
  .ping 5 42 [.delta (.participantAdded roomId 10 ⟨1, 5⟩)]

theorem fits_joining {roomId : RoomId} (h : roomId < 256 ^ 4) : (joining roomId).Fits :=
  ⟨by decide, List.forall_mem_singleton.2 ⟨h, by decide, by decide, by decide⟩⟩

theorem sendable_joining {roomId : RoomId} (h : roomId ≠ 0) : (joining roomId).Sendable :=
  ⟨by decide, Nat.le_of_ble_eq_true rfl,
    List.forall_mem_singleton.2 ⟨h, by decide, by decide, by decide⟩⟩

theorem joining_roundTrip :
    ∃ data, (joining 1).encode = some data ∧ decode data = .ok (joining 1) := by
  obtain ⟨data, hdata, -, hiff⟩ :=
    codec_roundTrip_iff (fits_joining (show 1 < 256 ^ 4 by decide))
    (sendable_joining (by decide))
  exact ⟨data, hdata, hiff.2 (List.forall_mem_singleton.2 (by decide))⟩

theorem high_room_dropped : (joining 2147483648).Fits ∧ (joining 2147483648).Sendable ∧
    (joining 2147483648).encode.map decode = some (.ok (.ping 5 42 [])) :=
  ⟨fits_joining (by decide), sendable_joining (by decide), by decide +kernel⟩

end GossipMessage
end NexusSfu.Swim
