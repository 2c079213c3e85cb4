import NexusSfu.State.Gossip

namespace NexusSfu.State

open Base Delta Function DistributedState List

variable {s s' : DistributedState} {u : StateUpdate} {us : List StateUpdate} {r : RoomId}

def Room.after (u : StateUpdate) (room : Room) : Room :=
  match u.inRoom room.roomId with
  | some δ => { room with participants := (δ.apply room.participants).2 }
  | none => room

structure Applied (u : StateUpdate) (s s' : DistributedState) : Prop where
  rooms : s'.rooms = s.rooms.map (Room.after u)
  rooms_ok : ∀ room ∈ s.rooms, ∀ δ, u.inRoom room.roomId = some δ →
    ∃ b, (δ.apply room.participants).1 = .ok b
  subscriptions : s'.subscriptions = match u.inSubscriptions with
    | some δ => (δ.apply s.subscriptions).2
    | none => s.subscriptions
  subscriptions_ok : ∀ δ, u.inSubscriptions = some δ →
    ∃ b, (δ.apply s.subscriptions).1 = .ok b

namespace DistributedState

theorem getRoom_eq_some (hn : (s.rooms.map Room.roomId).Nodup) {room : Room} :
    s.getRoom r = some room ↔ room ∈ s.rooms ∧ room.roomId = r := by
  rw [getRoom]
  constructor
  · intro h
    exact ⟨mem_of_find?_eq_some h, by simpa using find?_some h⟩
  · rintro ⟨hmem, rfl⟩
    obtain ⟨room', h'⟩ := Option.isSome_iff_exists.1
      (find?_isSome.2 ⟨room, hmem, decide_eq_true rfl⟩ :
        (s.rooms.find? fun x => x.roomId = room.roomId).isSome)
    have hid : room'.roomId = room.roomId := by simpa using find?_some h'
    rw [h', inj_on_of_nodup_map hn (mem_of_find?_eq_some h') hmem hid]

theorem getRoom_eq_none : s.getRoom r = none ↔ ∀ room ∈ s.rooms, room.roomId ≠ r := by
  simp [getRoom]

theorem setParticipants_rooms (hn : (s.rooms.map Room.roomId).Nodup) {room : Room}
    (h : s.getRoom r = some room) {δ : Delta ParticipantId}
    (hu : ∀ r', u.inRoom r' = if r' = r then some δ else none) :
    (s.setParticipants r (δ.apply room.participants).2).rooms = s.rooms.map (Room.after u) := by
  refine map_congr_left fun room' hmem => ?_
  by_cases hr : room'.roomId = r
  · have heq : room' = room :=
      Option.some.inj (((getRoom_eq_some hn).2 ⟨hmem, hr⟩).symm.trans h)
    subst heq
    rw [if_pos hr, Room.after, hu, if_pos hr]
  · rw [if_neg hr, Room.after, hu, if_neg hr]

end DistributedState

section Applied

variable {room : Room} {δ : Delta ParticipantId}

theorem Applied.participants (hn : (s.rooms.map Room.roomId).Nodup)
    (hroom : s.getRoom r = some room) (hu : ∀ r', u.inRoom r' = if r' = r then some δ else none)
    (hsub : u.inSubscriptions = none) (hok : ∃ b, (δ.apply room.participants).1 = .ok b)
    (hrooms : s'.rooms = (s.setParticipants r (δ.apply room.participants).2).rooms)
    (hsubs : s'.subscriptions = s.subscriptions) : Applied u s s' := by
  refine ⟨hrooms.trans (setParticipants_rooms hn hroom hu), ?_, by rw [hsub, hsubs],
    fun δ' h => by simp [hsub] at h⟩
  intro room' hmem δ' hδ'
  rw [hu] at hδ'
  split_ifs at hδ' with hr
  cases hδ'
  have heq : room' = room :=
    Option.some.inj (((getRoom_eq_some hn).2 ⟨hmem, hr⟩).symm.trans hroom)
  exact heq ▸ hok

theorem Applied.missing (hroom : s.getRoom r = none)
    (hu : ∀ r', u.inRoom r' = if r' = r then some δ else none)
    (hsub : u.inSubscriptions = none) :
    Applied u s s := by
  have hnone : ∀ room ∈ s.rooms, u.inRoom room.roomId = none := fun room hmem => by
    rw [hu, if_neg (getRoom_eq_none.1 hroom room hmem)]
  refine ⟨?_, fun room hmem δ' hδ' => by simp [hnone room hmem] at hδ', by rw [hsub],
    fun δ' h => by simp [hsub] at h⟩
  conv_lhs => rw [← map_id s.rooms]
  exact map_congr_left fun room hmem => by rw [Room.after, hnone room hmem, id]

theorem Applied.subscription {δ : Delta (TrackId × ParticipantId)}
    (hu : ∀ r', u.inRoom r' = none) (hsub : u.inSubscriptions = some δ)
    (hok : ∃ b, (δ.apply s.subscriptions).1 = .ok b) (hrooms : s'.rooms = s.rooms)
    (hsubs : s'.subscriptions = (δ.apply s.subscriptions).2) :
    Applied u s s' := by
  refine ⟨?_, fun room _ δ' hδ' => by simp [hu] at hδ', by rw [hsub, hsubs], ?_⟩
  · rw [hrooms]
    conv_lhs => rw [← map_id s.rooms]
    exact map_congr_left fun room _ => by rw [Room.after, hu, id]
  · intro δ' h
    cases hsub.symm.trans h
    exact hok

end Applied

theorem add_ok {T : Type} [DecidableEq T] {o : Orswot T} {x : T} {d : Dot} (hv : d.Valid)
    (hcap : ∀ n, (o.add x d).1 ≠ .error (.capacityExhausted n)) :
    ∃ b, (o.add x d).1 = .ok b := by
  have hactor : ¬ d.actorId ≥ maxActors := not_le.2 hv.1
  rw [Orswot.add, if_neg hactor, if_neg hv.2] at hcap ⊢
  by_cases hcov : o.isTombstoned d = true
  · exact ⟨false, by rw [if_pos hcov]⟩
  · rw [if_neg hcov] at hcap ⊢
    cases hdot : o.dotOf x with
    | some old =>
      dsimp only
      split_ifs
      · exact ⟨true, rfl⟩
      · exact ⟨false, rfl⟩
    | none =>
      simp only [hdot] at hcap
      dsimp only
      split_ifs at hcap ⊢
      · exact absurd rfl (hcap _)
      · exact ⟨true, rfl⟩

theorem remove_ok {T : Type} [DecidableEq T] {o : Orswot T} {x : T} {d : Dot} (hv : d.Valid) :
    ∃ b, (o.remove x d).1 = .ok b := by
  have hactor : ¬ d.actorId ≥ maxActors := not_le.2 hv.1
  rw [Orswot.remove, if_neg hactor]
  cases o.dotOf x with
  | none => exact ⟨false, rfl⟩
  | some old =>
    dsimp only
    split_ifs
    · exact ⟨true, rfl⟩
    · exact ⟨false, rfl⟩

inductive Called (c : LocalCall) (s s' : DistributedState) : Prop
  | quiet (rooms : s'.rooms = s.rooms) (subscriptions : s'.subscriptions = s.subscriptions)
    (broadcast : s'.broadcast = s.broadcast) (actor : s'.localActor = s.localActor)
    (clock : s.clock ≤ s'.clock)
  | emits (applied : Applied (c.update s.nextDot) s s')
    (broadcast : s'.broadcast = s.broadcast ++ [c.update s.nextDot])
    (actor : s'.localActor = s.localActor) (clock : s'.clock = s.clock + 1)
    (checked : checkDelta (c.update s.nextDot) = .ok ())

theorem checkDot_ok {d : Dot} (hv : d.Valid) : checkDot d = .ok () := by
  rw [checkDot, if_neg]
  rintro (h | h)
  · exact absurd hv.1 (not_lt.2 h)
  · exact hv.2 h

section Calls

variable (hn : (s.rooms.map Room.roomId).Nodup) (hv : s.nextDot.Valid)

include hn hv

theorem addParticipant_called (r : RoomId) (p : ParticipantId)
    (hcap : ∀ n, (s.addParticipant r p).1 ≠ .error (.capacityExhausted n)) :
    Called (.addParticipant r p) s (s.addParticipant r p).2 := by
  unfold DistributedState.addParticipant at hcap ⊢
  cases hids : checkParticipantIds r p with
  | error e => exact .quiet rfl rfl rfl rfl le_rfl
  | ok _ =>
    simp only [hids] at hcap ⊢
    cases hroom : s.getRoom r with
    | none => exact .quiet rfl rfl rfl rfl (Nat.le_succ _)
    | some room =>
      simp only [hroom] at hcap ⊢
      split_ifs at hcap ⊢ with hlen
      · exact .quiet rfl rfl rfl rfl (Nat.le_succ _)
      · rcases hadd : room.participants.add p s.nextDot with ⟨result, set⟩
        have hok : ∃ b, result = .ok b := by
          have := add_ok (o := room.participants) (x := p) hv fun n => ?_
          · rwa [hadd] at this
          · rw [hadd]
            rintro rfl
            simp only [hadd] at hcap
            exact hcap n rfl
        obtain ⟨b, rfl⟩ := hok
        refine .emits ?_ rfl rfl rfl ?_
        · exact .participants hn hroom (δ := .add p s.nextDot)
            (fun r' => by simp [LocalCall.update, StateUpdate.inRoom, eq_comm]) rfl
            ⟨b, congrArg Prod.fst hadd⟩ (by rw [Delta.apply, hadd]; rfl) rfl
        · simp [LocalCall.update, checkDelta, hids, checkDot_ok hv, bind, Except.bind]

theorem removeParticipant_called (r : RoomId) (p : ParticipantId) :
    Called (.removeParticipant r p) s (s.removeParticipant r p).2 := by
  unfold DistributedState.removeParticipant
  cases hids : checkParticipantIds r p with
  | error e => exact .quiet rfl rfl rfl rfl le_rfl
  | ok _ =>
    dsimp only
    cases hroom : s.getRoom r with
    | none => exact .quiet rfl rfl rfl rfl (Nat.le_succ _)
    | some room =>
      dsimp only
      rcases hrem : room.participants.remove p s.nextDot with ⟨result, set⟩
      obtain ⟨b, hb⟩ := remove_ok (o := room.participants) (x := p) hv
      rw [hrem] at hb
      cases hb
      refine .emits ?_ rfl rfl rfl ?_
      · exact .participants hn hroom (δ := .remove p s.nextDot)
          (fun r' => by simp [LocalCall.update, StateUpdate.inRoom, eq_comm]) rfl
          ⟨b, congrArg Prod.fst hrem⟩ (by rw [Delta.apply, hrem]; rfl) rfl
      · simp [LocalCall.update, checkDelta, hids, checkDot_ok hv, bind, Except.bind]

omit hn in
theorem addSubscription_called (t : TrackId) (p : ParticipantId)
    (hcap : ∀ n, (s.addSubscription t p).1 ≠ .error (.capacityExhausted n)) :
    Called (.addSubscription t p) s (s.addSubscription t p).2 := by
  unfold DistributedState.addSubscription at hcap ⊢
  cases hids : checkSubscriptionIds t p with
  | error e => exact .quiet rfl rfl rfl rfl le_rfl
  | ok _ =>
    simp only [hids] at hcap ⊢
    split_ifs at hcap ⊢ with hlen
    · exact .quiet rfl rfl rfl rfl (Nat.le_succ _)
    · rcases hadd : s.subscriptions.add (t, p) s.nextDot with ⟨result, set⟩
      have hok : ∃ b, result = .ok b := by
        have := add_ok (o := s.subscriptions) (x := (t, p)) hv fun n => ?_
        · rwa [hadd] at this
        · rw [hadd]
          rintro rfl
          simp only [hadd] at hcap
          exact hcap n rfl
      obtain ⟨b, rfl⟩ := hok
      refine .emits ?_ rfl rfl rfl ?_
      · exact .subscription (fun _ => rfl) rfl ⟨b, congrArg Prod.fst hadd⟩ rfl
          (congrArg Prod.snd hadd).symm
      · simp [LocalCall.update, checkDelta, hids, checkDot_ok hv, bind, Except.bind]

omit hn in
theorem removeSubscription_called (t : TrackId) (p : ParticipantId) :
    Called (.removeSubscription t p) s (s.removeSubscription t p).2 := by
  unfold DistributedState.removeSubscription
  cases hids : checkSubscriptionIds t p with
  | error e => exact .quiet rfl rfl rfl rfl le_rfl
  | ok _ =>
    dsimp only
    rcases hrem : s.subscriptions.remove (t, p) s.nextDot with ⟨result, set⟩
    obtain ⟨b, hb⟩ := remove_ok (o := s.subscriptions) (x := (t, p)) hv
    rw [hrem] at hb
    cases hb
    refine .emits ?_ rfl rfl rfl ?_
    · exact .subscription (fun _ => rfl) rfl ⟨b, congrArg Prod.fst hrem⟩ rfl
        (congrArg Prod.snd hrem).symm
    · simp [LocalCall.update, checkDelta, hids, checkDot_ok hv, bind, Except.bind]

theorem called (c : LocalCall) (hcap : ∀ n, (c.run s).1 ≠ .error (.capacityExhausted n)) :
    Called c s (c.run s).2 := by
  cases c with
  | addParticipant r p => exact addParticipant_called hn hv r p hcap
  | removeParticipant r p => exact removeParticipant_called hn hv r p
  | addSubscription t p => exact addSubscription_called hv t p hcap
  | removeSubscription t p => exact removeSubscription_called hv t p

end Calls

theorem valid_of_checkDelta (h : checkDelta u = .ok ()) : u.dot.Valid := by
  have hdot : ∀ {d : Dot} {x : Except CrdtError Unit}, (do x; checkDot d) = .ok () →
      d.Valid := by
    intro d x h
    cases x with
    | error e => cases h
    | ok _ =>
      by_contra hv
      have : checkDot d = .error (.invalidDot d.actorId d.clock) := by
        rw [checkDot, if_pos]
        by_contra hnot
        push Not at hnot
        exact hv hnot
      rw [this] at h
      cases h
  cases u <;> exact hdot h

structure Merged (u : StateUpdate) (s s' : DistributedState) : Prop where
  applied : Applied u s s'
  broadcast : s'.broadcast = s.broadcast
  actor : s'.localActor = s.localActor
  clock : s'.clock = s.clock

theorem updateParticipants_merged (hn : (s.rooms.map Room.roomId).Nodup)
    {δ : Delta ParticipantId} (hu : ∀ r', u.inRoom r' = if r' = r then some δ else none)
    (hsub : u.inSubscriptions = none)
    (hok : ∀ room, s.getRoom r = some room → ∃ b, (δ.apply room.participants).1 = .ok b) :
    Merged u s (s.updateParticipants r δ.apply).2 := by
  unfold DistributedState.updateParticipants
  cases hroom : s.getRoom r with
  | none => exact ⟨.missing hroom hu hsub, rfl, rfl, rfl⟩
  | some room => exact ⟨.participants hn hroom hu hsub (hok room hroom) rfl rfl, rfl, rfl, rfl⟩

theorem mergeDelta_merged (hn : (s.rooms.map Room.roomId).Nodup) (hu : checkDelta u = .ok ())
    (hcap : ∀ n, (s.mergeDelta u).1 ≠ .error (.capacityExhausted n)) :
    Merged u s (s.mergeDelta u).2 := by
  have hv := valid_of_checkDelta hu
  unfold DistributedState.mergeDelta at hcap ⊢
  simp only [hu] at hcap ⊢
  cases u with
  | participantAdded r p d =>
    refine updateParticipants_merged (δ := .add p d) hn
      (fun r' => by simp [StateUpdate.inRoom, eq_comm]) rfl ?_
    intro room hroom
    refine add_ok hv fun n hadd => hcap n ?_
    simp [DistributedState.updateParticipants, hroom, hadd, Except.map]
  | participantRemoved r p d =>
    refine updateParticipants_merged (δ := .remove p d) hn
      (fun r' => by simp [StateUpdate.inRoom, eq_comm]) rfl ?_
    exact fun room _ => remove_ok hv
  | subscriptionAdded t p d =>
    dsimp only at hcap ⊢
    split_ifs at hcap ⊢ with hlen
    · exact absurd rfl (hcap _)
    · refine ⟨.subscription (fun _ => rfl) rfl (add_ok hv fun n hadd => hcap n ?_) rfl rfl,
        rfl, rfl, rfl⟩
      simp [hadd, Except.map]
  | subscriptionRemoved t p d =>
    exact ⟨.subscription (fun _ => rfl) rfl (remove_ok hv) rfl rfl, rfl, rfl, rfl⟩

structure NodeFollows (us : List StateUpdate) (s : DistributedState) : Prop where
  rooms : ∀ room ∈ s.rooms,
    Follows (us.filterMap (StateUpdate.inRoom room.roomId)) room.participants
  subscriptions : Follows (us.filterMap StateUpdate.inSubscriptions) s.subscriptions

structure NextUpdate (us : List StateUpdate) (u : StateUpdate) : Prop where
  valid : u.dot.Valid
  fresh : ∀ u' ∈ us, u'.dot.actorId = u.dot.actorId → u'.dot.clock < u.dot.clock
  owner : ∀ u' ∈ us, u'.key = u.key → u'.dot.actorId = u.dot.actorId

theorem inRoom_some {δ : Delta ParticipantId} (h : u.inRoom r = some δ) :
    δ.dot = u.dot ∧ u.key = .participant r δ.element := by
  cases u with
  | participantAdded r' p d | participantRemoved r' p d =>
    rw [StateUpdate.inRoom] at h
    split_ifs at h with hr
    cases h
    cases hr
    exact ⟨rfl, rfl⟩
  | subscriptionAdded t p d | subscriptionRemoved t p d => cases h

theorem inSubscriptions_some {δ : Delta (TrackId × ParticipantId)}
    (h : u.inSubscriptions = some δ) :
    δ.dot = u.dot ∧ u.key = .subscription δ.element.1 δ.element.2 := by
  cases u with
  | participantAdded r' p d | participantRemoved r' p d => cases h
  | subscriptionAdded t p d | subscriptionRemoved t p d =>
    cases h
    exact ⟨rfl, rfl⟩

theorem NextUpdate.next {T : Type} {view : StateUpdate → Option (Delta T)} {k : T → Key}
    (hview : ∀ u δ, view u = some δ → δ.dot = u.dot ∧ u.key = k δ.element)
    (h : NextUpdate us u) {δ : Delta T} (hu : view u = some δ) : Next (us.filterMap view) δ := by
  obtain ⟨hdot, hkey⟩ := hview u δ hu
  refine ⟨hdot ▸ h.valid, fun δ' hδ' hactor => ?_, fun δ' hδ' hel => ?_⟩
  · obtain ⟨u', hu', hv'⟩ := mem_filterMap.1 hδ'
    obtain ⟨hdot', -⟩ := hview u' δ' hv'
    rw [hdot, hdot'] at hactor ⊢
    exact h.fresh u' hu' hactor
  · obtain ⟨u', hu', hv'⟩ := mem_filterMap.1 hδ'
    obtain ⟨hdot', hkey'⟩ := hview u' δ' hv'
    rw [hdot, hdot']
    exact h.owner u' hu' (by rw [hkey, hkey', hel])

theorem filterMap_concat_none {α β : Type} {f : α → Option β} {l : List α} {a : α}
    (h : f a = none) :
    (l ++ [a]).filterMap f = l.filterMap f := by
  simp [h]

theorem filterMap_concat_some {α β : Type} {f : α → Option β} {l : List α} {a : α} {b : β}
    (h : f a = some b) : (l ++ [a]).filterMap f = l.filterMap f ++ [b] := by
  simp [h]

theorem NodeFollows.step (h : NodeFollows us s) (hu : NextUpdate us u) (ha : Applied u s s') :
    NodeFollows (us ++ [u]) s' := by
  refine ⟨fun room' hmem => ?_, ?_⟩
  · rw [ha.rooms] at hmem
    obtain ⟨room, hroom, rfl⟩ := mem_map.1 hmem
    rw [Room.after]
    cases hδ : u.inRoom room.roomId with
    | none =>
      rw [filterMap_concat_none hδ]
      exact h.rooms room hroom
    | some δ =>
      dsimp only
      rw [filterMap_concat_some hδ]
      exact (h.rooms room hroom).step (hu.next (fun _ _ => inRoom_some) hδ)
        (ha.rooms_ok room hroom δ hδ)
  · rw [ha.subscriptions]
    cases hδ : u.inSubscriptions with
    | none =>
      rw [filterMap_concat_none hδ]
      exact h.subscriptions
    | some δ =>
      dsimp only
      rw [filterMap_concat_some hδ]
      exact h.subscriptions.step (hu.next (k := fun x => .subscription x.1 x.2)
        (fun _ _ => inSubscriptions_some) hδ) (ha.subscriptions_ok δ hδ)

theorem Applied.roomIds (ha : Applied u s s') :
    s'.rooms.map Room.roomId = s.rooms.map Room.roomId := by
  rw [ha.rooms, map_map]
  refine map_congr_left fun room _ => ?_
  rw [comp_apply, Room.after]
  split <;> rfl

namespace Cluster

variable {ι : Type} [DecidableEq ι] {cl : Cluster ι} {owner : Key → ι} {i j : ι}
  {applied : ι → List StateUpdate}

/-- What the nodes have applied so far, own updates and others': each other node's in the order it
sent them, and each key's by its owner. -/
structure Synced (owner : Key → ι) (cl : Cluster ι) (applied : ι → List StateUpdate) :
    Prop where
  actors : Function.Injective fun i => (cl.node i).localActor
  bounded : ∀ i, (cl.node i).localActor < maxActors
  rooms : ∀ i j, (cl.node i).rooms.map Room.roomId = (cl.node j).rooms.map Room.roomId
  nodup : ∀ i, ((cl.node i).rooms.map Room.roomId).Nodup
  follows : ∀ i, NodeFollows (applied i) (cl.node i)
  own : ∀ i, (applied i).filter (cl.sentBy i) = (cl.node i).broadcast
  others : ∀ i j, i ≠ j →
    (applied i).filter (cl.sentBy j) = (cl.node j).broadcast.take (cl.heard i j).length
  heard_le : ∀ i j, i ≠ j → (cl.heard i j).length ≤ (cl.node j).broadcast.length
  sent : ∀ j, ∀ u ∈ (cl.node j).broadcast, u.dot.actorId = (cl.node j).localActor ∧
    u.dot.clock ≤ (cl.node j).clock ∧ owner u.key = j ∧ checkDelta u = .ok ()
  ordered : ∀ j, (cl.node j).broadcast.Pairwise fun u v => u.dot.clock < v.dot.clock
  origin : ∀ i, ∀ u ∈ applied i, ∃ j, u ∈ (cl.node j).broadcast

omit [DecidableEq ι] in
theorem Synced.sentBy_iff (h : Synced owner cl applied) {u : StateUpdate}
    (hu : u ∈ (cl.node j).broadcast) : cl.sentBy i u = true ↔ i = j := by
  rw [sentBy, decide_eq_true_eq, (h.sent j u hu).1]
  exact ⟨fun he => (h.actors he).symm, fun he => he ▸ rfl⟩

omit [DecidableEq ι] in
theorem Synced.same_actor (h : Synced owner cl applied) {u u' : StateUpdate}
    (hu' : u' ∈ applied i) (hkey : u'.key = u.key) (hu : owner u.key = j) :
    u'.dot.actorId = (cl.node j).localActor := by
  obtain ⟨k, hk⟩ := h.origin i u' hu'
  obtain ⟨hactor, -, howner, -⟩ := h.sent k u' hk
  rw [hactor, ← howner, hkey, hu]

omit [DecidableEq ι] in
theorem Synced.nextDot_valid (h : Synced owner cl applied) (i : ι) : (cl.node i).nextDot.Valid :=
  ⟨h.bounded i, Nat.succ_ne_zero _⟩

@[simp] theorem update_dot (c : LocalCall) (d : Dot) : (c.update d).dot = d := by
  cases c <;> rfl

@[simp] theorem update_key (c : LocalCall) (d : Dot) : (c.update d).key = c.key := by
  cases c <;> rfl

omit [DecidableEq ι] in
theorem Synced.next_call (h : Synced owner cl applied) {c : LocalCall} (hc : owner c.key = i) :
    NextUpdate (applied i) (c.update (cl.node i).nextDot) := by
  refine ⟨by simpa using h.nextDot_valid i, fun u' hu' hactor => ?_, fun u' hu' hkey => ?_⟩
  · have hown : u' ∈ (cl.node i).broadcast := by
      rw [← h.own i]
      exact mem_filter.2 ⟨hu', by simpa [sentBy, DistributedState.nextDot] using hactor⟩
    simpa [DistributedState.nextDot, Nat.lt_succ_iff] using (h.sent i u' hown).2.1
  · simpa [DistributedState.nextDot] using h.same_actor hu' hkey (by simpa using hc)

omit [DecidableEq ι] in
theorem Synced.next_deliver (h : Synced owner cl applied) (hij : i ≠ j) {u : StateUpdate}
    (hu : (cl.node j).broadcast[(cl.heard i j).length]? = some u) : NextUpdate (applied i) u := by
  obtain ⟨hlt, hget⟩ := List.getElem?_eq_some_iff.1 hu
  have hmem : u ∈ (cl.node j).broadcast := mem_of_getElem? hu
  obtain ⟨hactor, -, howner, hcheck⟩ := h.sent j u hmem
  refine ⟨valid_of_checkDelta hcheck, fun u' hu' hsame => ?_, fun u' hu' hkey => ?_⟩
  · have htake : u' ∈ (cl.node j).broadcast.take (cl.heard i j).length := by
      rw [← h.others i j hij]
      exact mem_filter.2 ⟨hu', by simpa [sentBy, hactor] using hsame⟩
    obtain ⟨k, hk, hget'⟩ := mem_take_iff_getElem.1 htake
    rw [← hget, ← hget']
    exact pairwise_iff_getElem.1 (h.ordered j) k _ _ hlt (by omega)
  · rw [hactor]
    exact h.same_actor hu' hkey howner

theorem forall_update {P : ι → DistributedState → Prop} {s' : DistributedState}
    (h : ∀ j, j ≠ i → P j (cl.node j)) (hi : P i s') (j : ι) :
    P j (update cl.node i s' j) := by
  by_cases hj : j = i
  · subst hj
    rwa [update_self]
  · rw [update_of_ne hj]
    exact h j hj

theorem sentBy_update {s' : DistributedState} {m : ι → List StateUpdate}
    (hactor : s'.localActor = (cl.node i).localActor) :
    sentBy { node := update cl.node i s', merged := m } = cl.sentBy := by
  funext j u
  have hj : (update cl.node i s' j).localActor = (cl.node j).localActor :=
    forall_update (P := fun j s => s.localActor = (cl.node j).localActor) (fun _ _ => rfl) hactor j
  exact decide_eq_decide.2 (by rw [hj])

theorem Synced.extend (h : Synced owner cl applied) {s' : DistributedState}
    {made new : List StateUpdate} (taken : List StateUpdate)
    (hfollows : NodeFollows (applied i ++ new) s') (hactor : s'.localActor = (cl.node i).localActor)
    (hids : s'.rooms.map Room.roomId = (cl.node i).rooms.map Room.roomId)
    (hclock : (cl.node i).clock ≤ s'.clock)
    (hbroadcast : s'.broadcast = (cl.node i).broadcast ++ made)
    (hpair : made.Pairwise fun u v => u.dot.clock < v.dot.clock)
    (hmade : ∀ u ∈ made, u.dot = ⟨s'.localActor, s'.clock⟩ ∧
      (cl.node i).clock < s'.clock ∧ owner u.key = i ∧ checkDelta u = .ok ())
    (hown : new.filter (cl.sentBy i) = made)
    (htaken : ∀ j, j ≠ i → new.filter (cl.sentBy j) = taken.filter (cl.sentBy j) ∧
      new.filter (cl.sentBy j) <+: (cl.node j).broadcast.drop (cl.heard i j).length)
    (horigin : ∀ u ∈ new, u ∈ made ∨ ∃ j, u ∈ (cl.node j).broadcast) :
    Synced owner { node := update cl.node i s'
                   merged := update cl.merged i (cl.merged i ++ taken) }
      (update applied i (applied i ++ new)) := by
  have hsent := sentBy_update (m := update cl.merged i (cl.merged i ++ taken)) hactor
  have hids' : ∀ j, (update cl.node i s' j).rooms.map Room.roomId
      = (cl.node j).rooms.map Room.roomId :=
    forall_update (P := fun j s => s.rooms.map Room.roomId = (cl.node j).rooms.map Room.roomId)
      (fun _ _ => rfl) hids
  have hactor' : ∀ j, (update cl.node i s' j).localActor = (cl.node j).localActor :=
    forall_update (P := fun j s => s.localActor = (cl.node j).localActor) (fun _ _ => rfl) hactor
  have hbroad : ∀ j, ∃ l, (update cl.node i s' j).broadcast = (cl.node j).broadcast ++ l :=
    forall_update (P := fun j s => ∃ l, s.broadcast = (cl.node j).broadcast ++ l)
      (fun _ _ => ⟨[], (append_nil _).symm⟩) ⟨made, hbroadcast⟩
  have hheard : ∀ k j, heard { node := update cl.node i s'
                               merged := update cl.merged i (cl.merged i ++ taken) } k j
      = cl.heard k j ++ if k = i then taken.filter (cl.sentBy j) else [] := by
    intro k j
    rw [heard, heard, hsent]
    by_cases hk : k = i
    · subst hk
      simp
    · simp [hk]
  -- What a node has heard, and what it takes now, is the beginning of what was sent.
  have hnext : ∀ j, j ≠ i →
      (cl.node j).broadcast.take ((cl.heard i j).length + (new.filter (cl.sentBy j)).length)
      = (cl.node j).broadcast.take (cl.heard i j).length ++ new.filter (cl.sentBy j) := by
    intro j hj
    rw [take_add, ← prefix_iff_eq_take.1 (htaken j hj).2]
  refine ⟨?_, ?_, ?_, ?_, ?_, ?_, ?_, ?_, ?_, ?_, ?_⟩
  · intro j k hjk
    exact h.actors ((hactor' j).symm.trans (hjk.trans (hactor' k)))
  · exact fun j => (hactor' j).symm ▸ h.bounded j
  · exact fun j k => (hids' j).trans ((h.rooms j k).trans (hids' k).symm)
  · exact fun j => (hids' j).symm ▸ h.nodup j
  · intro j
    by_cases hj : j = i
    · subst hj
      simpa using hfollows
    · simpa [hj] using h.follows j
  · intro j
    rw [hsent]
    by_cases hj : j = i
    · subst hj
      simp only [update_self, filter_append, h.own j, hbroadcast, hown]
    · simpa [hj] using h.own j
  · intro k j hkj
    rw [hsent, hheard]
    by_cases hk : k = i
    · subst hk
      have hj : j ≠ k := Ne.symm hkj
      simp only [update_self, update_of_ne hj, if_true, filter_append, length_append,
        h.others k j hkj, ← (htaken j hj).1, hnext j hj]
    · obtain ⟨l, hl⟩ := hbroad j
      rw [update_of_ne hk, if_neg hk, append_nil, hl,
        take_append_of_le_length (h.heard_le k j hkj), h.others k j hkj]
  · intro k j hkj
    rw [hheard]
    by_cases hk : k = i
    · subst hk
      have hj : j ≠ k := Ne.symm hkj
      have hle := (htaken j hj).2.length_le
      rw [length_drop] at hle
      have hheard_le := h.heard_le k j hkj
      simp only [update_of_ne hj, if_true, length_append, ← (htaken j hj).1]
      omega
    · obtain ⟨l, hl⟩ := hbroad j
      rw [if_neg hk, append_nil, hl, length_append]
      exact (h.heard_le k j hkj).trans (Nat.le_add_right _ _)
  · intro j
    refine forall_update (P := fun j s => ∀ u ∈ s.broadcast, u.dot.actorId = s.localActor ∧
      u.dot.clock ≤ s.clock ∧ owner u.key = j ∧ checkDelta u = .ok ()) (fun j _ =>
        h.sent j) ?_ j
    intro u hu
    rw [hbroadcast] at hu
    rcases mem_append.1 hu with hu | hu
    · obtain ⟨ha, hc, ho, hk⟩ := h.sent i u hu
      exact ⟨ha.trans hactor.symm, hc.trans hclock, ho, hk⟩
    · obtain ⟨hd, -, ho, hk⟩ := hmade u hu
      rw [hd]
      exact ⟨rfl, le_rfl, ho, hk⟩
  · intro j
    refine forall_update (P := fun j s => s.broadcast.Pairwise fun u v => u.dot.clock < v.dot.clock)
      (fun j _ => h.ordered j) ?_ j
    rw [hbroadcast, pairwise_append]
    refine ⟨h.ordered i, hpair, fun u hu v hv => ?_⟩
    obtain ⟨hd, hlt, -⟩ := hmade v hv
    rw [hd]
    exact (h.sent i u hu).2.1.trans_lt hlt
  · have hlater : ∀ u, (∃ j, u ∈ (cl.node j).broadcast) →
        ∃ j, u ∈ (update cl.node i s' j).broadcast := by
      rintro u ⟨j, hj⟩
      obtain ⟨l, hl⟩ := hbroad j
      exact ⟨j, hl ▸ mem_append_left _ hj⟩
    intro j u hu
    by_cases hj : j = i
    · subst hj
      rw [update_self] at hu
      rcases mem_append.1 hu with hu | hu
      · exact hlater u (h.origin j u hu)
      · refine (horigin u hu).elim (fun hm => ⟨j, ?_⟩) (hlater u)
        simp only [update_self, hbroadcast]
        exact mem_append_right _ hm
    · rw [update_of_ne hj] at hu
      exact hlater u (h.origin j u hu)

theorem Synced.call (h : Synced owner cl applied) {s' : DistributedState} {new : List StateUpdate}
    (hfollows : NodeFollows (applied i ++ new) s')
    (hactor : s'.localActor = (cl.node i).localActor)
    (hids : s'.rooms.map Room.roomId = (cl.node i).rooms.map Room.roomId)
    (hclock : (cl.node i).clock ≤ s'.clock)
    (hbroadcast : s'.broadcast = (cl.node i).broadcast ++ new)
    (hpair : new.Pairwise fun u v => u.dot.clock < v.dot.clock)
    (hnew : ∀ u ∈ new, u.dot = ⟨s'.localActor, s'.clock⟩ ∧
      (cl.node i).clock < s'.clock ∧ owner u.key = i ∧ checkDelta u = .ok ()) :
    Synced owner { cl with node := update cl.node i s' }
      (update applied i (applied i ++ new)) := by
  have hmine : ∀ u ∈ new, ∀ j, cl.sentBy j u = true ↔ j = i := by
    intro u hu j
    rw [sentBy, decide_eq_true_eq, (hnew u hu).1, hactor]
    exact ⟨fun he => (h.actors he).symm, fun he => he ▸ rfl⟩
  have hnone : ∀ j, j ≠ i → new.filter (cl.sentBy j) = [] := fun j hj =>
    filter_eq_nil_iff.2 fun u hu hk => hj ((hmine u hu j).1 hk)
  have hextend := h.extend [] hfollows hactor hids hclock hbroadcast hpair hnew
    (filter_eq_self.2 fun u hu => (hmine u hu i).2 rfl)
    (fun j hj => ⟨hnone j hj, hnone j hj ▸ nil_prefix⟩) (fun u hu => .inl hu)
  rwa [append_nil, update_eq_self] at hextend

theorem Synced.deliver (h : Synced owner cl applied) (hij : i ≠ j) {u : StateUpdate}
    (hu : (cl.node j).broadcast[(cl.heard i j).length]? = some u) {s' : DistributedState}
    (hm : Merged u (cl.node i) s') :
    Synced owner { node := update cl.node i s'
                   merged := update cl.merged i (cl.merged i ++ [u]) }
      (update applied i (applied i ++ [u])) := by
  have hmem : u ∈ (cl.node j).broadcast := mem_of_getElem? hu
  have hnone : ∀ k, k ≠ j → [u].filter (cl.sentBy k) = [] := fun k hk =>
    filter_eq_nil_iff.2 (by simpa using fun hs => hk ((h.sentBy_iff hmem).1 hs))
  refine h.extend [u] ((h.follows i).step (h.next_deliver hij hu) hm.applied) hm.actor
    hm.applied.roomIds hm.clock.ge
    (by rw [hm.broadcast, append_nil]) .nil nofun (hnone i hij) (fun k hk => ⟨rfl, ?_⟩)
    fun v hv => .inr ⟨j, mem_singleton.1 hv ▸ hmem⟩
  by_cases hkj : k = j
  · subst hkj
    obtain ⟨hlt, rfl⟩ := List.getElem?_eq_some_iff.1 hu
    rw [filter_eq_self.2 (by simpa using (h.sentBy_iff hmem).2 rfl), drop_eq_getElem_cons hlt]
    exact ⟨_, rfl⟩
  · rw [hnone k hkj]
    exact nil_prefix

def Admissible (owner : Key → ι) (cl : Cluster ι) (a : GossipAction ι) : Prop :=
  cl.BelowCapacity a ∧ cl.InOrder a ∧ OwnedBy owner a

instance (owner : Key → ι) (cl : Cluster ι) (a : GossipAction ι) :
    Decidable (Admissible owner cl a) := inferInstanceAs (Decidable (_ ∧ _ ∧ _))

theorem Synced.act (h : Synced owner cl applied) {a : GossipAction ι}
    (ha : Admissible owner cl a) :
    ∃ applied', Synced owner (cl.act a) applied' := by
  obtain ⟨hcap, horder, howned⟩ := ha
  cases a with
  | call i c =>
    cases called (h.nodup i) (h.nextDot_valid i) c hcap with
    | quiet hrooms hsubs hbroad hactor hclock =>
      have hnone : ([] : List StateUpdate).Pairwise fun u v => u.dot.clock < v.dot.clock := .nil
      refine ⟨_, h.call ?_ hactor (by rw [hrooms]) hclock (by simpa using hbroad) hnone nofun⟩
      rw [append_nil]
      exact ⟨hrooms ▸ (h.follows i).rooms, hsubs ▸ (h.follows i).subscriptions⟩
    | emits happ hbroad hactor hclock hcheck =>
      refine ⟨_, h.call ((h.follows i).step (h.next_call howned) happ) hactor
        happ.roomIds ?_ hbroad
        (pairwise_singleton _ _) ?_⟩
      · omega
      · intro u hu
        cases mem_singleton.1 hu
        refine ⟨?_, by omega, (update_key c _).symm ▸ howned, hcheck⟩
        rw [update_dot, hactor, hclock, DistributedState.nextDot]
  | deliver i j n =>
    obtain ⟨hij, rfl⟩ := horder
    cases hu : (cl.node j).broadcast[(cl.heard i j).length]? with
    | none =>
      refine ⟨applied, ?_⟩
      rw [Cluster.act, hu]
      exact h
    | some u =>
      have hcheck := (h.sent j u (mem_of_getElem? hu)).2.2.2
      have hm := mergeDelta_merged (h.nodup i) hcheck (hcap u hu)
      rw [Cluster.act, hu]
      exact ⟨_, h.deliver hij hu hm⟩

omit [DecidableEq ι] in
theorem Fresh.synced (h : cl.Fresh) : Synced owner cl fun _ => [] where
  actors := h.actors
  bounded := h.bounded
  rooms := h.rooms
  nodup := h.nodup
  follows i := ⟨fun room hroom => follows_nil (h.empty i room hroom).1 (h.empty i room hroom).2,
    follows_nil (h.unsubscribed i).1 (h.unsubscribed i).2⟩
  own i := (h.silent i).symm
  others i j _ := by rw [h.silent, take_nil, filter_nil]
  heard_le i j _ := by rw [heard, h.unmerged]; exact Nat.zero_le _
  sent j u hu := by rw [h.silent] at hu; cases hu
  ordered j := by rw [h.silent]; exact .nil
  origin i u hu := nomatch hu

theorem latest_filterMap_filter {T : Type} [DecidableEq T] {view : StateUpdate → Option (Delta T)}
    {P : StateUpdate → Bool} {x : T} (us : List StateUpdate)
    (h : ∀ u ∈ us, ∀ δ, view u = some δ → δ.element = x → P u = true) :
    latest (us.filterMap view) x = latest ((us.filter P).filterMap view) x := by
  induction us using List.reverseRecOn with
  | nil => rfl
  | append_singleton us u ih =>
    have ih := ih fun u hu => h u (mem_append_left _ hu)
    cases hv : view u with
    | none =>
      rw [filterMap_concat_none hv, ih, filter_append]
      cases hP : P u with
      | true => rw [filter_cons_of_pos hP, filter_nil, filterMap_concat_none hv]
      | false => rw [filter_cons_of_neg (by simp [hP]), filter_nil, append_nil]
    | some δ =>
      rw [filterMap_concat_some hv, latest_concat, filter_append]
      by_cases hx : δ.element = x
      · have hP := h u (mem_append_right _ (mem_singleton_self u)) δ hv hx
        rw [filter_cons_of_pos hP, filter_nil, filterMap_concat_some hv, latest_concat,
          if_pos hx, if_pos hx]
      · rw [if_neg hx, ih]
        cases hP : P u with
        | true =>
          rw [filter_cons_of_pos hP, filter_nil, filterMap_concat_some hv, latest_concat,
            if_neg hx]
        | false => rw [filter_cons_of_neg (by simp [hP]), filter_nil, append_nil]

theorem Synced.latest_eq (h : Synced owner cl applied) (hdone : cl.ExactlyOnce) {T : Type}
    [DecidableEq T] {view : StateUpdate → Option (Delta T)} {k : T → Key}
    (hview : ∀ u δ, view u = some δ → δ.dot = u.dot ∧ u.key = k δ.element)
    (x : T) (i : ι) :
    latest ((applied i).filterMap view) x
      = latest ((cl.node (owner (k x))).broadcast.filterMap view) x := by
  have hall : ∀ j, (applied i).filter (cl.sentBy j) = (cl.node j).broadcast := by
    intro j
    by_cases hij : i = j
    · subst hij
      exact h.own i
    · rw [h.others i j hij, (hdone i j hij).length_eq, take_length]
  rw [latest_filterMap_filter (P := cl.sentBy (owner (k x))), hall]
  intro u hu δ hv hx
  obtain ⟨j, hj⟩ := h.origin i u hu
  rw [h.sentBy_iff hj, ← hx, ← (hview u δ hv).2]
  exact (h.sent j u hj).2.2.1

omit [DecidableEq ι] in
theorem Synced.participantExists (h : Synced owner cl applied) (i : ι) (r : RoomId)
    (p : ParticipantId) : (cl.node i).participantExists r p =
      (decide (r ∈ (cl.node i).rooms.map Room.roomId) &&
        (latest ((applied i).filterMap (StateUpdate.inRoom r)) p).isSome) := by
  unfold DistributedState.participantExists
  cases hroom : (cl.node i).getRoom r with
  | none =>
    have hnot : r ∉ (cl.node i).rooms.map Room.roomId := by
      rintro hmem
      obtain ⟨room, hmem, hid⟩ := mem_map.1 hmem
      exact getRoom_eq_none.1 hroom room hmem hid
    simp [hnot]
  | some room =>
    obtain ⟨hmem, rfl⟩ := (getRoom_eq_some (h.nodup i)).1 hroom
    have hin : room.roomId ∈ (cl.node i).rooms.map Room.roomId := mem_map_of_mem hmem
    simp only [hin, decide_true, Bool.true_and]
    exact ((h.follows i).rooms room hmem).contains p

theorem Synced.agree (h : Synced owner cl applied) (hdone : cl.ExactlyOnce) : cl.Agree := by
  intro i j
  refine ⟨fun r p => ?_, fun k => ?_⟩
  · rw [h.participantExists, h.participantExists, h.rooms i j,
      h.latest_eq hdone (fun _ _ => inRoom_some) p i,
      h.latest_eq hdone (fun _ _ => inRoom_some) p j]
  · rw [(h.follows i).subscriptions.contains, (h.follows j).subscriptions.contains,
      h.latest_eq hdone (k := fun x => .subscription x.1 x.2) (fun _ _ => inSubscriptions_some) k i,
      h.latest_eq hdone (k := fun x => .subscription x.1 x.2) (fun _ _ => inSubscriptions_some) k j]

/-- Nodes that merge each other's updates in order, with each key changed at one node, agree once
every update has been merged everywhere. -/
theorem deltas_converge (owner : Key → ι) (cl : Cluster ι) (hfresh : cl.Fresh)
    (as : List (GossipAction ι)) (hrun : Guarded (Admissible owner) act cl as)
    (hdone : (as.foldl act cl).ExactlyOnce) : (as.foldl act cl).Agree := by
  obtain ⟨applied, h⟩ := guarded_invariant (I := fun cl => ∃ applied, Synced owner cl applied)
    (fun _ _ ⟨_, h⟩ ha => h.act ha) ⟨_, (hfresh.synced : Synced owner cl _)⟩ hrun
  exact h.agree hdone

def sharedRoom (i : Fin 2) : DistributedState :=
  { localActor := i
    rooms := [⟨1, "lobby", 1000, .withCapacity 1000⟩] }

theorem sharedRoom_fresh : Fresh { node := sharedRoom } where
  actors i j h := Fin.ext h
  bounded i := by revert i; decide
  rooms _ _ := rfl
  nodup _ := nodup_singleton _
  empty i room hroom := by
    cases mem_singleton.1 hroom
    exact ⟨rfl, rfl⟩
  unsubscribed _ := ⟨rfl, rfl⟩
  silent _ := rfl
  unmerged _ := rfl

def crossing : List (GossipAction (Fin 2)) :=
  [.call 0 (.addParticipant 1 5), .call 1 (.addParticipant 1 6), .deliver 1 0 0,
    .call 0 (.removeParticipant 1 5), .deliver 0 1 0, .deliver 1 0 1]

theorem deltas_converge_crossing :
    let cl := crossing.foldl act { node := sharedRoom }
    cl.Agree ∧ (cl.node 1).participantExists 1 5 = false ∧
      (cl.node 0).participantExists 1 6 = true :=
  ⟨deltas_converge (fun k => if k = .participant 1 6 then 1 else 0) _ sharedRoom_fresh crossing
    (by decide) (by decide), by decide, by decide⟩

theorem overtaken_removal_diverges :
    ∃ as : List (GossipAction (Fin 2)), Guarded BelowCapacity act { node := sharedRoom } as ∧
      let cl := as.foldl act { node := sharedRoom }
      cl.ExactlyOnce ∧ (cl.node 0).participantExists 1 5 = false ∧
        (cl.node 1).participantExists 1 5 = true :=
  ⟨[.call 0 (.addParticipant 1 5), .call 0 (.removeParticipant 1 5), .deliver 1 0 1,
    .deliver 1 0 0], by decide, by decide, by decide, by decide⟩

end Cluster
end NexusSfu.State
