import NexusSfu.Swim.Runs

namespace NexusSfu.State

open Base List

namespace Orswot

variable {T : Type} [DecidableEq T] {s : Orswot T} {x : T}

theorem contains_add_of_contains (h : s.contains x = true) (dot : Dot) (y : T) :
    (s.add x dot).2.contains y = s.contains y := by
  have hkeys : ∀ o : Orswot T, o.contains y = (o.elements.map Prod.fst).any (· = y) :=
    fun o => by
    rw [contains, any_map]
    rfl
  unfold add
  cases hdot : s.dotOf x with
  | none =>
    obtain ⟨e, he, hx⟩ := any_eq_true.1 h
    have hnone := find?_eq_none.1 (Option.map_eq_none_iff.1 hdot)
    exact absurd hx (hnone e he)
  | some existing =>
    dsimp only
    split_ifs with _ _ _ hlt
    · rfl
    · rfl
    · rfl
    · have hmap : (replaceFirst (fun e => e.1 = x) (x, dot) (items s.entries)).map Prod.fst
          = (items s.entries).map Prod.fst := map_replaceFirst_key rfl
      rw [hkeys, hkeys, setEntry, elements, items_replaceFirst_some, hmap, elements]
    · rfl

theorem remove_of_not_contains (h : s.contains x = false) (dot : Dot) : (s.remove x dot).2 = s := by
  have hdot : s.dotOf x = none := by
    rw [dotOf, Option.map_eq_none_iff, find?_eq_none]
    simpa [contains] using h
  unfold remove
  rw [hdot]
  split_ifs
  · rfl
  · rfl

end Orswot

namespace DistributedState

variable {s s' s'' : DistributedState}

structure SameView (s s' : DistributedState) : Prop where
  rooms : ∀ r, s'.roomExists r = s.roomExists r
  participants : ∀ r p, s'.participantExists r p = s.participantExists r p
  subscriptions : ∀ e, s'.subscriptions.contains e = s.subscriptions.contains e
  tracks : ∀ t, s'.getTrack t = s.getTrack t

theorem sameView_refl (s : DistributedState) : SameView s s :=
  ⟨fun _ => rfl, fun _ _ => rfl, fun _ => rfl, fun _ => rfl⟩

theorem SameView.trans (h : SameView s s') (h' : SameView s' s'') : SameView s s'' where
  rooms r := (h'.rooms r).trans (h.rooms r)
  participants r p := (h'.participants r p).trans (h.participants r p)
  subscriptions e := (h'.subscriptions e).trans (h.subscriptions e)
  tracks t := (h'.tracks t).trans (h.tracks t)

theorem getTrack_setTrack (t : TrackId) (reg : LwwReg TrackInfo) (t' : TrackId) :
    (s.setTrack t reg).getTrack t' = if t' = t then some reg.value else s.getTrack t' := by
  rw [getTrack, lookup_setTrack, getTrack]
  split_ifs
  · rfl
  · rfl

theorem sameView_setParticipants {r : RoomId} {room : Room} {set : Orswot ParticipantId}
    {broadcast : List StateUpdate} (hroom : s.getRoom r = some room)
    (hset : ∀ p, set.contains p = room.participants.contains p) :
    SameView s { s.tick.setParticipants r set with broadcast } := by
  refine ⟨fun r' => ?_, fun r' p => ?_, fun _ => rfl, fun _ => rfl⟩
  · exact (congrArg Option.isSome (getRoom_setParticipants (s := s.tick) r')).trans
      Option.isSome_map
  refine (participantExists_setParticipants (s := s.tick) hroom r' p).trans ?_
  split_ifs with hr
  · rw [hset, hr, participantExists, hroom]
  · rfl

end DistributedState
end NexusSfu.State

namespace NexusSfu.Swim

open Base State Checked DistributedState
open Dataplane (SocketAddr)

def Update.shown (s : DistributedState) : Update → Bool
  | delta (.participantAdded r p _) => !s.roomExists r || s.participantExists r p
  | delta (.participantRemoved r p _) => !s.participantExists r p
  | delta (.subscriptionAdded t p _) => s.subscriptions.contains (t, p)
  | delta (.subscriptionRemoved t p _) => !s.subscriptions.contains (t, p)
  | trackUpdated t info _ _ => s.getTrack t = some info
  | relaySubscribe _ _ | relayUnsubscribe _ _ => true

section Shown

variable {s s' : DistributedState} {shared : Shared} {u : Update} {us : List Update}

theorem sameView_keep (clock nextRoomId : Nat) : SameView s { s with clock, nextRoomId } :=
  ⟨fun _ => rfl, fun _ _ => rfl, fun _ => rfl, fun _ => rfl⟩

theorem sameView_addParticipant {r : RoomId} {p : ParticipantId}
    (h : (!s.roomExists r || s.participantExists r p) = true)
    (hedit : Operation.Edit s (.addParticipant r p) s') : SameView s s' := by
  cases hedit with
  | keep clock nextRoomId => exact sameView_keep clock nextRoomId
  | addParticipant r p room broadcast hroom =>
    refine sameView_setParticipants hroom (Orswot.contains_add_of_contains ?_ _)
    simpa [roomExists, participantExists, hroom] using h

theorem sameView_removeParticipant {r : RoomId} {p : ParticipantId}
    (h : s.participantExists r p = false) (hedit : Operation.Edit s (.removeParticipant r p) s') :
    SameView s s' := by
  cases hedit with
  | keep clock nextRoomId => exact sameView_keep clock nextRoomId
  | removeParticipant r p room broadcast hroom =>
    refine sameView_setParticipants hroom fun q => ?_
    rw [participantExists, hroom] at h
    rw [Orswot.remove_of_not_contains h]

theorem sameView_addSubscription {t : TrackId} {p : ParticipantId}
    (h : s.subscriptions.contains (t, p) = true)
    (hedit : Operation.Edit s (.addSubscription t p) s') : SameView s s' := by
  cases hedit with
  | keep clock nextRoomId => exact sameView_keep clock nextRoomId
  | addSubscription t p broadcast =>
    exact ⟨fun _ => rfl, fun _ _ => rfl, Orswot.contains_add_of_contains h _, fun _ => rfl⟩

theorem sameView_removeSubscription {t : TrackId} {p : ParticipantId}
    (h : s.subscriptions.contains (t, p) = false)
    (hedit : Operation.Edit s (.removeSubscription t p) s') : SameView s s' := by
  cases hedit with
  | keep clock nextRoomId => exact sameView_keep clock nextRoomId
  | removeSubscription t p broadcast =>
    refine ⟨fun _ => rfl, fun _ _ => rfl, fun e => ?_, fun _ => rfl⟩
    rw [Orswot.remove_of_not_contains h]

theorem sameView_updateTrack {t : TrackId} {info : TrackInfo} (h : s.getTrack t = some info)
    (hedit : Operation.Edit s (.updateTrack t info) s') : SameView s s' := by
  cases hedit with
  | keep clock nextRoomId => exact sameView_keep clock nextRoomId
  | updateTrack t info reg hreg =>
    refine ⟨fun _ => rfl, fun _ _ => rfl, fun _ => rfl, fun t' => ?_⟩
    have hvalue : reg.value = info := by simpa [getTrack, hreg] using h
    rw [getTrack_setTrack]
    split_ifs with ht
    · rw [ht, h, LwwReg.set]
      split_ifs
      · rfl
      · rw [hvalue]
    · rfl

theorem sameView_applied (h : u.shown shared.state = true) :
    SameView shared.state (shared.applied u).state := by
  have hedit := Operation.edit_perform shared.state
  cases u with
  | delta u =>
    cases u with
    | participantAdded r p dot => exact sameView_addParticipant h (hedit (.addParticipant r p))
    | participantRemoved r p dot =>
      exact sameView_removeParticipant (by simpa [Update.shown] using h)
        (hedit (.removeParticipant r p))
    | subscriptionAdded t p dot => exact sameView_addSubscription h (hedit (.addSubscription t p))
    | subscriptionRemoved t p dot =>
      exact sameView_removeSubscription (by simpa [Update.shown] using h)
        (hedit (.removeSubscription t p))
  | trackUpdated t info timestamp actor =>
    have htrack : shared.state.getTrack t = some info := of_decide_eq_true h
    rw [Shared.applied, Update.operation, htrack]
    exact sameView_updateTrack htrack (hedit (.updateTrack t info))
  | relaySubscribe t n => exact sameView_refl _
  | relayUnsubscribe t n => exact sameView_refl _

theorem shown_of_sameView (h : SameView s s') (u : Update) : u.shown s' = u.shown s := by
  cases u with
  | delta u =>
    cases u with
    | participantAdded r p dot => rw [Update.shown, Update.shown, h.rooms, h.participants]
    | participantRemoved r p dot => rw [Update.shown, Update.shown, h.participants]
    | subscriptionAdded t p dot => exact h.subscriptions (t, p)
    | subscriptionRemoved t p dot => rw [Update.shown, Update.shown, h.subscriptions]
  | trackUpdated t info timestamp actor => rw [Update.shown, Update.shown, h.tracks]
  | relaySubscribe t n => rfl
  | relayUnsubscribe t n => rfl

theorem sameView_foldl_applied (h : us.all (·.shown shared.state) = true) :
    SameView shared.state (us.foldl Shared.applied shared).state := by
  induction us generalizing shared with
  | nil => exact sameView_refl _
  | cons u us ih =>
    rw [List.all_cons, Bool.and_eq_true] at h
    have hview := sameView_applied h.1
    refine hview.trans (ih ?_)
    simpa only [shown_of_sameView hview] using h.2

end Shown

namespace SwimProtocol

variable {me : ActorId} {s s' s₀ : SwimProtocol} {es : List Event} {tape : Tape} {data : Bytes}
  {source : SocketAddr}

def showsDatagram (data : Bytes) (s : SwimProtocol) : Bool :=
  s.shared.all fun shared => (accepted data).all fun msg => msg.updates.all (·.shown shared.state)

def SameView (s s' : SwimProtocol) : Prop :=
  Option.Rel (fun shared shared' => DistributedState.SameView shared.state shared'.state)
    s.shared s'.shared

/-- A datagram leaves the replicated state as it shows, however often it was delivered before,
where the state shows already what the datagram says. -/
theorem redelivery_harmless (h₀ : Starts me s₀) (hrun : run step s₀ es = some s)
    (hshown : showsDatagram data s = true) (hstep : step s (.datagram tape data source) = some s') :
    SameView s s' := by
  have heffect := step_effect (run_live h₀.live hrun) hstep
  generalize reported s _ = r at heffect
  cases heffect with
  | datagram tape data source s' htakes =>
    unfold Takes at htakes
    unfold SameView
    cases hmsg : accepted data with
    | none =>
      rw [hmsg] at htakes
      cases htakes
      dsimp only
      cases s.shared with
      | none => exact .none
      | some shared => exact .some (sameView_refl _)
    | some msg =>
      rw [hmsg] at htakes
      obtain ⟨t, hpath, -, hpath'⟩ := htakes
      rw [hpath'.shared, received, hpath.shared]
      cases hs : s.shared with
      | none => exact .none
      | some shared =>
        refine .some (sameView_foldl_applied ?_)
        rw [List.all_eq_true]
        intro u hu
        simp only [showsDatagram, hs, hmsg, Option.all_some, List.all_eq_true] at hshown
        exact hshown u (List.mem_of_mem_take hu)

def joinDatagram : Event := arrives (.ping 2 0 [.delta (.participantAdded 1 7 ⟨2, 1⟩)]) hostB

def leaveDatagram : Event := arrives (.ping 2 0 [.delta (.participantRemoved 1 7 ⟨2, 2⟩)]) hostB

def joinedNode : SwimProtocol :=
  (run step stateNode [.operation (.createRoomAuto "room" 10), joinDatagram]).getD stateNode

theorem join_redelivered_harmless :
    ∃ s', step joinedNode joinDatagram = some s' ∧ SameView joinedNode s' := by
  have hrun := eq_some_getD stateNode (by decide +kernel :
    (run step stateNode [.operation (.createRoomAuto "room" 10), joinDatagram]).isSome = true)
  have hstep :=
    eq_some_getD stateNode (by decide +kernel : (step joinedNode joinDatagram).isSome = true)
  exact ⟨_, hstep, redelivery_harmless starts_stateNode hrun (by decide +kernel) hstep⟩

def participantHere (s : Option SwimProtocol) : Option Bool :=
  (s.bind (·.shared)).map (·.state.participantExists 1 7)

theorem stale_join_brings_back : participantHere (run step stateNode
      [.operation (.createRoomAuto "room" 10), joinDatagram, leaveDatagram]) = some false ∧
    participantHere (run step stateNode
      [.operation (.createRoomAuto "room" 10), joinDatagram, leaveDatagram, joinDatagram]) =
        some true := by
  decide +kernel

end SwimProtocol
end NexusSfu.Swim
