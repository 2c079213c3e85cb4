import NexusSfu.Orchestrator.Lifecycle

namespace NexusSfu.Orchestrator

open Base Prog State DistributedState List

inductive RoomMessage
  | create (roomName : Option String)
  | join (roomId : Nat) (participantName : String)
  | leave

inductive RoomAction
  | connect (grant : RoomGrant)
  | message (participantId : ParticipantId) (msg : RoomMessage)
  | disconnect (participantId : ParticipantId)

def RoomAction.name : RoomAction → Option String
  | message _ (.create roomName) => roomName
  | _ => none

def RoomAction.room : RoomAction → Option RoomId
  | message _ (.join roomId _) => some roomId
  | _ => none

namespace Rooms

def handleMessage (participantId : ParticipantId) (msg : RoomMessage) : Prog Rooms Unit := do
  if participantId = 0 ∨ participantId ∉ (← get).sessions then return
  match msg with
  | .create roomName => handleCreate participantId roomName
  | .join roomId participantName => handleJoin participantId roomId participantName
  | .leave =>
    handleLeave participantId
    removeSession participantId

def handleParticipantDisconnected (participantId : ParticipantId) : Prog Rooms Unit := do
  if participantId = 0 then return
  handleDisconnected participantId
  removeSession participantId

end Rooms

structure Lobby where
  rooms : Rooms
  nextParticipantId : ParticipantId := 1
  creations : List (ParticipantId × RoomId) := []

namespace Lobby

variable (config : DistributedStateConfig)

def new : Lobby := { rooms := { state := .new config } }

def opened (before after : DistributedState) : List RoomId :=
  (after.rooms.map Room.roomId).filter fun r => !before.roomExists r

def record (l : Lobby) (participantId : ParticipantId) (m : Prog Rooms Unit) : Option Lobby :=
  (m l.rooms).map fun r => { l with
    rooms := r.2
    creations := l.creations ++ (opened l.rooms.state r.2.state).map (participantId, ·) }

def step (l : Lobby) : RoomAction → Option Lobby
  | .connect grant =>
    (l.record l.nextParticipantId (Rooms.handleConnected l.nextParticipantId grant)).map fun l =>
      { l with nextParticipantId := l.nextParticipantId + 1 }
  | .message p msg => l.record p (Rooms.handleMessage p msg)
  | .disconnect p => l.record p (Rooms.handleParticipantDisconnected p)

def live (l : Lobby) (p : ParticipantId) : List (ParticipantId × RoomId) :=
  l.creations.filter fun c => c.1 = p ∧ l.rooms.state.roomExists c.2

structure WellKept (l : Lobby) : Prop where
  kept : ∀ room ∈ l.rooms.state.rooms,
    (∃ q, l.rooms.state.participantExists room.roomId q = true) ∨ ∃ p ∈ l.rooms.sessions,
      ∃ rs, l.rooms.created.lookup p = some rs ∧ room.roomId ∈ rs
  named : ∀ name r, l.rooms.roomNames.lookup name = some r →
    ∃ room, l.rooms.state.getRoom r = some room ∧ room.name = name
  member : ∀ p handle, l.rooms.sessions.lookup p = some handle →
    ∀ r, handle.roomId = some r ↔ l.rooms.state.participantExists r p = true
  limit : ∀ p, (l.live p).length ≤ maxRoomsPerCreator

structure Kept (l : Lobby) : Prop where
  sound : l.rooms.Sound []
  ids : ∀ p ∈ l.rooms.sessions, p < l.nextParticipantId
  positive : 0 < l.nextParticipantId
  once : (l.creations.map Prod.snd).Nodup
  old : ∀ c ∈ l.creations, c.1 < l.nextParticipantId ∧ c.2 < l.rooms.state.nextRoomId
  listed : ∀ c ∈ l.creations, l.rooms.state.roomExists c.2 = true →
    c.1 ∈ l.rooms.sessions → ∃ rs, l.rooms.created.lookup c.1 = some rs ∧ c.2 ∈ rs
  few : ∀ p, ∃ rs : List RoomId, rs.length ≤ maxRoomsPerCreator ∧
    ∀ c ∈ l.creations, c.1 = p → l.rooms.state.roomExists c.2 = true → c.2 ∈ rs

variable {l : Lobby} {p : ParticipantId} {r : RoomId}

theorem roomExists_lt {d : DistributedState} (h : d.Alone) (hr : d.roomExists r = true) :
    r < d.nextRoomId := by
  obtain ⟨n, hn⟩ := roomExists_iff.1 hr
  obtain ⟨room, hroom, heq⟩ := mem_map.1 hn
  cases heq
  exact h.fresh room hroom

theorem mem_opened {before after : DistributedState} :
    r ∈ opened before after ↔ after.roomExists r = true ∧ before.roomExists r = false := by
  rw [opened, mem_filter, ← titles_ids, mem_map, roomExists_iff]
  simp

theorem opened_nodup {before after : DistributedState} (h : after.Alone) :
    (opened before after).Nodup :=
  h.ids.filter _

variable {s' : Rooms} {name : Option String} {room : Option RoomId} {new : List RoomId} {n : Nat}

theorem Kept.still (h : Kept l) (he : l.rooms.Edits [] p name room new s')
    {c : ParticipantId × RoomId} (hc : c ∈ l.creations) (hr : s'.state.roomExists c.2 = true) :
    l.rooms.state.roomExists c.2 = true := by
  refine (he.live c.2 hr).resolve_right fun hnew => ?_
  exact absurd (h.old c hc).2 (not_lt.2 (he.fresh c.2 hnew).1)

theorem Kept.listed_after (h : Kept l) (he : l.rooms.Edits [] p name room new s')
    (hback : ∀ q ∈ s'.sessions, q ∈ l.rooms.sessions ∨ q = l.nextParticipantId)
    {c : ParticipantId × RoomId}
    (hc : c ∈ l.creations ++ (opened l.rooms.state s'.state).map (p, ·))
    (hr : s'.state.roomExists c.2 = true) (hin : c.1 ∈ s'.sessions) :
    ∃ rs, s'.created.lookup c.1 = some rs ∧ c.2 ∈ rs := by
  rcases mem_append.1 hc with hc | hc
  · have hsess : c.1 ∈ l.rooms.sessions :=
      (hback c.1 hin).resolve_right fun heq => absurd (h.old c hc).1 (heq ▸ lt_irrefl _)
    obtain ⟨rs, hrs, hmem⟩ := h.listed c hc (h.still he hc hr) hsess
    by_cases hp : c.1 = p
    · exact hp ▸ he.own c.2 hr (.inl ⟨rs, hp ▸ hrs, hmem⟩) (hp ▸ hin)
    · exact ⟨rs, (he.others c.1 hp).trans hrs, hmem⟩
  · obtain ⟨r, hopen, rfl⟩ := mem_map.1 hc
    have hnew : r ∈ new := (he.live r hr).resolve_left (by simp [(mem_opened.1 hopen).2])
    exact he.own r hr (.inr hnew) hin

theorem Kept.edits (h : Kept l) (he : l.rooms.Edits [] p name room new s')
    (hback : ∀ q ∈ s'.sessions, q ∈ l.rooms.sessions ∨ q = l.nextParticipantId)
    (hstay : p ∈ s'.sessions ∨ new = []) (hn : l.nextParticipantId ≤ n)
    (hids : ∀ q ∈ s'.sessions, q < n) : Kept {
      rooms := s'
      nextParticipantId := n
      creations := l.creations ++ (opened l.rooms.state s'.state).map (p, ·) } := by
  have hopen : ∀ {r}, r ∈ opened l.rooms.state s'.state →
      r ∈ new ∧ l.rooms.state.nextRoomId ≤ r := by
    intro r hr
    have hnew : r ∈ new :=
      (he.live r (mem_opened.1 hr).1).resolve_left (by simp [(mem_opened.1 hr).2])
    exact ⟨hnew, (he.fresh r hnew).1⟩
  refine ⟨he.sound, hids, h.positive.trans_le hn, ?_, fun c hc => ?_, fun c hc hr hin => ?_,
    fun q => ?_⟩
  · rw [map_append, map_map]
    refine nodup_append.2
      ⟨h.once, by simpa [Function.comp_def] using opened_nodup he.sound.alone, ?_⟩
    rintro a ha b hb rfl
    obtain ⟨c, hc, rfl⟩ := mem_map.1 ha
    obtain ⟨r, hr, heq⟩ := mem_map.1 hb
    have := (hopen hr).2
    rw [show r = c.2 from heq] at this
    exact absurd (h.old c hc).2 (not_lt.2 this)
  · rcases mem_append.1 hc with hc | hc
    · exact ⟨(h.old c hc).1.trans_le hn, (h.old c hc).2.trans_le he.next⟩
    · obtain ⟨r, hr, rfl⟩ := mem_map.1 hc
      have hp : p ∈ s'.sessions := hstay.resolve_right fun hnil => by
        have := (hopen hr).1
        rw [hnil] at this
        cases this
      exact ⟨hids p hp, roomExists_lt he.sound.alone (mem_opened.1 hr).1⟩
  · exact h.listed_after he hback hc hr hin
  · by_cases hq : q ∈ s'.sessions
    · -- a connected creator: its own list
      cases hl : s'.created.lookup q with
      | some rs =>
        refine ⟨rs, (he.sound.creators q rs hl).2, fun c hc hcq hr => ?_⟩
        subst hcq
        obtain ⟨rs', hl', hmem⟩ := h.listed_after he hback hc hr hq
        cases hl.symm.trans hl'
        exact hmem
      | none =>
        refine ⟨[], Nat.zero_le _, fun c hc hcq hr => ?_⟩
        subst hcq
        obtain ⟨rs', hl', -⟩ := h.listed_after he hback hc hr hq
        cases hl.symm.trans hl'
    · -- one that is gone: the rooms it left behind
      obtain ⟨rs, hlen, hrs⟩ := h.few q
      refine ⟨rs, hlen, fun c hc hcq hr => ?_⟩
      rcases mem_append.1 hc with hc | hc
      · exact hrs c hc hcq (h.still he hc hr)
      · obtain ⟨r, hr', rfl⟩ := mem_map.1 hc
        subst hcq
        have hnil := hstay.resolve_left hq
        have := (hopen hr').1
        rw [hnil] at this
        cases this

structure Stepped (ext : List RoomId) (l : Lobby) (p : ParticipantId) (a : RoomAction)
    (new : List RoomId) (l' : Lobby) : Prop where
  edits : l.rooms.Edits ext p a.name a.room new l'.rooms
  creations : l'.creations = l.creations ++ (opened l.rooms.state l'.rooms.state).map (p, ·)
  next : l.nextParticipantId ≤ l'.nextParticipantId
  ids : ∀ q ∈ l'.rooms.sessions, q < l'.nextParticipantId
  back : ∀ q ∈ l'.rooms.sessions, q ∈ l.rooms.sessions ∨ q = l.nextParticipantId
  stay : p ∈ l'.rooms.sessions ∨ new = []

variable {ext : List RoomId} {a : RoomAction}

theorem record_stepped (hids : ∀ q ∈ l.rooms.sessions, q < l.nextParticipantId)
    {m : Prog Rooms Unit}
    (hm : Ends m l.rooms fun _ s' => (∀ q ∈ s'.sessions, q ∈ l.rooms.sessions) ∧
      ∃ new, l.rooms.Edits ext p a.name a.room new s' ∧ (p ∈ s'.sessions ∨ new = [])) :
    ∃ p' new l', l.record p m = some l' ∧ Stepped ext l p' a new l' := by
  obtain ⟨_, s', hrun, hback, new, he, hstay⟩ := hm
  have hrec : l.record p m = some { l with
      rooms := s'
      creations := l.creations ++ (opened l.rooms.state s'.state).map (p, ·) } := by
    rw [Lobby.record, hrun]
    rfl
  refine ⟨p, new, _, hrec, he, rfl, le_rfl, fun q hq => ?_, fun q hq => ?_, hstay⟩
  · exact hids q (hback q hq)
  · exact .inl (hback q hq)

theorem leave_ends (h : l.rooms.Sound ext) (hp : p ≠ 0) (name : Option String)
    (room : Option RoomId) :
    Ends (do Rooms.handleLeave p; Rooms.removeSession p) l.rooms fun _ s' =>
      (∀ q ∈ s'.sessions, q ∈ l.rooms.sessions) ∧
        ∃ new, l.rooms.Edits ext p name room new s' ∧ (p ∈ s'.sessions ∨ new = []) := by
  refine ends_bind.2 ((Rooms.handleLeave_spec h hp).mono ?_)
  rintro _ t ⟨ht, hl, hc⟩
  refine ends_modify.2 ⟨fun q hq => ?_, [], ht.removed hl hc, .inr rfl⟩
  exact hl.sessions ▸ (AList.mem_erase.1 hq).2

theorem step_stepped (h : l.rooms.Sound ext)
    (hids : ∀ q ∈ l.rooms.sessions, q < l.nextParticipantId) (hpos : 0 < l.nextParticipantId)
    (a : RoomAction) :
    ∃ p new l', l.step a = some l' ∧ Stepped ext l p a new l' := by
  have hnone : ∀ q, (∀ q ∈ l.rooms.sessions, q ∈ l.rooms.sessions) ∧
      ∃ new, l.rooms.Edits ext q a.name a.room new l.rooms ∧
      (q ∈ l.rooms.sessions ∨ new = []) :=
    fun q => ⟨fun _ hq => hq, [], h.edits_self q, .inr rfl⟩
  cases a with
  | connect grant =>
    have hnew : l.nextParticipantId ∉ l.rooms.sessions := fun hin => lt_irrefl _ (hids _ hin)
    obtain ⟨_, s', hrun, he, rfl⟩ := Rooms.handleConnected_spec h hpos.ne' hnew grant
    refine ⟨_, [], _, by rw [Lobby.step, Lobby.record, hrun]; rfl, he, rfl, Nat.le_succ _,
      fun q hq => ?_, fun q hq => ((AList.mem_insert _).1 hq).symm, .inr rfl⟩
    rcases (AList.mem_insert _).1 hq with rfl | hq
    · exact Nat.lt_succ_self _
    · exact Nat.lt_succ_of_lt (hids q hq)
  | message p msg =>
    refine record_stepped hids (p := p) ?_
    unfold Rooms.handleMessage
    rw [ends_bind, ends_get]
    split_ifs with hp
    · exact ends_pure.2 (hnone p)
    have hp0 : p ≠ 0 := fun h0 => hp (.inl h0)
    have hin : p ∈ l.rooms.sessions := not_not.1 fun hn => hp (.inr hn)
    cases msg with
    | create name =>
      refine (Rooms.handleCreate_spec h p name).mono ?_
      rintro _ s' ⟨-, hsess, new, he⟩
      exact ⟨fun q hq => hsess ▸ hq, new, he, .inl (hsess ▸ hin)⟩
    | join roomId name =>
      refine (Rooms.handleJoin_spec h p roomId name).mono ?_
      rintro _ s' ⟨he, hsess, -⟩
      exact ⟨fun q hq => (hsess q).1 hq, [], he, .inr rfl⟩
    | leave => exact leave_ends h hp0 _ _
  | disconnect p =>
    refine record_stepped hids (p := p) ?_
    rw [Rooms.handleParticipantDisconnected]
    split_ifs with hp
    · exact ends_pure.2 (hnone p)
    · exact leave_ends h hp _ _

theorem Kept.step (h : Kept l) (a : RoomAction) : ∃ l', l.step a = some l' ∧ Kept l' := by
  obtain ⟨p, new, l', hstep, hl⟩ := step_stepped h.sound h.ids h.positive a
  refine ⟨l', hstep, ?_⟩
  have := h.edits hl.edits hl.back hl.stay hl.next hl.ids
  rwa [← hl.creations] at this

theorem kept_new : Kept (Lobby.new config) :=
  ⟨Rooms.sound_new config, nofun, Nat.one_pos, nodup_nil, nofun, nofun,
    fun _ => ⟨[], Nat.zero_le _, nofun⟩⟩

theorem Kept.wellKept (h : Kept l) : WellKept l where
  kept room hroom := by
    have hex : l.rooms.state.roomExists room.roomId = true :=
      roomExists_iff.2 ⟨room.name, mem_map_of_mem hroom⟩
    rcases h.sound.kept room.roomId hex with hq | ⟨p, rs, hl, hmem⟩ | hnil
    · exact .inl hq
    · exact .inr ⟨p, (h.sound.creators p rs hl).1, rs, hl, hmem⟩
    · cases hnil
  named name r hr := by
    obtain ⟨room, hroom, heq⟩ := mem_map.1 (h.sound.named name r hr)
    cases heq
    exact ⟨room, (getRoom_eq_some h.sound.alone.ids).2 ⟨hroom, rfl⟩, rfl⟩
  member p handle hp r := by
    rw [h.sound.member, Rooms.roomOf, hp]
    rfl
  limit p := by
    obtain ⟨rs, hlen, hrs⟩ := h.few p
    have hsub : (l.live p).map Prod.snd ⊆ rs := by
      intro r hr
      obtain ⟨c, hc, rfl⟩ := mem_map.1 hr
      obtain ⟨hc, hlive⟩ := mem_filter.1 hc
      have hlive := of_decide_eq_true hlive
      exact hrs c hc hlive.1 hlive.2
    have hnodup : ((l.live p).map Prod.snd).Nodup := h.once.sublist (filter_sublist.map _)
    exact (length_map Prod.snd).symm.le.trans ((hnodup.subperm hsub).length_le.trans hlen)

/-- In every run of connections that create, join and leave rooms, every room has a member or a
connected creator that lists it, names lead to their rooms, handles and participant sets agree, and
nobody has more than four rooms open. -/
theorem rooms_well_kept (as : List RoomAction) :
    ∃ l, run step (Lobby.new config) as = some l ∧ l.WellKept := by
  obtain ⟨l, hrun, hl⟩ := run_invariant (fun _ a h => h.step a) (kept_new config) as
  exact ⟨l, hrun, hl.wellKept⟩

end Lobby
end NexusSfu.Orchestrator
