import NexusSfu.Orchestrator.Rooms
import NexusSfu.State.Node

namespace NexusSfu.Orchestrator

open Base Prog State DistributedState List AList

def SignalMessage.announces : SignalMessage → Option ParticipantId
  | .participantJoined p _ => some p
  | .trackPublished p _ _ _ => some p
  | _ => none

namespace Rooms

variable {s s' : Rooms} {p q : ParticipantId} {r : RoomId} {msg : SignalMessage}
  {name : Option String} {room : Option RoomId} {ext : List RoomId}

structure Sound (ext : List RoomId) (s : Rooms) : Prop where
  alone : s.state.Alone
  kept : ∀ r, s.state.roomExists r = true → (∃ q, s.state.participantExists r q = true) ∨
    (∃ p l, s.created.lookup p = some l ∧ r ∈ l) ∨ r ∈ ext
  named : ∀ name r, s.roomNames.lookup name = some r → (r, name) ∈ s.state.titles
  member : ∀ r q, s.state.participantExists r q = true ↔ s.roomOf q = some r
  tokens : ∀ p r, s.roomOf p = some r → ∃ name, (r, name) ∈ s.state.titles ∧
    s.granted p (some name) = true
  creators : ∀ p l, s.created.lookup p = some l →
    p ∈ s.sessions ∧ l.length ≤ maxRoomsPerCreator
  nobody : 0 ∉ s.sessions

def post (s : Rooms) (msgs : List (ParticipantId × SignalMessage)) : Rooms :=
  { s with outbox := s.outbox ++ msgs }

theorem Sound.post (h : Sound ext s) (msgs : List (ParticipantId × SignalMessage)) :
    Sound ext (s.post msgs) :=
  ⟨h.alone, h.kept, h.named, h.member, h.tokens, h.creators, h.nobody⟩

theorem post_nil : s.post [] = s := by simp [post]

theorem post_post {a b : List (ParticipantId × SignalMessage)} :
    (s.post a).post b = s.post (a ++ b) := by
  simp [post]

def letter (s : Rooms) (p : ParticipantId) (msg : SignalMessage) :
    List (ParticipantId × SignalMessage) :=
  if p ∈ s.sessions then [(p, msg)] else []

@[simp] theorem ends_sendTo {Q : Unit → Rooms → Prop} :
    Ends (sendTo p msg) s Q ↔ Q () (s.post (s.letter p msg)) := by
  rw [sendTo, ends_modify, letter]
  split_ifs
  · rfl
  · rw [post_nil]

@[simp] theorem ends_sendError {code message : String} {Q : Unit → Rooms → Prop} :
    Ends (sendError p code message) s Q ↔ Q () (s.post (s.letter p (.error code message))) :=
  ends_sendTo

theorem ends_each_sendTo {Q : Unit → Rooms → Prop} (l : List ParticipantId) :
    Ends (each (fun pid => sendTo pid msg) l) s Q ↔
      Q () (s.post (l.flatMap fun pid => s.letter pid msg)) := by
  induction l generalizing s with
  | nil => rw [each, ends_pure, flatMap_nil, post_nil]
  | cons pid l ih => rw [each, ends_bind, ends_sendTo, ih, post_post, flatMap_cons]; rfl

theorem mem_letter {m : ParticipantId × SignalMessage} (h : m ∈ s.letter p msg) :
    m = (p, msg) := by
  rw [letter] at h
  split_ifs at h
  · exact mem_singleton.1 h
  · cases h

def Quietly (s s' : Rooms) : Prop :=
  ∃ msgs, s'.outbox = s.outbox ++ msgs ∧ ∀ m ∈ msgs, m.2.announces = none

theorem Quietly.refl (h : s'.outbox = s.outbox) : Quietly s s' := ⟨[], by simp [h], nofun⟩

theorem Quietly.trans {t : Rooms} (h : Quietly s t) (h' : Quietly t s') : Quietly s s' := by
  obtain ⟨a, ha, hna⟩ := h
  obtain ⟨b, hb, hnb⟩ := h'
  exact ⟨a ++ b, by rw [hb, ha, append_assoc],
    fun m hm => (mem_append.1 hm).elim (hna m) (hnb m)⟩

theorem quietly_letter (h : msg.announces = none) : Quietly s (s.post (s.letter p msg)) :=
  ⟨_, rfl, fun m hm => by rw [mem_letter hm]; exact h⟩

theorem quietly_letters {m : SignalMessage} (h : m.announces = none) (l : List ParticipantId) :
    Quietly s (s.post (l.flatMap fun pid => s.letter pid m)) :=
  ⟨_, rfl, fun m hm => by
    obtain ⟨pid, -, hm⟩ := mem_flatMap.1 hm
    rw [mem_letter hm]
    exact h⟩

theorem allocateRoom_spec (h : s.state.Alone) (name : Option String) :
    Ends (allocateRoom name) s fun res s' => ∃ state, s' = { s with state } ∧ match res with
      | .ok id => Opens s.state state id (name.getD "")
      | .error _ => Becomes s.state state s.state.participantExists := by
  have hauto := h.createRoomAuto (name.getD "") maxParticipantsPerRoom
  rw [allocateRoom, ends_bind, ends_get]
  split at hauto
  · next id state heq =>
    have hid : id ≠ 0 := (Nat.lt_of_lt_of_le h.positive hauto.later).ne'
    simp only [heq, ends_bind, ends_set, ends_assert, ends_pure]
    exact ⟨decide_eq_true hid, state, rfl, hauto⟩
  · next e state heq =>
    rw [heq]
    cases e <;> exact ends_bind.2 (ends_set.2 (ends_pure.2 ⟨state, rfl, hauto⟩))

structure NewRoom (p : ParticipantId) (name : Option String) (s : Rooms) (res : Option RoomId)
    (s' : Rooms) : Prop where
  quietly : Quietly s s'
  sessions : s'.sessions = s.sessions
  roomNames : s'.roomNames = s.roomNames
  opened : match res with
    | none => Becomes s.state s'.state s.state.participantExists ∧
      (s'.created = s.created ∨ s'.created = s.created.insert p (s.createdRooms p) ∧
        (s.createdRooms p).length ≤ maxRoomsPerCreator)
    | some id => Opens s.state s'.state id (name.getD "") ∧
      s'.created = s.created.insert p (s.createdRooms p ++ [id]) ∧
      (s.createdRooms p).length < maxRoomsPerCreator

theorem Sound.createdRooms_le (h : Sound ext s) (p : ParticipantId) :
    (s.createdRooms p).length ≤ maxRoomsPerCreator := by
  refine (length_filter_le _ _).trans ?_
  cases hl : s.created.lookup p with
  | none => exact Nat.zero_le _
  | some l => exact (h.creators p l hl).2

theorem newRoom_spec (h : Sound ext s) (p : ParticipantId) (name : Option String) :
    Ends (newRoom p name) s (NewRoom p name s) := by
  have hsame : Becomes s.state s.state s.state.participantExists :=
    ⟨h.alone, le_rfl, rfl, fun _ _ => rfl⟩
  have hle := h.createdRooms_le p
  rw [newRoom]
  split_ifs with hlong
  · simp only [ends_bind, ends_sendError, ends_pure]
    exact ⟨quietly_letter rfl, rfl, rfl, hsame, .inl rfl⟩
  rw [ends_bind, ends_get]
  split_ifs with hmax
  · simp only [ends_bind, ends_sendError, ends_pure]
    exact ⟨quietly_letter rfl, rfl, rfl, hsame, .inl rfl⟩
  simp only [ends_bind, ends_get, ends_modify]
  split_ifs with hmine
  · simp only [ends_bind, ends_sendError, ends_pure]
    exact ⟨(Quietly.refl rfl).trans (quietly_letter rfl), rfl, rfl, hsame, .inr ⟨rfl, hle⟩⟩
  rw [ends_bind]
  refine (allocateRoom_spec (s := { s with created := s.created.insert p (s.createdRooms p) })
    h.alone name).mono ?_
  rintro res _ ⟨state, rfl, hres⟩
  cases res with
  | error reason =>
    simp only [ends_bind, ends_sendError, ends_pure]
    exact ⟨(Quietly.refl rfl).trans (quietly_letter rfl), rfl, rfl, hres, .inr ⟨rfl, hle⟩⟩
  | ok id =>
    have hlt : (s.createdRooms p).length < maxRoomsPerCreator := not_le.1 hmine
    simp only [ends_bind, ends_get, ends_assert, ends_modify, ends_pure, AList.lookup_insert,
      Option.getD_some]
    exact ⟨decide_eq_true hlt, .refl rfl, rfl, rfl, hres, by rw [insert_insert], hlt⟩

structure Edits (ext : List RoomId) (p : ParticipantId) (name : Option String)
    (room : Option RoomId) (new : List RoomId) (s s' : Rooms) : Prop where
  sound : Sound ext s'
  live : ∀ r, s'.state.roomExists r = true → s.state.roomExists r = true ∨ r ∈ new
  next : s.state.nextRoomId ≤ s'.state.nextRoomId
  fresh : ∀ r ∈ new, s.state.nextRoomId ≤ r ∧ s'.state.roomExists r = true
  one : new.length ≤ 1
  others : ∀ q, q ≠ p → s'.created.lookup q = s.created.lookup q
  own : ∀ r, s'.state.roomExists r = true →
    (∃ l, s.created.lookup p = some l ∧ r ∈ l) ∨ r ∈ new → p ∈ s'.sessions →
    ∃ l, s'.created.lookup p = some l ∧ r ∈ l
  lists : ∀ q l r, s'.created.lookup q = some l → r ∈ l →
    (∃ l, s.created.lookup q = some l ∧ r ∈ l) ∨ r ∈ new
  lost : ∀ r n, (r, n) ∈ s.state.titles →
    (r, n) ∈ s'.state.titles ∨ s.roomOf p = some r ∨ ∃ l, s.created.lookup p = some l ∧
    r ∈ l
  titled : ∀ r n, (r, n) ∈ s'.state.titles → n ≠ "" → s'.roomNames.lookup n = some r ∨
    (r, n) ∈ s.state.titles ∧ s.roomNames.lookup n ≠ some r
  names : ∀ n r, s'.roomNames.lookup n = some r →
    s.roomNames.lookup n = some r ∨ name = some n
  joins : ∀ q r, s'.roomOf q = some r → s.roomOf q = some r ∨ room = some r

theorem titled_self (s : Rooms) {r : RoomId} {n : String} (h : (r, n) ∈ s.state.titles) :
    s.roomNames.lookup n = some r ∨ (r, n) ∈ s.state.titles ∧
      s.roomNames.lookup n ≠ some r :=
  or_iff_not_imp_left.2 fun hn => ⟨h, hn⟩

theorem Sound.edits_self (h : Sound ext s) (p : ParticipantId) : Edits ext p name room [] s s :=
  ⟨h, fun _ hr => .inl hr, le_rfl, nofun, Nat.zero_le _, fun _ _ => rfl,
    fun _ _ hr _ => hr.elim id nofun, fun _ l _ hl hr => .inl ⟨l, hl, hr⟩, fun _ _ => .inl,
    fun _ _ hn _ => titled_self s hn, fun _ _ => .inl, fun _ _ => .inl⟩

theorem Edits.post {new : List RoomId} (h : Edits ext p name room new s s')
    (msgs : List (ParticipantId × SignalMessage)) :
    Edits ext p name room new s (s'.post msgs) :=
  ⟨h.sound.post msgs, h.live, h.next, h.fresh, h.one, h.others, h.own, h.lists, h.lost, h.titled,
    h.names, h.joins⟩

theorem roomExists_congr {d d' : DistributedState} (h : d'.titles = d.titles) (r : RoomId) :
    d'.roomExists r = d.roomExists r := by
  rw [Bool.eq_iff_iff, roomExists_iff, roomExists_iff, h]

theorem mem_createdRooms {l : List RoomId} (hl : s.created.lookup p = some l) (hr : r ∈ l)
    (hex : s.state.roomExists r = true) : r ∈ s.createdRooms p := by
  rw [createdRooms, hl]
  exact mem_filter.2 ⟨hr, hex⟩

theorem of_mem_createdRooms (h : r ∈ s.createdRooms p) :
    ∃ l, s.created.lookup p = some l ∧ r ∈ l := by
  have hmem := mem_of_mem_filter h
  cases hl : s.created.lookup p with
  | none =>
    rw [hl] at hmem
    cases hmem
  | some l =>
    rw [hl] at hmem
    exact ⟨l, rfl, hmem⟩

theorem roomOf_congr (h : s'.sessions = s.sessions) (q : ParticipantId) :
    s'.roomOf q = s.roomOf q := by
  rw [roomOf, h, roomOf]

theorem granted_congr (h : s'.sessions = s.sessions) : s'.granted q name = s.granted q name := by
  rw [granted, h, granted]

theorem Sound.closed (h : Sound ext s) (hp : p ∈ s.sessions) (hn : NewRoom p name s none s') :
    Edits ext p name room [] s s' := by
  obtain ⟨-, hsess, hnames, hbec, hcreated⟩ := hn
  have hex := roomExists_congr hbec.titles
  have hown : ∀ q l r, s.created.lookup q = some l → r ∈ l → s.state.roomExists r = true →
      ∃ l', s'.created.lookup q = some l' ∧ r ∈ l' := by
    intro q l r hl hr hlive
    rcases hcreated with hcreated | ⟨hcreated, -⟩
    · exact ⟨l, hcreated ▸ hl, hr⟩
    · rw [hcreated, Assoc.lookup_insert_ite]
      by_cases hq : q = p
      · subst hq
        exact ⟨_, if_pos rfl, mem_createdRooms hl hr hlive⟩
      · exact ⟨l, (if_neg hq).trans hl, hr⟩
  refine ⟨⟨hbec.alone, fun r hr => ?_, fun name r hr => ?_, fun r q => ?_, fun q r hq => ?_,
    fun q l hl => ?_, ?_⟩,
    fun r hr => .inl (hex r ▸ hr), hbec.next, nofun, Nat.zero_le _, fun q hq => ?_,
    fun r hr hc _ => ?_, fun q l r hl hr => ?_, fun r n hr => .inl (hbec.titles ▸ hr),
    fun r n hr _ => ?_, fun n r hr => .inl (hnames ▸ hr),
    fun q r hq => .inl (roomOf_congr hsess q ▸ hq)⟩
  · rw [hex] at hr
    rcases h.kept r hr with ⟨q, hq⟩ | ⟨q, l, hl, hmem⟩ | hext
    · exact .inl ⟨q, (hbec.members r q).trans hq⟩
    · exact .inr (.inl ⟨q, hown q l r hl hmem hr⟩)
    · exact .inr (.inr hext)
  · rw [hbec.titles]
    exact h.named name r (hnames ▸ hr)
  · rw [hbec.members, roomOf_congr hsess]
    exact h.member r q
  · obtain ⟨n, hn, hg⟩ := h.tokens q r (roomOf_congr hsess q ▸ hq)
    exact ⟨n, hbec.titles ▸ hn, (granted_congr hsess).trans hg⟩
  · rw [hsess]
    rcases hcreated with hcreated | ⟨hcreated, hle⟩
    · exact h.creators q l (hcreated ▸ hl)
    · rw [hcreated, Assoc.lookup_insert_ite] at hl
      split_ifs at hl with hq
      · cases hl
        exact ⟨hq ▸ hp, hle⟩
      · exact h.creators q l hl
  · rw [hsess]
    exact h.nobody
  · rcases hcreated with hcreated | ⟨hcreated, -⟩
    · rw [hcreated]
    · rw [hcreated, Assoc.lookup_insert_ite, if_neg hq]
  · obtain ⟨l, hl, hmem⟩ := hc.resolve_right nofun
    exact hown p l r hl hmem (hex r ▸ hr)
  · rcases hcreated with hcreated | ⟨hcreated, -⟩
    · exact .inl ⟨l, hcreated ▸ hl, hr⟩
    · rw [hcreated, Assoc.lookup_insert_ite] at hl
      split_ifs at hl with hq
      · cases hl
        exact .inl (hq ▸ of_mem_createdRooms hr)
      · exact .inl ⟨l, hl, hr⟩
  · rw [hnames]
    exact titled_self s (hbec.titles ▸ hr)

theorem Sound.opened (h : Sound ext s) (hp : p ∈ s.sessions) {id : RoomId}
    (hn : NewRoom p name s (some id) s') {names : Assoc String RoomId}
    (hfree : ∀ n, name = some n → s.roomNames.lookup n = none)
    (hnames : ∀ n, names.lookup n = if name = some n then some id else s.roomNames.lookup n) :
    Edits ext p name room [id] s { s' with roomNames := names } := by
  obtain ⟨-, hsess, -, hopen, hcreated, hlt⟩ := hn
  have hex : ∀ r, s'.state.roomExists r = true ↔ s.state.roomExists r = true ∨ r = id := by
    intro r
    rw [roomExists_iff, roomExists_iff, hopen.titles]
    simp only [mem_append, mem_singleton, Prod.mk.injEq]
    constructor
    · rintro ⟨n, hn | hn⟩
      · exact .inl ⟨n, hn⟩
      · exact .inr hn.1
    · rintro (⟨n, hn⟩ | hr)
      · exact ⟨n, .inl hn⟩
      · exact ⟨_, .inr ⟨hr, rfl⟩⟩
  have hown : ∀ q l r, s.created.lookup q = some l → r ∈ l → s.state.roomExists r = true →
      ∃ l', s'.created.lookup q = some l' ∧ r ∈ l' := by
    intro q l r hl hr hlive
    rw [hcreated, Assoc.lookup_insert_ite]
    by_cases hq : q = p
    · subst hq
      exact ⟨_, if_pos rfl, mem_append_left _ (mem_createdRooms hl hr hlive)⟩
    · exact ⟨l, (if_neg hq).trans hl, hr⟩
  have hnew : ∃ l, s'.created.lookup p = some l ∧ id ∈ l :=
    ⟨_, by rw [hcreated, AList.lookup_insert], mem_append_right _ (mem_singleton_self id)⟩
  have hlive : s'.state.roomExists id = true := (hex id).2 (.inr rfl)
  refine ⟨⟨hopen.alone, fun r hr => ?_, fun n r hr => ?_, fun r q => ?_, fun q r hq => ?_,
    fun q l hl => ?_, ?_⟩,
    fun r hr => ((hex r).1 hr).imp_right mem_singleton.2, ?_, fun r hr => ?_, le_rfl,
    fun q hq => ?_, fun r hr hc _ => ?_, fun q l r hl hr => ?_,
    fun r n hr => .inl (hopen.titles ▸ mem_append_left _ hr), fun r n hr hne => ?_,
    fun n r hr => ?_, fun q r hq => .inl (roomOf_congr hsess q ▸ hq)⟩
  · rcases (hex r).1 hr with hr | rfl
    · rcases h.kept r hr with ⟨q, hq⟩ | ⟨q, l, hl, hmem⟩ | hext
      · exact .inl ⟨q, (hopen.members r q).trans hq⟩
      · exact .inr (.inl ⟨q, hown q l r hl hmem hr⟩)
      · exact .inr (.inr hext)
    · exact .inr (.inl ⟨p, hnew⟩)
  · show (r, n) ∈ s'.state.titles
    rw [hopen.titles]
    rw [hnames] at hr
    split_ifs at hr with heq
    · cases hr
      exact mem_append_right _ (mem_singleton.2 (by rw [heq]; rfl))
    · exact mem_append_left _ (h.named n r hr)
  · show s'.state.participantExists r q = true ↔ s'.roomOf q = some r
    rw [hopen.members, roomOf_congr hsess]
    exact h.member r q
  · obtain ⟨n, hn, hg⟩ := h.tokens q r (roomOf_congr hsess q ▸ hq)
    exact ⟨n, hopen.titles ▸ mem_append_left _ hn, (granted_congr hsess).trans hg⟩
  · rw [hcreated, Assoc.lookup_insert_ite] at hl
    show q ∈ s'.sessions ∧ _
    rw [hsess]
    split_ifs at hl with hq
    · cases hl
      refine ⟨hq ▸ hp, ?_⟩
      rw [length_append, length_singleton]
      exact hlt
    · exact h.creators q l hl
  · show 0 ∉ s'.sessions
    rw [hsess]
    exact h.nobody
  · have := hopen.alone.fresh
    obtain ⟨n, hn⟩ := roomExists_iff.1 hlive
    obtain ⟨room, hroom, heq⟩ := mem_map.1 hn
    have hlt := this room hroom
    cases heq
    exact hopen.later.trans hlt.le
  · cases mem_singleton.1 hr
    exact ⟨hopen.later, hlive⟩
  · show s'.created.lookup q = _
    rw [hcreated, Assoc.lookup_insert_ite, if_neg hq]
  · rcases hc with ⟨l, hl, hmem⟩ | hr'
    · rcases (hex r).1 hr with hr | rfl
      · exact hown p l r hl hmem hr
      · exact hnew
    · cases mem_singleton.1 hr'
      exact hnew
  · rw [hcreated, Assoc.lookup_insert_ite] at hl
    split_ifs at hl with hq
    · cases hl
      rcases mem_append.1 hr with hr | hr
      · exact .inl (hq ▸ of_mem_createdRooms hr)
      · exact .inr hr
    · exact .inl ⟨l, hl, hr⟩
  · show names.lookup n = some r ∨ _
    have hr : (r, n) ∈ s'.state.titles := hr
    rw [hopen.titles] at hr
    rw [hnames]
    rcases mem_append.1 hr with hr | hr
    · split_ifs with heq
      · exact .inr ⟨hr, by simp [hfree n heq]⟩
      · exact titled_self s hr
    · cases mem_singleton.1 hr
      left
      cases name with
      | none => exact absurd rfl hne
      | some n => exact if_pos rfl
  · rw [hnames] at hr
    split_ifs at hr with heq
    · exact .inr heq
    · exact .inl hr

theorem granted_mem {name : Option String} (h : s.granted p name = true) : p ∈ s.sessions := by
  rw [granted, Option.any_eq_true] at h
  obtain ⟨handle, hl, -⟩ := h
  exact Assoc.mem_iff_lookup.2 ⟨handle, hl⟩

theorem handleCreate_spec (h : Sound ext s) (p : ParticipantId) (name : Option String) :
    Ends (handleCreate p name) s fun _ s' =>
      Quietly s s' ∧ s'.sessions = s.sessions ∧ ∃ new, Edits ext p name none new s s' := by
  have hself : Edits ext p name none [] s s := h.edits_self p
  rw [handleCreate]
  split_ifs with hp0
  · exact ends_pure.2 ⟨.refl rfl, rfl, _, hself⟩
  rw [ends_bind, ends_get]
  split_ifs with hgrant
  · simp only [ends_bind, ends_sendError, ends_pure]
    exact ⟨quietly_letter rfl, rfl, _, hself.post _⟩
  have hp : p ∈ s.sessions := granted_mem (by simpa using hgrant)
  cases hname : name.bind s.roomNames.lookup with
  | some existing => exact ends_sendTo.2 ⟨quietly_letter rfl, rfl, _, hself.post _⟩
  | none =>
    refine ends_bind.2 ((newRoom_spec h p name).mono fun res s' hn => ?_)
    cases res with
    | none => exact ends_pure.2 ⟨hn.quietly, hn.sessions, _, h.closed hp hn⟩
    | some id =>
      cases name with
      | none =>
        refine ends_sendTo.2 ⟨hn.quietly.trans (quietly_letter rfl), hn.sessions, [id],
          Edits.post ?_ _⟩
        exact h.opened hp hn (by simp) fun n => by simp [hn.roomNames]
      | some n =>
        simp only [ends_bind, ends_modify, ends_sendTo]
        refine ⟨hn.quietly.trans ((Quietly.refl rfl).trans (quietly_letter rfl)),
          hn.sessions, [id], Edits.post ?_ _⟩
        refine h.opened hp hn (fun n' heq => Option.some.inj heq ▸ hname) fun n' => ?_
        rw [Assoc.lookup_insert_ite, hn.roomNames]
        simp [eq_comm]

def Confined (s s' : Rooms) : Prop :=
  ∃ msgs, s'.outbox = s.outbox ++ msgs ∧ ∀ m ∈ msgs, ∀ q, m.2.announces = some q →
    ∃ r, s'.roomOf m.1 = some r ∧ s'.roomOf q = some r

theorem Quietly.confined (h : Quietly s s') : Confined s s' := by
  obtain ⟨msgs, hout, hnone⟩ := h
  exact ⟨msgs, hout, fun m hm q hq => by rw [hnone m hm] at hq; cases hq⟩

theorem roomGranted_spec (p : ParticipantId) (roomId : RoomId) :
    Ends (roomGranted p roomId) s fun res s' => ∃ msgs, s' = s.post msgs ∧
      (∀ m ∈ msgs, m.2.announces = none) ∧
      (res = true → ∃ room, s.state.getRoom roomId = some room ∧ s.granted p
        (some room.name) = true) := by
  have hletter : ∀ code message, ∀ m ∈ s.letter p (.error code message),
      m.2.announces = none := by
    intro code message m hm
    rw [mem_letter hm]
    rfl
  rw [roomGranted, ends_bind, ends_get]
  cases hroom : s.state.getRoom roomId with
  | none =>
    simp only [ends_bind, ends_sendError, ends_pure]
    exact ⟨_, rfl, hletter _ _, by simp⟩
  | some room =>
    have hid : room.roomId = roomId := by simpa using find?_some hroom
    simp only [ends_bind, ends_assert]
    refine ⟨decide_eq_true hid, ?_⟩
    split_ifs with hg
    · simp only [ends_bind, ends_sendError, ends_pure]
      exact ⟨_, rfl, hletter _ _, by simp⟩
    · exact ends_pure.2
        ⟨[], post_nil.symm, by simp, fun _ => ⟨room, rfl, by simpa using hg⟩⟩

theorem Sound.joined (h : Sound ext s) {handle : ParticipantHandle}
    (hp : s.sessions.lookup p = some handle) (hout : handle.roomId = none) {room : Room}
    (hroom : s.state.getRoom r = some room) (hg : s.granted p (some room.name) = true)
    {state : DistributedState}
    (hadd : Becomes s.state state fun r' q =>
      decide (r' = r ∧ p = q) || s.state.participantExists r' q) :
    Edits ext p name (some r) [] s { s with
      state
      sessions := s.sessions.insert p { handle with roomId := some r } } := by
  have hnot : s.roomOf p = none := by rw [roomOf, hp]; exact hout
  have hof : ∀ q, Rooms.roomOf { s with
      state
      sessions := s.sessions.insert p { handle with roomId := some r } } q
        = if q = p then some r else s.roomOf q := by
    intro q
    rw [roomOf, Assoc.lookup_insert_ite]
    split_ifs
    · rfl
    · rfl
  have hex := roomExists_congr hadd.titles
  have hmem : ∀ q, q ∈ s.sessions →
      q ∈ s.sessions.insert p { handle with roomId := some r } :=
    fun q hq => (mem_insert _).2 (.inr hq)
  have hpos : 0 ≠ p := fun h0 => h.nobody (h0 ▸ Assoc.mem_iff_lookup.2 ⟨handle, hp⟩)
  refine ⟨⟨hadd.alone, fun r' hr' => ?_, fun n r' hr' => ?_, fun r' q => ?_, fun q r' hq => ?_,
    fun q l hl => ?_, fun h0 => ?_⟩, fun r' hr' => .inl (hex r' ▸ hr'), hadd.next, nofun,
    Nat.zero_le _, fun _ _ => rfl, fun r' _ hc _ => hc.resolve_right nofun,
    fun _ l _ hl hr => .inl ⟨l, hl, hr⟩, fun r' n hr' => .inl (hadd.titles ▸ hr'),
    fun r' n hr' _ => titled_self s (hadd.titles ▸ hr'), fun _ _ => .inl, fun q r' hq => ?_⟩
  · rcases h.kept r' (hex r' ▸ hr') with ⟨q, hq⟩ | hl
    · exact .inl ⟨q, by rw [hadd.members, hq, Bool.or_true]⟩
    · exact .inr hl
  · exact hadd.titles ▸ h.named n r' hr'
  · rw [hof, hadd.members, Bool.or_eq_true, decide_eq_true_iff, h.member]
    by_cases hq : q = p
    · subst hq
      simp [hnot, eq_comm]
    · simp [hq, Ne.symm hq]
  · rw [hof] at hq
    split_ifs at hq with hqp
    · cases hq
      subst hqp
      have hid : room.roomId = r := by simpa using find?_some hroom
      refine ⟨room.name,
        hadd.titles ▸ mem_map.2 ⟨room, mem_of_find?_eq_some hroom, by rw [hid]⟩, ?_⟩
      rw [granted, hp] at hg
      rw [granted, AList.lookup_insert]
      exact hg
    · obtain ⟨n, hn, hgr⟩ := h.tokens q r' hq
      refine ⟨n, hadd.titles ▸ hn, ?_⟩
      rw [granted, Assoc.lookup_insert_ite, if_neg hqp]
      exact hgr
  · exact ⟨hmem q (h.creators q l hl).1, (h.creators q l hl).2⟩
  · exact ((mem_insert _).1 h0).elim hpos h.nobody
  · rw [hof] at hq
    split_ifs at hq
    · exact .inr hq
    · exact .inl hq

theorem ends_setRoom {handle : ParticipantHandle} (hp : s.sessions.lookup p = some handle)
    {Q : Unit → Rooms → Prop} : Ends (setRoom p r) s Q ↔
      Q () { s with sessions := s.sessions.insert p { handle with roomId := some r } } := by
  rw [setRoom, ends_modify, hp]

theorem announceJoin_spec (h : Sound ext s) (hp : s.roomOf p = some r) (name : String) :
    Ends (announceJoin p r name) s fun _ s' => (∃ msgs, s' = s.post msgs) ∧ Confined s s' := by
  rw [announceJoin]
  simp only [ends_bind, ends_get, ends_sendTo]
  rw [ends_each_sendTo, post_post]
  refine ⟨⟨_, rfl⟩, _, rfl, fun m hm q hq => ?_⟩
  rcases mem_append.1 hm with hm | hm
  · rw [mem_letter hm] at hq
    cases hq
  · obtain ⟨pid, hpid, hm⟩ := mem_flatMap.1 hm
    rw [mem_letter hm] at hq ⊢
    cases hq
    have hin := mem_of_mem_take (mem_of_mem_filter hpid)
    exact ⟨r, (h.member r pid).1 (mem_getParticipants hin), hp⟩

theorem handleJoin_spec (h : Sound ext s) (p : ParticipantId) (roomId : Nat) (name : String) :
    Ends (handleJoin p roomId name) s fun _ s' =>
      Edits ext p none (some roomId) [] s s' ∧ (∀ q, q ∈ s'.sessions ↔ q ∈ s.sessions) ∧
        Confined s s' := by
  have hself : Edits ext p none (some roomId) [] s s := h.edits_self p
  have hrefuse : ∀ code message, Edits ext p none (some roomId) [] s
      (s.post (s.letter p (.error code message))) ∧
        (∀ q, q ∈ (s.post (s.letter p (.error code message))).sessions ↔ q ∈ s.sessions) ∧
      Confined s (s.post (s.letter p (.error code message))) :=
    fun _ _ => ⟨hself.post _, fun _ => Iff.rfl, (quietly_letter rfl).confined⟩
  rw [handleJoin]
  split_ifs with hzero hlong hlarge
  · simp only [ends_bind, ends_sendError, ends_pure]
    exact hrefuse _ _
  · simp only [ends_bind, ends_sendError, ends_pure]
    exact hrefuse _ _
  · simp only [ends_bind, ends_sendError, ends_pure]
    exact hrefuse _ _
  rw [ends_bind, ends_get]
  split_ifs with halready
  · simp only [ends_bind, ends_sendError, ends_pure]
    exact hrefuse _ _
  refine ends_bind.2 ((roomGranted_spec p roomId).mono ?_)
  rintro res _ ⟨msgs, rfl, hquiet, hgranted⟩
  have hmsgs : Quietly s (s.post msgs) := ⟨msgs, rfl, hquiet⟩
  split_ifs with hres
  · exact ends_pure.2 ⟨hself.post _, fun _ => Iff.rfl, hmsgs.confined⟩
  rw [ends_bind, ends_get]
  split_ifs with hfull
  · simp only [ends_bind, ends_sendError, ends_pure]
    exact ⟨(hself.post _).post _, fun _ => Iff.rfl, (hmsgs.trans (quietly_letter rfl)).confined⟩
  obtain ⟨room, hroom, hg⟩ := hgranted (by simpa using hres)
  obtain ⟨handle, hp⟩ := Assoc.mem_iff_lookup.1 (granted_mem hg)
  have hout : handle.roomId = none := by simpa [roomOf, hp] using halready
  have hadd := h.alone.addParticipant roomId p
  simp only [ends_bind, ends_get, ends_set]
  cases hres' : s.state.addParticipant roomId p with
  | mk result state =>
    rw [hres'] at hadd
    rw [show (s.post msgs).state.addParticipant roomId p = (result, state) from hres']
    cases result with
    | error e =>
      have hb : Becomes s.state state s.state.participantExists :=
        ⟨hadd.alone, hadd.next, hadd.titles, hadd.members⟩
      have hclosed : Edits ext p none (some roomId) [] s { s with state } :=
        h.closed (Assoc.mem_iff_lookup.2 ⟨handle, hp⟩) ⟨.refl rfl, rfl, rfl, hb, .inl rfl⟩
      have hposted : Edits ext p none (some roomId) [] s { s.post msgs with state } :=
        hclosed.post msgs
      refine ends_sendError.2 ⟨hposted.post _, fun _ => Iff.rfl, ?_⟩
      exact (hmsgs.trans ((Quietly.refl rfl).trans
        (quietly_letter (s := { s.post msgs with state }) rfl))).confined
    | ok dot =>
      have hb : Becomes s.state state fun r' q =>
          decide (r' = roomId ∧ p = q) || s.state.participantExists r' q :=
        ⟨hadd.alone, hadd.next, hadd.titles, hadd.members⟩
      have hjoined : Edits ext p none (some roomId) [] s (Rooms.post { s with
          state
          sessions := s.sessions.insert p { handle with roomId := some roomId } } msgs) :=
        (h.joined hp hout hroom hg hb).post msgs
      refine ends_bind.2 ((ends_setRoom (s := { s.post msgs with state }) hp).2 ?_)
      have hof : Rooms.roomOf { s.post msgs with
          state
          sessions := s.sessions.insert p { handle with roomId := some roomId } } p =
            some roomId := by
        rw [roomOf, AList.lookup_insert]
        rfl
      refine (announceJoin_spec hjoined.sound hof name).mono ?_
      rintro _ _ ⟨⟨more, rfl⟩, msgs', hout', hconf⟩
      refine ⟨hjoined.post more, fun q => ?_, msgs ++ msgs', ?_, fun m hm q hq => ?_⟩
      · refine (mem_insert _).trans ⟨fun hq => hq.elim (fun hq => ?_) id, .inr⟩
        exact hq ▸ Assoc.mem_iff_lookup.2 ⟨handle, hp⟩
      · rw [hout', ← append_assoc]
        rfl
      · rcases mem_append.1 hm with hm | hm
        · rw [hquiet m hm] at hq
          cases hq
        · exact hconf m hm q hq

structure Leaving (ext : List RoomId) (p : ParticipantId) (rest : List RoomId) (s : Rooms) :
    Prop where
  alone : s.state.Alone
  kept : ∀ r, s.state.roomExists r = true → (∃ q, s.state.participantExists r q = true) ∨
    (∃ q l, s.created.lookup q = some l ∧ r ∈ l) ∨ r ∈ ext ∨ r ∈ rest
  named : ∀ name r, s.roomNames.lookup name = some r → (r, name) ∈ s.state.titles
  member : ∀ r q, s.state.participantExists r q = true ↔ q ≠ p ∧ s.roomOf q = some r
  tokens : ∀ q r, q ≠ p → s.roomOf q = some r → ∃ name, (r, name) ∈ s.state.titles ∧
    s.granted q (some name) = true
  creators : ∀ p l, s.created.lookup p = some l →
    p ∈ s.sessions ∧ l.length ≤ maxRoomsPerCreator
  nobody : 0 ∉ s.sessions

structure Leaves (p : ParticipantId) (G : RoomId → Prop) (s s' : Rooms) : Prop where
  quietly : Quietly s s'
  sessions : s'.sessions = s.sessions
  live : ∀ r, s'.state.roomExists r = true → s.state.roomExists r = true
  next : s.state.nextRoomId ≤ s'.state.nextRoomId
  others : ∀ q, q ≠ p → s'.created.lookup q = s.created.lookup q
  lost : ∀ r n, (r, n) ∈ s.state.titles → (r, n) ∈ s'.state.titles ∨ G r
  titled : ∀ r n, (r, n) ∈ s'.state.titles → s'.roomNames.lookup n = some r ∨
    (r, n) ∈ s.state.titles ∧ s.roomNames.lookup n ≠ some r
  names : ∀ n r, s'.roomNames.lookup n = some r → s.roomNames.lookup n = some r

variable {rest : List RoomId} {G : RoomId → Prop}

theorem Leaves.refl (p : ParticipantId) (s : Rooms) : Leaves p G s s :=
  ⟨.refl rfl, rfl, fun _ => id, le_rfl, fun _ _ => rfl, fun _ _ => .inl, fun _ _ => titled_self s,
    fun _ _ => id⟩

theorem Leaves.trans {t : Rooms} (h : Leaves p G s t) (h' : Leaves p G t s') : Leaves p G s s' := by
  refine ⟨h.quietly.trans h'.quietly, h'.sessions.trans h.sessions,
    fun r hr => h.live r (h'.live r hr), h.next.trans h'.next,
    fun q hq => (h'.others q hq).trans (h.others q hq), fun r n hr => ?_, fun r n hr => ?_,
    fun n r hr => h.names n r (h'.names n r hr)⟩
  · exact (h.lost r n hr).elim (h'.lost r n) .inr
  · rcases h'.titled r n hr with hr | ⟨hr, hne⟩
    · exact .inl hr
    · exact .inr ((h.titled r n hr).resolve_left hne)

theorem Leaves.of_eq (hq : Quietly s s') (hs : s'.sessions = s.sessions) (hst : s'.state = s.state)
    (hn : s'.roomNames = s.roomNames)
    (ho : ∀ q, q ≠ p → s'.created.lookup q = s.created.lookup q) :
    Leaves p G s s' :=
  ⟨hq, hs, fun r => by rw [hst]; exact id, by rw [hst], ho, fun r n hr => .inl (hst ▸ hr),
    fun r n hr => by rw [hst] at hr; rw [hn]; exact titled_self s hr, fun n r hr => hn ▸ hr⟩

theorem Leaving.drop (h : Leaving ext p (r :: rest) s)
    (hempty : ∀ q, s.state.participantExists r q = false) (hgone : G r) :
    Ends (dropRoom r) s fun _ s' => Leaving ext p rest s' ∧ Leaves p G s s' ∧
      s'.created = s.created := by
  obtain ⟨halone, htitles, hmem⟩ := h.alone.removeRoom r
  have hsame : ∀ r' q, (s.state.removeRoom r).2.participantExists r' q =
      s.state.participantExists r' q := by
    intro r' q
    rw [hmem]
    by_cases hr : r' = r
    · rw [hr, hempty]
      simp
    · simp [hr]
  have hlive : ∀ r', (s.state.removeRoom r).2.roomExists r' = true →
      s.state.roomExists r' = true ∧ r' ≠ r := by
    intro r' hr'
    rw [roomExists_iff, htitles] at hr'
    obtain ⟨n, hn⟩ := hr'
    obtain ⟨hn, hne⟩ := mem_filter.1 hn
    exact ⟨roomExists_iff.2 ⟨n, hn⟩, by simpa using hne⟩
  have htitle : ∀ {r' n}, (r', n) ∈ s.state.titles → r' ≠ r →
      (r', n) ∈ (s.state.removeRoom r).2.titles := by
    intro r' n hn hne
    rw [htitles]
    exact mem_filter.2 ⟨hn, decide_eq_true hne⟩
  refine ends_modify.2
    ⟨⟨halone, fun r' hr' => ?_, fun n r' hn => ?_, fun r' q => ?_, fun q r' hq hof => ?_,
      h.creators, h.nobody⟩, ⟨.refl rfl, rfl, fun r' hr' => (hlive r' hr').1, le_rfl,
      fun _ _ => rfl,
    fun r' n hr' => ?_, fun r' n hr' => ?_, fun n r' hr' => (Assoc.lookup_retain.1 hr').1⟩, rfl⟩
  · obtain ⟨hex, hne⟩ := hlive r' hr'
    rcases h.kept r' hex with ⟨q, hq⟩ | hl | hext | hrest
    · exact .inl ⟨q, (hsame r' q).trans hq⟩
    · exact .inr (.inl hl)
    · exact .inr (.inr (.inl hext))
    · exact .inr (.inr (.inr ((mem_cons.1 hrest).resolve_left hne)))
  · obtain ⟨hn, hne⟩ := Assoc.lookup_retain.1 hn
    exact htitle (h.named n r' hn) (by simpa using hne)
  · show (s.state.removeRoom r).2.participantExists r' q = true ↔ _
    rw [hsame]
    exact h.member r' q
  · obtain ⟨n, hn, hg⟩ := h.tokens q r' hq hof
    refine ⟨n, htitle hn fun hr => ?_, hg⟩
    have hin := (h.member r' q).2 ⟨hq, hof⟩
    rw [hr, hempty] at hin
    cases hin
  · by_cases hr : r' = r
    · exact .inr (hr ▸ hgone)
    · exact .inl (htitle hr' hr)
  · have hr' : (r', n) ∈ (s.state.removeRoom r).2.titles := hr'
    rw [htitles] at hr'
    obtain ⟨hr', hne⟩ := mem_filter.1 hr'
    exact (titled_self s hr').imp_left fun hl => Assoc.lookup_retain.2 ⟨hl, by simpa using hne⟩

theorem Leaving.skip (h : Leaving ext p (r :: rest) s)
    (hr : s.state.roomExists r = true → ∃ q, s.state.participantExists r q = true) :
    Leaving ext p rest s := by
  refine ⟨h.alone, fun r' hr' => ?_, h.named, h.member, h.tokens, h.creators, h.nobody⟩
  rcases h.kept r' hr' with hq | hl | hext | hrest
  · exact .inl hq
  · exact .inr (.inl hl)
  · exact .inr (.inr (.inl hext))
  · rcases mem_cons.1 hrest with rfl | hrest
    · exact .inl (hr hr')
    · exact .inr (.inr (.inr hrest))

theorem Leaving.post (h : Leaving ext p rest s) (msgs : List (ParticipantId × SignalMessage)) :
    Leaving ext p rest (s.post msgs) :=
  ⟨h.alone, h.kept, h.named, h.member, h.tokens, h.creators, h.nobody⟩

theorem exists_of_not_forall_false {f : ParticipantId → Bool} (h : ¬ ∀ q, f q = false) :
    ∃ q, f q = true := by
  obtain ⟨q, hq⟩ := not_forall.1 h
  exact ⟨q, by simpa using hq⟩

theorem Sound.leave (h : Sound ext s) (hr : s.roomOf p = some r) :
    Leaving ext p [r] { s with state := (s.state.removeParticipant r p).2 } ∧
      Leaves p G s { s with state := (s.state.removeParticipant r p).2 } := by
  have hp0 : p ≠ 0 := by
    rintro rfl
    refine h.nobody (Assoc.mem_iff_lookup.2 ?_)
    obtain ⟨handle, hl, -⟩ := Option.bind_eq_some_iff.1 hr
    exact ⟨handle, hl⟩
  have hr0 : r ≠ 0 := by
    obtain ⟨n, hn, -⟩ := h.tokens p r hr
    obtain ⟨room, hroom, heq⟩ := mem_map.1 hn
    cases heq
    exact h.alone.nonzero room hroom
  obtain ⟨halone, hnext, htitles, hmem⟩ := h.alone.removeParticipant hr0 hp0
  refine ⟨⟨halone, fun r' hr' => ?_, fun n r' hn => htitles ▸ h.named n r' hn, fun r' q => ?_,
    fun q r' hq hof => ?_, h.creators, h.nobody⟩,
    .refl rfl, rfl, fun r' hr' => roomExists_congr htitles r' ▸ hr', hnext, fun _ _ => rfl,
    fun r' n hr' => .inl (htitles ▸ hr'), fun r' n hr' => titled_self s (htitles ▸ hr'),
    fun _ _ => id⟩
  · rw [roomExists_congr htitles] at hr'
    rcases h.kept r' hr' with ⟨q, hq⟩ | hl
    · by_cases hrr : r' = r
      · exact .inr (.inr (.inr (mem_singleton.2 hrr)))
      · exact .inl ⟨q, by rw [hmem, if_neg fun hc => hrr hc.1]; exact hq⟩
    · exact .inr (hl.imp_right .inl)
  · show _ ↔ q ≠ p ∧ s.roomOf q = some r'
    rw [hmem, ← h.member]
    by_cases hq : q = p
    · subst hq
      by_cases hrr : r' = r
      · simp [hrr]
      · have hnone : s.state.participantExists r' q = false := by
          rw [Bool.eq_false_iff, Ne, h.member, hr]
          simpa using Ne.symm hrr
        simp [hrr, hnone]
    · rw [if_neg fun hc => hq hc.2.symm]
      simp [hq]
  · obtain ⟨n, hn, hg⟩ := h.tokens q r' hof
    exact ⟨n, htitles ▸ hn, hg⟩

theorem Sound.leaving (h : Sound ext s) (hr : s.roomOf p = none) : Leaving ext p [] s := by
  refine ⟨h.alone, fun r hr => (h.kept r hr).imp_right (·.imp_right .inl), h.named,
    fun r q => ?_, fun q r _ hq => h.tokens q r hq, h.creators, h.nobody⟩
  rw [h.member]
  refine ⟨fun hq => ⟨?_, hq⟩, And.right⟩
  rintro rfl
  rw [hr] at hq
  cases hq

theorem cleanupParticipantRoom_spec (h : Sound ext s) (p : ParticipantId)
    (hgone : ∀ r, s.roomOf p = some r → G r) :
    Ends (cleanupParticipantRoom p) s fun _ s' => Leaving ext p [] s' ∧ Leaves p G s s' ∧
      s'.created = s.created := by
  rw [cleanupParticipantRoom, ends_bind, ends_get]
  cases hr : s.roomOf p with
  | none => exact ends_pure.2 ⟨h.leaving hr, .refl p s, rfl⟩
  | some r =>
    obtain ⟨hleft, hleaves⟩ := h.leave (G := G) hr
    simp only [ends_bind, ends_modify, ends_get]
    rw [ends_each_sendTo]
    generalize hothers : List.filter _ (List.take maxParticipantsPerRoom _) = others
    have hposted := hleft.post (others.flatMap fun pid =>
      Rooms.letter { s with state := (s.state.removeParticipant r p).2 } pid (.participantLeft p))
    have hleaves' := hleaves.trans
      (.of_eq (quietly_letters (m := .participantLeft p) rfl others) rfl rfl rfl fun _ _ => rfl)
    split_ifs with hempty
    · rw [List.isEmpty_iff, getParticipants_eq_nil] at hempty
      refine (hposted.drop hempty (hgone r hr)).mono ?_
      rintro _ s' ⟨hs', hl, hc⟩
      exact ⟨hs', hleaves'.trans hl, hc⟩
    · rw [List.isEmpty_iff, getParticipants_eq_nil] at hempty
      exact ends_pure.2 ⟨hposted.skip fun _ => exists_of_not_forall_false hempty, hleaves', rfl⟩

theorem release_spec (h : Leaving ext p rest s) (hgone : ∀ r ∈ rest, G r) :
    Ends (each (fun room => do
      let s ← get
      if s.state.roomExists room && s.state.participantCount room == 0 then dropRoom room) rest) s
      fun _ s' => Leaving ext p [] s' ∧ Leaves p G s s' ∧ s'.created = s.created := by
  refine (ends_each (I := fun rest s' => (∀ r ∈ rest, G r) ∧ Leaving ext p rest s' ∧
    Leaves p G s s' ∧ s'.created = s.created) (fun room rest t ht => ?_) ⟨hgone, h, .refl p s,
    rfl⟩).mono fun _ _ h => h.2
  obtain ⟨hgone, ht, hl, hc⟩ := ht
  have hrest : ∀ r ∈ rest, G r := fun r hr => hgone r (mem_cons_of_mem _ hr)
  rw [ends_bind, ends_get]
  split_ifs with hempty
  · rw [Bool.and_eq_true, beq_iff_eq, participantCount_eq_zero] at hempty
    refine (ht.drop hempty.2 (hgone room mem_cons_self)).mono ?_
    rintro _ s' ⟨hs', hl', hc'⟩
    exact ⟨hrest, hs', hl.trans hl', hc'.trans hc⟩
  · rw [Bool.and_eq_true, beq_iff_eq, participantCount_eq_zero] at hempty
    exact ends_pure.2
      ⟨hrest, ht.skip fun hr => exists_of_not_forall_false fun hall => hempty ⟨hr, hall⟩, hl,
        hc⟩

theorem releaseCreatedRooms_spec (h : Leaving ext p [] s)
    (hgone : ∀ l, s.created.lookup p = some l → ∀ r ∈ l, G r) :
    Ends (releaseCreatedRooms p) s fun _ s' => Leaving ext p [] s' ∧ Leaves p G s s' ∧
      s'.created.lookup p = none := by
  rw [releaseCreatedRooms, ends_bind, ends_get]
  cases hl : s.created.lookup p with
  | none => exact ends_pure.2 ⟨h, .refl p s, hl⟩
  | some rooms =>
    have hlen := (h.creators p rooms hl).2
    have hstart : Leaving ext p rooms { s with created := s.created.erase p } := by
      refine ⟨h.alone, fun r hr => ?_, h.named, h.member, h.tokens, fun q l hq => ?_, h.nobody⟩
      · rcases h.kept r hr with hq | ⟨q, l, hq, hmem⟩ | hext | hrest
        · exact .inl hq
        · by_cases hqp : q = p
          · subst hqp
            cases hl.symm.trans hq
            exact .inr (.inr (.inr hmem))
          · exact .inr
              (.inl ⟨q, l, by rw [Assoc.lookup_erase_ite, if_neg hqp]; exact hq, hmem⟩)
        · exact .inr (.inr (.inl hext))
        · cases hrest
      · rw [Assoc.lookup_erase_ite] at hq
        split_ifs at hq
        exact h.creators q l hq
    have hleaves : Leaves p G s { s with created := s.created.erase p } :=
      .of_eq (.refl rfl) rfl rfl rfl fun q hq => lookup_erase_ne hq
    simp only [ends_bind, ends_modify, ends_assert]
    refine ⟨decide_eq_true hlen, (release_spec hstart (hgone rooms hl)).mono ?_⟩
    rintro _ s' ⟨hs', hl', hc⟩
    exact ⟨hs', hleaves.trans hl', by rw [hc, AList.lookup_erase]⟩

def Owned (s : Rooms) (p : ParticipantId) (r : RoomId) : Prop :=
  s.roomOf p = some r ∨ ∃ l, s.created.lookup p = some l ∧ r ∈ l

theorem Leaving.removed (h : Leaving ext p [] s') (hl : Leaves p (s.Owned p) s s')
    (hc : s'.created.lookup p = none) :
    Edits ext p name room [] s { s' with sessions := s'.sessions.erase p } := by
  have hof : ∀ q, Rooms.roomOf { s' with sessions := s'.sessions.erase p } q
      = if q = p then none else s'.roomOf q := by
    intro q
    rw [roomOf, Assoc.lookup_erase_ite]
    split_ifs
    · rfl
    · rfl
  have hne : ∀ {q l}, s'.created.lookup q = some l → q ≠ p := by
    rintro q l hq rfl
    rw [hc] at hq
    cases hq
  refine ⟨⟨h.alone, fun r hr => ?_, h.named, fun r q => ?_, fun q r hq => ?_, fun q l hq => ?_,
    fun h0 => ?_⟩, fun r hr => .inl (hl.live r hr), hl.next, nofun, Nat.zero_le _, hl.others,
    fun _ _ _ hp => ?_, fun q l r hq hr => .inl ⟨l, hl.others q (hne hq) ▸ hq, hr⟩, hl.lost,
    fun r n hr _ => hl.titled r n hr, fun n r hr => .inl (hl.names n r hr), fun q r hq => ?_⟩
  · rcases h.kept r hr with hq | hcr | hext | hrest
    · exact .inl hq
    · exact .inr (.inl hcr)
    · exact .inr (.inr hext)
    · cases hrest
  · rw [hof]
    refine (h.member r q).trans ?_
    split_ifs with hq
    · simp [hq]
    · simp [hq]
  · rw [hof] at hq
    split_ifs at hq with hqp
    obtain ⟨n, hn, hg⟩ := h.tokens q r hqp hq
    refine ⟨n, hn, ?_⟩
    rw [granted, Assoc.lookup_erase_ite, if_neg hqp]
    exact hg
  · exact ⟨mem_erase.2 ⟨hne hq, (h.creators q l hq).1⟩, (h.creators q l hq).2⟩
  · exact h.nobody (mem_erase.1 h0).2
  · exact absurd rfl (mem_erase.1 hp).1
  · rw [hof] at hq
    split_ifs at hq
    exact .inl (roomOf_congr hl.sessions q ▸ hq)

theorem handleLeave_spec (h : Sound ext s) (hp : p ≠ 0) : Ends (handleLeave p) s fun _ s' =>
      Leaving ext p [] s' ∧ Leaves p (s.Owned p) s s' ∧ s'.created.lookup p = none := by
  rw [handleLeave, if_neg hp, ends_bind]
  refine (cleanupParticipantRoom_spec (G := s.Owned p) h p fun _ => .inl).mono ?_
  rintro _ t ⟨ht, hl, hc⟩
  refine (releaseCreatedRooms_spec (G := s.Owned p) ht fun l hl' r hr =>
    .inr ⟨l, hc ▸ hl', hr⟩).mono ?_
  rintro _ s' ⟨hs', hl', hc⟩
  exact ⟨hs', hl.trans hl', hc⟩

theorem sound_new (config : DistributedStateConfig) : Sound [] { state := .new config } :=
  ⟨alone_new config, nofun, nofun,
    fun r q => by simp [roomOf, participantExists, getRoom, DistributedState.new], nofun, nofun,
    notMem_empty 0⟩

theorem handleConnected_spec (h : Sound ext s) (hp : p ≠ 0) (hnew : p ∉ s.sessions)
    (grant : RoomGrant) :
    Ends (handleConnected p grant) s fun _ s' => Edits ext p none none [] s s' ∧
      s' = { s with sessions := s.sessions.insert p { grant } } := by
  have hnone : s.roomOf p = none := by rw [roomOf, lookup_eq_none.2 hnew]; rfl
  have hof : ∀ q, Rooms.roomOf { s with sessions := s.sessions.insert p { grant } } q =
      s.roomOf q := by
    intro q
    rw [roomOf, Assoc.lookup_insert_ite]
    split_ifs with hq
    · rw [hq, hnone]
      rfl
    · rfl
  rw [handleConnected, if_neg hp, ends_modify]
  refine ⟨⟨⟨h.alone, h.kept, h.named, fun r q => ?_, fun q r hq => ?_, fun q l hl => ?_,
    fun h0 => ?_⟩, fun _ hr => .inl hr, le_rfl, nofun, Nat.zero_le _, fun _ _ => rfl,
    fun r _ hc _ => hc.elim id nofun, fun _ l _ hl hr => .inl ⟨l, hl, hr⟩, fun _ _ => .inl,
    fun _ _ hn _ => titled_self s hn, fun _ _ => .inl, fun q r hq => .inl (hof q ▸ hq)⟩, rfl⟩
  · rw [hof]
    exact h.member r q
  · rw [hof] at hq
    obtain ⟨n, hn, hg⟩ := h.tokens q r hq
    refine ⟨n, hn, ?_⟩
    rw [granted, lookup_insert_ne]
    · exact hg
    · rintro rfl
      rw [hnone] at hq
      cases hq
  · exact ⟨(mem_insert _).2 (.inr (h.creators q l hl).1), (h.creators q l hl).2⟩
  · exact ((mem_insert _).1 h0).elim hp.symm h.nobody

end Rooms
end NexusSfu.Orchestrator
