import NexusSfu.Api.Rest

namespace NexusSfu.Api

open Base Prog State Orchestrator DistributedState List

namespace Server

variable {sv : Server} {ext : List RoomId} {s : Rooms} {r : RoomId} {n : String}

structure Apart (sv : Server) : Prop where
  sound : sv.lobby.rooms.Sound (sv.listed.map RoomResponse.id)
  ids : ∀ q ∈ sv.lobby.rooms.sessions, q < sv.lobby.nextParticipantId
  positive : 0 < sv.lobby.nextParticipantId
  issued : ∀ p l, sv.lobby.rooms.created.lookup p = some l →
    ∀ r ∈ l, r < sv.state.nextRoomId
  unique : (sv.listed.map RoomResponse.id).Nodup
  distinct : (sv.listed.map RoomResponse.name).Nodup
  listed : ∀ e ∈ sv.listed, (e.id, e.name) ∈ sv.state.titles
  unjoined : ∀ e ∈ sv.listed, ∀ p, sv.lobby.rooms.roomOf p ≠ some e.id
  uncreated : ∀ e ∈ sv.listed, ∀ p l, sv.lobby.rooms.created.lookup p = some l → e.id ∉ l
  unnamed : ∀ e ∈ sv.listed, sv.lobby.rooms.roomNames.lookup e.name = none
  titled : ∀ r n, (r, n) ∈ sv.state.titles → n ≠ "" →
    sv.lobby.rooms.roomNames.lookup n = some r ∨ ∃ e ∈ sv.listed, e.id = r ∧ e.name = n

theorem titles_inj {d : DistributedState} (h : d.Alone) {m : String} (hn : (r, n) ∈ d.titles)
    (hm : (r, m) ∈ d.titles) : n = m := by
  obtain ⟨a, ha, heq⟩ := mem_map.1 hn
  obtain ⟨b, hb, heq'⟩ := mem_map.1 hm
  have hid : a.roomId = b.roomId := (congrArg Prod.fst heq).trans (congrArg Prod.fst heq').symm
  rw [inj_on_of_nodup_map h.ids ha hb hid] at heq
  exact congrArg Prod.snd (heq.symm.trans heq')

theorem lt_of_title {d : DistributedState} (h : d.Alone) (hn : (r, n) ∈ d.titles) :
    r < d.nextRoomId :=
  Lobby.roomExists_lt h (roomExists_iff.2 ⟨n, hn⟩)

theorem Apart.signal (h : Apart sv) {a : RoomAction}
    (ha : ∀ e ∈ sv.listed, a.name ≠ some e.name ∧ a.room ≠ some e.id) :
    ∃ sv', sv.step (.signal a) = some sv' ∧ Apart sv' := by
  obtain ⟨p, new, l', hstep, hl⟩ := Lobby.step_stepped h.sound h.ids h.positive a
  have he := hl.edits
  refine ⟨{ sv with lobby := l' }, by rw [step, hstep]; rfl, he.sound, hl.ids,
    h.positive.trans_le hl.next, fun p l hp r hr => ?_, h.unique, h.distinct, fun e hm => ?_,
    fun e hm q hq => ?_, fun e hm q l hq hr => ?_, fun e hm => ?_, fun r n hr hne => ?_⟩
  · rcases he.lists p l r hp hr with ⟨l₀, hl₀, hr₀⟩ | hnew
    · exact (h.issued p l₀ hl₀ r hr₀).trans_le he.next
    · exact Lobby.roomExists_lt he.sound.alone (he.fresh r hnew).2
  · rcases he.lost e.id e.name (h.listed e hm) with hin | hjoin | ⟨l, hl, hmem⟩
    · exact hin
    · exact absurd hjoin (h.unjoined e hm p)
    · exact absurd hmem (h.uncreated e hm p l hl)
  · exact (he.joins q e.id hq).elim (h.unjoined e hm q) (ha e hm).2
  · rcases he.lists q l e.id hq hr with ⟨l₀, hl₀, hr₀⟩ | hnew
    · exact h.uncreated e hm q l₀ hl₀ hr₀
    · exact absurd (he.fresh e.id hnew).1 (not_le.2 (lt_of_title h.sound.alone (h.listed e hm)))
  · rw [Option.eq_none_iff_forall_ne_some]
    intro r hr
    rcases he.names e.name r hr with hr | hname
    · rw [h.unnamed e hm] at hr
      cases hr
    · exact (ha e hm).1 hname
  · rcases he.titled r n hr hne with hin | ⟨hin, hnot⟩
    · exact .inl hin
    · exact .inr ((h.titled r n hin hne).resolve_left hnot)

theorem sound_opens (h : s.Sound ext) {state : DistributedState} (ho : Opens s.state state r n) :
    ({ s with state } : Rooms).Sound (ext ++ [r]) := by
  have hex : ∀ r', state.roomExists r' = true → s.state.roomExists r' = true ∨ r' = r := by
    intro r' hr'
    rw [roomExists_iff, ho.titles] at hr'
    obtain ⟨m, hm⟩ := hr'
    rcases mem_append.1 hm with hm | hm
    · exact .inl (roomExists_iff.2 ⟨m, hm⟩)
    · cases mem_singleton.1 hm
      exact .inr rfl
  refine ⟨ho.alone, fun r' hr' => ?_, fun m r' hm => ?_, fun r' q => ?_, fun q r' hq => ?_,
    h.creators, h.nobody⟩
  · rcases hex r' hr' with hr' | rfl
    · rcases h.kept r' hr' with ⟨q, hq⟩ | hl | hext
      · exact .inl ⟨q, (ho.members r' q).trans hq⟩
      · exact .inr (.inl hl)
      · exact .inr (.inr (mem_append_left _ hext))
    · exact .inr (.inr (mem_append_right _ (mem_singleton_self _)))
  · exact ho.titles ▸ mem_append_left _ (h.named m r' hm)
  · show state.participantExists r' q = true ↔ _
    rw [ho.members]
    exact h.member r' q
  · obtain ⟨m, hm, hg⟩ := h.tokens q r' hq
    exact ⟨m, ho.titles ▸ mem_append_left _ hm, hg⟩

theorem sound_becomes (h : s.Sound ext) {state : DistributedState}
    (hb : Becomes s.state state s.state.participantExists) :
    ({ s with state } : Rooms).Sound ext := by
  refine ⟨hb.alone, fun r' hr' => ?_, fun m r' hm => hb.titles ▸ h.named m r' hm,
    fun r' q => ?_, fun q r' hq => ?_, h.creators, h.nobody⟩
  · rcases h.kept r' (Rooms.roomExists_congr hb.titles r' ▸ hr') with ⟨q, hq⟩ | hl
    · exact .inl ⟨q, (hb.members r' q).trans hq⟩
    · exact .inr hl
  · show state.participantExists r' q = true ↔ _
    rw [hb.members]
    exact h.member r' q
  · obtain ⟨m, hm, hg⟩ := h.tokens q r' hq
    exact ⟨m, hb.titles ▸ hm, hg⟩

theorem Apart.becomes (h : Apart sv) {state : DistributedState}
    (hb : Becomes sv.state state sv.state.participantExists) : Apart (sv.setState state) :=
  ⟨sound_becomes h.sound hb, h.ids, h.positive,
    fun p l hl r hr => (h.issued p l hl r hr).trans_le hb.next, h.unique, h.distinct,
    fun e hm => hb.titles ▸ h.listed e hm, h.unjoined, h.uncreated, h.unnamed,
    fun r n hr => h.titled r n (hb.titles ▸ hr)⟩

theorem Apart.opens (h : Apart sv) {state : DistributedState} (ho : Opens sv.state state r n)
    (m : Nat) (hnew : ∀ e ∈ sv.listed, e.name ≠ n)
    (hname : sv.lobby.rooms.roomNames.lookup n = none) :
    Apart { sv.setState state with listed := sv.listed ++ [⟨r, n, 0, m⟩] } := by
  have hlive : (r, n) ∈ state.titles := ho.titles ▸ mem_append_right _ (mem_singleton_self _)
  have hnext : sv.state.nextRoomId ≤ state.nextRoomId :=
    ho.later.trans (lt_of_title ho.alone hlive).le
  have hmem : ∀ {P : RoomResponse → Prop}, (∀ e ∈ sv.listed, P e) → P ⟨r, n, 0, m⟩ →
      ∀ e ∈ sv.listed ++ [⟨r, n, 0, m⟩], P e := by
    intro P hold hP e he
    rcases mem_append.1 he with he | he
    · exact hold e he
    · cases mem_singleton.1 he
      exact hP
  refine ⟨?_, h.ids, h.positive, fun p l hl r' hr' => (h.issued p l hl r' hr').trans_le hnext, ?_,
    ?_, hmem (fun e he => ho.titles ▸ mem_append_left _ (h.listed e he)) hlive,
    hmem h.unjoined fun p hp => ?_, hmem h.uncreated fun p l hl hr => ?_, hmem h.unnamed hname,
    fun r' n' hr' hne => ?_⟩
  · rw [map_append]
    exact sound_opens h.sound ho
  · rw [map_append]
    refine nodup_append.2 ⟨h.unique, by simp, fun a ha b hb heq => ?_⟩
    obtain ⟨e, he, rfl⟩ := mem_map.1 ha
    have hid : e.id = r := heq.trans (mem_singleton.1 hb)
    exact absurd (lt_of_title h.sound.alone (h.listed e he)) (not_lt.2 (hid ▸ ho.later))
  · rw [map_append]
    refine nodup_append.2 ⟨h.distinct, by simp, fun a ha b hb heq => ?_⟩
    obtain ⟨e, he, rfl⟩ := mem_map.1 ha
    exact hnew e he (heq.trans (mem_singleton.1 hb))
  · have hin := (h.sound.member r p).2 hp
    rw [participantExists_of_absent ho.fresh] at hin
    cases hin
  · exact absurd (h.issued p l hl r hr) (not_lt.2 ho.later)
  · have hr' : (r', n') ∈ state.titles := hr'
    rw [ho.titles] at hr'
    rcases mem_append.1 hr' with hr' | hr'
    · rcases h.titled r' n' hr' hne with hl | ⟨e, he, hid⟩
      · exact .inl hl
      · exact .inr ⟨e, mem_append_left _ he, hid⟩
    · cases mem_singleton.1 hr'
      exact .inr ⟨_, mem_append_right _ (mem_singleton_self _), rfl, rfl⟩

theorem Apart.create (h : Apart sv) (grant : RoomGrant) (m : Nat)
    (hname : sv.lobby.rooms.roomNames.lookup n = none) :
    Ends (createRoomHandler grant n m) sv fun _ sv' => Apart sv' := by
  rw [createRoomHandler]
  split_ifs
  · exact ends_pure.2 h
  · exact ends_pure.2 h
  · exact ends_pure.2 h
  · exact ends_pure.2 h
  rw [ends_bind, ends_get]
  split_ifs with hdup
  · exact ends_pure.2 h
  have hnew : ∀ e ∈ sv.listed, e.name ≠ n := by simpa using hdup
  have hauto := h.sound.alone.createRoomAuto n m
  split at hauto
  · next id state heq =>
    simp only [heq, ends_bind, ends_set, ends_pure]
    exact h.opens hauto m hnew hname
  · next e state heq =>
    simp only [heq, ends_bind, ends_set, ends_pure]
    exact h.becomes hauto

theorem Apart.delete (h : Apart sv) {e : RoomResponse} (he : e ∈ sv.listed) :
    Apart { sv.setState (sv.state.removeRoom e.id).2 with
      listed := sv.listed.filter fun r => r.id ≠ e.id } := by
  obtain ⟨halone, htitles, hmem⟩ := h.sound.alone.removeRoom e.id
  have htitle : ∀ {r m}, (r, m) ∈ sv.state.titles → r ≠ e.id →
      (r, m) ∈ (sv.state.removeRoom e.id).2.titles := by
    intro r m hm hne
    rw [htitles]
    exact mem_filter.2 ⟨hm, decide_eq_true hne⟩
  have hold : ∀ {r m}, (r, m) ∈ (sv.state.removeRoom e.id).2.titles →
      (r, m) ∈ sv.state.titles ∧ r ≠ e.id := by
    intro r m hm
    rw [htitles] at hm
    exact (mem_filter.1 hm).imp_right fun hne => by simpa using hne
  have hsame : ∀ r q, (sv.state.removeRoom e.id).2.participantExists r q =
      sv.state.participantExists r q := by
    intro r q
    rw [hmem]
    by_cases hr : r = e.id
    · have hnone : sv.state.participantExists r q = false := by
        rw [Bool.eq_false_iff, Ne, h.sound.member, hr]
        exact h.unjoined e he q
      simp [hnone]
    · simp [hr]
  have hrest : ∀ {e'}, e' ∈ sv.listed.filter (fun r => r.id ≠ e.id) →
      e' ∈ sv.listed ∧ e'.id ≠ e.id :=
    fun hm => (mem_filter.1 hm).imp_right fun hne => by simpa using hne
  refine ⟨⟨halone, fun r hr => ?_, fun m r hm => ?_, fun r q => ?_, fun q r hq => ?_,
    h.sound.creators,
      h.sound.nobody⟩, h.ids, h.positive, h.issued, h.unique.sublist (filter_sublist.map _),
    h.distinct.sublist (filter_sublist.map _),
    fun e' hm => htitle (h.listed e' (hrest hm).1) (hrest hm).2,
    fun e' hm => h.unjoined e' (hrest hm).1, fun e' hm => h.uncreated e' (hrest hm).1,
    fun e' hm => h.unnamed e' (hrest hm).1, fun r m hr hne => ?_⟩
  · obtain ⟨m, hm⟩ := roomExists_iff.1 hr
    obtain ⟨hm, hne⟩ := hold hm
    rcases h.sound.kept r (roomExists_iff.2 ⟨m, hm⟩) with ⟨q, hq⟩ | hl | hext
    · exact .inl ⟨q, (hsame r q).trans hq⟩
    · exact .inr (.inl hl)
    · obtain ⟨e', he', rfl⟩ := mem_map.1 hext
      exact .inr (.inr (mem_map_of_mem (mem_filter.2 ⟨he', decide_eq_true hne⟩)))
  · refine htitle (h.sound.named m r hm) ?_
    rintro rfl
    have heq := titles_inj h.sound.alone (h.sound.named m e.id hm) (h.listed e he)
    have hnone : sv.lobby.rooms.roomNames.lookup m = none := heq ▸ h.unnamed e he
    cases hnone.symm.trans hm
  · show (sv.state.removeRoom e.id).2.participantExists r q = true ↔ _
    rw [hsame]
    exact h.sound.member r q
  · obtain ⟨m, hm, hg⟩ := h.sound.tokens q r hq
    exact ⟨m, htitle hm fun heq => h.unjoined e he q (heq ▸ hq), hg⟩
  · obtain ⟨hr, hid⟩ := hold hr
    rcases h.titled r m hr hne with hl | ⟨e', he', rfl, rfl⟩
    · exact .inl hl
    · exact .inr ⟨e', mem_filter.2 ⟨he', decide_eq_true hid⟩, rfl, rfl⟩

theorem length_filter_ne {l : List RoomResponse} (hu : (l.map RoomResponse.id).Nodup)
    {e : RoomResponse} (he : e ∈ l) :
    (l.filter fun r => r.id ≠ e.id).length + 1 = l.length := by
  induction l with
  | nil => cases he
  | cons a l ih =>
    obtain ⟨ha, hu⟩ := nodup_cons.1 hu
    by_cases hae : a.id = e.id
    · have hall : ∀ x ∈ l, decide (x.id ≠ e.id) = true := fun x hx =>
        decide_eq_true fun heq => ha (hae ▸ heq ▸ mem_map_of_mem hx)
      rw [filter_cons_of_neg (by simpa using hae), filter_eq_self.2 hall, length_cons]
    · have he' : e ∈ l := (mem_cons.1 he).resolve_left fun h => hae (h ▸ rfl)
      rw [filter_cons_of_pos (by simpa using hae), length_cons, length_cons, ih hu he']

theorem Apart.deleteRoom (h : Apart sv) (grant : RoomGrant) (id : RoomId) :
    Ends (deleteRoomHandler grant id) sv fun _ sv' => Apart sv' := by
  rw [deleteRoomHandler, ends_bind, ends_get]
  cases hfind : sv.listed.find? fun r => r.id = id with
  | none => exact ends_pure.2 h
  | some e =>
    have he := mem_of_find?_eq_some hfind
    have hid : e.id = id := by simpa using find?_some hfind
    subst hid
    dsimp only
    split_ifs
    · exact ends_pure.2 h
    · simp only [ends_bind, ends_assert, ends_set, ends_pure]
      exact ⟨decide_eq_true (length_filter_ne h.unique he), h.delete he⟩

theorem Apart.step (h : Apart sv) (a : ServerAction) (ha : sv.Separate a) :
    ∃ sv', sv.step a = some sv' ∧ Apart sv' := by
  have hends : ∀ {α : Type} {m : Prog Server α}, Ends m sv (fun _ sv' => Apart sv') →
      ∃ sv', (m sv).map Prod.snd = some sv' ∧ Apart sv' := by
    rintro α m ⟨a, sv', hm, hsv⟩
    exact ⟨sv', by rw [hm]; rfl, hsv⟩
  cases a with
  | signal a => exact h.signal ha
  | createRoom grant name n => exact hends (h.create grant n ha)
  | listRooms grant => exact hends (ends_bind.2 (ends_get.2 (ends_pure.2 h)))
  | getRoom grant id =>
    refine hends ?_
    rw [getRoomHandler, ends_bind, ends_get]
    split
    · exact ends_pure.2 h
    · split_ifs
      · exact ends_pure.2 h
      · exact ends_pure.2 h
  | deleteRoom grant id => exact hends (h.deleteRoom grant id)

theorem apart_new (config : DistributedStateConfig) : Apart (new config) :=
  ⟨Rooms.sound_new config, nofun, Nat.one_pos, nofun, nodup_nil, nodup_nil, nofun,
    nofun, nofun, nofun, nofun⟩

theorem Apart.agrees (h : Apart sv) : Agrees sv := by
  have hroom : ∀ {r n}, (r, n) ∈ sv.state.titles → ∃ room ∈ sv.state.rooms,
      room.roomId = r ∧ room.name = n := by
    intro r n hn
    obtain ⟨room, hroom, heq⟩ := mem_map.1 hn
    cases heq
    exact ⟨room, hroom, rfl, rfl⟩
  refine ⟨fun e he => ?_, fun a ha b hb hne heq => ?_⟩
  · obtain ⟨room, hmem, hid, hname⟩ := hroom (h.listed e he)
    exact ⟨room, (getRoom_eq_some h.sound.alone.ids).2 ⟨hmem, hid⟩, hname⟩
  · refine inj_on_of_nodup_map h.sound.alone.ids ha hb ?_
    have hta : (a.roomId, a.name) ∈ sv.state.titles := mem_map_of_mem ha
    have htb : (b.roomId, a.name) ∈ sv.state.titles := heq ▸ mem_map_of_mem hb
    rcases h.titled _ _ hta hne with hla | ⟨e, he, hid, hname⟩
    · rcases h.titled _ _ htb hne with hlb | ⟨e, he, hid, hname⟩
      · exact Option.some.inj (hla.symm.trans hlb)
      · rw [← hname, h.unnamed e he] at hla
        cases hla
    · rcases h.titled _ _ htb hne with hlb | ⟨e', he', hid', hname'⟩
      · rw [← hname, h.unnamed e he] at hlb
        cases hlb
      · rw [← hid, ← hid', inj_on_of_nodup_map h.distinct he he' (hname.trans hname'.symm)]

/-- While nobody joins a room the REST server created and the two sides use different names, the
REST list and the shared state agree. -/
theorem rest_agrees (config : DistributedStateConfig) (as : List ServerAction)
    (h : Permitted Separate step (new config) as) :
    ∃ sv, run step (new config) as = some sv ∧ sv.Agrees := by
  obtain ⟨sv, hrun, hsv⟩ :=
    permitted_invariant (fun _ a h ha => h.step a ha) (apart_new config) h
  exact ⟨sv, hrun, hsv.agrees⟩

def bothSides : List ServerAction :=
  [.createRoom .any "a" 10, .createRoom .any "b" 10, .signal (.connect .any),
    .signal (.message 1 (.create (some "c"))), .signal (.message 1 (.join 3 "")),
    .deleteRoom .any 1]

theorem rest_agrees_bothSides :
    ∃ sv, run step (new { localActor := 0 }) bothSides = some sv ∧ sv.Agrees :=
  rest_agrees { localActor := 0 } bothSides (by decide +kernel)

/-- A room that was joined and left is gone from the shared state but still listed, and one name
created on both sides is two rooms. -/
theorem rest_disagrees : (∃ as sv, run step (new { localActor := 0 }) as = some sv ∧
      ∃ e ∈ sv.listed, sv.state.getRoom e.id = none) ∧
    ∃ as sv, run step (new { localActor := 0 }) as = some sv ∧
      sv.state.titles = [(1, "a"), (2, "a")] := by
  have hreach : ∀ (as : List ServerAction) {P : Server → Prop} [DecidablePred P],
      (run step (new { localActor := 0 }) as).any (fun sv => P sv) = true →
        ∃ as sv, run step (new { localActor := 0 }) as = some sv ∧ P sv := by
    intro as P _ h
    obtain ⟨sv, hrun, hP⟩ := (Option.any_eq_true _ _).1 h
    exact ⟨as, sv, hrun, of_decide_eq_true hP⟩
  refine ⟨hreach [.createRoom .any "a" 10, .signal (.connect .any),
    .signal (.message 1 (.join 1 "")), .signal (.message 1 .leave)] ?_,
    hreach [.createRoom .any "a" 10, .signal (.connect .any),
      .signal (.message 1 (.create (some "a")))] ?_⟩
  · decide +kernel
  · decide +kernel

end Server
end NexusSfu.Api
