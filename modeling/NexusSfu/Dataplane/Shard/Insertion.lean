import NexusSfu.Dataplane.Shard.Removal

namespace NexusSfu.Dataplane

open Base Prog Srtp Option Function List

namespace Session

variable {s v : Session} {x : Key} {ssrc : UInt32}

theorem new_wellFormed (id : SessionId) (ice : IceParams) (base : UInt32) (now : Nat) :
    (new id ice base now).WellFormed where
  ssrcs_nodup := nodup_nil
  trackCount_le := Nat.zero_le _
  subs_le := Nat.zero_le _
  addr_ne _ h := nomatch h
  nomination_ne _ h := nomatch h
  srtp_iff := rfl
  inbound _ h := nomatch h

theorem new_sends (id : SessionId) (ice : IceParams) (base : UInt32) (now : Nat) :
    (new id ice base now).Sends [] :=
  ⟨List.Pairwise.nil, by simp, UInt32.zero_le, fun _ h => nomatch h⟩

def list (s : Session) (ssrc : Option UInt32) (x : Key) : Session :=
  match ssrc with
  | some ssrc => { s with published := (s.published.push (ssrc, x)).2 }
  | none => { s with unbound := (s.unbound.push x).2 }

structure Listed (s : Session) (x : Key) (v : Session) : Prop where
  perm : v.tracks.Perm (x :: s.tracks)
  wellFormed : v.WellFormed
  outline : v.outline = s.outline
  subs : v.subs = s.subs
  srtpOut : v.srtpOut = s.srtpOut

theorem list_bound (h : s.WellFormed) (hcount : s.trackCount < maxTracksPerSession)
    (hnew : ssrc ∉ s.ssrcs) (x : Key) {srtpIn : Option SrtpInbound}
    (hsome : srtpIn.isSome = s.srtpIn.isSome)
    (hin : ∀ i, srtpIn = some i → i.Mirrors (s.ssrcs ++ [ssrc])) :
    s.Listed x ({ s with srtpIn }.list (some ssrc) x) := by
  have hlt : s.published.items.length < maxTracksPerSession := by
    rw [trackCount] at hcount
    omega
  have hitems := (FixedVec.push_of_lt (x := (ssrc, x)) hlt).2
  have hssrcs : ({ s with srtpIn }.list (some ssrc) x).ssrcs = s.ssrcs ++ [ssrc] := by
    simp [ssrcs, list, hitems]
  refine ⟨?_, ⟨?_, ?_, h.subs_le, h.addr_ne, h.nomination_ne, hsome.trans h.srtp_iff, ?_⟩,
    rfl, rfl, rfl⟩
  · simp only [tracks, list, hitems, map_append, map_cons, map_nil, append_assoc,
      singleton_append]
    exact perm_middle
  · rw [hssrcs]
    refine nodup_append.2 ⟨h.ssrcs_nodup, nodup_singleton _, ?_⟩
    rintro a ha b hb rfl
    exact hnew (mem_singleton.1 hb ▸ ha)
  · rw [trackCount] at hcount
    simp only [trackCount, list, hitems, length_append, length_singleton]
    omega
  · rw [hssrcs]
    exact hin

theorem list_unbound (h : s.WellFormed) (hcount : s.trackCount < maxTracksPerSession) (x : Key) :
    s.Listed x (s.list none x) := by
  rw [trackCount] at hcount
  have hitems := (FixedVec.push_of_lt (v := s.unbound) (x := x) (by omega)).2
  refine ⟨?_, ⟨h.ssrcs_nodup, ?_, h.subs_le, h.addr_ne, h.nomination_ne, h.srtp_iff,
    h.inbound⟩, rfl, rfl, rfl⟩
  · simp only [tracks, list, hitems, ← append_assoc]
    exact perm_append_singleton x _
  · simp only [trackCount, list, hitems, length_append, length_singleton]
    omega

theorem Sends.extend {out : List UInt32} {srtpOut : Option SrtpOutbound} (h : s.Sends out)
    (hlt : s.lastOutSsrcOffset < s.outSsrcOffset ssrc)
    (hmax : s.outSsrcOffset ssrc ≤ maxOutSsrcOffset) (subs : List Key)
    (hout : ∀ o, srtpOut = some o → o.Mirrors s.outSsrcBase (s.outSsrcOffset ssrc)
      (out ++ [ssrc])) :
    { s with srtpOut, lastOutSsrcOffset := s.outSsrcOffset ssrc, subs }.Sends (out ++ [ssrc]) where
  increasing := by
    refine pairwise_append.2 ⟨h.increasing, pairwise_singleton _ _, fun x hx y hy => ?_⟩
    rw [mem_singleton.1 hy]
    exact UInt32.lt_of_le_of_lt (h.offset x hx).2 hlt
  offset x hx := by
    rcases mem_append.1 hx with hx | hx
    · exact ⟨(h.offset x hx).1, UInt32.le_of_lt (UInt32.lt_of_le_of_lt (h.offset x hx).2 hlt)⟩
    · rw [mem_singleton.1 hx]
      exact ⟨UInt32.lt_of_le_of_lt UInt32.zero_le hlt, UInt32.le_refl _⟩
  last_le := hmax
  outbound := hout

end Session

namespace Tables

variable {t t' : Tables} {k x y : Key} {s v : Session} {tr : PublishedTrack} {b : Subscription}
  {maxSessions : Nat} {sessions : Slab Session} {tracks : Slab PublishedTrack}
  {subs : Slab Subscription} {ssrc : UInt32}

theorem Inv.rewritten (h : t.Inv maxSessions) (hs : t.sessions.get k = some s)
    (hlinks : v.links = s.links) (hwf : v.WellFormed) (hsends : v.Sends (t.sentBy s.subs))
    (hw : t.sessions.Wrote k v sessions) : { t with sessions }.Inv maxSessions := by
  refine ⟨h.linked.of_links (project_set Session.links hw.get hs hlinks) rfl rfl rfl
    rfl rfl rfl rfl
    rfl, ?_, ?_, hw.slotCount ▸ h.slots, hw.len ▸ h.len⟩
  · simp only [hw.get]
    exact forall_update hwf fun j r _ => h.wellFormed j r
  · simp only [hw.get]
    refine forall_update (P := fun r => r.Sends (t.sentBy r.subs)) ?_ fun j r _ => h.sends j r
    have hsubs : v.subs = s.subs := congrArg (fun p => p.2.2.1) hlinks
    rwa [hsubs]

theorem refused {α : Type} {e : CommandError} {P : CommandError → Prop}
    {Q : Except CommandError α → Tables → Prop} (he : P e) :
    Ends (pure (.error e)) t fun r t' => ((∃ e, r = .error e ∧ P e) ∧ t' = t) ∨ Q r t' :=
  ends_pure.2 (.inl ⟨⟨e, rfl, he⟩, rfl⟩)

section CreateSession

variable {id : SessionId} {ice : IceParams} {base : UInt32} {now : Nat}

theorem Inv.opened (h : t.Inv maxSessions) (hid : id ∉ t.sessionIds)
    (hufrag : ice.localUfrag ∉ t.byUfrag) (hk : t.sessions.get k = none)
    (hsessions : sessions.get = update t.sessions.get k (some (.new id ice base now)))
    (hlen : sessions.len ≤ maxSessions) (hslots : sessions.slotCount ≤ maxSessions) : { t with
      sessions
      sessionIds := t.sessionIds.insert id k
      byUfrag := t.byUfrag.insert ice.localUfrag k }.Inv maxSessions := by
  refine ⟨⟨?_, ?_, h.linked.trackIds, h.linked.subIds, ?_, h.linked.trackSubs, ?_,
    fun a j => ?_, h.linked.switches_nodup, fun j => ?_⟩, ?_, ?_, hslots, hlen⟩
  · simp only [hsessions, project_update, lookup_insert]
    exact h.linked.sessionIds.insert (Finmap.lookup_eq_none.2 hid) (by simp [hk])
  · simp only [hsessions, project_update, lookup_insert]
    exact h.linked.ufrags.insert (Finmap.lookup_eq_none.2 hufrag) (by simp [hk])
  · simp only [hsessions, project_update]
    exact h.linked.sessionSubs.opened (by simp [hk])
  · simp only [hsessions, project_update]
    exact h.linked.sessionTracks.opened (by simp [hk])
  · simp only [hsessions, project_update, h.linked.addrs a j]
    by_cases hj : j = k
    · subst hj
      simp [hk, Session.addrs, Session.new]
    · simp [hj]
  · simp only [hsessions, project_update, h.linked.switches j]
    by_cases hj : j = k
    · subst hj
      simp [hk, Session.new]
    · simp [hj]
  · simp only [hsessions]
    exact forall_update (Session.new_wellFormed ..) fun j r _ => h.wellFormed j r
  · simp only [hsessions]
    exact forall_update (P := fun r => r.Sends (t.sentBy r.subs)) (Session.new_sends ..)
      fun j r _ => h.sends j r

theorem createSession_spec (h : t.Inv maxSessions) (hmax : maxSessions ≤ maxWebrtcSessions)
    (id : SessionId) (ice : IceParams) (base : UInt32) (now : Nat) :
    Ends (createSession maxSessions id ice base now) t fun r t' =>
      ((∃ e, r = .error e ∧ e ≠ .srtpSetup) ∧ t' = t) ∨
      (r = .ok () ∧ t'.Inv maxSessions ∧ id ∉ t.sessionIds ∧
        ∃ k, t.sessions.get k = none ∧
        t'.sessionIds = t.sessionIds.insert id k ∧ project t'.sessions.get Session.told =
          update (project t.sessions.get Session.told) k
          (some (id, none, false, false, none))) := by
  rw [createSession, ends_bind, ends_get]
  split_ifs with hdup hfull
  · exact refused nofun
  · exact refused nofun
  have hmax' : maxSessions ≤ 100000 := hmax
  have hlt : t.sessions.len < 2 ^ 32 := by omega
  obtain ⟨k, sessions, hins, hk, hlen, hslots, hsessions⟩ :=
    Slab.insert_spec hlt (Session.new id ice base now)
  have hno := not_or.1 hdup
  have hlen' : sessions.len ≤ maxSessions := by omega
  have hslots' : sessions.slotCount ≤ maxSessions := by
    have := h.slots
    omega
  simp only [ends_bind, ends_expect, ends_set]
  refine ⟨_, hins, ends_pure.2 (.inr ⟨rfl, ?_, hno.1, k, hk, rfl, ?_⟩)⟩
  · exact h.opened hno.1 hno.2 hk hsessions hlen' hslots'
  · simp only [hsessions, project_update]
    rfl

end CreateSession

section AddTrack

variable {id : TrackId} {spec : TrackSpec}

theorem pinSsrc_spec {l : List UInt32} (hs : t.sessions.get k = some s)
    (hin : ∀ i, s.srtpIn = some i → i.Mirrors l) (hnew : ssrc ∉ l)
    (hlen : l.length < inboundPinnedMax) {Q : Except SrtpError Unit → Tables → Prop}
    (hq : ∀ (sessions : Slab Session) (srtpIn : Option SrtpInbound),
      t.sessions.Wrote k { s with srtpIn } sessions →
      srtpIn.isSome = s.srtpIn.isSome → (∀ i, srtpIn = some i → i.Mirrors (l ++ [ssrc])) →
      Q (.ok ()) { t with sessions }) : Ends (pinSsrc k ssrc) t Q := by
  rw [pinSsrc, ends_bind]
  refine ends_session hs ?_
  cases hsrtp : s.srtpIn with
  | none =>
    refine ends_pure.2 (hq t.sessions none ?_ (by simp [hsrtp]) (by simp))
    rw [← hsrtp]
    exact .refl hs
  | some i =>
    obtain ⟨i', hpin, hi'⟩ := (hin i hsrtp).pin hnew hlen
    simp only [ends_bind, ends_expect]
    refine ⟨_, hpin, ends_setSession hs fun sessions hw => ends_pure.2 ?_⟩
    refine hq sessions (some i') hw (by simp [hsrtp]) fun j hj => ?_
    rw [← Option.some.inj hj]
    exact hi'

theorem insertTrack_spec (hs : t.sessions.get k = some s) (hlt : t.tracks.len < 2 ^ 32)
    (hcount : s.trackCount < maxTracksPerSession) {Q : Unit → Tables → Prop}
    (hq : ∀ (x : Key) (tracks : Slab PublishedTrack) (sessions : Slab Session),
      t.tracks.get x = none → tracks.get = update t.tracks.get x (some (.new id k spec)) →
      t.sessions.Wrote k ((s.list spec.ssrc x)) sessions →
      Q () { t with tracks, sessions, trackIds := t.trackIds.insert id x }) :
    Ends (insertTrack k id spec) t Q := by
  obtain ⟨x, tracks, hins, hx, -, -, htracks⟩ :=
    Slab.insert_spec hlt (PublishedTrack.new id k spec)
  rw [Session.trackCount] at hcount
  rw [insertTrack, ends_bind, ends_get, ends_bind, ends_expect]
  refine ⟨_, hins, ?_⟩
  simp only [ends_bind, ends_set]
  refine ends_session (by exact hs) ?_
  cases hssrc : spec.ssrc
  all_goals
    simp only [ends_bind]
    refine ends_setSession (by exact hs) fun sessions hw => ?_
    refine ends_assert.2 ⟨(FixedVec.push_of_lt (by omega)).1, ends_modify.2 ?_⟩
    refine hq x tracks sessions hx htracks ?_
    rw [hssrc]
    exact hw

theorem Inv.tracked (h : t.Inv maxSessions) (hs : t.sessions.get k = some s) (hv : s.Listed x v)
    (hx : t.tracks.get x = none) (hid : id ∉ t.trackIds)
    (htracks : tracks.get = update t.tracks.get x (some (.new id k spec)))
    (hw : t.sessions.Wrote k v sessions) :
    { t with tracks, sessions, trackIds := t.trackIds.insert id x }.Inv maxSessions := by
  refine h.relisted hs hv.wellFormed hv.outline hv.subs hv.srtpOut hw ?_ ?_ ?_
  · simp only [htracks, project_update, lookup_insert]
    exact h.linked.trackIds.insert (Finmap.lookup_eq_none.2 hid) (by simp [hx])
  · simp only [htracks, project_update]
    exact h.linked.trackSubs.opened (by simp [hx])
  · simp only [hw.get, htracks, project_update]
    exact h.linked.sessionTracks.add (by simp [hs]) (by simp [hx]) hv.perm

theorem told_of_outline (hs : t.sessions.get k = some s) (hv : v.outline = s.outline)
    (hsessions : sessions.get = update t.sessions.get k (some v)) :
    project sessions.get Session.told = project t.sessions.get Session.told :=
  project_set Session.told hsessions hs (congrArg Session.told hv :)

theorem Inv.tracks_lt (h : t.Inv maxSessions) (hmax : maxSessions ≤ maxWebrtcSessions) :
    t.tracks.len < 2 ^ 32 := by
  have hle := h.tracks_le
  have hlen := h.len
  have hmax' : maxSessions ≤ 100000 := hmax
  simp only [maxTracksPerSession] at hle
  omega

theorem ssrc_not_mem (h : s.trackOfSsrc ssrc = none) : ssrc ∉ s.ssrcs := by
  intro hm
  obtain ⟨p, hp, rfl⟩ := mem_map.1 hm
  rw [Session.trackOfSsrc, map_eq_none_iff, find?_eq_none] at h
  exact h p hp (by simp)

theorem addTrack_spec (h : t.Inv maxSessions) (hmax : maxSessions ≤ maxWebrtcSessions)
    (sid : SessionId) (id : TrackId) (spec : TrackSpec) : Ends (addTrack sid id spec) t fun r t' =>
      ((∃ e, r = .error e ∧ e ≠ .srtpSetup) ∧ t' = t) ∨
        (r = .ok () ∧ t'.Inv maxSessions ∧ t.SameTold t') := by
  rw [addTrack, ends_bind, ends_get]
  cases hsid : t.sessionIds.lookup sid with
  | none => exact refused nofun
  | some k =>
    obtain ⟨s, hs, -⟩ := map_eq_some_iff.1 ((h.linked.sessionIds sid k).1 hsid)
    have hwf := h.wellFormed k s hs
    simp only
    split_ifs with hdup
    · exact refused nofun
    refine ends_bind.2 (ends_session hs ?_)
    split_ifs with hfull
    · exact refused nofun
    have hcount : s.trackCount < maxTracksPerSession := by omega
    cases hssrc : spec.ssrc with
    | some ssrc =>
      simp only
      split_ifs with huse
      · exact refused nofun
      have hnew : ssrc ∉ s.ssrcs := ssrc_not_mem (by simpa using huse)
      have hlen : s.ssrcs.length < inboundPinnedMax := by
        have hlt : s.published.items.length + s.unbound.items.length < 10 := hcount
        rw [Session.ssrcs, length_map, inboundPinnedMax]
        omega
      refine ends_bind.2 (pinSsrc_spec hs hwf.inbound hnew hlen
        fun sessions srtpIn hw hsome hin => ?_)
      refine ends_bind.2
        (insertTrack_spec (t := { t with sessions }) hw.get_self (h.tracks_lt hmax) hcount
        fun x tracks sessions' hx htracks hw' => ends_pure.2 (.inr ?_))
      rw [hssrc] at hw'
      have hv := Session.list_bound hwf hcount hnew x hsome hin
      exact ⟨rfl, h.tracked hs hv hx hdup htracks (hw.trans hw'), rfl,
        told_of_outline hs hv.outline (hw.trans hw').get⟩
    | none =>
      refine ends_bind.2 (insertTrack_spec hs (h.tracks_lt hmax) hcount
        fun x tracks sessions hx htracks hw => ends_pure.2 (.inr ?_))
      rw [hssrc] at hw
      have hv := Session.list_unbound hwf hcount x
      exact ⟨rfl, h.tracked hs hv hx hdup htracks hw, rfl,
        told_of_outline hs hv.outline hw.get⟩

end AddTrack

section AddSubscription

variable {id : SubscriptionId} {spec : SubSpec} {offset : UInt32} {srtpOut : Option SrtpOutbound}

theorem registerSsrc_spec {out : List UInt32} (hs : t.sessions.get k = some s)
    (hsends : s.Sends out) (hlen : out.length + 1 < outboundSsrcSlots)
    (hlt : s.lastOutSsrcOffset < s.outSsrcOffset ssrc)
    (hmax : s.outSsrcOffset ssrc ≤ maxOutSsrcOffset)
    {Q : Except SrtpError Unit → Tables → Prop}
    (hq : ∀ (sessions : Slab Session) (srtpOut : Option SrtpOutbound),
      t.sessions.Wrote k { s with srtpOut } sessions → srtpOut.isSome = s.srtpOut.isSome →
      (∀ o, srtpOut = some o → o.Mirrors s.outSsrcBase (s.outSsrcOffset ssrc)
        (out ++ [ssrc])) →
      Q (.ok ()) { t with sessions }) : Ends (registerSsrc k ssrc) t Q := by
  rw [registerSsrc, ends_bind]
  refine ends_session hs ?_
  cases hsrtp : s.srtpOut with
  | none =>
    refine ends_pure.2 (hq t.sessions none ?_ (by simp [hsrtp]) (by simp))
    rw [← hsrtp]
    exact .refl hs
  | some o =>
    obtain ⟨o', hreg, ho'⟩ := (hsends.outbound o hsrtp).register hlen hlt hmax
    simp only [ends_bind, ends_expect]
    refine ⟨_, hreg, ends_setSession hs fun sessions hw => ends_pure.2 ?_⟩
    refine hq sessions (some o') hw (by simp [hsrtp]) fun j hj => ?_
    rw [← Option.some.inj hj]
    exact ho'

theorem sentBy_append {l : List Key} (hb : subs.get = update t.subs.get x (some b)) (hx : x ∉ l) :
    { t with subs }.sentBy (l ++ [x]) = t.sentBy l ++ [b.rewrite.outSsrc] := by
  have hlast : project subs.get Subscription.outSsrc x = some b.rewrite.outSsrc := by
    simp [hb, Subscription.outSsrc]
  have hfirst := sentBy_update hb hx
  simp only [sentBy] at hfirst ⊢
  rw [filterMap_append, hfirst]
  simp only [filterMap_cons_some hlast, filterMap_nil]

theorem Inv.subscribed (h : t.Inv maxSessions) (hs : t.sessions.get k = some s)
    (htr : t.tracks.get y = some tr) (hx : t.subs.get x = none) (hid : b.id ∉ t.subIds)
    (hbs : b.session = k) (hbt : b.track = y) (hsize : s.subs.length < maxSubsPerSession)
    (hsome : srtpOut.isSome = s.srtpOut.isSome)
    (hsends : { s with srtpOut, lastOutSsrcOffset := offset, subs := s.subs ++ [x] }.Sends
      (t.sentBy s.subs ++ [b.rewrite.outSsrc])) (hsubs : subs.get = update t.subs.get x (some b))
    (hw : t.sessions.Wrote k { s with srtpOut, lastOutSsrcOffset := offset, subs := s.subs ++ [x] }
      sessions)
    (htracks : tracks.get = update t.tracks.get y
      (some { tr with subscribers := tr.subscribers ++ [x] })) :
    { t with subs, sessions, tracks, subIds := t.subIds.insert b.id x }.Inv maxSessions := by
  have hwf := h.wellFormed k s hs
  have hfresh : ∀ j r, t.sessions.get j = some r → x ∉ r.subs := by
    intro j r hr hm
    obtain ⟨b', hb', -⟩ := h.linked.sub_of_session hr hm
    simp [hx] at hb'
  refine h.relinked hs hw ⟨rfl, rfl, rfl, rfl⟩ ?_ ?_ (fun j r _ hr => ?_) ?_ ?_ ?_ ?_ ?_
  · refine ⟨hwf.ssrcs_nodup, hwf.trackCount_le, ?_, hwf.addr_ne, hwf.nomination_ne,
      hwf.srtp_iff.trans hsome.symm, hwf.inbound⟩
    simpa [Nat.succ_le_iff] using hsize
  · rwa [← sentBy_append hsubs (hfresh k s hs)] at hsends
  · exact sentBy_update hsubs (hfresh j r hr)
  · rw [project_set PublishedTrack.id htracks htr rfl]
    exact h.linked.trackIds
  · simp only [hsubs, project_update, lookup_insert]
    exact h.linked.subIds.insert (Finmap.lookup_eq_none.2 hid) (by simp [hx])
  · simp only [hw.get, hsubs, project_update, hbs]
    exact h.linked.sessionSubs.add (by simp [hs]) (by simp [hx]) (perm_append_singleton x _)
  · simp only [htracks, hsubs, project_update, hbt]
    exact h.linked.trackSubs.add (by simp [htr]) (by simp [hx]) (perm_append_singleton x _)
  · rw [project_set Session.tracks hw.get hs rfl,
      project_set PublishedTrack.session htracks htr rfl]
    exact h.linked.sessionTracks

theorem Inv.subs_lt (h : t.Inv maxSessions) (hmax : maxSessions ≤ maxWebrtcSessions) :
    t.subs.len < 2 ^ 32 := by
  have hle := h.subs_le
  have hlen := h.len
  have hmax' : maxSessions ≤ 100000 := hmax
  simp only [maxSubsPerSession] at hle
  omega

theorem addSubscription_spec (h : t.Inv maxSessions) (hmax : maxSessions ≤ maxWebrtcSessions)
    (shard : ShardId) (sid : SessionId) (id : SubscriptionId) (track : TrackId) (spec : SubSpec) :
    Ends (addSubscription shard sid id track spec) t fun r t' =>
      ((∃ e, r = .error e ∧ e ≠ .srtpSetup) ∧ t' = t) ∨
      (t'.Inv maxSessions ∧ t.SameTold t' ∧ ∃ k y s tr, r = .ok (k, y) ∧
        t'.sessions.get k = some s ∧ t'.tracks.get y = some tr) := by
  rw [addSubscription, ends_bind, ends_get]
  cases hsid : t.sessionIds.lookup sid with
  | none => exact refused nofun
  | some k =>
  cases htid : t.trackIds.lookup track with
  | none => exact refused nofun
  | some y =>
    obtain ⟨s, hs, -⟩ := map_eq_some_iff.1 ((h.linked.sessionIds sid k).1 hsid)
    obtain ⟨tr, htr, -⟩ := map_eq_some_iff.1 ((h.linked.trackIds track y).1 htid)
    simp only
    split_ifs with hdup hshard hext
    · exact refused nofun
    · exact refused nofun
    · exact refused nofun
    refine ends_bind.2 (ends_session hs ?_)
    split_ifs with hfull hoff
    · exact refused nofun
    · exact refused nofun
    obtain ⟨hlt, hle⟩ := not_or.1 hoff
    have hlt := UInt32.not_le.1 hlt
    have hle := UInt32.not_lt.1 hle
    have hsize : s.subs.length < maxSubsPerSession := by omega
    have hlen : (t.sentBy s.subs).length + 1 < outboundSsrcSlots := by
      have hsent : (t.sentBy s.subs).length ≤ s.subs.length := length_filterMap_le ..
      have : s.subs.length < 31 := hsize
      rw [outboundSsrcSlots]
      omega
    refine ends_bind.2 (registerSsrc_spec hs (h.sends k s hs) hlen hlt hle
      fun sessions srtpOut hw hsome hout => ?_)
    have hs₁ := hw.get_self
    refine ends_bind.2 (ends_session (by exact hs₁) ?_)
    refine ends_bind.2 (ends_setSession (by exact hs₁) fun sessions₂ hw₂ => ?_)
    have hs₂ := hw₂.get_self
    rw [insertSubscription]
    simp only [ends_bind]
    refine ends_track (by exact htr) ?_
    obtain ⟨x, subs, hins, hx, -, -, hsubs⟩ := Slab.insert_spec (h.subs_lt hmax) _
    refine ends_get.2 (ends_expect.2 ⟨_, hins, ?_⟩)
    refine ends_set.2 (ends_session (by exact hs₂) ?_)
    refine ends_setSession (by exact hs₂) fun sessions₃ hw₃ => ?_
    refine ends_setTrack (by exact htr) fun tracks htracks => ?_
    refine ends_modify.2 (ends_pure.2 (.inr ?_))
    have hw₃ := hw.trans (hw₂.trans hw₃)
    have hsends := (h.sends k s hs).extend hlt hle (s.subs ++ [x]) hout
    refine ⟨?_, ⟨rfl, project_set Session.told hw₃.get hs rfl⟩, k, y, _, _, rfl,
      hw₃.get_self, (congrFun htracks y).trans (update_self ..)⟩
    exact h.subscribed hs htr hx hdup rfl rfl hsize hsome hsends hsubs hw₃ htracks

end AddSubscription

section SetupSrtp

variable {base last top : UInt32} {done ssrcs : List UInt32}

theorem outSsrcs_spec {l : List Key} (hl : ∀ x ∈ l, ∃ b, t.subs.get x = some b)
    {Q : List UInt32 → Tables → Prop} (hq : Q (t.sentBy l) t) : Ends (outSsrcs l) t Q := by
  induction l generalizing Q with
  | nil => exact ends_pure.2 hq
  | cons x l ih =>
    obtain ⟨b, hb⟩ := hl x mem_cons_self
    rw [outSsrcs, ends_bind]
    refine ends_sub hb ?_
    refine ends_bind.2 (ih (fun y hy => hl y (mem_cons_of_mem _ hy)) (ends_pure.2 ?_))
    have hout : project t.subs.get Subscription.outSsrc x = some b.rewrite.outSsrc := by
      simp [hb, Subscription.outSsrc]
    rwa [sentBy, filterMap_cons_some hout] at hq

theorem registerAll_spec {o : SrtpOutbound} (h : o.Mirrors base last done)
    (hinc : ssrcs.Pairwise fun x y => x - base < y - base)
    (hoff : ∀ x ∈ ssrcs, last < x - base ∧ x - base ≤ top) (htop : top ≤ maxSsrcOffset)
    (hlast : last ≤ top) (hlen : done.length + ssrcs.length < outboundSsrcSlots)
    {Q : Except SrtpError SrtpOutbound → Tables → Prop}
    (hq : ∀ o' : SrtpOutbound, o'.Mirrors base top (done ++ ssrcs) → Q (.ok o') t) :
    Ends (registerAll o ssrcs) t Q := by
  induction ssrcs generalizing o last done with
  | nil =>
    rw [append_nil] at hq
    exact ends_pure.2 (hq o (h.mono hlast))
  | cons x ssrcs ih =>
    rw [length_cons] at hlen
    obtain ⟨hx, hxs⟩ := pairwise_cons.1 hinc
    obtain ⟨hlt, hle⟩ := hoff x mem_cons_self
    obtain ⟨o', hreg, ho'⟩ := h.register (by omega) hlt (UInt32.le_trans hle htop)
    rw [registerAll, ends_bind, ends_expect]
    refine ⟨_, hreg,
      ih ho' hxs (fun y hy => ⟨hx y hy, (hoff y (mem_cons_of_mem _ hy)).2⟩) hle ?_ ?_⟩
    · simp only [length_append, length_singleton]
      omega
    · simpa only [append_assoc, singleton_append] using hq

theorem pinAll_spec {i : SrtpInbound} (h : i.Mirrors done) (hnodup : (done ++ ssrcs).Nodup)
    (hlen : done.length + ssrcs.length ≤ inboundPinnedMax)
    {Q : Except SrtpError SrtpInbound → Tables → Prop}
    (hq : ∀ i' : SrtpInbound, i'.Mirrors (done ++ ssrcs) → Q (.ok i') t) :
    Ends (pinAll i ssrcs) t Q := by
  induction ssrcs generalizing i done with
  | nil =>
    rw [append_nil] at hq
    exact ends_pure.2 (hq i h)
  | cons x ssrcs ih =>
    rw [length_cons] at hlen
    have hnew : x ∉ done := fun hm =>
      disjoint_of_nodup_append hnodup hm mem_cons_self
    obtain ⟨i', hpin, hi'⟩ := h.pin hnew (by omega)
    rw [pinAll, ends_bind, ends_expect]
    refine ⟨_, hpin, ih hi' ?_ ?_ ?_⟩
    · simpa only [append_assoc, singleton_append] using hnodup
    · simp only [length_append, length_singleton]
      omega
    · simpa only [append_assoc, singleton_append] using hq

theorem setupSrtp_spec (h : t.Inv maxSessions) (sid : SessionId) (keys : SrtpInstall) :
    Ends (setupSrtp sid keys) t fun r t' =>
      ((∃ e, r = .error e ∧ (e = .srtpSetup →
        keys.remote.deriveKeys.isOk = false ∨ keys.local.deriveKeys.isOk = false)) ∧ t' = t) ∨
      (t'.Inv maxSessions ∧ t.SameTold t' ∧ ∃ k s, r = .ok k ∧
        t'.sessions.get k = some s) := by
  rw [setupSrtp, ends_bind, ends_get]
  cases hsid : t.sessionIds.lookup sid with
  | none => exact refused nofun
  | some k =>
    obtain ⟨s, hs, -⟩ := map_eq_some_iff.1 ((h.linked.sessionIds sid k).1 hsid)
    have hwf := h.wellFormed k s hs
    have hsends := h.sends k s hs
    refine ends_bind.2 (ends_session hs ?_)
    split_ifs with hin
    · exact refused nofun
    have hout : s.srtpOut.isNone := by
      rw [Bool.not_eq_true, hwf.srtp_iff] at hin
      simpa using hin
    refine ends_bind.2 (ends_assert.2 ⟨hout, ?_⟩)
    cases hremote : keys.remote.deriveKeys with
    | error e => exact ends_pure.2 (.inl ⟨⟨_, rfl, fun _ => .inl rfl⟩, rfl⟩)
    | ok remote =>
    cases hlocal : keys.local.deriveKeys with
    | error e => exact ends_pure.2 (.inl ⟨⟨_, rfl, fun _ => .inr rfl⟩, rfl⟩)
    | ok «local» =>
    refine ends_bind.2 (outSsrcs_spec (fun x hx => ?_) ?_)
    · obtain ⟨b, hb, -⟩ := h.linked.sub_of_session hs hx
      exact ⟨b, hb⟩
    obtain ⟨o, hfirst, ho⟩ := SrtpOutbound.mirrors_first «local» s.outSsrcBase
    have hsize : (t.sentBy s.subs).length < outboundSsrcSlots := by
      have hsent : (t.sentBy s.subs).length ≤ s.subs.length := length_filterMap_le ..
      have : s.subs.length ≤ 31 := hwf.subs_le
      rw [outboundSsrcSlots]
      omega
    rw [registerAll]
    simp only [ends_bind, ends_expect]
    refine ⟨_, hfirst,
      registerAll_spec ho hsends.increasing hsends.offset hsends.last_le UInt32.zero_le
      (by simpa using hsize) fun outbound houtbound => ?_⟩
    have hpins : s.ssrcs.length ≤ inboundPinnedMax := by
      have : s.published.items.length + s.unbound.items.length ≤ 10 := hwf.trackCount_le
      rw [Session.ssrcs, length_map, inboundPinnedMax]
      omega
    simp only [ends_bind]
    refine pinAll_spec (SrtpInbound.mirrors_fromKeys remote) hwf.ssrcs_nodup
      ((Nat.zero_add _).trans_le hpins) fun inbound hinbound => ?_
    refine ends_bind.2 (ends_setSession hs fun sessions hw =>
      ends_pure.2 (.inr ⟨?_, ⟨rfl, project_set Session.told hw.get hs rfl⟩, k, _, rfl,
        hw.get_self⟩))
    refine h.rewritten hs (by rfl) ?_ ?_ hw
    · refine ⟨hwf.ssrcs_nodup, hwf.trackCount_le, hwf.subs_le, hwf.addr_ne,
        hwf.nomination_ne, rfl, ?_⟩
      rintro _ ⟨⟩
      exact hinbound
    · refine ⟨hsends.increasing, hsends.offset, hsends.last_le, ?_⟩
      rintro _ ⟨⟩
      exact houtbound

end SetupSrtp

section BindSsrc

theorem bindSsrc_spec (h : t.Inv maxSessions) (hs : t.sessions.get k = some s)
    (hx : x ∈ s.unbound.items) (hnew : ssrc ∉ s.ssrcs) :
    Ends (bindSsrc k x ssrc) t fun _ t' => t'.Inv maxSessions ∧ t.SameTold t' ∧
      ∃ tr, t'.tracks.get x = some tr := by
  have hwf := h.wellFormed k s hs
  obtain ⟨tr, htr, -⟩ := h.linked.track_of_session hs (mem_append_right _ hx)
  obtain ⟨y, hy, hsome, hperm⟩ := FixedVec.swapRemoveWhere_some (v := s.unbound)
    (p := fun z => decide (z = x)) ⟨x, hx, by simp⟩
  obtain rfl : y = x := by simpa using hy
  generalize hrest : (s.unbound.swapRemoveWhere fun z => decide (z = y)) = r at hsome hperm
  obtain ⟨found, rest⟩ := r
  obtain rfl : found = some y := hsome
  have hcount : s.published.items.length + s.unbound.items.length ≤ 10 := hwf.trackCount_le
  have hsize : s.unbound.items.length = rest.items.length + 1 := hperm.length_eq
  have hroom : s.published.items.length < 10 := by omega
  have hpush := FixedVec.push_of_lt (x := (ssrc, y)) hroom
  rw [bindSsrc, ends_bind]
  refine ends_session hs ?_
  simp only [hrest, ends_bind]
  refine ends_setSession hs fun sessions₁ hw₁ => ?_
  refine ends_assert.2 ⟨by simp [hpush.1], ?_⟩
  refine pinSsrc_spec (by exact hw₁.get_self) (by exact hwf.inbound) hnew ?_
    fun sessions srtpIn hw hsome hin => ?_
  · rw [Session.ssrcs, length_map, inboundPinnedMax]
    omega
  have hw := hw₁.trans hw
  refine ends_assert.2 ⟨rfl, ends_track (by exact htr) ?_⟩
  have hssrcs : (s.published.push (ssrc, y)).2.items.map Prod.fst = s.ssrcs ++ [ssrc] := by
    simp [hpush.2, Session.ssrcs]
  have h' := h.relisted hs (v := { s with
    unbound := rest, published := (s.published.push (ssrc, y)).2, srtpIn }) ?_ rfl rfl rfl hw
    h.linked.trackIds h.linked.trackSubs ?_
  · refine (Quiet.setTrack (by exact htr) (by rfl)).mono fun _ t' hq => ⟨h'.quiet hq, ?_, ?_⟩
    · have htold : t.SameTold { t with sessions } :=
        ⟨rfl, project_set Session.told hw.get hs (by rfl)⟩
      exact htold.trans hq.sameTold
    · have := congrFun hq.tracks y
      rw [project_apply, project_apply, htr] at this
      obtain ⟨tr', htr', -⟩ := map_eq_some_iff.1 this
      exact ⟨tr', htr'⟩
  · refine ⟨?_, ?_, hwf.subs_le, hwf.addr_ne, hwf.nomination_ne, hsome.trans hwf.srtp_iff, ?_⟩
    · rw [Session.ssrcs, hssrcs]
      refine nodup_append.2 ⟨hwf.ssrcs_nodup, nodup_singleton _, ?_⟩
      rintro a ha b hb rfl
      exact hnew (mem_singleton.1 hb ▸ ha)
    · simp only [Session.trackCount, hpush.2, length_append, length_singleton,
        maxTracksPerSession]
      omega
    · rw [Session.ssrcs, hssrcs]
      exact hin
  · simp only [hw.get, project_update]
    refine h.linked.sessionTracks.reorder (l := s.tracks) (by simp [hs]) ?_
    simp only [Session.tracks, hpush.2, map_append, map_cons, map_nil, append_assoc,
      singleton_append]
    exact hperm.symm.append_left _

end BindSsrc
end Tables
end NexusSfu.Dataplane
