import NexusSfu.Dataplane.Shard.Consistent

namespace NexusSfu.Dataplane

open Base Prog Srtp Option Function

namespace Session

variable {s : Session} {out out' : List UInt32} {ssrc : UInt32}

def outline (s : Session) : Session :=
  { s with srtpIn := none, srtpOut := none, published := .new, unbound := .new, subs := [] }

theorem outSsrcOffset_base (s : Session) : s.outSsrcOffset s.outSsrcBase = 0 := by
  simp [outSsrcOffset]

theorem Sends.nodup (h : s.Sends out) : out.Nodup := by
  refine h.increasing.imp fun {x y} hlt e => ?_
  subst e
  exact absurd hlt (by simp)

theorem outline_eq {v : Session} (h : v.outline = s.outline) : v.id = s.id ∧ v.ufrag = s.ufrag ∧
    v.addrs = s.addrs ∧ v.switchListed = s.switchListed ∧ v.outSsrcBase = s.outSsrcBase ∧
    v.lastOutSsrcOffset = s.lastOutSsrcOffset :=
  ⟨(congrArg Session.id h :), (congrArg Session.ufrag h :), (congrArg Session.addrs h :),
    (congrArg Session.switchListed h :), (congrArg Session.outSsrcBase h :),
    (congrArg Session.lastOutSsrcOffset h :)⟩

theorem Sends.of_eq {v : Session} (h : s.Sends out) (hbase : v.outSsrcBase = s.outSsrcBase)
    (hlast : v.lastOutSsrcOffset = s.lastOutSsrcOffset) (hout : v.srtpOut = s.srtpOut) :
    v.Sends out := by
  have hoff (y : UInt32) : v.outSsrcOffset y = s.outSsrcOffset y := by
    rw [outSsrcOffset, outSsrcOffset, hbase]
  refine ⟨?_, ?_, hlast ▸ h.last_le, ?_⟩
  · simpa only [hoff] using h.increasing
  · simpa only [hoff, hlast] using h.offset
  · simpa only [hout, hbase, hlast] using h.outbound

theorem Sends.of_outline {v : Session} (h : s.Sends out) (ho : v.outline = s.outline)
    (hout : v.srtpOut = s.srtpOut) : v.Sends out := by
  obtain ⟨-, -, -, -, hbase, hlast⟩ := outline_eq ho
  exact h.of_eq hbase hlast hout

theorem Sends.retire (h : s.Sends out) (hp : out.Perm (ssrc :: out')) (hs : out'.Sublist out)
    (subs : List Key) :
    { s with srtpOut := s.srtpOut.map fun o : SrtpOutbound => o.retire ssrc, subs }.Sends out' where
  increasing := h.increasing.sublist hs
  offset x hx := h.offset x (hs.subset hx)
  last_le := h.last_le
  outbound o ho := by
    obtain ⟨o, hout, rfl⟩ := map_eq_some_iff.1 ho
    refine (h.outbound o hout).retire ?_ fun y => ?_
    · rintro rfl
      have := (h.offset s.outSsrcBase (hp.mem_iff.2 List.mem_cons_self)).1
      rw [outSsrcOffset_base] at this
      exact absurd this (by simp)
    · have hnot : ssrc ∉ out' := (List.nodup_cons.1 (hp.nodup_iff.1 h.nodup)).1
      rw [hp.mem_iff, List.mem_cons]
      constructor
      · intro hy
        exact ⟨.inr hy, fun e => hnot (e ▸ hy)⟩
      · rintro ⟨hy | hy, hne⟩
        · exact absurd hy hne
        · exact hy

end Session

namespace Tables

variable {t t' t'' : Tables} {k x : Key} {s : Session} {tr : PublishedTrack} {b : Subscription}
  {maxSessions : Nat}

structure Keeps (t t' : Tables) : Prop where
  sessionIds : t'.sessionIds = t.sessionIds
  ufrags : t'.byUfrag = t.byUfrag
  byAddr : t'.byAddr = t.byAddr
  pendingSwitches : t'.pendingSwitches = t.pendingSwitches
  outline : project t'.sessions.get Session.outline = project t.sessions.get Session.outline

structure Trims (t t' : Tables) : Prop extends t.Keeps t' where
  trackIds : t'.trackIds = t.trackIds
  tracks : project t'.tracks.get (fun tr => (tr.id, tr.session)) =
    project t.tracks.get fun tr => (tr.id, tr.session)
  lists : project t'.sessions.get (fun s => (s.published, s.unbound)) =
    project t.sessions.get fun s => (s.published, s.unbound)

theorem Keeps.refl (t : Tables) : t.Keeps t := ⟨rfl, rfl, rfl, rfl, rfl⟩

theorem Keeps.trans (h : t.Keeps t') (h' : t'.Keeps t'') : t.Keeps t'' :=
  ⟨h'.sessionIds.trans h.sessionIds, h'.ufrags.trans h.ufrags, h'.byAddr.trans h.byAddr,
    h'.pendingSwitches.trans h.pendingSwitches, h'.outline.trans h.outline⟩

theorem Keeps.sameTold (h : t.Keeps t') : t.SameTold t' :=
  ⟨h.sessionIds, project_of_links h.outline Session.told⟩

theorem Trims.refl (t : Tables) : t.Trims t := ⟨.refl t, rfl, rfl, rfl⟩

theorem Trims.trans (h : t.Trims t') (h' : t'.Trims t'') : t.Trims t'' :=
  ⟨h.toKeeps.trans h'.toKeeps, h'.trackIds.trans h.trackIds, h'.tracks.trans h.tracks,
    h'.lists.trans h.lists⟩

theorem forall_update {get : Key → Option Session} {P : Session → Prop} {v : Session} (hv : P v)
    (h : ∀ j r, j ≠ k → get j = some r → P r) :
    ∀ j r, update get k (some v) j = some r → P r := by
  intro j r hr
  by_cases hj : j = k
  · subst hj
    obtain rfl : v = r := by simpa using hr
    exact hv
  · exact h j r hj (by simpa [hj] using hr)

theorem Inv.relinked {v : Session} {sessions : Slab Session} {tracks : Slab PublishedTrack}
    {subs : Slab Subscription} {trackIds : Map TrackId Key} {subIds : Map SubscriptionId Key}
    (h : t.Inv maxSessions) (hs : t.sessions.get k = some s) (hw : t.sessions.Wrote k v sessions)
    (hsame : v.id = s.id ∧ v.ufrag = s.ufrag ∧ v.addrs = s.addrs ∧
      v.switchListed = s.switchListed)
    (hwf : v.WellFormed) (hsends : v.Sends ({ t with subs }.sentBy v.subs))
    (hothers : ∀ j r, j ≠ k → t.sessions.get j = some r →
      { t with subs }.sentBy r.subs = t.sentBy r.subs)
    (htrackIds : Inverse trackIds.lookup (project tracks.get PublishedTrack.id))
    (hsubIds : Inverse subIds.lookup (project subs.get Subscription.id))
    (hsessionSubs : Lists (project sessions.get Session.subs)
      (project subs.get Subscription.session))
    (htrackSubs : Lists (project tracks.get PublishedTrack.subscribers)
      (project subs.get Subscription.track))
    (hsessionTracks : Lists (project sessions.get Session.tracks)
      (project tracks.get PublishedTrack.session)) :
    { t with sessions, tracks, subs, trackIds, subIds }.Inv maxSessions := by
  obtain ⟨hid, hufrag, haddrs, hlisted⟩ := hsame
  refine ⟨⟨?_, ?_, htrackIds, hsubIds, hsessionSubs, htrackSubs, hsessionTracks, ?_,
    h.linked.switches_nodup, ?_⟩, ?_, ?_, hw.slotCount ▸ h.slots, hw.len ▸ h.len⟩
  · rw [project_set Session.id hw.get hs hid]
    exact h.linked.sessionIds
  · rw [project_set Session.ufrag hw.get hs hufrag]
    exact h.linked.ufrags
  · rw [project_set Session.addrs hw.get hs haddrs]
    exact h.linked.addrs
  · rw [project_set Session.switchListed hw.get hs hlisted]
    exact h.linked.switches
  · simp only [hw.get]
    exact forall_update hwf fun j r _ => h.wellFormed j r
  · simp only [hw.get]
    refine forall_update (P := fun r => r.Sends (Tables.sentBy _ r.subs)) hsends fun j r hj hr => ?_
    have hsent := h.sends j r hr
    rwa [← hothers j r hj hr] at hsent

section RemoveSubscription

variable {subs : Slab Subscription} {sessions : Slab Session} {tracks : Slab PublishedTrack}
  {fanOut : List Key}

theorem Linked.session_of_sub (h : t.Linked) (hb : t.subs.get x = some b) :
    ∃ s, t.sessions.get b.session = some s ∧ x ∈ s.subs := by
  obtain ⟨s, hs, -, hx⟩ := h.sessionSubs.owner_lists (x := x) (k := b.session) (by simp [hb])
  exact ⟨s, hs, hx⟩

theorem Linked.track_of_sub (h : t.Linked) (hb : t.subs.get x = some b) :
    ∃ tr, t.tracks.get b.track = some tr ∧ x ∈ tr.subscribers := by
  obtain ⟨tr, htr, -, hx⟩ := h.trackSubs.owner_lists (x := x) (k := b.track) (by simp [hb])
  exact ⟨tr, htr, hx⟩

theorem Linked.sub_of_session (h : t.Linked) (hs : t.sessions.get k = some s) (hx : x ∈ s.subs) :
    ∃ b, t.subs.get x = some b ∧ b.session = k := by
  have hl : project t.sessions.get Session.subs k = some s.subs := by simp [hs]
  simpa using (h.sessionSubs.mem k s.subs x hl).1 hx

theorem Linked.sub_of_track (h : t.Linked) (htr : t.tracks.get k = some tr)
    (hx : x ∈ tr.subscribers) : ∃ b, t.subs.get x = some b ∧ b.track = k := by
  have hl : project t.tracks.get PublishedTrack.subscribers k = some tr.subscribers := by simp [htr]
  simpa using (h.trackSubs.mem k tr.subscribers x hl).1 hx

theorem Linked.subs_nodup (h : t.Linked) (hs : t.sessions.get k = some s) : s.subs.Nodup :=
  h.sessionSubs.nodup k s.subs (by simp [hs])

theorem sentBy_update {o : Option Subscription} {l : List Key}
    (hsubs : subs.get = update t.subs.get x o) (hx : x ∉ l) :
    { t with subs }.sentBy l = t.sentBy l := by
  refine List.filterMap_congr fun y hy => ?_
  have hne : y ≠ x := fun e => hx (e ▸ hy)
  simp [hsubs, hne]

theorem sentBy_erase {l : List Key} (hb : t.subs.get x = some b) (hx : x ∈ l) :
    (t.sentBy l).Perm (b.rewrite.outSsrc :: t.sentBy (l.erase x)) ∧
      (t.sentBy (l.erase x)).Sublist (t.sentBy l) := by
  refine ⟨?_, List.erase_sublist.filterMap _⟩
  have hperm := (List.perm_cons_erase hx).filterMap (project t.subs.get Subscription.outSsrc)
  have hout : project t.subs.get Subscription.outSsrc x = some b.rewrite.outSsrc := by
    simp [hb, Subscription.outSsrc]
  rwa [List.filterMap_cons_some hout] at hperm

theorem Inv.unsubscribed (h : t.Inv maxSessions) (hb : t.subs.get x = some b)
    (hs : t.sessions.get b.session = some s) (htr : t.tracks.get b.track = some tr)
    (hsubs : subs.get = update t.subs.get x none)
    (hw : t.sessions.Wrote b.session
      { s with
        srtpOut := s.srtpOut.map fun o => o.retire b.rewrite.outSsrc
        subs := s.subs.erase x } sessions)
    (htracks : tracks.get = update t.tracks.get b.track
      (some { tr with subscribers := fanOut }))
    (hfan : fanOut.Perm (tr.subscribers.erase x)) :
    { t with subs, sessions, tracks, subIds := t.subIds.erase b.id }.Inv maxSessions := by
  obtain ⟨s', hs', hx⟩ := h.linked.session_of_sub hb
  obtain rfl := Option.some.inj (hs'.symm.trans hs)
  have hnodup := h.linked.subs_nodup hs
  have hwf := h.wellFormed _ _ hs
  refine h.relinked hs hw ⟨rfl, rfl, rfl, rfl⟩ ?_ ?_ (fun j r hj hr => ?_) ?_ ?_ ?_ ?_ ?_
  · exact ⟨hwf.ssrcs_nodup, hwf.trackCount_le, (List.length_erase_le).trans hwf.subs_le,
      hwf.addr_ne, hwf.nomination_ne, by simpa using hwf.srtp_iff, hwf.inbound⟩
  · obtain ⟨hperm, hsub⟩ := sentBy_erase hb hx
    have hsent := (h.sends _ _ hs).retire hperm hsub (s'.subs.erase x)
    have hnot : x ∉ s'.subs.erase x := fun hm => ((List.Nodup.mem_erase_iff hnodup).1 hm).1 rfl
    rwa [← sentBy_update hsubs hnot] at hsent
  · refine sentBy_update hsubs fun hm => ?_
    obtain ⟨b', hb', hk⟩ := h.linked.sub_of_session hr hm
    obtain rfl := Option.some.inj (hb'.symm.trans hb)
    exact hj hk.symm
  · rw [project_set PublishedTrack.id htracks htr rfl]
    exact h.linked.trackIds
  · simpa only [hsubs, project_update_none, lookup_erase] using
      h.linked.subIds.erase (by simp [hb])
  · simpa only [hw.get, hsubs, project_update, project_update_none] using
      h.linked.sessionSubs.remove (by simp [hs]) (by simp [hb]) (.refl _)
  · simpa only [htracks, hsubs, project_update, project_update_none] using
      h.linked.trackSubs.remove (by simp [htr]) (by simp [hb]) hfan
  · rw [project_set Session.tracks hw.get hs rfl,
      project_set PublishedTrack.session htracks htr rfl]
    exact h.linked.sessionTracks

theorem removeSubscription_spec (h : t.Inv maxSessions) (hb : t.subs.get x = some b) :
    Ends (removeSubscription x) t fun _ t' => t'.Inv maxSessions ∧ t.Trims t' ∧
      (∀ s, t.sessions.get b.session = some s →
        ∃ s', t'.sessions.get b.session = some s' ∧ s'.subs.length + 1 = s.subs.length) ∧
      ∀ tr, t.tracks.get b.track = some tr → ∃ tr', t'.tracks.get b.track = some tr' ∧
          tr'.subscribers.length + 1 = tr.subscribers.length := by
  obtain ⟨s, hs, hxs⟩ := h.linked.session_of_sub hb
  obtain ⟨tr, htr, hxt⟩ := h.linked.track_of_sub hb
  obtain ⟨subs, hremove, -, -, hsubs⟩ := Slab.remove_spec hb
  obtain ⟨pos, hpos⟩ : ∃ pos, tr.subscribers.findIdx? (fun y => y = x) = some pos := by
    rw [← isSome_iff_exists, List.findIdx?_isSome]
    simpa using hxt
  obtain ⟨hlt, hidx⟩ := List.findIdx?_eq_some_iff_findIdx_eq.1 hpos
  have hfan : (swapRemove tr.subscribers pos).Perm (tr.subscribers.erase x) := by
    refine (swapRemove_perm hlt).trans (List.Perm.of_eq ?_)
    rw [List.erase_eq_eraseIdx_of_idxOf]
    rw [← hidx]
    simp [List.idxOf, beq_eq_decide]
  have hid : t.subIds.lookup b.id = some x := (h.linked.subIds b.id x).2 (by simp [hb])
  rw [removeSubscription, ends_bind, ends_get, ends_bind, ends_expect]
  refine ⟨_, hremove, ?_⟩
  simp only [ends_bind, ends_set]
  refine ends_session (by exact hs) ?_
  refine ends_assert.2 ⟨by simpa using hxs, ?_⟩
  refine ends_setSession (by exact hs) fun sessions hw => ?_
  refine ends_track (by exact htr) ?_
  refine ends_expect.2 ⟨pos, hpos, ?_⟩
  refine ends_setTrack (by exact htr) fun tracks htracks => ?_
  simp only [ends_get, ends_assert]
  refine ⟨by simpa using hid, h.unsubscribed hb hs htr hsubs hw htracks hfan, ?_,
    ?_, ?_⟩
  · exact ⟨⟨rfl, rfl, rfl, rfl, project_set _ hw.get hs rfl⟩, rfl,
      project_set _ htracks htr rfl, project_set _ hw.get hs rfl⟩
  · intro s' hs'
    obtain rfl := Option.some.inj (hs.symm.trans hs')
    refine ⟨_, (congrFun hw.get _).trans (update_self ..), ?_⟩
    have := List.length_pos_of_mem hxs
    simp only [List.length_erase_of_mem hxs]
    omega
  · intro tr' htr'
    obtain rfl := Option.some.inj (htr.symm.trans htr')
    refine ⟨_, (congrFun htracks _).trans (update_self ..), ?_⟩
    have := List.length_pos_of_mem hxt
    simp only [hfan.length_eq, List.length_erase_of_mem hxt]
    omega

theorem removeSubscribers_spec {fuel : Nat} (h : t.Inv maxSessions)
    (htr : t.tracks.get k = some tr) (hfuel : tr.subscribers.length < fuel) :
    Ends (removeSubscribers k fuel) t fun _ t' => t'.Inv maxSessions ∧ t.Trims t' ∧
      ∃ tr', t'.tracks.get k = some tr' ∧ tr'.subscribers = [] := by
  induction fuel generalizing t tr with
  | zero => omega
  | succ fuel ih =>
    rw [removeSubscribers, ends_bind]
    refine ends_track htr ?_
    cases hlast : tr.subscribers.getLast? with
    | none =>
      have hnil : tr.subscribers = [] := by simpa using hlast
      exact ends_pure.2 ⟨h, .refl t, tr, htr, hnil⟩
    | some x =>
      obtain ⟨b, hb, rfl⟩ := h.linked.sub_of_track htr (List.mem_of_getLast? hlast)
      refine ends_bind.2
        ((removeSubscription_spec h hb).mono fun _ t' ⟨h', htrim, _, htr'⟩ => ?_)
      obtain ⟨tr', htr', hlen⟩ := htr' tr htr
      refine (ih h' htr' (by omega)).mono fun _ t'' ⟨h'', htrim', hdone⟩ => ?_
      exact ⟨h'', htrim.trans htrim', hdone⟩

theorem removeSubs_spec {fuel : Nat} (h : t.Inv maxSessions) (hs : t.sessions.get k = some s)
    (hfuel : s.subs.length < fuel) :
    Ends (removeSubs k fuel) t fun _ t' => t'.Inv maxSessions ∧ t.Trims t' ∧
      ∃ s', t'.sessions.get k = some s' ∧ s'.subs = [] := by
  induction fuel generalizing t s with
  | zero => omega
  | succ fuel ih =>
    rw [removeSubs, ends_bind]
    refine ends_session hs ?_
    cases hlast : s.subs.getLast? with
    | none =>
      have hnil : s.subs = [] := by simpa using hlast
      exact ends_pure.2 ⟨h, .refl t, s, hs, hnil⟩
    | some x =>
      obtain ⟨b, hb, rfl⟩ := h.linked.sub_of_session hs (List.mem_of_getLast? hlast)
      refine ends_bind.2
        ((removeSubscription_spec h hb).mono fun _ t' ⟨h', htrim, hs', _⟩ => ?_)
      obtain ⟨s', hs', hlen⟩ := hs' s hs
      refine (ih h' hs' (by omega)).mono fun _ t'' ⟨h'', htrim', hdone⟩ => ?_
      exact ⟨h'', htrim.trans htrim', hdone⟩

theorem unsubscribe_spec (h : t.Inv maxSessions) (id : SubscriptionId) :
    Ends (unsubscribe id) t fun r t' =>
      (r = .error .unknownSubscription ∧ t' = t) ∨
        (r = .ok () ∧ t'.Inv maxSessions ∧ t.SameTold t') := by
  rw [unsubscribe, ends_bind, ends_get]
  cases hid : t.subIds.lookup id with
  | none => exact ends_pure.2 (.inl ⟨rfl, rfl⟩)
  | some x =>
    obtain ⟨b, hb, -⟩ := map_eq_some_iff.1 ((h.linked.subIds id x).1 hid)
    refine ends_bind.2 ((removeSubscription_spec h hb).mono fun _ t' ⟨h', htrim, _, _⟩ => ?_)
    exact ends_pure.2 (.inr ⟨rfl, h', htrim.sameTold⟩)

end RemoveSubscription

section RemoveTrack

variable {v : Session} {sessions : Slab Session} {tracks : Slab PublishedTrack}

structure Unlisted (s : Session) (x : Key) (v : Session) : Prop where
  perm : s.tracks.Perm (x :: v.tracks)
  wellFormed : v.WellFormed
  trackCount : v.trackCount + 1 = s.trackCount
  outline : v.outline = s.outline
  subs : v.subs = s.subs
  srtpOut : v.srtpOut = s.srtpOut

theorem unlistTrack_bound (hwf : s.WellFormed) (hx : ∃ p ∈ s.published.items, p.2 = x)
    (hun : x ∉ s.unbound.items) {Q : Session → Tables → Prop}
    (hq : ∀ v, Unlisted s x v → Q v t) : Ends (unlistTrack s x) t Q := by
  obtain ⟨⟨ssrc, y⟩, hp, hsome, hperm⟩ := FixedVec.swapRemoveWhere_some (v := s.published)
    (p := fun p => decide (p.2 = x)) (by simpa using hx)
  obtain rfl : y = x := by simpa using hp
  have hnone := FixedVec.swapRemoveWhere_none (v := s.unbound) (p := fun z => decide (z = y))
    (by simpa using fun z hz (e : z = y) => hun (e ▸ hz))
  generalize hrest : (s.published.swapRemoveWhere fun p => decide (p.2 = y)) = r at hsome hperm
  obtain ⟨bound, published⟩ := r
  obtain rfl : bound = some (ssrc, y) := hsome
  have hssrcs : s.ssrcs.Perm (ssrc :: published.items.map Prod.fst) := hperm.map Prod.fst
  have hnodup := List.nodup_cons.1 (hssrcs.nodup_iff.1 hwf.ssrcs_nodup)
  have hlen : s.published.items.length = published.items.length + 1 := hperm.length_eq
  simp only [unlistTrack, hrest, hnone, ends_bind, ends_assert, ends_pure]
  refine ⟨rfl, hq _ ⟨?_, ⟨hnodup.2, ?_, hwf.subs_le, hwf.addr_ne, hwf.nomination_ne,
    by simpa using hwf.srtp_iff, ?_⟩, ?_, rfl, rfl, rfl⟩⟩
  · exact (hperm.map Prod.snd).append_right s.unbound.items
  · have := hwf.trackCount_le
    simp only [Session.trackCount] at this ⊢
    omega
  · intro o ho
    obtain ⟨o, hin, rfl⟩ := map_eq_some_iff.1 ho
    refine (hwf.inbound o hin).unpin fun z => ?_
    rw [hssrcs.mem_iff, List.mem_cons]
    constructor
    · intro hz
      exact ⟨.inr hz, fun e => hnodup.1 (e ▸ hz)⟩
    · rintro ⟨hz | hz, hne⟩
      · exact absurd hz hne
      · exact hz
  · simp only [Session.trackCount]
    omega

theorem unlistTrack_unbound (hwf : s.WellFormed) (hx : x ∈ s.unbound.items)
    (hun : ∀ p ∈ s.published.items, p.2 ≠ x) {Q : Session → Tables → Prop}
    (hq : ∀ v, Unlisted s x v → Q v t) : Ends (unlistTrack s x) t Q := by
  obtain ⟨y, hp, hsome, hperm⟩ := FixedVec.swapRemoveWhere_some (v := s.unbound)
    (p := fun z => decide (z = x)) ⟨x, hx, by simp⟩
  obtain rfl : y = x := by simpa using hp
  have hnone := FixedVec.swapRemoveWhere_none (v := s.published)
    (p := fun p => decide (p.2 = y)) (by simpa using hun)
  generalize hrest : (s.unbound.swapRemoveWhere fun z => decide (z = y)) = r at hsome hperm
  obtain ⟨found, rest⟩ := r
  obtain rfl : found = some y := hsome
  have hlen : s.unbound.items.length = rest.items.length + 1 := hperm.length_eq
  simp only [unlistTrack, hrest, hnone, ends_bind, ends_assert, ends_pure]
  refine ⟨rfl, hq _ ⟨?_, ⟨hwf.ssrcs_nodup, ?_, hwf.subs_le, hwf.addr_ne, hwf.nomination_ne,
    hwf.srtp_iff, hwf.inbound⟩, ?_, rfl, rfl, rfl⟩⟩
  · exact (hperm.append_left _).trans List.perm_middle
  · have := hwf.trackCount_le
    simp only [Session.trackCount] at this ⊢
    omega
  · simp only [Session.trackCount]
    omega

theorem unlistTrack_spec (hwf : s.WellFormed) (hnodup : s.tracks.Nodup) (hx : x ∈ s.tracks)
    {Q : Session → Tables → Prop} (hq : ∀ v, Unlisted s x v → Q v t) :
    Ends (unlistTrack s x) t Q := by
  have hdisj := List.disjoint_of_nodup_append hnodup
  cases List.mem_append.1 hx with
  | inl hpub =>
    refine unlistTrack_bound hwf ?_ (fun hun => hdisj hpub hun) hq
    simpa using hpub
  | inr hun =>
    refine unlistTrack_unbound hwf hun (fun p hp e => ?_) hq
    exact hdisj (e ▸ List.mem_map_of_mem hp) hun

theorem Linked.session_of_track (h : t.Linked) (htr : t.tracks.get x = some tr) :
    ∃ s, t.sessions.get tr.session = some s ∧ s.tracks.Nodup ∧ x ∈ s.tracks :=
  h.sessionTracks.owner_lists (by simp [htr])

theorem Linked.track_of_session (h : t.Linked) (hs : t.sessions.get k = some s)
    (hx : x ∈ s.tracks) : ∃ tr, t.tracks.get x = some tr ∧ tr.session = k := by
  have hl : project t.sessions.get Session.tracks k = some s.tracks := by simp [hs]
  simpa using (h.sessionTracks.mem k s.tracks x hl).1 hx

theorem Inv.relisted {trackIds : Map TrackId Key} (h : t.Inv maxSessions)
    (hs : t.sessions.get k = some s) (hwf : v.WellFormed) (hv : v.outline = s.outline)
    (hsubs : v.subs = s.subs) (hout : v.srtpOut = s.srtpOut) (hw : t.sessions.Wrote k v sessions)
    (htrackIds : Inverse trackIds.lookup (project tracks.get PublishedTrack.id))
    (htrackSubs : Lists (project tracks.get PublishedTrack.subscribers)
      (project t.subs.get Subscription.track))
    (hsessionTracks : Lists (project sessions.get Session.tracks)
      (project tracks.get PublishedTrack.session)) :
    { t with sessions, tracks, trackIds }.Inv maxSessions := by
  obtain ⟨hid, hufrag, haddrs, hlisted, -, -⟩ := Session.outline_eq hv
  refine h.relinked hs hw ⟨hid, hufrag, haddrs, hlisted⟩ hwf ?_ (fun _ _ _ _ => rfl)
    htrackIds h.linked.subIds ?_ htrackSubs hsessionTracks
  · rw [hsubs]
    exact (h.sends _ _ hs).of_outline hv hout
  · rw [project_set Session.subs hw.get hs hsubs]
    exact h.linked.sessionSubs

theorem Inv.untracked (h : t.Inv maxSessions) (htr : t.tracks.get x = some tr)
    (hnone : tr.subscribers = []) (hs : t.sessions.get tr.session = some s) (hv : Unlisted s x v)
    (htracks : tracks.get = update t.tracks.get x none)
    (hw : t.sessions.Wrote tr.session v sessions) :
    { t with tracks, sessions, trackIds := t.trackIds.erase tr.id }.Inv maxSessions := by
  refine h.relisted hs hv.wellFormed hv.outline hv.subs hv.srtpOut hw ?_ ?_ ?_
  · simpa only [htracks, project_update_none, lookup_erase] using
      h.linked.trackIds.erase (by simp [htr])
  · simpa only [htracks, project_update_none] using h.linked.trackSubs.closed
      (by simp [htr, hnone])
  · simpa only [hw.get, htracks, project_update, project_update_none] using
      h.linked.sessionTracks.remove (by simp [hs]) (by simp [htr])
        (List.cons_perm_iff_perm_erase.1 hv.perm.symm).2

theorem removeTrack_spec (h : t.Inv maxSessions) (htr : t.tracks.get x = some tr) :
    Ends (removeTrack x) t fun _ t' => t'.Inv maxSessions ∧ t.Keeps t' ∧
      ∀ s, t.sessions.get tr.session = some s →
        ∃ s', t'.sessions.get tr.session = some s' ∧ s'.trackCount + 1 = s.trackCount := by
  rw [removeTrack, ends_bind]
  refine ends_track htr ?_
  refine ends_bind.2 ((removeSubscribers_spec h htr (by omega)).mono
    fun _ t₁ ⟨h₁, htrim, tr₁, htr₁, hnone⟩ => ?_)
  have hsame := congrFun htrim.tracks x
  simp only [project_apply, htr, htr₁, map_some, Option.some.injEq, Prod.mk.injEq] at hsame
  obtain ⟨s, hs, hnodup, hx⟩ := h₁.linked.session_of_track htr₁
  obtain ⟨tracks, hremove, -, -, htracks⟩ := Slab.remove_spec htr₁
  have hid : t₁.trackIds.lookup tr₁.id = some x :=
    (h₁.linked.trackIds _ x).2 (by simp [htr₁])
  rw [ends_bind, ends_get, ends_bind, ends_expect]
  refine ⟨_, hremove, ?_⟩
  simp only [ends_bind, ends_set]
  refine ends_session (by exact hs) ?_
  refine unlistTrack_spec (h₁.wellFormed _ _ hs) hnodup hx fun v hv => ?_
  refine ends_setSession (by exact hs) fun sessions hw => ?_
  simp only [ends_get, ends_assert]
  refine ⟨by simpa using hid, h₁.untracked htr₁ hnone hs hv htracks hw, ?_, ?_⟩
  · exact htrim.toKeeps.trans ⟨rfl, rfl, rfl, rfl, project_set _ hw.get hs hv.outline⟩
  · intro s₀ hs₀
    refine ⟨v, ?_, ?_⟩
    · rw [← hsame.2, hw.get]
      exact update_self ..
    · have hlists := congrFun htrim.lists tr.session
      rw [← hsame.2] at hs₀
      simp only [project_apply, ← hsame.2, hs, hs₀, map_some, Option.some.injEq,
        Prod.mk.injEq] at hlists
      have hcount : s.trackCount = s₀.trackCount := by
        rw [Session.trackCount, Session.trackCount, hlists.1, hlists.2]
      rw [← hcount]
      exact hv.trackCount

theorem removeTrackCmd_spec (h : t.Inv maxSessions) (id : TrackId) :
    Ends (removeTrackCmd id) t fun r t' =>
      (r = .error .unknownTrack ∧ t' = t) ∨
        (r = .ok () ∧ t'.Inv maxSessions ∧ t.SameTold t') := by
  rw [removeTrackCmd, ends_bind, ends_get]
  cases hid : t.trackIds.lookup id with
  | none => exact ends_pure.2 (.inl ⟨rfl, rfl⟩)
  | some x =>
    obtain ⟨tr, htr, -⟩ := map_eq_some_iff.1 ((h.linked.trackIds id x).1 hid)
    refine ends_bind.2 ((removeTrack_spec h htr).mono fun _ t' ⟨h', hkeep, _⟩ => ?_)
    exact ends_pure.2 (.inr ⟨rfl, h', hkeep.sameTold⟩)

theorem removeTracks_spec {fuel : Nat} (h : t.Inv maxSessions) (hs : t.sessions.get k = some s)
    (hfuel : s.trackCount < fuel) :
    Ends (removeTracks k fuel) t fun _ t' => t'.Inv maxSessions ∧ t.Keeps t' ∧
      ∃ s', t'.sessions.get k = some s' ∧ s'.tracks = [] := by
  induction fuel generalizing t s with
  | zero => omega
  | succ fuel ih =>
    rw [removeTracks, ends_bind]
    refine ends_session hs ?_
    cases hnext : (s.published.items.head?.map Prod.snd).or s.unbound.items.head? with
    | none =>
      simp only [or_eq_none_iff, map_eq_none_iff, List.head?_eq_none_iff] at hnext
      exact ends_pure.2 ⟨h, .refl t, s, hs, by simp [Session.tracks, hnext.1, hnext.2]⟩
    | some x =>
      have hx : x ∈ s.tracks := by
        rw [Session.tracks, List.mem_append]
        rcases or_eq_some_iff.1 hnext with hpub | ⟨-, hun⟩
        · obtain ⟨p, hp, rfl⟩ := map_eq_some_iff.1 hpub
          exact .inl (List.mem_map_of_mem (List.mem_of_head? hp))
        · exact .inr (List.mem_of_head? hun)
      obtain ⟨tr, htr, rfl⟩ := h.linked.track_of_session hs hx
      refine ends_bind.2 ((removeTrack_spec h htr).mono fun _ t' h' => ?_)
      obtain ⟨h', hkeep, hs'⟩ := h'
      obtain ⟨s', hs', hcount⟩ := hs' s hs
      refine (ih h' hs' (by omega)).mono fun _ t'' h'' => ?_
      obtain ⟨h'', hkeep', hdone⟩ := h''
      exact ⟨h'', hkeep.trans hkeep', hdone⟩

end RemoveTrack

section CloseSession

variable {sessions : Slab Session}

theorem lookup_unmap (m : Map SocketAddr Key) (k : Key) (o : Option SocketAddr) (a : SocketAddr) :
    (unmap m k o).lookup a = if o = some a ∧ m.lookup a = some k then none else m.lookup a := by
  cases o with
  | none => simp [unmap]
  | some c =>
    rw [unmap]
    by_cases hc : c = a
    · subst hc
      split_ifs <;> simp_all
    · have hne : ¬ some c = some a := fun e => hc (Option.some.inj e)
      split_ifs with h1 h2 h3
      · exact absurd h2.1 hne
      · exact Finmap.lookup_erase_ne (Ne.symm hc)
      · exact absurd h3.1 hne
      · rfl

theorem Inv.closed (h : t.Inv maxSessions) (hs : t.sessions.get k = some s) (hsubs : s.subs = [])
    (htracks : s.tracks = []) (hsessions : sessions.get = update t.sessions.get k none)
    (hlen : sessions.len ≤ t.sessions.len) (hslots : sessions.slotCount = t.sessions.slotCount) :
    { t with
      sessions
      pendingSwitches := t.pendingSwitches.filter fun j => decide (j ≠ k)
      byAddr := unmap (unmap t.byAddr k s.addr) k s.prevAddr
      byUfrag := t.byUfrag.erase s.ice.localUfrag
      sessionIds := t.sessionIds.erase s.id }.Inv maxSessions := by
  have hold : ∀ j r, sessions.get j = some r → j ≠ k ∧ t.sessions.get j = some r := by
    intro j r hr
    rw [hsessions] at hr
    have hj : j ≠ k := by
      rintro rfl
      simp at hr
    exact ⟨hj, by simpa [hj] using hr⟩
  refine ⟨⟨?_, ?_, h.linked.trackIds, h.linked.subIds, ?_, h.linked.trackSubs, ?_,
    fun a j => ?_, h.linked.switches_nodup.filter _, fun j => ?_⟩, ?_, ?_, hslots ▸ h.slots,
    hlen.trans h.len⟩
  · simpa only [hsessions, project_update_none, lookup_erase] using
      h.linked.sessionIds.erase (by simp [hs])
  · simpa only [hsessions, project_update_none, lookup_erase] using
      h.linked.ufrags.erase (k := k) (by simp [hs, Session.ufrag])
  · simpa only [hsessions, project_update_none] using h.linked.sessionSubs.closed
      (by simp [hs, hsubs])
  · simpa only [hsessions, project_update_none] using
      h.linked.sessionTracks.closed (by simp [hs, htracks])
  · simp only [lookup_unmap, hsessions, project_update_none]
    by_cases hj : j = k
    · subst hj
      have hheld : ∀ a, t.byAddr.lookup a = some j →
          s.addr = some a ∨ s.prevAddr = some a := by
        intro a ha
        simpa [hs, Session.addrs] using (h.linked.addrs a j).1 ha
      simp only [update_self, reduceCtorEq, false_and, exists_false, iff_false]
      intro hcontra
      split_ifs at hcontra with h1 h2 h2
      · rcases hheld a hcontra with e | e
        · exact h1 ⟨e, hcontra⟩
        · exact h2 ⟨e, hcontra⟩
    · rw [update_of_ne hj, ← h.linked.addrs a j]
      have hne : t.byAddr.lookup a = some k → t.byAddr.lookup a ≠ some j := fun e e' =>
        hj (Option.some.inj (e'.symm.trans e))
      split_ifs with h1 h2 <;> simp_all
  · simp only [hsessions, project_update_none, List.mem_filter, h.linked.switches j]
    by_cases hj : j = k
    · simp [hj]
    · simp [hj]
  · exact fun j r hr => h.wellFormed j r (hold j r hr).2
  · exact fun j r hr => h.sends j r (hold j r hr).2

theorem closeSession_spec (h : t.Inv maxSessions) (id : SessionId) :
    Ends (closeSession id) t fun r t' =>
      (r = .error .unknownSession ∧ t' = t) ∨
        (r = .ok () ∧ t'.Inv maxSessions ∧ ∃ k, t.sessionIds.lookup id = some k ∧
        t'.sessionIds = t.sessionIds.erase id ∧ project t'.sessions.get Session.told =
          update (project t.sessions.get Session.told) k none) := by
  rw [closeSession, ends_bind, ends_get]
  cases hid : t.sessionIds.lookup id with
  | none => exact ends_pure.2 (.inl ⟨rfl, rfl⟩)
  | some k =>
    obtain ⟨s, hs, rfl⟩ := map_eq_some_iff.1 ((h.linked.sessionIds id k).1 hid)
    simp only [ends_bind]
    refine ends_session hs ?_
    refine (removeTracks_spec h hs (Nat.lt_succ_self _)).mono fun _ t₁ h₁ => ?_
    obtain ⟨h₁, hkeep₁, s₁, hs₁, htr₁⟩ := h₁
    refine ends_session hs₁ ?_
    refine (removeSubs_spec h₁ hs₁ (Nat.lt_succ_self _)).mono
      fun _ t₂ h₂ => ?_
    obtain ⟨h₂, htrim₂, s₂, hs₂, hsubs₂⟩ := h₂
    have hkeep := hkeep₁.trans htrim₂.toKeeps
    have htr₂ : s₂.tracks = [] := by
      have hlists := congrFun htrim₂.lists k
      simp only [project_apply, hs₁, hs₂, map_some, Option.some.injEq, Prod.mk.injEq] at hlists
      rw [Session.tracks, hlists.1, hlists.2]
      exact htr₁
    have hout := congrFun hkeep.outline k
    simp only [project_apply, hs, hs₂, map_some, Option.some.injEq] at hout
    have hsid : s₂.id = s.id := (congrArg Session.id hout :)
    obtain ⟨sessions, hremove, hlen, hslots, hsessions⟩ := Slab.remove_spec hs₂
    simp only [ends_modify, ends_get, ends_expect]
    refine ⟨_, hremove, ?_⟩
    simp only [unmapAddr, ends_set, ends_modify, ends_assert]
    refine ⟨?_, ends_pure.2 (.inr ⟨rfl, ?_, k, rfl, ?_, ?_⟩)⟩
    · simpa using (h₂.linked.ufrags s₂.ice.localUfrag k).2 (by simp [hs₂, Session.ufrag])
    · rw [← hsid]
      exact h₂.closed hs₂ hsubs₂ htr₂ hsessions (by omega) hslots
    · rw [hkeep.sessionIds]
    · rw [hsessions, project_update_none]
      rw [hkeep.sameTold.told]

end CloseSession
end Tables
end NexusSfu.Dataplane
