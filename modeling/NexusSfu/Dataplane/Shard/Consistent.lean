import NexusSfu.Base.Links
import NexusSfu.Dataplane.Shard.Tables
import NexusSfu.Srtp.Live

namespace NexusSfu.Dataplane

open Base Prog Srtp Option List

namespace Session

variable (s : Session)

def tracks : List Key := s.published.items.map Prod.snd ++ s.unbound.items

def ssrcs : List UInt32 := s.published.items.map Prod.fst

def ufrag : Ufrag := s.ice.localUfrag

def addrs : Option SocketAddr × Option SocketAddr := (s.addr, s.prevAddr)

structure WellFormed (s : Session) : Prop where
  ssrcs_nodup : s.ssrcs.Nodup
  trackCount_le : s.trackCount ≤ maxTracksPerSession
  subs_le : s.subs.length ≤ maxSubsPerSession
  addr_ne : ∀ a, s.addr = some a → s.prevAddr ≠ some a
  nomination_ne : ∀ a, s.pendingNomination = some a → s.addr ≠ some a
  srtp_iff : s.srtpIn.isSome = s.srtpOut.isSome
  inbound : ∀ x, s.srtpIn = some x → x.Mirrors s.ssrcs

structure Sends (s : Session) (out : List UInt32) : Prop where
  increasing : out.Pairwise fun x y => s.outSsrcOffset x < s.outSsrcOffset y
  offset : ∀ x ∈ out, 0 < s.outSsrcOffset x ∧ s.outSsrcOffset x ≤ s.lastOutSsrcOffset
  last_le : s.lastOutSsrcOffset ≤ maxOutSsrcOffset
  outbound : ∀ o, s.srtpOut = some o → o.Mirrors s.outSsrcBase s.lastOutSsrcOffset out

def links :
    SessionId × Ufrag × List Key × List Key × (Option SocketAddr × Option SocketAddr) ×
      Bool :=
  (s.id, s.ufrag, s.subs, s.tracks, s.addrs, s.switchListed)

def reported : Bool × Bool × Option SelectReason :=
  (s.consentLost, s.srtpVerified, s.unreportedSwitch)

def told : SessionId × Option SocketAddr × Bool × Bool × Option SelectReason :=
  (s.id, s.addr, s.reported)

structure Quiet (s s' : Session) : Prop where
  links : s'.links = s.links
  reported : s'.reported = s.reported
  wellFormed : s.WellFormed → s'.WellFormed
  sends : ∀ out, s.Sends out → s'.Sends out

theorem Quiet.refl : s.Quiet s := ⟨rfl, rfl, fun h => h, fun _ h => h⟩

theorem Quiet.trans {s s' s'' : Session} (h : s.Quiet s') (h' : s'.Quiet s'') : s.Quiet s'' :=
  ⟨h'.links.trans h.links, h'.reported.trans h.reported, h'.wellFormed ∘ h.wellFormed,
    fun out => h'.sends out ∘ h.sends out⟩

theorem Quiet.told {s s' : Session} (h : s.Quiet s') : s'.told = s.told := by
  have hid : s'.id = s.id := congrArg Prod.fst h.links
  have haddr : s'.addr = s.addr := congrArg (fun p => p.2.2.2.2.1.1) h.links
  rw [Session.told, Session.told, hid, haddr, h.reported]

end Session

def PublishedTrack.links (t : PublishedTrack) : TrackId × Key × List Key :=
  (t.id, t.session, t.subscribers)

def Subscription.links (b : Subscription) : SubscriptionId × Key × Key × UInt32 :=
  (b.id, b.session, b.track, b.rewrite.outSsrc)

def Subscription.outSsrc (b : Subscription) : UInt32 := b.rewrite.outSsrc

namespace Tables

variable {t t' : Tables} {k : Key} {s s' : Session} {maxSessions : Nat}

def sentBy (t : Tables) (subs : List Key) : List UInt32 :=
  subs.filterMap (project t.subs.get Subscription.outSsrc)

structure Linked (t : Tables) : Prop where
  sessionIds : Inverse t.sessionIds.lookup (project t.sessions.get Session.id)
  ufrags : Inverse t.byUfrag.lookup (project t.sessions.get Session.ufrag)
  trackIds : Inverse t.trackIds.lookup (project t.tracks.get PublishedTrack.id)
  subIds : Inverse t.subIds.lookup (project t.subs.get Subscription.id)
  sessionSubs : Lists (project t.sessions.get Session.subs)
    (project t.subs.get Subscription.session)
  trackSubs : Lists (project t.tracks.get PublishedTrack.subscribers)
    (project t.subs.get Subscription.track)
  sessionTracks : Lists (project t.sessions.get Session.tracks)
    (project t.tracks.get PublishedTrack.session)
  addrs : ∀ a k, t.byAddr.lookup a = some k ↔
    ∃ p, project t.sessions.get Session.addrs k = some p ∧ (p.1 = some a ∨ p.2 = some a)
  switches_nodup : t.pendingSwitches.Nodup
  switches : ∀ k, k ∈ t.pendingSwitches ↔
    project t.sessions.get Session.switchListed k = some true

structure Inv (maxSessions : Nat) (t : Tables) : Prop where
  linked : t.Linked
  wellFormed : ∀ k s, t.sessions.get k = some s → s.WellFormed
  sends : ∀ k s, t.sessions.get k = some s → s.Sends (t.sentBy s.subs)
  slots : t.sessions.slotCount ≤ maxSessions
  len : t.sessions.len ≤ maxSessions

theorem Inv.new (maxSessions : Nat) : Tables.new.Inv maxSessions where
  linked := {
    sessionIds := fun i k => by simp [Tables.new]
    ufrags := fun i k => by simp [Tables.new]
    trackIds := fun i k => by simp [Tables.new]
    subIds := fun i k => by simp [Tables.new]
    sessionSubs := ⟨by simp [Tables.new], by simp [Tables.new], by simp [Tables.new]⟩
    trackSubs := ⟨by simp [Tables.new], by simp [Tables.new], by simp [Tables.new]⟩
    sessionTracks := ⟨by simp [Tables.new], by simp [Tables.new], by simp [Tables.new]⟩
    addrs := fun a k => by simp [Tables.new]
    switches_nodup := nodup_nil
    switches := fun k => by simp [Tables.new] }
  wellFormed := by simp [Tables.new]
  sends := by simp [Tables.new]
  slots := Nat.zero_le _
  len := Nat.zero_le _

abbrev maxWebrtcSessions : Nat := 100000

structure SameTold (t t' : Tables) : Prop where
  sessionIds : t'.sessionIds = t.sessionIds
  told : project t'.sessions.get Session.told = project t.sessions.get Session.told

theorem SameTold.refl (t : Tables) : t.SameTold t := ⟨rfl, rfl⟩

theorem SameTold.trans {t'' : Tables} (h : t.SameTold t') (h' : t'.SameTold t'') : t.SameTold t'' :=
  ⟨h'.sessionIds.trans h.sessionIds, h'.told.trans h.told⟩

/-- `t'` differs from `t` in nothing that another table or an event depends on. -/
structure Quiet (t t' : Tables) : Prop where
  sessionIds : t'.sessionIds = t.sessionIds
  ufrags : t'.byUfrag = t.byUfrag
  trackIds : t'.trackIds = t.trackIds
  subIds : t'.subIds = t.subIds
  byAddr : t'.byAddr = t.byAddr
  pendingSwitches : t'.pendingSwitches = t.pendingSwitches
  slotCount : t'.sessions.slotCount = t.sessions.slotCount
  len : t'.sessions.len = t.sessions.len
  tracks : project t'.tracks.get PublishedTrack.links = project t.tracks.get PublishedTrack.links
  subs : project t'.subs.get Subscription.links = project t.subs.get Subscription.links
  some : ∀ k s, t.sessions.get k = some s → ∃ s', t'.sessions.get k = some s' ∧ s.Quiet s'
  none : ∀ k, t.sessions.get k = none → t'.sessions.get k = none

namespace Quiet

theorem refl (t : Tables) : t.Quiet t :=
  ⟨rfl, rfl, rfl, rfl, rfl, rfl, rfl, rfl, rfl, rfl, fun _ s h => ⟨s, h, .refl s⟩,
    fun _ => id⟩

theorem trans {t'' : Tables} (h : t.Quiet t') (h' : t'.Quiet t'') : t.Quiet t'' where
  sessionIds := h'.sessionIds.trans h.sessionIds
  ufrags := h'.ufrags.trans h.ufrags
  trackIds := h'.trackIds.trans h.trackIds
  subIds := h'.subIds.trans h.subIds
  byAddr := h'.byAddr.trans h.byAddr
  pendingSwitches := h'.pendingSwitches.trans h.pendingSwitches
  slotCount := h'.slotCount.trans h.slotCount
  len := h'.len.trans h.len
  tracks := h'.tracks.trans h.tracks
  subs := h'.subs.trans h.subs
  some k s hs := by
    obtain ⟨s', hs', hq⟩ := h.some k s hs
    obtain ⟨s'', hs'', hq'⟩ := h'.some k s' hs'
    exact ⟨s'', hs'', hq.trans hq'⟩
  none k hk := h'.none k (h.none k hk)

theorem sessions (h : t.Quiet t') :
    project t'.sessions.get Session.links = project t.sessions.get Session.links := by
  funext k
  cases hk : t.sessions.get k with
  | none => simp [hk, h.none k hk]
  | some s =>
    obtain ⟨s', hs', hq⟩ := h.some k s hk
    simp [hk, hs', hq.links]

theorem told (h : t.Quiet t') :
    project t'.sessions.get Session.told = project t.sessions.get Session.told := by
  funext k
  cases hk : t.sessions.get k with
  | none => simp [hk, h.none k hk]
  | some s =>
    obtain ⟨s', hs', hq⟩ := h.some k s hk
    simp [hk, hs', hq.told]

theorem sameTold (h : t.Quiet t') : t.SameTold t' := ⟨h.sessionIds, h.told⟩

theorem session (h : t.Quiet t') (hk : t'.sessions.get k = Option.some s') :
    ∃ s, t.sessions.get k = Option.some s ∧ s.Quiet s' := by
  cases hs : t.sessions.get k with
  | none => simp [h.none k hs] at hk
  | some s =>
    obtain ⟨r, hr, hq⟩ := h.some k s hs
    obtain rfl := Option.some.inj (hr.symm.trans hk)
    exact ⟨s, rfl, hq⟩

theorem track {tr : PublishedTrack} (h : t.Quiet t') (htr : t.tracks.get k = Option.some tr) :
    ∃ tr', t'.tracks.get k = Option.some tr' ∧ tr'.subscribers = tr.subscribers := by
  have hlinks := congrFun h.tracks k
  rw [project_apply, project_apply, htr] at hlinks
  obtain ⟨tr', htr', heq⟩ := map_eq_some_iff.1 hlinks
  exact ⟨tr', htr', congrArg (fun p => p.2.2) heq⟩

end Quiet

theorem project_of_links {α β γ : Type} {get get' : Key → Option α} {links : α → β}
    (h : project get' links = project get links) (f : β → γ) :
    project get' (f ∘ links) = project get (f ∘ links) := by
  rw [← project_project, h, project_project]

theorem Linked.of_links (h : t.Linked)
    (hs : project t'.sessions.get Session.links = project t.sessions.get Session.links)
    (ht : project t'.tracks.get PublishedTrack.links = project t.tracks.get PublishedTrack.links)
    (hb : project t'.subs.get Subscription.links = project t.subs.get Subscription.links)
    (hsid : t'.sessionIds = t.sessionIds) (huf : t'.byUfrag = t.byUfrag)
    (htid : t'.trackIds = t.trackIds) (hbid : t'.subIds = t.subIds)
    (haddr : t'.byAddr = t.byAddr) (hsw : t'.pendingSwitches = t.pendingSwitches) : t'.Linked := by
  have hid : project t'.sessions.get Session.id = project t.sessions.get Session.id :=
    project_of_links hs Prod.fst
  have hufrag : project t'.sessions.get Session.ufrag = project t.sessions.get Session.ufrag :=
    project_of_links hs fun p => p.2.1
  have hsubs : project t'.sessions.get Session.subs = project t.sessions.get Session.subs :=
    project_of_links hs fun p => p.2.2.1
  have htracks : project t'.sessions.get Session.tracks = project t.sessions.get Session.tracks :=
    project_of_links hs fun p => p.2.2.2.1
  have haddrs : project t'.sessions.get Session.addrs = project t.sessions.get Session.addrs :=
    project_of_links hs fun p => p.2.2.2.2.1
  have hlisted : project t'.sessions.get Session.switchListed =
      project t.sessions.get Session.switchListed := project_of_links hs fun p => p.2.2.2.2.2
  have htrack : project t'.tracks.get PublishedTrack.id = project t.tracks.get PublishedTrack.id :=
    project_of_links ht Prod.fst
  have htsession : project t'.tracks.get PublishedTrack.session =
      project t.tracks.get PublishedTrack.session := project_of_links ht fun p => p.2.1
  have htsubs : project t'.tracks.get PublishedTrack.subscribers =
      project t.tracks.get PublishedTrack.subscribers := project_of_links ht fun p => p.2.2
  have hsub : project t'.subs.get Subscription.id = project t.subs.get Subscription.id :=
    project_of_links hb Prod.fst
  have hbsession : project t'.subs.get Subscription.session =
      project t.subs.get Subscription.session := project_of_links hb fun p => p.2.1
  have hbtrack : project t'.subs.get Subscription.track =
      project t.subs.get Subscription.track := project_of_links hb fun p => p.2.2.1
  obtain ⟨h1, h2, h3, h4, h5, h6, h7, h8, h9, h10⟩ := h
  constructor <;>
    simpa only [hid, hufrag, hsubs, htracks, haddrs, hlisted, htrack, htsession, htsubs, hsub,
      hbsession, hbtrack, hsid, huf, htid, hbid, haddr, hsw]

theorem sentBy_of_links (h : project t'.subs.get Subscription.links =
    project t.subs.get Subscription.links) (subs : List Key) : t'.sentBy subs = t.sentBy subs := by
  have hout : project t'.subs.get Subscription.outSsrc = project t.subs.get Subscription.outSsrc :=
    project_of_links h fun p => p.2.2.2
  rw [sentBy, sentBy, hout]

theorem Inv.quiet (h : t.Inv maxSessions) (hq : t.Quiet t') : t'.Inv maxSessions where
  linked := h.linked.of_links hq.sessions hq.tracks hq.subs hq.sessionIds hq.ufrags hq.trackIds
    hq.subIds hq.byAddr hq.pendingSwitches
  wellFormed k s' hs' := by
    obtain ⟨s, hs, hsq⟩ := hq.session hs'
    exact hsq.wellFormed (h.wellFormed k s hs)
  sends k s' hs' := by
    obtain ⟨s, hs, hsq⟩ := hq.session hs'
    have hsubs : s'.subs = s.subs := congrArg (fun p => p.2.2.1) hsq.links
    rw [sentBy_of_links hq.subs, hsubs]
    exact hsq.sends _ (h.sends k s hs)
  slots := hq.slotCount ▸ h.slots
  len := hq.len ▸ h.len

theorem isSome_project {α β : Type} {slab : Slab α} (f : α → β) (k : Key) :
    k ∈ slab.keys ↔ (project slab.get f k).isSome := by
  rw [Slab.mem_keys, project_apply, isSome_map]

theorem card_of_inverse {ι α : Type} [DecidableEq ι] {m : Map ι Key} {slab : Slab α}
    {f : α → ι} (h : Inverse m.lookup (project slab.get f)) : m.keys.card = slab.len := by
  rw [← slab.card_keys]
  refine h.card_eq (fun i => ?_) (isSome_project f)
  rw [Finmap.mem_keys, ← Finmap.lookup_isSome]

theorem Inv.tracks_le (h : t.Inv maxSessions) :
    t.tracks.len ≤ t.sessions.len * maxTracksPerSession := by
  rw [← t.tracks.card_keys, ← t.sessions.card_keys]
  refine h.linked.sessionTracks.card_le ?_ (isSome_project _) (isSome_project _)
  intro k l hl
  obtain ⟨s, hs, rfl⟩ := map_eq_some_iff.1 hl
  have hle := (h.wellFormed k s hs).trackCount_le
  rw [Session.tracks, length_append, length_map]
  exact hle

theorem Inv.subs_le (h : t.Inv maxSessions) :
    t.subs.len ≤ t.sessions.len * maxSubsPerSession := by
  rw [← t.subs.card_keys, ← t.sessions.card_keys]
  refine h.linked.sessionSubs.card_le ?_ (isSome_project _) (isSome_project _)
  intro k l hl
  obtain ⟨s, hs, rfl⟩ := map_eq_some_iff.1 hl
  exact (h.wellFormed k s hs).subs_le

theorem Linked.addrs_le (h : t.Linked) : t.byAddr.keys.card ≤ 2 * t.sessions.len := by
  rw [← t.sessions.card_keys, Nat.mul_comm]
  have hsub : t.byAddr.keys ⊆ t.sessions.keys.biUnion fun k =>
      ((project t.sessions.get Session.addrs k).elim [] fun p =>
        p.1.toList ++ p.2.toList).toFinset := by
    intro a ha
    rw [Finmap.mem_keys, ← Finmap.lookup_isSome] at ha
    obtain ⟨k, hk⟩ := isSome_iff_exists.1 ha
    obtain ⟨p, hp, hor⟩ := (h.addrs a k).1 hk
    refine Finset.mem_biUnion.2 ⟨k, (isSome_project Session.addrs k).2 (by rw [hp]; rfl), ?_⟩
    rw [hp]
    simpa using hor
  refine (Finset.card_le_card hsub).trans (Finset.card_biUnion_le_card_mul _ _ _ fun k _ => ?_)
  refine (toFinset_card_le _).trans ?_
  cases project t.sessions.get Session.addrs k with
  | none => simp
  | some p =>
    obtain ⟨a, b⟩ := p
    cases a <;> cases b <;> simp

theorem Linked.checkTables (h : t.Linked) {Q : Unit → Tables → Prop} (hq : Q () t) :
    Ends checkTables t Q := by
  simp only [Tables.checkTables, ends_bind, ends_get, ends_assert, decide_eq_true_eq]
  exact ⟨card_of_inverse h.sessionIds, card_of_inverse h.ufrags, card_of_inverse h.trackIds,
    card_of_inverse h.subIds, h.addrs_le, hq⟩

section Steps

variable {v : Session} {tr tr' : PublishedTrack} {b b' : Subscription}
  {Q : Unit → Tables → Prop}

theorem ends_session (h : t.sessions.get k = some s) {Q : Session → Tables → Prop}
    (hq : Q s t) :
    Ends (session k) t Q := by
  simpa [session, h] using hq

theorem ends_track (h : t.tracks.get k = some tr) {Q : PublishedTrack → Tables → Prop}
    (hq : Q tr t) : Ends (track k) t Q := by
  simpa [track, h] using hq

theorem ends_sub (h : t.subs.get k = some b) {Q : Subscription → Tables → Prop} (hq : Q b t) :
    Ends (sub k) t Q := by
  simpa [sub, h] using hq

theorem ends_setSession (h : t.sessions.get k = some s)
    (hq : ∀ sessions : Slab Session, t.sessions.Wrote k v sessions →
      Q () { t with sessions }) : Ends (setSession k v) t Q := by
  obtain ⟨sessions, hset, hw⟩ := Slab.set_spec h v
  simp only [setSession, ends_bind, ends_get, ends_expect, ends_set]
  exact ⟨sessions, hset, hq sessions hw⟩

theorem ends_setTrack (h : t.tracks.get k = some tr)
    (hq : ∀ tracks : Slab PublishedTrack, tracks.get = Function.update t.tracks.get k
      (some tr') → Q () { t with tracks }) : Ends (setTrack k tr') t Q := by
  obtain ⟨tracks, hset, hw⟩ := Slab.set_spec h tr'
  simp only [setTrack, ends_bind, ends_get, ends_expect, ends_set]
  exact ⟨tracks, hset, hq tracks hw.get⟩

theorem ends_setSub (h : t.subs.get k = some b)
    (hq : ∀ subs : Slab Subscription, subs.get = Function.update t.subs.get k (some b') →
      Q () { t with subs }) : Ends (setSub k b') t Q := by
  obtain ⟨subs, hset, hw⟩ := Slab.set_spec h b'
  simp only [setSub, ends_bind, ends_get, ends_expect, ends_set]
  exact ⟨subs, hset, hq subs hw.get⟩

theorem Quiet.setSession (h : t.sessions.get k = Option.some s) (hq : s.Quiet v) :
    Ends (Tables.setSession k v) t fun _ t' =>
      t.Quiet t' ∧ t'.sessions.get = Function.update t.sessions.get k (Option.some v) ∧
      t'.tracks = t.tracks ∧ t'.subs = t.subs := by
  refine ends_setSession h fun sessions hw => ⟨?_, hw.get, rfl, rfl⟩
  refine ⟨rfl, rfl, rfl, rfl, rfl, rfl, hw.slotCount, hw.len, rfl, rfl, fun j r hr => ?_,
    fun j hj => ?_⟩
  · by_cases hjk : j = k
    · subst hjk
      obtain rfl := Option.some.inj (h.symm.trans hr)
      exact ⟨v, by simp [hw.get], hq⟩
    · exact ⟨r, by simp [hw.get, hjk, hr], .refl r⟩
  · have hjk : j ≠ k := fun e => by simp [← e, hj] at h
    simp [hw.get, hjk, hj]

theorem Quiet.setTrack (h : t.tracks.get k = Option.some tr) (hl : tr'.links = tr.links) :
    Ends (Tables.setTrack k tr') t fun _ t' => t.Quiet t' := by
  refine ends_setTrack h fun tracks hget => ?_
  refine ⟨rfl, rfl, rfl, rfl, rfl, rfl, rfl, rfl, ?_, rfl, fun _ r hr => ⟨r, hr, .refl r⟩,
    fun _ => id⟩
  change project tracks.get PublishedTrack.links = _
  rw [project_set _ hget h hl]

theorem Quiet.setSub (h : t.subs.get k = Option.some b) (hl : b'.links = b.links) :
    Ends (Tables.setSub k b') t fun _ t' => t.Quiet t' ∧ t'.sessions = t.sessions := by
  refine ends_setSub h fun subs hget => ⟨?_, rfl⟩
  refine ⟨rfl, rfl, rfl, rfl, rfl, rfl, rfl, rfl, rfl, ?_, fun _ r hr => ⟨r, hr, .refl r⟩,
    fun _ => id⟩
  change project subs.get Subscription.links = _
  rw [project_set _ hget h hl]

end Steps
end Tables
end NexusSfu.Dataplane
