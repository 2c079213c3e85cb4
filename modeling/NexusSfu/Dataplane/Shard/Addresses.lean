import NexusSfu.Dataplane.Shard.Ingress
import NexusSfu.Dataplane.Shard.Insertion

namespace NexusSfu.Dataplane

open Base Prog Srtp Option Function

namespace Session

variable {s : Session} {a c : SocketAddr}

def forget (a : SocketAddr) (s : Session) : Session :=
  { s with
    addr := if s.addr = some a then none else s.addr
    prevAddr := if s.prevAddr = some a then none else s.prevAddr }

def select (a : SocketAddr) (now : Nat) (s : Session) : Session :=
  { s with prevAddr := s.addr, addr := some a, lastRxSelected := now, lastSwitch := some now }

theorem forget_of_ne (h : s.addr ≠ some a) (h' : s.prevAddr ≠ some a) : s.forget a = s := by
  simp [forget, h, h']

theorem forget_addr (h : (s.forget a).addr = some c) : s.addr = some c ∧ c ≠ a := by
  simp only [forget] at h
  split_ifs at h with ha
  refine ⟨h, ?_⟩
  rintro rfl
  exact ha h

theorem forget_prevAddr (h : (s.forget a).prevAddr = some c) : s.prevAddr = some c ∧ c ≠ a := by
  simp only [forget] at h
  split_ifs at h with ha
  refine ⟨h, ?_⟩
  rintro rfl
  exact ha h

theorem forget_has (h : c ≠ a) : ((s.forget a).addr = some c ↔ s.addr = some c) ∧
      ((s.forget a).prevAddr = some c ↔ s.prevAddr = some c) := by
  have hne : ¬ a = c := fun e => h e.symm
  constructor
  · refine ⟨fun hc => (forget_addr hc).1, fun hc => ?_⟩
    simp [forget, hc, h]
  · refine ⟨fun hc => (forget_prevAddr hc).1, fun hc => ?_⟩
    simp [forget, hc, h]

theorem WellFormed.forget (h : s.WellFormed) (a : SocketAddr) : (s.forget a).WellFormed where
  ssrcs_nodup := h.ssrcs_nodup
  trackCount_le := h.trackCount_le
  subs_le := h.subs_le
  addr_ne _ hc hp := h.addr_ne _ (forget_addr hc).1 (forget_prevAddr hp).1
  nomination_ne c hn hc := h.nomination_ne c hn (forget_addr hc).1
  srtp_iff := h.srtp_iff
  inbound := h.inbound

theorem WellFormed.select (h : s.WellFormed) (ha : s.addr ≠ some a)
    (hn : s.pendingNomination = none) (now : Nat) : (s.select a now).WellFormed where
  ssrcs_nodup := h.ssrcs_nodup
  trackCount_le := h.trackCount_le
  subs_le := h.subs_le
  addr_ne c hc hp := ha (hp.trans hc.symm)
  nomination_ne c hc := by
    rw [show (s.select a now).pendingNomination = none from hn] at hc
    cases hc
  srtp_iff := h.srtp_iff
  inbound := h.inbound

end Session

namespace Tables

variable {t t' t'' : Tables} {k j : Key} {s v : Session} {a : SocketAddr} {maxSessions now : Nat}
  {sessions : Slab Session}

structure Moves (k : Key) (t t' : Tables) : Prop where
  sessionIds : t'.sessionIds = t.sessionIds
  sessions : ∀ j s', t'.sessions.get j = some s' →
    ∃ s, t.sessions.get j = some s ∧ s'.id = s.id ∧ s'.reported = s.reported ∧
    (j = k ∨ s'.addr = s.addr ∨ s'.addr = none)
  switches : t'.pendingSwitches = t.pendingSwitches

section PrevAddr

theorem Inv.readdressed {byAddr : Map SocketAddr Key} {l : List Key} (h : t.Inv maxSessions)
    (hs : t.sessions.get k = some s) (hw : t.sessions.Wrote k v sessions)
    (hsame : v.id = s.id ∧ v.ufrag = s.ufrag ∧ v.subs = s.subs ∧ v.tracks = s.tracks)
    (hwf : v.WellFormed) (hsends : v.Sends (t.sentBy s.subs))
    (haddrs : ∀ a j, byAddr.lookup a = some j ↔
      ∃ p, project sessions.get Session.addrs j = some p ∧ (p.1 = some a ∨ p.2 = some a))
    (hnodup : l.Nodup)
    (hswitches : ∀ j, j ∈ l ↔ project sessions.get Session.switchListed j = some true) :
    { t with sessions, byAddr, pendingSwitches := l }.Inv maxSessions := by
  obtain ⟨hid, hufrag, hsubs, htracks⟩ := hsame
  refine ⟨⟨?_, ?_, h.linked.trackIds, h.linked.subIds, ?_, h.linked.trackSubs, ?_, haddrs,
    hnodup, hswitches⟩, ?_, ?_, hw.slotCount ▸ h.slots, hw.len ▸ h.len⟩
  · rw [project_set Session.id hw.get hs hid]
    exact h.linked.sessionIds
  · rw [project_set Session.ufrag hw.get hs hufrag]
    exact h.linked.ufrags
  · rw [project_set Session.subs hw.get hs hsubs]
    exact h.linked.sessionSubs
  · rw [project_set Session.tracks hw.get hs htracks]
    exact h.linked.sessionTracks
  · simp only [hw.get]
    exact forall_update hwf fun j r _ => h.wellFormed j r
  · simp only [hw.get]
    exact forall_update (P := fun r => r.Sends (t.sentBy r.subs)) (hsubs.symm ▸ hsends)
      fun j r _ => h.sends j r

theorem Inv.dropped (h : t.Inv maxSessions) (hs : t.sessions.get k = some s)
    (hw : t.sessions.Wrote k { s with prevAddr := none } sessions) :
    { t with sessions, byAddr := unmap t.byAddr k s.prevAddr }.Inv maxSessions := by
  have hwf := h.wellFormed k s hs
  have hheld : ∀ c, t.byAddr.lookup c = some k ↔ s.addr = some c ∨ s.prevAddr = some c := by
    intro c
    simp [h.linked.addrs c k, hs, Session.addrs]
  refine h.readdressed hs hw ⟨rfl, rfl, rfl, rfl⟩ ?_ ((h.sends k s hs).of_eq rfl rfl rfl)
    (fun c j => ?_)
    h.linked.switches_nodup ?_
  · exact ⟨hwf.ssrcs_nodup, hwf.trackCount_le, hwf.subs_le, by simp, hwf.nomination_ne,
      hwf.srtp_iff, hwf.inbound⟩
  · simp only [lookup_unmap, hw.get, project_update]
    by_cases hj : j = k
    · subst hj
      rw [update_self]
      simp only [Session.addrs, Option.some.injEq, exists_eq_left', reduceCtorEq, or_false]
      split_ifs with hc
      · simp only [false_iff]
        exact fun ha => hwf.addr_ne c ha hc.1
      · rw [hheld c]
        refine or_iff_left fun hp => hc ⟨hp, (hheld c).2 (.inr hp)⟩
    · rw [update_of_ne hj, ← h.linked.addrs c j]
      split_ifs with hc
      · simp only [false_iff]
        exact fun e => hj (Option.some.inj (e.symm.trans hc.2))
      · rfl
  · rw [project_set Session.switchListed hw.get hs rfl]
    exact h.linked.switches

theorem dropPrevAddr_spec (h : t.Inv maxSessions) (hs : t.sessions.get k = some s) :
    Ends (dropPrevAddr k) t fun _ t' => t'.Inv maxSessions ∧ t.SameTold t' ∧
      t'.sessions.get = Function.update t.sessions.get k (some { s with prevAddr := none }) ∧
      t'.pendingSwitches = t.pendingSwitches := by
  rw [dropPrevAddr, ends_bind]
  refine ends_session hs ?_
  refine ends_bind.2 (ends_setSession hs fun sessions hw => ?_)
  rw [unmapAddr, ends_modify]
  exact ⟨h.dropped hs hw, ⟨rfl, project_set Session.told hw.get hs rfl⟩, hw.get,
    rfl⟩

end PrevAddr

section Select

theorem project_moved {β : Type} (f : Session → β) (hs : t.sessions.get k = some s)
    (hget : sessions.get = fun j => if j = k then some (s.select a now)
      else (t.sessions.get j).map (Session.forget a))
    (hselect : f (s.select a now) = f s) (hforget : ∀ r : Session, f (r.forget a) = f r) :
    project sessions.get f = project t.sessions.get f := by
  funext j
  simp only [project_apply, hget]
  split_ifs with hj
  · rw [hj, hs]
    simp [hselect]
  · cases t.sessions.get j with
    | none => rfl
    | some r => simp [hforget]

theorem Inv.moved (h : t.Inv maxSessions) (hs : t.sessions.get k = some s) (ha : s.addr ≠ some a)
    (hp : s.prevAddr = none) (hn : s.pendingNomination = none)
    (hget : sessions.get = fun j => if j = k then some (s.select a now)
      else (t.sessions.get j).map (Session.forget a))
    (hlen : sessions.len = t.sessions.len) (hslots : sessions.slotCount = t.sessions.slotCount) :
    { t with sessions, byAddr := t.byAddr.insert a k }.Inv maxSessions := by
  have hold : ∀ j r, sessions.get j = some r → (j = k ∧ r = s.select a now) ∨
      ∃ r₀, t.sessions.get j = some r₀ ∧ r = r₀.forget a := by
    intro j r hr
    simp only [hget] at hr
    split_ifs at hr with hj
    · exact .inl ⟨hj, (Option.some.inj hr).symm⟩
    · obtain ⟨r₀, hr₀, rfl⟩ := map_eq_some_iff.1 hr
      exact .inr ⟨r₀, hr₀, rfl⟩
  refine ⟨⟨?_, ?_, h.linked.trackIds, h.linked.subIds, ?_, h.linked.trackSubs, ?_,
    fun c j => ?_, h.linked.switches_nodup, ?_⟩, fun j r hr => ?_, fun j r hr => ?_,
    hslots ▸ h.slots, hlen ▸ h.len⟩
  · rw [project_moved Session.id hs hget rfl fun _ => rfl]
    exact h.linked.sessionIds
  · rw [project_moved Session.ufrag hs hget rfl fun _ => rfl]
    exact h.linked.ufrags
  · rw [project_moved Session.subs hs hget rfl fun _ => rfl]
    exact h.linked.sessionSubs
  · rw [project_moved Session.tracks hs hget rfl fun _ => rfl]
    exact h.linked.sessionTracks
  · simp only [project_apply, hget]
    by_cases hc : c = a
    · subst hc
      rw [Finmap.lookup_insert]
      split_ifs with hj
      · simp [hj, Session.addrs, Session.select]
      · -- Everyone else lost the address.
        simp only [Option.some.injEq, Ne.symm hj, false_iff, not_exists, not_and, map_map,
          map_eq_some_iff]
        rintro p ⟨r, -, rfl⟩ (hr | hr)
        · exact (Session.forget_addr hr).2 rfl
        · exact (Session.forget_prevAddr hr).2 rfl
    · rw [Finmap.lookup_insert_of_ne _ hc, h.linked.addrs c j]
      have hca : ¬ a = c := fun e => hc e.symm
      split_ifs with hj
      · simp [hj, hs, Session.addrs, Session.select, hp, hca]
      · cases hr : t.sessions.get j with
        | none => simp [hr]
        | some r => simp [hr, Session.addrs, Session.forget_has hc]
  · rw [project_moved Session.switchListed hs hget rfl fun _ => rfl]
    exact h.linked.switches
  · rcases hold j r hr with ⟨-, rfl⟩ | ⟨r₀, hr₀, rfl⟩
    · exact (h.wellFormed k s hs).select ha hn now
    · exact (h.wellFormed j r₀ hr₀).forget a
  · rcases hold j r hr with ⟨-, rfl⟩ | ⟨r₀, hr₀, rfl⟩
    · exact (h.sends k s hs).of_eq rfl rfl rfl
    · exact (h.sends j r₀ hr₀).of_eq rfl rfl rfl

theorem Moves.of_get (hs : t.sessions.get k = some s) (hids : t'.sessionIds = t.sessionIds)
    (hget : t'.sessions.get = fun j => if j = k then some (s.select a now)
      else (t.sessions.get j).map (Session.forget a))
    (hswitches : t'.pendingSwitches = t.pendingSwitches) : t.Moves k t' := by
  refine ⟨hids, fun j r hr => ?_, hswitches⟩
  rw [hget] at hr
  simp only at hr
  split_ifs at hr with hj
  · obtain rfl := Option.some.inj hr
    exact ⟨s, hj ▸ hs, rfl, rfl, .inl hj⟩
  · obtain ⟨r₀, hr₀, rfl⟩ := map_eq_some_iff.1 hr
    refine ⟨r₀, hr₀, rfl, rfl, .inr ?_⟩
    simp only [Session.forget]
    split_ifs
    · exact .inr rfl
    · exact .inl rfl

theorem Moves.of_sameTold (h : t.SameTold t') (hswitches : t'.pendingSwitches = t.pendingSwitches)
    (h' : t'.Moves k t'') : t.Moves k t'' := by
  refine ⟨h'.sessionIds.trans h.sessionIds, fun j r hr => ?_, h'.switches.trans hswitches⟩
  obtain ⟨s', hs', hid, hrep, haddr⟩ := h'.sessions j r hr
  have htold := congrFun h.told j
  rw [project_apply, project_apply, hs'] at htold
  obtain ⟨s, hs, heq⟩ := map_eq_some_iff.1 htold.symm
  simp only [Session.told, Prod.mk.injEq] at heq
  refine ⟨s, hs, hid.trans heq.1.symm, hrep.trans heq.2.2.symm, ?_⟩
  rwa [heq.2.1]

theorem Linked.forget_eq (h : t.Linked) {r : Session} (hr : t.sessions.get j = some r)
    (hj : t.byAddr.lookup a ≠ some j) : r.forget a = r := by
  have hnot : ¬ (r.addr = some a ∨ r.prevAddr = some a) := fun hor =>
    hj ((h.addrs a j).2 ⟨r.addrs, by simp [hr], hor⟩)
  exact Session.forget_of_ne (fun e => hnot (.inl e)) fun e => hnot (.inr e)

theorem claimAddress_spec (h : t.Linked) (hs : t.sessions.get k = some s) (ha : s.addr ≠ some a)
    (hp : s.prevAddr = none) (hw : t.sessions.Wrote k (s.select a now) sessions)
    {Q : Unit → Tables → Prop}
    (hq : ∀ sessions' : Slab Session,
      (sessions'.get = fun j => if j = k then some (s.select a now)
        else (t.sessions.get j).map (Session.forget a)) →
      sessions'.len = t.sessions.len → sessions'.slotCount = t.sessions.slotCount →
      Q () { t with sessions := sessions', byAddr := t.byAddr.insert a k }) :
    Ends (claimAddress k a) { t with sessions } Q := by
  simp only [claimAddress, ends_bind, ends_get, ends_set]
  cases hold : t.byAddr.lookup a with
  | none =>
    refine ends_pure.2 (hq sessions (funext fun j => ?_) hw.len hw.slotCount)
    simp only [hw.get, update_apply]
    split_ifs with hj
    · rfl
    · cases hr : t.sessions.get j with
      | none => rfl
      | some r => simp [h.forget_eq (a := a) hr (by simp [hold])]
  | some other =>
    obtain ⟨p, hproj, hhas⟩ := (h.addrs a other).1 hold
    obtain ⟨r, hr, rfl⟩ := map_eq_some_iff.1 hproj
    have hne : other ≠ k := by
      rintro rfl
      obtain rfl := Option.some.inj (hs.symm.trans hr)
      rcases hhas with e | e
      · exact ha e
      · exact absurd (hp.symm.trans e) (by simp)
    have hr' : sessions.get other = some r := by simp [hw.get, hne, hr]
    simp only [if_pos hne, forgetAddress, ends_bind]
    refine ends_session (by exact hr') ?_
    refine ends_setSession (by exact hr') fun sessions' hw' => ?_
    refine hq sessions' (funext fun j => ?_) (hw'.len.trans hw.len)
      (hw'.slotCount.trans hw.slotCount)
    have hforget : sessions'.get = Function.update sessions.get other (some (r.forget a)) := hw'.get
    simp only [hforget, hw.get, update_apply]
    split_ifs with hj hk hk
    · exact absurd (hj.symm.trans hk) hne
    · rw [hj, hr]
      rfl
    · rfl
    · cases hr' : t.sessions.get j with
      | none => rfl
      | some r' => simp [h.forget_eq hr' (fun e => hj (Option.some.inj (e.symm.trans hold)))]

theorem selectAddr_spec (h : t.Inv maxSessions) (hs : t.sessions.get k = some s)
    (ha : s.addr ≠ some a) (hn : s.pendingNomination = none) (now : Nat) :
    Ends (selectAddr k a now) t fun _ t' => t'.Inv maxSessions ∧ t.Moves k t' ∧
      ∃ s', t'.sessions.get k = some s' := by
  rw [selectAddr, ends_bind]
  refine ends_session hs ?_
  refine ends_bind.2 (ends_assert.2 ⟨by simpa using ha, ?_⟩)
  refine ends_bind.2
    ((dropPrevAddr_spec h hs).mono fun _ t₁ ⟨h₁, htold, hget₁, hsw⟩ => ?_)
  have hs₁ := (congrFun hget₁ k).trans (update_self ..)
  refine ends_bind.2 (ends_session hs₁ ?_)
  refine ends_bind.2 (ends_setSession hs₁ fun sessions hw => ?_)
  refine claimAddress_spec h₁.linked hs₁ ha rfl hw fun sessions' hget' hlen hslots => ?_
  refine ⟨h₁.moved hs₁ ha rfl hn hget' hlen hslots, ?_, ?_⟩
  · exact .of_sameTold htold hsw (.of_get hs₁ rfl hget' rfl)
  · exact ⟨_, (congrFun hget' k).trans (if_pos rfl)⟩

end Select

section Switches

theorem Inv.switches_lt (h : t.Inv maxSessions) (hs : t.sessions.get k = some s)
    (hl : s.switchListed = false) : t.pendingSwitches.length < maxSessions := by
  have hnot : k ∉ t.pendingSwitches := by
    rw [h.linked.switches k]
    simp [hs, hl]
  have hsub : (k :: t.pendingSwitches).toFinset ⊆ t.sessions.keys := by
    intro j hj
    rw [isSome_project Session.switchListed]
    rcases List.mem_cons.1 (List.mem_toFinset.1 hj) with rfl | hj
    · simp [hs]
    · rw [(h.linked.switches j).1 hj]
      rfl
  have hcard := Finset.card_le_card hsub
  rw [List.toFinset_card_of_nodup (List.nodup_cons.2 ⟨hnot, h.linked.switches_nodup⟩),
    t.sessions.card_keys, List.length_cons] at hcard
  exact Nat.lt_of_lt_of_le hcard h.len

theorem Inv.listed (h : t.Inv maxSessions) (hs : t.sessions.get k = some s) {listed : Bool}
    {nomination : Option SocketAddr} {l : List Key}
    (hn : ∀ c, nomination = some c → s.addr ≠ some c) (hnodup : l.Nodup)
    (hk : k ∈ l ↔ listed = true) (hl : ∀ j, j ≠ k → (j ∈ l ↔ j ∈ t.pendingSwitches))
    (hw : t.sessions.Wrote k { s with pendingNomination := nomination, switchListed := listed }
      sessions) :
    { t with sessions, pendingSwitches := l }.Inv maxSessions := by
  have hwf := h.wellFormed k s hs
  refine h.readdressed hs hw ⟨rfl, rfl, rfl, rfl⟩ ?_
    ((h.sends k s hs).of_eq rfl rfl rfl) ?_ hnodup fun j => ?_
  · exact ⟨hwf.ssrcs_nodup, hwf.trackCount_le, hwf.subs_le, hwf.addr_ne, hn, hwf.srtp_iff,
      hwf.inbound⟩
  · rw [project_set Session.addrs hw.get hs rfl]
    exact h.linked.addrs
  · simp only [hw.get, project_update]
    by_cases hj : j = k
    · subst hj
      simpa using hk
    · rw [update_of_ne hj, ← h.linked.switches j]
      exact hl j hj

theorem deferNomination_spec (h : t.Inv maxSessions) (hs : t.sessions.get k = some s)
    (ha : s.addr ≠ some a) :
    Ends (Shard.deferNomination maxSessions k a) t fun _ t' => t'.Inv maxSessions ∧
      t.SameTold t' := by
  have hn : ∀ c, some a = some c → s.addr ≠ some c := by
    rintro _ ⟨⟩
    exact ha
  rw [Shard.deferNomination, ends_bind]
  refine ends_session hs ?_
  split_ifs with hl
  · refine ends_setSession hs fun sessions hw => ?_
    have hk : k ∈ t.pendingSwitches ↔ s.switchListed = true := by
      rw [h.linked.switches k]
      simp [hs]
    exact ⟨h.listed hs hn h.linked.switches_nodup hk (fun _ _ => Iff.rfl) hw, rfl,
      project_set Session.told hw.get hs rfl⟩
  · have hl : s.switchListed = false := by simpa using hl
    have hnot : k ∉ t.pendingSwitches := by
      rw [h.linked.switches k]
      simp [hs, hl]
    simp only [ends_bind, ends_get, ends_assert, decide_eq_true_eq]
    refine ⟨h.switches_lt hs hl, ends_setSession hs fun sessions hw => ?_⟩
    refine ends_modify.2 ⟨h.listed hs hn ?_ ?_ ?_ hw, rfl,
      project_set Session.told hw.get hs rfl⟩
    · refine List.nodup_append.2 ⟨h.linked.switches_nodup, List.nodup_singleton k, ?_⟩
      rintro j hj _ hk rfl
      exact hnot (List.mem_singleton.1 hk ▸ hj)
    · simp
    · intro j hj
      simp [hj]

theorem Inv.unlisted (h : t.Inv maxSessions) {i : Nat} (hi : t.pendingSwitches[i]? = some k)
    (hs : t.sessions.get k = some s)
    (hw : t.sessions.Wrote k { s with switchListed := false, pendingNomination := none } sessions) :
    { t with sessions, pendingSwitches := swapRemove t.pendingSwitches i }.Inv maxSessions := by
  obtain ⟨hlt, hget⟩ := List.getElem?_eq_some_iff.1 hi
  have hperm : t.pendingSwitches.Perm (k :: swapRemove t.pendingSwitches i) := by
    rw [← hget]
    exact (List.getElem_cons_eraseIdx_perm hlt).symm.trans ((swapRemove_perm hlt).symm.cons _)
  have hnodup := List.nodup_cons.1 (hperm.nodup_iff.1 h.linked.switches_nodup)
  have hnone : ∀ c, none = some c → s.addr ≠ some c := fun c hc => nomatch hc
  refine h.listed hs hnone hnodup.2 (by simpa using hnodup.1) (fun j hj => ?_) hw
  simp [hperm.mem_iff, hj]

end Switches
end Tables
end NexusSfu.Dataplane
