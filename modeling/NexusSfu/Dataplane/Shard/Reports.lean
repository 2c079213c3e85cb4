import NexusSfu.Dataplane.Shard.EventLog
import NexusSfu.Dataplane.Shard.Loop
import NexusSfu.Dataplane.Shard.Packets

namespace NexusSfu.Dataplane

open Base Prog Srtp Option Function List

/-- What a session was told agrees with its flags. A `busy` session has an address yet to be
reported. -/
structure Account.Agrees (busy : Prop) (a : Account) (s : Session) : Prop where
  consentLost : a.consentLost = s.consentLost
  verified : a.verified = true → s.srtpVerified = true
  selected : ¬ busy → ∀ addr, s.addr = some addr → s.unreportedSwitch = none →
    s.consentLost = false → a.selected = some addr

theorem Account.Agrees.of_told {busy : Prop} {a : Account} {s s' : Session} (h : a.Agrees busy s)
    (ht : s'.told = s.told) : a.Agrees busy s' := by
  simp only [Session.told, Session.reported, Prod.mk.injEq] at ht
  obtain ⟨-, haddr, hlost, hver, hunrep⟩ := ht
  refine ⟨h.consentLost.trans hlost.symm, fun hv => hver.trans (h.verified hv), ?_⟩
  rw [haddr, hunrep, hlost]
  exact h.selected

theorem Entry.apply_of_not_kept {e : Event} {waiting : Nat} {fate : Fate} (h : fate.kept = false)
    (id : SessionId) (a : Option Account) : (emitted e waiting fate).apply id a = a := by
  simp [Entry.apply, h]

theorem Entry.apply_of_ne {e : Event} {waiting : Nat} {fate : Fate} {i id : SessionId}
    (h : e.session = some i) (hne : id ≠ i) (a : Option Account) :
    (emitted e waiting fate).apply id a = a := by
  have : e.session ≠ some id := fun he => hne (Option.some.inj (he.symm.trans h))
  simp [Entry.apply, this]

theorem Entry.apply_of_kept {e : Event} {waiting : Nat} {fate : Fate} {id : SessionId}
    (h : e.session = some id) (hk : fate.kept = true) (a : Account) :
    (emitted e waiting fate).apply id (some a) = some (a.hear e) := by
  simp [Entry.apply, h, hk]

theorem FitsEvent.consentLost {log : List Entry} {e : Event} {waiting : Nat} {fate : Fate}
    {id : SessionId} {a : Account} (h : FitsEvent log e waiting fate) (hlog : Recorded log)
    (he : e.session = some id) (ha : account id log = some a) (hk : fate.kept = false)
    (hfull : fate ≠ .full) : a.consentLost = true := by
  have hafter : fate = .afterConsent := by
    cases fate with
    | sent | retained => cases hk
    | full => exact absurd rfl hfull
    | closed => exact absurd rfl h.notClosed
    | afterConsent => rfl
  obtain ⟨id', he', hlost⟩ := h.lost.1 hafter
  obtain rfl := Option.some.inj (he.symm.trans he')
  obtain ⟨a', ha', hl⟩ := hlog.lost_iff.1 hlost
  rwa [Option.some.inj (ha.symm.trans ha')]

structure Accounts (busy : Key → Prop) (t : Tables) (log : List Entry) : Prop where
  unknown : ∀ id, t.sessionIds.lookup id = none → account id log = none
  known : ∀ id k s, t.sessionIds.lookup id = some k → t.sessions.get k = some s →
    ∃ a, account id log = some a ∧ a.Agrees (busy k) s

namespace Accounts

variable {busy busy' : Key → Prop} {t t' : Tables} {log : List Entry} {k : Key} {s v : Session}

theorem sameTold (h : Accounts busy t log) (ht : t.SameTold t') : Accounts busy t' log := by
  refine ⟨fun id hid => h.unknown id (ht.sessionIds ▸ hid), fun id k s' hid hs' => ?_⟩
  have htold := congrFun ht.told k
  rw [project_apply, project_apply, hs'] at htold
  obtain ⟨s, hs, heq⟩ := map_eq_some_iff.1 htold.symm
  obtain ⟨a, ha, hagree⟩ := h.known id k s (ht.sessionIds ▸ hid) hs
  exact ⟨a, ha, hagree.of_told heq.symm⟩

theorem moved (h : Accounts (fun _ => False) t log) (ht : t.Moves k t') :
    Accounts (fun j => j = k) t' log := by
  refine ⟨fun id hid => h.unknown id (ht.sessionIds ▸ hid), fun id j s' hid hs' => ?_⟩
  obtain ⟨s, hs, -, hrep, haddr⟩ := ht.sessions j s' hs'
  obtain ⟨a, ha, hagree⟩ := h.known id j s (ht.sessionIds ▸ hid) hs
  simp only [Session.reported, Prod.mk.injEq] at hrep
  obtain ⟨hlost, hver, hunrep⟩ := hrep
  refine ⟨a, ha, hagree.consentLost.trans hlost.symm, fun hv => hver.trans (hagree.verified hv),
    ?_⟩
  intro hne c hc hnone hopen
  rcases haddr with hj | hsame | hlost'
  · exact absurd hj hne
  · exact hagree.selected not_false c (hsame ▸ hc) (hunrep ▸ hnone) (hlost ▸ hopen)
  · rw [hlost'] at hc
    cases hc

theorem weaken (h : Accounts (fun _ => False) t log) : Accounts busy t log := by
  refine ⟨h.unknown, fun id j r hid hr => ?_⟩
  obtain ⟨a, ha, hagree⟩ := h.known id j r hid hr
  exact ⟨a, ha, hagree.consentLost, hagree.verified, fun _ => hagree.selected not_false⟩

theorem settled (h : Accounts (fun j => j = k) t log) (hs : t.sessions.get k = some s)
    (haddr : s.addr = none) : Accounts (fun _ => False) t log := by
  refine ⟨h.unknown, fun id j r hid hr => ?_⟩
  obtain ⟨a, ha, hagree⟩ := h.known id j r hid hr
  refine ⟨a, ha, hagree.consentLost, hagree.verified, fun _ c hc => ?_⟩
  by_cases hj : j = k
  · subst hj
    obtain rfl := Option.some.inj (hs.symm.trans hr)
    rw [haddr] at hc
    cases hc
  · exact hagree.selected hj c hc

theorem record (h : Accounts busy t log) {e : Entry} (he : ∀ id a, e.apply id a = a) :
    Accounts busy t (log ++ [e]) := by
  constructor
  · intro id hid
    rw [account_snoc, he]
    exact h.unknown id hid
  · intro id j s hid hs
    rw [account_snoc, he]
    exact h.known id j s hid hs

theorem tell (h : Accounts busy t log) (hl : t.Linked) (hs : t.sessions.get k = some s)
    (hids : t'.sessionIds = t.sessionIds)
    (hget : t'.sessions.get = update t.sessions.get k (some v)) {e : Entry}
    (hother : ∀ id a, id ≠ s.id → e.apply id a = a)
    (hbusy : ∀ j, j ≠ k → busy j → busy' j)
    (hown : ∀ a, account s.id log = some a → a.Agrees (busy k) s →
      ∃ a', e.apply s.id (some a) = some a' ∧ a'.Agrees (busy' k) v) :
    Accounts busy' t' (log ++ [e]) := by
  have hid : t.sessionIds.lookup s.id = some k := (hl.sessionIds s.id k).2 (by simp [hs])
  refine ⟨fun id hnone => ?_, fun id j r hj hr => ?_⟩
  · rw [hids] at hnone
    have hne : id ≠ s.id := by
      rintro rfl
      simp [hid] at hnone
    rw [account_snoc, hother id _ hne]
    exact h.unknown id hnone
  · rw [hids] at hj
    by_cases hjk : j = k
    · subst hjk
      obtain rfl : v = r := by simpa [hget] using hr
      obtain rfl : id = s.id := by
        have := (hl.sessionIds id j).1 hj
        simpa [hs] using this.symm
      obtain ⟨a, ha, hagree⟩ := h.known s.id j s hj hs
      obtain ⟨a', ha', hagree'⟩ := hown a ha hagree
      exact ⟨a', by rw [account_snoc, ha, ha'], hagree'⟩
    · have hne : id ≠ s.id := by
        rintro rfl
        exact hjk (Option.some.inj (hj.symm.trans hid))
      have hr' : t.sessions.get j = some r := by simpa [hget, hjk] using hr
      obtain ⟨a, ha, hagree⟩ := h.known id j r hj hr'
      refine ⟨a, by rw [account_snoc, hother id _ hne, ha], hagree.consentLost,
        hagree.verified, ?_⟩
      exact fun hn => hagree.selected fun hb => hn (hbusy j hjk hb)

theorem known_of_ne (h : Accounts busy t log) {o : Option _} {id : SessionId}
    {j : Key} {r : Session}
    (htold : project t'.sessions.get Session.told = update
      (project t.sessions.get Session.told) k o) (hjk : j ≠ k)
    (hj : t.sessionIds.lookup id = some j) (hr : t'.sessions.get j = some r) :
    ∃ a, account id log = some a ∧ a.Agrees (busy j) r := by
  have htold' := congrFun htold j
  rw [update_of_ne hjk, project_apply, project_apply, hr] at htold'
  obtain ⟨r₀, hr₀, heq⟩ := map_eq_some_iff.1 htold'.symm
  obtain ⟨a, ha, hagree⟩ := h.known id j r₀ hj hr₀
  exact ⟨a, ha, hagree.of_told heq.symm⟩

theorem opened (h : Accounts busy t log) (hl : t.Linked) {id : SessionId}
    (hids : t'.sessionIds = t.sessionIds.insert id k) (hk : t.sessions.get k = none)
    (htold : project t'.sessions.get Session.told =
      update (project t.sessions.get Session.told) k (some (id, none, false, false, none))) :
    Accounts busy t' (log ++ [.opened id]) := by
  refine ⟨fun i hnone => ?_, fun i j r hj hr => ?_⟩
  · have hne : i ≠ id := by
      rintro rfl
      simp [hids] at hnone
    rw [hids, Finmap.lookup_insert_of_ne _ hne] at hnone
    rw [account_snoc, Entry.apply, if_neg hne.symm]
    exact h.unknown i hnone
  · by_cases hi : i = id
    · subst hi
      obtain rfl : k = j := by simpa [hids] using hj
      have htold' := congrFun htold k
      rw [project_apply, hr, update_self, map_some, Option.some.injEq] at htold'
      simp only [Session.told, Session.reported, Prod.mk.injEq] at htold'
      obtain ⟨-, haddr, hlost, -, -⟩ := htold'
      refine ⟨.fresh, by simp [Entry.apply], hlost.symm, fun hv => (by cases hv),
        fun _ c hc => ?_⟩
      rw [haddr] at hc
      cases hc
    · rw [hids, Finmap.lookup_insert_of_ne _ hi] at hj
      have hjk : j ≠ k := by
        rintro rfl
        have := (hl.sessionIds i j).1 hj
        simp [hk] at this
      rw [account_snoc, Entry.apply, if_neg (Ne.symm hi)]
      exact h.known_of_ne htold hjk hj hr

theorem closed (h : Accounts busy t log) (hl : t.Linked) {id : SessionId}
    (hk : t.sessionIds.lookup id = some k) (hids : t'.sessionIds = t.sessionIds.erase id)
    (htold : project t'.sessions.get Session.told = update
      (project t.sessions.get Session.told) k none) :
    Accounts busy t' (log ++ [.closed id]) := by
  refine ⟨fun i hnone => ?_, fun i j r hj hr => ?_⟩
  · rw [account_snoc, Entry.apply]
    split_ifs with hi
    · rfl
    · rw [hids, Finmap.lookup_erase_ne (Ne.symm hi)] at hnone
      exact h.unknown i hnone
  · have hi : i ≠ id := by
      rintro rfl
      simp [hids] at hj
    rw [hids, Finmap.lookup_erase_ne hi] at hj
    have hjk : j ≠ k := by
      rintro rfl
      have hname := (hl.sessionIds i j).1 hj
      have hname' := (hl.sessionIds id j).1 hk
      exact hi (Option.some.inj (hname.symm.trans hname'))
    rw [account_snoc, Entry.apply, if_neg (Ne.symm hi)]
    exact h.known_of_ne htold hjk hj hr

end Accounts

def OpenSink (ε : Type) [EventSink ε] : Prop :=
  ∀ (sink : ε) (event : Event), (EventSink.trySend sink event).1 ≠ .closed

namespace Shard

variable {ι ε : Type} {s s' s'' : Shard ι ε} {held : List Nat} {k : Key} {busy : Key → Prop}
  {e : Event} {r : Session}

structure Reports (busy : Key → Prop) (s : Shard ι ε) : Prop where
  outbox : s.outbox.Ordered (s.counters .dropEventFull)
  accounts : Accounts busy s.tables s.outbox.log

structure KeepsRx (s s' : Shard ι ε) : Prop where
  config : s'.config = s.config
  rx : s'.net.rx = s.net.rx
  capacity : s'.net.pool.capacity = s.net.pool.capacity

theorem KeepsRx.refl (s : Shard ι ε) : s.KeepsRx s := ⟨rfl, rfl, rfl⟩

theorem KeepsRx.trans (h : s.KeepsRx s') (h' : s'.KeepsRx s'') : s.KeepsRx s'' :=
  ⟨h'.config.trans h.config, h'.rx.trans h.rx, h'.capacity.trans h.capacity⟩

structure KeepsNet (s s' : Shard ι ε) : Prop where
  config : s'.config = s.config
  net : s'.net = s.net

theorem KeepsNet.refl (s : Shard ι ε) : s.KeepsNet s := ⟨rfl, rfl⟩

theorem KeepsNet.trans (h : s.KeepsNet s') (h' : s'.KeepsNet s'') : s.KeepsNet s'' :=
  ⟨h'.config.trans h.config, h'.net.trans h.net⟩

theorem KeepsNet.keepsRx (h : s.KeepsNet s') : s.KeepsRx s' :=
  ⟨h.config, congrArg Net.rx h.net, congrArg (fun net => net.pool.capacity) h.net⟩

theorem KeepsOutbox.keepsRx (h : s.KeepsOutbox s') : s.KeepsRx s' :=
  ⟨h.config, h.rx, h.capacity⟩

theorem Reports.of_same (h : Reports busy s) (ht : s.tables.SameTold s'.tables)
    (ho : s'.outbox = s.outbox) (hc : s'.counters .dropEventFull = s.counters .dropEventFull) :
    Reports busy s' :=
  ⟨by rw [ho, hc]; exact h.outbox, by rw [ho]; exact h.accounts.sameTold ht⟩

variable [EventSink ε]

structure Inv (held : List Nat) (s : Shard ι ε) : Prop where
  sound : s.Sound held
  reports : OpenSink ε → Reports (fun _ => False) s

theorem Inv.stays (h : s.Inv held) {held' : List Nat} (h' : StaysSound held' s s') : s'.Inv held' :=
  ⟨h'.sound, fun hopen => (h.reports hopen).of_same h'.keepsOutbox.tables.sameTold
    h'.keepsOutbox.outbox h'.keepsOutbox.full⟩

structure Ready (log : List Entry) (e : Event) : Prop where
  subject : ∀ id, e.subject = some id → (account id log).isSome
  verified : ∀ id, e = .peerSrtpVerified id → ∀ a, account id log = some a →
    a.verified = false

structure Emitted (log : List Entry) (e : Event) (delivered : Bool) (s' : Shard ι ε) : Prop where
  outbox : s'.outbox.Ordered (s'.counters .dropEventFull)
  log : ∃ waiting fate, s'.outbox.log = log ++ [.emitted e waiting fate] ∧
    FitsEvent log e waiting fate ∧ (delivered = true ↔ fate ≠ .full)

omit [EventSink ε] in
theorem consentWasLost_spec (h : s.Sound held) (e : Event) {Q : Bool → Shard ι ε → Prop}
    (hq : ∀ lost, (∀ busy, Reports busy s →
      (lost = true ↔ ∃ id, e.session = some id ∧ Lost s.outbox.log id)) → Q lost s) :
    Ends (consentWasLost e) s Q := by
  rw [consentWasLost, ends_bind, ends_get]
  cases hid : e.session.bind s.tables.sessionIds.lookup with
  | none =>
    refine ends_pure.2 (hq false fun busy hrep => ?_)
    simp only [Bool.false_eq_true, false_iff, not_exists, not_and]
    intro id he hlost
    obtain ⟨a, ha, -⟩ := hrep.outbox.recorded.lost_iff.1 hlost
    rw [he, bind_some] at hid
    rw [hrep.accounts.unknown id hid] at ha
    cases ha
  | some k =>
    obtain ⟨id, he, hk⟩ := bind_eq_some_iff.1 hid
    obtain ⟨r, hr, -⟩ := map_eq_some_iff.1 ((h.tables.linked.sessionIds id k).1 hk)
    refine ends_bind.2 (ends_readSession hr (ends_pure.2 (hq _ fun busy hrep => ?_)))
    obtain ⟨a, ha, hagree⟩ := hrep.accounts.known id k r hk hr
    rw [← hagree.consentLost]
    constructor
    · exact fun hl => ⟨id, he, hrep.outbox.recorded.lost_iff.2 ⟨a, ha, hl⟩⟩
    · rintro ⟨id', he', hlost⟩
      obtain rfl := Option.some.inj (he.symm.trans he')
      obtain ⟨a', ha', hl⟩ := hrep.outbox.recorded.lost_iff.1 hlost
      rwa [Option.some.inj (ha.symm.trans ha')]

omit [EventSink ε] in
theorem retain_spec (hle : s.outbox.pending.length ≤ eventRetention) (e : Event) :
    Ends (retain e) s fun delivered s' =>
      ((∃ counters outbox, s' = { s with counters, outbox }) ∧
        s'.outbox.pending.length ≤ eventRetention) ∧
      (s.outbox.Ordered (s.counters .dropEventFull) → Ready s.outbox.log e →
        (¬ ∃ id, e.session = some id ∧ Lost s.outbox.log id) →
        Emitted s.outbox.log e delivered s') := by
  rw [retain, ends_bind, ends_get]
  split_ifs with hfull
  · simp only [count, addTo, note, ends_bind, ends_modify]
    refine ends_pure.2 ⟨⟨⟨_, _, rfl⟩, hle⟩, fun hord hready hlost => ?_⟩
    have hfit : FitsEvent s.outbox.log e s.outbox.pending.length .full :=
      ⟨hready.subject, by simp, by simpa using hlost, fun hd => by simpa [hd] using hfull,
        fun hk => by cases hk⟩
    refine ⟨?_, _, .full, rfl, hfit, by simp⟩
    simpa [Entry.isFull] using hord.record (e := .emitted e _ .full) hfit rfl
  · obtain ⟨hdtls, hne⟩ := not_or.1 hfull
    simp only [note, ends_bind, ends_modify, ends_get, ends_assert, decide_eq_true_eq]
    have hlt : s.outbox.pending.length < eventRetention := Nat.lt_of_le_of_ne hle hne
    simp only [length_append, length_singleton, Nat.add_sub_cancel]
    refine ⟨hlt, ends_pure.2 ⟨⟨⟨_, _, rfl⟩, by simpa [Nat.succ_le_iff] using hlt⟩,
      fun hord hready hlost => ?_⟩⟩
    have hfit : FitsEvent s.outbox.log e s.outbox.pending.length .retained :=
      ⟨hready.subject, by simp, by simpa using hlost, fun _ => by simpa using hne,
        fun _ => hready.verified⟩
    exact ⟨hord.retain hfit (by simpa using hdtls), _, .retained, rfl, hfit, by simp⟩

theorem emit_spec (h : s.Sound held) (busy : Key → Prop) (e : Event) :
    Ends (emit e) s fun delivered s' =>
      ((∃ counters outbox, s' = { s with counters, outbox }) ∧
        s'.outbox.pending.length ≤ eventRetention) ∧
      (OpenSink ε → Reports busy s → Ready s.outbox.log e →
        Emitted s.outbox.log e delivered s') := by
  refine ends_bind.2 (consentWasLost_spec h e fun lost hlost => ?_)
  cases lost with
  | true =>
    simp only [if_true, count, addTo, note, ends_bind, ends_modify]
    refine ends_pure.2 ⟨⟨⟨_, _, rfl⟩, h.pending_le⟩, fun _ hrep hready => ?_⟩
    have hfit : FitsEvent s.outbox.log e s.outbox.pending.length .afterConsent :=
      ⟨hready.subject, by simp, by simpa using hlost busy hrep, fun _ => by simp,
        fun hk => by cases hk⟩
    refine ⟨?_, _, .afterConsent, rfl, hfit, by simp⟩
    simpa [Entry.isFull] using hrep.outbox.record (e := .emitted e _ .afterConsent) hfit rfl
  | false =>
    simp only [Bool.false_eq_true, if_false, ends_bind, ends_get]
    have hnot : ∀ busy, Reports busy s →
        ¬ ∃ id, e.session = some id ∧ Lost s.outbox.log id :=
      fun busy hrep => by simpa using hlost busy hrep
    split_ifs with hfirst
    · generalize hsend : EventSink.trySend s.outbox.events e = sent
      obtain ⟨result, events⟩ := sent
      simp only [ends_bind, ends_set]
      cases result with
      | accepted =>
        simp only [note, ends_bind, ends_modify, length_append, length_singleton,
          Nat.add_sub_cancel]
        refine ends_pure.2 ⟨⟨⟨_, _, rfl⟩, h.pending_le⟩, fun _ hrep hready => ?_⟩
        have hfirst : s.outbox.pending = [] ∨ e.isDtls = true := by simpa using hfirst
        have hfit : FitsEvent s.outbox.log e s.outbox.pending.length .sent := by
          refine ⟨hready.subject, by simp, by simpa using hnot _ hrep, fun hd => ?_,
            fun _ => hready.verified⟩
          rcases hfirst with hnil | hdtls
          · simp [hnil]
          · simp [hdtls] at hd
        exact ⟨hrep.outbox.send hfit hfirst events, _, .sent, rfl, hfit, by simp⟩
      | closed =>
        simp only [note, count, addTo, ends_bind, ends_modify]
        refine ends_pure.2 ⟨⟨⟨_, _, rfl⟩, h.pending_le⟩, fun hopen => ?_⟩
        exact absurd (congrArg Prod.fst hsend) (hopen _ _)
      | full =>
        refine (retain_spec (by exact h.pending_le) e).mono fun delivered s' hs' => ?_
        obtain ⟨⟨⟨c, o, hs'⟩, hle⟩, hem⟩ := hs'
        refine ⟨⟨⟨c, o, hs'⟩, hle⟩, fun _ hrep hready => ?_⟩
        exact hem (hrep.outbox.withEvents events) hready (hnot _ hrep)
    · refine (retain_spec h.pending_le e).mono fun delivered s' hs' => ⟨hs'.1, ?_⟩
      exact fun _ hrep hready => hs'.2 hrep.outbox hready (hnot _ hrep)

omit [EventSink ε] in
theorem ends_flag (h : s.Sound held) (hr : s.tables.sessions.get k = some r) (verified lost : Bool)
    (switch : Option SelectReason) {Q : Unit → Shard ι ε → Prop}
    (hq : ∀ s', s'.Sound held → s.KeepsNet s' → s'.outbox = s.outbox →
      s'.counters = s.counters → s'.tables.sessionIds = s.tables.sessionIds →
      s'.tables.sessions.get = update s.tables.sessions.get k
        (some { r with
          srtpVerified := verified, consentLost := lost, unreportedSwitch := switch }) →
      s'.tables.pendingSwitches = s.tables.pendingSwitches → Q () s') :
    Ends (onTables (Tables.setSession k { r with
      srtpVerified := verified, consentLost := lost, unreportedSwitch := switch })) s Q := by
  have hwf := h.tables.wellFormed k r hr
  refine ends_zoom.2 (Tables.ends_setSession hr fun sessions hw => ?_)
  refine hq _ ⟨?_, h.net, h.limit, h.pending_le⟩ ⟨rfl, rfl⟩ rfl rfl rfl hw.get rfl
  refine Tables.Inv.rewritten
    (v := { r with srtpVerified := verified, consentLost := lost, unreportedSwitch := switch })
    h.tables hr rfl ⟨hwf.ssrcs_nodup, hwf.trackCount_le, hwf.subs_le, hwf.addr_ne,
    hwf.nomination_ne, hwf.srtp_iff, hwf.inbound⟩ ((h.tables.sends k r hr).of_eq rfl rfl rfl) hw

omit [EventSink ε] in
theorem Sound.withOutbox (h : s.Sound held) (counters : Counter → Nat) {outbox : Outbox ε}
    (hle : outbox.pending.length ≤ eventRetention) : { s with counters, outbox }.Sound held :=
  ⟨h.tables, h.net, h.limit, hle⟩

omit [EventSink ε] in
theorem Sound.sessionId (h : s.Sound held) (hr : s.tables.sessions.get k = some r) :
    s.tables.sessionIds.lookup r.id = some k :=
  (h.tables.linked.sessionIds r.id k).2 (by simp [hr])

omit [EventSink ε] in
theorem Reports.account (hrep : Reports busy s) (h : s.Sound held)
    (hr : s.tables.sessions.get k = some r) :
    ∃ a, account r.id s.outbox.log = some a ∧ a.Agrees (busy k) r :=
  hrep.accounts.known r.id k r (h.sessionId hr) hr

omit [EventSink ε] in
theorem Reports.ready (hrep : Reports busy s) (h : s.Sound held)
    (hr : s.tables.sessions.get k = some r) (he : e.session = some r.id)
    (hv : ∀ id, e = .peerSrtpVerified id → r.srtpVerified = false) : Ready s.outbox.log e := by
  obtain ⟨a, ha, hagree⟩ := hrep.account h hr
  refine ⟨fun id hid => ?_, fun id hid a' ha' => ?_⟩
  · have hsame : e.session = some id := by
      cases e <;> simp_all [Event.subject]
    rw [Option.some.inj (hsame.symm.trans he), ha]
    rfl
  · subst hid
    obtain rfl : id = r.id := Option.some.inj he
    obtain rfl := Option.some.inj (ha.symm.trans ha')
    by_contra hver
    have := hagree.verified (by simpa using hver)
    rw [hv _ rfl] at this
    cases this

theorem ends_emit (h : s.Sound held) (hrep : OpenSink ε → Reports busy s)
    (hr : s.tables.sessions.get k = some r) (he : e.session = some r.id)
    (hv : ∀ id, e = .peerSrtpVerified id → r.srtpVerified = false)
    {Q : Bool → Shard ι ε → Prop}
    (hq : ∀ delivered s', s'.Sound held → s.KeepsNet s' → s'.tables = s.tables →
      (OpenSink ε → Emitted s.outbox.log e delivered s') → Q delivered s') :
    Ends (emit e) s Q := by
  refine (emit_spec h busy e).mono
    fun delivered s' ⟨⟨⟨counters, outbox, hs'⟩, hle⟩, hem⟩ => ?_
  subst hs'
  exact hq _ _ (h.withOutbox counters hle) ⟨rfl, rfl⟩ rfl fun hopen =>
    hem hopen (hrep hopen) ((hrep hopen).ready h hr he hv)

omit [EventSink ε] in
theorem Emitted.reports {delivered : Bool} {v : Session} {busy' : Key → Prop}
    (hem : Emitted s.outbox.log e delivered s') (hrep : Reports busy s) (h : s.Sound held)
    (hr : s.tables.sessions.get k = some r) (he : e.session = some r.id)
    (hids : s''.tables.sessionIds = s.tables.sessionIds)
    (hget : s''.tables.sessions.get = update s.tables.sessions.get k (some v))
    (hout : s''.outbox = s'.outbox)
    (hcnt : s''.counters .dropEventFull = s'.counters .dropEventFull)
    (hbusy : ∀ j, j ≠ k → busy j → busy' j)
    (hown : ∀ waiting fate a, FitsEvent s.outbox.log e waiting fate →
      (delivered = true ↔ fate ≠ .full) → account r.id s.outbox.log = some a →
      a.Agrees (busy k) r →
      (if fate.kept then a.hear e else a).Agrees (busy' k) v) : Reports busy' s'' := by
  obtain ⟨hord, waiting, fate, hlog, hfit, hfate⟩ := hem
  refine ⟨by rw [hout, hcnt]; exact hord, ?_⟩
  rw [hout, hlog]
  refine hrep.accounts.tell h.tables.linked hr hids hget
    (fun id a hne => Entry.apply_of_ne he hne a) hbusy fun a ha hagree => ?_
  refine ⟨if fate.kept then a.hear e else a, ?_, hown waiting fate a hfit hfate ha hagree⟩
  split_ifs with hk
  · exact Entry.apply_of_kept he hk a
  · exact Entry.apply_of_not_kept (by simpa using hk) _ _

omit [EventSink ε] in
theorem Emitted.unheard {delivered : Bool} (hem : Emitted s.outbox.log e delivered s')
    (hrep : Reports busy s) (ht : s'.tables = s.tables)
    (hhear : delivered = true → ∀ a : Account, a.hear e = a) : Reports busy s' := by
  obtain ⟨hord, waiting, fate, hlog, -, hfate⟩ := hem
  refine ⟨hord, ?_⟩
  rw [hlog, ht]
  refine hrep.accounts.record fun id a => ?_
  by_cases hk : fate.kept = true
  · have hsame := hhear (hfate.2 fun hfull => by simp [hfull, Fate.kept] at hk)
    simp only [Entry.apply]
    split_ifs
    · cases a <;> simp [hsame]
    · rfl
  · exact Entry.apply_of_not_kept (by simpa using hk) id a

theorem authenticated_spec (h : s.Inv held) (hr : s.tables.sessions.get k = some r)
    (addr : SocketAddr) (now : Nat) :
    Ends (authenticated k addr now) s fun _ s' => s'.Inv held ∧ s.KeepsRx s' ∧
      ∃ r', s'.tables.sessions.get k = some r' := by
  refine ends_bind.2 (ends_readSession hr ?_)
  generalize hv : (if r.addr = some addr then { r with lastRxSelected := now } else r) = v
  have hcore : v.core = r.core := by
    subst hv
    split_ifs <;> rfl
  refine ends_bind.2
    (ends_quietSession h.sound.stays hr (.of_core hcore) fun s₁ h₁ _ hget₁ _ _ => ?_)
  have hinv₁ := h.stays h₁
  have hr₁ : s₁.tables.sessions.get k = some v := by simp [hget₁]
  split_ifs with hver
  · have hver : v.srtpVerified = false := by simpa using hver
    refine ends_bind.2 (ends_emit hinv₁.sound hinv₁.reports hr₁ rfl (fun _ _ => hver)
      fun delivered s₂ hsound₂ hidle₂ htables hem => ?_)
    have hr₂ : s₂.tables.sessions.get k = some v := by rw [htables, hr₁]
    cases delivered with
    | false =>
      refine ends_pure.2 ⟨⟨hsound₂, fun hopen => ?_⟩,
        h₁.keepsOutbox.keepsRx.trans hidle₂.keepsRx, v, hr₂⟩
      exact (hem hopen).unheard (hinv₁.reports hopen) htables fun hd => nomatch hd
    | true =>
      simp only [if_true]
      refine ends_bind.2 (ends_readSession hr₂ ?_)
      refine ends_flag hsound₂ hr₂ true v.consentLost v.unreportedSwitch
        fun s₃ hsound₃ hidle₃ hout hcnt hids hget₃ _ => ?_
      refine ⟨⟨hsound₃, fun hopen => ?_⟩,
        h₁.keepsOutbox.keepsRx.trans (hidle₂.trans hidle₃).keepsRx, _,
        (congrFun hget₃ k).trans (update_self ..)⟩
      refine (hem hopen).reports (hinv₁.reports hopen) hinv₁.sound hr₁ rfl
        (by rw [hids, htables])
        (by rw [hget₃, htables]) hout (by rw [hcnt]) (fun _ _ hb => hb)
        fun waiting fate a _ _ _ hagree => ?_
      split_ifs with hk
      · exact ⟨hagree.consentLost, fun _ => rfl, hagree.selected⟩
      · exact ⟨hagree.consentLost, fun _ => rfl, hagree.selected⟩
  · exact ends_pure.2 ⟨hinv₁, h₁.keepsOutbox.keepsRx, v, hr₁⟩

theorem reportSwitch_spec (h : s.Sound held) (hrep : OpenSink ε → Reports (fun j => j = k) s)
    (hr : s.tables.sessions.get k = some r) (reason : SelectReason) :
    Ends (reportSwitch k reason) s fun _ s' => s'.Inv held ∧ s.KeepsNet s' ∧
      (∃ r', s'.tables.sessions.get k = some r') ∧
        s'.tables.pendingSwitches = s.tables.pendingSwitches := by
  refine ends_bind.2 (ends_readSession hr ?_)
  cases haddr : r.addr with
  | none =>
    refine ends_pure.2 ⟨⟨h, fun hopen => ⟨(hrep hopen).outbox, ?_⟩⟩, .refl _,
      ⟨r, hr⟩, rfl⟩
    exact (hrep hopen).accounts.settled hr haddr
  | some addr =>
    refine ends_bind.2 (ends_emit h hrep hr rfl (by simp)
      fun delivered s₁ hsound₁ hidle₁ htables hem => ?_)
    have hr₁ : s₁.tables.sessions.get k = some r := by rw [htables, hr]
    refine ends_bind.2 (ends_readSession hr₁ ?_)
    refine ends_flag hsound₁ hr₁ r.srtpVerified r.consentLost
      (if delivered then none else some reason)
      fun s₂ hsound₂ hidle₂ hout hcnt hids hget₂ hsw => ?_
    refine ⟨⟨hsound₂, fun hopen => ?_⟩, hidle₁.trans hidle₂,
      ⟨_, (congrFun hget₂ k).trans (update_self ..)⟩, by rw [hsw, htables]⟩
    refine (hem hopen).reports (hrep hopen) h hr rfl (by rw [hids, htables])
      (by rw [hget₂, htables]) hout (by rw [hcnt]) (fun _ hne hb => hne hb)
      fun waiting fate a hfit hfate ha hagree => ?_
    split_ifs with hk hdel hdel
    · refine ⟨hagree.consentLost, hagree.verified, fun _ c hc _ _ => ?_⟩
      exact haddr.symm.trans hc
    · exact ⟨hagree.consentLost, hagree.verified, fun _ c _ hnone => nomatch hnone⟩
    · refine ⟨hagree.consentLost, hagree.verified, fun _ c _ _ hopen' => ?_⟩
      have hlost : a.consentLost = true :=
        hfit.consentLost (hrep hopen).outbox.recorded rfl ha (by simpa using hk) (hfate.1 hdel)
      rw [hagree.consentLost] at hlost
      exact absurd hlost (by simpa using hopen')
    · exact ⟨hagree.consentLost, hagree.verified, fun _ c _ hnone => nomatch hnone⟩

theorem checkConsent_spec (h : s.Inv held) (hr : s.tables.sessions.get k = some r) (now : Nat) :
    Ends (checkConsent k now) s fun _ s' => s'.Inv held ∧ s.KeepsNet s' := by
  refine ends_bind.2 (ends_readSession hr ?_)
  simp only [ends_bind, ends_get]
  split_ifs with hskip
  · exact ends_pure.2 ⟨h, .refl _⟩
  have hnot : r.consentLost = false := by
    have := (not_or.1 hskip).1
    simpa using this
  refine ends_bind.2 (ends_emit h.sound h.reports hr rfl (by simp)
    fun delivered s₁ hsound₁ hidle₁ htables hem => ?_)
  have hr₁ : s₁.tables.sessions.get k = some r := by rw [htables, hr]
  cases delivered with
  | false =>
    refine ends_pure.2 ⟨⟨hsound₁, fun hopen => ?_⟩, hidle₁⟩
    exact (hem hopen).unheard (h.reports hopen) htables (by simp)
  | true =>
    simp only [if_true]
    refine ends_bind.2 (ends_readSession hr₁ ?_)
    refine ends_bind.2 (ends_flag hsound₁ hr₁ r.srtpVerified true r.unreportedSwitch
      fun s₂ hsound₂ hidle₂ hout hcnt hids hget₂ _ => ?_)
    refine ends_count hsound₂.stays (by decide) fun s₃ h₃ _ hnet₃ => ?_
    have hinv₂ : s₂.Inv held := by
      refine ⟨hsound₂, fun hopen => ?_⟩
      refine (hem hopen).reports (h.reports hopen) h.sound hr rfl (by rw [hids, htables])
        (by rw [hget₂, htables]) hout (by rw [hcnt]) (fun _ _ hb => hb)
        fun waiting fate a hfit hfate ha hagree => ?_
      split_ifs with hk
      · exact ⟨rfl, hagree.verified, by simp⟩
      · have hlost : a.consentLost = true :=
          hfit.consentLost (h.reports hopen).outbox.recorded rfl ha
          (by simpa using hk) (hfate.1 rfl)
        rw [hagree.consentLost, hnot] at hlost
        cases hlost
    exact ⟨hinv₂.stays h₃,
      hidle₁.trans (hidle₂.trans ⟨h₃.keepsOutbox.config, hnet₃⟩)⟩

theorem offerPending_spec (queue : List Emission) :
    ∀ {s : Shard ι ε}, s.Inv held → s.outbox.pending = queue →
      Ends (offerPending queue) s fun _ s' => s'.Inv held ∧ s.KeepsNet s' := by
  induction queue with
  | nil => exact fun h _ => ends_pure.2 ⟨h, .refl _⟩
  | cons m rest ih =>
    intro s h hq
    have hle : rest.length ≤ eventRetention := by
      have := h.sound.pending_le
      rw [hq] at this
      exact (Nat.le_succ _).trans this
    rw [offerPending, ends_bind, ends_get]
    generalize hsend : EventSink.trySend s.outbox.events m.event = sent
    obtain ⟨result, events⟩ := sent
    cases result with
    | accepted =>
      refine ends_bind.2 (ends_set.2 ?_)
      refine (ih ⟨h.sound.withOutbox s.counters hle, fun hopen => ?_⟩ rfl).mono
        fun _ s' h' => ⟨h'.1, h'.2.config, h'.2.net⟩
      exact ⟨(h.reports hopen).outbox.offer hq events, (h.reports hopen).accounts⟩
    | closed =>
      simp only [count, addTo, ends_bind, ends_set, ends_modify]
      refine (ih ⟨h.sound.withOutbox _ hle, fun hopen => ?_⟩ rfl).mono
        fun _ s' h' => ⟨h'.1, h'.2.config, h'.2.net⟩
      exact absurd (congrArg Prod.fst hsend) (hopen _ _)
    | full =>
      refine ends_set.2 ⟨⟨h.sound.withOutbox s.counters h.sound.pending_le, fun hopen => ?_⟩,
        rfl, rfl⟩
      exact ⟨(h.reports hopen).outbox.withEvents events, (h.reports hopen).accounts⟩

theorem pushPending_spec (h : s.Inv held) :
    Ends pushPending s fun _ s' => s'.Inv held ∧ s.KeepsNet s' :=
  ends_bind.2 (ends_get.2 (offerPending_spec _ h rfl))

end Shard
end NexusSfu.Dataplane
