import NexusSfu.Dataplane.Shard.Nominations

namespace NexusSfu.Dataplane

open Base Prog Srtp Function Tables Option List

instance (c : Card) (now : Nat) : Decidable (c.Recent now) :=
  decidable_of_iff _ Card.recent_iff.symm

def Session.rebinds (r : Session) (silence : Nat) (a : SocketAddr) (now : Nat) : Bool :=
  r.addr.isSome && r.addr != some a && decide (now - r.lastRxSelected ≥ silence) &&
    !r.lastSwitch.any fun last => decide (now - last < minSwitchInterval)

namespace Book

variable {b b' : Book} {x : Switch} {j k : Key} {c : Card} {a y : SocketAddr} {now : Nat}
  {nominated : Bool}

def Lays (b : Book) (k : Key) (a : SocketAddr) : Prop :=
  ∃ c, b k = some c ∧ (c.addr = some a ∨ c.nomination = some a)

theorem Keeps.lays (h : b.Keeps b') (hk : b'.Lays k a) : b.Lays k a := by
  obtain ⟨c', hc', ha⟩ := hk
  rcases h k c' hc' with ⟨-, ice, rfl⟩ | ⟨c, hc, hlike⟩
  · simp [Card.blank] at ha
  · exact ⟨c, hc, by rwa [hlike.addr, hlike.nomination] at ha⟩

theorem Switches.lays (h : b.Switches x b') (hk : b'.Lays k a) :
    b.Lays k a ∨ k = x.key ∧ a = x.addr := by
  obtain ⟨d, hd, ha⟩ := hk
  by_cases hkey : k = x.key
  · obtain ⟨-, c', -, hc', -, -, haddr, hnom, -⟩ := h.own
    cases hd.symm.trans (hkey ▸ hc')
    rw [haddr, hnom] at ha
    exact .inr ⟨hkey, Option.some.inj (ha.resolve_right nofun).symm⟩
  · rcases h.others k hkey with hsame | ⟨c, hc, -, hlost⟩
    · exact .inl ⟨d, hsame ▸ hd, ha⟩
    · cases hd.symm.trans hlost
      exact .inl ⟨c, hc, .inr (ha.resolve_left nofun)⟩

theorem lays_update {c' : Card} (hj : b j = some c) (haddr : c'.addr = c.addr)
    (hnom : ∀ x, c'.nomination = some x → c.nomination = some x ∨ x = y)
    (hk : Lays (Function.update b j (some c')) k a) : b.Lays k a ∨ k = j ∧ a = y := by
  obtain ⟨d, hd, ha⟩ := hk
  rw [update_apply] at hd
  split_ifs at hd with hkj
  · cases hd
    subst hkj
    rcases ha with ha | ha
    · exact .inl ⟨c, hj, .inl (haddr ▸ ha)⟩
    · exact (hnom a ha).imp (fun ha => ⟨c, hj, .inr ha⟩) fun ha => ⟨rfl, ha⟩
  · exact .inl ⟨d, hd, ha⟩

theorem Heeds.lays (h : b.Heeds j y nominated now b') (hk : b'.Lays k a) :
    b.Lays k a ∨ k = j ∧ a = y := by
  cases h with
  | @stays c hj _ heq =>
    subst heq
    refine lays_update hj (by rfl) (fun x hx => .inl ?_) hk
    dsimp only at hx
    split_ifs at hx
    exact hx
  | ignored _ heq => exact .inl (heq ▸ hk)
  | waits _ hj _ _ heq =>
    subst heq
    exact lays_update hj (by rfl) (fun x hx => .inr (Option.some.inj hx).symm) hk
  | switches h => exact h.lays hk

theorem Heeds.awaits (h : b.Heeds j y nominated now b') (hkj : k ≠ j) (hk : b'.Awaits k a) :
    b.Awaits k a := by
  cases h with
  | stays hj _ heq =>
    subst heq
    exact (awaits_update hj (.inr hkj.symm)).1 hk
  | ignored _ heq => exact heq ▸ hk
  | waits _ hj _ _ heq =>
    subst heq
    exact (awaits_update hj (.inr hkj.symm)).1 hk
  | switches h => exact (h.awaits hk).2

theorem Applies.lays (h : b.Applies now b') (hk : b'.Lays k a) : b.Lays k a := by
  induction h with
  | done => exact hk
  | @drop b b' j c hj hnone _ ih =>
    obtain ⟨d, hd, ha⟩ := ih hk
    rw [update_apply] at hd
    split_ifs at hd with hkj
    · cases hd
      exact ⟨c, hkj ▸ hj, ha⟩
    · exact ⟨d, hd, ha⟩
  | @switch b b₁ b' j c y hj hnom hswitch _ ih =>
    rcases hswitch.lays (ih hk) with hk | ⟨rfl, rfl⟩
    · exact hk
    · exact ⟨c, hj, .inr hnom⟩

end Book

namespace Shard

variable {ι ε : Type}

section Selecting

/-- The address-selecting request that an operation handles: one that was not seen before and
nominates, or makes its session rebind. -/
def claims (s : Shard ι ε) : Action → Option (Key × SocketAddr)
  | .next now => (s.heard (.next now)).bind fun (k, a, nominated) =>
      if nominated ∨
          (s.tables.sessions.get k).any fun r => r.rebinds s.config.rebindSilence a now then
        some (k, a)
      else none
  | _ => none

def claimant (s : Shard ι ε) (a : SocketAddr) (op : Action) : Option Key :=
  (s.claims op).bind fun x => if x.2 = a then some x.1 else none

def Undisputed (s : Shard ι ε) : Action → Prop
  | .next now =>
    ∀ x ∈ s.claims (.next now), ∀ j ∈ s.tables.sessions.keys, j ≠ x.1 →
      ∀ c ∈ s.book j,
      c.nomination ≠ some x.2 ∧ (c.addr = some x.2 → ∀ d ∈ s.book x.1, ¬ d.Recent now)
  | _ => True

instance (s : Shard ι ε) : (op : Action) → Decidable (s.Undisputed op)
  | .next now => inferInstanceAs (Decidable (∀ x ∈ s.claims (.next now), _))
  | .iterate _ | .receive | .switches _ | .flush | .command _ | .retry | .sweep _ | .push _ =>
    .isTrue trivial

end Selecting

section Rebinds

def Rebound (s : Shard ι ε) (k : Key) (r : Session) (a : SocketAddr) (now : Nat) (b' : Book) :
    Prop :=
  if r.rebinds s.config.rebindSilence a now then s.book.Switches ⟨k, a, now⟩ b' else b' = s.book

variable [EventSink ε] {s s' : Shard ι ε} {k : Key} {r : Session} {a : SocketAddr} {now : Nat}

theorem selectAddress_rebound (hr : s.tables.sessions.get k = some r) :
    Allows (selectAddress k a false now) s fun _ s' => s.Rebound k r a now s'.book := by
  rw [selectAddress, allows_bind]
  refine allows_readSession fun r' hr' => ?_
  cases hr.symm.trans hr'
  refine allows_ite.2 ⟨fun hsame => ?_, fun hsame => ?_⟩
  · refine allows_bind.2 (allows_writeSession hr fun s' _ hbook => allows_pure.2 ?_)
    rw [Rebound, if_neg (by simp [Session.rebinds, hsame]), hbook]
    exact update_eq_self_iff.2 (book_of_get hr).symm
  rw [allows_bind, allows_get]
  refine allows_ite.2 ⟨fun hcheck => allows_pure.2 ?_,
    fun hsilent => allows_ite.2 ⟨fun hrecent => ?_, fun hrecent => ?_⟩⟩
  · rw [Rebound, if_neg]
    simp only [Session.rebinds, Bool.and_eq_true, decide_eq_true_eq]
    exact fun h => hcheck.2 ⟨h.1.1.1, h.1.2⟩
  · refine allows_bind.2 ((count_keepsTables _ s).mono fun _ s₁ h₁ => allows_pure.2 ?_)
    rw [Rebound, if_neg (by simp [Session.rebinds, hrecent])]
    exact congrArg Tables.book h₁.tables
  · refine allows_bind.2 (allows_writeSession hr fun s₁ _ hbook => ?_)
    refine (switchTo_selects k a _ now s₁).mono fun _ s₂ h₂ => ?_
    obtain ⟨haddr, hsilence⟩ := not_not.1 fun h => hsilent ⟨rfl, h⟩
    rw [Rebound, if_pos]
    · exact h₂.book_switches (book_of_get hr) hbook rfl rfl fun h =>
        hrecent (Card.recent_iff.1 h)
    · simp only [Session.rebinds, Bool.and_eq_true, decide_eq_true_eq, bne_iff_ne,
        Bool.not_eq_true']
      exact ⟨⟨⟨haddr, hsame⟩, hsilence⟩, by simpa using hrecent⟩

theorem heed_rebound {request : Stun.BindingRequest} (hr : s.tables.sessions.get k = some r)
    (hnew : (r.noteTransaction request.transactionId).1 = false)
    (hplain : request.useCandidate = false) :
    Allows (heed k a request now) s fun _ s' => s.Rebound k r a now s'.book := by
  rw [heed, allows_bind]
  refine allows_readSession fun r' hr' => ?_
  cases hr.symm.trans hr'
  have hnoted : (r.noteTransaction request.transactionId).2.card = r.card ∧
      (r.noteTransaction request.transactionId).2.rebinds s.config.rebindSilence a now =
        r.rebinds s.config.rebindSilence a now := by
    rw [Session.noteTransaction]
    split_ifs
    · exact ⟨rfl, rfl⟩
    · exact ⟨rfl, rfl⟩
  generalize r.noteTransaction request.transactionId = noted at hnew hnoted ⊢
  refine allows_bind.2 (allows_zoom.2 (allows_setSession hr fun sessions hget => ?_))
  refine allows_ite.2 ⟨fun h => absurd hnew (by simp [h]), fun _ => ?_⟩
  rw [hplain]
  refine Allows.mono (selectAddress_rebound (r := noted.2) ?_) fun _ s' h => ?_
  · change sessions.get k = some noted.2
    rw [hget, update_self]
  · have hbook : Tables.book { s.tables with sessions } = s.book := by
      rw [book_set hget, hnoted.1]
      exact update_eq_self_iff.2 (book_of_get hr).symm
    rw [Rebound] at h ⊢
    rw [← hnoted.2, ← hbook]
    exact h

variable [DatagramIo ι] {s s' : Shard (Recorder ι) ε} {d : Datagram}

def Turned (s : Shard (Recorder ι) ε) (d : Datagram) (now : Nat) (s' : Shard (Recorder ι) ε) :
    Prop :=
  ∀ k r, s.fresh d = some (k, false) → s.tables.sessions.get k = some r →
    s.net.pool.free ≠ [] → s.Rebound k r d.addr now s'.book

omit [EventSink ε] [DatagramIo ι] in
theorem fresh_eq_some {k : Key} {nominated : Bool} (h : s.fresh d = some (k, nominated)) :
    ∃ r request, s.verifies d = some k ∧ s.tables.sessions.get k = some r ∧
      Stun.scan ((s.net.pool.buf d.buf).take d.len) = some request ∧
        (r.noteTransaction request.transactionId).1 = false ∧
          request.useCandidate = nominated := by
  simp only [fresh, bind_eq_bind, bind_eq_some_iff] at h
  obtain ⟨k', hk, r, hr, request, hscan, h⟩ := h
  split_ifs at h with hseen
  cases h
  exact ⟨r, request, hk, hr, hscan, by simpa using hseen, rfl⟩

theorem handleStun_turned (d : Datagram) (now : Nat) (s : Shard (Recorder ι) ε)
    (hstun : classify ((s.net.pool.buf d.buf).take d.len) = .stun) :
    Allows (handleStun d now) s fun _ s' => s.Turned d now s' := by
  refine (handleStun_answers d now s hstun).mono fun _ s' h k r hfresh hr hfree => ?_
  obtain ⟨r₀, request₀, hk₀, hr₀, hscan₀, hnew, hplain⟩ := fresh_eq_some hfresh
  cases hr.symm.trans hr₀
  cases h with
  | dropped hwhy =>
    refine absurd (hwhy.resolve_right hfree) ?_
    rw [hk₀]
    exact nofun
  | @heeded k' r' request s₁ hk hr' hscan htables hconfig _ hheed =>
    cases hk₀.symm.trans hk
    cases hscan₀.symm.trans hscan
    have hr₁ : s₁.tables.sessions.get k = some r := by rw [htables, hr]
    have hrebound : s₁.Rebound k r d.addr now s'.book := heed_rebound hr₁ hnew hplain _ _ hheed
    rw [Rebound, hconfig] at hrebound
    rw [Rebound]
    have hbook : s₁.book = s.book := congrArg Tables.book htables
    rwa [← hbook]

theorem handleDatagram_turned (d : Datagram) (now : Nat) (s : Shard (Recorder ι) ε) :
    Allows (handleDatagram d now) s fun _ s' => s.Turned d now s' := by
  simp only [handleDatagram, count, addTo, Net.data, Net.buf, allows_bind, allows_modify]
  refine allows_zoom.2 ?_
  simp only [allows_bind, allows_assert, allows_get, allows_pure]
  intro _
  split
  next hclass =>
    refine Allows.mono (handleStun_turned d now _ (by exact hclass)) fun _ s' h => ?_
    exact h
  all_goals
    next hclass =>
      intro _ s' _ k r hfresh
      obtain ⟨-, -, hk, -⟩ := fresh_eq_some hfresh
      simp [verifies, hclass] at hk

theorem handleNext_turned {rx : List Datagram} (hrx : s.net.rx = d :: rx) (now : Nat) :
    Allows (handleNext now) s fun _ s' => s.Turned d now s' := by
  simp only [handleNext, allows_bind]
  refine allows_zoom.2 ?_
  simp only [Net.nextReceived, allows_bind, allows_get, hrx]
  refine allows_set.2 (allows_pure.2 (allows_bind.2 ?_))
  refine (handleDatagram_turned d now _).mono fun _ s₂ h₂ => allows_zoom.2 ?_
  simp only [Net.put, allows_bind, allows_get, allows_expect, allows_set]
  exact fun pool _ => h₂

end Rebinds

section Runs

variable {s s' u v : Shard ι ε} {op : Action} {j k : Key} {a : SocketAddr} {now : Nat}
  {nominated : Bool}

theorem heard_eq_some (h : s.heard (.next now) = some (k, a, nominated)) :
    ∃ d rx, s.net.rx = d :: rx ∧ s.fresh d = some (k, nominated) ∧ a = d.addr := by
  obtain ⟨d, hd, h⟩ := bind_eq_some_iff.1 h
  obtain ⟨⟨k', nominated'⟩, hfresh, heq⟩ := map_eq_some_iff.1 h
  cases heq
  obtain ⟨rx, hrx⟩ := head?_eq_some_iff.1 hd
  exact ⟨d, rx, hrx, hfresh, rfl⟩

theorem claims_of_not_heard (h : s.heard op = none) : s.claims op = none := by
  cases op with
  | next now => rw [claims, h, bind_none]
  | _ => rfl

variable [DatagramIo ι] [EventSink ε] {s₀ s s' u v : Shard (Recorder ι) ε} {ops : List Action}

theorem step_turned {d : Datagram} {rx : List Datagram} (hrx : u.net.rx = d :: rx)
    (hstep : step u (.next now) = some v) : u.Turned d now v := by
  obtain ⟨⟨_, _⟩, hact, rfl⟩ := map_eq_some_iff.1 hstep
  exact handleNext_turned hrx now _ _ hact

def latestClaimant (s : Shard (Recorder ι) ε) (a : SocketAddr) : List Action → Option Key
  | [] => none
  | op :: ops => ((step s op).bind fun s' => s'.latestClaimant a ops).or (s.claimant a op)

theorem latestClaimant_concat (op : Action) (hrun : run step s ops = some u) :
    s.latestClaimant a (ops ++ [op]) = (u.claimant a op).or (s.latestClaimant a ops) := by
  induction ops generalizing s with
  | nil =>
    cases hrun
    cases hstep : step u op with
    | none => simp [latestClaimant, hstep]
    | some v => simp [latestClaimant, hstep]
  | cons op' ops ih =>
    obtain ⟨t, hstep, hrun⟩ := bind_eq_some_iff.1 hrun
    rw [cons_append, latestClaimant, latestClaimant, hstep, bind_some, bind_some, ih hrun,
      Option.or_assoc]

theorem heeds_claims (hfree : u.net.pool.free ≠ []) (hstep : step u (.next now) = some v)
    (hheard : u.heard (.next now) = some (k, a, nominated))
    (hheeds : u.book.Heeds k a nominated now v.book) :
    (u.claims (.next now) = some (k, a) ∧
      (v.book.Settled k a ∨ ∃ c, u.book k = some c ∧ c.Recent now)) ∨
      (u.claims (.next now) = none ∧ v.book = u.book) := by
  obtain ⟨d, rx, hrx, hfresh, rfl⟩ := heard_eq_some hheard
  obtain ⟨r, request, -, hr, -⟩ := fresh_eq_some hfresh
  cases nominated with
  | true =>
    refine .inl ⟨by simp [claims, hheard], ?_⟩
    cases hheeds with
    | stays _ ha heq =>
      rw [heq]
      exact .inl ⟨_, update_self .., rfl, ha⟩
    | ignored hn _ => cases hn
    | waits _ hk _ hrecent _ => exact .inr ⟨_, hk, hrecent⟩
    | switches h => exact .inl h.settles
  | false =>
    have hrebound := step_turned hrx hstep k r hfresh hr hfree
    rw [Rebound] at hrebound
    split_ifs at hrebound with hrebinds
    · exact .inl ⟨by simp [claims, hheard, hr, hrebinds], .inl hrebound.settles⟩
    · exact .inr ⟨by simp [claims, hheard, hr, hrebinds], hrebound⟩

variable [LawfulIo ι]

theorem step_latest (h : u.Inv []) (hfree : ∀ now, op = .next now → u.net.pool.free ≠ [])
    (hop : op.single) (hrun : run step s₀ ops = some u) (hstep : step u op = some v)
    (hundisputed : u.Undisputed op)
    (hlatest : ∀ k a, u.book.Lays k a → s₀.latestClaimant a ops = some k)
    (hk : v.book.Lays k a) :
    s₀.latestClaimant a (ops ++ [op]) = some k := by
  rw [latestClaimant_concat op hrun]
  have hquiet : u.claims op = none → u.book.Lays k a →
      (u.claimant a op).or (s₀.latestClaimant a ops) = some k := by
    intro hnone hk
    rw [claimant, hnone, bind_none, none_or]
    exact hlatest k a hk
  cases step_moved h hop hstep with
  | keeps _ hnone hkeeps =>
    refine hquiet ?_ (hkeeps.lays hk)
    cases op with
    | next now => exact claims_of_not_heard (hnone.resolve_right (hfree now rfl))
    | _ => rfl
  | applies happly _ => exact hquiet rfl (happly.lays hk)
  | @heeds now j y nominated _ hheard hheeds =>
    rcases heeds_claims (hfree now rfl) hstep hheard hheeds with ⟨hclaims, hsettled⟩ |
        ⟨hnone, hbook⟩
    · rw [claimant, hclaims, bind_some]
      by_cases hy : y = a
      swap
      · rw [if_neg hy, none_or]
        exact hlatest k a ((hheeds.lays hk).resolve_right fun h => hy h.2.symm)
      subst hy
      rw [if_pos rfl, some_or]
      by_contra hother
      have hkj : k ≠ j := fun h => hother (congrArg some h.symm)
      have hlays : u.book.Lays k y := (hheeds.lays hk).resolve_right fun h => hkj h.1
      -- another session has the claimed address, or waits for it
      obtain ⟨c, hc, ha⟩ := hlays
      have hlive : k ∈ u.tables.sessions.keys := by
        obtain ⟨r, hr, -⟩ := book_eq_some.1 hc
        exact Slab.mem_keys.2 (by simp [hr])
      obtain ⟨hnom, hwait⟩ := hundisputed _ hclaims k hlive hkj c hc
      have haddr := ha.resolve_right hnom
      rcases hsettled with ⟨e, he, -, hea⟩ | ⟨e, he, hrecent⟩
      · obtain ⟨c', hc', ha'⟩ := hk
        rcases ha' with ha' | ha'
        · exact unshared_of_linked (step_inv h hstep).1.sound.tables.linked he hea k c' hkj hc' ha'
        · obtain ⟨d, hd, hda⟩ := hheeds.awaits hkj ⟨c', hc', ha'⟩
          cases hc.symm.trans hd
          exact hnom hda
      · exact hwait haddr e he hrecent
    · exact hquiet hnone (hbook ▸ hk)

end Runs

section LatestClaimant

variable {s₀ : Shard (Recorder ι) ε} {config : ShardConfig} {stun : StunHash}
  {io : Recorder ι} {events : ε}
  {start : Nat}

theorem new_book (hnew : Shard.new config stun io events start = .ok s₀) :
    s₀.book = fun _ => none := by
  rw [Shard.new] at hnew
  cases hvalid : config.validate with
  | error e => simp [hvalid] at hnew
  | ok _ =>
    simp only [hvalid, Except.ok.injEq] at hnew
    subst hnew
    funext k
    simp [book, Tables.book, Tables.new, project_apply]

variable [EventSink ε] [DatagramIo ι] [LawfulIo ι]

/-- In every run of iterations whose claims are undisputed, taken apart into the handling of single
datagrams and commands: whoever has an address claimed it last. -/
theorem run_latest_claimant (hnew : Shard.new config stun io events start = .ok s₀)
    (hmax : config.maxSessions ≤ Tables.maxWebrtcSessions) (acts : List Action)
    (hacts : ∀ a ∈ acts, a.outer)
    (hundisputed : Permitted Undisputed step s₀ (acts.flatMap Action.parts)) :
    ∃ s, run step s₀ acts = some s ∧ run step s₀ (acts.flatMap Action.parts) = some s ∧
      ∀ p u k r a, p <+: acts.flatMap Action.parts → run step s₀ p = some u →
        u.tables.byAddr.lookup a = some k → u.tables.sessions.get k = some r →
          r.addr = some a →
        s₀.latestClaimant a p = some k := by
  obtain ⟨hrested, -, hpool⟩ := new_rested hnew hmax
  obtain ⟨s, hrun, hparts, -, -, hspare⟩ := hrested.run_parts hacts
  refine ⟨s, hrun, hparts, fun p u k r a hp hu _ hr ha => ?_⟩
  suffices hlatest : ∀ p u, p <+: acts.flatMap Action.parts → run step s₀ p = some u →
      ∀ k a, u.book.Lays k a → s₀.latestClaimant a p = some k from hlatest p u hp hu k a
        ⟨r.card, book_of_get hr, .inl ha⟩
  clear hp hu hr ha
  intro p
  induction p using List.reverseRecOn with
  | nil =>
    intro u _ hu k a hlays
    cases hu
    obtain ⟨c, hc, -⟩ := hlays
    rw [new_book hnew] at hc
    cases hc
  | append_singleton p op ih =>
    intro v hp hv k a hlays
    obtain ⟨u, hu, hone⟩ := run_append_iff.1 hv
    obtain ⟨v', hstep, hend⟩ := bind_eq_some_iff.1 hone
    cases hend
    obtain ⟨rest, hsplit⟩ := hp
    have hop : op.single := flatMap_parts_single hacts op (by simp [← hsplit])
    have hbefore := ih u ⟨op :: rest, by rw [← hsplit]; simp⟩ hu
    rw [← hsplit, append_assoc] at hspare hundisputed
    obtain ⟨hinv, hsame⟩ := run_inv hrested.inv hu
    refine step_latest hinv (fun now hnext => ?_) hop hu hstep (hundisputed.at hu) hbefore hlays
    subst hnext
    refine hinv.sound.net.free_ne_nil ?_
    rw [hsame.capacity]
    exact (hspare.at hu).trans_le hpool

theorem run_latest_claimant_nominated :
    ∃ (s₀ s : Shard (Recorder Script) (List Event)) (r : Session),
    Shard.new sampleConfig keyedHash nominationIo [] 0 = .ok s₀ ∧
    Permitted Undisputed step s₀ (nominationRun.flatMap Action.parts) ∧
      run step s₀ nominationRun = some s ∧
    s.tables.sessions.get ⟨0, 0⟩ = some r ∧ r.addr = some sharedAddr ∧
    s₀.latestClaimant sharedAddr (nominationRun.flatMap Action.parts) = some ⟨0, 0⟩ := by
  have hend : ((Shard.new sampleConfig keyedHash nominationIo ([] : List Event) 0).toOption.bind
      fun s₀ =>
      (run step s₀ nominationRun).map fun s =>
        (decide (Permitted Undisputed step s₀ (nominationRun.flatMap Action.parts)),
          s.tables.byAddr.lookup sharedAddr, (s.book ⟨0, 0⟩).bind Card.addr)) =
      some (true, some ⟨0, 0⟩, some sharedAddr) := by
    decide +kernel
  obtain ⟨s₀, hs₀, hend⟩ := bind_eq_some_iff.1 hend
  obtain ⟨s, hs, hend⟩ := map_eq_some_iff.1 hend
  simp only [Prod.mk.injEq, decide_eq_true_eq, bind_eq_some_iff] at hend
  obtain ⟨hundisputed, hlookup, c, hc, haddr⟩ := hend
  obtain ⟨r, hr, rfl⟩ := book_eq_some.1 hc
  obtain ⟨s', hs', hparts, hlatest⟩ :=
    run_latest_claimant (new_eq_ok hs₀) (by decide) nominationRun (by decide)
    hundisputed
  cases hs.symm.trans hs'
  exact ⟨s₀, s, r, new_eq_ok hs₀, hundisputed, hs, hr, haddr,
    hlatest _ s _ r _ prefix_rfl hparts hlookup hr haddr⟩

/-- The first session is nominated from `homeAddr` and then, too soon, from `sharedAddr`; the second
is nominated from `sharedAddr`; then nothing is received. -/
def disputeRun : List Action :=
  [.push (.createSession sampleId ⟨.replicate 16 97, .replicate 32 65⟩ 1000),
    .push (.createSession secondId ⟨.replicate 16 98, .replicate 32 66⟩ 2000),
    .iterate 0, .iterate 0, .iterate 10, .iterate 20, .iterate 100000010]

def disputeIo : Recorder Script :=
  ⟨⟨.new, [[], [(homeAddr, bindingRequest 97 65 1)], [(sharedAddr, bindingRequest 97 65 2)],
    [(sharedAddr, bindingRequest 98 66 3)], []]⟩, []⟩

/-- The first session ends up with `sharedAddr`, which the second claimed last. -/
theorem dispute_goes_to_earlier_claimant :
    ∃ (s₀ s : Shard (Recorder Script) (List Event)) (r : Session),
    Shard.new sampleConfig keyedHash disputeIo [] 0 = .ok s₀ ∧
      run step s₀ disputeRun = some s ∧
    s.tables.byAddr.lookup sharedAddr = some ⟨0, 0⟩ ∧
      s.tables.sessions.get ⟨0, 0⟩ = some r ∧
    r.addr = some sharedAddr ∧
    s₀.latestClaimant sharedAddr (disputeRun.flatMap Action.parts) = some ⟨1, 0⟩ := by
  have hend : ((Shard.new sampleConfig keyedHash disputeIo ([] : List Event) 0).toOption.bind
      fun s₀ =>
      (run step s₀ disputeRun).map fun s =>
        (s₀.latestClaimant sharedAddr (disputeRun.flatMap Action.parts),
          s.tables.byAddr.lookup sharedAddr, (s.book ⟨0, 0⟩).bind Card.addr)) =
      some (some ⟨1, 0⟩, some ⟨0, 0⟩, some sharedAddr) := by
    decide +kernel
  obtain ⟨s₀, hs₀, hend⟩ := bind_eq_some_iff.1 hend
  obtain ⟨s, hs, hend⟩ := map_eq_some_iff.1 hend
  simp only [Prod.mk.injEq, bind_eq_some_iff] at hend
  obtain ⟨hclaimant, hlookup, c, hc, haddr⟩ := hend
  obtain ⟨r, hr, rfl⟩ := book_eq_some.1 hc
  exact ⟨s₀, s, r, new_eq_ok hs₀, hs, hlookup, hr, haddr, hclaimant⟩

end LatestClaimant
end Shard
end NexusSfu.Dataplane
