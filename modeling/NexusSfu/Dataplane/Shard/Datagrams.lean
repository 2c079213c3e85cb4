import NexusSfu.Dataplane.Shard.Reports

namespace NexusSfu.Dataplane

open Base Prog Srtp List

namespace Session

variable {s : Session} {n : Option SocketAddr}

theorem Quiet.nomination (hn : n = none ∨ n = s.pendingNomination) (now : Nat) :
    s.Quiet { s with lastRxSelected := now, pendingNomination := n } where
  links := rfl
  reported := rfl
  wellFormed h := by
    refine ⟨h.ssrcs_nodup, h.trackCount_le, h.subs_le, h.addr_ne, fun a ha => ?_,
      h.srtp_iff, h.inbound⟩
    rcases hn with rfl | rfl
    · cases ha
    · exact h.nomination_ne a ha
  sends _ h := h.of_eq rfl rfl rfl

theorem noteTransaction_core (s : Session) (id : TransactionId) :
    (s.noteTransaction id).2.core = s.core := by
  rw [noteTransaction]
  split_ifs <;> rfl

end Session

namespace Shard

variable {ι ε : Type} [EventSink ε] {s s₀ s' : Shard ι ε} {held : List Nat}
  {k : Key} {r : Session}
  {a : SocketAddr} {now : Nat}

section Addresses

theorem switchTo_spec (h : s.Inv held) (hr : s.tables.sessions.get k = some r)
    (ha : r.addr ≠ some a) (hn : r.pendingNomination = none) (reason : SelectReason) (now : Nat) :
    Ends (switchTo k a reason now) s fun _ s' => (s'.Inv held ∧ s.KeepsRx s') ∧
      s'.tables.pendingSwitches = s.tables.pendingSwitches := by
  refine ends_bind.2 (ends_zoom.2 ((Tables.selectAddr_spec h.sound.tables hr ha hn now).mono
    fun _ t ⟨ht, hmoves, r₁, hr₁⟩ => ?_))
  have hsound : Sound held { s with tables := t } :=
    ⟨ht, h.sound.net, h.sound.limit, h.sound.pending_le⟩
  have hrep : OpenSink ε → Reports (fun j => j = k) { s with tables := t } := fun hopen =>
    ⟨(h.reports hopen).outbox, (h.reports hopen).accounts.moved hmoves⟩
  refine ends_bind.2
    (ends_count hsound.stays (by cases reason <;> decide) fun s₁ h₁ ht₁ _ => ?_)
  have hrep₁ : OpenSink ε → Reports (fun j => j = k) s₁ := fun hopen =>
    (hrep hopen).of_same h₁.keepsOutbox.tables.sameTold h₁.keepsOutbox.outbox
      h₁.keepsOutbox.full
  refine (reportSwitch_spec h₁.sound hrep₁ (by rw [ht₁]; exact hr₁) reason).mono
    fun _ s₂ ⟨h₂, hidle, _, hsw⟩ => ⟨⟨h₂, ?_⟩, ?_⟩
  · exact .trans ⟨h₁.keepsOutbox.config, h₁.keepsOutbox.rx, h₁.keepsOutbox.capacity⟩
      hidle.keepsRx
  · rw [hsw, ht₁]
    exact hmoves.switches

theorem selectAddress_spec (h : s.Inv held) (hr : s.tables.sessions.get k = some r) (a : SocketAddr)
    (nominated : Bool) (now : Nat) :
    Ends (selectAddress k a nominated now) s fun _ s' => s'.Inv held ∧ s.KeepsRx s' := by
  refine ends_bind.2 (ends_readSession hr ?_)
  by_cases haddr : r.addr = some a
  · rw [if_pos haddr]
    have hq := Session.Quiet.nomination (s := r)
      (n := if nominated then none else r.pendingNomination) (by split_ifs <;> simp) now
    refine ends_bind.2 (ends_quietSession h.sound.stays hr hq fun s₁ h₁ _ _ _ _ => ?_)
    exact ends_pure.2 ⟨h.stays h₁, h₁.keepsOutbox.keepsRx⟩
  rw [if_neg haddr, ends_bind, ends_get]
  by_cases hsilent : (!nominated) = true ∧
      ¬ (r.addr.isSome = true ∧ now - r.lastRxSelected ≥ s.config.rebindSilence)
  · rw [if_pos hsilent]
    exact ends_pure.2 ⟨h, .refl _⟩
  rw [if_neg hsilent]
  by_cases hsoon : (r.lastSwitch.any fun last => decide (now - last < minSwitchInterval)) = true
  · rw [if_pos hsoon]
    refine ends_bind.2 (ends_count h.sound.stays (by decide) fun s₁ h₁ ht₁ _ => ?_)
    have hinv₁ := h.stays h₁
    cases nominated with
    | false => exact ends_pure.2 ⟨hinv₁, h₁.keepsOutbox.keepsRx⟩
    | true =>
      simp only [if_true]
      refine ends_bind.2
        (ends_zoom.2 ((Tables.deferNomination_spec (t := s₁.tables) ?_ (ht₁ ▸ hr)
        haddr).mono fun _ t ⟨ht, htold⟩ => ?_))
      · rw [← h₁.keepsOutbox.config]
        exact h₁.sound.tables
      refine ends_pure.2
        ⟨⟨⟨?_, h₁.sound.net, h₁.sound.limit, h₁.sound.pending_le⟩, fun hopen => ?_⟩,
          h₁.keepsOutbox.config, h₁.keepsOutbox.rx, h₁.keepsOutbox.capacity⟩
      · rw [← h₁.keepsOutbox.config] at ht
        exact ht
      · exact (hinv₁.reports hopen).of_same htold rfl rfl
  rw [if_neg hsoon]
  have hq := Session.Quiet.nomination (s := r) (n := none) (.inl rfl) r.lastRxSelected
  refine ends_bind.2 (ends_quietSession h.sound.stays hr hq fun s₁ h₁ _ hget₁ _ _ => ?_)
  refine (switchTo_spec (h.stays h₁)
    ((congrFun hget₁ k).trans (Function.update_self ..)) haddr rfl _
    now).mono fun _ s₂ ⟨⟨h₂, hsteady⟩, _⟩ => ⟨h₂,
    h₁.keepsOutbox.keepsRx.trans hsteady⟩

theorem Inv.unlisted (h : s.Inv held) {i : Nat} {sessions : Slab Session}
    (hi : s.tables.pendingSwitches[i]? = some k) (hr : s.tables.sessions.get k = some r)
    (hw : s.tables.sessions.Wrote k { r with switchListed := false, pendingNomination := none }
      sessions) :
    Inv held { s with tables := { s.tables with
      sessions, pendingSwitches := swapRemove s.tables.pendingSwitches i } } ∧
    s.KeepsRx { s with tables := { s.tables with
      sessions, pendingSwitches := swapRemove s.tables.pendingSwitches i } } := by
  refine ⟨⟨⟨h.sound.tables.unlisted hi hr hw, h.sound.net, h.sound.limit,
    h.sound.pending_le⟩, fun hopen => ?_⟩, rfl, rfl, rfl⟩
  exact (h.reports hopen).of_same ⟨rfl, project_set Session.told hw.get hr rfl⟩ rfl rfl

theorem applySwitches_spec (fuel : Nat) (now : Nat) :
    ∀ {s : Shard ι ε} {i : Nat}, s.Inv held → i + fuel ≤ s.tables.pendingSwitches.length →
    Ends (applySwitches now fuel i) s fun _ s' => s'.Inv held ∧ s.KeepsRx s' := by
  induction fuel with
  | zero => exact fun h _ => ends_pure.2 ⟨h, .refl _⟩
  | succ fuel ih =>
    intro s i h hlen
    have hi : i < s.tables.pendingSwitches.length := by omega
    have hget : s.tables.pendingSwitches[i]? = some s.tables.pendingSwitches[i] :=
      getElem?_eq_getElem hi
    generalize s.tables.pendingSwitches[i] = k at hget
    obtain ⟨r, hr⟩ : ∃ r, s.tables.sessions.get k = some r := by
      have := (h.sound.tables.linked.switches k).1 (mem_of_getElem? hget)
      obtain ⟨r, hr, -⟩ := Option.map_eq_some_iff.1 this
      exact ⟨r, hr⟩
    rw [applySwitches, ends_bind, ends_get]
    refine ends_bind.2 (ends_expect.2 ⟨k, hget, ends_bind.2 (ends_readSession hr ?_)⟩)
    dsimp only
    split_ifs with hwait
    · exact ih h (by omega)
    refine ends_bind.2
      (ends_modify.2 (ends_bind.2 (ends_zoom.2 (Tables.ends_setSession (by exact hr)
      fun sessions hw => ?_))))
    have hinv := h.unlisted hget hr hw
    have hfuel : i + fuel ≤ (swapRemove s.tables.pendingSwitches i).length := by
      have := length_swapRemove hi
      omega
    have hr₁ := hw.get_self
    cases hn : r.pendingNomination with
    | none =>
      exact (ih hinv.1 hfuel).mono fun _ s₂ ⟨h₂, hsteady⟩ =>
        ⟨h₂, hinv.2.trans hsteady⟩
    | some a =>
      have ha := (h.sound.tables.wellFormed k r hr).nomination_ne a hn
      refine ends_bind.2 ((switchTo_spec
        (r := { r with switchListed := false, pendingNomination := none }) hinv.1 hr₁ ha
          rfl .nominated
        now).mono fun _ s₂ ⟨⟨h₂, hsteady⟩, hsw⟩ => ?_)
      refine (ih h₂ (by rw [hsw]; exact hfuel)).mono fun _ s₃ ⟨h₃, hsteady'⟩ => ?_
      exact ⟨h₃, hinv.2.trans (hsteady.trans hsteady')⟩

theorem applyPendingSwitches_spec (h : s.Inv held) (now : Nat) :
    Ends (applyPendingSwitches now) s fun _ s' => s'.Inv held ∧ s.KeepsRx s' :=
  ends_bind.2 (ends_get.2 (applySwitches_spec _ now h (Nat.zero_add _).le))

end Addresses

variable [DatagramIo ι] [LawfulIo ι] {d : Datagram}

section Stun

theorem handleStun_spec (h : s.Inv held) (hd : d.buf ∈ held) (now : Nat) :
    Ends (handleStun d now) s fun _ s' => s'.Inv held ∧ s.KeepsRx s' := by
  have hstay := h.sound.stays
  rw [handleStun, ends_bind, ends_get]
  dsimp only
  cases Stun.scan ((s.net.pool.buf d.buf).take d.len) with
  | none =>
    exact ends_count hstay (by decide) fun s₁ h₁ _ _ =>
      ⟨h.stays h₁, h₁.keepsOutbox.keepsRx⟩
  | some request =>
    dsimp only
    cases hufrag : s.tables.byUfrag.lookup request.localUfrag with
    | none =>
      exact ends_count hstay (by decide) fun s₁ h₁ _ _ =>
        ⟨h.stays h₁, h₁.keepsOutbox.keepsRx⟩
    | some k =>
      obtain ⟨r, hr, -⟩ := Option.map_eq_some_iff.1
        ((h.sound.tables.linked.ufrags request.localUfrag k).1 hufrag)
      refine ends_bind.2 (ends_readSession hr ?_)
      split_ifs with hauth
      · exact ends_bind.2 (ends_count hstay (by decide) fun s₁ h₁ _ _ =>
          ends_pure.2 ⟨h.stays h₁, h₁.keepsOutbox.keepsRx⟩)
      refine ends_bind.2 (ends_take hstay
        (ends_count hstay (by decide) fun s₁ h₁ _ _ =>
          ⟨h.stays h₁, h₁.keepsOutbox.keepsRx⟩)
        fun b s₁ h₁ ht₁ _ => ?_)
      have hne : (d.buf != b) = true := by
        have := (nodup_cons.1 h₁.sound.net.nodup).1
        rw [bne_iff_ne]
        rintro rfl
        exact this hd
      have hlen : (s.net.pool.buf b).length = bufSize :=
        BufferPool.length_buf_of_lt
          (h₁.keepsOutbox.capacity ▸ h₁.sound.net.lt_of_held mem_cons_self)
      have hroom : Stun.responseMaxLen ≤ (s.net.pool.buf b).length := by
        rw [hlen]
        decide
      have hpwd : r.ice.localPwd.toList ≠ [] := by simp
      obtain ⟨out, len, hout, hle⟩ :=
        Stun.writeSuccess_some s.stun hroom request d.addr hpwd (by simp)
      refine ends_bind.2 (ends_assert.2 ⟨hne, ends_bind.2 (ends_expect.2 ⟨_, hout, ?_⟩)⟩)
      refine ends_bind.2 (ends_write h₁ fun s₂ h₂ ht₂ _ => ?_)
      refine ends_bind.2 (ends_count h₂ (by decide) fun s₃ h₃ ht₃ _ => ?_)
      refine ends_bind.2 (ends_send h₃ (hle.trans (by decide)) fun s₄ h₄ ht₄ => ?_)
      have hr₄ : s₄.tables.sessions.get k = some r := by rw [ht₄, ht₃, ht₂, ht₁, hr]
      refine ends_bind.2 (ends_readSession hr₄ (ends_bind.2 ?_))
      refine ends_quietSession h₄ hr₄ (.of_core (r.noteTransaction_core _))
        fun s₅ h₅ _ hget₅ _ _ => ?_
      have hinv₅ := h.stays h₅
      split_ifs with hreplayed
      · exact ends_bind.2 (ends_count h₅ (by decide) fun s₆ h₆ _ _ =>
          ends_pure.2 ⟨h.stays h₆, h₆.keepsOutbox.keepsRx⟩)
      · refine (selectAddress_spec hinv₅
          ((congrFun hget₅ k).trans (Function.update_self ..)) _ _ _).mono
          fun _ s₆ ⟨h₆, hsteady⟩ => ⟨h₆, h₅.keepsOutbox.keepsRx.trans hsteady⟩

end Stun

omit [DatagramIo ι] [LawfulIo ι] in
theorem handleDtls_spec (h : s.Inv held) :
    Ends (handleDtls d) s fun _ s' => s'.Inv held ∧ s.KeepsRx s' := by
  have hstay := h.sound.stays
  have hdrop : ∀ c, c ≠ Counter.dropEventFull →
      Ends (do count c; return ()) s fun _ s' => s'.Inv held ∧ s.KeepsRx s' := fun c hc =>
    ends_bind.2 (ends_count hstay hc fun s₁ h₁ _ _ =>
      ends_pure.2 ⟨h.stays h₁, h₁.keepsOutbox.keepsRx⟩)
  rw [handleDtls, ends_bind, ends_get]
  cases haddr : s.tables.byAddr.lookup d.addr with
  | none =>
    exact ends_count hstay (by decide) fun s₁ h₁ _ _ =>
      ⟨h.stays h₁, h₁.keepsOutbox.keepsRx⟩
  | some k =>
    obtain ⟨p, hp, -⟩ := (h.sound.tables.linked.addrs d.addr k).1 haddr
    obtain ⟨r, hr, -⟩ := Option.map_eq_some_iff.1 hp
    refine ends_bind.2 (ends_readSession hr ?_)
    split_ifs
    · exact hdrop _ (by decide)
    · exact hdrop _ (by decide)
    · exact hdrop _ (by decide)
    · exact hdrop _ (by decide)
    refine ends_bind.2
      (ends_quietSession hstay hr (.of_core (by rfl)) fun s₁ h₁ _ hget₁ _ _ => ?_)
    refine ends_bind.2 (ends_modify.2 ?_)
    have h₂ : StaysSound held s { s₁ with dtlsBudget := s₁.dtlsBudget - 1 } :=
      h₁.step rfl (.refl _) rfl rfl rfl rfl h₁.sound.net
    have hinv₂ := h.stays h₂
    have hr₂ := (congrFun hget₁ k).trans (Function.update_self ..)
    refine ends_bind.2 (ends_emit hinv₂.sound hinv₂.reports hr₂ (by rfl) (by simp)
      fun delivered s₃ hsound₃ hidle₃ htables hem => ?_)
    refine ends_pure.2
      ⟨⟨hsound₃, fun hopen => ?_⟩, h₂.keepsOutbox.keepsRx.trans hidle₃.keepsRx⟩
    exact (hem hopen).unheard (hinv₂.reports hopen) htables fun _ _ => rfl

section Media

variable {l : List Key}

omit [EventSink ε] [DatagramIo ι] [LawfulIo ι] in
theorem findUnbound_spec {t : Tables} (hl : ∀ y ∈ l, ∃ tr, t.tracks.get y = some tr)
    (packet : Bytes) (header : Rtp.RtpHeader) {Q : Option Key → Tables → Prop}
    (hnone : Q none t) (hsome : ∀ y ∈ l, Q (some y) t) :
    Ends (findUnbound packet header l) t Q := by
  induction l with
  | nil => exact ends_pure.2 hnone
  | cons y l ih =>
    obtain ⟨tr, htr⟩ := hl y mem_cons_self
    refine ends_bind.2 (Tables.ends_track htr ?_)
    dsimp only
    split_ifs
    · exact ends_pure.2 (hsome y mem_cons_self)
    · exact ih (fun z hz => hl z (mem_cons_of_mem _ hz)) fun z hz => hsome z (mem_cons_of_mem _ hz)

omit [DatagramIo ι] [LawfulIo ι] in
theorem learnSsrc_spec (h : s.Inv held) (hr : s.tables.sessions.get k = some r) {b len : Nat}
    (hlen : len ≤ bufSize) {header : Rtp.RtpHeader} (hnew : r.trackOfSsrc header.ssrc = none) :
    Ends (learnSsrc k b len header) s fun o s' => (s'.Inv held ∧ s.KeepsRx s') ∧
      ∀ x, o = some x → ∃ tr, s'.tables.tracks.get x = some tr := by
  have hfresh : header.ssrc ∉ r.ssrcs := by
    simp only [Session.trackOfSsrc, Option.map_eq_none_iff, find?_eq_none] at hnew
    simp only [Session.ssrcs, mem_map, not_exists, not_and]
    exact fun p hp e => hnew p hp (by simpa using e)
  have hlive : ∀ y ∈ r.unbound.items, ∃ tr, s.tables.tracks.get y = some tr := fun y hy => by
    obtain ⟨tr, htr, -⟩ := h.sound.tables.linked.track_of_session hr (mem_append_right _ hy)
    exact ⟨tr, htr⟩
  refine ends_bind.2 (ends_readSession hr (ends_bind.2 (ends_data hlen fun packet => ?_)))
  refine ends_bind.2 (ends_zoom.2 (findUnbound_spec hlive packet header ?_ fun x hx => ?_))
  · exact ends_pure.2 ⟨⟨h, .refl _⟩, by simp⟩
  refine ends_bind.2 (ends_zoom.2 ((Tables.bindSsrc_spec h.sound.tables hr hx hfresh).mono
    fun _ t h' => ?_))
  obtain ⟨ht, htold, tr, htr⟩ := h'
  have hinv : Inv held { s with tables := t } :=
    ⟨⟨ht, h.sound.net, h.sound.limit, h.sound.pending_le⟩, fun hopen =>
      (h.reports hopen).of_same htold rfl rfl⟩
  refine ends_bind.2
    (ends_count hinv.sound.stays (by decide) fun s₁ h₁ ht₁ _ => ends_pure.2 ?_)
  refine ⟨⟨hinv.stays h₁, h₁.keepsOutbox.config, h₁.keepsOutbox.rx,
    h₁.keepsOutbox.capacity⟩, ?_⟩
  rintro _ ⟨⟩
  exact ⟨tr, by rw [ht₁]; exact htr⟩

omit [DatagramIo ι] [LawfulIo ι] in
theorem opened_spec (h : s.Inv held) (hd : d.len ≤ bufSize) (now : Nat) (rtcp : Bool)
    {Q : Unit → Shard ι ε → Prop} {next : Key → Nat → Prog (Shard ι ε) Unit}
    (hdone : ∀ s', s'.Inv held → s.KeepsRx s' → Q () s')
    (hnext : ∀ k len s', s'.Inv held → s.KeepsRx s' → len ≤ bufSize →
      (∃ r, s'.tables.sessions.get k = some r) → Ends (next k len) s' Q) :
    Ends (do
      let some idx ← srtpSession d | return ()
      let some len ← unprotect idx d now rtcp | return ()
      authenticated idx d.addr now
      next idx len) s Q := by
  refine ends_bind.2 ((srtpSession_spec h.sound.stays).mono fun o s₁ ⟨h₁, hlive⟩ => ?_)
  cases o with
  | none => exact ends_pure.2 (hdone s₁ (h.stays h₁) h₁.keepsOutbox.keepsRx)
  | some k =>
    obtain ⟨r, hr, hin⟩ := hlive k rfl
    refine ends_bind.2
      ((unprotect_spec h₁.sound.stays hr hin hd rtcp).mono fun o s₂ ⟨h₂, hlen⟩ => ?_)
    have hinv₂ := h.stays (h₁.trans h₂)
    have hsteady₂ := (h₁.trans h₂).keepsOutbox.keepsRx
    cases o with
    | none => exact ends_pure.2 (hdone s₂ hinv₂ hsteady₂)
    | some len =>
      obtain ⟨r₂, hr₂, -⟩ := h₂.keepsOutbox.session hr
      refine ends_bind.2 ((authenticated_spec hinv₂ hr₂ d.addr now).mono
        fun _ s₃ ⟨h₃, hsteady₃, hlive₃⟩ => ?_)
      exact hnext k len s₃ h₃ (hsteady₂.trans hsteady₃) (hlen len rfl) hlive₃

theorem handleRtcp_spec (h : s.Inv held) (hd : d.len ≤ bufSize) (now : Nat) :
    Ends (handleRtcp d now) s fun _ s' => s'.Inv held ∧ s.KeepsRx s' := by
  refine opened_spec h hd now true (fun s' h' hs' => ⟨h', hs'⟩)
    fun k len s₁ h₁ hsteady hlen ⟨r, hr⟩ => ?_
  refine ends_bind.2 (ends_count h₁.sound.stays (by decide) fun s₂ h₂ ht₂ _ => ?_)
  refine (handleRtcpCompound_spec h₂ (by rw [ht₂]; exact hr) hlen now).mono
    fun _ s₃ h₃ => ?_
  exact ⟨h₁.stays h₃, hsteady.trans h₃.keepsOutbox.keepsRx⟩

theorem handleRtp_spec (h : s.Inv held) (hd : d.len ≤ bufSize)
    (hbuf : d.buf ∈ held) (now : Nat) :
    Ends (handleRtp d now) s fun _ s' => s'.Inv held ∧ s.KeepsRx s' := by
  refine opened_spec h hd now false (fun s' h' hs' => ⟨h', hs'⟩)
    fun k len s₁ h₁ hsteady hlen ⟨r, hr⟩ => ?_
  have hfan : ∀ {s₂ : Shard ι ε} {x : Key} {tr : PublishedTrack} (header : Rtp.RtpHeader),
      s₂.Inv held → s.KeepsRx s₂ → s₂.tables.tracks.get x = some tr →
      Ends (fanOut x d.buf len header now) s₂ fun _ s' => s'.Inv held ∧ s.KeepsRx s' := by
    intro s₂ x tr header h₂ hsteady₂ htr
    refine (fanOut_spec h₂.sound.stays hbuf htr).mono fun _ s₃ h₃ => ?_
    exact ⟨h₂.stays h₃, hsteady₂.trans h₃.keepsOutbox.keepsRx⟩
  refine ends_bind.2 (ends_data hlen fun packet => ?_)
  cases Rtp.RtpHeader.parse packet with
  | error e => exact ends_count h₁.sound.stays (by decide) fun s₂ h₂ _ _ =>
      ⟨h₁.stays h₂, hsteady.trans h₂.keepsOutbox.keepsRx⟩
  | ok header =>
    refine ends_bind.2 (ends_readSession hr ?_)
    cases hroute : r.trackOfSsrc header.ssrc with
    | some x =>
      obtain ⟨tr, htr, -⟩ :=
        h₁.sound.tables.linked.track_of_session hr (trackOfSsrc_mem hroute)
      exact hfan header h₁ hsteady htr
    | none =>
      refine ends_bind.2
        ((learnSsrc_spec h₁ hr hlen hroute).mono
        fun o s₂ ⟨⟨h₂, hsteady₂⟩, hlive⟩ => ?_)
      cases o with
      | none => exact ends_count h₂.sound.stays (by decide) fun s₃ h₃ _ _ =>
          ⟨h₂.stays h₃, (hsteady.trans hsteady₂).trans h₃.keepsOutbox.keepsRx⟩
      | some x =>
        obtain ⟨tr, htr⟩ := hlive x rfl
        exact hfan header h₂ (hsteady.trans hsteady₂) htr

end Media

theorem handleDatagram_spec (h : s.Inv held) (hd : d.len ≤ bufSize)
    (hbuf : d.buf ∈ held) (now : Nat) :
    Ends (handleDatagram d now) s fun _ s' => s'.Inv held ∧ s.KeepsRx s' := by
  refine ends_bind.2 (ends_count h.sound.stays (by decide) fun s₁ h₁ _ _ => ?_)
  refine ends_bind.2 (ends_addTo h₁ (by decide) fun s₂ h₂ _ _ => ?_)
  have hinv := h.stays h₂
  have hsteady : ∀ s', s'.Inv held ∧ s₂.KeepsRx s' → s'.Inv held ∧ s.KeepsRx s' :=
    fun s' ⟨h', hs'⟩ => ⟨h', h₂.keepsOutbox.keepsRx.trans hs'⟩
  refine ends_bind.2 (ends_data hd fun packet => ?_)
  cases classify packet with
  | stun => exact (handleStun_spec hinv hbuf now).mono fun _ => hsteady
  | dtls => exact (handleDtls_spec hinv).mono fun _ => hsteady
  | rtp => exact (handleRtp_spec hinv hd hbuf now).mono fun _ => hsteady
  | rtcp => exact (handleRtcp_spec hinv hd now).mono fun _ => hsteady
  | other =>
    exact ends_count h₂ (by decide) fun s₃ h₃ _ _ =>
      ⟨h.stays h₃, h₃.keepsOutbox.keepsRx⟩

end Shard
end NexusSfu.Dataplane
