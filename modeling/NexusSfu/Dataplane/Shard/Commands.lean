import NexusSfu.Dataplane.Shard.Datagrams

namespace NexusSfu.Dataplane

open Base Prog Srtp List

def Command.Derives : Command → Prop
  | installSrtp _ keys => keys.local.deriveKeys.isOk = true ∧ keys.remote.deriveKeys.isOk = true
  | _ => True

namespace Shard

variable {ι ε : Type} [DatagramIo ι] [EventSink ε] {s s' : Shard ι ε}
  {held : List Nat} {k : Key}
  {now : Nat}

def counted (s : Shard ι ε) (c : Counter) : Shard ι ε :=
  { s with counters := Function.update s.counters c (s.counters c + 1) }

omit [DatagramIo ι] [EventSink ε] in
theorem StaysSound.counted {s₀ : Shard ι ε} (h : StaysSound held s₀ s) {c : Counter}
    (hc : c ≠ .dropEventFull) :
    StaysSound held s₀ (s.counted c) :=
  h.step rfl (.refl _) rfl (Function.update_of_ne hc.symm _ s.counters) rfl rfl h.sound.net

structure Executed (held : List Nat) (s : Shard ι ε) (c : Command) (r : Outcome)
    (s' : Shard ι ε) :
    Prop where
  rejected : ∀ e, r = .error e → s' = s ∧ (c.Derives → e ≠ .srtpSetup)
  inv : s'.Inv held
  keepsRx : s.KeepsRx s'

omit [DatagramIo ι] in
theorem Executed.reject (h : s.Inv held) {c : Command} {e : RejectReason}
    (he : c.Derives → e ≠ .srtpSetup) : Executed held s c (.error e) s :=
  ⟨by rintro _ ⟨⟩; exact ⟨rfl, he⟩, h, .refl _⟩

omit [DatagramIo ι] in
theorem Executed.applied {c : Command} (h : s'.Inv held) (hs : s.KeepsRx s') :
    Executed held s c (.ok ()) s' :=
  ⟨fun _ he => (nomatch he), h, hs⟩

omit [DatagramIo ι] in
theorem Inv.withTables (h : s.Inv held) {t : Tables} (ht : t.Inv s.config.maxSessions)
    (htold : s.tables.SameTold t) : Inv held { s with tables := t } :=
  ⟨⟨ht, h.sound.net, h.sound.limit, h.sound.pending_le⟩,
    fun hopen => (h.reports hopen).of_same htold rfl rfl⟩

omit [DatagramIo ι] in
theorem createSession_spec (h : s.Inv held) (id : SessionId) (ice : IceParams)
    (base : UInt32) (now : Nat) :
    Ends (createSession id ice base now) s (Executed held s (.createSession id ice base)) := by
  refine ends_bind.2 (ends_get.2 (ends_bind.2 (ends_zoom.2 ?_)))
  refine (Tables.createSession_spec h.sound.tables h.sound.limit id ice base now).mono
    fun r t hr => ?_
  rcases hr with ⟨⟨e, rfl, he⟩, rfl⟩ | ⟨rfl, ht, hnew, k, hk, hids, htold⟩
  · exact ends_pure.2 (.reject h fun _ => he)
  refine ends_bind.2 (ends_modify.2 (ends_pure.2 (.applied ⟨⟨ht, h.sound.net, h.sound.limit,
    h.sound.pending_le⟩, fun hopen => ⟨?_, ?_⟩⟩ ⟨rfl, rfl, rfl⟩)))
  · have hfit : Fits s.outbox.log (.opened id) :=
      (h.reports hopen).accounts.unknown id (Finmap.lookup_eq_none.2 hnew)
    exact (h.reports hopen).outbox.record hfit rfl
  · exact (h.reports hopen).accounts.opened h.sound.tables.linked hids hk htold

omit [DatagramIo ι] in
theorem closeSession_spec (h : s.Inv held) (id : SessionId) :
    Ends (closeSession id) s (Executed held s (.closeSession id)) := by
  refine ends_bind.2
    (ends_zoom.2 ((Tables.closeSession_spec h.sound.tables id).mono fun r t hr => ?_))
  rcases hr with ⟨rfl, rfl⟩ | ⟨rfl, ht, k, hk, hids, htold⟩
  · exact ends_pure.2 (.reject h fun _ => by simp)
  refine ends_bind.2 (ends_modify.2 (ends_pure.2 (.applied ⟨⟨ht, h.sound.net, h.sound.limit,
    h.sound.pending_le⟩, fun hopen => ⟨?_, ?_⟩⟩ ⟨rfl, rfl, rfl⟩)))
  · obtain ⟨r, hr, -⟩ :=
      Option.map_eq_some_iff.1 ((h.sound.tables.linked.sessionIds id k).1 hk)
    obtain ⟨a, ha, -⟩ := (h.reports hopen).accounts.known id k r hk hr
    have hfit : Fits s.outbox.log (.closed id) := by simp [Fits, ha]
    exact (h.reports hopen).outbox.record hfit rfl
  · exact (h.reports hopen).accounts.closed h.sound.tables.linked hk hids htold

variable [LawfulIo ι]

theorem sendDatagram_spec (h : s.Inv held) (id : SessionId) (bytes : Bytes) :
    Ends (sendDatagram id bytes) s (Executed held s (.sendDatagram id bytes)) := by
  have hstay := h.sound.stays
  refine ends_bind.2 (ends_get.2 ?_)
  cases hid : s.tables.sessionIds.lookup id with
  | none => exact ends_pure.2 (.reject h fun _ => by simp)
  | some k =>
    obtain ⟨r, hr, -⟩ :=
      Option.map_eq_some_iff.1 ((h.sound.tables.linked.sessionIds id k).1 hid)
    have hdrop : ∀ c, c ≠ Counter.dropEventFull → Ends (do count c; return .ok ()) s
        (Executed held s (.sendDatagram id bytes)) := fun c hc =>
      ends_bind.2 (ends_count hstay hc fun s₁ h₁ _ _ =>
        ends_pure.2 (.applied (h.stays h₁) h₁.keepsOutbox.keepsRx))
    refine ends_bind.2 (ends_readSession hr ?_)
    cases r.addr with
    | none => exact hdrop _ (by decide)
    | some addr =>
      dsimp only
      split_ifs with hlen
      · exact hdrop _ (by decide)
      refine ends_bind.2 (ends_take hstay (hdrop _ (by decide)) fun b s₁ h₁ _ _ => ?_)
      refine ends_bind.2 (ends_write h₁ fun s₂ h₂ _ _ => ?_)
      refine ends_bind.2 (ends_send h₂ (by simpa using (not_or.1 hlen).2) fun s₃ h₃ _ => ?_)
      exact ends_pure.2 (.applied (h.stays h₃) h₃.keepsOutbox.keepsRx)

theorem installSrtp_spec (h : s.Inv held) (id : SessionId) (keys : SrtpInstall) (now : Nat) :
    Ends (installSrtp id keys now) s (Executed held s (.installSrtp id keys)) := by
  refine ends_bind.2
    (ends_zoom.2 ((Tables.setupSrtp_spec h.sound.tables id keys).mono fun r t hr => ?_))
  rcases hr with ⟨⟨e, rfl, he⟩, rfl⟩ | ⟨ht, htold, k, r, rfl, hr⟩
  · refine ends_pure.2 (.reject h fun hd hsetup => ?_)
    rcases he hsetup with hbad | hbad
    · rw [hd.2] at hbad
      cases hbad
    · rw [hd.1] at hbad
      cases hbad
  have hinv := h.withTables ht htold
  refine ends_bind.2 (ends_readSession (by exact hr) ?_)
  refine ends_bind.2
    ((ends_each (I := fun rest s₁ => StaysSound held { s with tables := t } s₁ ∧
      ∀ i ∈ rest, i < r.subs.length) ?_ ⟨hinv.sound.stays, by simp⟩).mono
      fun _ s₁ ⟨h₁, _⟩ => ?_)
  · rintro i rest s₁ ⟨h₁, hlt⟩
    obtain ⟨r₁, hr₁, hquiet⟩ := h₁.keepsOutbox.session (by exact hr)
    have hsubs : r₁.subs = r.subs := congrArg (fun p => p.2.2.1) hquiet.links
    have hi : i < r₁.subs.length := hsubs ▸ hlt i mem_cons_self
    obtain ⟨sub, hsub, -⟩ := h₁.sound.tables.linked.sub_of_session hr₁ (getElem_mem hi)
    obtain ⟨tr, htr, -⟩ := h₁.sound.tables.linked.track_of_sub hsub
    refine ends_bind.2 (ends_readSession hr₁ (ends_bind.2 (ends_expect.2
      ⟨_, getElem?_eq_getElem hi, ends_bind.2 (ends_readSub hsub ?_)⟩)))
    refine (requestKeyframe_spec h₁ htr now).mono fun _ s₂ h₂ => ⟨h₂, fun j hj => ?_⟩
    exact hlt j (mem_cons_of_mem _ hj)
  · exact ends_pure.2
      (.applied (hinv.stays h₁)
        ⟨h₁.keepsOutbox.config, h₁.keepsOutbox.rx, h₁.keepsOutbox.capacity⟩)

theorem subscribe_spec (h : s.Inv held) (id : SessionId) (sub : SubscriptionId) (track : TrackId)
    (spec : SubSpec) (now : Nat) :
    Ends (subscribe id sub track spec now) s (Executed held s (.subscribe id sub track spec)) := by
  refine ends_bind.2 (ends_get.2 (ends_bind.2 (ends_zoom.2 ?_)))
  refine (Tables.addSubscription_spec h.sound.tables h.sound.limit s.config.shard id sub
    track spec).mono
    fun r t hr => ?_
  rcases hr with ⟨⟨e, rfl, he⟩, rfl⟩ | ⟨ht, htold, k, y, r, tr, rfl, hr, htr⟩
  · exact ends_pure.2 (.reject h fun _ => he)
  have hinv := h.withTables ht htold
  refine ends_bind.2 (ends_readSession (by exact hr) ?_)
  split_ifs with hout
  · refine ends_bind.2
      ((requestKeyframe_spec hinv.sound.stays (by exact htr) now).mono fun _ s₁ h₁ => ?_)
    exact ends_pure.2
      (.applied (hinv.stays h₁)
        ⟨h₁.keepsOutbox.config, h₁.keepsOutbox.rx, h₁.keepsOutbox.capacity⟩)
  · exact ends_pure.2 (.applied hinv ⟨rfl, rfl, rfl⟩)

omit [DatagramIo ι] [LawfulIo ι] in
theorem onTables_spec (h : s.Inv held) {c : Command} {m : Prog Tables Outcome}
    (hm : Ends m s.tables fun r t =>
      ((∃ e, r = .error e ∧ e ≠ .srtpSetup) ∧ t = s.tables) ∨
      (r = .ok () ∧ t.Inv s.config.maxSessions ∧ s.tables.SameTold t)) :
    Ends (onTables m) s (Executed held s c) := by
  refine ends_zoom.2 (hm.mono fun r t hr => ?_)
  rcases hr with ⟨⟨e, rfl, he⟩, rfl⟩ | ⟨rfl, ht, htold⟩
  · exact .reject h fun _ => he
  · exact .applied (h.withTables ht htold) ⟨rfl, rfl, rfl⟩

theorem execute_spec (h : s.Inv held) (now : Nat) (c : Command) :
    Ends (execute now c) s (Executed held s c) := by
  cases c with
  | createSession id ice base => exact createSession_spec h id ice base now
  | sendDatagram id bytes => exact sendDatagram_spec h id bytes
  | installSrtp id keys => exact installSrtp_spec h id keys now
  | addTrack id track spec =>
    exact onTables_spec h (Tables.addTrack_spec h.sound.tables h.sound.limit id track spec)
  | removeTrack track =>
    exact onTables_spec h ((Tables.removeTrackCmd_spec h.sound.tables track).mono fun r t hr =>
      hr.imp_left fun ⟨he, ht⟩ => ⟨⟨_, he, by simp⟩, ht⟩)
  | subscribe id sub track spec => exact subscribe_spec h id sub track spec now
  | unsubscribe sub =>
    exact onTables_spec h ((Tables.unsubscribe_spec h.sound.tables sub).mono fun r t hr =>
      hr.imp_left fun ⟨he, ht⟩ => ⟨⟨_, he, by simp⟩, ht⟩)
  | closeSession id => exact closeSession_spec h id

theorem handleCommand_spec (h : s.Inv held) (now : Nat) (c : Command) :
    Ends (handleCommand now c) s fun _ s' => s'.Inv held ∧ s.KeepsRx s' ∧
      ∀ e s₁, execute now c (s.counted .commands) = some (.error e, s₁) →
        (∃ counters outbox, s' = { s with counters, outbox }) ∧
          (c.Derives → e ≠ .srtpSetup) := by
  have h₀ : StaysSound held s (s.counted .commands) := h.sound.stays.counted (by decide)
  have hinv₀ := h.stays h₀
  obtain ⟨r, s₁, hrun, hex⟩ := execute_spec hinv₀ now c
  refine ends_bind.2 (ends_modify.2 (ends_bind.2 ⟨r, s₁, hrun, ?_⟩))
  cases r with
  | ok _ =>
    refine ends_zoom.2 (hex.inv.sound.tables.linked.checkTables ⟨hex.inv, ?_, ?_⟩)
    · exact h₀.keepsOutbox.keepsRx.trans hex.keepsRx
    · intro e s₂ h₂
      rw [hrun] at h₂
      cases h₂
  | error e =>
    obtain ⟨rfl, hkey⟩ := hex.rejected e rfl
    refine ends_bind.2 (ends_modify.2 (ends_bind.2 ?_))
    have h₂ : StaysSound held s ((s.counted .commands).counted .commandsRejected) :=
      h₀.counted (by decide)
    have hinv₂ := h.stays h₂
    refine (emit_spec h₂.sound (fun _ => False) _).mono
      fun delivered s₃ ⟨⟨⟨counters, outbox, hs₃⟩, hle⟩, hem⟩ => ?_
    subst hs₃
    have hinv₃ : Inv held { s with counters, outbox } := by
      refine ⟨h.sound.withOutbox counters hle, fun hopen => ?_⟩
      refine (hem hopen (hinv₂.reports hopen)
        ⟨fun id hid => (nomatch hid), fun id hid => nomatch hid⟩).unheard
        (hinv₂.reports hopen) rfl fun _ _ => rfl
    refine ends_zoom.2
      (hinv₃.sound.tables.linked.checkTables ⟨hinv₃, ⟨rfl, rfl, rfl⟩, ?_⟩)
    intro e' s₄ h₄
    rw [hrun] at h₄
    cases h₄
    exact ⟨⟨counters, outbox, rfl⟩, hkey⟩

end Shard
end NexusSfu.Dataplane
