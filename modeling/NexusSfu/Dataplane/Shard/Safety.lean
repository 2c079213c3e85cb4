import NexusSfu.Dataplane.Shard.Commands
import NexusSfu.Dataplane.Shard.MemIo

namespace NexusSfu.Dataplane

open Base Prog Srtp List

theorem Session.Quiet.swept (s : Session) (budget nowS idleS : Nat) : s.Quiet { s with
      dtlsBudget := budget
      srtpIn := s.srtpIn.map fun inbound => (inbound.evictIdle nowS idleS).2 } where
  links := rfl
  reported := rfl
  wellFormed h := by
    refine ⟨h.ssrcs_nodup, h.trackCount_le, h.subs_le, h.addr_ne, h.nomination_ne, ?_,
      fun x hx => ?_⟩
    · rw [← h.srtp_iff]
      exact Option.isSome_map
    · obtain ⟨i, hi, rfl⟩ := Option.map_eq_some_iff.1 hx
      exact (h.inbound i hi).evictIdle nowS idleS
  sends _ h := h.of_eq rfl rfl rfl

namespace Shard

variable {ι ε : Type} [EventSink ε] {s s' : Shard ι ε} {held : List Nat}
  {k : Key} {r : Session}
  {now : Nat}

section Housekeeping

theorem retry_spec (h : s.Inv held) (hr : s.tables.sessions.get k = some r)
    (unreported : Option SelectReason) (now : Nat) : Ends (do
      match unreported with
      | some reason => reportSwitch k reason
      | none => pure ()
      checkConsent k now) s fun _ s' => s'.Inv held ∧ s.KeepsNet s' := by
  cases unreported with
  | none => exact checkConsent_spec h hr now
  | some reason =>
    have hrep : OpenSink ε → Reports (fun j => j = k) s := fun hopen =>
      ⟨(h.reports hopen).outbox, (h.reports hopen).accounts.weaken⟩
    refine ends_bind.2 ((reportSwitch_spec h.sound hrep hr reason).mono
      fun _ s₁ ⟨h₁, hidle₁, ⟨r₁, hr₁⟩, _⟩ => ?_)
    exact (checkConsent_spec h₁ hr₁ now).mono fun _ s₂ ⟨h₂, hidle₂⟩ =>
      ⟨h₂, hidle₁.trans hidle₂⟩

theorem sweepSession_spec (h : s.Inv held) (hr : s.tables.sessions.get k = some r) (now : Nat) :
    Ends (sweepSession now k) s fun _ s' => s'.Inv held ∧ s.KeepsNet s' := by
  refine ends_bind.2 (ends_get.2 (ends_bind.2 (ends_readSession hr ?_)))
  refine ends_bind.2
    (ends_quietSession h.sound.stays hr (.swept ..) fun s₁ h₁ hnet₁ hget₁ _ _ => ?_)
  have hinv₁ := h.stays h₁
  have hidle₁ : s.KeepsNet s₁ := ⟨h₁.keepsOutbox.config, hnet₁⟩
  have hr₁ := (congrFun hget₁ k).trans (Function.update_self ..)
  split_ifs with hgrace
  · refine ends_bind.2 (ends_zoom.2 ((Tables.dropPrevAddr_spec hinv₁.sound.tables hr₁).mono
      fun _ t ⟨ht, htold, hget, _⟩ => ?_))
    refine (retry_spec (hinv₁.withTables ht htold)
      ((congrFun hget k).trans (Function.update_self ..)) _
      now).mono fun _ s₂ ⟨h₂, hidle₂⟩ => ⟨h₂,
      hidle₁.trans ⟨hidle₂.config, hidle₂.net⟩⟩
  · exact (retry_spec hinv₁ hr₁ _ now).mono fun _ s₂ ⟨h₂, hidle₂⟩ =>
      ⟨h₂, hidle₁.trans hidle₂⟩

omit [EventSink ε] in
theorem Sound.same (h : s.Sound held) (hconfig : s'.config = s.config)
    (htables : s'.tables = s.tables) (hnet : s'.net = s.net) (houtbox : s'.outbox = s.outbox)
    (hcounters : s'.counters = s.counters) :
    StaysSound held s s' :=
  h.stays.step hconfig (htables ▸ .refl _) houtbox (by rw [hcounters]) (by rw [hnet])
    (by rw [hnet])
    (hnet ▸ h.net)

theorem housekeeping_spec (h : s.Inv held) (now : Nat) :
    Ends (housekeeping now) s fun _ s' => s'.Inv held ∧ s.KeepsNet s' := by
  refine ends_bind.2 (ends_modify.2 (ends_bind.2 (ends_get.2 ?_)))
  have h₀ : StaysSound held s { s with dtlsBudget := s.config.dtlsBudgetPerSweep } :=
    h.sound.same rfl rfl rfl rfl rfl
  refine ends_bind.2 (ends_assert.2 ⟨by simpa using h.sound.tables.slots, ?_⟩)
  refine ends_each (s := { s with dtlsBudget := s.config.dtlsBudgetPerSweep })
    (I := fun _ s₁ => s₁.Inv held ∧ s.KeepsNet s₁) ?_ ⟨h.stays h₀, rfl, rfl⟩
  rintro i _ s₁ ⟨h₁, hidle₁⟩
  refine ends_bind.2 (ends_get.2 ?_)
  cases hkey : s₁.tables.sessions.keyAt i with
  | none => exact ends_pure.2 ⟨h₁, hidle₁⟩
  | some k =>
    obtain ⟨r, hr⟩ := Option.isSome_iff_exists.1 (Slab.keyAt_eq_some.1 hkey).2
    exact (sweepSession_spec h₁ hr now).mono fun _ s₂ ⟨h₂, hidle₂⟩ =>
      ⟨h₂, hidle₁.trans hidle₂⟩

theorem sweep_spec (h : s.Inv held) (now : Nat) :
    Ends (sweep now) s fun _ s' => s'.Inv held ∧ s.KeepsNet s' := by
  refine ends_bind.2 (ends_get.2 ?_)
  split_ifs
  · refine ends_bind.2
      ((housekeeping_spec h now).mono fun _ s₁ ⟨h₁, hidle₁⟩ => ends_modify.2 ?_)
    exact ⟨h₁.stays (h₁.sound.same rfl rfl rfl rfl rfl), hidle₁.config, hidle₁.net⟩
  · exact ends_pure.2 ⟨h, .refl _⟩

end Housekeeping

section Queue

theorem pushCommand_spec (h : s.Inv held) (c : Command) :
    Ends (pushCommand c) s fun _ s' => s'.Inv held ∧ s.KeepsNet s' := by
  refine ends_bind.2 (ends_get.2 ?_)
  split_ifs
  · exact ends_pure.2 ⟨h, .refl _⟩
  · refine ends_bind.2
      (ends_set.2 (ends_pure.2 ⟨h.stays (h.sound.same rfl rfl rfl rfl rfl), rfl, rfl⟩))

variable [DatagramIo ι] [LawfulIo ι]

theorem nextCommand_spec (h : s.Inv held) (now : Nat) :
    Ends (nextCommand now) s fun _ s' => s'.Inv held ∧ s.KeepsRx s' := by
  refine ends_bind.2 (ends_get.2 ?_)
  cases hq : s.commands with
  | nil => exact ends_pure.2 ⟨h, .refl _⟩
  | cons c rest =>
    refine ends_bind.2 (ends_set.2 (ends_bind.2 ?_))
    have h₁ : Inv held { s with commands := rest } := h.stays (h.sound.same rfl rfl rfl rfl rfl)
    refine (handleCommand_spec h₁ now c).mono fun _ s₂ ⟨h₂, hsteady, _⟩ =>
      ends_pure.2 ⟨h₂, ?_⟩
    exact ⟨hsteady.config, hsteady.rx, hsteady.capacity⟩

theorem drainCommands_spec (now budget : Nat) : ∀ {s : Shard ι ε}, s.Inv held →
    Ends (drainCommands now budget) s fun _ s' => s'.Inv held ∧ s.KeepsRx s' := by
  induction budget with
  | zero => exact fun h => ends_pure.2 ⟨h, .refl _⟩
  | succ budget ih =>
    intro s h
    refine ends_bind.2 ((nextCommand_spec h now).mono fun more s₁ ⟨h₁, hsteady₁⟩ => ?_)
    cases more with
    | false => exact ends_pure.2 ⟨h₁, hsteady₁⟩
    | true =>
      refine ends_bind.2 ((ih h₁).mono fun n s₂ ⟨h₂, hsteady₂⟩ => ?_)
      exact ends_pure.2 ⟨h₂, hsteady₁.trans hsteady₂⟩

end Queue

section Iterate

variable [DatagramIo ι] [LawfulIo ι]

structure KeepsCapacity (s s' : Shard ι ε) : Prop where
  config : s'.config = s.config
  capacity : s'.net.pool.capacity = s.net.pool.capacity

omit [EventSink ε] [DatagramIo ι] [LawfulIo ι] in
theorem KeepsRx.keepsCapacity (h : s.KeepsRx s') : s.KeepsCapacity s' := ⟨h.config, h.capacity⟩

theorem receive_spec (h : s.Inv held) (hrx : s.net.rx = []) :
    Ends receive s fun _ s' => s'.Inv held ∧ s.KeepsCapacity s' := by
  refine ends_bind.2 (ends_count h.sound.stays (by decide) fun s₁ h₁ _ hnet₁ => ?_)
  have hinv₁ := h.stays h₁
  refine ends_bind.2 (ends_zoom.2 (Net.receive_spec h₁.sound.net (by rw [hnet₁, hrx])
    fun r net hnet hnum _ hcap => ?_))
  have hinv₂ : Inv held { s₁ with net } :=
    ⟨⟨h₁.sound.tables, hnet, h₁.sound.limit, h₁.sound.pending_le⟩, fun hopen =>
      (hinv₁.reports hopen).of_same (.refl _) rfl rfl⟩
  have hsame : s.KeepsCapacity { s₁ with net } :=
    ⟨h₁.keepsOutbox.config, hcap.trans h₁.keepsOutbox.capacity⟩
  have hrest : ∀ s₃, StaysSound held { s₁ with net } s₃ → s₃.net = net →
      Ends (do
        let received := RecvResult.ofCall r
        assert (received.received = (← get).net.rx.length)
        addTo .rxTruncated received.truncated
        addTo .rxUnreadable received.unreadable
        return received) s₃ fun _ s' => s'.Inv held ∧ s.KeepsCapacity s' := by
    intro s₃ h₃ hnet₃
    refine ends_bind.2
      (ends_get.2 (ends_bind.2 (ends_assert.2 ⟨by simpa [hnet₃] using hnum, ?_⟩)))
    refine ends_bind.2 (ends_addTo h₃ (by decide) fun s₄ h₄ _ _ => ?_)
    refine ends_bind.2
      (ends_addTo h₄ (by decide) fun s₅ h₅ _ _ => ends_pure.2 ⟨hinv₂.stays h₅, ?_⟩)
    exact ⟨h₅.keepsOutbox.config.trans hsame.config,
      h₅.keepsOutbox.capacity.trans hsame.capacity⟩
  cases r with
  | ok _ => exact hrest _ hinv₂.sound.stays rfl
  | error _ =>
    exact ends_bind.2 (ends_count hinv₂.sound.stays (by decide) fun s₃ h₃ _ hnet₃ =>
      hrest s₃ h₃ hnet₃)

theorem handleNext_spec (h : s.Inv []) (now : Nat) :
    Ends (handleNext now) s fun _ s' => s'.Inv [] ∧ s.KeepsCapacity s' ∧
      s'.net.rx = s.net.rx.tail := by
  refine ends_bind.2 (ends_zoom.2 (Net.nextReceived_spec h.sound.net (fun hrx => ?_)
    fun d rx net hrx hlen hnet hrx' hcap => ?_))
  · exact ends_pure.2 ⟨h, ⟨rfl, rfl⟩, by rw [hrx]; rfl⟩
  have hinv₁ : Inv [d.buf] { s with net } :=
    ⟨⟨h.sound.tables, hnet, h.sound.limit, h.sound.pending_le⟩, fun hopen =>
      (h.reports hopen).of_same (.refl _) rfl rfl⟩
  refine ends_bind.2 ((handleDatagram_spec hinv₁ hlen mem_cons_self now).mono
    fun _ s₂ ⟨h₂, hsteady₂⟩ => ?_)
  refine ends_put h₂.sound.stays fun s₃ h₃ _ => ⟨h₂.stays h₃, ⟨?_, ?_⟩, ?_⟩
  · exact h₃.keepsOutbox.config.trans hsteady₂.config
  · exact h₃.keepsOutbox.capacity.trans (hsteady₂.capacity.trans hcap)
  · rw [hrx]
    exact h₃.keepsOutbox.rx.trans (hsteady₂.rx.trans hrx')

theorem iterate_spec (h : s.Inv []) (hrx : s.net.rx = []) (now : Nat) :
    Ends (iterate now) s fun _ s' => s'.Inv [] ∧ s.KeepsCapacity s' ∧ s'.net.rx = [] ∧
      s'.net.tx = [] := by
  refine ends_bind.2 ((receive_spec h hrx).mono fun received s₁ ⟨h₁, hsame₁⟩ => ?_)
  refine ends_bind.2 (ends_get.2 (ends_bind.2 ?_))
  refine (ends_each (I := fun rest s₂ => s₂.Inv [] ∧ s.KeepsCapacity s₂ ∧
    s₂.net.rx.length = rest.length) ?_
    ⟨h₁, hsame₁, by simp⟩).mono fun _ s₂ ⟨h₂, hsame₂, hlen⟩ => ?_
  · rintro _ rest s₂ ⟨h₂, hsame₂, hlen⟩
    refine (handleNext_spec h₂ now).mono fun _ s₃ ⟨h₃, hsame₃, hrx₃⟩ =>
      ⟨h₃, ?_, ?_⟩
    · exact ⟨hsame₃.config.trans hsame₂.config, hsame₃.capacity.trans hsame₂.capacity⟩
    · rw [hrx₃, length_tail, hlen]
      rfl
  have hrx₂ : s₂.net.rx = [] := length_eq_zero_iff.1 hlen
  refine ends_bind.2
    ((applyPendingSwitches_spec h₂ now).mono fun _ s₃ ⟨h₃, hsteady₃⟩ => ?_)
  refine ends_bind.2 (ends_flush h₃.sound.stays fun s₄ h₄ _ _ => ?_)
  refine ends_bind.2 ((drainCommands_spec now commandBudget (h₃.stays h₄)).mono
    fun n s₅ ⟨h₅, hsteady₅⟩ => ?_)
  refine ends_bind.2 (ends_flush h₅.sound.stays fun s₆ h₆ _ htx₆ => ?_)
  refine ends_bind.2
    ((pushPending_spec (h₅.stays h₆)).mono fun _ s₇ ⟨h₇, hidle₇⟩ => ?_)
  refine ends_bind.2 ((sweep_spec h₇ now).mono fun _ s₈ ⟨h₈, hidle₈⟩ => ?_)
  have hsteady : s₂.KeepsRx s₈ :=
    ((hsteady₃.trans h₄.keepsOutbox.keepsRx).trans
      (hsteady₅.trans h₆.keepsOutbox.keepsRx)).trans
      (hidle₇.trans hidle₈).keepsRx
  have htx : s₈.net.tx = [] := by rw [hidle₈.net, hidle₇.net, htx₆]
  refine ends_bind.2 (ends_get.2 (ends_bind.2 (ends_assert.2 ⟨by simp [htx], ends_pure.2 ?_⟩)))
  exact ⟨h₈, ⟨hsteady.config.trans hsame₂.config,
    hsteady.capacity.trans hsame₂.capacity⟩, hsteady.rx.trans hrx₂, htx⟩

theorem act_spec (h : s.Inv []) (a : Action) :
    Ends (act a) s fun _ s' => s'.Inv [] ∧ s.KeepsCapacity s' := by
  cases a with
  | iterate now =>
    refine ends_bind.2 (ends_get.2 ?_)
    split_ifs with hrx
    · refine ends_bind.2
        ((iterate_spec h (isEmpty_iff.1 hrx) now).mono fun _ s₁ ⟨h₁, hsame, _⟩ => ?_)
      exact ends_pure.2 ⟨h₁, hsame⟩
    · exact ends_pure.2 ⟨h, rfl, rfl⟩
  | receive =>
    refine ends_bind.2 (ends_get.2 ?_)
    split_ifs with hrx
    · refine ends_bind.2
        ((receive_spec h (isEmpty_iff.1 hrx)).mono fun _ s₁ h₁ => ends_pure.2 h₁)
    · exact ends_pure.2 ⟨h, rfl, rfl⟩
  | next now =>
    exact (handleNext_spec h now).mono fun _ s₁ ⟨h₁, hsame, _⟩ => ⟨h₁, hsame⟩
  | switches now =>
    exact (applyPendingSwitches_spec h now).mono fun _ s₁ ⟨h₁, hs⟩ =>
      ⟨h₁, hs.keepsCapacity⟩
  | flush =>
    exact ends_flush h.sound.stays fun s₁ h₁ _ _ =>
      ⟨h.stays h₁, h₁.keepsOutbox.keepsRx.keepsCapacity⟩
  | command now =>
    refine ends_bind.2 ((nextCommand_spec h now).mono fun _ s₁ ⟨h₁, hs⟩ =>
      ends_pure.2 ⟨h₁, hs.keepsCapacity⟩)
  | retry =>
    exact (pushPending_spec h).mono fun _ s₁ ⟨h₁, hidle⟩ =>
      ⟨h₁, hidle.keepsRx.keepsCapacity⟩
  | sweep now =>
    exact (sweep_spec h now).mono fun _ s₁ ⟨h₁, hidle⟩ =>
      ⟨h₁, hidle.keepsRx.keepsCapacity⟩
  | push c =>
    refine ends_bind.2 ((pushCommand_spec h c).mono fun _ s₁ ⟨h₁, hidle⟩ => ?_)
    exact ends_pure.2 ⟨h₁, hidle.keepsRx.keepsCapacity⟩

end Iterate

section Runs

variable {config : ShardConfig} {stun : StunHash} {io : ι} {events : ε} {start : Nat}
  {s₀ : Shard ι ε}

theorem new_inv (hnew : Shard.new config stun io events start = .ok s₀)
    (hmax : config.maxSessions ≤ Tables.maxWebrtcSessions) :
    s₀.Inv [] ∧ s₀.config = config := by
  rw [Shard.new] at hnew
  split at hnew
  · cases hnew
  cases hnew
  refine ⟨⟨⟨.new _, ⟨fun b => ?_, Nat.zero_le _, Nat.zero_le _, by simp⟩, hmax,
    Nat.zero_le _⟩, fun _ => ⟨?_, ?_⟩⟩, rfl⟩
  · simp only [BufferPool.new, BufferPool.capacity, length_replicate, map_nil, count_nil,
      count_range, zero_add, add_zero]
  · exact ⟨.nil, by simp [keptEmissions], by simp, by simp, by simp, by simp⟩
  · exact ⟨fun _ _ => rfl, fun id k r hid => by simp [Tables.new] at hid⟩

variable [DatagramIo ι] [LawfulIo ι]

theorem run_spec (hnew : Shard.new config stun io events start = .ok s₀)
    (hmax : config.maxSessions ≤ Tables.maxWebrtcSessions) (actions : List Action) :
    ∃ s, run step s₀ actions = some s ∧ s.Inv [] ∧ s.config = config := by
  obtain ⟨h₀, hconfig⟩ := new_inv hnew hmax
  refine run_invariant (I := fun s : Shard ι ε => s.Inv [] ∧ s.config = config)
    (fun s a ⟨h, hc⟩ => ?_) ⟨h₀, hconfig⟩
    actions
  obtain ⟨_, s', hact, h', hsame⟩ := act_spec h a
  exact ⟨s', by rw [step, hact]; rfl, h', hsame.config.trans hc⟩

theorem run_consistent (hnew : Shard.new config stun io events start = .ok s₀)
    (hmax : config.maxSessions ≤ Tables.maxWebrtcSessions) (actions : List Action) :
    ∃ s, run step s₀ actions = some s ∧ s.tables.Linked ∧
      (∀ k r, s.tables.sessions.get k = some r → r.ssrcs.Nodup) ∧
      s.tables.sessions.slotCount ≤ config.maxSessions := by
  obtain ⟨s, hrun, h, hconfig⟩ := run_spec hnew hmax actions
  refine ⟨s, hrun, h.sound.tables.linked, fun k r hr => ?_, hconfig ▸ h.sound.tables.slots⟩
  exact (h.sound.tables.wellFormed k r hr).ssrcs_nodup

def sampleConfig : ShardConfig := ⟨0, 512, 2, 30000000000, 2000000000, 7, 64⟩

def sampleHash : StunHash := ⟨fun _ _ => Vector.replicate 20 0, fun _ => 0⟩

def sampleId : SessionId := ⟨1, firstId_ne_zero⟩

def secondId : SessionId := ⟨2, by decide⟩

def sampleRun : List Action :=
  [.push (.createSession sampleId ⟨.replicate 16 97, .replicate 32 98⟩ 1000),
    .push (.closeSession secondId), .iterate 5]

theorem sample_new :
    ∃ s₀ : Shard MemIo (List Event), Shard.new sampleConfig sampleHash .new [] 0 = .ok s₀ :=
  ⟨_, rfl⟩

theorem run_consistent_sample : ∃ s₀ s : Shard MemIo (List Event),
    Shard.new sampleConfig sampleHash .new [] 0 = .ok s₀ ∧ run step s₀ sampleRun = some s ∧
      s.tables.Linked := by
  obtain ⟨s₀, hnew⟩ := sample_new
  obtain ⟨s, hrun, hlinked, -⟩ := run_consistent hnew (by decide) sampleRun
  exact ⟨s₀, s, hnew, hrun, hlinked⟩

/-- The SRTP contexts of a session know exactly its SSRCs, so setting them up never fails. -/
theorem run_srtp_mirrors (hnew : Shard.new config stun io events start = .ok s₀)
    (hmax : config.maxSessions ≤ Tables.maxWebrtcSessions) (actions : List Action) :
    ∃ s, run step s₀ actions = some s ∧ (∀ k r, s.tables.sessions.get k = some r →
        (∀ o, r.srtpOut = some o → ∀ x, o.Sends x ↔
          x = r.outSsrcBase ∨ ∃ y b, y ∈ r.subs ∧ s.tables.subs.get y = some b ∧
          b.outSsrc = x) ∧
        (∀ i, r.srtpIn = some i → ∀ x, i.Pins x ↔ ∃ p ∈ r.published.items, p.1 = x)) ∧
      ∀ now c e s', c.Derives → execute now c s = some (.error e, s') → e ≠ .srtpSetup := by
  obtain ⟨s, hrun, h, -⟩ := run_spec hnew hmax actions
  refine ⟨s, hrun, fun k r hr => ⟨fun o ho x => ?_, fun i hi x => ?_⟩,
    fun now c e s' hd he => ?_⟩
  · rw [((h.sound.tables.sends k r hr).outbound o ho).sends x, mem_cons]
    refine or_congr Iff.rfl ?_
    simp only [Tables.sentBy, mem_filterMap, project_apply, Option.map_eq_some_iff]
    exact exists_congr fun y => exists_and_left.symm
  · rw [((h.sound.tables.wellFormed k r hr).inbound i hi).pins x, Session.ssrcs, mem_map]
  · obtain ⟨r, s₁, hex, hpost⟩ := execute_spec h now c
    rw [hex] at he
    cases he
    exact (hpost.rejected e rfl).2 hd

theorem run_srtp_mirrors_sample : ∃ s₀ s : Shard MemIo (List Event),
    Shard.new sampleConfig sampleHash .new [] 0 = .ok s₀ ∧ run step s₀ sampleRun = some s ∧
    ∀ now c e s', c.Derives → execute now c s = some (.error e, s') → e ≠ .srtpSetup := by
  obtain ⟨s₀, hnew⟩ := sample_new
  obtain ⟨s, hrun, -, hsetup⟩ := run_srtp_mirrors hnew (by decide) sampleRun
  exact ⟨s₀, s, hnew, hrun, hsetup⟩

theorem run_rejected_unchanged (hnew : Shard.new config stun io events start = .ok s₀)
    (hmax : config.maxSessions ≤ Tables.maxWebrtcSessions) {actions : List Action}
    {s : Shard ι ε} (hrun : run step s₀ actions = some s) (now : Nat) (c : Command)
    {e : RejectReason} {s₁ : Shard ι ε}
    (he : execute now c (s.counted .commands) = some (.error e, s₁)) :
    ∃ s' counters outbox, handleCommand now c s = some ((), s') ∧
      s' = { s with counters, outbox } := by
  obtain ⟨s', hrun', h, -⟩ := run_spec hnew hmax actions
  cases hrun.symm.trans hrun'
  obtain ⟨_, s', hcmd, -, -, hrej⟩ := handleCommand_spec h now c
  obtain ⟨⟨counters, outbox, hs'⟩, -⟩ := hrej e s₁ he
  exact ⟨s', counters, outbox, hcmd, hs'⟩

def sampleTrack : TrackId := ⟨1, firstId_ne_zero⟩

def sampleSub : SubscriptionId := ⟨1, firstId_ne_zero⟩

def sampleTrackSpec : TrackSpec where
  kind := .audio
  mid := ⟨[48], List.cons_ne_nil _ _, Nat.le_of_ble_eq_true rfl⟩
  ssrc := some 77
  codec := ⟨111, 48000⟩
  ext := ⟨1, 0, 0⟩
  cname := ⟨[99], List.cons_ne_nil _ _, Nat.le_of_ble_eq_true rfl⟩

def sampleSubSpec : SubSpec where
  outSsrc := 2001
  mid := ⟨[49], List.cons_ne_nil _ _, Nat.le_of_ble_eq_true rfl⟩
  ptMap := ⟨[(111, 111)], Nat.le_of_ble_eq_true rfl,
    List.forall_mem_singleton.2 ⟨by decide, by decide⟩, List.nodup_singleton _⟩
  extMap := ⟨.replicate 15 0, 1⟩
  source := ⟨0, sampleTrack⟩

/-- Two sessions, a track of the first one that the second one is subscribed to, and a command that
waits. -/
def subscribedRun : List Action :=
  [.push (.createSession sampleId ⟨.replicate 16 97, .replicate 32 98⟩ 1000),
    .push (.createSession secondId ⟨.replicate 16 99, .replicate 32 98⟩ 2000),
    .push (.addTrack sampleId sampleTrack sampleTrackSpec),
    .push (.subscribe secondId sampleSub sampleTrack sampleSubSpec), .iterate 5,
    .push (.closeSession sampleId)]

theorem run_rejected_unchanged_sample : ∃ s₀ s s' : Shard MemIo (List Event),
    Shard.new sampleConfig sampleHash .new [] 0 = .ok s₀ ∧
      run step s₀ subscribedRun = some s ∧
    s.tables.sessions.len = 2 ∧ s.tables.subs.len = 1 ∧ s.commands.length = 1 ∧
    (∃ s₁, execute 6 (.subscribe secondId sampleSub sampleTrack sampleSubSpec)
      (s.counted .commands) =
      some (.error .duplicateId, s₁)) ∧
    handleCommand 6 (.subscribe secondId sampleSub sampleTrack sampleSubSpec) s = some ((), s') ∧
    s'.tables = s.tables ∧ s'.commands = s.commands := by
  obtain ⟨s₀, hnew⟩ := sample_new
  have hend : ((Shard.new sampleConfig sampleHash .new ([] : List Event) 0).toOption.bind
      fun s₀ =>
      (run step s₀ subscribedRun).bind fun s : Shard MemIo (List Event) =>
        (execute 6 (.subscribe secondId sampleSub sampleTrack sampleSubSpec)
          (s.counted .commands)).map
          fun r => (decide (r.1 = .error .duplicateId), s.tables.sessions.len, s.tables.subs.len,
            s.commands.length)) = some (true, 2, 1, 1) := by
    decide +kernel
  rw [hnew, Except.toOption, Option.bind_some] at hend
  obtain ⟨s, hrun, hend⟩ := Option.bind_eq_some_iff.1 hend
  obtain ⟨⟨e, s₁⟩, he, hend⟩ := Option.map_eq_some_iff.1 hend
  simp only [Prod.mk.injEq, decide_eq_true_eq] at hend
  obtain ⟨rfl, hsessions, hsubs, hcommands⟩ := hend
  obtain ⟨s', counters, outbox, hcmd, rfl⟩ :=
    run_rejected_unchanged hnew (by decide) hrun 6 _ he
  exact ⟨s₀, s, _, hnew, hrun, hsessions, hsubs, hcommands, ⟨s₁, he⟩, hcmd, rfl, rfl⟩

theorem run_buffers_conserved (hnew : Shard.new config stun io events start = .ok s₀)
    (hmax : config.maxSessions ≤ Tables.maxWebrtcSessions) (actions : List Action) :
    ∃ s, run step s₀ actions = some s ∧ s.net.Owned [] ∧
      ∀ now, s.net.rx = [] →
        ∃ stats s', iterate now s = some (stats, s') ∧ s'.net.rx = [] ∧
        s'.net.tx = [] ∧ s'.net.pool.free.Perm (List.range s'.net.pool.capacity) ∧
        s'.net.pool.capacity = s.net.pool.capacity := by
  obtain ⟨s, hrun, h, -⟩ := run_spec hnew hmax actions
  refine ⟨s, hrun, h.sound.net, fun now hrx => ?_⟩
  obtain ⟨stats, s', hit, h', hsame, hrx', htx'⟩ := iterate_spec h hrx now
  refine ⟨stats, s', hit, hrx', htx', perm_iff_count.2 fun b => ?_, hsame.capacity⟩
  have honce := h'.sound.net.once b
  rw [hrx', htx'] at honce
  simp only [count_nil, map_nil, zero_add, add_zero] at honce
  rw [honce, count_range]

theorem run_buffers_conserved_sample : ∃ s₀ s : Shard MemIo (List Event),
    Shard.new sampleConfig sampleHash .new [] 0 = .ok s₀ ∧ run step s₀ sampleRun = some s ∧
      s.net.Owned [] := by
  obtain ⟨s₀, hnew⟩ := sample_new
  obtain ⟨s, hrun, howned, -⟩ := run_buffers_conserved hnew (by decide) sampleRun
  exact ⟨s₀, s, hnew, hrun, howned⟩

theorem run_events_accounted (hnew : Shard.new config stun io events start = .ok s₀)
    (hmax : config.maxSessions ≤ Tables.maxWebrtcSessions) (hopen : OpenSink ε)
    (actions : List Action) :
    ∃ s, run step s₀ actions = some s ∧ s.outbox.Delivers (s.counters .dropEventFull) ∧
      ∀ k r addr, s.tables.sessions.get k = some r → r.addr = some addr →
        r.unreportedSwitch = none → r.consentLost = false → ∃ n reason,
          ((s.outbox.accepted ++ s.outbox.pending).filter (Emission.selects r.id)).getLast? =
            some ⟨n, .addressSelected r.id addr reason⟩ := by
  obtain ⟨s, hrun, h, -⟩ := run_spec hnew hmax actions
  have hrep := h.reports hopen
  refine ⟨s, hrun, hrep.outbox.delivers, fun k r addr hr haddr hnone hconsent => ?_⟩
  obtain ⟨a, ha, hagree⟩ := hrep.account h.sound hr
  obtain ⟨n, reason, hlast⟩ :=
    selected_last ha (hagree.selected not_false addr haddr hnone hconsent)
  refine ⟨n, reason, ?_⟩
  rw [← hlast, ← hrep.outbox.kept, filter_filter]
  refine congrArg List.getLast? (filter_congr fun m _ => ?_)
  cases hm : m.event <;> simp [Emission.selects, hm, Event.isDtls]

theorem run_events_accounted_sample : ∃ s₀ s : Shard MemIo (List Event),
    Shard.new sampleConfig sampleHash .new [] 0 = .ok s₀ ∧ run step s₀ sampleRun = some s ∧
    s.outbox.Delivers (s.counters .dropEventFull) := by
  obtain ⟨s₀, hnew⟩ := sample_new
  obtain ⟨s, hrun, hdelivers, -⟩ := run_events_accounted hnew (by decide)
    (fun sink event => by simp [EventSink.trySend]) sampleRun
  exact ⟨s₀, s, hnew, hrun, hdelivers⟩

end Runs
end Shard
end NexusSfu.Dataplane
