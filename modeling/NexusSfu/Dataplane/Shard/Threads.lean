import NexusSfu.Dataplane.Shard.Safety
import NexusSfu.Dataplane.Shard.Parking

namespace NexusSfu.Dataplane

open Base Prog Option List

variable {κ ι ε : Type} [EventSink ε]

namespace Shard

variable {s : Shard ι ε}

structure Drained (s : Shard ι ε) : Prop where
  inv : s.Inv []
  rx : s.net.rx = []

theorem Drained.new {config : ShardConfig} {stun : StunHash} {io : ι} {events : ε} {start : Nat}
    (hnew : Shard.new config stun io events start = .ok s)
    (hmax : config.maxSessions ≤ Tables.maxWebrtcSessions) :
    s.Drained := by
  refine ⟨(new_inv hnew hmax).1, ?_⟩
  rw [Shard.new] at hnew
  split at hnew <;> cases hnew
  rfl

variable [DatagramIo ι] [LawfulIo ι]

theorem Drained.receiveBatch (h : s.Drained) (now : Nat) :
    Ends (receiveBatch now) s fun _ s' => s'.Drained := by
  refine ends_bind.2 ((receive_spec h.inv h.rx).mono fun _ s₁ ⟨h₁, _⟩ => ?_)
  refine ends_bind.2 (ends_get.2 (ends_bind.2 ?_))
  refine (ends_each (I := fun rest s₂ => s₂.Inv [] ∧ s₂.net.rx.length = rest.length) ?_
    ⟨h₁, by simp⟩).mono fun _ s₂ ⟨h₂, hlen⟩ => ?_
  · rintro _ rest s₂ ⟨h₂, hlen⟩
    refine (handleNext_spec h₂ now).mono fun _ s₃ ⟨h₃, _, hrx₃⟩ => ⟨h₃, ?_⟩
    rw [hrx₃, length_tail, hlen]
    rfl
  refine ends_bind.2
    ((applyPendingSwitches_spec h₂ now).mono fun _ s₃ ⟨h₃, hsteady⟩ => ?_)
  refine ends_bind.2
    (ends_flush h₃.sound.stays fun s₄ h₄ _ _ => ends_pure.2 ⟨h₃.stays h₄, ?_⟩)
  rw [h₄.keepsOutbox.rx, hsteady.rx, length_eq_zero_iff.1 hlen]

theorem Drained.nextCommand (h : s.Drained) (now : Nat) :
    Ends (nextCommand now) s fun _ s' => s'.Drained :=
  (nextCommand_spec h.inv now).mono fun _ _ ⟨h₁, hsteady⟩ => ⟨h₁, hsteady.rx.trans h.rx⟩

theorem Drained.finish (h : s.Drained) (now : Nat) :
    Ends (finish now) s fun _ s' => s'.Drained := by
  refine ends_bind.2 (ends_flush h.inv.sound.stays fun s₁ h₁ _ htx => ?_)
  refine ends_bind.2
    ((pushPending_spec (h.inv.stays h₁)).mono fun _ s₂ ⟨h₂, hidle₂⟩ => ?_)
  refine ends_bind.2 ((sweep_spec h₂ now).mono fun _ s₃ ⟨h₃, hidle₃⟩ => ?_)
  have hnet : s₃.net = s₁.net := hidle₃.net.trans hidle₂.net
  refine ends_bind.2 (ends_get.2 (ends_assert.2 ⟨by simp [hnet, htx], h₃, ?_⟩))
  rw [hnet, h₁.keepsOutbox.rx, h.rx]

end Shard

namespace ShardThread

variable {t t' : ShardThread ι ε}

structure Sound (t : ShardThread ι ε) : Prop where
  drained : t.shard.Drained
  ended : t.running = false → t.stop = true

theorem Sound.exec (h : t.Sound) {α : Type} {m : Prog (Shard ι ε) α} {pc : α → LoopPc}
    (hm : Ends m t.shard fun _ s' => s'.Drained) : (t.exec m pc).Sound := by
  obtain ⟨a, shard, hrun, hdrained⟩ := hm
  rw [ShardThread.exec, hrun]
  exact ⟨hdrained, h.ended⟩

theorem Sound.afterIterate (h : t.Sound) (stats : Shard.IterationStats) :
    (t.afterIterate stats).Sound := by
  rw [ShardThread.afterIterate]
  split_ifs with hstop
  · exact ⟨⟨h.drained.inv.stays (h.drained.inv.sound.same rfl rfl rfl rfl rfl),
      h.drained.rx⟩, fun _ => hstop⟩
  · exact ⟨h.drained, h.ended⟩
  · exact ⟨h.drained, h.ended⟩

variable [DatagramIo ι] [LawfulIo ι]

theorem Sound.step (h : t.Sound) {tick : Tick} (hstep : t.step tick = some t') : t'.Sound := by
  have hsame : ∀ parked signalled pc, Sound { t with parked, signalled, pc } :=
    fun _ _ _ => ⟨h.drained, h.ended⟩
  unfold ShardThread.step at hstep
  cases tick with
  | polled interrupted =>
    dsimp only at hstep
    split at hstep
    · cases hstep
      exact hsame _ _ _
    · cases hstep
  | next now =>
    dsimp only at hstep
    split at hstep
    case h_1 =>
      cases hstep
      exact h.exec (h.drained.receiveBatch now)
    case h_2 now _ _ _ =>
      split_ifs at hstep
      · cases hstep
        exact h.exec (h.drained.nextCommand now)
      · cases hstep
        exact hsame _ _ _
    case h_3 now _ _ _ =>
      cases hstep
      exact h.exec (h.drained.finish now)
    case h_4 stats _ =>
      cases hstep
      exact h.afterIterate stats
    case h_5 | h_6 | h_7 | h_8 =>
      cases hstep
      exact hsame _ _ _
    case h_9 | h_10 => cases hstep

theorem iterate_ticks_sample : ∃ (t t' : ShardThread MemIo (List Event)) (ticks : List Tick),
    t.pc = .iterate ∧ t.shard.tables.sessions.len = 2 ∧ t.shard.tables.subs.len = 1 ∧
    t.shard.commands.length = 1 ∧ run ShardThread.step t ticks = some t' ∧
    ∃ stats, t'.pc = .checkStop stats ∧ stats.commands = 1 := by
  obtain ⟨s₀, hnew⟩ := Shard.sample_new
  have hend : ((Shard.new Shard.sampleConfig Shard.sampleHash .new
      ([] : List Event) 0).toOption.bind
      fun s₀ => (run Shard.step s₀ Shard.subscribedRun).bind fun s : Shard MemIo (List Event) =>
        (Shard.iterate 6 s).map fun r => (r.1.commands, s.tables.sessions.len, s.tables.subs.len,
          s.commands.length)) = some (1, 2, 1, 1) := by
    decide +kernel
  rw [hnew, Except.toOption, Option.bind_some] at hend
  obtain ⟨shard, -, hend⟩ := Option.bind_eq_some_iff.1 hend
  obtain ⟨⟨stats, shard'⟩, hrun, hend⟩ := Option.map_eq_some_iff.1 hend
  simp only [Prod.mk.injEq] at hend
  obtain ⟨hhandled, hsessions, hsubs, hcommands⟩ := hend
  obtain ⟨ticks, hticks⟩ :=
    iterate_ticks (t := ⟨shard, 0, false, false, false, true, 0, .iterate⟩) rfl hrun
  exact ⟨_, _, ticks, rfl, hsessions, hsubs, hcommands, hticks, stats, rfl, hhandled⟩

end ShardThread

namespace DataplaneHandle

variable {s s' : DataplaneHandle κ ι ε} {i : Nat} {t : ShardThread ι ε}

def AllSound (s : DataplaneHandle κ ι ε) : Prop := ∀ t ∈ s.shards, t.Sound

theorem AllSound.set (h : s.AllSound) (ht : t.Sound) :
    AllSound { s with shards := s.shards.set i t } := by
  intro u hu
  rcases mem_or_eq_of_mem_set hu with hu | rfl
  · exact h u hu
  · exact ht

variable [DecidableEq κ]

theorem AllSound.advance (h : s.AllSound) {p : κ} (hstep : s.advance p = some s') :
    s'.AllSound := by
  have hsound : ∀ {i} {t : ShardThread ι ε}, s.shards[i]? = some t → t.Sound :=
    fun ht => h _ (mem_of_getElem? ht)
  cases hc : s.callers p with
  | idle => simp [DataplaneHandle.advance, hc] at hstep
  | sent i | waking i | stopped i | wakingAlways i =>
    simp only [DataplaneHandle.advance, hc] at hstep
    obtain ⟨t, ht, rfl⟩ := map_eq_some_iff.1 hstep
    exact h.set ⟨(hsound ht).drained, (hsound ht).ended⟩
  | stopping i =>
    simp only [DataplaneHandle.advance, hc] at hstep
    split at hstep
    case h_1 t ht =>
      cases hstep
      exact h.set ⟨(hsound ht).drained, fun _ => rfl⟩
    case h_2 =>
      cases hstep
      exact h
  | joining i =>
    simp only [DataplaneHandle.advance, hc] at hstep
    split at hstep
    · split_ifs at hstep
      cases hstep
      exact h
    · cases hstep
      exact h

variable [DatagramIo ι] [LawfulIo ι]

theorem AllSound.step (h : s.AllSound) {action : Action κ} (hstep : s.step action = some s') :
    s'.AllSound := by
  cases action with
  | send p i command =>
    rw [DataplaneHandle.step] at hstep
    split_ifs at hstep
    obtain ⟨t, ht, hstep⟩ := bind_eq_some_iff.1 hstep
    obtain ⟨⟨pushed, shard⟩, hpush, rfl⟩ := map_eq_some_iff.1 hstep
    have hsound := h t (mem_of_getElem? ht)
    obtain ⟨_, _, hends, hinv, hidle⟩ := Shard.pushCommand_spec hsound.drained.inv command
    cases hpush.symm.trans hends
    dsimp only
    split_ifs
    · exact h.set ⟨⟨hinv, hidle.net ▸ hsound.drained.rx⟩, hsound.ended⟩
    · exact h
  | shutdown p =>
    rw [DataplaneHandle.step] at hstep
    split_ifs at hstep
    cases hstep
    exact h
  | advance p => exact h.advance hstep
  | shard i tick =>
    obtain ⟨t, ht, hstep⟩ := bind_eq_some_iff.1 hstep
    obtain ⟨t', htick, rfl⟩ := map_eq_some_iff.1 hstep
    exact h.set ((h t (mem_of_getElem? ht)).step htick)

/-- No thread panics: in every interleaving of callers and threads each shard keeps its tables
linked and its buffers owned once, and a thread has only ended if it was told to. -/
theorem run_threads_sound {busyPollRounds : Nat} {shards : List (Shard ι ε)}
    {actions : List (Action κ)}
    (hnew : ∀ shard ∈ shards, ∃ config stun io events start,
      Shard.new config stun io events start = .ok shard ∧
      config.maxSessions ≤ Tables.maxWebrtcSessions)
    (hrun : run DataplaneHandle.step (spawn busyPollRounds shards) actions = some s)
    (ht : t ∈ s.shards) :
    t.shard.tables.Linked ∧ t.shard.net.Owned [] ∧ (t.running = false → t.stop = true) := by
  have hspawn : AllSound (spawn busyPollRounds shards : DataplaneHandle κ ι ε) := by
    intro t ht
    obtain ⟨shard, hshard, rfl⟩ := mem_map.1 ht
    obtain ⟨config, stun, io, events, start, hok, hmax⟩ := hnew shard hshard
    exact ⟨.new hok hmax, nofun⟩
  obtain ⟨hdrained, hended⟩ :=
    run_preserves (fun _ _ _ h hstep => AllSound.step h hstep) hspawn hrun t ht
  exact ⟨hdrained.inv.sound.tables.linked, hdrained.inv.sound.net, hended⟩

def stopping : List (Action Bool) := [.shard 0 (.next 0), .shutdown true, .advance true]

theorem run_threads_sound_stopping :
    ∃ (shard : Shard MemIo (List Event)) (s : DataplaneHandle Bool MemIo (List Event)),
    run DataplaneHandle.step (spawn 0 [shard]) stopping = some s ∧
      ∀ t ∈ s.shards, t.shard.tables.Linked ∧ t.shard.net.Owned [] ∧
        (t.running = false → t.stop = true) := by
  obtain ⟨shard, hnew⟩ := Shard.sample_new
  have hrun : ∃ s, run DataplaneHandle.step (spawn 0 [shard]) stopping = some s := ⟨_, rfl⟩
  obtain ⟨s, hs⟩ := hrun
  refine ⟨shard, s, hs, fun t ht => run_threads_sound (fun u hu => ?_) hs ht⟩
  exact ⟨_, _, _, _, _, mem_singleton.1 hu ▸ hnew, by decide⟩

end DataplaneHandle
end NexusSfu.Dataplane
