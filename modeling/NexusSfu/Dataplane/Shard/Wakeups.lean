import NexusSfu.Dataplane.Shard.Authenticated
import NexusSfu.Dataplane.Shard.Parking

namespace NexusSfu.Dataplane

open Base Option List

def Caller.clears : Caller → Option Nat
  | sent i | stopped i => some i
  | _ => none

def Caller.wakes : Caller → Option Nat
  | waking i | wakingAlways i => some i
  | _ => none

/-- The flag is set in `park` and nothing but a wake-up follows its being cleared. -/
def LoopPc.Parking : LoopPc → Prop
  | commandsPending | stopPending | poll => True
  | _ => False

variable {κ ι ε : Type}

/-- A cleared flag stands for a wake-up, and work the thread has not seen for a cleared flag, where
`clears` and `wakes` say that a caller is about to clear the flag or to wake. -/
structure ShardThread.Covered (t : ShardThread ι ε) (clears wakes : Prop) : Prop where
  signalled : t.pc.Parking → t.parked = false → t.signalled = true ∨ wakes
  commands : t.pc = .stopPending ∨ t.pc = .poll → t.shard.commands ≠ [] →
    t.parked = false ∨ clears
  stop : t.pc = .poll → t.stop = true → t.parked = false ∨ clears

namespace ShardThread.Covered

variable {t t' : ShardThread ι ε} {clears clears' wakes wakes' : Prop}

theorem mono (h : t.Covered clears wakes) (hc : clears → clears') (hw : wakes → wakes') :
    t.Covered clears' wakes' :=
  ⟨fun hpc hp => (h.signalled hpc hp).imp_right hw,
    fun hpc hq => (h.commands hpc hq).imp_right hc, fun hpc hs => (h.stop hpc hs).imp_right hc⟩

theorem of_not_parking (h : ¬ t.pc.Parking) : t.Covered clears wakes := by
  refine ⟨fun hpc => absurd hpc h, ?_, ?_⟩
  · rintro (hpc | hpc) <;> exact absurd (hpc ▸ trivial) h
  · exact fun hpc => absurd (hpc ▸ trivial) h

theorem announce (h : t.Covered clears wakes) (hclears : clears') (shard : Shard ι ε)
    (stop : Bool) :
    { t with shard, stop }.Covered clears' wakes :=
  ⟨h.signalled, fun _ _ => .inr hclears, fun _ _ => .inr hclears⟩

theorem clear (h : t.Covered clears wakes) (hw : wakes → wakes')
    (hset : t.parked = true → wakes') :
    { t with parked := false }.Covered clears' wakes' := by
  refine ⟨fun hpc _ => ?_, fun _ _ => .inl rfl, fun _ _ => .inl rfl⟩
  cases hp : t.parked with
  | false => exact (h.signalled hpc hp).imp_right hw
  | true => exact .inr (hset hp)

theorem wake (h : t.Covered clears wakes) : { t with signalled := true }.Covered clears wakes' :=
  ⟨fun _ _ => .inl rfl, h.commands, h.stop⟩

theorem exec {α : Type} (m : Base.Prog (Shard ι ε) α) {pc : α → LoopPc}
    (hpc : ∀ a, ¬ (pc a).Parking) :
    (t.exec m pc).Covered clears wakes := by
  refine of_not_parking ?_
  rw [ShardThread.exec]
  split
  · exact hpc _
  · exact id

theorem afterIterate (stats : Shard.IterationStats) :
    (t.afterIterate stats).Covered clears wakes := by
  refine of_not_parking ?_
  rw [ShardThread.afterIterate]
  split_ifs
  · exact id
  · exact id
  · dsimp only
    split_ifs <;> exact id

theorem step [DatagramIo ι] [EventSink ε] (h : t.Covered clears wakes) {tick : Tick}
    (hstep : t.step tick = some t') : t'.Covered clears wakes := by
  cases tick with
  | polled interrupted =>
    rw [ShardThread.step] at hstep
    split at hstep
    · cases hstep
      exact of_not_parking id
    · cases hstep
  | next now =>
    cases hpc : t.pc with
    | iterate | finish _ _ _ =>
      simp only [ShardThread.step, hpc, Option.some.injEq] at hstep
      subst hstep
      exact exec _ fun _ => id
    | drain _ _ handled =>
      simp only [ShardThread.step, hpc] at hstep
      split_ifs at hstep
      · cases hstep
        refine exec _ fun more => ?_
        cases more <;> exact id
      · cases hstep
        exact of_not_parking id
    | checkStop stats =>
      simp only [ShardThread.step, hpc, Option.some.injEq] at hstep
      subst hstep
      exact afterIterate stats
    | park =>
      simp only [ShardThread.step, hpc, Option.some.injEq] at hstep
      subst hstep
      exact ⟨fun _ hp => (Bool.noConfusion hp), by simp, by simp⟩
    | commandsPending =>
      simp only [ShardThread.step, hpc, Option.some.injEq] at hstep
      subst hstep
      cases hq : t.shard.commandsPending with
      | false =>
        exact ⟨fun _ => h.signalled (hpc ▸ trivial),
          fun _ hne => absurd (Shard.commandsPending_eq_false_iff.1 hq) hne, by simp⟩
      | true => exact of_not_parking id
    | stopPending =>
      simp only [ShardThread.step, hpc, Option.some.injEq] at hstep
      subst hstep
      cases hs : t.stop with
      | false =>
        exact ⟨fun _ => h.signalled (hpc ▸ trivial), fun _ => h.commands (.inl hpc),
          by simp⟩
      | true => exact of_not_parking id
    | unpark =>
      simp only [ShardThread.step, hpc, Option.some.injEq] at hstep
      subst hstep
      exact of_not_parking id
    | poll | ended => simp [ShardThread.step, hpc] at hstep

end ShardThread.Covered

theorem exists_update [DecidableEq κ] {f : Caller → Option Nat} {callers : κ → Caller}
    {p : κ} {caller : Caller} {i : Nat} (h : ∃ q, f (callers q) = some i)
    (hp : f (callers p) ≠ some i) :
    ∃ q, f (Function.update callers p caller q) = some i := by
  obtain ⟨q, hq⟩ := h
  have hne : q ≠ p := fun hqp => hp (hqp ▸ hq)
  exact ⟨q, by rw [Function.update_of_ne hne, hq]⟩

namespace DataplaneHandle

def Clears (s : DataplaneHandle κ ι ε) (i : Nat) : Prop := ∃ p, (s.callers p).clears = some i

def Wakes (s : DataplaneHandle κ ι ε) (i : Nat) : Prop := ∃ p, (s.callers p).wakes = some i

def Covered (s : DataplaneHandle κ ι ε) : Prop :=
  ∀ i (t : ShardThread ι ε), s.shards[i]? = some t → t.Covered (s.Clears i) (s.Wakes i)

variable {s s' : DataplaneHandle κ ι ε} {i : Nat} {t t' : ShardThread ι ε} {p : κ}
  {caller : Caller}

theorem spawn_covered (busyPollRounds : Nat) (shards : List (Shard ι ε)) :
    (spawn busyPollRounds shards : DataplaneHandle κ ι ε).Covered := by
  intro i t ht
  rw [spawn, getElem?_map] at ht
  obtain ⟨shard, -, rfl⟩ := map_eq_some_iff.1 ht
  exact .of_not_parking id

theorem Covered.set (h : s.Covered) (ht : t.Covered (s.Clears i) (s.Wakes i)) :
    { s with shards := s.shards.set i t }.Covered := by
  intro j u hu
  rcases eq_or_ne i j with rfl | hij
  · rw [getElem?_set_self'] at hu
    obtain ⟨-, -, rfl⟩ := map_eq_some_iff.1 hu
    exact ht
  · rw [getElem?_set_ne hij] at hu
    exact h j u hu

variable [DecidableEq κ]

theorem Covered.goto (h : s.Covered) (hclears : ∀ j ≠ i, (s.callers p).clears ≠ some j)
    (hwakes : ∀ j ≠ i, (s.callers p).wakes ≠ some j)
    (ht : t.Covered ((s.goto i t p caller).Clears i) ((s.goto i t p caller).Wakes i)) :
    (s.goto i t p caller).Covered := by
  intro j u hu
  rcases eq_or_ne i j with rfl | hij
  · rw [DataplaneHandle.goto, getElem?_set_self'] at hu
    obtain ⟨-, -, rfl⟩ := map_eq_some_iff.1 hu
    exact ht
  · rw [DataplaneHandle.goto, getElem?_set_ne hij] at hu
    exact (h j u hu).mono (fun hc => exists_update hc (hclears j hij.symm))
      fun hw => exists_update hw (hwakes j hij.symm)

theorem Covered.stay (h : s.Covered) (hclears : (s.callers p).clears = none)
    (hwakes : (s.callers p).wakes = none) : (s.stay p caller).Covered := by
  intro j u hu
  exact (h j u hu).mono (fun hc => exists_update hc (by rw [hclears]; exact nofun))
    fun hw => exists_update hw (by rw [hwakes]; exact nofun)

theorem Covered.advance (h : s.Covered) (hstep : s.advance p = some s') : s'.Covered := by
  cases hc : s.callers p with
  | idle => simp [DataplaneHandle.advance, hc] at hstep
  | sent i =>
    simp only [DataplaneHandle.advance, hc] at hstep
    obtain ⟨t, ht, rfl⟩ := map_eq_some_iff.1 hstep
    refine h.goto (by simp [hc, Caller.clears, eq_comm]) (by simp [hc, Caller.wakes]) ?_
    refine (h i t ht).clear (fun hw => exists_update hw (by simp [hc, Caller.wakes]))
      fun hparked => ?_
    exact ⟨p, by simp [DataplaneHandle.goto, hparked, Caller.wakes]⟩
  | waking i =>
    simp only [DataplaneHandle.advance, hc] at hstep
    obtain ⟨t, ht, rfl⟩ := map_eq_some_iff.1 hstep
    refine h.goto (by simp [hc, Caller.clears]) (by simp [hc, Caller.wakes, eq_comm]) ?_
    exact (h i t ht).wake.mono (fun hw => exists_update hw (by simp [hc, Caller.clears])) id
  | stopping i =>
    simp only [DataplaneHandle.advance, hc] at hstep
    split at hstep
    case h_1 t ht =>
      cases hstep
      refine h.goto (by simp [hc, Caller.clears]) (by simp [hc, Caller.wakes]) ?_
      refine ((h i t ht).mono id fun hw => exists_update hw ?_).announce ⟨p, ?_⟩ t.shard true
      · simp [hc, Caller.wakes]
      · simp [DataplaneHandle.goto, Caller.clears]
    case h_2 =>
      cases hstep
      exact h.stay (by rw [hc]; rfl) (by rw [hc]; rfl)
  | stopped i =>
    simp only [DataplaneHandle.advance, hc] at hstep
    obtain ⟨t, ht, rfl⟩ := map_eq_some_iff.1 hstep
    refine h.goto (by simp [hc, Caller.clears, eq_comm]) (by simp [hc, Caller.wakes]) ?_
    refine (h i t ht).clear (fun hw => exists_update hw (by simp [hc, Caller.wakes])) fun _ => ?_
    exact ⟨p, by simp [DataplaneHandle.goto, Caller.wakes]⟩
  | wakingAlways i =>
    simp only [DataplaneHandle.advance, hc] at hstep
    obtain ⟨t, ht, rfl⟩ := map_eq_some_iff.1 hstep
    refine h.goto (by simp [hc, Caller.clears]) (by simp [hc, Caller.wakes, eq_comm]) ?_
    exact (h i t ht).wake.mono (fun hw => exists_update hw (by simp [hc, Caller.clears])) id
  | joining i =>
    simp only [DataplaneHandle.advance, hc] at hstep
    split at hstep
    · split_ifs at hstep
      cases hstep
      exact h.stay (by rw [hc]; rfl) (by rw [hc]; rfl)
    · cases hstep
      exact h.stay (by rw [hc]; rfl) (by rw [hc]; rfl)

variable [DatagramIo ι] [EventSink ε]

theorem Covered.step (h : s.Covered) {action : Action κ} (hstep : s.step action = some s') :
    s'.Covered := by
  cases action with
  | send p i command =>
    rw [DataplaneHandle.step] at hstep
    split_ifs at hstep with hidle
    obtain ⟨t, ht, hstep⟩ := bind_eq_some_iff.1 hstep
    obtain ⟨⟨pushed, shard⟩, -, rfl⟩ := map_eq_some_iff.1 hstep
    cases pushed with
    | false => exact h
    | true =>
      refine h.goto (by simp [hidle, Caller.clears]) (by simp [hidle, Caller.wakes]) ?_
      refine ((h i t ht).mono id fun hw => exists_update hw ?_).announce ⟨p, ?_⟩ shard t.stop
      · simp [hidle, Caller.wakes]
      · simp [DataplaneHandle.goto, Caller.clears]
  | shutdown p =>
    rw [DataplaneHandle.step] at hstep
    split_ifs at hstep with hidle
    cases hstep
    exact h.stay (by rw [hidle.1]; rfl) (by rw [hidle.1]; rfl)
  | advance p => exact h.advance hstep
  | shard i tick =>
    obtain ⟨t, ht, hstep⟩ := bind_eq_some_iff.1 hstep
    obtain ⟨t', htick, rfl⟩ := map_eq_some_iff.1 hstep
    exact h.set ((h i t ht).step htick)

theorem run_covered {busyPollRounds : Nat} {shards : List (Shard ι ε)}
    {actions : List (Action κ)}
    (hrun : run DataplaneHandle.step (spawn busyPollRounds shards) actions = some s) : s.Covered :=
  run_preserves (fun _ _ _ h hstep => h.step hstep) (spawn_covered busyPollRounds shards) hrun

/-- No wake-up is lost: whatever the callers and the threads have done, a shard blocked in its poll
with a command or `stop` to see is signalled, unless a caller is still about to clear its flag or to
wake it. -/
theorem run_signalled {busyPollRounds : Nat} {shards : List (Shard ι ε)}
    {actions : List (Action κ)}
    (hrun : run DataplaneHandle.step (spawn busyPollRounds shards) actions = some s)
    (ht : s.shards[i]? = some t) (hpoll : t.pc = .poll)
    (hwork : t.shard.commands ≠ [] ∨ t.stop = true)
    (hcallers : ∀ p, (s.callers p).clears ≠ some i ∧ (s.callers p).wakes ≠ some i) :
    t.signalled = true := by
  have hcovered := run_covered hrun i t ht
  have hclears : ¬ s.Clears i := fun ⟨p, hp⟩ => (hcallers p).1 hp
  have hwakes : ¬ s.Wakes i := fun ⟨p, hp⟩ => (hcallers p).2 hp
  have hparked : t.parked = false := by
    rcases hwork with hcommands | hstop
    · exact (hcovered.commands (.inr hpoll) hcommands).resolve_right hclears
    · exact (hcovered.stop hpoll hstop).resolve_right hclears
  exact (hcovered.signalled (hpoll ▸ trivial) hparked).resolve_right hwakes

def crossing : List (Action Bool) :=
  .replicate 7 (.shard 0 (.next 0)) ++
    [.send false 0 (.closeSession Shard.sampleId), .send true 0 (.closeSession Shard.secondId),
      .advance false, .advance true, .advance false]

theorem run_signalled_crossing : ∃ (shard : Shard MemIo (List Event))
    (s : DataplaneHandle Bool MemIo (List Event)) (t : ShardThread MemIo (List Event)),
    run DataplaneHandle.step (spawn 0 [shard]) crossing = some s ∧ s.shards[0]? = some t ∧
      t.pc = .poll ∧ t.shard.commands.length = 2 ∧ t.signalled = true := by
  have hrun : ((Shard.new Shard.sampleConfig Shard.keyedHash MemIo.new
      ([] : List Event) 0).toOption.bind
      fun shard => (run DataplaneHandle.step (spawn 0 [shard]) crossing).bind fun s =>
        s.shards[0]?.map fun t => (decide (t.pc = .poll), t.shard.commands.length,
          decide (∀ p, (s.callers p).clears ≠ some 0 ∧ (s.callers p).wakes ≠ some 0))) =
      some (true, 2, true) := by
    decide +kernel
  obtain ⟨shard, -, hrun⟩ := bind_eq_some_iff.1 hrun
  obtain ⟨s, hs, hrun⟩ := bind_eq_some_iff.1 hrun
  obtain ⟨t, ht, hrun⟩ := map_eq_some_iff.1 hrun
  simp only [Prod.mk.injEq, decide_eq_true_eq] at hrun
  obtain ⟨hpoll, hlength, hcallers⟩ := hrun
  have hne : t.shard.commands ≠ [] := by
    intro h
    simp [h] at hlength
  exact ⟨shard, s, t, hs, ht, hpoll, hlength, run_signalled hs ht hpoll (.inl hne) hcallers⟩

end DataplaneHandle
end NexusSfu.Dataplane
