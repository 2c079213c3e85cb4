import NexusSfu.Dataplane.Shard.Loop

/-!
The callers of the handle and the loops of the shard threads, interleaved at the granularity of
their sequentially consistent steps. Timeouts are the environment's: a poll may return at any time.
-/

namespace NexusSfu.Dataplane

open Base Prog

namespace Shard

variable {ι ε : Type}

def commandsPending (s : Shard ι ε) : Bool := !s.commands.isEmpty

theorem commandsPending_eq_false_iff {s : Shard ι ε} :
    s.commandsPending = false ↔ s.commands = [] := by
  simp [commandsPending]

variable [DatagramIo ι] [EventSink ε]

def receiveBatch (now : Nat) : Prog (Shard ι ε) RecvResult := do
  let received ← receive
  each (fun _ => handleNext now) (List.range (← get).net.rx.length)
  applyPendingSwitches now
  flush
  return received

def finish (now : Nat) : Prog (Shard ι ε) Unit := do
  flush
  pushPending
  sweep now
  assert (← get).net.tx.isEmpty

theorem iterate_eq (now : Nat) : (iterate now : Prog (Shard ι ε) IterationStats) = do
    let received ← receiveBatch now
    let commands ← drainCommands now commandBudget
    finish now return ⟨received.received, received.taken, received.wouldBlock, commands⟩ := by
  simp only [iterate, receiveBatch, finish, bind_assoc, pure_bind]

end Shard

inductive LoopPc
  | iterate
  | drain (now : Nat) (received : RecvResult) (handled : Nat)
  | finish (now : Nat) (received : RecvResult) (handled : Nat)
  | checkStop (stats : Shard.IterationStats)
  | park
  | commandsPending
  | stopPending
  | poll
  | unpark
  | ended
  deriving DecidableEq

inductive Tick
  | next (now : Nat)
  | polled (interrupted : Bool)

structure ShardThread (ι ε : Type) where
  shard : Shard ι ε
  busyPollRounds : Nat
  stop : Bool := false
  parked : Bool := false
  signalled : Bool := false
  running : Bool := true
  idleRounds : Nat := 0
  pc : LoopPc := .iterate

namespace ShardThread

variable {ι ε α : Type} [DatagramIo ι] [EventSink ε]

def exec (t : ShardThread ι ε) (m : Prog (Shard ι ε) α) (pc : α → LoopPc) :
    ShardThread ι ε :=
  match m t.shard with
  | some (a, shard) => { t with shard, pc := pc a }
  | none => { t with running := false, pc := .ended }

def afterIterate (t : ShardThread ι ε) (stats : Shard.IterationStats) : ShardThread ι ε :=
  if t.stop then { t with running := false, pc := .ended }
  else if 0 < stats.taken ∨ 0 < stats.commands then { t with idleRounds := 0, pc := .iterate }
  else
    let idleRounds := min (t.idleRounds + 1) 4294967295
    { t with idleRounds, pc := if idleRounds ≤ t.busyPollRounds then .iterate else .park }

def step (t : ShardThread ι ε) : Tick → Option (ShardThread ι ε)
  | .polled interrupted =>
    match t.pc with
    | .poll => some { t with signalled := interrupted && t.signalled, pc := .unpark }
    | _ => none
  | .next now =>
    match t.pc with
    | .iterate => some (t.exec (Shard.receiveBatch now) fun received => .drain now received 0)
    | .drain now received handled =>
      if handled < commandBudget then
        some (t.exec (Shard.nextCommand now) fun more =>
          if more then .drain now received (handled + 1) else .finish now received handled)
      else some { t with pc := .finish now received handled }
    | .finish now received handled =>
      some (t.exec (Shard.finish now) fun _ =>
        .checkStop ⟨received.received, received.taken, received.wouldBlock, handled⟩)
    | .checkStop stats => some (t.afterIterate stats)
    | .park => some { t with parked := true, pc := .commandsPending }
    | .commandsPending =>
      some { t with pc := if t.shard.commandsPending then .unpark else .stopPending }
    | .stopPending => some { t with pc := if t.stop then .unpark else .poll }
    | .unpark => some { t with parked := false, pc := .iterate }
    | .poll | .ended => none

variable {t : ShardThread ι ε}

theorem drain_runs {now handled budget n : Nat} {received : RecvResult} {shard : Shard ι ε}
    (hbudget : handled + budget = commandBudget)
    (h : Shard.drainCommands now budget t.shard = some (n, shard)) :
    ∃ ticks, run step { t with pc := .drain now received handled } ticks =
      some { t with shard, pc := .finish now received (handled + n) } := by
  induction budget generalizing t handled n with
  | zero =>
    cases h
    refine ⟨[.next 0], run_one ?_⟩
    simp [step, show handled = commandBudget from hbudget]
  | succ budget ih =>
    have hlt : handled < commandBudget := by omega
    obtain ⟨⟨more, shard₁⟩, hnext, h⟩ := Option.bind_eq_some_iff.1 h
    have hstep : step { t with pc := .drain now received handled } (.next 0) =
        some { t with
          shard := shard₁
          pc := if more then .drain now received (handled + 1)
            else .finish now received handled } := by
      simp only [step, if_pos hlt, exec, hnext]
    cases more with
    | false =>
      cases h
      exact ⟨[.next 0], run_one hstep⟩
    | true =>
      obtain ⟨⟨k, shard₂⟩, hdrain, h⟩ := Option.bind_eq_some_iff.1 h
      cases h
      obtain ⟨ticks, hticks⟩ :=
        @ih { t with shard := shard₁ } (handled + 1) k (by omega) hdrain
      refine ⟨.next 0 :: ticks, ?_⟩
      rw [run, hstep, Option.bind_some, Nat.add_comm k 1, ← Nat.add_assoc]
      exact hticks

theorem iterate_ticks {now : Nat} {stats : Shard.IterationStats} {shard : Shard ι ε}
    (hpc : t.pc = .iterate) (h : Shard.iterate now t.shard = some (stats, shard)) :
    ∃ ticks, run step t ticks = some { t with shard, pc := .checkStop stats } := by
  rw [Shard.iterate_eq] at h
  obtain ⟨⟨received, shard₁⟩, hreceive, h⟩ := Option.bind_eq_some_iff.1 h
  obtain ⟨⟨handled, shard₂⟩, hdrain, h⟩ := Option.bind_eq_some_iff.1 h
  obtain ⟨⟨⟨⟩, shard₃⟩, hfinish, h⟩ := Option.bind_eq_some_iff.1 h
  cases h
  obtain ⟨ticks, hticks⟩ :=
    @drain_runs _ _ _ _ { t with shard := shard₁ } now 0 _ _ received _
    (Nat.zero_add _) hdrain
  have hfirst : step t (.next now) =
      some { t with shard := shard₁, pc := .drain now received 0 } := by
    simp only [step, hpc, exec, hreceive]
  refine ⟨.next now :: (ticks ++ [.next 0]), ?_⟩
  rw [run, hfirst, Option.bind_some]
  refine run_append hticks (run_one ?_)
  simp only [step, Nat.zero_add, exec, hfinish]

end ShardThread

inductive Caller
  | idle
  | sent (shard : Nat)
  | waking (shard : Nat)
  | stopping (shard : Nat)
  | stopped (shard : Nat)
  | wakingAlways (shard : Nat)
  | joining (shard : Nat)
  deriving DecidableEq

structure DataplaneHandle (κ ι ε : Type) where
  shards : List (ShardThread ι ε)
  locked : Bool := false
  callers : κ → Caller := fun _ => .idle

namespace DataplaneHandle

inductive Action (κ : Type)
  | send (caller : κ) (shard : Nat) (command : Command)
  | shutdown (caller : κ)
  | advance (caller : κ)
  | shard (shard : Nat) (tick : Tick)

variable {κ ι ε : Type} [DecidableEq κ] [DatagramIo ι] [EventSink ε]

def spawn (busyPollRounds : Nat) (shards : List (Shard ι ε)) : DataplaneHandle κ ι ε where
  shards := shards.map fun shard => { shard, busyPollRounds }

variable (s : DataplaneHandle κ ι ε)

def goto (i : Nat) (t : ShardThread ι ε) (p : κ) (caller : Caller) :
    DataplaneHandle κ ι ε :=
  { s with shards := s.shards.set i t, callers := Function.update s.callers p caller }

def stay (p : κ) (caller : Caller) : DataplaneHandle κ ι ε :=
  { s with callers := Function.update s.callers p caller }

def advance (p : κ) : Option (DataplaneHandle κ ι ε) :=
  match s.callers p with
  | .idle => none
  | .sent i => s.shards[i]?.map fun t =>
    s.goto i { t with parked := false } p (if t.parked then .waking i else .idle)
  | .waking i => s.shards[i]?.map fun t => s.goto i { t with signalled := true } p .idle
  | .stopping i =>
    match s.shards[i]? with
    | some t => some (s.goto i { t with stop := true } p (.stopped i))
    | none => some (s.stay p (.joining 0))
  | .stopped i => s.shards[i]?.map fun t => s.goto i { t with parked := false } p (.wakingAlways i)
  | .wakingAlways i => s.shards[i]?.map fun t =>
    s.goto i { t with signalled := true } p (.stopping (i + 1))
  | .joining i =>
    match s.shards[i]? with
    | some t => if t.running then none else some (s.stay p (.joining (i + 1)))
    | none => some { s.stay p .idle with locked := false }

def step : Action κ → Option (DataplaneHandle κ ι ε)
  | .send p i command =>
    if s.callers p = .idle then
      s.shards[i]?.bind fun t => (Shard.pushCommand command t.shard).map fun (pushed, shard) =>
        if pushed then s.goto i { t with shard } p (.sent i) else s
    else none
  | .shutdown p =>
    if s.callers p = .idle ∧ s.locked = false then
      some { s.stay p (.stopping 0) with locked := true }
    else none
  | .advance p => s.advance p
  | .shard i tick =>
    s.shards[i]?.bind fun t => (t.step tick).map fun t' => { s with shards := s.shards.set i t' }

end DataplaneHandle
end NexusSfu.Dataplane
