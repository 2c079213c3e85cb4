import NexusSfu.Swim.Runs

namespace NexusSfu.Swim

open Base State Checked List Option
open Dataplane (SocketAddr)

namespace SwimProtocol

def clock (s : SwimProtocol) : Nat := s.shared.elim 0 (·.state.clock)

def ticks : Event → Nat
  | .datagram _ _ _ => maxPiggybackUpdates
  | .operation _ => 1
  | .probe _ | .seed _ _ _ | .broadcast _ | .forward | .drainRelayEvents => 0

def Proper (me : ActorId) : Event → Prop
  | .seed _ a _ => a < maxActors ∧ a ≠ me
  | .operation op => ∀ a, op = .handleNodeFailure a → a < maxActors
  | .datagram _ _ _ | .probe _ | .broadcast _ | .forward | .drainRelayEvents => True

section Safety

variable {me : ActorId} {s s' s₀ : SwimProtocol} {e : Event} {es : List Event} {r : List ActorId}

theorem clock_of_shared {shared : Shared} (h : s.shared = some shared) :
    s.clock = shared.state.clock := by
  rw [clock, h, elim_some]

theorem clock_eq_of_shared (h : s'.shared = s.shared) : s'.clock = s.clock := by
  rw [clock, clock, h]

theorem clock_foldl_applied_le (shared : Shared) (us : List Update) :
    (us.foldl Shared.applied shared).state.clock ≤ shared.state.clock + us.length := by
  induction us generalizing shared with
  | nil => exact le_rfl
  | cons u us ih =>
    calc ((u :: us).foldl Shared.applied shared).state.clock
        ≤ (shared.applied u).state.clock + us.length := ih (shared.applied u)
      _ ≤ shared.state.clock + 1 + us.length := Nat.add_le_add_right clock_applied_le _
      _ = shared.state.clock + (u :: us).length := by
        rw [length_cons, Nat.add_assoc, Nat.add_comm 1]

theorem clock_received_le (us : List Update) : (s.received us).clock ≤ s.clock + us.length := by
  cases hs : s.shared with
  | none => simp [clock, received, hs]
  | some shared => simpa [clock, received, hs] using clock_foldl_applied_le shared us

theorem Handles.clock_le {news : News} {us : List Update} (h : Handles news us s s') :
    s'.clock ≤ s.clock + us.length := by
  obtain ⟨t, hpath, -, hpath'⟩ := h
  rw [clock_eq_of_shared hpath'.shared, ← clock_eq_of_shared hpath.shared]
  exact clock_received_le us

theorem Effect.clock_le (h : Effect s e r s') : s'.clock ≤ s.clock + ticks e := by
  cases h with
  | datagram tape data source s' htakes =>
    unfold Takes at htakes
    cases hmsg : accepted data with
    | none =>
      rw [hmsg] at htakes
      cases htakes
      exact Nat.le_add_right s.clock _
    | some msg =>
      rw [hmsg] at htakes
      exact htakes.clock_le.trans (Nat.add_le_add_left (length_take_le ..) _)
  | probe tape result s' hprobes => exact (clock_eq_of_shared hprobes.shared).le
  | seed tape a addr s' hpath => exact (clock_eq_of_shared hpath.shared).le
  | operation op =>
    cases hs : s.shared with
    | none => simp [clock, hs]
    | some shared =>
      simpa [clock, hs, Shared.performed, ticks]
        using (Operation.edit_perform shared.state op).clock_le
  | forward =>
    unfold forwarded
    cases hs : s.shared with
    | none => exact le_rfl
    | some shared => simp [clock, hs, ticks]
  | broadcast | drainRelayEvents => exact le_rfl

theorem exists_step_of_proper (hs : Live me s) (he : Proper me e)
    (hclock : s.clock + ticks e ≤ u64Max) :
    ∃ s', step s e = some s' := by
  have hready : Prepared (fun _ => False) (ticks e) s := fun shared hshared =>
    ⟨hs.sound shared hshared, hs.clock shared hshared,
      .inr (clock_of_shared hshared ▸ hclock)⟩
  refine exists_step hs ?_
  cases e with
  | datagram => exact hready
  | operation op => exact ⟨hready, .inr he⟩
  | seed => exact .inr he
  | probe | broadcast | forward | drainRelayEvents => trivial

theorem exists_run (hs : Live me s) (hproper : ∀ e ∈ es, Proper me e)
    (hclock : s.clock + (es.map ticks).sum ≤ u64Max) : ∃ s', run step s es = some s' := by
  induction es generalizing s with
  | nil => exact ⟨s, rfl⟩
  | cons e es ih =>
    rw [map_cons, sum_cons] at hclock
    obtain ⟨he, hes⟩ := forall_mem_cons.1 hproper
    obtain ⟨t, hstep⟩ := exists_step_of_proper hs he (by omega)
    have heffect := step_effect hs hstep
    have hle := heffect.clock_le
    obtain ⟨s', hrun⟩ := ih (heffect.live hs) hes (by omega)
    exact ⟨s', by rw [run, hstep, bind_some, hrun]⟩

theorem Starts.clock (h : Starts me s) : s.clock = 0 := by
  obtain ⟨addr, config, s₀, hnew, rfl | ⟨c, -, rfl⟩⟩ := h
  · cases new_eq_some hnew
    rfl
  · rfl

end Safety

section Overflow

variable {s s' : SwimProtocol} {shared : Shared}

def staleRemoval : Update := .delta (.participantRemoved 1 1 ⟨2, 1⟩)

def flood : Event := arrives (.ack 2 0 (List.replicate maxPiggybackUpdates staleRemoval)) hostB

theorem applied_staleRemoval (h : shared.state.rooms = []) :
    shared.applied staleRemoval = { shared with state := shared.state.tick } := by
  have hroom : shared.state.getRoom 1 = none := by rw [DistributedState.getRoom, h, find?_nil]
  simp [Shared.applied, staleRemoval, Update.operation, Shared.performed, Operation.perform,
    Operation.announces, Operation.onOk, DistributedState.removeParticipant,
    checkParticipantIds, hroom]

theorem foldl_staleRemoval (h : shared.state.rooms = []) (n : Nat) :
    ((List.replicate n staleRemoval).foldl Shared.applied shared).state.rooms = [] ∧
    ((List.replicate n staleRemoval).foldl Shared.applied shared).state.clock =
      shared.state.clock + n := by
  induction n generalizing shared with
  | zero => exact ⟨h, rfl⟩
  | succ n ih =>
    rw [replicate_succ, foldl_cons, applied_staleRemoval h]
    have hticked : ({ shared with state := shared.state.tick } : Shared).state.rooms = [] := h
    obtain ⟨hrooms, hclock⟩ := ih hticked
    refine ⟨hrooms, hclock.trans ?_⟩
    rw [DistributedState.tick, Nat.add_assoc, Nat.add_comm 1]

theorem step_flood (hs : Live 1 s) (hshared : s.shared = some shared) (h : shared.state.rooms = [])
    (hstep : step s flood = some s') :
    ∃ shared', s'.shared = some shared' ∧ shared'.state.rooms = [] ∧
      shared'.state.clock = shared.state.clock + maxPiggybackUpdates := by
  have heffect := step_effect hs hstep
  unfold flood arrives at heffect
  generalize reported s _ = r at heffect
  cases heffect with
  | datagram tape data source s' htakes =>
    have hmsg : accepted
        (GossipMessage.ack 2 0 (List.replicate maxPiggybackUpdates staleRemoval)).layout
        = some (.ack 2 0 (List.replicate maxPiggybackUpdates staleRemoval)) := by decide +kernel
    rw [Takes, hmsg] at htakes
    obtain ⟨t, hpath, -, hpath'⟩ := htakes
    refine ⟨_, ?_, foldl_staleRemoval h _⟩
    rw [hpath'.shared, received, hpath.shared, hshared]
    rfl

theorem run_flood (hs : Live 1 s) (hshared : s.shared = some shared) (h : shared.state.rooms = [])
    (n : Nat) (hrun : run step s (List.replicate n flood) = some s') :
    ∃ shared', s'.shared = some shared' ∧
      shared'.state.clock = shared.state.clock + n * maxPiggybackUpdates := by
  induction n generalizing s shared with
  | zero =>
    cases hrun
    exact ⟨shared, hshared, by simp⟩
  | succ n ih =>
    obtain ⟨t, hstep, hrun⟩ := bind_eq_some_iff.1 hrun
    obtain ⟨shared₁, hshared₁, hrooms, hclock⟩ := step_flood hs hshared h hstep
    obtain ⟨shared', hshared', hclock'⟩ := ih (step_live hs hstep) hshared₁ hrooms hrun
    refine ⟨shared', hshared', ?_⟩
    rw [hclock', hclock, Nat.succ_mul]
    omega

theorem flood_panics {n : Nat} (hn : u64Max < n * maxPiggybackUpdates) :
    run step stateNode (List.replicate n flood) = none := by
  cases hrun : run step stateNode (List.replicate n flood) with
  | none => rfl
  | some s' =>
    have hs := starts_stateNode.live
    obtain ⟨shared', hshared', hclock⟩ := run_flood hs rfl rfl n hrun
    have hfits := (run_live hs hrun).clock shared' hshared'
    rw [hclock] at hfits
    exact absurd hn (not_lt.2 ((Nat.le_add_left ..).trans hfits))

end Overflow
end SwimProtocol
end NexusSfu.Swim
