import Mathlib.Data.List.Count
import NexusSfu.Base.Run

/-!
The accept loop of the WebSocket server and the connection tasks it spawns, in any order of their
steps. The loop reads the counter, the tasks write it.
-/

namespace NexusSfu.Signal

open Base List

abbrev maxConnections : UInt32 := 10000

inductive TaskState
  | spawned
  | counted
  | finished
  | panicked
  deriving DecidableEq

namespace TaskState

def isUnfinished : TaskState → Bool
  | spawned | counted => true
  | finished | panicked => false

def isActive : TaskState → Bool
  | counted | panicked => true
  | spawned | finished => false

end TaskState

/-- `accepting` is whether the loop is past its check of a connection and before its `spawn`. -/
structure WebSocketServer where
  activeConnections : UInt32 := 0
  accepting : Bool := false
  tasks : List TaskState := []

inductive ServerStep
  | accept
  | spawn
  | start (i : Nat)
  | finish (i : Nat)
  | panic (i : Nat)
  deriving DecidableEq

namespace WebSocketServer

def refuses (s : WebSocketServer) (a : ServerStep) : Bool :=
  a = .accept && !s.accepting && s.activeConnections ≥ maxConnections

/-- A step that is not due leaves everything as it is. A task that panics skips its decrement. -/
def step (s : WebSocketServer) : ServerStep → WebSocketServer
  | .accept =>
    if s.accepting ∨ s.activeConnections ≥ maxConnections then s
    else { s with accepting := true }
  | .spawn =>
    if s.accepting then { s with accepting := false, tasks := s.tasks ++ [.spawned] } else s
  | .start i =>
    if s.tasks[i]? = some .spawned then
      { s with activeConnections := s.activeConnections + 1, tasks := s.tasks.set i .counted }
    else s
  | .finish i =>
    if s.tasks[i]? = some .counted then
      { s with activeConnections := s.activeConnections - 1, tasks := s.tasks.set i .finished }
    else s
  | .panic i =>
    if s.tasks[i]? = some .counted then { s with tasks := s.tasks.set i .panicked } else s

def unfinished (s : WebSocketServer) : Nat := s.tasks.countP TaskState.isUnfinished

def Limited (s : WebSocketServer) (a : ServerStep) : Prop :=
  (s.step a).unfinished ≤ maxConnections.toNat ∧
    (s.refuses a = true → s.unfinished = maxConnections.toNat)

def Settled (s : WebSocketServer) (a : ServerStep) : Prop :=
  a = .accept → TaskState.spawned ∉ s.tasks ∧ TaskState.panicked ∉ s.tasks

instance (s : WebSocketServer) (a : ServerStep) : Decidable (s.Settled a) :=
  inferInstanceAs (Decidable (_ → _))

variable {s : WebSocketServer} {a : ServerStep}

structure Counting (s : WebSocketServer) : Prop where
  active : s.activeConnections = UInt32.ofNat (s.tasks.countP TaskState.isActive)
  room : s.unfinished + s.accepting.toNat ≤ maxConnections.toNat

theorem countP_set_add {l : List TaskState} {i : Nat} {x : TaskState} (h : l[i]? = some x)
    (y : TaskState) (p : TaskState → Bool) :
    (l.set i y).countP p + (p x).toNat = l.countP p + (p y).toNat := by
  induction l generalizing i with
  | nil => cases h
  | cons z l ih =>
    cases i with
    | zero =>
      cases h
      simp only [set_cons_zero, countP_cons]
      cases p y <;> cases p x <;> rfl
    | succ i =>
      have hrest := ih h
      simp only [set_cons_succ, countP_cons]
      omega

theorem Counting.move (h : s.Counting) {i : Nat} {x : TaskState} (hx : s.tasks[i]? = some x)
    (y : TaskState) (n : UInt32)
    (hn : n + UInt32.ofNat x.isActive.toNat = s.activeConnections + UInt32.ofNat y.isActive.toNat)
    (hle : y.isUnfinished.toNat ≤ x.isUnfinished.toNat) :
    Counting { s with activeConnections := n, tasks := s.tasks.set i y } := by
  have hactive := countP_set_add hx y TaskState.isActive
  have hunfinished := countP_set_add hx y TaskState.isUnfinished
  have hroom := h.room
  refine ⟨(UInt32.add_left_inj (UInt32.ofNat x.isActive.toNat)).1 ?_, ?_⟩
  · rw [hn, h.active, ← UInt32.ofNat_add, ← UInt32.ofNat_add, hactive]
  · simp only [unfinished] at hroom ⊢
    omega

theorem Counting.counts (h : s.Counting) (hs : s.Settled .accept) :
    s.activeConnections.toNat = s.unfinished := by
  obtain ⟨hspawned, hpanicked⟩ := hs rfl
  have hsame : s.tasks.countP TaskState.isActive = s.unfinished := by
    refine countP_congr fun t ht => ?_
    cases t with
    | spawned => exact absurd ht hspawned
    | panicked => exact absurd ht hpanicked
    | counted | finished => rfl
  rw [h.active, hsame, UInt32.toNat_ofNat_of_lt']
  exact Nat.lt_of_le_of_lt (Nat.le_trans (Nat.le_add_right _ _) h.room) (by decide)

theorem Counting.step (h : s.Counting) (hs : s.Settled a) : (s.step a).Counting := by
  cases a with
  | accept =>
    rw [WebSocketServer.step]
    split_ifs with hrefuse
    · exact h
    · rw [not_or, ge_iff_le, UInt32.le_iff_toNat_le, h.counts hs, Nat.not_le] at hrefuse
      exact ⟨h.active, hrefuse.2⟩
  | spawn =>
    rw [WebSocketServer.step]
    split_ifs with haccepting
    · have hroom := h.room
      rw [haccepting] at hroom
      exact ⟨by simpa [TaskState.isActive] using h.active, by
        simpa [unfinished, TaskState.isUnfinished] using hroom⟩
    · exact h
  | start i =>
    rw [WebSocketServer.step]
    split_ifs with ht
    · exact h.move ht .counted _ (UInt32.add_zero _) (Nat.le_refl _)
    · exact h
  | finish i =>
    rw [WebSocketServer.step]
    split_ifs with ht
    · exact h.move ht .finished _ ((UInt32.sub_add_cancel _ _).trans (UInt32.add_zero _).symm)
        (Nat.zero_le _)
    · exact h
  | panic i =>
    rw [WebSocketServer.step]
    split_ifs with ht
    · exact h.move ht .panicked _ rfl (Nat.zero_le _)
    · exact h

theorem Counting.limited (h : s.Counting) (hs : s.Settled a) : s.Limited a := by
  refine ⟨Nat.le_trans (Nat.le_add_right _ _) (h.step hs).room, fun hrefuse => ?_⟩
  simp only [refuses, Bool.and_eq_true, decide_eq_true_eq] at hrefuse
  obtain ⟨⟨rfl, -⟩, hfull⟩ := hrefuse
  rw [ge_iff_le, UInt32.le_iff_toNat_le, h.counts hs] at hfull
  exact Nat.le_antisymm (Nat.le_trans (Nat.le_add_right _ _) h.room) hfull

theorem Counting.run (h : s.Counting) {steps : List ServerStep}
    (hs : Guarded Settled WebSocketServer.step s steps) :
    Guarded Limited WebSocketServer.step s steps := by
  induction steps generalizing s with
  | nil => trivial
  | cons a steps ih => exact ⟨h.limited hs.1, ih (h.step hs.1) hs.2⟩

/-- In every interleaving in which the counter is settled whenever the loop reads it, every step
keeps to the limit. -/
theorem connections_limited (steps : List ServerStep) (hs : Guarded Settled step {} steps) :
    Guarded Limited step {} steps :=
  Counting.run ⟨rfl, Nat.zero_le _⟩ hs

theorem connections_limited_pair :
    Guarded Limited step {} [.accept, .spawn, .start 0, .accept, .finish 0, .spawn,
      .start 1, .finish 1] :=
  connections_limited _ (by decide)

def burst : Nat → List ServerStep
  | 0 => []
  | n + 1 => .accept :: .spawn :: burst n

def crashes (first : Nat) : Nat → List ServerStep
  | 0 => []
  | n + 1 => .accept :: .spawn :: .start first :: .panic first :: crashes (first + 1) n

theorem foldl_burst (n : Nat) (l : List TaskState) :
    (burst n).foldl step { tasks := l } = { tasks := l ++ List.replicate n .spawned } := by
  induction n generalizing l with
  | zero => simp [burst]
  | succ n ih =>
    have hpair : ((({ tasks := l } : WebSocketServer).step .accept).step .spawn) =
        { tasks := l ++ [.spawned] } := rfl
    rw [burst, foldl_cons, foldl_cons, hpair, ih, append_assoc, singleton_append,
      replicate_succ]

theorem foldl_crashes (n k : Nat) (h : k + n ≤ maxConnections.toNat) :
    (crashes k n).foldl step ⟨UInt32.ofNat k, false, List.replicate k .panicked⟩ =
      ⟨UInt32.ofNat (k + n), false, List.replicate (k + n) .panicked⟩ := by
  induction n generalizing k with
  | zero => rfl
  | succ n ih =>
    have hmax : maxConnections.toNat = 10000 := rfl
    have hroom : ¬ UInt32.ofNat k ≥ maxConnections := by
      have hlt : k < UInt32.size := Nat.lt_of_le_of_lt (Nat.le_of_add_right_le h) (by decide)
      rw [ge_iff_le, UInt32.le_iff_toNat_le, UInt32.toNat_ofNat_of_lt' hlt]
      omega
    have hone : (((((⟨UInt32.ofNat k, false, List.replicate k .panicked⟩ : WebSocketServer).step
        .accept).step
        .spawn).step (.start k)).step (.panic k)) =
          ⟨UInt32.ofNat (k + 1), false, List.replicate (k + 1) .panicked⟩ := by
      simp [step, hroom, replicate_succ', UInt32.ofNat_add]
    rw [crashes, foldl_cons, foldl_cons, foldl_cons, foldl_cons, hone,
      ih (k + 1) (by omega), Nat.add_right_comm, Nat.add_assoc]

/-- A burst leaves one connection too many, and after as many panics as the limit a connection is
refused although no task is left. -/
theorem burst_exceeds_limit : ((burst 10001).foldl step {}).unfinished = 10001 ∧
      ((crashes 0 10000).foldl step {}).refuses .accept = true ∧
        ((crashes 0 10000).foldl step {}).unfinished = 0 := by
  have hburst := foldl_burst 10001 []
  have hcrashes := foldl_crashes 10000 0 (Nat.le_refl _)
  rw [nil_append] at hburst
  refine ⟨?_, ?_, ?_⟩
  · rw [hburst, unfinished, countP_replicate]
    rfl
  · refine (congrArg (refuses · .accept) hcrashes).trans ?_
    decide +kernel
  · refine (congrArg unfinished hcrashes).trans ?_
    rw [unfinished, countP_replicate]
    rfl

end WebSocketServer
end NexusSfu.Signal
