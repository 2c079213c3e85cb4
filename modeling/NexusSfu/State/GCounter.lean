import Mathlib.Algebra.Order.BigOperators.Group.List
import NexusSfu.Base.Run
import NexusSfu.State.Orswot

/-!
The grow-only counter under concurrent calls. Threads take turns, one access of a counter at a time.
-/

namespace NexusSfu.State

open Base Function

inductive CounterCall
  | increment (actorId : Nat) (delta : UInt64)
  | tryIncrement (actorId : Nat) (delta : UInt64)
  | merge
  deriving DecidableEq

inductive CounterThread
  | idle
  | increment (i : Fin maxActors) (delta old : UInt64)
  | tryIncrement (i : Fin maxActors) (delta : UInt64)
  | mergeRead (i : Fin maxActors)
  | mergeCompare (i : Fin maxActors) (other : UInt64)
  | mergeExchange (i : Fin maxActors) (other current : UInt64) (h : current < other)
  | panicked
  deriving DecidableEq

structure GCounter where
  counters : Fin maxActors → UInt64
  threads : Nat → CounterThread
  returned : List (CounterCall × Except CrdtError UInt64)

/-- `other` is what a merge reads from the counter it merges from; a weak exchange may fail
although the value is the expected one. -/
inductive CounterStep
  | call (t : Nat) (c : CounterCall)
  | access (t : Nat) (other : UInt64) (spurious : Bool)
  deriving DecidableEq

def addOverflows (a b : UInt64) : Bool := 2 ^ 64 ≤ a.toNat + b.toNat

namespace GCounter

def new : GCounter := ⟨fun _ => 0, fun _ => .idle, []⟩

def goto (s : GCounter) (t : Nat) (pc : CounterThread) : GCounter :=
  { s with threads := update s.threads t pc }

def finish (s : GCounter) (t : Nat) (c : CounterCall) (result : Except CrdtError UInt64) :
    GCounter :=
  { s with threads := update s.threads t .idle, returned := s.returned ++ [(c, result)] }

def store (s : GCounter) (i : Fin maxActors) (v : UInt64) : GCounter :=
  { s with counters := update s.counters i v }

def call (s : GCounter) (t : Nat) : CounterCall → GCounter
  | .increment actorId delta =>
    if delta = 0 then s.goto t .panicked
    else if h : actorId < maxActors then s.goto t
      (.increment ⟨actorId, h⟩ delta (s.counters ⟨actorId, h⟩))
    else s.goto t .panicked
  | .tryIncrement actorId delta =>
    if h : actorId < maxActors then
      if delta = 0 then
        s.finish t (.tryIncrement actorId delta) (.error (.invalidState "delta must be positive"))
      else if addOverflows (s.counters ⟨actorId, h⟩) delta then
        s.finish t (.tryIncrement actorId delta) (.error .overflow)
      else s.goto t (.tryIncrement ⟨actorId, h⟩ delta)
    else s.finish t (.tryIncrement actorId delta) (.error (.invalidActorId actorId))
  | .merge => s.goto t (.mergeRead ⟨0, maxActors_pos⟩)

def nextActor (s : GCounter) (t : Nat) (i : Fin maxActors) : GCounter :=
  if h : i.val + 1 < maxActors then s.goto t (.mergeRead ⟨i.val + 1, h⟩) else s.goto t .idle

/-- The next access of a thread. The counter is written before the sum is checked for overflow and
the assertions are made. -/
def access (s : GCounter) (t : Nat) (other : UInt64) (spurious : Bool) : GCounter :=
  match s.threads t with
  | .idle | .panicked => s
  | .increment i delta old =>
    let sum := s.counters i + delta
    if addOverflows (s.counters i) delta = false ∧ old ≤ sum ∧ sum = old + delta then
      (s.store i sum).finish t (.increment i delta) (.ok sum)
    else (s.store i sum).goto t .panicked
  | .tryIncrement i delta =>
    let sum := s.counters i + delta
    if addOverflows (s.counters i) delta = false then
      (s.store i sum).finish t (.tryIncrement i delta) (.ok sum)
    else (s.store i sum).goto t .panicked
  | .mergeRead i => if 0 < other then s.goto t (.mergeCompare i other) else s.nextActor t i
  | .mergeCompare i other =>
    if h : s.counters i < other then s.goto t (.mergeExchange i other (s.counters i) h)
    else s.nextActor t i
  | .mergeExchange i other current _ =>
    if s.counters i = current ∧ spurious = false then (s.store i other).nextActor t i
    else s.goto t (.mergeCompare i other)

def step (s : GCounter) : CounterStep → GCounter
  | .call t c => if s.threads t = .idle then s.call t c else s
  | .access t other spurious => s.access t other spurious

def Sound (s : GCounter) (a : CounterStep) : Prop :=
  (∀ t, (s.step a).threads t = .panicked → s.threads t = .panicked) ∧
    ∀ i, s.counters i ≤ (s.step a).counters i

/-- Between the read of an increment and its addition nobody else writes the counter, and no
addition overflows; increments are called with arguments they take. -/
def Undisturbed (s : GCounter) : CounterStep → Prop
  | .call t (.increment actorId delta) =>
    s.threads t = .idle → delta ≠ 0 ∧ actorId < maxActors
  | .call _ _ => True
  | .access t _ _ =>
    match s.threads t with
    | .increment i delta old => s.counters i = old ∧ addOverflows (s.counters i) delta = false
    | .tryIncrement i delta => addOverflows (s.counters i) delta = false
    | _ => True

variable {s s' : GCounter} {t : Nat} {i : Fin maxActors} {v : UInt64} {a : CounterStep}

theorem le_add_iff (v w : UInt64) : v ≤ v + w ↔ addOverflows v w = false := by
  have hv := v.toNat_lt
  have hw := w.toNat_lt
  rw [UInt64.le_iff_toNat_le, UInt64.toNat_add, addOverflows, decide_eq_false_iff_not, not_le]
  omega

theorem toNat_add_of (v w : UInt64) (h : addOverflows v w = false) :
    (v + w).toNat = v.toNat + w.toNat := by
  rw [addOverflows, decide_eq_false_iff_not, not_le] at h
  rw [UInt64.toNat_add, Nat.mod_eq_of_lt h]

def Advances (s : GCounter) (t : Nat) (s' : GCounter) : Prop :=
  ∃ pc ≠ .panicked, s'.threads = update s.threads t pc ∧ ∀ i, s.counters i ≤ s'.counters i

theorem Advances.sound (h : s.Advances t (s.step a)) : s.Sound a := by
  obtain ⟨pc, hpc, hthreads, hle⟩ := h
  refine ⟨fun t' ht' => ?_, hle⟩
  rw [hthreads, update_apply] at ht'
  split_ifs at ht'
  · exact absurd ht' hpc
  · exact ht'

theorem not_sound_of_panic (ht : s.threads t ≠ .panicked)
    (h : (s.step a).threads = update s.threads t .panicked) : ¬ s.Sound a := fun hs =>
  ht (hs.1 t (by rw [h, update_self]))

theorem goto_advances {pc : CounterThread} (hpc : pc ≠ .panicked) : s.Advances t (s.goto t pc) :=
  ⟨pc, hpc, rfl, fun _ => UInt64.le_refl _⟩

theorem finish_advances {c : CounterCall} {r : Except CrdtError UInt64} :
    s.Advances t (s.finish t c r) :=
  ⟨.idle, nofun, rfl, fun _ => UInt64.le_refl _⟩

theorem nextActor_advances (s : GCounter) (t : Nat) (i : Fin maxActors) :
    s.Advances t (s.nextActor t i) := by
  unfold nextActor
  split_ifs
  · exact goto_advances nofun
  · exact goto_advances nofun

theorem Advances.store (hv : s.counters i ≤ v) (h : (s.store i v).Advances t s') :
    s.Advances t s' := by
  obtain ⟨pc, hpc, hthreads, hle⟩ := h
  refine ⟨pc, hpc, hthreads, fun j => UInt64.le_trans ?_ (hle j)⟩
  simp only [GCounter.store, update_apply]
  split_ifs with hj
  · rwa [hj]
  · exact UInt64.le_refl _

theorem sound_of_same (h : s.step a = s) : s.Sound a := by
  rw [Sound, h]
  exact ⟨fun _ => id, fun _ => UInt64.le_refl _⟩

theorem call_sound_iff (s : GCounter) (t : Nat) (c : CounterCall) :
    s.Sound (.call t c) ↔ s.Undisturbed (.call t c) := by
  by_cases hidle : s.threads t = .idle
  · have hstep : s.step (.call t c) = s.call t c := if_pos hidle
    have hrun : s.threads t ≠ .panicked := by rw [hidle]; nofun
    cases c with
    | increment actorId delta =>
      simp only [Undisturbed, hidle, forall_const]
      by_cases hd : delta = 0
      · refine iff_of_false (not_sound_of_panic hrun ?_) fun h => h.1 hd
        rw [hstep, call, if_pos hd]
        rfl
      by_cases ha : actorId < maxActors
      · refine iff_of_true (Advances.sound (t := t) ?_) ⟨hd, ha⟩
        rw [hstep, call, if_neg hd, dif_pos ha]
        exact goto_advances nofun
      · refine iff_of_false (not_sound_of_panic hrun ?_) fun h => ha h.2
        rw [hstep, call, if_neg hd, dif_neg ha]
        rfl
    | tryIncrement actorId delta =>
      refine iff_of_true (Advances.sound (t := t) ?_) trivial
      rw [hstep, call]
      split_ifs
      · exact finish_advances
      · exact finish_advances
      · exact goto_advances nofun
      · exact finish_advances
    | merge =>
      refine iff_of_true (Advances.sound (t := t) ?_) trivial
      rw [hstep]
      exact goto_advances nofun
  · refine iff_of_true (sound_of_same (if_neg hidle)) ?_
    cases c with
    | increment => exact fun h => absurd h hidle
    | tryIncrement | merge => trivial

theorem asserted_iff (c d old : UInt64) :
    addOverflows c d = false ∧ old ≤ c + d ∧ c + d = old + d ↔
      c = old ∧ addOverflows c d = false := by
  constructor
  · rintro ⟨hover, -, hsum⟩
    exact ⟨(UInt64.add_left_inj d).1 hsum, hover⟩
  · rintro ⟨rfl, hover⟩
    exact ⟨hover, (le_add_iff c d).2 hover, rfl⟩

theorem access_sound_iff (s : GCounter) (t : Nat) (other : UInt64) (spurious : Bool) :
    s.Sound (.access t other spurious) ↔ s.Undisturbed (.access t other spurious) := by
  have hstep : s.step (.access t other spurious) = s.access t other spurious := rfl
  cases ht : s.threads t with
  | idle | panicked =>
    simp only [Undisturbed, ht, iff_true]
    apply sound_of_same
    rw [hstep, access, ht]
  | increment i delta old =>
    simp only [Undisturbed, ht]
    rw [← asserted_iff]
    by_cases hok : addOverflows (s.counters i) delta = false ∧ old ≤ s.counters i + delta ∧
        s.counters i + delta = old + delta
    · refine iff_of_true (Advances.sound (t := t) ?_) hok
      simp only [hstep, access, ht, if_pos hok]
      exact finish_advances.store ((le_add_iff _ _).2 hok.1)
    · refine iff_of_false (not_sound_of_panic (t := t) (by rw [ht]; nofun) ?_) hok
      simp only [hstep, access, ht, if_neg hok]
      rfl
  | tryIncrement i delta =>
    simp only [Undisturbed, ht]
    by_cases hok : addOverflows (s.counters i) delta = false
    · refine iff_of_true (Advances.sound (t := t) ?_) hok
      simp only [hstep, access, ht, if_pos hok]
      exact finish_advances.store ((le_add_iff _ _).2 hok)
    · refine iff_of_false (not_sound_of_panic (t := t) (by rw [ht]; nofun) ?_) hok
      simp only [hstep, access, ht, if_neg hok]
      rfl
  | mergeRead i =>
    simp only [Undisturbed, ht, iff_true]
    refine Advances.sound (t := t) ?_
    simp only [hstep, access, ht]
    split_ifs
    · exact goto_advances nofun
    · exact nextActor_advances s t i
  | mergeCompare i value =>
    simp only [Undisturbed, ht, iff_true]
    refine Advances.sound (t := t) ?_
    simp only [hstep, access, ht]
    split_ifs
    · exact goto_advances nofun
    · exact nextActor_advances s t i
  | mergeExchange i value current hlt =>
    simp only [Undisturbed, ht, iff_true]
    refine Advances.sound (t := t) ?_
    simp only [hstep, access, ht]
    split_ifs with hsame
    · exact (nextActor_advances _ t i).store (hsame.1 ▸ UInt64.le_of_lt hlt)
    · exact goto_advances nofun

theorem sound_iff (s : GCounter) (a : CounterStep) : s.Sound a ↔ s.Undisturbed a := by
  cases a with
  | call t c => exact s.call_sound_iff t c
  | access t other spurious => exact s.access_sound_iff t other spurious

def credited (i : Fin maxActors) : List (CounterCall × Except CrdtError UInt64) → Nat
  | [] => 0
  | (.increment actorId delta, .ok _) :: rest | (.tryIncrement actorId delta, .ok _) :: rest =>
    (if actorId = i.val then delta.toNat else 0) + credited i rest
  | _ :: rest => credited i rest

theorem credited_append (i : Fin maxActors) (l l' : List (CounterCall × Except CrdtError UInt64)) :
    credited i (l ++ l') = credited i l + credited i l' := by
  induction l with
  | nil => exact (Nat.zero_add _).symm
  | cons r l ih =>
    obtain ⟨c, r⟩ := r
    cases c <;> cases r <;> simp [credited, ih, Nat.add_assoc]

structure Exact (s : GCounter) : Prop where
  sums : ∀ i, (s.counters i).toNat = credited i s.returned
  calls : ∀ t, match s.threads t with
    | .mergeRead _ | .mergeCompare _ _ | .mergeExchange _ _ _ _ => False
    | _ => True

def isMerge : CounterStep → Bool
  | .call _ .merge => true
  | _ => false

theorem Exact.goto (h : s.Exact) {pc : CounterThread} (hpc : match pc with
      | .mergeRead _ | .mergeCompare _ _ | .mergeExchange _ _ _ _ => False
      | _ => True) : (s.goto t pc).Exact := by
  refine ⟨h.sums, fun t' => ?_⟩
  simp only [GCounter.goto, update_apply]
  split_ifs
  · exact hpc
  · exact h.calls t'

theorem Exact.refused (h : s.Exact) {c : CounterCall} {e : CrdtError} :
    (s.finish t c (.error e)).Exact := by
  refine ⟨fun i => ?_, (h.goto trivial).calls⟩
  simp only [finish, credited_append, h.sums]
  cases c <;> rfl

theorem Exact.added (h : s.Exact) {c : CounterCall} {delta : UInt64} {r : UInt64}
    (hc : c = .increment i delta ∨ c = .tryIncrement i delta)
    (hover : addOverflows (s.counters i) delta = false) :
    ((s.store i (s.counters i + delta)).finish t c (.ok r)).Exact := by
  refine ⟨fun j => ?_, (h.goto trivial).calls⟩
  have hcredit : credited j [(c, .ok r)] = if i = j then delta.toNat else 0 := by
    rcases hc with rfl | rfl <;> simp [credited, Fin.ext_iff]
  simp only [finish, store, credited_append, hcredit, update_apply]
  by_cases hj : j = i
  · rw [if_pos hj, if_pos hj.symm, toNat_add_of _ _ hover, hj, h.sums]
  · rw [if_neg hj, if_neg (Ne.symm hj), h.sums, Nat.add_zero]

theorem Exact.step (h : s.Exact) (hmerge : isMerge a = false) (hu : s.Undisturbed a) :
    (s.step a).Exact := by
  cases a with
  | call t c =>
    rw [GCounter.step]
    split_ifs with hidle
    · cases c with
      | increment actorId delta =>
        rw [call]
        split_ifs
        · exact h.goto trivial
        · exact h.goto trivial
        · exact h.goto trivial
      | tryIncrement actorId delta =>
        rw [call]
        split_ifs
        · exact h.refused
        · exact h.refused
        · exact h.goto trivial
        · exact h.refused
      | merge => cases hmerge
    · exact h
  | access t other spurious =>
    have hcalls := h.calls t
    rw [GCounter.step, access]
    cases ht : s.threads t with
    | idle | panicked => exact h
    | increment i delta old =>
      simp only [Undisturbed, ht] at hu
      simp only [if_pos ((asserted_iff _ _ _).2 hu)]
      exact h.added (.inl rfl) hu.2
    | tryIncrement i delta =>
      simp only [Undisturbed, ht] at hu
      simp only [if_pos hu]
      exact h.added (.inr rfl) hu
    | mergeRead | mergeCompare | mergeExchange =>
      rw [ht] at hcalls
      exact hcalls.elim

theorem Exact.run (h : s.Exact) {steps : List CounterStep}
    (hg : Guarded Undisturbed GCounter.step s steps) (hmerge : ∀ a ∈ steps, isMerge a = false) :
    (steps.foldl GCounter.step s).Exact := by
  induction steps generalizing s with
  | nil => exact h
  | cons a steps ih =>
    obtain ⟨ha, hsteps⟩ := List.forall_mem_cons.1 hmerge
    exact ih (h.step ha hg.1) hg.2 hsteps

theorem tryIncrement_overflow (ht : s.threads t = .idle) {delta : UInt64} (hd : delta ≠ 0)
    (hover : addOverflows (s.counters i) delta = true) : s.step (.call t (.tryIncrement i delta)) =
      s.finish t (.tryIncrement i delta) (.error .overflow) := by
  rw [step, if_pos ht, call, dif_pos i.isLt, if_neg hd, if_pos hover]

/-- In every interleaving the assertions hold and no counter decreases exactly if nobody else writes
a counter between the two accesses of an increment and no addition overflows. Then increments alone
add up, and a `tryIncrement` that would overflow returns the error and changes nothing. -/
theorem interleaving_exact_iff (steps : List CounterStep) :
    (Guarded Sound step new steps ↔ Guarded Undisturbed step new steps) ∧
      (Guarded Undisturbed step new steps → (∀ a ∈ steps, isMerge a = false) →
        ∀ i, ((steps.foldl step new).counters i).toNat = credited i
        (steps.foldl step new).returned) ∧
      ∀ (s : GCounter) (t : Nat) (i : Fin maxActors) (delta : UInt64), s.threads t = .idle →
        delta ≠ 0 →
        addOverflows (s.counters i) delta = true → s.step (.call t (.tryIncrement i delta)) =
          s.finish t (.tryIncrement i delta) (.error .overflow) := by
  have hsame : Sound = Undisturbed := by
    funext s a
    exact propext (s.sound_iff a)
  have hnew : new.Exact := ⟨fun _ => rfl, fun _ => trivial⟩
  exact ⟨by rw [hsame], fun hg hmerge i => (hnew.run hg hmerge).sums i,
    fun _ _ _ _ ht hd hover => tryIncrement_overflow ht hd hover⟩

def racing : List CounterStep :=
  [.call 0 (.increment 0 1), .call 1 (.increment 0 1), .access 1 0 false, .access 0 0 false]

def wrapping : List CounterStep :=
  [.call 0 (.increment 0 18446744073709551614), .access 0 0 false, .call 0 (.tryIncrement 0 1),
    .call 1 (.tryIncrement 0 1), .access 0 0 false, .access 1 0 false]

theorem racing_increments_fail : (racing.foldl step new).threads 0 = .panicked ∧
    (wrapping.foldl step new).counters 0 < (wrapping.dropLast.foldl step new).counters 0 := by
  decide +kernel

end GCounter
end NexusSfu.State
