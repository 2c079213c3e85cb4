import Mathlib.Data.List.Chain
import Mathlib.Algebra.Ring.Nat

/-!
The sizes of a socket's buffers, halved until the kernel takes them. The kernel is a callback with a
state of its own that answers as it likes.
-/

namespace NexusSfu.Dataplane

abbrev minFallbackBuffer : Nat := 262144
abbrev fitRounds : Nat := 14
abbrev enobufs : Int := 105

structure IoError where
  rawOsError : Option Int
  deriving DecidableEq

/-- A call of `set` and what it answered. -/
structure Attempt where
  sizes : Nat × Nat
  answer : Except IoError Unit

variable {σ : Type} (set : σ → Nat → Nat → Except IoError Unit × σ) (recv send : Nat)

/-- The rounds that are left: the calls of `set`, and the result. A panic is `none`. -/
def fitLoop : Nat → σ → Nat → Nat → Option (List Attempt × Except IoError (Nat × Nat))
  | 0, _, _, _ => none
  | n + 1, c, r, s =>
    match set c r s with
    | (.ok (), _) =>
      if r ≤ recv ∧ s ≤ send then some ([⟨(r, s), .ok ()⟩], .ok (r, s)) else none
    | (.error e, c) =>
      if e.rawOsError = some enobufs ∧ max r s > minFallbackBuffer then
        (fitLoop n c (max (r / 2) (min minFallbackBuffer recv))
          (max (s / 2) (min minFallbackBuffer send))).map fun (calls, result) =>
            (⟨(r, s), .error e⟩ :: calls, result)
      else some ([⟨(r, s), .error e⟩], .error e)

def fitBufferSizes (c : σ) : Option (List Attempt × Except IoError (Nat × Nat)) :=
  if 0 < recv ∧ 0 < send then fitLoop set recv send fitRounds c recv send else none

def FitRange (wanted size : Nat) : Prop := min minFallbackBuffer wanted ≤ size ∧ size ≤ wanted

def Shrinks (p q : Nat × Nat) : Prop := (p.2 ≤ p.1 → q.1 < p.1) ∧ (p.1 ≤ p.2 → q.2 < p.2)

structure Fitted (calls : List Attempt) (result : Except IoError (Nat × Nat)) : Prop where
  ranges : ∀ a ∈ calls, FitRange recv a.sizes.1 ∧ FitRange send a.sizes.2
  shrinks : calls.IsChain fun a b => Shrinks a.sizes b.sizes
  refused : ∀ e, result = .error e → e.rawOsError = some enobufs → calls.getLast? =
    some ⟨(min minFallbackBuffer recv, min minFallbackBuffer send), .error e⟩

variable {recv send} {r s : Nat}

theorem FitRange.halve (h : FitRange recv r) :
    FitRange recv (max (r / 2) (min minFallbackBuffer recv)) := by
  unfold FitRange at h ⊢
  omega

theorem FitRange.halve_lt (h : FitRange recv r) (hr : minFallbackBuffer < r) :
    max (r / 2) (min minFallbackBuffer recv) < r := by
  unfold FitRange at h
  omega

theorem FitRange.eq_floor (h : FitRange recv r) (hr : r ≤ minFallbackBuffer) :
    r = min minFallbackBuffer recv := by
  unfold FitRange at h
  omega

theorem fitted_taken (hr : FitRange recv r) (hs : FitRange send s) :
    Fitted recv send [⟨(r, s), .ok ()⟩] (.ok (r, s)) where
  ranges := List.forall_mem_singleton.2 ⟨hr, hs⟩
  shrinks := .singleton _
  refused := nofun

theorem fitted_refused (hr : FitRange recv r) (hs : FitRange send s) {e : IoError}
    (h : e.rawOsError = some enobufs → max r s ≤ minFallbackBuffer) :
    Fitted recv send [⟨(r, s), .error e⟩] (.error e) where
  ranges := List.forall_mem_singleton.2 ⟨hr, hs⟩
  shrinks := .singleton _
  refused e' he hno := by
    cases he
    obtain ⟨hrle, hsle⟩ := Nat.max_le.1 (h hno)
    rw [← hr.eq_floor hrle, ← hs.eq_floor hsle]
    rfl

theorem fitLoop_fitted (n : Nat) (c : σ) (hr : FitRange recv r) (hs : FitRange send s)
    (hn : max r s ≤ 2 ^ (18 + n)) : ∃ calls result,
      fitLoop set recv send (n + 1) c r s = some (calls, result) ∧
        (∀ a ∈ calls.head?, a.sizes = (r, s)) ∧ Fitted recv send calls result := by
  induction n generalizing c r s with
  | zero =>
    have hmax : ¬ max r s > minFallbackBuffer := not_lt.2 hn
    rw [fitLoop]
    split
    · rw [if_pos ⟨hr.2, hs.2⟩]
      exact ⟨_, _, rfl, by simp, fitted_taken hr hs⟩
    · rw [if_neg fun h => hmax h.2]
      exact ⟨_, _, rfl, by simp, fitted_refused hr hs fun _ => hn⟩
  | succ n ih =>
    rw [fitLoop]
    split
    · rw [if_pos ⟨hr.2, hs.2⟩]
      exact ⟨_, _, rfl, by simp, fitted_taken hr hs⟩
    next e c' hset =>
      split_ifs with hmore
      · have hpow : 2 ^ (18 + (n + 1)) = 2 * 2 ^ (18 + n) := Nat.pow_succ'
        have hfloor : minFallbackBuffer ≤ 2 ^ (18 + n) :=
          Nat.pow_le_pow_right Nat.two_pos (Nat.le_add_right 18 n)
        obtain ⟨calls, result, hloop, hhead, hfit⟩ := ih c' hr.halve hs.halve (by omega)
        rw [hloop]
        refine ⟨_, result, rfl, by simp, List.forall_mem_cons.2 ⟨⟨hr, hs⟩, hfit.ranges⟩,
          ?_, ?_⟩
        · refine List.isChain_cons.2 ⟨fun a ha => ?_, hfit.shrinks⟩
          rw [hhead a ha]
          exact ⟨fun (hle : s ≤ r) => hr.halve_lt (by omega),
            fun (hle : r ≤ s) => hs.halve_lt (by omega)⟩
        · intro e' he' hno
          rw [List.getLast?_cons, hfit.refused e' he' hno]
          rfl
      · refine ⟨_, _, rfl, by simp, fitted_refused hr hs fun hno => ?_⟩
        exact not_lt.1 fun hmax => hmore ⟨hno, hmax⟩

/-- Whatever `set` answers, the loop ends, with every size in range, and gives up for lack of
buffers only at the floor. -/
theorem fitBufferSizes_fitted (hrecv : 0 < recv ∧ recv < 2 ^ 31)
    (hsend : 0 < send ∧ send < 2 ^ 31) (c : σ) :
    ∃ calls result, fitBufferSizes set recv send c = some (calls, result) ∧
      Fitted recv send calls result := by
  obtain ⟨calls, result, hloop, -, hfit⟩ := fitLoop_fitted set 13 c (r := recv) (s := send)
    ⟨min_le_right _ _, le_rfl⟩ ⟨min_le_right _ _, le_rfl⟩ (by omega)
  exact ⟨calls, result, (if_pos ⟨hrecv.1, hsend.1⟩).trans hloop, hfit⟩

def noBuffers (_ : Unit) (_ _ : Nat) : Except IoError Unit × Unit :=
  (.error ⟨some enobufs⟩, ())

def largestRefused : List Attempt :=
  [2147483647, 1073741823, 536870911, 268435455, 134217727, 67108863, 33554431, 16777215, 8388607,
    4194303, 2097151, 1048575, 524287, 262144].map fun size => ⟨(size, size),
    .error ⟨some enobufs⟩⟩

/-- A kernel without buffers is asked fourteen times for the largest sizes, the last time at the
floor. -/
theorem largest_fitted :
    fitBufferSizes noBuffers 2147483647 2147483647 () =
      some (largestRefused, .error ⟨some enobufs⟩) ∧
    Fitted 2147483647 2147483647 largestRefused (.error ⟨some enobufs⟩) := by
  have hrun : fitBufferSizes noBuffers 2147483647 2147483647 () =
      some (largestRefused, .error ⟨some enobufs⟩) := rfl
  have hi32 : 0 < 2147483647 ∧ 2147483647 < 2 ^ 31 := by decide
  obtain ⟨calls, result, h, hfit⟩ := fitBufferSizes_fitted noBuffers hi32 hi32 ()
  cases hrun.symm.trans h
  exact ⟨hrun, hfit⟩

end NexusSfu.Dataplane
