import NexusSfu.Base.Assoc
import NexusSfu.Base.Checked
import NexusSfu.Dataplane.Session
import NexusSfu.Orchestrator.Signal

namespace NexusSfu.Orchestrator

open Base Dataplane
open State (RoomId ParticipantId)

abbrev maxPeerSsrcs : Nat := 64
abbrev allocateTries : Nat := maxPeerSsrcs + 2

/-- Outbound SSRCs of one session: `base + offset`, each offset handed out once. What was registered
on the shard is below what was handed out, so the check in `allocate` holds by construction. -/
structure SsrcAllocator where
  base : UInt32
  nextOffset : UInt32 := 1
  highWater : UInt32 := 0
  peerSsrcs : List UInt32 := []
  base_ne : base ≠ 0
  highWater_lt : highWater < nextOffset := by decide
  peers_le : peerSsrcs.length ≤ maxPeerSsrcs := by decide

namespace SsrcAllocator

def offsetOf (a : SsrcAllocator) (ssrc : UInt32) : UInt32 := ssrc - a.base

def notePeerSsrc (a : SsrcAllocator) (ssrc : UInt32) : Bool × SsrcAllocator :=
  if a.offsetOf ssrc < a.nextOffset then (false, a)
  else if h : ssrc ∉ a.peerSsrcs ∧ a.peerSsrcs.length < maxPeerSsrcs then
    (true, { a with peerSsrcs :=
      a.peerSsrcs ++ [ssrc], peers_le := by simpa using Nat.succ_le_of_lt h.2 })
  else (true, a)

def findOffset (a : SsrcAllocator) : (tries : Nat) → (offset : UInt32) → Option UInt32
  | 0, _ => none
  | tries + 1, offset =>
    if offset > maxOutSsrcOffset then none
    else if a.base + offset ≠ 0 ∧ a.base + offset ∉ a.peerSsrcs then some offset
    else a.findOffset tries (offset + 1)

theorem findOffset_spec {a : SsrcAllocator} {tries : Nat} {offset found : UInt32}
    (h : a.findOffset tries offset = some found) :
    offset ≤ found ∧ found ≤ maxOutSsrcOffset := by
  induction tries generalizing offset with
  | zero => cases h
  | succ tries ih =>
    rw [findOffset] at h
    split_ifs at h with hmax huse
    · cases h
      exact ⟨UInt32.le_refl _, UInt32.not_lt.1 hmax⟩
    · have hle := UInt32.le_iff_toNat_le.1 (UInt32.not_lt.1 hmax)
      have hmaxval : maxOutSsrcOffset.toNat = 2147483647 := by decide
      obtain ⟨hge, hfound⟩ := ih h
      refine ⟨UInt32.le_iff_toNat_le.2 ?_, hfound⟩
      have := UInt32.le_iff_toNat_le.1 hge
      rw [UInt32.toNat_add] at this
      simp at this
      omega

def allocate (a : SsrcAllocator) : Option (UInt32 × SsrcAllocator) :=
  match h : a.findOffset allocateTries a.nextOffset with
  | none => none
  | some offset => some (a.base + offset, { a with
      nextOffset := offset + 1
      highWater_lt := by
        obtain ⟨hge, hle⟩ := findOffset_spec h
        have hlt := UInt32.lt_iff_toNat_lt.1 a.highWater_lt
        have hge := UInt32.le_iff_toNat_le.1 hge
        have hle := UInt32.le_iff_toNat_le.1 hle
        have hmaxval : maxOutSsrcOffset.toNat = 2147483647 := by decide
        rw [UInt32.lt_iff_toNat_lt, UInt32.toNat_add]
        simp
        omega })

/-- `ssrc` was registered on the shard; panics unless it was handed out above all registered
ones. -/
def markRegistered (a : SsrcAllocator) (ssrc : UInt32) : Option SsrcAllocator :=
  if h : a.offsetOf ssrc > a.highWater ∧ a.offsetOf ssrc < a.nextOffset then
    some { a with highWater := a.offsetOf ssrc, highWater_lt := h.2 }
  else none

end SsrcAllocator
end NexusSfu.Orchestrator
