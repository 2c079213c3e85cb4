import NexusSfu.Base.Window
import NexusSfu.Srtp.Types

namespace NexusSfu.Srtp

open Base

structure ReplayProtection where
  highest : Nat
  window : BitVec 64
  windowSize : Nat
  enabled : Bool
  packetsChecked : Nat
  replaysDetected : Nat
  windowSize_le : windowSize ≤ 64
  deriving DecidableEq

namespace ReplayProtection

variable {s : ReplayProtection} {S : Set Nat} {index i : Nat}

def new : ReplayProtection := ⟨0, 0, replayWindowSize, true, 0, 0, le_rfl⟩

def withWindowSize (size : Nat) : ReplayProtection :=
  ⟨0, 0, if size > 64 then 64 else size, true, 0, 0, by split <;> omega⟩

def isFirstPacket (s : ReplayProtection) : Bool := s.highest == 0 && s.window == 0

def checkWindowBit (s : ReplayProtection) (delta : Nat) :
    Except SrtpError Unit × ReplayProtection :=
  if s.window.getLsbD delta then
    (.error .replayDetected, { s with replaysDetected := s.replaysDetected + 1 })
  else (.ok (), s)

def validateIndex (s : ReplayProtection) (index : Nat) :
    Except SrtpError Unit × ReplayProtection :=
  if index > s.highest then (.ok (), s)
  else if s.highest - index ≥ s.windowSize then
    (.error .replayDetected, { s with replaysDetected := s.replaysDetected + 1 })
  else s.checkWindowBit (s.highest - index)

def check (s : ReplayProtection) (index : Nat) : Except SrtpError Unit × ReplayProtection :=
  let s := { s with packetsChecked := s.packetsChecked + 1 }
  if !s.enabled then (.ok (), s)
  else if s.isFirstPacket then (.ok (), s)
  else s.validateIndex index

def acceptNewerPacket (s : ReplayProtection) (index : Nat) : ReplayProtection :=
  let shift := index - s.highest
  { s with window := if shift ≥ 64 then 1 else s.window <<< shift ||| 1, highest := index }

def acceptOlderPacket (s : ReplayProtection) (index : Nat) : ReplayProtection :=
  let delta := s.highest - index
  if delta < 64 then { s with window := s.window ||| 1#64 <<< delta } else s

def accept (s : ReplayProtection) (index : Nat) : ReplayProtection :=
  if !s.enabled then s
  else if s.isFirstPacket then { s with highest := index, window := 1 }
  else if index > s.highest then s.acceptNewerPacket index
  else s.acceptOlderPacket index

theorem check_snd (s : ReplayProtection) (index : Nat) :
    (s.check index).2.highest = s.highest ∧ (s.check index).2.window = s.window ∧
      (s.check index).2.windowSize = s.windowSize ∧ (s.check index).2.enabled = s.enabled := by
  simp only [check, validateIndex, checkWindowBit]
  split_ifs <;> exact ⟨rfl, rfl, rfl, rfl⟩

theorem accept_windowSize (s : ReplayProtection) (index : Nat) :
    (s.accept index).windowSize = s.windowSize := by
  simp only [accept, acceptNewerPacket, acceptOlderPacket]
  split_ifs <;> rfl

theorem check_eq_ok (he : s.enabled = true) (index : Nat) : (s.check index).1 = .ok () ↔
      s.isFirstPacket = true ∨ s.highest < index ∨
        s.highest - index < s.windowSize ∧ s.window.getLsbD (s.highest - index) = false := by
  have hfirst : isFirstPacket { s with packetsChecked := s.packetsChecked + 1 } = s.isFirstPacket :=
    rfl
  rw [check]
  simp only [he, validateIndex, checkWindowBit] at hfirst ⊢
  rw [hfirst]
  grind

structure Holds (s : ReplayProtection) (S : Set Nat) : Prop where
  enabled : s.enabled = true
  tracks : S = ∅ ∧ s.highest = 0 ∧ s.window = 0 ∨ Tracks S s.highest s.window

theorem new_holds : Holds new ∅ := ⟨rfl, .inl ⟨rfl, rfl, rfl⟩⟩

namespace Holds

theorem isFirstPacket_iff (h : Holds s S) : s.isFirstPacket = true ↔ S = ∅ := by
  simp only [isFirstPacket, Bool.and_eq_true, beq_iff_eq]
  rcases h.tracks with ⟨hS, hh, hw⟩ | ht
  · exact ⟨fun _ => hS, fun _ => ⟨hh, hw⟩⟩
  · constructor
    · rintro ⟨-, hw⟩
      exact absurd hw (ht.ne_zero (by decide))
    · rintro rfl
      exact absurd ht.greatest.1 (Set.notMem_empty _)

theorem tracks_of_ne_empty (h : Holds s S) (hS : S ≠ ∅) : Tracks S s.highest s.window :=
  h.tracks.resolve_left fun h => hS h.1

theorem check (h : Holds s S) (index : Nat) : Holds (s.check index).2 S := by
  obtain ⟨hh, hw, -, he⟩ := check_snd s index
  exact ⟨he ▸ h.enabled, by rw [hh, hw]; exact h.tracks⟩

theorem check_ok_iff (h : Holds s S) (index : Nat) : (s.check index).1 = .ok () ↔
      S = ∅ ∨ s.highest < index ∨ s.highest - index < s.windowSize ∧ index ∉ S := by
  rw [check_eq_ok h.enabled, h.isFirstPacket_iff]
  by_cases hS : S = ∅
  · simp [hS]
  by_cases hin : index ≤ s.highest ∧ s.highest - index < s.windowSize
  · have hsize := s.windowSize_le
    have hbit := (h.tracks_of_ne_empty hS).bit_sub_iff hin.1 (by omega)
    rw [← hbit, Bool.not_eq_true]
  · have hnot : ¬ s.highest < index → ¬ s.highest - index < s.windowSize := by omega
    by_cases hnew : s.highest < index
    · simp [hnew]
    · simp [hS, hnew, hnot hnew]

theorem notMem_of_check (h : Holds s S) (hok : (s.check index).1 = .ok ()) : index ∉ S := by
  intro hmem
  rcases (h.check_ok_iff index).1 hok with hS | hnew | ⟨-, hnot⟩
  · simp [hS] at hmem
  · have hle := (h.tracks_of_ne_empty (Set.nonempty_iff_ne_empty.1 ⟨index, hmem⟩)).le hmem
    omega
  · exact hnot hmem

theorem accept (h : Holds s S) (index : Nat) : Holds (s.accept index) (insert index S) := by
  have hen := h.enabled
  by_cases hS : S = ∅
  · have hacc : s.accept index = { s with highest := index, window := 1 } := by
      rw [ReplayProtection.accept, if_neg (by simp [hen]), if_pos (h.isFirstPacket_iff.2 hS)]
    rw [hacc, hS, insert_empty_eq]
    exact ⟨hen, .inr (Tracks.singleton index)⟩
  have ht := h.tracks_of_ne_empty hS
  have hnot := mt h.isFirstPacket_iff.1 hS
  by_cases hnew : s.highest < index
  · have hacc : s.accept index = s.acceptNewerPacket index := by
      rw [ReplayProtection.accept, if_neg (by simp [hen]), if_neg hnot, if_pos hnew]
    have hins := ht.insert_newer hnew
    rw [hacc]
    refine ⟨hen, .inr ?_⟩
    by_cases hshift : 64 ≤ index - s.highest
    · rw [BitVec.shiftLeft_eq_zero hshift, BitVec.zero_or] at hins
      simpa [acceptNewerPacket, hshift] using hins
    · simpa [acceptNewerPacket, hshift] using hins
  · have hacc : s.accept index = s.acceptOlderPacket index := by
      rw [ReplayProtection.accept, if_neg (by simp [hen]), if_neg hnot, if_neg hnew]
    rw [hacc, acceptOlderPacket]
    split_ifs with hdelta
    · exact ⟨hen, .inr (ht.insert_older (not_lt.1 hnew) hdelta)⟩
    · exact ⟨hen, .inr (ht.insert_outside (not_lt.1 hnew) (not_lt.1 hdelta))⟩

theorem check_accept (h : Holds s S) (index : Nat) :
    Holds ((s.check index).2.accept index) (insert index S) :=
  (h.check index).accept index

theorem isGreatest (h : Holds s S) (hS : S.Nonempty) : IsGreatest S s.highest :=
  (h.tracks_of_ne_empty hS.ne_empty).greatest

theorem highest_accept (h : Holds s S) (index : Nat) (hS : S.Nonempty) :
    ((s.check index).2.accept index).highest = max index s.highest :=
  ((h.check_accept index).isGreatest ⟨index, Set.mem_insert index S⟩).unique
    ((h.isGreatest hS).insert index)

theorem highest_accept_first (h : Holds s ∅) (index : Nat) :
    ((s.check index).2.accept index).highest = index := by
  have hacc := h.check_accept index
  rw [insert_empty_eq] at hacc
  exact (hacc.isGreatest ⟨index, rfl⟩).unique isGreatest_singleton

end Holds

inductive Call
  | check (index : Nat)
  | accept (index : Nat)
  deriving DecidableEq

def call (s : ReplayProtection) : Call → ReplayProtection
  | .check index => (s.check index).2
  | .accept index => s.accept index

def accepted (calls : List Call) : Set Nat := { index | .accept index ∈ calls }

theorem Holds.call (h : Holds s S) (c : Call) : Holds (s.call c) (accepted [c] ∪ S) := by
  cases c with
  | check index => simpa [ReplayProtection.call, accepted] using h.check index
  | accept index =>
    simpa [ReplayProtection.call, accepted, Set.singleton_union] using h.accept index

theorem call_windowSize (s : ReplayProtection) (c : Call) :
    (s.call c).windowSize = s.windowSize := by
  cases c with
  | check index => exact (check_snd s index).2.2.1
  | accept index => exact accept_windowSize s index

theorem Holds.run (h : Holds s S) (calls : List Call) :
    Holds (calls.foldl ReplayProtection.call s) (accepted calls ∪ S) ∧
      (calls.foldl ReplayProtection.call s).windowSize = s.windowSize := by
  induction calls generalizing s S with
  | nil => simpa [accepted] using h
  | cons c calls ih =>
    obtain ⟨hrun, hsize⟩ := ih (h.call c)
    have hset : accepted calls ∪ (accepted [c] ∪ S) = accepted (c :: calls) ∪ S := by
      ext i
      simp only [accepted, List.mem_cons, List.not_mem_nil, or_false, Set.mem_union,
        Set.mem_ofPred_eq]
      tauto
    exact ⟨hset ▸ hrun, hsize.trans (call_windowSize s c)⟩

theorem run_check_iff (size : Nat) (hsize : 1 ≤ size ∧ size ≤ 64) (calls : List Call)
    (index : Nat) :
    ((calls.foldl call (withWindowSize size)).check index).1 = .ok () ↔
      accepted calls = ∅ ∨ ∃ max, IsGreatest (accepted calls) max ∧
        (max < index ∨ max - index < size ∧ index ∉ accepted calls) := by
  have hnew : Holds (withWindowSize size) ∅ := ⟨rfl, .inl ⟨rfl, rfl, rfl⟩⟩
  obtain ⟨hrun, hwindow⟩ := hnew.run calls
  have hwindow : (calls.foldl call (withWindowSize size)).windowSize = size :=
    hwindow.trans (if_neg (by omega))
  rw [Set.union_empty] at hrun
  rw [hrun.check_ok_iff, hwindow]
  rcases (accepted calls).eq_empty_or_nonempty with hempty | hne
  · simp [hempty]
  · have hmax := hrun.isGreatest hne
    refine or_congr_right ⟨fun h => ⟨_, hmax, h⟩, ?_⟩
    rintro ⟨max, hmax', h⟩
    rwa [hmax'.unique hmax] at h

theorem run_check_iff_jump : (([.accept 0, .check 70, .accept 70, .check 63, .accept 63].foldl call
      (withWindowSize 8)).check 63).1 = .error .replayDetected ∧
    ¬ (accepted [.accept 0, .check 70, .accept 70, .check 63, .accept 63] = ∅ ∨
      ∃ max, IsGreatest
      (accepted [.accept 0, .check 70, .accept 70, .check 63, .accept 63]) max ∧
        (max < 63 ∨ max - 63 < 8 ∧
          63 ∉ accepted [.accept 0, .check 70, .accept 70, .check 63, .accept 63])) :=
  ⟨by decide, (run_check_iff 8 (by decide) _ 63).not.1 (by decide)⟩

end ReplayProtection
end NexusSfu.Srtp
