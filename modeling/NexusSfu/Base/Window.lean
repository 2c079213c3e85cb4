import Mathlib.Order.Lattice.Nat

namespace NexusSfu.Base

open Bool

variable {w : Nat} {S : Set Nat} {highest n d : Nat} {bits : BitVec w}

/-- Bit `d` of `bits` says whether `highest - d` is in `S`, whose greatest element is `highest`. -/
structure Tracks (S : Set Nat) (highest : Nat) (bits : BitVec w) : Prop where
  greatest : IsGreatest S highest
  bit : ∀ d < w, bits.getLsbD d = true ↔ d ≤ highest ∧ highest - d ∈ S

namespace Tracks

theorem le (t : Tracks S highest bits) (h : n ∈ S) : n ≤ highest :=
  t.greatest.2 h

theorem bit_sub_iff (t : Tracks S highest bits) (h : n ≤ highest) (hw : highest - n < w) :
    bits.getLsbD (highest - n) = true ↔ n ∈ S := by
  rw [t.bit _ hw, Nat.sub_sub_self h]
  simp

theorem ne_zero (t : Tracks S highest bits) (hw : 0 < w) : bits ≠ 0#w := by
  intro h
  have hbit := (t.bit 0 hw).2 ⟨Nat.zero_le _, t.greatest.1⟩
  simp [h] at hbit

theorem singleton (n : Nat) : Tracks {n} n (1#w) where
  greatest := isGreatest_singleton
  bit d hd := by
    simp only [BitVec.getLsbD_one, Set.mem_singleton_iff, and_eq_true, decide_eq_true_eq]
    omega

theorem insert_newer (t : Tracks S highest bits) (h : highest < n) :
    Tracks (insert n S) n (bits <<< (n - highest) ||| 1#w) where
  greatest := by
    refine ⟨Set.mem_insert n S, ?_⟩
    rintro m (rfl | hm)
    · exact le_rfl
    · exact (t.le hm).trans h.le
  bit d hd := by
    have hle : n - d ∈ S → n - d ≤ highest := t.le
    have hbit := t.bit (d - (n - highest)) (by omega)
    have hsub : n - highest ≤ d → highest - (d - (n - highest)) = n - d := by omega
    simp only [BitVec.getLsbD_or, BitVec.getLsbD_shiftLeft, BitVec.getLsbD_one, or_eq_true,
      and_eq_true, decide_eq_true_eq, not_eq_true', decide_eq_false_iff_not,
      Set.mem_insert_iff, hbit]
    by_cases hmem : n - d ∈ S <;> grind

theorem insert_older (t : Tracks S highest bits) (h : n ≤ highest) (hw : highest - n < w) :
    Tracks (insert n S) highest (bits ||| 1#w <<< (highest - n)) where
  greatest := by
    refine ⟨Set.mem_insert_of_mem n t.greatest.1, ?_⟩
    rintro m (rfl | hm)
    · exact h
    · exact t.le hm
  bit d hd := by
    simp only [BitVec.getLsbD_or, BitVec.getLsbD_shiftLeft, BitVec.getLsbD_one, or_eq_true,
      and_eq_true, decide_eq_true_eq, not_eq_true', decide_eq_false_iff_not, t.bit d hd,
      Set.mem_insert_iff]
    by_cases hmem : highest - d ∈ S <;> grind

theorem insert_outside (t : Tracks S highest bits) (h : n ≤ highest) (hw : w ≤ highest - n) :
    Tracks (insert n S) highest bits where
  greatest := by
    refine ⟨Set.mem_insert_of_mem n t.greatest.1, ?_⟩
    rintro m (rfl | hm)
    · exact h
    · exact t.le hm
  bit d hd := by
    have hne : d ≤ highest → highest - d ≠ n := by omega
    rw [t.bit d hd, Set.mem_insert_iff]
    exact and_congr_right fun hle => ⟨.inr, (·.resolve_left (hne hle))⟩

end Tracks
end NexusSfu.Base
