import NexusSfu.Srtp.Types

/-!
Packet index estimation (RFC 3711, Appendix A).
-/

namespace NexusSfu.Srtp

structure RocState where
  roc : UInt32
  highestSeq : UInt16
  initialized : Bool
  deriving DecidableEq, Repr

namespace RocState

def new : RocState := ⟨0, 0, false⟩

def saturatingPred (r : UInt32) : UInt32 := if r = 0 then 0 else r - 1

def estimateIndex (s : RocState) (seq : UInt16) : Except SrtpError PacketIndex :=
  if !s.initialized then .ok ⟨0, seq⟩
  else if s.highestSeq < 32768 then
    if seq > s.highestSeq ∧ seq - s.highestSeq > 32768 then
      -- Before the first rollover the previous ROC stays 0.
      .ok ⟨saturatingPred s.roc, seq⟩
    else .ok ⟨s.roc, seq⟩
  else if s.highestSeq - 32768 > seq then
    if s.roc = 0xFFFFFFFF then .error .rocOverflow
    else .ok ⟨s.roc + 1, seq⟩
  else .ok ⟨s.roc, seq⟩

def update (s : RocState) (seq : UInt16) : Except SrtpError Unit × RocState :=
  if !s.initialized then (.ok (), { s with highestSeq := seq, initialized := true })
  else if s.highestSeq < 32768 then
    if seq - s.highestSeq ≤ 32768 ∧ seq > s.highestSeq then
      (.ok (), { s with highestSeq := seq })
    else (.ok (), s)
  else if s.highestSeq - 32768 > seq then
    if s.roc = 0xFFFFFFFF then (.error .rocOverflow, s)
    else (.ok (), { s with roc := s.roc + 1, highestSeq := seq })
  else if seq > s.highestSeq then (.ok (), { s with highestSeq := seq })
  else (.ok (), s)

def highestIndex (s : RocState) : Nat := s.roc.toNat * 65536 + s.highestSeq.toNat

variable {s : RocState} {seq : UInt16} {x : PacketIndex}

/-- `x` is less than half the sequence space away from the highest index seen. -/
def Near (s : RocState) (x : PacketIndex) : Prop :=
  x.value < s.highestIndex + 32768 ∧ s.highestIndex < x.value + 32768

theorem estimateIndex_new (hs : s.initialized = false) :
    s.estimateIndex seq = .ok ⟨0, seq⟩ := by
  simp [estimateIndex, hs]

theorem estimateIndex_seq (h : s.estimateIndex seq = .ok x) : x.seq = seq := by
  simp only [estimateIndex] at h
  split_ifs at h <;> cases h <;> rfl

theorem update_initialized (s : RocState) (seq : UInt16) : (s.update seq).2.initialized = true := by
  simp only [update]
  split_ifs <;> simp_all

section Distance

variable {a b : UInt16}

theorem lt_half : a < 32768 ↔ a.toNat < 32768 := UInt16.lt_iff_toNat_lt

theorem sub_gt_half : a > b ∧ a - b > 32768 ↔ b.toNat + 32768 < a.toNat := by
  have ha := a.toNat_lt
  have hb := b.toNat_lt
  simp only [gt_iff_lt, UInt16.lt_iff_toNat_lt, UInt16.toNat_sub, UInt16.reduceToNat]
  omega

theorem sub_le_half :
    a - b ≤ 32768 ∧ a > b ↔ b.toNat < a.toNat ∧ a.toNat ≤ b.toNat + 32768 := by
  have ha := a.toNat_lt
  have hb := b.toNat_lt
  simp only [gt_iff_lt, UInt16.lt_iff_toNat_lt, UInt16.le_iff_toNat_le, UInt16.toNat_sub,
    UInt16.reduceToNat]
  omega

theorem sub_half_gt (h : ¬ b < 32768) : b - 32768 > a ↔ a.toNat + 32768 < b.toNat := by
  have hb := b.toNat_lt
  rw [lt_half] at h
  simp only [gt_iff_lt, UInt16.lt_iff_toNat_lt, UInt16.toNat_sub, UInt16.reduceToNat]
  omega

theorem toNat_saturatingPred (r : UInt32) : (saturatingPred r).toNat = r.toNat - 1 := by
  have hr := r.toNat_lt
  simp only [saturatingPred, ← UInt32.toNat_inj]
  split_ifs with h
  · simp_all
  · simp only [UInt32.toNat_sub, UInt32.reduceToNat] at h ⊢
    omega

theorem toNat_succ {r : UInt32} (h : ¬ r = 0xFFFFFFFF) : (r + 1).toNat = r.toNat + 1 := by
  have hr := r.toNat_lt
  simp only [← UInt32.toNat_inj, UInt32.toNat_add, UInt32.reduceToNat] at h ⊢
  omega

end Distance

theorem estimateIndex_near (hs : s.initialized = true) (hx : s.Near x) :
    s.estimateIndex x.seq = .ok x := by
  obtain ⟨hlt, hgt⟩ := hx
  have hseq := x.seq.toNat_lt
  have hroc := x.roc.toNat_lt
  have hsl := s.highestSeq.toNat_lt
  simp only [PacketIndex.value, highestIndex] at hlt hgt
  have hok {r : UInt32} (h : r.toNat = x.roc.toNat) :
      (.ok ⟨r, x.seq⟩ : Except SrtpError PacketIndex) = .ok x := by
    rw [UInt32.toNat_inj.1 h]
  simp only [estimateIndex, hs, Bool.not_true, Bool.false_eq_true, if_false]
  split_ifs with hlow hprev hnext hmax
  · rw [sub_gt_half] at hprev
    rw [lt_half] at hlow
    apply hok
    rw [toNat_saturatingPred]
    omega
  · rw [sub_gt_half] at hprev
    rw [lt_half] at hlow
    apply hok
    omega
  · rw [sub_half_gt hlow] at hnext
    rw [lt_half] at hlow
    simp only [← UInt32.toNat_inj, UInt32.reduceToNat] at hmax
    omega
  · rw [sub_half_gt hlow] at hnext
    rw [lt_half] at hlow
    apply hok
    rw [toNat_succ hmax]
    omega
  · rw [sub_half_gt hlow] at hnext
    rw [lt_half] at hlow
    apply hok
    omega

theorem update_near (hs : s.initialized = true) (hx : s.Near x) :
    (s.update x.seq).2.highestIndex = max s.highestIndex x.value := by
  obtain ⟨hlt, hgt⟩ := hx
  have hseq := x.seq.toNat_lt
  have hroc := x.roc.toNat_lt
  have hsl := s.highestSeq.toNat_lt
  simp only [PacketIndex.value, highestIndex] at hlt hgt
  simp only [update, hs, Bool.not_true, Bool.false_eq_true, if_false]
  split_ifs with hlow hnear hnext hmax hnewer
  · rw [sub_le_half] at hnear
    rw [lt_half] at hlow
    simp only [highestIndex, PacketIndex.value]
    omega
  · rw [sub_le_half] at hnear
    rw [lt_half] at hlow
    simp only [highestIndex, PacketIndex.value]
    omega
  · rw [sub_half_gt hlow] at hnext
    simp only [← UInt32.toNat_inj, UInt32.reduceToNat] at hmax
    omega
  · rw [sub_half_gt hlow] at hnext
    rw [lt_half] at hlow
    simp only [highestIndex, PacketIndex.value, toNat_succ hmax]
    omega
  · rw [sub_half_gt hlow] at hnext
    rw [gt_iff_lt, UInt16.lt_iff_toNat_lt] at hnewer
    rw [lt_half] at hlow
    simp only [highestIndex, PacketIndex.value]
    omega
  · rw [sub_half_gt hlow] at hnext
    rw [gt_iff_lt, UInt16.lt_iff_toNat_lt] at hnewer
    rw [lt_half] at hlow
    simp only [highestIndex, PacketIndex.value]
    omega

theorem exists_index_at {d : Int} (hseq : (seq.toNat : Int) = (s.highestSeq.toNat + d) % 65536)
    (hd : -32768 < d ∧ d < 32768) (h0 : 0 ≤ s.highestIndex + d)
    (hmax : s.highestIndex + d < 2 ^ 48) :
    ∃ x : PacketIndex, x.seq = seq ∧ (x.value : Int) = s.highestIndex + d ∧ s.Near x := by
  have hv : (((s.highestIndex + d).toNat / 65536 : Nat) : Int) * 65536 + seq.toNat =
      s.highestIndex + d := by
    simp only [highestIndex] at h0 ⊢
    omega
  have hlt : (s.highestIndex + d).toNat / 65536 < 2 ^ 32 := by omega
  have hvalue :
      ((⟨UInt32.ofNat ((s.highestIndex + d).toNat / 65536), seq⟩ : PacketIndex).value : Int) =
      s.highestIndex + d := by
    simp only [PacketIndex.value, UInt32.toNat_ofNat_of_lt' hlt]
    omega
  refine ⟨_, rfl, hvalue, ?_⟩
  simp only [Near]
  omega

theorem estimateIndex_overflow {d : Int} (hs : s.initialized = true)
    (hseq : (seq.toNat : Int) = (s.highestSeq.toNat + d) % 65536) (hd : d < 32768)
    (hmax : 2 ^ 48 ≤ s.highestIndex + d) : s.estimateIndex seq = .error .rocOverflow := by
  have hsl := s.highestSeq.toNat_lt
  have hr := s.roc.toNat_lt
  simp only [highestIndex] at hmax
  have hlow : ¬ s.highestSeq < 32768 := by
    rw [lt_half]
    omega
  have hroc : s.roc = 0xFFFFFFFF := by
    simp only [← UInt32.toNat_inj, UInt32.reduceToNat]
    omega
  have hnext : s.highestSeq - 32768 > seq := by
    rw [sub_half_gt hlow]
    omega
  simp [estimateIndex, hs, hlow, hnext, hroc]

theorem estimateIndex_at {d : Int} (hs : s.initialized = true)
    (hseq : (seq.toNat : Int) = (s.highestSeq.toNat + d) % 65536) (hd : -32768 < d ∧ d < 32768)
    (h0 : 0 ≤ s.highestIndex + d) (hok : s.estimateIndex seq = .ok x) :
    (x.value : Int) = s.highestIndex + d ∧ s.Near x := by
  by_cases hmax : s.highestIndex + d < 2 ^ 48
  · obtain ⟨y, rfl, hv, hnear⟩ := exists_index_at hseq hd h0 hmax
    obtain rfl := Except.ok.inj ((estimateIndex_near hs hnear).symm.trans hok)
    exact ⟨hv, hnear⟩
  · rw [estimateIndex_overflow hs hseq hd.2 (by omega)] at hok
    cases hok

theorem highestSeq_toNat (s : RocState) : s.highestSeq.toNat = s.highestIndex % 65536 := by
  have := s.highestSeq.toNat_lt
  simp only [highestIndex]
  omega

end RocState
end NexusSfu.Srtp
