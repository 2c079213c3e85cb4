import NexusSfu.Base.Run
import NexusSfu.Srtp.Outbound

namespace NexusSfu.Srtp

open Base

section Iv

theorem masked_injective {β : Type*} {v : β → Nat} {b : Bytes} {i j k n : Nat}
    (hv : Function.Injective v) (hlt : ∀ x, v x < 256 ^ n) (hi : i + 4 ≤ j) (hj : j + n ≤ k)
    (hk : k ≤ b.length) :
    Function.Injective fun u : UInt32 × β =>
      (xorAt (xorAt b i (beBytes 4 u.1.toNat)) j (beBytes n (v u.2))).take k := by
  rintro u u' e
  obtain ⟨hs, hx⟩ :=
    xorAt_xorAt_cancel (by simp) (by simp) (by simpa using hi) (by simpa using hj)
    hk e
  exact Prod.ext (UInt32.toNat_inj.1 (beBytes_inj u.1.toNat_lt u'.1.toNat_lt hs))
    (hv (beBytes_inj (hlt _) (hlt _) hx))

theorem u32_toNat_injective : Function.Injective UInt32.toNat := fun _ _ => UInt32.toNat_inj.1

theorem value_injective : Function.Injective PacketIndex.value := fun _ _ => PacketIndex.value_inj

theorem buildRtpNonce_injective (salt : Vector UInt8 12) :
    Function.Injective fun u : UInt32 × PacketIndex => AesGcmCipher.buildRtpNonce salt u.1 u.2 :=
  .of_comp (f := List.take 12) (masked_injective value_injective PacketIndex.value_lt (by simp)
    (by simp) (by simp))

theorem buildRtcpNonce_injective (salt : Vector UInt8 12) :
    Function.Injective fun u : UInt32 × UInt32 => AesGcmCipher.buildRtcpNonce salt u.1 u.2 :=
  .of_comp (f := List.take 12) (masked_injective u32_toNat_injective UInt32.toNat_lt (by simp)
    (by simp) (by simp))

theorem buildRtpIv_injective (salt : Vector UInt8 14) :
    Function.Injective fun u : UInt32 × PacketIndex =>
      (AesCmHmacCipher.buildRtpIv salt u.1 u.2).take 14 :=
  masked_injective value_injective PacketIndex.value_lt (by simp) (by simp) (by simp)

theorem buildRtcpIv_injective (salt : Vector UInt8 14) :
    Function.Injective fun u : UInt32 × UInt32 =>
      (AesCmHmacCipher.buildRtcpIv salt u.1 u.2).take 14 :=
  masked_injective u32_toNat_injective UInt32.toNat_lt (by simp) (by simp) (by simp)

end Iv

namespace SrtpOutbound

inductive Call
  | register (ssrc : UInt32)
  | protectRtp (buf : Bytes) (len : Nat)
  | protectRtcp (buf : Bytes) (len : Nat)
  | retire (ssrc : UInt32)

def rtpUse (s : SrtpOutbound) (buf : Bytes) (len : Nat) : List (UInt32 × PacketIndex) :=
  match (s.protectRtp buf len).1, (s.admitRtp buf len).1 with
  | some _, some (_, index) => [(be32 buf 8, index)]
  | _, _ => []

def rtcpUse (s : SrtpOutbound) (buf : Bytes) (len : Nat) : List (UInt32 × UInt32) :=
  match (s.protectRtcp buf len).1, s.admitRtcp buf len with
  | some _, some (_, index) => [(be32 buf 4, index)]
  | _, _ => []

structure Ledger where
  ctx : SrtpOutbound
  rtp : List (UInt32 × PacketIndex)
  rtcp : List (UInt32 × UInt32)

namespace Ledger

def start (cipher : SrtpCipher) (ssrcBase : UInt32) : Ledger :=
  ⟨fromKeys cipher ssrcBase, [], []⟩

def step (l : Ledger) : Call → Option Ledger
  | .register ssrc => (l.ctx.register ssrc).map fun r => { l with ctx := r.2 }
  | .protectRtp buf len =>
    some { l with ctx := (l.ctx.protectRtp buf len).2, rtp := l.ctx.rtpUse buf len ++ l.rtp }
  | .protectRtcp buf len =>
    some { l with ctx := (l.ctx.protectRtcp buf len).2, rtcp := l.ctx.rtcpUse buf len ++ l.rtcp }
  | .retire ssrc => some { l with ctx := l.ctx.retire ssrc }

def sentBy (l : Ledger) (ssrc : UInt32) : Set Nat :=
  {v | ∃ x, (ssrc, x) ∈ l.rtp ∧ x.value = v}

structure Inv (l : Ledger) : Prop where
  wf : l.ctx.WellFormed
  rtp_below : ∀ u ∈ l.rtp, u.1 - l.ctx.ssrcBase < l.ctx.nextOffset
  rtcp_below : ∀ u ∈ l.rtcp, u.1 - l.ctx.ssrcBase < l.ctx.nextOffset
  sent : ∀ i, (l.ctx.slots i).live = true →
    (l.ctx.slots i).sent.Holds (l.sentBy (l.ctx.slots i).ssrc)
  srtcp : ∀ i, (l.ctx.slots i).live = true →
    ∀ k, ((l.ctx.slots i).ssrc, k) ∈ l.rtcp → k < (l.ctx.slots i).srtcpIndex
  rtp_nodup : l.rtp.Nodup
  rtcp_nodup : l.rtcp.Nodup

variable {l : Ledger} {slot : Fin outboundSsrcSlots} {x : SsrcOut} {ssrc : UInt32}

theorem start_inv (cipher : SrtpCipher) (ssrcBase : UInt32) : (start cipher ssrcBase).Inv where
  wf := fromKeys_wellFormed cipher ssrcBase
  rtp_below := by simp [start]
  rtcp_below := by simp [start]
  sent i hi := by simp [start, fromKeys, SsrcOut.empty] at hi
  srtcp i hi := by simp [start, fromKeys, SsrcOut.empty] at hi
  rtp_nodup := List.nodup_nil
  rtcp_nodup := List.nodup_nil

theorem Inv.setSlot (h : l.Inv)
    (hx : x.live = true → (l.ctx.slots slot).live = true ∧ x.ssrc = (l.ctx.slots slot).ssrc ∧
      x.sent.Holds (l.sentBy x.ssrc) ∧ x.srtcpIndex = (l.ctx.slots slot).srtcpIndex) :
    Inv { l with ctx := l.ctx.setSlot slot x } where
  wf := h.wf.setSlot fun hl => ⟨(hx hl).1, (hx hl).2.1⟩
  rtp_below := h.rtp_below
  rtcp_below := h.rtcp_below
  sent i hi := by
    by_cases he : i = slot
    · subst he
      simp only [setSlot_slots_self] at hi ⊢
      exact (hx hi).2.2.1
    · simp only [setSlot_slots_ne he] at hi ⊢
      exact h.sent i hi
  srtcp i hi k hk := by
    by_cases he : i = slot
    · subst he
      simp only [setSlot_slots_self] at hi hk ⊢
      obtain ⟨hl, hs, -, hi⟩ := hx hi
      rw [hi]
      exact h.srtcp i hl k (hs ▸ hk)
    · simp only [setSlot_slots_ne he] at hi hk ⊢
      exact h.srtcp i hi k hk
  rtp_nodup := h.rtp_nodup
  rtcp_nodup := h.rtcp_nodup

theorem Inv.assign (h : l.Inv) (hle : l.ctx.nextOffset ≤ ssrc - l.ctx.ssrcBase)
    (hmax : ssrc - l.ctx.ssrcBase ≤ maxSsrcOffset) :
    Inv { l with ctx := l.ctx.assign slot ssrc } := by
  have hmono {o : UInt32} (ho : o < l.ctx.nextOffset) : o < ssrc - l.ctx.ssrcBase + 1 :=
    UInt32.lt_of_lt_of_le ho (UInt32.le_trans hle (UInt32.le_of_lt (offset_lt_succ hmax)))
  have hnot {o : UInt32} (ho : o - l.ctx.ssrcBase < l.ctx.nextOffset) : o ≠ ssrc := by
    rintro rfl
    exact absurd ho (by simpa using hle)
  constructor
  · exact h.wf.assign hle hmax
  · exact fun u hu => hmono (h.rtp_below u hu)
  · exact fun u hu => hmono (h.rtcp_below u hu)
  · intro i hi
    by_cases he : i = slot
    · subst he
      have hnone : l.sentBy ssrc = ∅ := by
        ext v
        simp only [sentBy, Set.mem_ofPred_eq, Set.mem_empty_iff_false, iff_false]
        rintro ⟨x, hx, -⟩
        exact hnot (h.rtp_below _ hx) rfl
      simp only [SrtpOutbound.assign, setSlot_slots_self, SsrcOut.fresh]
      exact hnone ▸ ReplayProtection.new_holds
    · simp only [SrtpOutbound.assign, setSlot_slots_ne he] at hi ⊢
      exact h.sent i hi
  · intro i hi k hk
    by_cases he : i = slot
    · subst he
      simp only [SrtpOutbound.assign, setSlot_slots_self, SsrcOut.fresh] at hk
      exact absurd rfl (hnot (h.rtcp_below _ hk))
    · simp only [SrtpOutbound.assign, setSlot_slots_ne he] at hi hk ⊢
      exact h.srtcp i hi k hk
  · exact h.rtp_nodup
  · exact h.rtcp_nodup

theorem Inv.protectRtp (h : l.Inv) (buf : Bytes) (len : Nat) :
    Inv { l with ctx := (l.ctx.protectRtp buf len).2, rtp := l.ctx.rtpUse buf len ++ l.rtp } := by
  rcases protectRtp_cases l.ctx buf len with
    ⟨s', heq, hs'⟩ | ⟨slot, index, out, hslot, -, hok, -, hadm, heq⟩
  · -- Refused: at most the statistics of one window changed.
    have huse : l.ctx.rtpUse buf len = [] := by simp [rtpUse, heq]
    simp only [heq, huse, List.nil_append]
    rcases hs' with rfl | ⟨slot, index, rfl⟩
    · exact h
    · exact h.setSlot fun hl => ⟨hl, rfl, (h.sent slot hl).check _, rfl⟩
  · obtain ⟨hlive, hssrc⟩ := slotOf_some hslot
    have huse : l.ctx.rtpUse buf len = [(be32 buf 8, index)] := by simp [rtpUse, heq, hadm]
    have hheld := h.sent slot hlive
    rw [hssrc] at hheld
    have hnew : (be32 buf 8, index) ∉ l.rtp := fun hmem =>
      hheld.notMem_of_check hok ⟨index, hmem, rfl⟩
    simp only [heq, huse, List.singleton_append]
    constructor
    · exact h.wf.setSlot fun _ => ⟨hlive, rfl⟩
    · intro u hu
      rcases List.mem_cons.1 hu with rfl | hu
      · exact hssrc ▸ h.wf.below slot hlive
      · exact h.rtp_below u hu
    · exact h.rtcp_below
    · intro i hi
      by_cases he : i = slot
      · subst he
        have hset : sentBy { l with rtp := (be32 buf 8, index) :: l.rtp } (be32 buf 8) =
            insert index.value (l.sentBy (be32 buf 8)) := by
          ext v
          simp only [sentBy, List.mem_cons, Prod.mk.injEq, true_and, Set.mem_ofPred_eq,
            Set.mem_insert_iff]
          grind
        simp only [setSlot_slots_self, SsrcOut.markSent, SsrcOut.checkSent, hssrc]
        exact hset ▸ hheld.check_accept _
      · simp only [setSlot_slots_ne he] at hi ⊢
        have hne : (l.ctx.slots i).ssrc ≠ be32 buf 8 := fun e =>
          he (h.wf.distinct i slot hi hlive (e.trans hssrc.symm))
        simpa [sentBy, hne] using h.sent i hi
    · intro i hi k hk
      by_cases he : i = slot
      · subst he
        simp only [setSlot_slots_self] at hk ⊢
        exact h.srtcp i hlive k hk
      · simp only [setSlot_slots_ne he] at hi hk ⊢
        exact h.srtcp i hi k hk
    · exact List.nodup_cons.2 ⟨hnew, h.rtp_nodup⟩
    · exact h.rtcp_nodup

theorem succ_srtcpIndex {k : UInt32} (h : k < srtcpIndexMask) : k < k + 1 := by
  have hk : k.toNat < 2147483647 := h
  rw [UInt32.lt_iff_toNat_lt, UInt32.toNat_add]
  simp only [UInt32.reduceToNat]
  omega

theorem Inv.protectRtcp (h : l.Inv) (buf : Bytes) (len : Nat) : Inv { l with
      ctx := (l.ctx.protectRtcp buf len).2
      rtcp := l.ctx.rtcpUse buf len ++ l.rtcp } := by
  rcases protectRtcp_cases l.ctx buf len with heq | ⟨slot, out, hslot, hmax, -, hadm, heq⟩
  · have huse : l.ctx.rtcpUse buf len = [] := by simp [rtcpUse, heq]
    simpa only [heq, huse, List.nil_append] using h
  · obtain ⟨hlive, hssrc⟩ := slotOf_some hslot
    have huse : l.ctx.rtcpUse buf len = [(be32 buf 4, (l.ctx.slots slot).srtcpIndex)] := by
      simp [rtcpUse, heq, hadm]
    have hold := h.srtcp slot hlive
    rw [hssrc] at hold
    have hsucc := succ_srtcpIndex hmax
    simp only [heq, huse, List.singleton_append]
    constructor
    · exact h.wf.setSlot fun _ => ⟨hlive, rfl⟩
    · exact h.rtp_below
    · intro u hu
      rcases List.mem_cons.1 hu with rfl | hu
      · exact hssrc ▸ h.wf.below slot hlive
      · exact h.rtcp_below u hu
    · intro i hi
      by_cases he : i = slot
      · subst he
        simp only [setSlot_slots_self]
        exact h.sent i hlive
      · simp only [setSlot_slots_ne he] at hi ⊢
        exact h.sent i hi
    · intro i hi k hk
      by_cases he : i = slot
      · subst he
        simp only [setSlot_slots_self, hssrc, List.mem_cons, Prod.mk.injEq, true_and] at hk ⊢
        rcases hk with rfl | hk
        · exact hsucc
        · exact UInt32.lt_trans (hold k hk) hsucc
      · simp only [setSlot_slots_ne he] at hi hk ⊢
        have hne : (l.ctx.slots i).ssrc ≠ be32 buf 4 := fun e =>
          he (h.wf.distinct i slot hi hlive (e.trans hssrc.symm))
        exact h.srtcp i hi k (by simpa [hne] using hk)
    · exact h.rtp_nodup
    · refine List.nodup_cons.2 ⟨fun hmem => ?_, h.rtcp_nodup⟩
      exact absurd (hold _ hmem) (UInt32.lt_irrefl _)

theorem Inv.step (h : l.Inv) (c : Call) : ∃ l', l.step c = some l' ∧ l'.Inv := by
  cases c with
  | register ssrc =>
    rcases h.wf.register_cases ssrc with ⟨e, heq⟩ | ⟨slot, -, hle, hmax, heq⟩
    · exact ⟨l, by simp [Ledger.step, heq], h⟩
    · exact ⟨_, by rw [Ledger.step, heq]; rfl, h.assign hle hmax⟩
  | protectRtp buf len => exact ⟨_, rfl, h.protectRtp buf len⟩
  | protectRtcp buf len => exact ⟨_, rfl, h.protectRtcp buf len⟩
  | retire ssrc =>
    refine ⟨_, rfl, ?_⟩
    simp only [retire]
    split
    · exact h
    · exact h.setSlot fun hl => by simp at hl

theorem step_cipher {l' : Ledger} {c : Call} (h : l.Inv) (hstep : l.step c = some l') :
    l'.ctx.cipher = l.ctx.cipher := by
  cases c with
  | register ssrc =>
    rcases h.wf.register_cases ssrc with ⟨e, heq⟩ | ⟨slot, -, -, -, heq⟩
    all_goals
      rw [Ledger.step, heq] at hstep
      cases hstep
      rfl
  | protectRtp buf len =>
    cases hstep
    rcases protectRtp_cases l.ctx buf len with
      ⟨s', heq, rfl | ⟨slot, index, rfl⟩⟩ | ⟨slot, index, out, -, -, -, -, -, heq⟩
    all_goals simp [heq, setSlot]
  | protectRtcp buf len =>
    cases hstep
    rcases protectRtcp_cases l.ctx buf len with heq | ⟨slot, out, -, -, -, -, heq⟩
    all_goals simp [heq, setSlot]
  | retire ssrc =>
    cases hstep
    simp only [retire]
    split <;> rfl

theorem protectRtp_recorded {buf : Bytes} {len : Nat} {out : Bytes × Nat}
    (h : (l.ctx.protectRtp buf len).1 = some out) :
    ∃ index, l.ctx.cipher.protectRtp buf len index = .ok out ∧
      (l.step (.protectRtp buf len)).map Ledger.rtp = some ((be32 buf 8, index) :: l.rtp) := by
  rcases protectRtp_cases l.ctx buf len with
    ⟨s', heq, -⟩ | ⟨slot, index, out', -, -, -, hout, hadm, heq⟩
  · rw [heq] at h
    cases h
  · rw [heq] at h
    cases h
    exact ⟨index, hout, by simp [Ledger.step, rtpUse, heq, hadm]⟩

theorem protectRtcp_recorded {buf : Bytes} {len : Nat} {out : Bytes × Nat}
    (h : (l.ctx.protectRtcp buf len).1 = some out) :
    ∃ index, l.ctx.cipher.protectRtcp buf len index = .ok out ∧
      (l.step (.protectRtcp buf len)).map Ledger.rtcp = some ((be32 buf 4, index) :: l.rtcp) := by
  rcases protectRtcp_cases l.ctx buf len with heq | ⟨slot, out', -, -, hout, hadm, heq⟩
  · rw [heq] at h
    cases h
  · rw [heq] at h
    cases h
    exact ⟨_, hout, by simp [Ledger.step, rtcpUse, heq, hadm]⟩

end Ledger

/-- Whatever calls a context gets, no assertion fails. Every packet sent was sealed under an index
that the ledger records with its SSRC, and no pair is recorded twice; and different pairs give IVs
that differ, for AES-CM in their first 14 bytes, before the block counter. -/
theorem no_nonce_reuse (cipher : SrtpCipher) (ssrcBase : UInt32) (calls : List Call) :
    (∃ l, run Ledger.step (Ledger.start cipher ssrcBase) calls = some l ∧
      l.rtp.Nodup ∧ l.rtcp.Nodup ∧
      (∀ buf len out, (l.ctx.protectRtp buf len).1 = some out →
        ∃ index, cipher.protectRtp buf len index = .ok out ∧
          (l.step (.protectRtp buf len)).map Ledger.rtp = some ((be32 buf 8, index) :: l.rtp)) ∧
      (∀ buf len out, (l.ctx.protectRtcp buf len).1 = some out →
        ∃ index, cipher.protectRtcp buf len index = .ok out ∧
          (l.step (.protectRtcp buf len)).map Ledger.rtcp =
            some ((be32 buf 4, index) :: l.rtcp))) ∧
    (∀ salt, Function.Injective fun u : UInt32 × PacketIndex =>
      AesGcmCipher.buildRtpNonce salt u.1 u.2) ∧
    (∀ salt, Function.Injective fun u : UInt32 × UInt32 =>
      AesGcmCipher.buildRtcpNonce salt u.1 u.2) ∧
    (∀ salt, Function.Injective fun u : UInt32 × PacketIndex =>
      (AesCmHmacCipher.buildRtpIv salt u.1 u.2).take 14) ∧
    (∀ salt, Function.Injective fun u : UInt32 × UInt32 =>
      (AesCmHmacCipher.buildRtcpIv salt u.1 u.2).take 14) := by
  refine ⟨?_, buildRtpNonce_injective, buildRtcpNonce_injective, buildRtpIv_injective,
    buildRtcpIv_injective⟩
  have hstep : ∀ (l : Ledger) (c : Call), l.Inv ∧ l.ctx.cipher = cipher →
      ∃ l', l.step c = some l' ∧ l'.Inv ∧ l'.ctx.cipher = cipher := by
    rintro l c ⟨h, hcipher⟩
    obtain ⟨l', hl', h'⟩ := h.step c
    exact ⟨l', hl', h', (Ledger.step_cipher h hl').trans hcipher⟩
  obtain ⟨l, hrun, hl, rfl⟩ :=
    run_invariant hstep ⟨Ledger.start_inv cipher ssrcBase, rfl⟩ calls
  exact ⟨l, hrun, hl.rtp_nodup, hl.rtcp_nodup, fun _ _ _ => Ledger.protectRtp_recorded,
    fun _ _ _ => Ledger.protectRtcp_recorded⟩

end SrtpOutbound
end NexusSfu.Srtp
