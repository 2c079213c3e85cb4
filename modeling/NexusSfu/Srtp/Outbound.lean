import NexusSfu.Base.Slots
import NexusSfu.Srtp.Crypto
import NexusSfu.Srtp.Index
import NexusSfu.Srtp.Replay

namespace NexusSfu.Srtp

open Base

abbrev outboundSsrcSlots : Nat := 32

def maxSsrcOffset : UInt32 := 0x7FFFFFFF

structure SsrcOut where
  ssrc : UInt32
  live : Bool
  roc : RocState
  sent : ReplayProtection
  srtcpIndex : UInt32

namespace SsrcOut

def empty : SsrcOut := ⟨0, false, .new, .new, 0⟩

def fresh (ssrc : UInt32) : SsrcOut := { empty with ssrc, live := true }

def isFor (ssrc : UInt32) (x : SsrcOut) : Bool := x.live && x.ssrc == ssrc

def checkSent (x : SsrcOut) (index : PacketIndex) : Except SrtpError Unit × SsrcOut :=
  ((x.sent.check index.value).1, { x with sent := (x.sent.check index.value).2 })

def markSent (x : SsrcOut) (index : PacketIndex) (seq : UInt16) : SsrcOut :=
  { x with sent := x.sent.accept index.value, roc := (x.roc.update seq).2 }

end SsrcOut

structure SrtpOutbound where
  cipher : SrtpCipher
  slots : Fin outboundSsrcSlots → SsrcOut
  ssrcBase : UInt32
  nextOffset : UInt32

namespace SrtpOutbound

def fromKeys (cipher : SrtpCipher) (ssrcBase : UInt32) : SrtpOutbound :=
  ⟨cipher, fun _ => .empty, ssrcBase, 0⟩

def setSlot (s : SrtpOutbound) (i : Fin outboundSsrcSlots) (x : SsrcOut) : SrtpOutbound :=
  { s with slots := Function.update s.slots i x }

def assign (s : SrtpOutbound) (slot : Fin outboundSsrcSlots) (ssrc : UInt32) : SrtpOutbound :=
  { s.setSlot slot (.fresh ssrc) with nextOffset := ssrc - s.ssrcBase + 1 }

def register (s : SrtpOutbound) (ssrc : UInt32) : Option (Except SrtpError Unit × SrtpOutbound) :=
  let offset := ssrc - s.ssrcBase
  if offset < s.nextOffset ∨ offset > maxSsrcOffset then some (.error .invalidSsrc, s)
  else match position s.slots fun x => !x.live with
    | none => some (.error .sessionLimitReached, s)
    | some slot =>
      let s' := s.assign slot ssrc
      if count s'.slots (SsrcOut.isFor ssrc) = 1 then some (.ok (), s') else none

def slotOf (s : SrtpOutbound) (ssrc : UInt32) : Option (Fin outboundSsrcSlots) :=
  position s.slots (SsrcOut.isFor ssrc)

def admitRtp (s : SrtpOutbound) (buf : Bytes) (len : Nat) :
    Option (Fin outboundSsrcSlots × PacketIndex) × SrtpOutbound :=
  if len < rtpHeaderSize ∨ len > buf.length then (none, s)
  else match s.slotOf (be32 buf 8) with
    | none => (none, s)
    | some slot =>
      let state := s.slots slot
      match state.roc.estimateIndex (be16 buf 2) with
      | .error _ => (none, s)
      | .ok index =>
        match state.checkSent index with
        | (.error _, state) => (none, s.setSlot slot state)
        | (.ok _, state) => (some (slot, index), s.setSlot slot state)

def protectRtp (s : SrtpOutbound) (buf : Bytes) (len : Nat) :
    Option (Bytes × Nat) × SrtpOutbound :=
  match s.admitRtp buf len with
  | (none, s) => (none, s)
  | (some (slot, index), s) =>
    match s.cipher.protectRtp buf len index with
    | .error _ => (none, s)
    | .ok out => (some out, s.setSlot slot ((s.slots slot).markSent index (be16 buf 2)))

def admitRtcp (s : SrtpOutbound) (buf : Bytes) (len : Nat) :
    Option (Fin outboundSsrcSlots × UInt32) :=
  if len < rtcpHeaderSize ∨ len > buf.length then none
  else match s.slotOf (be32 buf 4) with
    | none => none
    | some slot =>
      let index := (s.slots slot).srtcpIndex
      if index ≥ srtcpIndexMask then none else some (slot, index)

def protectRtcp (s : SrtpOutbound) (buf : Bytes) (len : Nat) :
    Option (Bytes × Nat) × SrtpOutbound :=
  match s.admitRtcp buf len with
  | none => (none, s)
  | some (slot, index) =>
    match s.cipher.protectRtcp buf len index with
    | .error _ => (none, s)
    | .ok out => (some out, s.setSlot slot { s.slots slot with srtcpIndex := index + 1 })

def retire (s : SrtpOutbound) (ssrc : UInt32) : SrtpOutbound :=
  match s.slotOf ssrc with
  | none => s
  | some i => s.setSlot i { s.slots i with live := false }

variable {s : SrtpOutbound} {i j : Fin outboundSsrcSlots} {x : SsrcOut} {ssrc : UInt32}
  {buf : Bytes} {len : Nat}

@[simp] theorem setSlot_slots_self : (s.setSlot i x).slots i = x := by simp [setSlot]

theorem setSlot_slots_ne (h : j ≠ i) : (s.setSlot i x).slots j = s.slots j := by
  simp [setSlot, h]

@[simp] theorem setSlot_setSlot (y : SsrcOut) : (s.setSlot i x).setSlot i y = s.setSlot i y := by
  simp [setSlot]

theorem slotOf_some (h : s.slotOf ssrc = some i) :
    (s.slots i).live = true ∧ (s.slots i).ssrc = ssrc := by
  simpa [SsrcOut.isFor] using position_some h

structure WellFormed (s : SrtpOutbound) : Prop where
  distinct : ∀ i j, (s.slots i).live = true → (s.slots j).live = true →
    (s.slots i).ssrc = (s.slots j).ssrc → i = j
  below : ∀ i, (s.slots i).live = true → (s.slots i).ssrc - s.ssrcBase < s.nextOffset

theorem fromKeys_wellFormed (cipher : SrtpCipher) (ssrcBase : UInt32) :
    (fromKeys cipher ssrcBase).WellFormed where
  distinct i _ hi := by simp [fromKeys, SsrcOut.empty] at hi
  below i hi := by simp [fromKeys, SsrcOut.empty] at hi

theorem WellFormed.slotOf_eq (h : s.WellFormed) (hl : (s.slots i).live = true)
    (hs : (s.slots i).ssrc = ssrc) : s.slotOf ssrc = some i := by
  apply position_of_unique
  · simp [SsrcOut.isFor, hl, hs]
  · intro j hj
    simp only [SsrcOut.isFor, Bool.and_eq_true, beq_iff_eq] at hj
    exact h.distinct j i hj.1 hl (hj.2.trans hs.symm)

theorem WellFormed.setSlot (h : s.WellFormed)
    (hx : x.live = true → (s.slots i).live = true ∧ x.ssrc = (s.slots i).ssrc) :
    (s.setSlot i x).WellFormed := by
  have hold : ∀ j, ((s.setSlot i x).slots j).live = true →
      (s.slots j).live = true ∧ ((s.setSlot i x).slots j).ssrc = (s.slots j).ssrc := by
    intro j hj
    by_cases hji : j = i
    · subst hji
      rw [setSlot_slots_self] at hj ⊢
      exact hx hj
    · rw [setSlot_slots_ne hji] at hj ⊢
      exact ⟨hj, rfl⟩
  constructor
  · intro j k hj hk e
    obtain ⟨hj, ej⟩ := hold j hj
    obtain ⟨hk, ek⟩ := hold k hk
    exact h.distinct j k hj hk (by rw [← ej, ← ek, e])
  · intro j hj
    obtain ⟨hj, ej⟩ := hold j hj
    rw [ej]
    exact h.below j hj

theorem WellFormed.ne_of_le_offset (h : s.WellFormed) (hle : s.nextOffset ≤ ssrc - s.ssrcBase)
    (hi : (s.slots i).live = true) : (s.slots i).ssrc ≠ ssrc := by
  rintro rfl
  have := h.below i hi
  exact absurd this (by simpa using hle)

theorem WellFormed.register_cases (h : s.WellFormed) (ssrc : UInt32) :
    (∃ e, s.register ssrc = some (.error e, s)) ∨
      ∃ slot, (s.slots slot).live = false ∧ s.nextOffset ≤ ssrc - s.ssrcBase ∧
        ssrc - s.ssrcBase ≤ maxSsrcOffset ∧
          s.register ssrc = some (.ok (), s.assign slot ssrc) := by
  simp only [register]
  split_ifs with hoff
  · exact .inl ⟨_, rfl⟩
  simp only [not_or, gt_iff_lt, UInt32.not_lt] at hoff
  split
  · exact .inl ⟨_, rfl⟩
  · rename_i slot hslot
    have hfree : (s.slots slot).live = false := by simpa using position_some hslot
    refine .inr ⟨slot, hfree, hoff.1, hoff.2, if_pos (count_eq_one (i := slot) ?_ ?_)⟩
    · simp [assign, SsrcOut.isFor, SsrcOut.fresh]
    · intro j hj
      by_contra hne
      rw [assign, setSlot_slots_ne hne, SsrcOut.isFor, Bool.and_eq_true, beq_iff_eq] at hj
      exact h.ne_of_le_offset hoff.1 hj.1 hj.2

theorem offset_lt_succ {o : UInt32} (h : o ≤ maxSsrcOffset) : o < o + 1 := by
  have hm : o.toNat ≤ 2147483647 := h
  rw [UInt32.lt_iff_toNat_lt, UInt32.toNat_add]
  simp only [UInt32.reduceToNat]
  omega

theorem WellFormed.assign (h : s.WellFormed) {slot : Fin outboundSsrcSlots}
    (hle : s.nextOffset ≤ ssrc - s.ssrcBase) (hmax : ssrc - s.ssrcBase ≤ maxSsrcOffset) :
    (s.assign slot ssrc).WellFormed := by
  have hlt := offset_lt_succ hmax
  constructor
  · intro i j hi hj e
    by_cases hi' : i = slot <;> by_cases hj' : j = slot
    · rw [hi', hj']
    · simp only [SrtpOutbound.assign, hi', setSlot_slots_self, setSlot_slots_ne hj'] at hj e
      exact absurd e.symm (h.ne_of_le_offset hle hj)
    · simp only [SrtpOutbound.assign, hj', setSlot_slots_self, setSlot_slots_ne hi'] at hi e
      exact absurd e (h.ne_of_le_offset hle hi)
    · simp only [SrtpOutbound.assign, setSlot_slots_ne hi', setSlot_slots_ne hj'] at hi hj e
      exact h.distinct i j hi hj e
  · intro i hi
    by_cases hi' : i = slot
    · rw [hi', SrtpOutbound.assign, setSlot_slots_self]
      exact hlt
    · simp only [SrtpOutbound.assign, setSlot_slots_ne hi'] at hi ⊢
      exact UInt32.lt_of_lt_of_le (h.below i hi) (UInt32.le_trans hle (UInt32.le_of_lt hlt))

theorem protectRtp_cases (s : SrtpOutbound) (buf : Bytes) (len : Nat) :
    (∃ s', s.protectRtp buf len = (none, s') ∧
      (s' = s ∨ ∃ slot index, s' = s.setSlot slot ((s.slots slot).checkSent index).2)) ∨
    ∃ slot index out, s.slotOf (be32 buf 8) = some slot ∧
      (s.slots slot).roc.estimateIndex (be16 buf 2) = .ok index ∧
      ((s.slots slot).sent.check index.value).1 = .ok () ∧
        s.cipher.protectRtp buf len index = .ok out ∧
      (s.admitRtp buf len).1 = some (slot, index) ∧
        s.protectRtp buf len = (some out, s.setSlot slot
        (((s.slots slot).checkSent index).2.markSent index (be16 buf 2))) := by
  simp only [protectRtp, admitRtp]
  split_ifs
  · exact .inl ⟨s, rfl, .inl rfl⟩
  rcases hslot : s.slotOf (be32 buf 8) with - | slot
  · exact .inl ⟨s, rfl, .inl rfl⟩
  simp only
  rcases hest : (s.slots slot).roc.estimateIndex (be16 buf 2) with e | index
  · exact .inl ⟨s, rfl, .inl rfl⟩
  simp only
  rcases hchk : (s.slots slot).checkSent index with ⟨e | u, state⟩
  · exact .inl ⟨_, rfl, .inr ⟨slot, index, by rw [hchk]⟩⟩
  simp only
  have hok : ((s.slots slot).sent.check index.value).1 = .ok () := congrArg Prod.fst hchk
  rcases hprot : s.cipher.protectRtp buf len index with e | out
  · refine .inl ⟨s.setSlot slot state, ?_, .inr ⟨slot, index, by rw [hchk]⟩⟩
    simp [setSlot, hprot]
  · refine .inr ⟨slot, index, out, rfl, hest, hok, hprot, rfl, ?_⟩
    have hcipher : (s.setSlot slot state).cipher = s.cipher := rfl
    simp [hcipher, hprot, hchk]

theorem protectRtp_some {slot : Fin outboundSsrcSlots} {index : PacketIndex} {out : Bytes × Nat}
    (hmin : rtpHeaderSize ≤ len) (hlen : len ≤ buf.length)
    (hslot : s.slotOf (be32 buf 8) = some slot)
    (hest : (s.slots slot).roc.estimateIndex (be16 buf 2) = .ok index)
    (hok : ((s.slots slot).sent.check index.value).1 = .ok ())
    (hout : s.cipher.protectRtp buf len index = .ok out) : (s.protectRtp buf len).1 = some out := by
  have hchk : (s.slots slot).checkSent index = (.ok (), ((s.slots slot).checkSent index).2) :=
    Prod.ext hok rfl
  have hcipher : (s.setSlot slot ((s.slots slot).checkSent index).2).cipher = s.cipher := rfl
  simp only [protectRtp, admitRtp, hslot, hest]
  rw [if_neg (by omega), hchk]
  simp only [hcipher, hout]

theorem protectRtcp_cases (s : SrtpOutbound) (buf : Bytes) (len : Nat) :
    s.protectRtcp buf len = (none, s) ∨
    ∃ slot out, s.slotOf (be32 buf 4) = some slot ∧
      (s.slots slot).srtcpIndex < srtcpIndexMask ∧
      s.cipher.protectRtcp buf len (s.slots slot).srtcpIndex = .ok out ∧
      s.admitRtcp buf len = some (slot, (s.slots slot).srtcpIndex) ∧
        s.protectRtcp buf len = (some out, s.setSlot slot
        { s.slots slot with srtcpIndex := (s.slots slot).srtcpIndex + 1 }) := by
  simp only [protectRtcp, admitRtcp]
  split_ifs
  · exact .inl rfl
  rcases hslot : s.slotOf (be32 buf 4) with - | slot
  · exact .inl rfl
  simp only
  split_ifs with hmax
  · exact .inl rfl
  simp only
  rcases hprot : s.cipher.protectRtcp buf len (s.slots slot).srtcpIndex with e | out
  · exact .inl rfl
  · exact .inr ⟨slot, out, rfl, by simpa using hmax, hprot, rfl, rfl⟩

theorem protectRtp_le {out : Bytes × Nat} (h : (s.protectRtp buf len).1 = some out) :
    out.2 ≤ buf.length := by
  rcases s.protectRtp_cases buf len with ⟨s', hnone, -⟩ |
      ⟨slot, index, out', -, -, -, hout, -, hsome⟩
  · rw [hnone] at h
    cases h
  · rw [hsome] at h
    obtain rfl := Option.some.inj h
    exact SrtpCipher.protectRtp_le hout

theorem protectRtcp_le {out : Bytes × Nat} (h : (s.protectRtcp buf len).1 = some out) :
    out.2 ≤ buf.length := by
  rcases s.protectRtcp_cases buf len with hnone | ⟨slot, out', -, -, hout, -, hsome⟩
  · rw [hnone] at h
    cases h
  · rw [hsome] at h
    obtain rfl := Option.some.inj h
    exact SrtpCipher.protectRtcp_le hout

end SrtpOutbound
end NexusSfu.Srtp
