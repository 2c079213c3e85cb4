import NexusSfu.Base.Slots
import NexusSfu.Srtp.Crypto
import NexusSfu.Srtp.Index
import NexusSfu.Srtp.Replay

namespace NexusSfu.Srtp

open Base

abbrev inboundSsrcSlots : Nat := 16

abbrev inboundPinnedMax : Nat := 12

abbrev inboundIdleEvictS : Nat := 30

structure SsrcIn where
  ssrc : UInt32
  live : Bool
  pinned : Bool
  roc : RocState
  rtpReplay : ReplayProtection
  rtcpReplay : ReplayProtection
  lastSeenS : Nat

namespace SsrcIn

def empty : SsrcIn := ⟨0, false, false, .new, .new, .new, 0⟩

def fresh (ssrc : UInt32) (nowS : Nat) : SsrcIn :=
  { empty with ssrc, live := true, lastSeenS := nowS }

def isFor (ssrc : UInt32) (x : SsrcIn) : Bool := x.live && x.ssrc == ssrc

def isPinned (x : SsrcIn) : Bool := x.live && x.pinned

def admitRtp (x : SsrcIn) (seq : UInt16) : Option PacketIndex × SsrcIn :=
  match x.roc.estimateIndex seq with
  | .error _ => (none, x)
  | .ok index =>
    match x.rtpReplay.check index.value with
    | (.error _, rtpReplay) => (none, { x with rtpReplay })
    | (.ok _, rtpReplay) => (some index, { x with rtpReplay })

theorem admitRtp_seq {x : SsrcIn} {seq : UInt16} {index : PacketIndex}
    (h : (x.admitRtp seq).1 = some index) : index.seq = seq := by
  simp only [admitRtp] at h
  split at h
  · cases h
  · rename_i hest
    split at h
    · cases h
    · obtain rfl := Option.some.inj h
      exact RocState.estimateIndex_seq hest

theorem admitRtp_of_estimate {x : SsrcIn} {seq : UInt16} {index : PacketIndex}
    (h : x.roc.estimateIndex seq = .ok index) :
    (x.admitRtp seq).2 = { x with rtpReplay := (x.rtpReplay.check index.value).2 } ∧
      ((x.admitRtp seq).1 = some index ↔ (x.rtpReplay.check index.value).1 = .ok ()) ∧
      ((x.admitRtp seq).1 = none ↔ (x.rtpReplay.check index.value).1 ≠ .ok ()) := by
  simp only [admitRtp, h]
  split <;> simp_all

def acceptRtp (x : SsrcIn) (index : PacketIndex) (seq : UInt16) (nowS : Nat) : SsrcIn :=
  { x with
    rtpReplay := x.rtpReplay.accept index.value
    roc := (x.roc.update seq).2
    lastSeenS := nowS }

def admitRtcp (x : SsrcIn) (index : UInt32) : Bool × SsrcIn :=
  match x.rtcpReplay.check index.toNat with
  | (.error _, rtcpReplay) => (false, { x with rtcpReplay })
  | (.ok _, rtcpReplay) => (true, { x with rtcpReplay })

def acceptRtcp (x : SsrcIn) (index : UInt32) (nowS : Nat) : SsrcIn :=
  { x with rtcpReplay := x.rtcpReplay.accept index.toNat, lastSeenS := nowS }

end SsrcIn

def srtcpTrailerOffset (cipher : SrtpCipher) (len : Nat) : Option Nat :=
  let trailer := match cipher with
    | .aesGcm _ => 4
    | .aesCmHmac c => c.tagLen + 4
  if len < trailer ∨ len - trailer < rtcpHeaderSize then none else some (len - trailer)

structure SrtpInbound where
  cipher : SrtpCipher
  slots : Fin inboundSsrcSlots → SsrcIn

namespace SrtpInbound

def fromKeys (cipher : SrtpCipher) : SrtpInbound := ⟨cipher, fun _ => .empty⟩

variable (s : SrtpInbound)

def pinnedCount : Nat := count s.slots SsrcIn.isPinned

def setSlot (i : Fin inboundSsrcSlots) (x : SsrcIn) : SrtpInbound :=
  { s with slots := Function.update s.slots i x }

def oldestUnpinned : Option (Fin inboundSsrcSlots) :=
  let older (best : Option (Fin inboundSsrcSlots)) (i : Fin inboundSsrcSlots) :=
    if (s.slots i).pinned then best
    else match best with
      | none => some i
      | some j => if (s.slots i).lastSeenS < (s.slots j).lastSeenS then some i else some j
  (List.finRange inboundSsrcSlots).foldl older none

def slotToReplace : Option (Fin inboundSsrcSlots) :=
  match position s.slots fun x => !x.live with
  | some i => some i
  | none => s.oldestUnpinned

def pinTarget (ssrc : UInt32) : Option (Fin inboundSsrcSlots × SsrcIn) :=
  match position s.slots (SsrcIn.isFor ssrc) with
  | some i => some (i, s.slots i)
  | none => s.slotToReplace.map fun i => (i, .fresh ssrc 0)

def pin (ssrc : UInt32) : Option (Except SrtpError Unit × SrtpInbound) :=
  let existing := position s.slots (SsrcIn.isFor ssrc)
  if existing.any fun i => (s.slots i).pinned then some (.ok (), s)
  else if s.pinnedCount ≥ inboundPinnedMax then some (.error .sessionLimitReached, s)
  else match s.pinTarget ssrc with
    | none => some (.error .sessionLimitReached, s)
    | some (i, x) =>
      let s' := s.setSlot i { x with pinned := true }
      if s'.pinnedCount ≤ inboundPinnedMax then some (.ok (), s') else none

def unpin (ssrc : UInt32) : SrtpInbound :=
  match position s.slots (SsrcIn.isFor ssrc) with
  | none => s
  | some i => s.setSlot i { s.slots i with pinned := false }

def idlestUnpinned (nowS : Nat) : Option (Fin inboundSsrcSlots × Nat) :=
  let idler (best : Option (Fin inboundSsrcSlots × Nat)) (i : Fin inboundSsrcSlots) :=
    let idle := nowS - (s.slots i).lastSeenS
    if !(s.slots i).live || (s.slots i).pinned then best
    else match best with
      | none => some (i, idle)
      | some (j, most) => if idle > most then some (i, idle) else some (j, most)
  (List.finRange inboundSsrcSlots).foldl idler none

def slotFor (ssrc : UInt32) (nowS : Nat) : Option (Fin inboundSsrcSlots) :=
  match position s.slots (SsrcIn.isFor ssrc) with
  | some i => some i
  | none =>
    match position s.slots fun x => !x.live with
    | some i => some i
    | none =>
      match s.idlestUnpinned nowS with
      | some (i, idle) => if idle > inboundIdleEvictS then some i else none
      | none => none

def admitRtp (slot : Fin inboundSsrcSlots) (ssrc : UInt32) (seq : UInt16) :
    Option PacketIndex × SrtpInbound :=
  if (s.slots slot).isFor ssrc then
    let r := (s.slots slot).admitRtp seq
    (r.1, s.setSlot slot r.2)
  else (some ⟨0, seq⟩, s)

def unprotectRtp (buf : Bytes) (len nowS : Nat) :
    Option (Bytes × Nat) × SrtpInbound :=
  if len < rtpHeaderSize ∨ len > buf.length then (none, s)
  else
    let seq := be16 buf 2
    let ssrc := be32 buf 8
    match s.slotFor ssrc nowS with
    | none => (none, s)
    | some slot =>
      let known := (s.slots slot).isFor ssrc
      match s.admitRtp slot ssrc seq with
      | (none, s) => (none, s)
      | (some index, s) =>
        match s.cipher.unprotectRtp buf len index with
        | .error _ => (none, s)
        | .ok out =>
          -- Only an authenticated packet gives its SSRC a slot.
          let state := if known then s.slots slot else .fresh ssrc nowS
          (some out, s.setSlot slot (state.acceptRtp index seq nowS))

def admitRtcp (slot : Fin inboundSsrcSlots) (ssrc index : UInt32) :
    Bool × SrtpInbound :=
  if (s.slots slot).isFor ssrc then
    let r := (s.slots slot).admitRtcp index
    (r.1, s.setSlot slot r.2)
  else (true, s)

def unprotectRtcp (buf : Bytes) (len nowS : Nat) :
    Option (Bytes × Nat) × SrtpInbound :=
  if len < rtcpHeaderSize ∨ len > buf.length then (none, s)
  else match srtcpTrailerOffset s.cipher len with
    | none => (none, s)
    | some trailer =>
      let eIndex := be32 buf trailer
      let index := eIndex &&& srtcpIndexMask
      let ssrc := be32 buf 4
      if eIndex &&& srtcpEFlag = 0 then (none, s)
      else match s.slotFor ssrc nowS with
        | none => (none, s)
        | some slot =>
          let known := (s.slots slot).isFor ssrc
          match s.admitRtcp slot ssrc index with
          | (false, s) => (none, s)
          | (true, s) =>
            match s.cipher.unprotectRtcp buf len with
            | .error _ => (none, s)
            | .ok (out, n, _) =>
              let state := if known then s.slots slot else .fresh ssrc nowS
              (some (out, n), s.setSlot slot (state.acceptRtcp index nowS))

theorem unprotectRtp_le {s : SrtpInbound} {buf : Bytes} {len nowS : Nat} {out : Bytes × Nat}
    (h : (s.unprotectRtp buf len nowS).1 = some out) : out.2 ≤ len := by
  simp only [unprotectRtp] at h
  split_ifs at h
  split at h
  · cases h
  split at h
  · cases h
  split at h
  · cases h
  rename_i hok
  cases h
  exact SrtpCipher.unprotectRtp_le hok

theorem unprotectRtcp_le {s : SrtpInbound} {buf : Bytes} {len nowS : Nat} {out : Bytes × Nat}
    (h : (s.unprotectRtcp buf len nowS).1 = some out) : out.2 ≤ len := by
  simp only [unprotectRtcp] at h
  split_ifs at h
  split at h
  · cases h
  split_ifs at h
  split at h
  · cases h
  split at h
  · cases h
  split at h
  · cases h
  rename_i hok
  cases h
  exact SrtpCipher.unprotectRtcp_le hok

section Known

variable {s : SrtpInbound} {i : Fin inboundSsrcSlots} {ssrc : UInt32} {buf : Bytes} {len nowS : Nat}

def estimatedIndex (s : SrtpInbound) (buf : Bytes) (nowS : Nat) : Option PacketIndex :=
  match s.slotFor (be32 buf 8) nowS with
  | none => none
  | some slot =>
    if (s.slots slot).isFor (be32 buf 8) then
      match (s.slots slot).roc.estimateIndex (be16 buf 2) with
      | .error _ => none
      | .ok index => some index
    else some ⟨0, be16 buf 2⟩

theorem slotFor_known (h : position s.slots (SsrcIn.isFor ssrc) = some i) :
    s.slotFor ssrc nowS = some i := by
  rw [slotFor, h]

theorem estimatedIndex_known (h : position s.slots (SsrcIn.isFor (be32 buf 8)) = some i)
    {index : PacketIndex} (hi : (s.slots i).roc.estimateIndex (be16 buf 2) = .ok index) :
    s.estimatedIndex buf nowS = some index := by
  simp only [estimatedIndex, slotFor_known h, position_some h, if_true, hi]

theorem unprotectRtp_refused (h : position s.slots (SsrcIn.isFor (be32 buf 8)) = some i)
    (hlen : rtpHeaderSize ≤ len) (hbuf : len ≤ buf.length)
    (ha : ((s.slots i).admitRtp (be16 buf 2)).1 = none) : s.unprotectRtp buf len nowS =
      (none, s.setSlot i ((s.slots i).admitRtp (be16 buf 2)).2) := by
  rw [unprotectRtp, if_neg (by omega)]
  simp only [slotFor_known h, admitRtp, position_some h, if_true, ha]

theorem unprotectRtp_accepted (h : position s.slots (SsrcIn.isFor (be32 buf 8)) = some i)
    (hlen : rtpHeaderSize ≤ len) (hbuf : len ≤ buf.length) {index : PacketIndex}
    (ha : ((s.slots i).admitRtp (be16 buf 2)).1 = some index) {out : Bytes × Nat}
    (hout : s.cipher.unprotectRtp buf len index = .ok out) :
    s.unprotectRtp buf len nowS = (some out, s.setSlot i
      (((s.slots i).admitRtp (be16 buf 2)).2.acceptRtp index (be16 buf 2) nowS)) := by
  rw [unprotectRtp, if_neg (by omega)]
  simp only [slotFor_known h, admitRtp, position_some h, if_true, ha]
  simp [setSlot, hout]

end Known

def evictIdle (nowS idleS : Nat) : Nat × SrtpInbound :=
  let idle (x : SsrcIn) : Bool := x.live && !x.pinned && decide (nowS - x.lastSeenS > idleS)
  (count s.slots idle,
    { s with slots := fun i => if idle (s.slots i) then { s.slots i with live := false }
      else s.slots i })

end SrtpInbound
end NexusSfu.Srtp
