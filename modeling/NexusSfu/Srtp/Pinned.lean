import NexusSfu.Base.Run
import NexusSfu.Srtp.Live

namespace NexusSfu.Srtp

open Base List Option

def ReplayProtection.core (r : ReplayProtection) : ReplayProtection :=
  { r with packetsChecked := 0, replaysDetected := 0 }

theorem ReplayProtection.check_core (r : ReplayProtection) (v : Nat) :
    (r.check v).2.core = r.core := by
  simp only [check, validateIndex, checkWindowBit]
  split_ifs <;> rfl

def SsrcIn.core (x : SsrcIn) : SsrcIn :=
  { x with rtpReplay := x.rtpReplay.core, rtcpReplay := x.rtcpReplay.core }

namespace SrtpInbound

inductive Call
  | pin (ssrc : UInt32)
  | unpin (ssrc : UInt32)
  | unprotectRtp (buf : Bytes) (len nowS : Nat)
  | unprotectRtcp (buf : Bytes) (len nowS : Nat)
  | evictIdle (nowS idleS : Nat)

def Call.ssrc : Call → Option UInt32
  | pin ssrc | unpin ssrc => some ssrc
  | unprotectRtp buf _ _ => some (be32 buf 8)
  | unprotectRtcp buf _ _ => some (be32 buf 4)
  | evictIdle _ _ => none

inductive Accepted
  | rtp (ssrc : UInt32) (index : PacketIndex)
  | rtcp (ssrc index : UInt32)
  deriving DecidableEq

def Accepted.ssrc : Accepted → UInt32
  | rtp ssrc _ | rtcp ssrc _ => ssrc

def call (s : SrtpInbound) : Call → Option SrtpInbound
  | .pin ssrc => (s.pin ssrc).map Prod.snd
  | .unpin ssrc => some (s.unpin ssrc)
  | .unprotectRtp buf len nowS => some (s.unprotectRtp buf len nowS).2
  | .unprotectRtcp buf len nowS => some (s.unprotectRtcp buf len nowS).2
  | .evictIdle nowS idleS => some (s.evictIdle nowS idleS).2

def accepts (s : SrtpInbound) : Call → Option Accepted
  | .unprotectRtp buf len nowS => do
    let _ ← (s.unprotectRtp buf len nowS).1
    let index ← s.estimatedIndex buf nowS
    some (.rtp (be32 buf 8) index)
  | .unprotectRtcp buf len nowS => do
    let _ ← (s.unprotectRtcp buf len nowS).1
    let trailer ← srtcpTrailerOffset s.cipher len
    some (.rtcp (be32 buf 4) (be32 buf trailer &&& srtcpIndexMask))
  | .pin _ | .unpin _ | .evictIdle _ _ => none

variable {s s' : SrtpInbound} {i j : Fin inboundSsrcSlots} {c : Call} {a : Option Accepted}
  {ssrc : UInt32} {buf : Bytes} {len nowS : Nat}

inductive Seated (s : SrtpInbound) (ssrc : UInt32) (nowS : Nat) (i : Fin inboundSsrcSlots)
    (known : SsrcIn) (ok : Prop) : SsrcIn → Prop
  | known (hfor : (s.slots i).isFor ssrc = true) (hok : ok) : Seated s ssrc nowS i known ok known
  | fresh (hpin : (s.slots i).isPinned = false) (hnone : ∀ j, (s.slots j).isFor ssrc = false) :
    Seated s ssrc nowS i known ok (.fresh ssrc nowS)

inductive Turn (s : SrtpInbound) : Call → SrtpInbound → Option Accepted → Prop
  | keep (c : Call) : Turn s c s none
  | pinned {ssrc : UInt32} {i : Fin inboundSsrcSlots} {x : SsrcIn}
    (hi : (s.slots i).isPinned = false)
      (hx : (s.slots i).isFor ssrc = true ∧ x = s.slots i ∨
        (∀ j, (s.slots j).isFor ssrc = false) ∧ x = .fresh ssrc 0) :
      Turn s (.pin ssrc) (s.setSlot i { x with pinned := true }) none
  | unpinned {ssrc : UInt32} {i : Fin inboundSsrcSlots} (hi : (s.slots i).isFor ssrc = true) :
      Turn s (.unpin ssrc) (s.setSlot i { s.slots i with pinned := false }) none
  | checkedRtp {buf : Bytes} {len nowS : Nat} {i : Fin inboundSsrcSlots} (v : Nat)
      (hi : (s.slots i).isFor (be32 buf 8) = true) :
      Turn s (.unprotectRtp buf len nowS)
        (s.setSlot i { s.slots i with rtpReplay := ((s.slots i).rtpReplay.check v).2 }) none
  | acceptedRtp {buf : Bytes} {len nowS : Nat} {i : Fin inboundSsrcSlots} {x : SsrcIn}
      {index : PacketIndex}
      (hx : Seated s (be32 buf 8) nowS i
        { s.slots i with rtpReplay := ((s.slots i).rtpReplay.check index.value).2 }
        (((s.slots i).rtpReplay.check index.value).1 = .ok ()) x) :
      Turn s (.unprotectRtp buf len nowS) (s.setSlot i (x.acceptRtp index (be16 buf 2) nowS))
        (some (.rtp (be32 buf 8) index))
  | checkedRtcp {buf : Bytes} {len nowS : Nat} {i : Fin inboundSsrcSlots} (v : Nat)
      (hi : (s.slots i).isFor (be32 buf 4) = true) :
      Turn s (.unprotectRtcp buf len nowS)
        (s.setSlot i { s.slots i with rtcpReplay := ((s.slots i).rtcpReplay.check v).2 }) none
  | acceptedRtcp {buf : Bytes} {len nowS : Nat} {i : Fin inboundSsrcSlots} {x : SsrcIn}
      {index : UInt32}
      (hx : Seated s (be32 buf 4) nowS i
        { s.slots i with rtcpReplay := ((s.slots i).rtcpReplay.check index.toNat).2 }
        (((s.slots i).rtcpReplay.check index.toNat).1 = .ok ()) x) :
      Turn s (.unprotectRtcp buf len nowS) (s.setSlot i (x.acceptRtcp index nowS))
        (some (.rtcp (be32 buf 4) index))
  | evicted (nowS idleS : Nat) : Turn s (.evictIdle nowS idleS) (s.evictIdle nowS idleS).2 none

theorem admitRtp_cases (x : SsrcIn) (seq : UInt16) : (x.admitRtp seq = (none, x)) ∨
    ∃ index, x.roc.estimateIndex seq = .ok index ∧
      (x.admitRtp seq).2 = { x with rtpReplay := (x.rtpReplay.check index.value).2 } ∧
      ((x.admitRtp seq).1 = none ∨
        (x.admitRtp seq).1 = some index ∧ (x.rtpReplay.check index.value).1 = .ok ()) := by
  cases hest : x.roc.estimateIndex seq with
  | error e => exact .inl (by simp only [SsrcIn.admitRtp, hest])
  | ok index =>
    obtain ⟨hslot, hok, hnone⟩ := SsrcIn.admitRtp_of_estimate hest
    refine .inr ⟨index, rfl, hslot, ?_⟩
    by_cases h : (x.rtpReplay.check index.value).1 = .ok ()
    · exact .inr ⟨hok.2 h, h⟩
    · exact .inl (hnone.2 h)

theorem setSlot_self (s : SrtpInbound) (i : Fin inboundSsrcSlots) :
    s.setSlot i (s.slots i) = s := by
  rw [setSlot, Function.update_eq_self]

theorem setSlot_setSlot (s : SrtpInbound) (i : Fin inboundSsrcSlots) (x y : SsrcIn) :
    (s.setSlot i x).setSlot i y = s.setSlot i y := by
  rw [setSlot, setSlot, setSlot, Function.update_idem]

theorem setSlot_cipher (s : SrtpInbound) (i : Fin inboundSsrcSlots) (x : SsrcIn) :
    (s.setSlot i x).cipher = s.cipher := rfl

theorem turn_unprotectRtp (s : SrtpInbound) (buf : Bytes) (len nowS : Nat) :
    s.Turn (.unprotectRtp buf len nowS) (s.unprotectRtp buf len nowS).2
      (s.accepts (.unprotectRtp buf len nowS)) := by
  rw [accepts]
  by_cases hlen : len < rtpHeaderSize ∨ len > buf.length
  · rw [unprotectRtp, if_pos hlen]
    exact .keep _
  cases hslot : s.slotFor (be32 buf 8) nowS with
  | none =>
    simp only [unprotectRtp, if_neg hlen, hslot]
    exact .keep _
  | some i =>
    by_cases hfor : (s.slots i).isFor (be32 buf 8) = true
    · rcases admitRtp_cases (s.slots i) (be16 buf 2) with h |
          ⟨index, hest, hsnd, hnone | ⟨hsome, hok⟩⟩
      · simp only [unprotectRtp, if_neg hlen, hslot, admitRtp, if_pos hfor, h, setSlot_self]
        exact .keep _
      · simp only [unprotectRtp, if_neg hlen, hslot, admitRtp, if_pos hfor, hnone, hsnd]
        exact .checkedRtp index.value hfor
      · have hindex : s.estimatedIndex buf nowS = some index := by
          simp only [estimatedIndex, hslot, if_pos hfor, hest]
        simp only [unprotectRtp, if_neg hlen, hslot, admitRtp, if_pos hfor, hsome, hsnd,
          setSlot_cipher]
        cases s.cipher.unprotectRtp buf len index with
        | error e => exact .checkedRtp index.value hfor
        | ok out =>
          simp only [setSlot_slots_self, setSlot_setSlot, hindex]
          exact .acceptedRtp (.known hfor hok)
    · obtain ⟨hpin, hnone⟩ := (slotFor_some hslot).resolve_left hfor
      have hindex : s.estimatedIndex buf nowS = some ⟨0, be16 buf 2⟩ := by
        simp only [estimatedIndex, hslot, if_neg hfor]
      simp only [unprotectRtp, if_neg hlen, hslot, admitRtp, if_neg hfor]
      cases s.cipher.unprotectRtp buf len ⟨0, be16 buf 2⟩ with
      | error e => exact .keep _
      | ok out =>
        simp only [hindex]
        exact .acceptedRtp (.fresh hpin hnone)

theorem turn_unprotectRtcp (s : SrtpInbound) (buf : Bytes) (len nowS : Nat) :
    s.Turn (.unprotectRtcp buf len nowS) (s.unprotectRtcp buf len nowS).2
      (s.accepts (.unprotectRtcp buf len nowS)) := by
  rw [accepts]
  by_cases hlen : len < rtcpHeaderSize ∨ len > buf.length
  · rw [unprotectRtcp, if_pos hlen]
    exact .keep _
  cases htrailer : srtcpTrailerOffset s.cipher len with
  | none =>
    simp only [unprotectRtcp, if_neg hlen, htrailer]
    exact .keep _
  | some trailer =>
    by_cases hflag : be32 buf trailer &&& srtcpEFlag = 0
    · simp only [unprotectRtcp, if_neg hlen, htrailer, if_pos hflag]
      exact .keep _
    cases hslot : s.slotFor (be32 buf 4) nowS with
    | none =>
      simp only [unprotectRtcp, if_neg hlen, htrailer, if_neg hflag, hslot]
      exact .keep _
    | some i =>
      by_cases hfor : (s.slots i).isFor (be32 buf 4) = true
      · simp only [unprotectRtcp, if_neg hlen, htrailer, if_neg hflag, hslot,
          admitRtcp, if_pos hfor, SsrcIn.admitRtcp]
        cases hcheck : (s.slots i).rtcpReplay.check (be32 buf trailer &&& srtcpIndexMask).toNat with
        | mk res replay =>
          have hreplay := congrArg Prod.snd hcheck
          cases res with
          | error e =>
            subst hreplay
            exact .checkedRtcp _ hfor
          | ok _ =>
            subst hreplay
            simp only [setSlot_cipher]
            cases s.cipher.unprotectRtcp buf len with
            | error e => exact .checkedRtcp _ hfor
            | ok out =>
              simp only [setSlot_slots_self, setSlot_setSlot]
              exact .acceptedRtcp (.known hfor (congrArg Prod.fst hcheck))
      · obtain ⟨hpin, hnone⟩ := (slotFor_some hslot).resolve_left hfor
        simp only [unprotectRtcp, if_neg hlen, htrailer, if_neg hflag, hslot,
          admitRtcp, if_neg hfor]
        cases s.cipher.unprotectRtcp buf len with
        | error e => exact .keep _
        | ok out => exact .acceptedRtcp (.fresh hpin hnone)

theorem pinTarget_some {x : SsrcIn} (h : s.pinTarget ssrc = some (i, x))
    (hnew : ¬ ((position s.slots (SsrcIn.isFor ssrc)).any fun i => (s.slots i).pinned) = true) :
    (s.slots i).isPinned = false ∧ ((s.slots i).isFor ssrc = true ∧ x = s.slots i ∨
      (∀ j, (s.slots j).isFor ssrc = false) ∧ x = .fresh ssrc 0) := by
  rw [pinTarget] at h
  cases hpos : position s.slots (SsrcIn.isFor ssrc) with
  | some j =>
    simp only [hpos] at h hnew
    cases h
    have hpinned : (s.slots i).pinned = false := by simpa using hnew
    exact ⟨by simp [SsrcIn.isPinned, hpinned], .inl ⟨position_some hpos, rfl⟩⟩
  | none =>
    simp only [hpos] at h
    obtain ⟨k, hk, heq⟩ := map_eq_some_iff.1 h
    cases heq
    exact ⟨slotToReplace_some hk, .inr ⟨position_eq_none.1 hpos, rfl⟩⟩

theorem turn_pin (s : SrtpInbound) (ssrc : UInt32) :
    ∃ s', s.call (.pin ssrc) = some s' ∧ s.Turn (.pin ssrc) s' none ∧
      (s.pinnedCount ≤ inboundPinnedMax → s'.pinnedCount ≤ inboundPinnedMax) := by
  rw [call, pin]
  dsimp only
  by_cases hold : ((position s.slots (SsrcIn.isFor ssrc)).any fun i => (s.slots i).pinned) = true
  · rw [if_pos hold]
    exact ⟨s, rfl, .keep _, id⟩
  by_cases hfull : s.pinnedCount ≥ inboundPinnedMax
  · rw [if_neg hold, if_pos hfull]
    exact ⟨s, rfl, .keep _, id⟩
  rw [if_neg hold, if_neg hfull]
  cases htarget : s.pinTarget ssrc with
  | none => exact ⟨s, rfl, .keep _, id⟩
  | some target =>
    obtain ⟨i, x⟩ := target
    obtain ⟨hi, hx⟩ := pinTarget_some htarget hold
    have hcount : (s.setSlot i { x with pinned := true }).pinnedCount ≤ inboundPinnedMax :=
      (count_update_le _).trans (not_le.1 hfull)
    dsimp only
    rw [if_pos hcount]
    exact ⟨_, rfl, .pinned hi hx, fun _ => hcount⟩

theorem isFor_iff {x : SsrcIn} : x.isFor ssrc = true ↔ x.live = true ∧ x.ssrc = ssrc := by
  rw [SsrcIn.isFor, Bool.and_eq_true, beq_iff_eq]

theorem isPinned_iff {x : SsrcIn} : x.isPinned = true ↔ x.live = true ∧ x.pinned = true := by
  rw [SsrcIn.isPinned, Bool.and_eq_true]

theorem Seated.live {known x : SsrcIn} {ok : Prop} (h : Seated s ssrc nowS i known ok x)
    (hk : known.live = (s.slots i).live ∧ known.ssrc = (s.slots i).ssrc) :
    x.live = true ∧ x.ssrc = ssrc := by
  cases h with
  | known hfor => rwa [hk.1, hk.2, ← isFor_iff]
  | fresh => exact ⟨rfl, rfl⟩

theorem Seated.room {known x : SsrcIn} {ok : Prop} (h : Seated s ssrc nowS i known ok x)
    (hk : known.live = (s.slots i).live ∧ known.ssrc = (s.slots i).ssrc) :
    ((s.slots i).live = true ∧ x.ssrc = (s.slots i).ssrc) ∨
      ∀ j, (s.slots j).isFor x.ssrc = false := by
  have hx := (h.live hk).2
  cases h with
  | known hfor =>
    obtain ⟨hl, hs⟩ := isFor_iff.1 hfor
    exact .inl ⟨hl, hk.2⟩
  | fresh _ hnone => exact .inr hnone

theorem Turn.wellFormed (h : s.Turn c s' a) (hs : s.WellFormed) : s'.WellFormed := by
  cases h with
  | keep => exact hs
  | pinned hi hx =>
    refine hs.setSlot fun _ => ?_
    rcases hx with ⟨hfor, rfl⟩ | ⟨hnone, rfl⟩
    · exact .inl ⟨(isFor_iff.1 hfor).1, rfl⟩
    · exact .inr hnone
  | unpinned hi | checkedRtp _ hi | checkedRtcp _ hi =>
    exact hs.setSlot fun _ => .inl ⟨(isFor_iff.1 hi).1, rfl⟩
  | acceptedRtp hx => exact hs.setSlot fun _ => hx.room ⟨rfl, rfl⟩
  | acceptedRtcp hx => exact hs.setSlot fun _ => hx.room ⟨rfl, rfl⟩
  | evicted nowS idleS =>
    have hslot : ∀ k, ((s.evictIdle nowS idleS).2.slots k).ssrc = (s.slots k).ssrc ∧
        (((s.evictIdle nowS idleS).2.slots k).live = true → (s.slots k).live = true) := by
      intro k
      simp only [evictIdle]
      split_ifs <;> simp
    intro i j hi hj e
    rw [(hslot i).1, (hslot j).1] at e
    exact hs i j ((hslot i).2 hi) ((hslot j).2 hj) e

theorem evictIdle_pinned (idleS : Nat) (h : (s.slots i).isPinned = true) :
    (s.evictIdle nowS idleS).2.slots i = s.slots i := by
  simp [evictIdle, (isPinned_iff.1 h).2]

theorem Turn.frame (h : s.Turn c s' a) (hp : (s.slots i).isPinned = true)
    (hc : c.ssrc ≠ some (s.slots i).ssrc) : s'.slots i = s.slots i := by
  have other : ∀ {j ssrc}, (s.slots j).isFor ssrc = true →
      some ssrc ≠ some (s.slots i).ssrc → i ≠ j := by
    rintro j ssrc hj hne rfl
    exact hne (congrArg some (isFor_iff.1 hj).2.symm)
  have unpinned : ∀ {j}, (s.slots j).isPinned = false → i ≠ j := by
    rintro j hj rfl
    rw [hp] at hj
    cases hj
  cases h with
  | keep => rfl
  | pinned hi => exact setSlot_slots_ne (unpinned hi)
  | unpinned hi | checkedRtp _ hi | checkedRtcp _ hi => exact setSlot_slots_ne (other hi hc)
  | acceptedRtp hx | acceptedRtcp hx =>
    cases hx with
    | known hfor => exact setSlot_slots_ne (other hfor hc)
    | fresh hpin => exact setSlot_slots_ne (unpinned hpin)
  | evicted nowS idleS => exact evictIdle_pinned idleS hp

theorem setSlot_pinnedCount {x : SsrcIn} (hx : x.isPinned = true → (s.slots i).isPinned = true) :
    (s.setSlot i x).pinnedCount ≤ s.pinnedCount := by
  refine count_mono fun k hk => ?_
  by_cases hki : k = i
  · subst hki
    exact hx (by simpa using hk)
  · rwa [setSlot_slots_ne hki] at hk

theorem Seated.isPinned {known x : SsrcIn} {ok : Prop} (h : Seated s ssrc nowS i known ok x)
    (hk : known.isPinned = (s.slots i).isPinned) (hx : x.isPinned = true) :
    (s.slots i).isPinned = true := by
  cases h with
  | known => rwa [← hk]
  | fresh => cases hx

theorem Turn.pinnedCount (h : s.Turn c s' a) (hc : ∀ ssrc, c ≠ .pin ssrc) :
    s'.pinnedCount ≤ s.pinnedCount := by
  cases h with
  | keep => exact le_rfl
  | pinned => exact absurd rfl (hc _)
  | unpinned => exact setSlot_pinnedCount fun h => by simp [SsrcIn.isPinned] at h
  | checkedRtp | checkedRtcp => exact setSlot_pinnedCount id
  | acceptedRtp hx => exact setSlot_pinnedCount (hx.isPinned rfl)
  | acceptedRtcp hx => exact setSlot_pinnedCount (hx.isPinned rfl)
  | evicted nowS idleS =>
    refine count_mono fun k hk => ?_
    simp only [evictIdle] at hk
    split_ifs at hk
    · cases hk
    · exact hk

theorem call_turn (s : SrtpInbound) (c : Call) :
    ∃ s', s.call c = some s' ∧ s.Turn c s' (s.accepts c) ∧
      (s.pinnedCount ≤ inboundPinnedMax → s'.pinnedCount ≤ inboundPinnedMax) := by
  have counted : ∀ {s'}, s.Turn c s' (s.accepts c) → (∀ ssrc, c ≠ .pin ssrc) →
      s.pinnedCount ≤ inboundPinnedMax → s'.pinnedCount ≤ inboundPinnedMax :=
    fun h hc hle => (h.pinnedCount hc).trans hle
  cases c with
  | pin ssrc => exact s.turn_pin ssrc
  | unpin ssrc =>
    have hturn : s.Turn (.unpin ssrc) (s.unpin ssrc) none := by
      rw [unpin]
      cases hpos : position s.slots (SsrcIn.isFor ssrc) with
      | none => exact .keep _
      | some i => exact .unpinned (position_some hpos)
    exact ⟨_, rfl, hturn, counted hturn (by simp)⟩
  | unprotectRtp buf len nowS =>
    have hturn := s.turn_unprotectRtp buf len nowS
    exact ⟨_, rfl, hturn, counted hturn (by simp)⟩
  | unprotectRtcp buf len nowS =>
    have hturn := s.turn_unprotectRtcp buf len nowS
    exact ⟨_, rfl, hturn, counted hturn (by simp)⟩
  | evictIdle nowS idleS =>
    exact ⟨_, rfl, .evicted nowS idleS, counted (.evicted nowS idleS) (by simp)⟩

def Held (x : SsrcIn) (R C : Set Nat) : Prop := x.rtpReplay.Holds R ∧ x.rtcpReplay.Holds C

theorem held_fresh (ssrc : UInt32) (nowS : Nat) : Held (.fresh ssrc nowS) ∅ ∅ :=
  ⟨ReplayProtection.new_holds, ReplayProtection.new_holds⟩

theorem Turn.held (h : s.Turn c s' a) (hs : ∀ k, ∃ R C, Held (s.slots k) R C)
    (k : Fin inboundSsrcSlots) :
    ∃ R C, Held (s'.slots k) R C := by
  have write : ∀ {i x}, (∃ R C, Held x R C) →
      ∃ R C, Held ((s.setSlot i x).slots k) R C := by
    intro i x hx
    by_cases hki : k = i
    · subst hki
      simpa using hx
    · rw [setSlot_slots_ne hki]
      exact hs k
  have seated : ∀ {ssrc nowS i known ok x}, Seated s ssrc nowS i known ok x →
      (∃ R C, Held known R C) → ∃ R C, Held x R C := by
    intro ssrc nowS i known ok x hx hknown
    cases hx with
    | known => exact hknown
    | fresh => exact ⟨∅, ∅, held_fresh _ _⟩
  cases h with
  | keep => exact hs k
  | @pinned ssrc i x hi hx =>
    refine write ?_
    rcases hx with ⟨-, rfl⟩ | ⟨-, rfl⟩
    · exact hs i
    · exact ⟨∅, ∅, held_fresh ssrc 0⟩
  | @unpinned ssrc i => exact write (hs i)
  | @checkedRtp buf len nowS i v =>
    obtain ⟨R, C, hr, hc⟩ := hs i
    exact write ⟨R, C, hr.check v, hc⟩
  | @checkedRtcp buf len nowS i v =>
    obtain ⟨R, C, hr, hc⟩ := hs i
    exact write ⟨R, C, hr, hc.check v⟩
  | @acceptedRtp buf len nowS i x index hx =>
    obtain ⟨R, C, hr, hc⟩ := hs i
    obtain ⟨R, C, hr, hc⟩ := seated hx ⟨R, C, hr.check index.value, hc⟩
    exact write ⟨_, C, hr.accept index.value, hc⟩
  | @acceptedRtcp buf len nowS i x index hx =>
    obtain ⟨R, C, hr, hc⟩ := hs i
    obtain ⟨R, C, hr, hc⟩ := seated hx ⟨R, C, hr, hc.check index.toNat⟩
    exact write ⟨R, _, hr, hc.accept index.toNat⟩
  | evicted nowS idleS =>
    simp only [evictIdle]
    split_ifs
    · exact hs k
    · exact hs k

structure Receipts where
  ctx : SrtpInbound
  accepted : List Accepted := []

def Receipts.call (l : Receipts) (c : Call) : Option Receipts :=
  (l.ctx.call c).map fun s => ⟨s, (l.ctx.accepts c).toList ++ l.accepted⟩

structure Period (ssrc : UInt32) (i : Fin inboundSsrcSlots) (l : Receipts) : Prop where
  wellFormed : l.ctx.WellFormed
  pinned : (l.ctx.slots i).isPinned = true
  ssrc_eq : (l.ctx.slots i).ssrc = ssrc
  held : ∃ R C, Held (l.ctx.slots i) R C ∧
    (∀ index, .rtp ssrc index ∈ l.accepted → index.value ∈ R) ∧
    ∀ index, .rtcp ssrc index ∈ l.accepted → index.toNat ∈ C
  nodup : (l.accepted.filter fun r => r.ssrc = ssrc).Nodup

variable {l : Receipts}

theorem Turn.accepted_ssrc (h : s.Turn c s' a) {r : Accepted} (hr : a = some r) :
    c.ssrc = some r.ssrc := by
  cases h with
  | keep | pinned | unpinned | checkedRtp | checkedRtcp | evicted => cases hr
  | acceptedRtp | acceptedRtcp =>
    cases hr
    rfl

theorem Period.slot_eq (h : Period ssrc i l) (hj : (l.ctx.slots j).isFor ssrc = true) : j = i :=
  h.wellFormed j i (isFor_iff.1 hj).1 (isPinned_iff.1 h.pinned).1
    ((isFor_iff.1 hj).2.trans h.ssrc_eq.symm)

theorem Period.isFor (h : Period ssrc i l) : (l.ctx.slots i).isFor ssrc = true :=
  isFor_iff.2 ⟨(isPinned_iff.1 h.pinned).1, h.ssrc_eq⟩

theorem Period.other (h : Period ssrc i l) (ht : l.ctx.Turn c s' a) (hc : c.ssrc ≠ some ssrc) :
    Period ssrc i ⟨s', a.toList ++ l.accepted⟩ := by
  have hslot : s'.slots i = l.ctx.slots i := ht.frame h.pinned (h.ssrc_eq ▸ hc)
  have hnone : ∀ r ∈ a.toList, r.ssrc ≠ ssrc := by
    intro r hr e
    exact hc (e ▸ ht.accepted_ssrc (mem_toList.1 hr))
  have hmem : ∀ r, r.ssrc = ssrc → r ∈ a.toList ++ l.accepted →
      r ∈ l.accepted := fun r hr hmem =>
    (mem_append.1 hmem).resolve_left fun hm => hnone r hm hr
  obtain ⟨R, C, hheld, hrtp, hrtcp⟩ := h.held
  refine ⟨ht.wellFormed
    h.wellFormed, by rw [hslot]; exact h.pinned, by rw [hslot]; exact h.ssrc_eq,
    ⟨R, C, by rw [hslot]; exact hheld, ?_, ?_⟩, ?_⟩
  · exact fun index hi => hrtp index (hmem _ rfl hi)
  · exact fun index hi => hrtcp index (hmem _ rfl hi)
  · have hfilter : a.toList.filter (fun r => decide (r.ssrc = ssrc)) = [] :=
      filter_eq_nil_iff.2 fun r hr => by simpa using hnone r hr
    rw [filter_append, hfilter]
    exact h.nodup

theorem Period.write (h : Period ssrc i l) {x : SsrcIn} {R C : Set Nat} {e : List Accepted}
    (hx : x.live = true ∧ x.pinned = true ∧ x.ssrc = ssrc) (hheld : Held x R C)
    (hrtp : ∀ index, .rtp ssrc index ∈ e ++ l.accepted → index.value ∈ R)
    (hrtcp : ∀ index, .rtcp ssrc index ∈ e ++ l.accepted → index.toNat ∈ C)
    (hnodup : ((e ++ l.accepted).filter fun r => r.ssrc = ssrc).Nodup) :
    Period ssrc i ⟨l.ctx.setSlot i x, e ++ l.accepted⟩ := by
  have hwf := h.wellFormed.setSlot (i := i) (x := x) fun _ =>
    .inl ⟨(isPinned_iff.1 h.pinned).1, hx.2.2.trans h.ssrc_eq.symm⟩
  refine ⟨hwf, ?_, ?_, ⟨R, C, ?_, hrtp, hrtcp⟩, hnodup⟩
  · rw [setSlot_slots_self]
    exact isPinned_iff.2 ⟨hx.1, hx.2.1⟩
  · rw [setSlot_slots_self]
    exact hx.2.2
  · rwa [setSlot_slots_self]

theorem Period.step (h : Period ssrc i l) (ht : l.ctx.Turn c s' a) (hc : c ≠ .unpin ssrc) :
    Period ssrc i ⟨s', a.toList ++ l.accepted⟩ := by
  by_cases hssrc : c.ssrc = some ssrc
  swap
  · exact h.other ht hssrc
  have hself := h.isFor
  have hpin := isPinned_iff.1 h.pinned
  obtain ⟨R, C, ⟨hR, hC⟩, hrtp, hrtcp⟩ := h.held
  have hnot : ∀ {j}, (l.ctx.slots j).isPinned = false → (l.ctx.slots j).isFor ssrc = true →
      False := by
    intro j hj hfor
    rw [h.slot_eq hfor, h.pinned] at hj
    cases hj
  cases ht with
  | keep => exact h
  | pinned hi hx =>
    cases hssrc
    rcases hx with ⟨hfor, -⟩ | ⟨hnone, -⟩
    · exact (hnot hi hfor).elim
    · rw [hnone i] at hself
      cases hself
  | unpinned =>
    cases hssrc
    exact absurd rfl hc
  | checkedRtp v hi =>
    cases hssrc
    cases h.slot_eq hi
    exact h.write ⟨hpin.1, hpin.2, h.ssrc_eq⟩ ⟨hR.check v, hC⟩ hrtp hrtcp h.nodup
  | checkedRtcp v hi =>
    cases hssrc
    cases h.slot_eq hi
    exact h.write ⟨hpin.1, hpin.2, h.ssrc_eq⟩ ⟨hR, hC.check v⟩ hrtp hrtcp h.nodup
  | @acceptedRtp buf len nowS j x index hx =>
    cases hssrc
    cases hx with
    | fresh hpin' hnone =>
      rw [hnone i] at hself
      cases hself
    | known hfor hok =>
      cases h.slot_eq hfor
      have hnew : Accepted.rtp (be32 buf 8) index ∉ l.accepted := fun hmem =>
        hR.notMem_of_check hok (hrtp index hmem)
      refine h.write (e := [.rtp (be32 buf 8) index]) ⟨hpin.1, hpin.2, h.ssrc_eq⟩
        ⟨hR.check_accept index.value, hC⟩ ?_ ?_ ?_
      · intro index' hmem
        rcases mem_cons.1 hmem with heq | hmem
        · cases heq
          exact Set.mem_insert _ _
        · exact Set.mem_insert_of_mem _ (hrtp index' hmem)
      · intro index' hmem
        exact hrtcp index' ((mem_cons.1 hmem).resolve_left nofun)
      · rw [singleton_append, filter_cons_of_pos (by simp [Accepted.ssrc])]
        exact nodup_cons.2 ⟨fun hmem => hnew (mem_of_mem_filter hmem), h.nodup⟩
  | @acceptedRtcp buf len nowS j x index hx =>
    cases hssrc
    cases hx with
    | fresh hpin' hnone =>
      rw [hnone i] at hself
      cases hself
    | known hfor hok =>
      cases h.slot_eq hfor
      have hnew : Accepted.rtcp (be32 buf 4) index ∉ l.accepted := fun hmem =>
        hC.notMem_of_check hok (hrtcp index hmem)
      refine h.write (e := [.rtcp (be32 buf 4) index]) ⟨hpin.1, hpin.2, h.ssrc_eq⟩
        ⟨hR, hC.check_accept index.toNat⟩ ?_ ?_ ?_
      · intro index' hmem
        exact hrtp index' ((mem_cons.1 hmem).resolve_left nofun)
      · intro index' hmem
        rcases mem_cons.1 hmem with heq | hmem
        · cases heq
          exact Set.mem_insert _ _
        · exact Set.mem_insert_of_mem _ (hrtcp index' hmem)
      · rw [singleton_append, filter_cons_of_pos (by simp [Accepted.ssrc])]
        exact nodup_cons.2 ⟨fun hmem => hnew (mem_of_mem_filter hmem), h.nodup⟩
  | evicted => cases hssrc

theorem Period.run (h : Period ssrc i l) {calls : List Call} (hc : .unpin ssrc ∉ calls) :
    ∃ l', Base.run Receipts.call l calls = some l' ∧ Period ssrc i l' := by
  induction calls generalizing l with
  | nil => exact ⟨l, rfl, h⟩
  | cons c calls ih =>
    obtain ⟨hne, hrest⟩ := not_or.1 (mt mem_cons.2 hc)
    obtain ⟨s', hs', hturn, -⟩ := l.ctx.call_turn c
    obtain ⟨l', hrun, hl'⟩ := ih (h.step hturn (Ne.symm hne)) hrest
    exact ⟨l', by rw [Base.run, Receipts.call, hs', map_some, bind_some, hrun], hl'⟩

structure Kept (cipher : SrtpCipher) (s : SrtpInbound) : Prop where
  cipher_eq : s.cipher = cipher
  wellFormed : s.WellFormed
  pinnedCount : s.pinnedCount ≤ inboundPinnedMax
  held : ∀ k, ∃ R C, Held (s.slots k) R C

theorem fromKeys_kept (cipher : SrtpCipher) : Kept cipher (fromKeys cipher) where
  cipher_eq := rfl
  wellFormed := (mirrors_fromKeys cipher).wellFormed
  pinnedCount := (mirrors_fromKeys cipher).pinnedCount_le.trans (Nat.zero_le _)
  held _ := ⟨∅, ∅, ReplayProtection.new_holds, ReplayProtection.new_holds⟩

theorem Turn.cipher_eq (h : s.Turn c s' a) : s'.cipher = s.cipher := by
  cases h <;> rfl

theorem Kept.call {cipher : SrtpCipher} (h : Kept cipher s) (c : Call) :
    ∃ s', s.call c = some s' ∧ Kept cipher s' := by
  obtain ⟨s', hs', hturn, hcount⟩ := s.call_turn c
  exact ⟨s', hs', hturn.cipher_eq.trans h.cipher_eq, hturn.wellFormed h.wellFormed,
    hcount h.pinnedCount, hturn.held h.held⟩

theorem Turn.refused (h : s.Turn c s' none)
    (hc : (∃ buf len nowS, c = .unprotectRtp buf len nowS) ∨
    ∃ buf len nowS, c = .unprotectRtcp buf len nowS) (k : Fin inboundSsrcSlots) :
    (s'.slots k).core = (s.slots k).core := by
  have write : ∀ {i x}, x.core = (s.slots i).core →
      ((s.setSlot i x).slots k).core = (s.slots k).core := by
    intro i x hx
    by_cases hki : k = i
    · subst hki
      rwa [setSlot_slots_self]
    · rw [setSlot_slots_ne hki]
  cases h with
  | keep => rfl
  | pinned | unpinned | evicted => rcases hc with ⟨_, _, _, hc⟩ | ⟨_, _, _, hc⟩ <;> cases hc
  | checkedRtp v => exact write (by rw [SsrcIn.core, SsrcIn.core, ReplayProtection.check_core])
  | checkedRtcp v => exact write (by rw [SsrcIn.core, SsrcIn.core, ReplayProtection.check_core])

theorem unprotectRtp_opened {out : Bytes × Nat} (h : (s.unprotectRtp buf len nowS).1 = some out) :
    ∃ index, s.estimatedIndex buf nowS = some index ∧
      s.cipher.unprotectRtp buf len index = .ok out := by
  by_cases hlen : len < rtpHeaderSize ∨ len > buf.length
  · rw [unprotectRtp, if_pos hlen] at h
    cases h
  cases hslot : s.slotFor (be32 buf 8) nowS with
  | none => simp [unprotectRtp, hlen, hslot] at h
  | some i =>
    simp only [unprotectRtp, if_neg hlen, hslot, admitRtp] at h
    simp only [estimatedIndex, hslot]
    by_cases hfor : (s.slots i).isFor (be32 buf 8) = true
    · simp only [if_pos hfor] at h ⊢
      rcases admitRtp_cases (s.slots i) (be16 buf 2) with ha |
          ⟨index, hest, -, hnone | ⟨hsome, -⟩⟩
      · simp [ha] at h
      · simp [hnone] at h
      · simp only [hsome, setSlot_cipher] at h
        cases hopen : s.cipher.unprotectRtp buf len index with
        | error e => simp [hopen] at h
        | ok out' =>
          simp only [hopen, Option.some.injEq] at h
          exact ⟨index, by rw [hest], h ▸ hopen⟩
    · simp only [if_neg hfor] at h ⊢
      cases hopen : s.cipher.unprotectRtp buf len ⟨0, be16 buf 2⟩ with
      | error e => simp [hopen] at h
      | ok out' =>
        simp only [hopen, Option.some.injEq] at h
        exact ⟨_, rfl, h ▸ hopen⟩

theorem unprotectRtcp_index {cipher : SrtpCipher} {out : Bytes} {n trailer : Nat} {index : UInt32}
    (h : cipher.unprotectRtcp buf len = .ok (out, n, index))
    (htrailer : srtcpTrailerOffset cipher len = some trailer) :
    index = be32 buf trailer &&& srtcpIndexMask := by
  simp only [srtcpTrailerOffset] at htrailer
  split_ifs at htrailer
  cases htrailer
  cases cipher with
  | aesGcm c =>
    simp only [SrtpCipher.unprotectRtcp, AesGcmCipher.unprotectRtcp] at h
    split_ifs at h
    simp only [AesGcmCipher.decryptRtcpPayload] at h
    split at h
    · cases h
    · cases h
      rfl
  | aesCmHmac c =>
    simp only [SrtpCipher.unprotectRtcp, AesCmHmacCipher.unprotectRtcp] at h
    split_ifs at h
    all_goals
      cases h
      rw [Nat.sub_sub]

theorem admitRtcp_cipher {index : UInt32} {admitted : Bool}
    (h : s.admitRtcp i ssrc index = (admitted, s')) : s'.cipher = s.cipher := by
  obtain rfl : (s.admitRtcp i ssrc index).2 = s' := congrArg Prod.snd h
  rw [admitRtcp]
  split <;> rfl

theorem unprotectRtcp_opened {out : Bytes × Nat}
    (h : (s.unprotectRtcp buf len nowS).1 = some out) :
    ∃ trailer, srtcpTrailerOffset s.cipher len = some trailer ∧
      s.cipher.unprotectRtcp buf len = .ok (out.1, out.2, be32 buf trailer &&& srtcpIndexMask) := by
  simp only [unprotectRtcp] at h
  split_ifs at h
  split at h
  · cases h
  rename_i trailer htrailer
  split_ifs at h
  split at h
  · cases h
  split at h
  · cases h
  rename_i s₁ hadm
  rw [admitRtcp_cipher hadm] at h
  split at h
  · cases h
  rename_i hopen
  cases h
  exact ⟨trailer, htrailer, unprotectRtcp_index hopen htrailer ▸ hopen⟩

/-- Over any run of calls on a context no assertion fails, live SSRCs are distinct and few are
pinned. A call about another SSRC leaves a pinned one's slot alone, no packet of an SSRC is accepted
twice while it is pinned, and what does not pass changes nothing but statistics: a packet is
accepted under the index the cipher opened it with, and none is when the cipher answers with an
error. -/
theorem pinned_state_kept (cipher : SrtpCipher) (calls : List Call) :
    ∃ s, run call (fromKeys cipher) calls = some s ∧ s.WellFormed ∧
      s.pinnedCount ≤ inboundPinnedMax ∧
      (∀ i c s', (s.slots i).isPinned = true → c.ssrc ≠ some (s.slots i).ssrc →
        s.call c = some s' → s'.slots i = s.slots i) ∧
      (∀ ssrc later, s.Pins ssrc → .unpin ssrc ∉ later →
        ∃ l, run Receipts.call ⟨s, []⟩ later = some l ∧
          l.ctx.Pins ssrc ∧ (l.accepted.filter fun r => r.ssrc = ssrc).Nodup) ∧
      (∀ buf len nowS, (s.unprotectRtp buf len nowS).1 = none →
        ∀ i, ((s.unprotectRtp buf len nowS).2.slots i).core = (s.slots i).core) ∧
      (∀ buf len nowS, (s.unprotectRtcp buf len nowS).1 = none →
        ∀ i, ((s.unprotectRtcp buf len nowS).2.slots i).core = (s.slots i).core) ∧
      (∀ buf len nowS out, (s.unprotectRtp buf len nowS).1 = some out →
        ∃ index, s.estimatedIndex buf nowS = some index ∧
          cipher.unprotectRtp buf len index = .ok out ∧
          s.accepts (.unprotectRtp buf len nowS) = some (.rtp (be32 buf 8) index)) ∧
      (∀ buf len nowS out, (s.unprotectRtcp buf len nowS).1 = some out →
        ∃ index, cipher.unprotectRtcp buf len = .ok (out.1, out.2, index) ∧
          s.accepts (.unprotectRtcp buf len nowS) = some (.rtcp (be32 buf 4) index)) ∧
      (∀ buf len nowS index e, s.estimatedIndex buf nowS = some index →
        cipher.unprotectRtp buf len index = .error e → (s.unprotectRtp buf len nowS).1 = none) ∧
      (∀ buf len nowS e, cipher.unprotectRtcp buf len = .error e →
        (s.unprotectRtcp buf len nowS).1 = none) := by
  obtain ⟨s, hrun, hs⟩ :=
    run_invariant (fun _ c h => Kept.call h c) (fromKeys_kept cipher) calls
  obtain rfl := hs.cipher_eq
  refine ⟨s, hrun, hs.wellFormed, hs.pinnedCount, ?_, ?_, ?_, ?_, ?_, ?_, ?_, ?_⟩
  · intro i c s' hp hc hs'
    obtain ⟨t, ht, hturn, -⟩ := s.call_turn c
    cases ht.symm.trans hs'
    exact hturn.frame hp hc
  · rintro ssrc later ⟨i, hp, hssrc⟩ hlater
    obtain ⟨R, C, hheld⟩ := hs.held i
    have hstart : Period ssrc i ⟨s, []⟩ :=
      ⟨hs.wellFormed, hp, hssrc, ⟨R, C, hheld, nofun, nofun⟩, nodup_nil⟩
    obtain ⟨l, hl, hperiod⟩ := hstart.run hlater
    exact ⟨l, hl, ⟨i, hperiod.pinned, hperiod.ssrc_eq⟩, hperiod.nodup⟩
  · intro buf len nowS hnone
    have hturn := s.turn_unprotectRtp buf len nowS
    rw [accepts, hnone] at hturn
    exact hturn.refused (.inl ⟨_, _, _, rfl⟩)
  · intro buf len nowS hnone
    have hturn := s.turn_unprotectRtcp buf len nowS
    rw [accepts, hnone] at hturn
    exact hturn.refused (.inr ⟨_, _, _, rfl⟩)
  · intro buf len nowS out hout
    obtain ⟨index, hindex, hopen⟩ := unprotectRtp_opened hout
    exact ⟨index, hindex, hopen, by simp [accepts, hout, hindex]⟩
  · intro buf len nowS out hout
    obtain ⟨trailer, htrailer, hopen⟩ := unprotectRtcp_opened hout
    exact ⟨_, hopen, by simp [accepts, hout, htrailer]⟩
  · intro buf len nowS index e hindex he
    refine Option.eq_none_iff_forall_ne_some.2 fun out hout => ?_
    obtain ⟨index', hindex', hopen⟩ := unprotectRtp_opened hout
    cases hindex.symm.trans hindex'
    cases he.symm.trans hopen
  · intro buf len nowS e he
    refine Option.eq_none_iff_forall_ne_some.2 fun out hout => ?_
    obtain ⟨trailer, -, hopen⟩ := unprotectRtcp_opened hout
    cases he.symm.trans hopen

end SrtpInbound
end NexusSfu.Srtp
