import NexusSfu.Dataplane.Forward
import NexusSfu.Srtp.Inbound
import NexusSfu.Srtp.Nonce

namespace NexusSfu.Dataplane

open Base Srtp List

structure Sent where
  pub : PacketIndex
  out : PacketIndex
  deriving DecidableEq

structure Arrival where
  src : Bytes
  chosen : Bool
  now : Nat
  nowS : Nat
  buf : Bytes
  length_buf : buf.length = bufSize

structure Stream where
  inbound : SsrcIn
  sub : Subscription
  outbound : SrtpOutbound
  rng : Rng
  log : List Sent

namespace Stream

structure Start (s : Stream) : Prop where
  inbound : ∃ ssrc nowS, s.inbound = .fresh ssrc nowS
  rewrite : s.sub.rewrite = .new s.sub.rewrite.outSsrc
  outbound : s.outbound.WellFormed
  slot : ∃ i, s.outbound.slots i = .fresh s.sub.rewrite.outSsrc
  log : s.log = []

variable (s : Stream)

def room : Nat := bufSize - s.outbound.cipher.tagLen - 4

def used (hdr : Rtp.RtpHeader) (a : Arrival) : List PacketIndex :=
  match rewrite a.src hdr s.sub s.rng a.now (a.buf.take s.room) with
  | (.error _, _) => []
  | (.ok (dst, n, _), _) => (s.outbound.rtpUse (dst ++ a.buf.drop s.room) n).map Prod.snd

def forwarded (hdr : Rtp.RtpHeader) (a : Arrival) : Forwarded :=
  forwardPacket s.sub s.outbound s.rng a.src hdr a.now a.buf

def forward (pub : PacketIndex) (hdr : Rtp.RtpHeader) (a : Arrival) : Stream :=
  let f := s.forwarded hdr a
  { s with
    sub := f.sub
    outbound := f.outbound
    rng := f.rng
    log := (s.used hdr a).map (⟨pub, ·⟩) ++ s.log }

def reaches (a : Arrival) : Option (PacketIndex × Rtp.RtpHeader) :=
  match (s.inbound.admitRtp (be16 a.src 2)).1, Rtp.RtpHeader.parse a.src with
  | some pub, .ok hdr => if a.chosen then some (pub, hdr) else none
  | _, _ => none

def accept (a : Arrival) : Stream :=
  let seq := be16 a.src 2
  match s.inbound.admitRtp seq with
  | (none, inbound) => { s with inbound }
  | (some pub, inbound) => { s with inbound := inbound.acceptRtp pub seq a.nowS }

def step (a : Arrival) : Stream :=
  match s.reaches a with
  | none => s.accept a
  | some (pub, hdr) => (s.accept a).forward pub hdr a

def Newest (pub : PacketIndex) : Prop := ∀ e ∈ s.log, e.pub.value < pub.value

end Stream

section Distance

variable {x y z : UInt16}

theorem asI16_bounds (x : UInt16) : -32768 ≤ asI16 x ∧ asI16 x < 32768 := by
  have hx := x.toNat_lt
  simp only [asI16, UInt16.lt_iff_toNat_lt, UInt16.reduceToNat]
  split_ifs <;> omega

theorem toNat_of_asI16_sub (x y : UInt16) :
    (x.toNat : Int) = (y.toNat + asI16 (x - y)) % 65536 := by
  have hx := x.toNat_lt
  have hy := y.toNat_lt
  simp only [asI16, UInt16.lt_iff_toNat_lt, UInt16.toNat_sub, UInt16.reduceToNat]
  split_ifs <;> omega

theorem asI16_one : asI16 1 = 1 := rfl

end Distance

structure Synced (r : RewriteState) (x : SsrcOut) : Prop where
  initialized : x.roc.initialized = true
  held : ∃ S, x.sent.Holds S ∧ S.Nonempty
  highest : x.sent.highest = x.roc.highestIndex
  last : r.lastOutSeq = x.roc.highestSeq
  offset : r.lastOutSeq = r.lastInSeq + r.seqOffset

def Aligned (r : RewriteState) (x : SsrcOut) : Prop :=
  r.started = false ∧ x.roc = .new ∧ x.sent.Holds ∅ ∨ r.started = true ∧ Synced r x

namespace Aligned

variable {r : RewriteState} {x : SsrcOut} {hdr : Rtp.RtpHeader} {clockRate : UInt32}
  {rng rng' : Rng} {now : Nat} {adv : Advance}

theorem synced (h : Aligned r x) (hst : r.started = true) : Synced r x := by
  rcases h with ⟨hno, -⟩ | ⟨-, hs⟩
  · rw [hst] at hno
    cases hno
  · exact hs

theorem unsent (h : Aligned r x) (hst : r.started = false) : x.roc = .new ∧ x.sent.Holds ∅ := by
  rcases h with ⟨-, h⟩ | ⟨hno, -⟩
  · exact h
  · rw [hst] at hno
    cases hno

def place (r : RewriteState) (seq : UInt16) (now : Nat) : Int :=
  if r.inStep seq && !r.idle now then r.delta seq else 1

theorem place_bounds (r : RewriteState) (seq : UInt16) (now : Nat) :
    -64 ≤ place r seq now ∧ place r seq now ≤ 16384 := by
  rw [place]
  split_ifs with h
  · rw [RewriteState.inStep, Bool.and_eq_true, decide_eq_true_eq] at h
    exact h.1
  · omega

theorem outSeq_sub (hs : Synced r x) (hst : r.started = true)
    (hoff : offsets r hdr clockRate rng now = ((adv.seqOffset, adv.tsOffset, adv.rebased), rng'))
    (hout : adv.outSeq = hdr.sequenceNumber + adv.seqOffset) :
    asI16 (adv.outSeq - r.lastOutSeq) = place r hdr.sequenceNumber now ∧
      adv.rebased = !(r.inStep hdr.sequenceNumber && !r.idle now) ∧
      (adv.rebased = false → adv.seqOffset = r.seqOffset) := by
  have hlast := hs.offset
  simp only [offsets, hst, Bool.not_true, Bool.false_eq_true, if_false] at hoff
  simp only [place]
  split_ifs at hoff with hkeep
  · simp only [Prod.mk.injEq] at hoff
    obtain ⟨⟨hso, -, hreb⟩, -⟩ := hoff
    have hsub : adv.outSeq - r.lastOutSeq = hdr.sequenceNumber - r.lastInSeq := by
      rw [hout, ← hso, hlast]
      grind
    simp [hkeep, hsub, RewriteState.delta, ← hreb, hso]
  · simp only [Prod.mk.injEq] at hoff
    obtain ⟨⟨hso, -, hreb⟩, -⟩ := hoff
    have hsub : adv.outSeq - r.lastOutSeq = 1 := by
      rw [hout, ← hso]
      grind
    simp [hkeep, hsub, asI16_one, ← hreb]

theorem outSeq_toNat (hs : Synced r x) (hst : r.started = true)
    (hoff : offsets r hdr clockRate rng now = ((adv.seqOffset, adv.tsOffset, adv.rebased), rng'))
    (hout : adv.outSeq = hdr.sequenceNumber + adv.seqOffset) : (adv.outSeq.toNat : Int) =
      (x.roc.highestSeq.toNat + place r hdr.sequenceNumber now) % 65536 := by
  rw [← (outSeq_sub hs hst hoff hout).1, ← hs.last]
  exact toNat_of_asI16_sub adv.outSeq r.lastOutSeq

theorem place_nonneg (hs : Synced r x) {seq : UInt16}
    (hlate : 0 < x.roc.roc ∨ 0 ≤ r.lastOutSeq.toNat + place r seq now) :
    0 ≤ x.roc.highestIndex + place r seq now := by
  obtain ⟨hlo, -⟩ := place_bounds r seq now
  rw [RocState.highestIndex]
  cases hlate with
  | inl h =>
    have : 0 < x.roc.roc.toNat := h
    omega
  | inr h =>
    rw [hs.last] at h
    omega

theorem commit_markSent (h : Aligned r x) {index : PacketIndex}
    (hoff : offsets r hdr clockRate rng now = ((adv.seqOffset, adv.tsOffset, adv.rebased), rng'))
    (hin : adv.inSeq = hdr.sequenceNumber) (hout : adv.outSeq = hdr.sequenceNumber + adv.seqOffset)
    (hest : x.roc.estimateIndex adv.outSeq = .ok index)
    (hnear : r.started = true → x.roc.Near index ∧
      (index.value : Int) = x.roc.highestIndex + place r hdr.sequenceNumber now) :
    Aligned (commit r adv now) ((x.checkSent index).2.markSent index adv.outSeq) := by
  have hseq := RocState.estimateIndex_seq hest
  rcases h with ⟨hst, hroc, hheld⟩ | ⟨hst, hs⟩
  · have hindex : index = ⟨0, adv.outSeq⟩ := by
      rw [hroc] at hest
      exact (Except.ok.inj hest).symm
    have hcommit : commit r adv now = { r with
        seqOffset := adv.seqOffset, tsOffset := adv.tsOffset, started := true
        lastOutSeq := adv.outSeq, lastOutTs := adv.outTs, lastOutAt := some now
        lastInSeq := adv.inSeq } := by
      simp [commit, hst]
    have hup : (x.roc.update adv.outSeq).2 = ⟨0, adv.outSeq, true⟩ := by
      rw [hroc]
      rfl
    rw [hcommit]
    refine .inr ⟨rfl,
      ⟨?_, ⟨_, hheld.check_accept _, Set.insert_nonempty _ _⟩, ?_, ?_, ?_⟩⟩
    · simp only [SsrcOut.markSent, SsrcOut.checkSent, hup]
    · have hhigh := hheld.highest_accept_first index.value
      simp only [SsrcOut.markSent, SsrcOut.checkSent, hup, hhigh]
      simp [hindex, RocState.highestIndex, PacketIndex.value]
    · simp only [SsrcOut.markSent, SsrcOut.checkSent, hup]
    · simp only [hin, hout]
  · obtain ⟨hnear, hvalue⟩ := hnear hst
    obtain ⟨hsub, hreb, hoffset⟩ := outSeq_sub hs hst hoff hout
    obtain ⟨S, hheld, hS⟩ := hs.held
    have hindex := RocState.update_near hs.initialized hnear
    rw [hseq] at hindex
    have hhigh := hheld.highest_accept index.value hS
    rw [hs.highest] at hhigh
    have hlast := RocState.highestSeq_toNat (x.roc.update adv.outSeq).2
    have hlastOld := RocState.highestSeq_toNat x.roc
    have hout' : adv.outSeq.toNat = index.value % 65536 := by
      have := index.seq.toNat_lt
      rw [← hseq, PacketIndex.value]
      omega
    by_cases hnewer : 0 < place r hdr.sequenceNumber now
    · have hcommit : commit r adv now = { r with
          seqOffset := adv.seqOffset, tsOffset := adv.tsOffset, started := true
          lastOutSeq := adv.outSeq, lastOutTs := adv.outTs, lastOutAt := some now
          lastInSeq := adv.inSeq } := by
        simp [commit, hsub, hnewer]
      rw [hcommit]
      refine .inr ⟨rfl, ⟨RocState.update_initialized _ _,
        ⟨_, hheld.check_accept _, Set.insert_nonempty _ _⟩, ?_, ?_, ?_⟩⟩
      · simp only [SsrcOut.markSent, SsrcOut.checkSent, hhigh, hindex, max_comm]
      · apply UInt16.toNat_inj.1
        have hmax : max x.roc.highestIndex index.value = index.value := by omega
        simp only [SsrcOut.markSent, SsrcOut.checkSent, hlast, hindex, hout', hmax]
      · simp only [hin, hout]
    · have hnot : adv.rebased = false := by
        by_contra h
        have hkeep : (r.inStep hdr.sequenceNumber && !r.idle now) = false := by simpa [hreb] using h
        simp [place, hkeep] at hnewer
      have hcommit : commit r adv now = { r with
          seqOffset := adv.seqOffset, tsOffset := adv.tsOffset, started := true } := by
        simp [commit, hst, hsub, hnewer, hnot]
      rw [hcommit]
      refine .inr ⟨rfl, ⟨RocState.update_initialized _ _,
        ⟨_, hheld.check_accept _, Set.insert_nonempty _ _⟩, ?_, ?_, ?_⟩⟩
      · simp only [SsrcOut.markSent, SsrcOut.checkSent, hhigh, hindex, max_comm]
      · apply UInt16.toNat_inj.1
        have hmax : max x.roc.highestIndex index.value = x.roc.highestIndex := by omega
        simp only [SsrcOut.markSent, SsrcOut.checkSent, hlast, hindex, hs.last, hlastOld, hmax]
      · simp only [hoffset hnot, hs.offset]

theorem commit_fields (r : RewriteState) (adv : Advance) (now : Nat) :
    (commit r adv now).outSsrc = r.outSsrc ∧ (commit r adv now).started = true := by
  simp only [commit]
  split_ifs <;> exact ⟨rfl, rfl⟩

theorem commit_first (hst : r.started = false) : (commit r adv now).lastInSeq = adv.inSeq := by
  simp [commit, hst]

theorem commit_next (hs : Synced r x) (hst : r.started = true)
    (hoff : offsets r hdr clockRate rng now = ((adv.seqOffset, adv.tsOffset, adv.rebased), rng'))
    (hout : adv.outSeq = hdr.sequenceNumber + adv.seqOffset) : (commit r adv now).lastInSeq =
      if 0 < place r hdr.sequenceNumber now then adv.inSeq else r.lastInSeq := by
  obtain ⟨hsub, hreb, -⟩ := outSeq_sub hs hst hoff hout
  by_cases hnewer : 0 < place r hdr.sequenceNumber now
  · simp [commit, hsub, hnewer]
  · have hkeep : (r.inStep hdr.sequenceNumber && !r.idle now) = true := by
      by_contra h
      simp [place, h] at hnewer
    simp [commit, hst, hsub, hnewer, hreb, hkeep]

theorem checkSent (h : Aligned r x) (index : PacketIndex) : Aligned r (x.checkSent index).2 := by
  obtain ⟨hh, -⟩ := ReplayProtection.check_snd x.sent index.value
  rcases h with ⟨hst, hroc, hheld⟩ | ⟨hst, hs⟩
  · exact .inl ⟨hst, hroc, hheld.check _⟩
  · obtain ⟨S, hheld, hS⟩ := hs.held
    exact .inr ⟨hst, hs.initialized, ⟨S, hheld.check _, hS⟩, hh.trans hs.highest,
      hs.last, hs.offset⟩

end Aligned

namespace Stream

variable {s : Stream} {a : Arrival} {pub : PacketIndex} {hdr : Rtp.RtpHeader}

structure Inv (s : Stream) : Prop where
  wf : s.outbound.WellFormed
  aligned : ∃ i, s.outbound.slotOf s.sub.rewrite.outSsrc = some i ∧
    Aligned s.sub.rewrite (s.outbound.slots i)

theorem Start.inv (h : s.Start) : s.Inv := by
  obtain ⟨i, hi⟩ := h.slot
  refine ⟨h.outbound, i, h.outbound.slotOf_eq (by rw [hi]; rfl) (by rw [hi]; rfl), ?_⟩
  rw [hi, h.rewrite]
  exact .inl ⟨rfl, rfl, ReplayProtection.new_holds⟩

theorem rewritten {dst : Bytes} {n : Nat} {adv : Advance} {rng : Rng}
    (hp : Rtp.RtpHeader.parse a.src = .ok hdr)
    (h : rewrite a.src hdr s.sub s.rng a.now (a.buf.take s.room) = (.ok (dst, n, adv), rng)) :
    rtpHeaderSize ≤ n ∧ n ≤ maxPacketSize ∧
      n + s.outbound.cipher.tagLen ≤ (dst ++ a.buf.drop s.room).length ∧
      be16 (dst ++ a.buf.drop s.room) 2 = adv.outSeq ∧
        be32 (dst ++ a.buf.drop s.room) 8 = s.sub.rewrite.outSsrc ∧
      ∃ x, RtpHeader.parse ((dst ++ a.buf.drop s.room).take n) = some x := by
  have hbuf := a.length_buf
  have htag := s.outbound.cipher.tagLen_le
  have hsize : bufSize = 2048 ∧ srtpAuthTagSize = 16 ∧ maxPacketSize = 8192 ∧
      rtpHeaderSize = 12 :=
    ⟨rfl, rfl, rfl, rfl⟩
  have hroom : s.room = 2044 - s.outbound.cipher.tagLen := by simp only [room]; omega
  have htake : (a.buf.take s.room).length = s.room := by rw [length_take]; omega
  obtain ⟨hlen, hmin, hmax, hseq, hssrc, x, hx⟩ := rewrite_wire hp (by omega) h
  refine ⟨by omega, by omega, ?_, ?_, ?_, x, ?_⟩
  · rw [length_append, length_drop]
    omega
  · rw [be16, slice_append_left (by omega)]
    exact hseq
  · rw [be32, slice_append_left (by omega)]
    exact hssrc
  · rw [take_append_of_le_length (by omega)]
    exact hx

def outRoc (s : Stream) : UInt32 :=
  match s.outbound.slotOf s.sub.rewrite.outSsrc with
  | some i => (s.outbound.slots i).roc.roc
  | none => 0

def Keeps (s : Stream) (hdr : Rtp.RtpHeader) (now : Nat) : Prop :=
  s.sub.rewrite.started = true ∧
    (s.sub.rewrite.inStep hdr.sequenceNumber && !s.sub.rewrite.idle now) = true

/-- A packet read as late is not placed below outbound sequence number 0 before the first
rollover. -/
def LateFits (s : Stream) (hdr : Rtp.RtpHeader) (now : Nat) : Prop :=
  s.Keeps hdr now → 0 < s.outRoc ∨
    0 ≤ s.sub.rewrite.lastOutSeq.toNat + s.sub.rewrite.delta hdr.sequenceNumber

def top (s : Stream) : Nat :=
  match s.outbound.slotOf s.sub.rewrite.outSsrc with
  | some i => (s.outbound.slots i).roc.highestIndex
  | none => 0

structure NotSent (s : Stream) (pub : PacketIndex) (hdr : Rtp.RtpHeader) (a : Arrival) : Prop where
  used : s.used hdr a = []
  inv : (s.forward pub hdr a).Inv
  rewrite : (s.forward pub hdr a).sub.rewrite = s.sub.rewrite
  top : (s.forward pub hdr a).top = s.top

structure IsSent (s : Stream) (pub : PacketIndex) (hdr : Rtp.RtpHeader) (a : Arrival)
    (index : PacketIndex) : Prop where
  used : s.used hdr a = [index]
  inv : (s.forward pub hdr a).Inv
  started : (s.forward pub hdr a).sub.rewrite.started = true
  first : s.sub.rewrite.started = false →
    (s.forward pub hdr a).top = index.value ∧
      (s.forward pub hdr a).sub.rewrite.lastInSeq = hdr.sequenceNumber
  next : s.sub.rewrite.started = true →
    (index.value : Int) = s.top + Aligned.place s.sub.rewrite hdr.sequenceNumber a.now ∧
      (s.forward pub hdr a).top = max s.top index.value ∧
      (s.forward pub hdr a).sub.rewrite.lastInSeq =
        if 0 < Aligned.place s.sub.rewrite hdr.sequenceNumber a.now then hdr.sequenceNumber
        else s.sub.rewrite.lastInSeq

theorem forward_of_error (pub : PacketIndex) {e : RewriteError} {rng : Rng}
    (h : rewrite a.src hdr s.sub s.rng a.now (a.buf.take s.room) = (.error e, rng)) :
    s.used hdr a = [] ∧ (s.forward pub hdr a).sub = s.sub ∧
      (s.forward pub hdr a).outbound = s.outbound ∧
      (s.forwarded hdr a).result ≠ .error .srtpProtect := by
  have hroom : bufSize - s.outbound.cipher.tagLen - 4 = s.room := rfl
  cases e <;> simp [used, forward, forwarded, forwardPacket, hroom, h]

theorem forward_of_none (pub : PacketIndex) {dst : Bytes} {n : Nat} {adv : Advance} {rng : Rng}
    {outbound : SrtpOutbound}
    (h : rewrite a.src hdr s.sub s.rng a.now (a.buf.take s.room) = (.ok (dst, n, adv), rng))
    (hp : s.outbound.protectRtp (dst ++ a.buf.drop s.room) n = (none, outbound)) :
    s.used hdr a = [] ∧ (s.forward pub hdr a).sub = s.sub ∧
      (s.forward pub hdr a).outbound = outbound := by
  have hroom : bufSize - s.outbound.cipher.tagLen - 4 = s.room := rfl
  simp [used, forward, forwarded, forwardPacket, hroom, h, hp, SrtpOutbound.rtpUse]

theorem forward_of_some (pub : PacketIndex) {dst : Bytes} {n : Nat} {adv : Advance} {rng : Rng}
    {outbound : SrtpOutbound} {out : Bytes × Nat} {slot : Fin outboundSsrcSlots}
    {index : PacketIndex}
    (h : rewrite a.src hdr s.sub s.rng a.now (a.buf.take s.room) = (.ok (dst, n, adv), rng))
    (hp : s.outbound.protectRtp (dst ++ a.buf.drop s.room) n = (some out, outbound))
    (hadm : (s.outbound.admitRtp (dst ++ a.buf.drop s.room) n).1 = some (slot, index)) :
    s.used hdr a = [index] ∧
      (s.forward pub hdr a).sub.rewrite = commit s.sub.rewrite adv a.now ∧
      (s.forward pub hdr a).outbound = outbound ∧
        (s.forwarded hdr a).result = .ok (out.1, out.2, adv.rebased) := by
  have hroom : bufSize - s.outbound.cipher.tagLen - 4 = s.room := rfl
  simp [used, forward, forwarded, forwardPacket, hroom, h, hp, hadm, SrtpOutbound.rtpUse]

theorem top_eq {i : Fin outboundSsrcSlots} (hi : s.outbound.slotOf s.sub.rewrite.outSsrc = some i) :
    s.top = (s.outbound.slots i).roc.highestIndex := by
  rw [top, hi]

theorem outRoc_eq {i : Fin outboundSsrcSlots}
    (hi : s.outbound.slotOf s.sub.rewrite.outSsrc = some i) :
    s.outRoc = (s.outbound.slots i).roc.roc := by
  rw [outRoc, hi]

theorem notSent_of_same (h : s.Inv) (hu : s.used hdr a = [])
    (hsub : (s.forward pub hdr a).sub = s.sub)
    (hout : (s.forward pub hdr a).outbound = s.outbound) : s.NotSent pub hdr a where
  used := hu
  inv := ⟨hout ▸ h.wf, by rw [hout, hsub]; exact h.aligned⟩
  rewrite := by rw [hsub]
  top := by rw [top, top, hout, hsub]

theorem notSent_of_checkSent (h : s.Inv) (hu : s.used hdr a = []) {slot : Fin outboundSsrcSlots}
    {index : PacketIndex} (hsub : (s.forward pub hdr a).sub = s.sub)
    (hout : (s.forward pub hdr a).outbound =
      s.outbound.setSlot slot ((s.outbound.slots slot).checkSent index).2) :
    s.NotSent pub hdr a := by
  obtain ⟨i, hi, hal⟩ := h.aligned
  obtain ⟨hlive, hssrc⟩ := SrtpOutbound.slotOf_some hi
  have hwf : (s.outbound.setSlot slot ((s.outbound.slots slot).checkSent index).2).WellFormed :=
    h.wf.setSlot fun hl => ⟨hl, rfl⟩
  generalize ho : s.outbound.setSlot slot ((s.outbound.slots slot).checkSent index).2 = o
    at hwf hout
  have hslot : Aligned s.sub.rewrite (o.slots i) ∧ (o.slots i).live = true ∧
      (o.slots i).ssrc = s.sub.rewrite.outSsrc ∧ (o.slots i).roc = (s.outbound.slots i).roc := by
    by_cases he : i = slot
    · subst he
      rw [← ho, SrtpOutbound.setSlot_slots_self]
      exact ⟨hal.checkSent index, hlive, hssrc, rfl⟩
    · rw [← ho, SrtpOutbound.setSlot_slots_ne he]
      exact ⟨hal, hlive, hssrc, rfl⟩
  obtain ⟨hal', hlive', hssrc', hroc'⟩ := hslot
  have hi' := hwf.slotOf_eq hlive' hssrc'
  refine ⟨hu, ⟨hout ▸ hwf,
    i, by rw [hout, hsub]; exact hi', by rw [hout, hsub]; exact hal'⟩, by rw [hsub], ?_⟩
  rw [top_eq (i := i) (by rw [hout, hsub]; exact hi'), top_eq hi, hout, hroc']

theorem place_fits (hst : s.sub.rewrite.started = true) (hlate : s.LateFits hdr a.now) :
    0 < s.outRoc ∨ 0 ≤ s.sub.rewrite.lastOutSeq.toNat + Aligned.place s.sub.rewrite
      hdr.sequenceNumber a.now := by
  rw [Aligned.place]
  split_ifs with hkeep
  · exact hlate ⟨hst, hkeep⟩
  · exact .inr (by omega)

theorem isSent_of_markSent {slot : Fin outboundSsrcSlots} {index : PacketIndex} {adv : Advance}
    {rng : Rng} (h : s.Inv) (hslot : s.outbound.slotOf s.sub.rewrite.outSsrc = some slot)
    (hu : s.used hdr a = [index])
    (hrew : (s.forward pub hdr a).sub.rewrite = commit s.sub.rewrite adv a.now)
    (hout : (s.forward pub hdr a).outbound = s.outbound.setSlot slot
      (((s.outbound.slots slot).checkSent index).2.markSent index adv.outSeq))
    (hoff : offsets s.sub.rewrite hdr s.sub.clockRate s.rng a.now =
      ((adv.seqOffset, adv.tsOffset, adv.rebased), rng)) (hin : adv.inSeq = hdr.sequenceNumber)
    (hseq : adv.outSeq = hdr.sequenceNumber + adv.seqOffset)
    (hest : (s.outbound.slots slot).roc.estimateIndex adv.outSeq = .ok index)
    (hok : ((s.outbound.slots slot).sent.check index.value).1 = .ok ())
    (hlate : s.LateFits hdr a.now) : s.IsSent pub hdr a index := by
  obtain ⟨i, hi, hal⟩ := h.aligned
  obtain rfl : i = slot := Option.some.inj (hi.symm.trans hslot)
  obtain ⟨hlive, hssrc⟩ := SrtpOutbound.slotOf_some hi
  obtain ⟨hssrc', hst'⟩ := Aligned.commit_fields s.sub.rewrite adv a.now
  have hnear : s.sub.rewrite.started = true → (s.outbound.slots i).roc.Near index ∧
      (index.value : Int) = (s.outbound.slots i).roc.highestIndex +
        Aligned.place s.sub.rewrite hdr.sequenceNumber a.now := by
    intro hst
    have hs := hal.synced hst
    obtain ⟨hlo, hhi⟩ := Aligned.place_bounds s.sub.rewrite hdr.sequenceNumber a.now
    exact (RocState.estimateIndex_at hs.initialized (Aligned.outSeq_toNat hs hst hoff hseq)
      (by omega) (Aligned.place_nonneg hs (outRoc_eq hi ▸ place_fits hst hlate)) hest).symm
  have hwf := h.wf.setSlot (i := i)
    (x := ((s.outbound.slots i).checkSent index).2.markSent index adv.outSeq)
    fun hl => ⟨hl, rfl⟩
  have hi' : (s.forward pub hdr a).outbound.slotOf (s.forward pub hdr a).sub.rewrite.outSsrc =
      some i := by
    rw [hout, hrew, hssrc']
    apply hwf.slotOf_eq <;> rw [SrtpOutbound.setSlot_slots_self]
    exacts [hlive, hssrc]
  have htop : (s.forward pub hdr a).top =
      ((s.outbound.slots i).roc.update adv.outSeq).2.highestIndex := by
    rw [top_eq hi', hout, SrtpOutbound.setSlot_slots_self]
    rfl
  refine ⟨hu, ⟨hout ▸ hwf, i, hi', ?_⟩, hrew ▸ hst', fun hst => ?_, fun hst => ?_⟩
  · rw [hout, hrew, SrtpOutbound.setSlot_slots_self]
    exact hal.commit_markSent hoff hin hseq hest hnear
  · rw [htop, hrew, Aligned.commit_first hst, hin]
    have hnew := (hal.unsent hst).1
    rw [hnew] at hest ⊢
    obtain rfl := Except.ok.inj hest
    exact ⟨rfl, rfl⟩
  · obtain ⟨hnear, hv⟩ := hnear hst
    have hmax := RocState.update_near (hal.synced hst).initialized hnear
    rw [RocState.estimateIndex_seq hest] at hmax
    rw [htop, top_eq hi, hrew, Aligned.commit_next (hal.synced hst) hst hoff hseq, hin]
    exact ⟨hv, hmax, rfl⟩

theorem forward_cases (pub : PacketIndex) (h : s.Inv) (hp : Rtp.RtpHeader.parse a.src = .ok hdr)
    (hlate : s.LateFits hdr a.now) :
    s.NotSent pub hdr a ∨ ∃ index, s.IsSent pub hdr a index := by
  cases hrw : rewrite a.src hdr s.sub s.rng a.now (a.buf.take s.room) with
  | mk res rng =>
    cases res with
    | error e =>
      obtain ⟨hu, hsub, hout, -⟩ := forward_of_error pub hrw
      exact .inl (notSent_of_same h hu hsub hout)
    | ok r =>
      obtain ⟨dst, n, adv⟩ := r
      obtain ⟨hoff, hin, houtSeq, -⟩ := rewrite_ok hrw
      obtain ⟨-, -, -, hseq, hssrc, -⟩ := rewritten hp hrw
      rcases SrtpOutbound.protectRtp_cases s.outbound (dst ++ a.buf.drop s.room) n with
        ⟨o, ho, hcase⟩ | ⟨slot, index, out, hslot, hest, hok, -, hadm, ho⟩
      · obtain ⟨hu, hsub, hout⟩ := forward_of_none pub hrw ho
        rcases hcase with rfl | ⟨slot, index, rfl⟩
        · exact .inl (notSent_of_same h hu hsub hout)
        · exact .inl (notSent_of_checkSent h hu hsub hout)
      · obtain ⟨hu, hrew, hout, -⟩ := forward_of_some pub hrw ho hadm
        rw [hssrc] at hslot
        rw [hseq] at hest hout
        exact .inr ⟨index,
          isSent_of_markSent h hslot hu hrew hout hoff hin houtSeq hest hok hlate⟩

theorem accept_eq (s : Stream) (a : Arrival) : ∃ inbound, s.accept a = { s with inbound } := by
  simp only [accept]
  split <;> exact ⟨_, rfl⟩

theorem reaches_some (h : s.reaches a = some (pub, hdr)) :
    (s.inbound.admitRtp (be16 a.src 2)).1 = some pub ∧ Rtp.RtpHeader.parse a.src = .ok hdr := by
  simp only [reaches] at h
  split at h
  · rename_i hadm hparse
    split_ifs at h
    cases h
    exact ⟨hadm, hparse⟩
  · cases h

theorem step_cases (s : Stream) (a : Arrival) : s.reaches a = none ∧ s.step a = s.accept a ∨
    ∃ pub hdr, s.reaches a = some (pub, hdr) ∧ s.step a = (s.accept a).forward pub hdr a := by
  cases h : s.reaches a with
  | none => exact .inl ⟨rfl, by rw [step, h]⟩
  | some p => exact .inr ⟨p.1, p.2, rfl, by rw [step, h]⟩

section Sample

def packetAt (seq : UInt16) (now : Nat) : Arrival where
  src := [0x80, 96] ++ beBytes 2 seq.toNat ++ [0, 0, 0, 0, 0, 0, 0, 7]
  chosen := true
  now := now
  nowS := 0
  buf := List.replicate bufSize 0
  length_buf := length_replicate

def streamFrom (seed : UInt64) : Stream where
  inbound := .fresh 7 0
  sub :=
    { id := ⟨1, firstId_ne_zero⟩
      session := ⟨0, 0⟩
      track := ⟨0, 0⟩
      rewrite := .new 1
      extMap := ⟨Vector.replicate 15 0, 0⟩
      pubMid := 0
      clockRate := 90000
      ptMap := ⟨[(96, 96)], by simp, by simp, by simp⟩
      mid := ⟨[1], by decide, by decide⟩
      sentPackets := 0
      sentOctets := 0 }
  outbound := (SrtpOutbound.fromKeys zeroCipher 1).assign 0 1
  rng := ⟨seed⟩
  log := []

theorem streamFrom_start (seed : UInt64) : (streamFrom seed).Start where
  inbound := ⟨7, 0, rfl⟩
  rewrite := rfl
  outbound := (SrtpOutbound.fromKeys_wellFormed zeroCipher 1).assign (by decide) (by decide)
  slot := ⟨0, rfl⟩
  log := rfl

end Sample
end Stream
end NexusSfu.Dataplane
