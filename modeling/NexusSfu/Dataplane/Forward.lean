import Mathlib.Tactic.IntervalCases
import NexusSfu.Dataplane.Rewrite
import NexusSfu.Srtp.Outbound

namespace NexusSfu.Dataplane

open Base Srtp List

abbrev bufSize : Nat := 2048

inductive ForwardDrop
  | unmappedPt
  | tooLarge
  | srtpProtect
  deriving DecidableEq, Repr

structure Forwarded where
  sub : Subscription
  outbound : SrtpOutbound
  rng : Rng
  result : Except ForwardDrop (Bytes × Nat × Bool)

/-- The rewrite state and the send counters advance only when the packet was protected. -/
def forwardPacket (sub : Subscription) (outbound : SrtpOutbound) (rng : Rng) (src : Bytes)
    (header : Rtp.RtpHeader) (now : Nat) (buf : Bytes) : Forwarded :=
  let room := bufSize - outbound.cipher.tagLen - 4
  match rewrite src header sub rng now (buf.take room) with
  | (.error .unmappedPt, rng) => ⟨sub, outbound, rng, .error .unmappedPt⟩
  | (.error .tooLarge, rng) => ⟨sub, outbound, rng, .error .tooLarge⟩
  | (.ok (dst, rtpLen, advance), rng) =>
    match outbound.protectRtp (dst ++ buf.drop room) rtpLen with
    | (none, outbound) => ⟨sub, outbound, rng, .error .srtpProtect⟩
    | (some (out, n), outbound) =>
      let sub := { sub with
        rewrite := commit sub.rewrite advance now
        sentPackets := sub.sentPackets + 1
        sentOctets := sub.sentOctets + UInt32.ofNat (header.payloadLen src.length) }
      ⟨sub, outbound, rng, .ok (out, n, advance.rebased)⟩

section Wire

variable {src dst dst' : Bytes} {hdr : Rtp.RtpHeader} {sub : Subscription} {start stop words : Nat}

theorem writeElement_ok {id : UInt8} {data : Bytes}
    (h : writeElement dst start id data = .ok (dst', stop)) :
    dst'.length = dst.length ∧ start < stop ∧ stop ≤ dst.length := by
  simp only [writeElement] at h
  split_ifs at h with hfit
  cases h
  have hlen : ((id <<< 4 ||| (UInt8.ofNat data.length - 1)) :: data).length = 1 + data.length := by
    rw [length_cons, Nat.add_comm]
  exact ⟨length_writeAt (by omega), by omega, by omega⟩

theorem writeElements_ok {es : List Rtp.Element}
    (h : writeElements sub es (dst, start) = .ok (dst', stop)) :
    dst'.length = dst.length ∧ start ≤ stop := by
  induction es generalizing dst start with
  | nil =>
    cases h
    exact ⟨rfl, le_rfl⟩
  | cons e es ih =>
    simp only [writeElements] at h
    split_ifs at h
    · exact ih h
    · split at h
      · cases h
      · rename_i r hr
        obtain ⟨d, t⟩ := r
        obtain ⟨hlen, hlt, -⟩ := writeElement_ok hr
        obtain ⟨hlen', hle⟩ := ih h
        exact ⟨hlen'.trans hlen, hlt.le.trans hle⟩

theorem writeExtensions_ok (h : writeExtensions src hdr sub dst start = .ok (dst', stop)) :
    dst'.length = dst.length ∧
      (stop = start ∨ ∃ words, stop = start + 4 + words * 4 ∧ stop ≤ dst.length ∧
        slice dst' (start + 2) 2 = beBytes 2 words) := by
  simp only [writeExtensions] at h
  split at h
  · cases h
  rename_i d t hels
  obtain ⟨hlen, hle⟩ := writeElements_ok hels
  split at h
  · cases h
  rename_i d' t' hmid
  have hmid' : d'.length = d.length ∧ t ≤ t' := by
    split_ifs at hmid
    · obtain ⟨hl, hlt, -⟩ := writeElement_ok hmid
      exact ⟨hl, hlt.le⟩
    · cases hmid
      exact ⟨rfl, le_rfl⟩
  split_ifs at h with hnone hbig
  · cases h
    exact ⟨hmid'.1.trans hlen, .inl rfl⟩
  · cases h
    have hpad : (writeAt d' t' (List.replicate
        (start + 4 + (t' - (start + 4) + 3) / 4 * 4 - t') 0)).length = d'.length :=
      length_writeAt (by simp only [length_replicate]; omega)
    have hblock : ∀ words, (beBytes 2 0xBEDE ++ beBytes 2 words).length = 4 := by simp
    refine ⟨?_, .inr ⟨(t' - (start + 4) + 3) / 4, rfl, by omega, ?_⟩⟩
    · rw [length_writeAt (by rw [hblock, hpad]; omega), hpad]
      omega
    · rw [slice_writeAt_within (by rw [hblock, hpad]; omega) (by rw [hblock])]
      simp [slice, beBytes]

theorem firstByte_bits (p f : UInt8) (x : Bool) :
    let first := 0x80 ||| (p &&& 0x20) ||| (if x then 0x10 else 0) ||| (f &&& 0x0F)
    (first >>> 6) &&& 0x03 = 2 ∧ first &&& 0x0F = f &&& 0x0F ∧
      (first &&& 0x10 = if x then 0x10 else 0) ∧
      ((first >>> 5) &&& (0x01 : UInt8)) = ((p >>> 5) &&& 0x01) ∧
      ((first >>> 4) &&& (0x01 : UInt8)) = (if x then 1 else 0) := by
  refine ⟨?_, ?_, ?_, ?_, ?_⟩ <;> apply UInt8.eq_of_toBitVec_eq <;>
    apply BitVec.eq_of_getLsbD_eq <;> intro i hi <;> interval_cases i <;> cases x <;> simp

@[simp] theorem length_fixedHeader (x : Bool) (pt : UInt8) (seq : UInt16) (ts ssrc : UInt32) :
    (fixedHeader src hdr x pt seq ts ssrc).length = 12 := by
  simp [fixedHeader]

variable {rng rng' : Rng} {now outLen : Nat} {adv : Advance}

theorem rewrite_ok (h : rewrite src hdr sub rng now dst = (.ok (dst', outLen, adv), rng')) :
    offsets sub.rewrite hdr sub.clockRate rng now =
      ((adv.seqOffset, adv.tsOffset, adv.rebased), rng') ∧
      adv.inSeq = hdr.sequenceNumber ∧ adv.outSeq = hdr.sequenceNumber + adv.seqOffset ∧
      ∃ pt headerEnd d, 12 + 4 * hdr.csrcCount.toNat ≤ dst.length ∧
        writeExtensions src hdr sub
          (writeAt dst 12 (slice src 12 (12 + 4 * hdr.csrcCount.toNat - 12)))
          (12 + 4 * hdr.csrcCount.toNat) = .ok (d, headerEnd) ∧
        outLen = headerEnd + (src.drop hdr.headerLenBytes).length ∧ outLen ≤ d.length ∧
        dst' = writeAt (writeAt d headerEnd (src.drop hdr.headerLenBytes)) 0
          (fixedHeader src hdr (headerEnd > 12 + 4 * hdr.csrcCount.toNat) pt adv.outSeq adv.outTs
            sub.rewrite.outSsrc) := by
  simp only [rewrite] at h
  split at h
  · cases h
  rename_i pt hpt
  split_ifs at h with hcsrc
  · cases h
  split at h
  · cases h
  rename_i d headerEnd hext
  split_ifs at h with hbig
  · cases h
  cases h
  exact ⟨rfl, rfl, rfl, pt, headerEnd, d, by omega, hext, rfl, by omega, rfl⟩

theorem rewrite_length (h : rewrite src hdr sub rng now dst = (.ok (dst', outLen, adv), rng')) :
    dst'.length = dst.length := by
  obtain ⟨-, -, -, pt, headerEnd, d, hcsrc, hext, hout, hfit, rfl⟩ := rewrite_ok h
  obtain ⟨hdlen, -⟩ := writeExtensions_ok hext
  have hslice := length_slice_le (b := src) (i := 12) (k := 12 + 4 * hdr.csrcCount.toNat - 12)
  rw [length_writeAt (by omega)] at hdlen
  have hd : (writeAt d headerEnd (src.drop hdr.headerLenBytes)).length = d.length :=
    length_writeAt (by omega)
  rw [length_writeAt (by rw [length_fixedHeader]; omega), hd, hdlen]

theorem rewrite_wire (hp : Rtp.RtpHeader.parse src = .ok hdr) (hd : dst.length ≤ maxPacketSize)
    (h : rewrite src hdr sub rng now dst = (.ok (dst', outLen, adv), rng')) :
    dst'.length = dst.length ∧ 12 ≤ outLen ∧ outLen ≤ dst.length ∧
      be16 dst' 2 = adv.outSeq ∧ be32 dst' 8 = sub.rewrite.outSsrc ∧
      ∃ x, RtpHeader.parse (dst'.take outLen) = some x := by
  obtain ⟨-, -, -, pt, headerEnd, d, hcsrc, hext, hout, hfit, rfl⟩ := rewrite_ok h
  obtain ⟨hcc, hsrc, hsrc', -⟩ := Rtp.RtpHeader.parse_ok hp
  obtain ⟨hdlen, hblock⟩ := writeExtensions_ok hext
  have hd1 : (writeAt dst 12 (slice src 12 (12 + 4 * hdr.csrcCount.toNat - 12))).length =
      dst.length := length_writeAt (by rw [length_slice (by omega)]; omega)
  rw [hd1] at hdlen hblock
  have hd2 : (writeAt d headerEnd (src.drop hdr.headerLenBytes)).length = d.length :=
    length_writeAt (by omega)
  have hend : 12 + 4 * hdr.csrcCount.toNat ≤ headerEnd := by
    rcases hblock with hblock | ⟨words, hblock, -⟩ <;> omega
  generalize hX : writeAt d headerEnd (src.drop hdr.headerLenBytes) = X at hd2 ⊢
  generalize hF : fixedHeader src hdr (headerEnd > 12 + 4 * hdr.csrcCount.toNat) pt adv.outSeq
    adv.outTs sub.rewrite.outSsrc = F
  have hFlen : F.length = 12 := hF ▸ length_fixedHeader ..
  refine ⟨by rw [length_writeAt (by omega)]; omega, by omega, by omega, ?_, ?_, ?_⟩
  · apply be16_of_slice
    rw [← Nat.zero_add 2, slice_writeAt_within (by omega) (by omega), ← hF]
    simp [slice, fixedHeader, beBytes]
  · apply be32_of_slice
    rw [← Nat.zero_add 8, slice_writeAt_within (by omega) (by omega), ← hF]
    simp [slice, fixedHeader, beBytes]
  · have hlen : ((writeAt X 0 F).take outLen).length = outLen := by
      rw [length_take, length_writeAt (by omega)]
      omega
    have hfirst : ((writeAt X 0 F).take outLen).getD 0 0 = 0x80 ||| (src.getD 0 0 &&& 0x20) |||
        (if decide (headerEnd > 12 + 4 * hdr.csrcCount.toNat) then 0x10 else 0) |||
        hdr.csrcCount := by
      have hpos : 0 < outLen := by omega
      simp [← hF, writeAt, hpos, fixedHeader]
    obtain ⟨hver, hcount, hx, -⟩ := firstByte_bits (src.getD 0 0) (src.getD 0 0)
      (headerEnd > 12 + 4 * hdr.csrcCount.toNat)
    rw [← hcc, ← hfirst] at hver hcount hx
    have hmin : rtpHeaderSize = 12 := rfl
    refine RtpHeader.parse_isSome (n := headerEnd) (by omega) hver ?_ (by omega)
    rw [hcount, hx]
    rcases hblock with hblock | ⟨words, hblock, -, hwords⟩
    · simp [RtpHeader.measure, rtpHeaderSize, hblock]
      omega
    · have hlt : words < 65536 := by
        simp only [maxPacketSize] at hd
        omega
      have hword : be16 ((writeAt X 0 F).take outLen) (12 + 4 * hdr.csrcCount.toNat + 2) =
          UInt16.ofNat words := by
        rw [be16, slice_take (by omega), slice_writeAt_after (by omega) (by omega), ← hX,
          slice_writeAt_before (by omega) (by omega), hwords, beNat_beBytes_of_lt hlt]
      have hfixed : rtpHeaderSize + hdr.csrcCount.toNat * 4 = 12 + 4 * hdr.csrcCount.toNat := by
        omega
      have hgt : headerEnd > 12 + 4 * hdr.csrcCount.toNat := by omega
      have hlong : ¬ outLen < 12 + 4 * hdr.csrcCount.toNat + 4 := by omega
      simp only [RtpHeader.measure, hfixed, hgt, hword, hlen, hlong, decide_true, if_true, if_false,
        UInt16.toNat_ofNat_of_lt' hlt]
      simp [hblock]

theorem commit_outSsrc (state : RewriteState) (advance : Advance) (now : Nat) :
    (commit state advance now).outSsrc = state.outSsrc := by
  simp only [commit]
  split_ifs <;> rfl

theorem forwardPacket_le {sub : Subscription} {outbound : SrtpOutbound} {buf out : Bytes} {n : Nat}
    {rebased : Bool} (hbuf : buf.length = bufSize)
    (h : (forwardPacket sub outbound rng src hdr now buf).result = .ok (out, n, rebased)) :
    n ≤ bufSize := by
  simp only [forwardPacket] at h
  split at h
  · cases h
  · cases h
  rename_i dst rtpLen advance rng' hrw
  split at h
  · cases h
  rename_i out' n' outbound' hprot
  cases h
  have hle := SrtpOutbound.protectRtp_le (congrArg Prod.fst hprot)
  rw [length_append, rewrite_length hrw, ← length_append, take_append_drop, hbuf] at hle
  exact hle

end Wire
end NexusSfu.Dataplane
