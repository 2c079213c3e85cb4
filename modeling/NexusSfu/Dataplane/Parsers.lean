import NexusSfu.Dataplane.Strict

/-!
The two readers of an RTP header: the media crate's, which the rewrite works from, and the SRTP
code's, which decides where encryption starts.
-/

namespace NexusSfu.Dataplane

open Base

theorem shifted_flag {i : Nat} (hi : i < 8) (b : UInt8) :
    (b >>> UInt8.ofNat i) &&& 0x01 ≠ 0 ↔ b &&& UInt8.ofNat (2 ^ i) ≠ 0 := by
  have hall : ∀ k : Fin 8, ∀ n : Fin 256, (UInt8.ofNat n >>> UInt8.ofNat k) &&& 0x01 ≠ 0 ↔
      UInt8.ofNat n &&& UInt8.ofNat (2 ^ k.val) ≠ 0 := by decide +kernel
  simpa using hall ⟨i, hi⟩ ⟨b.toNat, b.toNat_lt⟩

structure SameHeader (x : Srtp.RtpHeader) (h : Rtp.RtpHeader) : Prop where
  headerLen : x.headerLen = h.headerLenBytes
  ssrc : x.ssrc = h.ssrc
  sequenceNumber : x.sequenceNumber = h.sequenceNumber
  timestamp : x.timestamp = h.timestamp
  marker : x.marker = h.marker
  payloadType : x.payloadType = h.payloadType

variable {data : Bytes} {h : Rtp.RtpHeader}

theorem measure_of_media {extension : Bool} {csrcCount : UInt8} {n : Nat}
    (hm : Rtp.RtpHeader.measure data extension csrcCount = .ok n) :
    Srtp.RtpHeader.measure data extension csrcCount = some n := by
  simp only [Rtp.RtpHeader.measure] at hm
  simp only [Srtp.RtpHeader.measure]
  split_ifs at hm with hshort hext hword hmax hlen
  · rw [if_pos hext, if_neg hword, ← Except.ok.inj hm, Nat.add_assoc]
  · rw [if_neg hext, ← Except.ok.inj hm]

theorem srtp_parse_of_media (hp : Rtp.RtpHeader.parse data = .ok h) :
    ∃ x, Srtp.RtpHeader.parse data = some x ∧ SameHeader x h := by
  obtain ⟨hmin, hver, hm, -, -, -, -, -, hmk, hpt, hseq, hts, hssrc⟩ :=
    Rtp.RtpHeader.parse_iff.1 hp
  obtain ⟨-, hfit⟩ := Rtp.RtpHeader.measure_bounds hm
  have hx : decide (data.getD 0 0 &&& 0x10 ≠ 0) = decide ((data.getD 0 0 >>> 4) &&& 0x01 ≠ 0) :=
    decide_eq_decide.2 (shifted_flag (i := 4) (by decide) _).symm
  have hmarker : decide (data.getD 1 0 &&& 0x80 ≠ 0) = h.marker :=
    hmk.symm ▸ decide_eq_decide.2 (shifted_flag (i := 7) (by decide) _).symm
  rw [Srtp.RtpHeader.parse, if_neg (not_lt.2 hmin), if_neg (not_not.2 hver)]
  simp only [hx, measure_of_media hm, if_neg (not_lt.2 hfit)]
  exact ⟨_, rfl, rfl, hssrc.symm, hseq.symm, hts.symm, hmarker, hpt.symm⟩

variable {src dst dst' : Bytes} {hdr : Rtp.RtpHeader} {sub : Subscription} {rng rng' : Rng}
  {now : Nat} {len : Nat} {adv : Advance}

theorem media_parse_rewrite (hp : Rtp.RtpHeader.parse src = .ok hdr)
    (h : rewrite src hdr sub rng now dst = (.ok (dst', len, adv), rng')) :
    ∃ out, Rtp.RtpHeader.parse (dst'.take len) = .ok out ∧
      (dst'.take len).drop out.headerLenBytes = src.drop hdr.headerLenBytes ∧
      out.headerLenBytes + (src.drop hdr.headerLenBytes).length = len := by
  rw [rewrite_eq hp] at h
  cases hmap : sub.ptMap.map hdr.payloadType with
  | none =>
    rw [hmap] at h
    cases congrArg Prod.fst h
  | some pt =>
    rw [hmap] at h
    dsimp only at h
    split_ifs at h with hfit
    · cases congrArg Prod.fst h
    cases h
    generalize hdr.sequenceNumber + (offsets sub.rewrite hdr sub.clockRate rng now).1.1 = seq
    generalize hdr.timestamp + (offsets sub.rewrite hdr sub.clockRate rng now).1.2.1 = ts
    rw [take_rewritten]
    exact ⟨_, parse_packet hp (sub.ptMap.map_le hmap), drop_header hp,
      (length_packet_eq sub pt seq ts hp).symm.trans (length_packet pt seq ts)⟩

/-- The two readers agree on what both accept, the SRTP code accepts what the media reader does,
and in a rewritten packet it finds the header up to the first payload byte. -/
theorem rtp_parsers_agree :
    (∀ data h x, Rtp.RtpHeader.parse data = .ok h → Srtp.RtpHeader.parse data = some x →
      SameHeader x h) ∧
    (∀ data h, Rtp.RtpHeader.parse data = .ok h → (Srtp.RtpHeader.parse data).isSome) ∧
    ∀ src hdr sub rng now dst dst' len adv rng', Rtp.RtpHeader.parse src = .ok hdr →
      rewrite src hdr sub rng now dst = (.ok (dst', len, adv), rng') →
      ∃ x, Srtp.RtpHeader.parse (dst'.take len) = some x ∧
        (dst'.take len).drop x.headerLen = src.drop hdr.headerLenBytes ∧
        x.headerLen + (src.drop hdr.headerLenBytes).length = len := by
  refine ⟨fun data h x hp hx => ?_, fun data h hp => ?_, ?_⟩
  · obtain ⟨y, hy, hsame⟩ := srtp_parse_of_media hp
    exact Option.some.inj (hx.symm.trans hy) ▸ hsame
  · obtain ⟨y, hy, -⟩ := srtp_parse_of_media hp
    exact Option.isSome_iff_exists.2 ⟨y, hy⟩
  · intro src hdr sub rng now dst dst' len adv rng' hp h
    obtain ⟨out, hout, hdrop, hlen⟩ := media_parse_rewrite hp h
    obtain ⟨x, hx, hsame⟩ := srtp_parse_of_media hout
    exact ⟨x, hx, hsame.headerLen ▸ hdrop, hsame.headerLen ▸ hlen⟩

theorem rtp_parsers_agree_mapped : ∃ x dst,
    Srtp.RtpHeader.parse Strict.mappedPacket = some x ∧ SameHeader x Strict.mappedHeader ∧
      (rewrite Strict.mappedPacket Strict.mappedHeader Strict.mappedSub ⟨7⟩ 0
        (List.replicate 32 0)).1.toOption.map (·.1) = some dst ∧
      ∃ y, Srtp.RtpHeader.parse (dst.take 21) = some y ∧ y.headerLen = 20 := by
  obtain ⟨hsame, hsome, hout⟩ := rtp_parsers_agree
  have hp : Rtp.RtpHeader.parse Strict.mappedPacket = .ok Strict.mappedHeader := by decide +kernel
  obtain ⟨x, hx⟩ := Option.isSome_iff_exists.1 (hsome _ _ hp)
  cases hr : rewrite Strict.mappedPacket Strict.mappedHeader Strict.mappedSub ⟨7⟩ 0
      (List.replicate 32 0) with
  | mk r rng =>
    cases r with
    | error e =>
      have herr := congrArg (·.1.toOption.isSome) hr
      exact absurd (herr.trans (show _ = false from rfl)) (by decide +kernel)
    | ok r =>
      obtain ⟨dst, len, adv⟩ := r
      have hlen : len = 21 := by
        have h := congrArg (·.1.toOption.map (·.2.1)) hr
        exact Option.some.inj (h.symm.trans (by decide +kernel))
      obtain ⟨y, hy, -, hend⟩ := hout _ _ _ _ _ _ _ _ _ _ hp hr
      have hpay : (Strict.mappedPacket.drop Strict.mappedHeader.headerLenBytes).length = 1 := by
        decide
      exact ⟨x, dst, hx, hsame _ _ _ hp hx, rfl, y, hlen ▸ hy, by omega⟩

end NexusSfu.Dataplane
