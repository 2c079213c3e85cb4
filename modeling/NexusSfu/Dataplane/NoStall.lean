import NexusSfu.Dataplane.Stream

namespace NexusSfu.Dataplane.Stream

open Base Srtp

variable {s : Stream} {a : Arrival} {as : List Arrival} {pub : PacketIndex} {hdr : Rtp.RtpHeader}

theorem estimate_ok {i : Fin outboundSsrcSlots} {adv : Advance} {rng : Rng}
    (hi : s.outbound.slotOf s.sub.rewrite.outSsrc = some i)
    (hal : Aligned s.sub.rewrite (s.outbound.slots i))
    (hoff : offsets s.sub.rewrite hdr s.sub.clockRate s.rng a.now =
      ((adv.seqOffset, adv.tsOffset, adv.rebased), rng))
    (hseq : adv.outSeq = hdr.sequenceNumber + adv.seqOffset) (hroc : s.outRoc ≠ 0xFFFFFFFF)
    (hlate : s.LateFits hdr a.now)
    (hnew : s.Keeps hdr a.now → 0 < s.sub.rewrite.delta hdr.sequenceNumber) :
    ∃ index, (s.outbound.slots i).roc.estimateIndex adv.outSeq = .ok index ∧
      ((s.outbound.slots i).sent.check index.value).1 = .ok () := by
  cases hst : s.sub.rewrite.started with
  | false =>
    obtain ⟨hroc, hheld⟩ := hal.unsent hst
    refine ⟨⟨0, adv.outSeq⟩, ?_, (hheld.check_ok_iff _).2 (.inl rfl)⟩
    rw [hroc]
    exact RocState.estimateIndex_new rfl
  | true =>
    have hs := hal.synced hst
    have hmax : (s.outbound.slots i).roc.roc.toNat ≠ 4294967295 := fun h =>
      hroc (outRoc_eq hi ▸ UInt32.toNat_inj.1 h)
    have hr := (s.outbound.slots i).roc.roc.toNat_lt
    have hsl := (s.outbound.slots i).roc.highestSeq.toNat_lt
    obtain ⟨S, hheld, -⟩ := hs.held
    obtain ⟨hlo, hhi⟩ := Aligned.place_bounds s.sub.rewrite hdr.sequenceNumber a.now
    obtain ⟨index, hindex, hv, hnear⟩ := RocState.exists_index_at
      (Aligned.outSeq_toNat hs hst hoff hseq) (by omega)
      (Aligned.place_nonneg hs (outRoc_eq hi ▸ place_fits hst hlate))
      (by simp only [RocState.highestIndex]; omega)
    have hest := hindex ▸ RocState.estimateIndex_near hs.initialized hnear
    have hplace : 0 < Aligned.place s.sub.rewrite hdr.sequenceNumber a.now := by
      rw [Aligned.place]
      split_ifs with hkeep
      · exact hnew ⟨hst, hkeep⟩
      · decide
    refine ⟨index, hest, (hheld.check_ok_iff _).2 (.inr (.inl ?_))⟩
    rw [hs.highest]
    omega

theorem not_refused (h : s.Inv) (hc : s.outbound.cipher.Seals)
    (hp : Rtp.RtpHeader.parse a.src = .ok hdr) (hroc : s.outRoc ≠ 0xFFFFFFFF)
    (hlate : s.LateFits hdr a.now)
    (hnew : s.Keeps hdr a.now → 0 < s.sub.rewrite.delta hdr.sequenceNumber) :
    (s.forwarded hdr a).result ≠ .error .srtpProtect := by
  cases hrw : rewrite a.src hdr s.sub s.rng a.now (a.buf.take s.room) with
  | mk res rng =>
    cases res with
    | error e => exact (forward_of_error ⟨0, 0⟩ hrw).2.2.2
    | ok r =>
      obtain ⟨dst, n, adv⟩ := r
      obtain ⟨hoff, -, houtSeq, -⟩ := rewrite_ok hrw
      obtain ⟨hmin, hmax, hroom, hseq, hssrc, x, hx⟩ := rewritten hp hrw
      obtain ⟨i, hi, hal⟩ := h.aligned
      obtain ⟨index, hest, hok⟩ := estimate_ok hi hal hoff houtSeq hroc hlate hnew
      obtain ⟨out, hout⟩ := SrtpCipher.protectRtp_ok index hc hmin hmax hroom hx
      have hsome :=
        SrtpOutbound.protectRtp_some hmin (by omega) (hssrc ▸ hi) (hseq ▸ hest) hok hout
      rcases SrtpOutbound.protectRtp_cases s.outbound (dst ++ a.buf.drop s.room) n with
        ⟨o, ho, -⟩ | ⟨slot, index, out, -, -, -, -, hadm, ho⟩
      · rw [ho] at hsome
        cases hsome
      · rw [(forward_of_some index hrw ho hadm).2.2.2]
        exact nofun

instance (s : Stream) (pub : PacketIndex) : Decidable (s.Newest pub) :=
  inferInstanceAs (Decidable (∀ e ∈ s.log, _))

instance (s : Stream) (hdr : Rtp.RtpHeader) (now : Nat) : Decidable (s.Keeps hdr now) :=
  inferInstanceAs (Decidable (_ ∧ _))

instance (s : Stream) (hdr : Rtp.RtpHeader) (now : Nat) : Decidable (s.LateFits hdr now) :=
  inferInstanceAs (Decidable (s.Keeps hdr now → _ ∨ _))

/-- A packet that keeps the offsets is not placed below outbound index 0, and is read as newer if
it is newer than everything forwarded. -/
def Regular (s : Stream) (a : Arrival) : Prop :=
  ∀ p ∈ s.reaches a, s.LateFits p.2 a.now ∧
    (s.Newest p.1 → s.Keeps p.2 a.now → 0 < s.sub.rewrite.delta p.2.sequenceNumber)

instance (s : Stream) (a : Arrival) : Decidable (s.Regular a) :=
  inferInstanceAs (Decidable (∀ p ∈ s.reaches a, _))

theorem forward_cipher (s : Stream) (pub : PacketIndex) (hdr : Rtp.RtpHeader) (a : Arrival) :
    (s.forward pub hdr a).outbound.cipher = s.outbound.cipher := by
  cases hrw : rewrite a.src hdr s.sub s.rng a.now (a.buf.take s.room) with
  | mk res rng =>
    cases res with
    | error e => rw [(forward_of_error pub hrw).2.2.1]
    | ok r =>
      obtain ⟨dst, n, adv⟩ := r
      rcases SrtpOutbound.protectRtp_cases s.outbound (dst ++ a.buf.drop s.room) n with
        ⟨o, ho, hcase⟩ | ⟨slot, index, out, -, -, -, -, hadm, ho⟩
      · rw [(forward_of_none pub hrw ho).2.2]
        rcases hcase with rfl | ⟨slot, index, rfl⟩ <;> rfl
      · rw [(forward_of_some pub hrw ho hadm).2.2.1]
        rfl

theorem Inv.forward (h : s.Inv) (hp : Rtp.RtpHeader.parse a.src = .ok hdr)
    (hlate : s.LateFits hdr a.now) : (s.forward pub hdr a).Inv := by
  rcases forward_cases pub h hp hlate with h | ⟨index, h⟩
  · exact h.inv
  · exact h.inv

theorem Inv.step (h : s.Inv ∧ s.outbound.cipher.Seals) (hg : s.Regular a) :
    (s.step a).Inv ∧ (s.step a).outbound.cipher.Seals := by
  obtain ⟨inbound, ha⟩ := accept_eq s a
  have hacc : (s.accept a).Inv ∧ (s.accept a).outbound.cipher.Seals := by
    rw [ha]
    exact ⟨⟨h.1.wf, h.1.aligned⟩, h.2⟩
  rcases step_cases s a with ⟨-, hs⟩ | ⟨pub, hdr, hr, hs⟩
  · rw [hs]
    exact hacc
  · have hlate : (s.accept a).LateFits hdr a.now := by
      rw [ha]
      exact (hg _ hr).1
    rw [hs, forward_cipher]
    exact ⟨hacc.1.forward (reaches_some hr).2 hlate, hacc.2⟩

/-- In a run of regular packets the outbound context takes every packet that is newer than all
forwarded before it, until the rollover counter is used up. -/
theorem newest_not_refused (hs : s.Start) (hc : s.outbound.cipher.Seals)
    (hg : Guarded Regular step s (as ++ [a])) (hr : (as.foldl step s).reaches a = some (pub, hdr))
    (hn : (as.foldl step s).Newest pub) (hroc : (as.foldl step s).outRoc ≠ 0xFFFFFFFF) :
    (((as.foldl step s).accept a).forwarded hdr a).result ≠ .error .srtpProtect := by
  obtain ⟨hruns, hlast⟩ := guarded_concat.1 hg
  have hinv := guarded_invariant (I := fun s => s.Inv ∧ s.outbound.cipher.Seals)
    (fun _ _ h hg => Inv.step h hg) ⟨hs.inv, hc⟩ hruns
  generalize as.foldl step s = t at hr hn hroc hlast hinv
  obtain ⟨hlate, hnew⟩ := hlast _ hr
  obtain ⟨inbound, ha⟩ := accept_eq t a
  rw [ha]
  exact not_refused ⟨hinv.1.wf, hinv.1.aligned⟩ hinv.2 (reaches_some hr).2 hroc hlate (hnew hn)

theorem newest_not_refused_after_late :
    ∃ p ∈ ([packetAt 1000 0, packetAt 999 0].foldl step
      (streamFrom 6648)).reaches (packetAt 1001 0),
      ((([packetAt 1000 0, packetAt 999 0].foldl step (streamFrom 6648)).accept
        (packetAt 1001 0)).forwarded p.2 (packetAt 1001 0)).result ≠ .error .srtpProtect := by
  have hg : Guarded Regular step (streamFrom 6648)
      ([packetAt 1000 0, packetAt 999 0] ++ [packetAt 1001 0]) := by decide +kernel
  obtain ⟨p, hr, hn⟩ : ∃ p ∈ ([packetAt 1000 0, packetAt 999 0].foldl step
      (streamFrom 6648)).reaches (packetAt 1001 0),
      ([packetAt 1000 0, packetAt 999 0].foldl step (streamFrom 6648)).Newest p.1 := by
    decide +kernel
  exact ⟨p, hr, newest_not_refused (streamFrom_start 6648) trivial hg hr hn (by decide +kernel)⟩

/-- The first packet goes out with sequence number 0. The late one before it is protected as index
65535 instead of -1, and the send window then refuses the packets that follow. -/
theorem newest_refused_after_late_at_zero :
    (streamFrom 59587).Start ∧ (streamFrom 59587).outbound.cipher.Seals ∧
    ∃ p ∈ ([packetAt 1000 0, packetAt 999 0].foldl step
      (streamFrom 59587)).reaches (packetAt 1001 0),
      ([packetAt 1000 0, packetAt 999 0].foldl step (streamFrom 59587)).Newest p.1 ∧
      ([packetAt 1000 0, packetAt 999 0].foldl step (streamFrom 59587)).outRoc ≠ 0xFFFFFFFF ∧
      ((([packetAt 1000 0, packetAt 999 0].foldl step (streamFrom 59587)).accept
        (packetAt 1001 0)).forwarded p.2 (packetAt 1001 0)).result = .error .srtpProtect :=
  ⟨streamFrom_start 59587, trivial, by decide +kernel⟩

end NexusSfu.Dataplane.Stream
