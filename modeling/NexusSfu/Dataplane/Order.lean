import NexusSfu.Base.Renumber
import NexusSfu.Dataplane.NoStall

namespace NexusSfu.Dataplane

open Base Srtp

namespace Sent

abbrev pubValue (e : Sent) : Nat := e.pub.value

abbrev outValue (e : Sent) : Nat := e.out.value

end Sent

section Distance

variable {x y : PacketIndex}

theorem asI16_sub_of_near (hlt : x.value < y.value + 32768) (hgt : y.value < x.value + 32768) :
    asI16 (x.seq - y.seq) = x.value - y.value := by
  have hb := asI16_bounds (x.seq - y.seq)
  have hd := toNat_of_asI16_sub x.seq y.seq
  simp only [PacketIndex.value] at *
  omega

theorem asI16_sub_le (hlt : y.value < x.value) (hpos : 0 < asI16 (x.seq - y.seq)) :
    asI16 (x.seq - y.seq) ≤ x.value - y.value := by
  have hb := asI16_bounds (x.seq - y.seq)
  have hd := toNat_of_asI16_sub x.seq y.seq
  simp only [PacketIndex.value] at *
  omega

end Distance

namespace Stream

variable {s : Stream} {a : Arrival} {as : List Arrival} {pub : PacketIndex} {hdr : Rtp.RtpHeader}
  {S : Set Nat}

def Settled (s : Stream) (pub : PacketIndex) : Prop :=
  ∀ l ∈ s.log, l.out.value = s.top →
    (∀ e ∈ s.log, SameShift Sent.pubValue Sent.outValue e l) ∨
      ∃ e ∈ s.log, e.pub.value < pub.value ∧ SameShift Sent.pubValue Sent.outValue e l

instance (s : Stream) (pub : PacketIndex) : Decidable (s.Settled pub) :=
  inferInstanceAs (Decidable (∀ l ∈ s.log, _ → _ ∨ _))

def InTime (s : Stream) (a : Arrival) : Prop :=
  ∀ p ∈ s.reaches a, ¬ s.Newest p.1 → s.Keeps p.2 a.now ∧ s.Settled p.1

instance (s : Stream) (a : Arrival) : Decidable (s.InTime a) :=
  inferInstanceAs (Decidable (∀ p ∈ s.reaches a, _ → _ ∧ _))

structure InOrder (s : Stream) : Prop where
  inv : s.Inv
  window : ∃ S, s.inbound.rtpReplay.Holds S ∧ ∀ e ∈ s.log, e.pub.value ∈ S
  unsent : s.sub.rewrite.started = false → s.log = []
  last : s.sub.rewrite.started = true → ∃ l, Renumbers Sent.pubValue Sent.outValue s.log l ∧
    l.out.value = s.top ∧ l.pub.seq = s.sub.rewrite.lastInSeq

theorem Start.inOrder (h : s.Start) : s.InOrder := by
  obtain ⟨ssrc, nowS, hin⟩ := h.inbound
  refine ⟨h.inv, ⟨∅, by rw [hin]; exact ReplayProtection.new_holds, by simp [h.log]⟩,
    fun _ => h.log, fun hst => ?_⟩
  rw [h.rewrite] at hst
  cases hst

theorem accept_window (h : s.inbound.rtpReplay.Holds S) (a : Arrival) :
    ∃ S', (s.accept a).inbound.rtpReplay.Holds S' ∧ S ⊆ S' ∧
      ∀ pub, (s.inbound.admitRtp (be16 a.src 2)).1 = some pub →
        pub.value ∈ S' ∧ pub.value ∉ S ∧ ∀ x ∈ S, x < pub.value + 64 := by
  cases hest : s.inbound.roc.estimateIndex (be16 a.src 2) with
  | error e => exact ⟨S, by simpa [accept, SsrcIn.admitRtp, hest] using h, subset_rfl, by
      simp [SsrcIn.admitRtp, hest]⟩
  | ok pub =>
    have hcheck := h.check pub.value
    cases hchk : s.inbound.rtpReplay.check pub.value with
    | mk res replay =>
      rw [hchk] at hcheck
      cases res with
      | error e =>
        exact ⟨S, by simpa [accept, SsrcIn.admitRtp, hest, hchk] using hcheck, subset_rfl, by
          simp [SsrcIn.admitRtp, hest, hchk]⟩
      | ok u =>
        have hok : (s.inbound.rtpReplay.check pub.value).1 = .ok () := by rw [hchk]
        have hacc := h.check_accept pub.value
        rw [hchk] at hacc
        refine ⟨insert pub.value S, by simpa [accept, SsrcIn.admitRtp,
          SsrcIn.acceptRtp, hest, hchk]
          using hacc, Set.subset_insert _ _, fun pub' hp => ?_⟩
        simp only [SsrcIn.admitRtp, hest, hchk] at hp
        obtain rfl := Option.some.inj hp
        refine ⟨Set.mem_insert _ _, h.notMem_of_check hok, fun x hx => ?_⟩
        have hle := (h.isGreatest ⟨x, hx⟩).2 hx
        have hsize := s.inbound.rtpReplay.windowSize_le
        rcases (h.check_ok_iff _).1 hok with rfl | hnew | ⟨hold, -⟩
        · cases hx
        · omega
        · omega

def Last (s : Stream) (log : List Sent) : Prop :=
  ∃ l, Renumbers Sent.pubValue Sent.outValue log l ∧ l.out.value = s.top ∧
    l.pub.seq = s.sub.rewrite.lastInSeq

theorem IsSent.last_of_newest {index : PacketIndex} (hsent : s.IsSent pub hdr a index)
    (hst : s.sub.rewrite.started = true) (hseq : hdr.sequenceNumber = pub.seq)
    (hlast : s.Last s.log) (hn : s.Newest pub)
    (hnew : s.Keeps hdr a.now → 0 < s.sub.rewrite.delta hdr.sequenceNumber) :
    (s.forward pub hdr a).Last (⟨pub, index⟩ :: s.log) := by
  obtain ⟨l, hl, htop, hlseq⟩ := hlast
  obtain ⟨hv, htop', hin'⟩ := hsent.next hst
  have hlt : l.pub.value < pub.value := hn l hl.mem
  have hplace : 0 < Aligned.place s.sub.rewrite hdr.sequenceNumber a.now ∧
      Aligned.place s.sub.rewrite hdr.sequenceNumber a.now ≤ pub.value - l.pub.value := by
    simp only [Aligned.place]
    split_ifs with hkeep
    · have hpos := hnew ⟨hst, hkeep⟩
      simp only [RewriteState.delta, hseq, ← hlseq] at hpos ⊢
      exact ⟨hpos, asI16_sub_le hlt hpos⟩
    · omega
  refine ⟨_, hl.newer (x := ⟨pub, index⟩) ?_ ?_ ?_, ?_, ?_⟩
  · simpa only [Sent.pubValue] using hlt
  · simp only [Sent.outValue]
    omega
  · simp only [Sent.outValue, Sent.pubValue]
    omega
  · simp only [htop']
    omega
  · rw [hin', if_pos hplace.1, hseq]

theorem IsSent.last_of_late {index : PacketIndex} (hsent : s.IsSent pub hdr a index)
    (hst : s.sub.rewrite.started = true) (hseq : hdr.sequenceNumber = pub.seq)
    (hlast : s.Last s.log) (hn : ¬ s.Newest pub) (hne : ∀ e ∈ s.log, e.pub.value ≠ pub.value)
    (hnear : ∀ e ∈ s.log, e.pub.value < pub.value + 64) (hkeep : s.Keeps hdr a.now)
    (hset : s.Settled pub) : (s.forward pub hdr a).Last (⟨pub, index⟩ :: s.log) := by
  obtain ⟨l, hl, htop, hlseq⟩ := hlast
  obtain ⟨hv, htop', hin'⟩ := hsent.next hst
  have hlt : pub.value < l.pub.value := by
    by_contra hle
    refine hn fun e he => ?_
    have := hl.le e he
    have := hne l hl.mem
    simp only [Sent.pubValue] at *
    omega
  have hplace : Aligned.place s.sub.rewrite hdr.sequenceNumber a.now = pub.value - l.pub.value := by
    have := hnear l hl.mem
    rw [Aligned.place, if_pos hkeep.2, RewriteState.delta, hseq, ← hlseq]
    exact asI16_sub_of_near (by omega) (by omega)
  rw [hplace] at hv hin'
  refine ⟨l, hl.late (x := ⟨pub, index⟩) ?_ ?_ ?_ ?_, ?_, ?_⟩
  · simpa only [Sent.pubValue] using hlt
  · simpa only [Sent.pubValue] using hne
  · simp only [SameShift, Sent.outValue, Sent.pubValue]
    omega
  · simpa only [Sent.pubValue] using hset l hl.mem htop
  · rw [htop']
    omega
  · rw [hin', if_neg (by omega), hlseq]

theorem InOrder.accept (h : s.InOrder) (a : Arrival) : (s.accept a).InOrder := by
  obtain ⟨S, hheld, hmem⟩ := h.window
  obtain ⟨S', hheld', hsub, -⟩ := accept_window hheld a
  obtain ⟨inbound, ha⟩ := accept_eq s a
  rw [ha] at hheld' ⊢
  exact ⟨⟨h.inv.wf, h.inv.aligned⟩, ⟨S', hheld', fun e he => hsub (hmem e he)⟩,
    h.unsent, h.last⟩

theorem forward_log (s : Stream) (pub : PacketIndex) (hdr : Rtp.RtpHeader) (a : Arrival) :
    (s.forward pub hdr a).log = (s.used hdr a).map (⟨pub, ·⟩) ++ s.log := rfl

theorem InOrder.forward (h : s.InOrder) (hp : Rtp.RtpHeader.parse a.src = .ok hdr)
    (hseq : hdr.sequenceNumber = pub.seq) (hS : s.inbound.rtpReplay.Holds S)
    (hmem : ∀ e ∈ s.log, e.pub.value ∈ S) (hpub : pub.value ∈ S)
    (hne : ∀ e ∈ s.log, e.pub.value ≠ pub.value)
    (hnear : ∀ e ∈ s.log, e.pub.value < pub.value + 64) (hlate : s.LateFits hdr a.now)
    (hnew : s.Newest pub → s.Keeps hdr a.now → 0 < s.sub.rewrite.delta hdr.sequenceNumber)
    (htime : ¬ s.Newest pub → s.Keeps hdr a.now ∧ s.Settled pub) :
    (s.forward pub hdr a).InOrder := by
  rcases forward_cases pub h.inv hp hlate with hnot | ⟨index, hsent⟩
  · have hlog : (s.forward pub hdr a).log = s.log := by
      rw [forward_log, hnot.used]
      rfl
    refine ⟨hnot.inv, ⟨S, hS, hlog ▸ hmem⟩, ?_, ?_⟩
    · rw [hnot.rewrite, hlog]
      exact h.unsent
    · rw [hnot.rewrite, hlog, hnot.top]
      exact h.last
  · have hlog : (s.forward pub hdr a).log = ⟨pub, index⟩ :: s.log := by
      rw [forward_log, hsent.used]
      rfl
    refine ⟨hsent.inv, ⟨S, hS, ?_⟩, fun hst => ?_, fun _ => ?_⟩
    · rw [hlog]
      exact List.forall_mem_cons.2 ⟨hpub, hmem⟩
    · rw [hsent.started] at hst
      cases hst
    · rw [hlog]
      cases hst : s.sub.rewrite.started with
      | false =>
        obtain ⟨htop, hin⟩ := hsent.first hst
        rw [h.unsent hst]
        exact ⟨_, .singleton _, htop.symm, hseq.symm.trans hin.symm⟩
      | true =>
        by_cases hn : s.Newest pub
        · exact hsent.last_of_newest hst hseq (h.last hst) hn (hnew hn)
        · exact hsent.last_of_late hst hseq (h.last hst) hn hne hnear (htime hn).1 (htime hn).2

theorem InOrder.step (h : s.InOrder) (hg : s.Regular a ∧ s.InTime a) : (s.step a).InOrder := by
  rcases step_cases s a with ⟨-, hs⟩ | ⟨pub, hdr, hr, hs⟩
  · rw [hs]
    exact h.accept a
  · obtain ⟨hadm, hp⟩ := reaches_some hr
    obtain ⟨hlate, hnew⟩ := hg.1 _ hr
    have htime := hg.2 _ hr
    obtain ⟨S, hheld, hmem⟩ := h.window
    obtain ⟨S', hheld', hsub, hpub⟩ := accept_window hheld a
    obtain ⟨hpub, hnot, hnear⟩ := hpub pub hadm
    have hacc := h.accept a
    have hseq : hdr.sequenceNumber = pub.seq := by
      rw [(Rtp.RtpHeader.parse_ok hp).2.2.2.1, SsrcIn.admitRtp_seq hadm]
    obtain ⟨inbound, ha⟩ := accept_eq s a
    rw [hs]
    rw [ha] at hacc hheld' ⊢
    exact hacc.forward hp hseq hheld' (fun e he => hsub (hmem e he)) hpub
      (fun e he hv => hnot (hv ▸ hmem e he)) (fun e he => hnear _ (hmem e he)) hlate hnew htime

/-- In a run of regular packets of which the late ones come in time, packets go out in the order
of the publisher. -/
theorem forwarded_in_order (hs : s.Start)
    (hg : Guarded (fun s a => s.Regular a ∧ s.InTime a) step s as) {e f : Sent}
    (he : e ∈ (as.foldl step s).log) (hf : f ∈ (as.foldl step s).log) :
    e.pub.value < f.pub.value ↔ e.out.value < f.out.value := by
  have hinv := guarded_invariant (fun _ _ h hg => InOrder.step h hg) hs.inOrder hg
  cases hst : (as.foldl step s).sub.rewrite.started with
  | false =>
    rw [hinv.unsent hst] at he
    cases he
  | true =>
    obtain ⟨l, hl, -⟩ := hinv.last hst
    exact hl.lt_iff he hf

theorem forwarded_in_order_over_gap :
    ([packetAt 1000 0, packetAt 999 0, packetAt 1001 0, packetAt 20000 0].foldl step
      (streamFrom 6648)).log.length = 4 ∧
    ∀ e ∈ ([packetAt 1000 0, packetAt 999 0, packetAt 1001 0, packetAt 20000 0].foldl step
      (streamFrom 6648)).log,
      ∀ f ∈ ([packetAt 1000 0, packetAt 999 0, packetAt 1001 0, packetAt 20000 0].foldl step
        (streamFrom 6648)).log, (e.pub.value < f.pub.value ↔ e.out.value < f.out.value) :=
  ⟨by decide +kernel, fun _ he _ hf =>
    forwarded_in_order (streamFrom_start 6648) (by decide +kernel) he hf⟩

theorem late_after_gap_out_of_order : (streamFrom 6648).Start ∧
    ∃ e ∈ ([packetAt 998 0, packetAt 1000 0, packetAt 20000 0, packetAt 19998 0].foldl step
      (streamFrom 6648)).log,
      ∃ f ∈ ([packetAt 998 0, packetAt 1000 0, packetAt 20000 0, packetAt 19998 0].foldl step
        (streamFrom 6648)).log, e.pub.value < f.pub.value ∧ f.out.value < e.out.value :=
  ⟨streamFrom_start 6648, by decide +kernel⟩

end Stream
end NexusSfu.Dataplane
