import NexusSfu.Srtp.Inbound
import NexusSfu.Srtp.Nonce
import NexusSfu.Srtp.Roundtrip

namespace NexusSfu.Srtp

open Base List

structure Packet where
  ssrc : UInt32
  index : PacketIndex
  plain : Bytes
  wire : Bytes
  deriving DecidableEq

def SrtpOutbound.packet (s : SrtpOutbound) (buf : Bytes) (len : Nat) : List Packet :=
  match (s.protectRtp buf len).1, (s.admitRtp buf len).1 with
  | some (out, n), some (_, index) => [⟨be32 buf 8, index, buf.take len, out.take n⟩]
  | _, _ => []

/-- `p` is what `cipher` makes of some packet with this SSRC and sequence number. -/
def Packet.Genuine (cipher : SrtpCipher) (p : Packet) : Prop :=
  ∃ buf len out n, cipher.protectRtp buf len p.index = .ok (out, n) ∧ p.ssrc = be32 buf 8 ∧
    p.index.seq = be16 buf 2 ∧ p.plain = buf.take len ∧ p.wire = out.take n

structure Sender where
  ledger : SrtpOutbound.Ledger
  packets : List Packet

namespace Sender

open SrtpOutbound (Call Ledger)

def start (cipher : SrtpCipher) (ssrcBase : UInt32) : Sender := ⟨.start cipher ssrcBase, []⟩

def made (s : Sender) : Call → List Packet
  | .protectRtp buf len => s.ledger.ctx.packet buf len
  | _ => []

def step (s : Sender) (c : Call) : Option Sender :=
  (s.ledger.step c).map fun ledger => ⟨ledger, s.made c ++ s.packets⟩

structure Inv (cipher : SrtpCipher) (s : Sender) : Prop where
  ledger : s.ledger.Inv
  cipher_eq : s.ledger.ctx.cipher = cipher
  rtp : s.packets.map (fun p => (p.ssrc, p.index)) = s.ledger.rtp
  genuine : ∀ p ∈ s.packets, p.Genuine cipher

variable {cipher : SrtpCipher} {s s' : Sender} {c : Call} {calls : List Call} {p q : Packet}

theorem start_inv (cipher : SrtpCipher) (ssrcBase : UInt32) : (start cipher ssrcBase).Inv cipher :=
  ⟨Ledger.start_inv cipher ssrcBase, rfl, rfl, by simp [start]⟩

theorem step_cipher {l l' : Ledger} (h : l.step c = some l') : l'.ctx.cipher = l.ctx.cipher := by
  cases c with
  | register ssrc =>
    simp only [Ledger.step, SrtpOutbound.register] at h
    split_ifs at h
    · cases h
      rfl
    · split at h
      · cases h
        rfl
      · split_ifs at h
        · cases h
          rfl
        · cases h
  | protectRtp buf len =>
    obtain rfl := Option.some.inj h
    rcases SrtpOutbound.protectRtp_cases l.ctx buf len with
      ⟨o, heq, rfl | ⟨slot, index, rfl⟩⟩ | ⟨slot, index, out, -, -, -, -, -, heq⟩ <;>
      simp only [heq] <;> rfl
  | protectRtcp buf len =>
    obtain rfl := Option.some.inj h
    rcases SrtpOutbound.protectRtcp_cases l.ctx buf len with heq | ⟨slot, out, -, -, -, -, heq⟩
    · simp only [heq]
    · simp only [heq]
      rfl
  | retire ssrc =>
    obtain rfl := Option.some.inj h
    simp only [SrtpOutbound.retire]
    split <;> rfl

theorem made_spec (h : s.ledger.ctx.cipher = cipher) {l : Ledger} (hl : s.ledger.step c = some l) :
    l.rtp = (s.made c).map (fun p => (p.ssrc, p.index)) ++ s.ledger.rtp ∧
      ∀ p ∈ s.made c, p.Genuine cipher := by
  cases c with
  | register ssrc =>
    obtain ⟨r, -, rfl⟩ := Option.map_eq_some_iff.1 hl
    simp [made]
  | protectRtcp buf len =>
    obtain rfl := Option.some.inj hl
    simp [made]
  | retire ssrc =>
    obtain rfl := Option.some.inj hl
    simp [made]
  | protectRtp buf len =>
    obtain rfl := Option.some.inj hl
    rcases SrtpOutbound.protectRtp_cases s.ledger.ctx buf len with
      ⟨o, heq, -⟩ | ⟨slot, index, out, -, hest, -, hout, hadm, heq⟩
    · simp [made, SrtpOutbound.packet, SrtpOutbound.rtpUse, heq]
    · simp only [made, SrtpOutbound.packet, SrtpOutbound.rtpUse, heq, hadm, map_cons,
        map_nil, mem_singleton, forall_eq, true_and]
      exact ⟨buf, len, out.1, out.2, h ▸ hout, rfl, RocState.estimateIndex_seq hest, rfl, rfl⟩

theorem Inv.step (h : s.Inv cipher) (c : Call) : ∃ s', s.step c = some s' ∧ s'.Inv cipher := by
  obtain ⟨l, hl, hinv⟩ := h.ledger.step c
  obtain ⟨hrtp, hgen⟩ := made_spec h.cipher_eq hl
  refine ⟨_, by rw [Sender.step, hl]; rfl, hinv, (step_cipher hl).trans h.cipher_eq, ?_, ?_⟩
  · simp only [map_append, h.rtp, hrtp]
  · intro p hp
    rcases mem_append.1 hp with hp | hp
    · exact hgen p hp
    · exact h.genuine p hp

theorem Inv.eq_of_index (h : s.Inv cipher) (hp : p ∈ s.packets) (hq : q ∈ s.packets)
    (hssrc : p.ssrc = q.ssrc) (hv : p.index.value = q.index.value) : p = q := by
  have hn : (s.packets.map fun p => (p.ssrc, p.index)).Nodup := h.rtp ▸ h.ledger.rtp_nodup
  exact inj_on_of_nodup_map hn hp hq (by simp [hssrc, PacketIndex.value_inj hv])

theorem inv_of_run {ssrcBase : UInt32} (h : run step (start cipher ssrcBase) calls = some s) :
    s.Inv cipher := by
  obtain ⟨t, hrun, hinv⟩ :=
    run_invariant (fun _ c h => h.step c) (start_inv cipher ssrcBase) calls
  rw [hrun] at h
  obtain rfl := Option.some.inj h
  exact hinv

end Sender

namespace Packet.Genuine

variable {cipher : SrtpCipher} {p : Packet}

theorem received (h : p.Genuine cipher) (tail : Bytes) :
    p.wire.length = p.plain.length + cipher.tagLen ∧ rtpHeaderSize ≤ p.wire.length ∧
      be16 (p.wire ++ tail) 2 = p.index.seq ∧ be32 (p.wire ++ tail) 8 = p.ssrc := by
  obtain ⟨buf, len, out, n, hok, hssrc, hseq, hplain, hwire⟩ := h
  obtain ⟨rfl, header, hs⟩ := SrtpCipher.protectRtp_sealed hok
  have hmin := hs.le_headerLen
  have hle := hs.headerLen_le
  have hfits := hs.fits
  have hlen := hs.length
  have h12 : rtpHeaderSize = 12 := rfl
  have hwlen : p.wire.length = len + cipher.tagLen := by
    rw [hwire, length_take]
    omega
  have htake : (p.wire ++ tail).take header.headerLen = buf.take header.headerLen := by
    rw [take_append_of_le_length (by omega), hwire, take_take,
      Nat.min_eq_left (by omega), hs.header]
  refine ⟨?_, by omega, ?_, ?_⟩
  · rw [hwlen, hplain, length_take]
    omega
  · rw [hseq, be16, be16, slice_congr htake (by omega)]
  · rw [hssrc, be32, be32, slice_congr htake (by omega)]

theorem unprotectRtp (h : p.Genuine cipher) (hc : cipher.Opens)
    (hmax : p.plain.length + cipher.tagLen ≤ maxPacketSize) (tail : Bytes) :
    ∃ out, cipher.unprotectRtp (p.wire ++ tail) p.wire.length p.index =
      .ok (out, p.plain.length) ∧ out.take p.plain.length = p.plain := by
  obtain ⟨hwlen, -⟩ := h.received tail
  obtain ⟨buf, len, out, n, hok, -, -, hplain, hwire⟩ := h
  obtain ⟨rfl, header, hs⟩ := SrtpCipher.protectRtp_sealed hok
  have hfits := hs.fits
  have hlen := hs.length
  have hplen : p.plain.length = len := by
    rw [hplain, length_take]
    omega
  rw [hplen] at hwlen hmax ⊢
  have htake : (p.wire ++ tail).take (len + cipher.tagLen) = out.take (len + cipher.tagLen) := by
    rw [← hwire, ← hwlen, take_left]
  obtain ⟨plain, hun, hpl⟩ := SrtpCipher.unprotectRtp_protectRtp hc hok htake
    (by rw [length_append]; omega) hmax
  exact ⟨plain, hwlen ▸ hun, hpl.trans hplain.symm⟩

end Packet.Genuine

structure Delivery where
  packet : Packet
  tail : Bytes
  nowS : Nat

structure Receiver where
  ctx : SrtpInbound
  delivered : List Packet

namespace Receiver

def buf (d : Delivery) : Bytes := d.packet.wire ++ d.tail

def receive (t : Receiver) (d : Delivery) : Option (Bytes × Nat) × SrtpInbound :=
  t.ctx.unprotectRtp (buf d) d.packet.wire.length d.nowS

def step (t : Receiver) (d : Delivery) : Receiver := ⟨(t.receive d).2, d.packet :: t.delivered⟩

/-- The first packet has rollover counter 0, every other one is less than half the sequence space
away from the highest index that arrived. -/
def Near (t : Receiver) (index : PacketIndex) : Prop :=
  match t.delivered with
  | [] => index.roc = 0
  | _ => ∃ m ∈ t.delivered, (∀ p ∈ t.delivered, p.index.value ≤ m.index.value) ∧
      index.value < m.index.value + 32768 ∧ m.index.value < index.value + 32768

structure Start (cipher : SrtpCipher) (ssrc : UInt32) (t : Receiver) : Prop where
  cipher_eq : t.ctx.cipher = cipher
  pinned : ∃ i, position t.ctx.slots (SsrcIn.isFor ssrc) = some i ∧
    t.ctx.slots i = { SsrcIn.fresh ssrc 0 with pinned := true }
  delivered : t.delivered = []

def Tracked (x : SsrcIn) (delivered : List Packet) : Prop :=
  x.rtpReplay.windowSize = 64 ∧ (delivered = [] ∧ x.roc = .new ∧ x.rtpReplay.Holds ∅ ∨
    ∃ S : Set Nat, S.Nonempty ∧ x.rtpReplay.Holds S ∧ x.roc.initialized = true ∧
      x.rtpReplay.highest = x.roc.highestIndex ∧
      (∀ v ∈ S, ∃ p ∈ delivered, p.index.value = v) ∧
      ∀ p ∈ delivered, p.index.value ∈ S ∨ p.index.value + 64 ≤ x.rtpReplay.highest)

structure Inv (cipher : SrtpCipher) (ssrc : UInt32) (t : Receiver) : Prop where
  cipher_eq : t.ctx.cipher = cipher
  slot : ∃ i, position t.ctx.slots (SsrcIn.isFor ssrc) = some i ∧
    Tracked (t.ctx.slots i) t.delivered

namespace Tracked

variable {x : SsrcIn} {delivered : List Packet} {p : Packet}

theorem highest {S : Set Nat} (hS : S.Nonempty) (h : x.rtpReplay.Holds S)
    (hin : ∀ v ∈ S, ∃ p ∈ delivered, p.index.value = v)
    (hall : ∀ p ∈ delivered, p.index.value ∈ S ∨
      p.index.value + 64 ≤ x.rtpReplay.highest) :
    (∃ p ∈ delivered, p.index.value = x.rtpReplay.highest) ∧
      ∀ p ∈ delivered, p.index.value ≤ x.rtpReplay.highest := by
  obtain ⟨hmem, hle⟩ := h.isGreatest hS
  refine ⟨hin _ hmem, fun p hp => ?_⟩
  rcases hall p hp with hp | hp
  · exact hle hp
  · omega

theorem near {t : Receiver} (h : Tracked x t.delivered) (hn : t.Near p.index) :
    x.roc.estimateIndex p.index.seq = .ok p.index ∧
      (x.roc.initialized = true → x.roc.Near p.index) := by
  rcases h.2 with ⟨hd, hroc, -⟩ | ⟨S, hS, hheld, hinit, hhigh, hin, hall⟩
  · simp only [Near, hd] at hn
    have hest : (RocState.new).estimateIndex p.index.seq = .ok ⟨0, p.index.seq⟩ :=
      RocState.estimateIndex_new rfl
    refine ⟨?_, fun hinit => ?_⟩
    · rw [hroc, hest, ← hn]
    · rw [hroc] at hinit
      cases hinit
  · obtain ⟨⟨q, hq, hqv⟩, hle⟩ := highest hS hheld hin hall
    obtain ⟨m, hm, hmax, hlt, hgt⟩ : ∃ m ∈ t.delivered,
        (∀ p ∈ t.delivered, p.index.value ≤ m.index.value) ∧
        p.index.value < m.index.value + 32768 ∧ m.index.value < p.index.value + 32768 := by
      rw [Near] at hn
      split at hn
      · rename_i hd
        rw [hd] at hq
        cases hq
      · exact hn
    have hnear : x.roc.Near p.index := by
      have := hle m hm
      have := hmax q hq
      constructor <;> omega
    exact ⟨RocState.estimateIndex_near hinit hnear, fun _ => hnear⟩

theorem check_ok_iff (h : Tracked x delivered) : (x.rtpReplay.check p.index.value).1 = .ok () ↔
      ∀ q ∈ delivered, q.index.value ≠ p.index.value ∧
        q.index.value < p.index.value + 64 := by
  rcases h with ⟨hsize, ⟨hd, -, hheld⟩ | ⟨S, hS, hheld, -, -, hin, hall⟩⟩
  · rw [hheld.check_ok_iff]
    simp [hd]
  · obtain ⟨⟨m, hm, hmv⟩, hle⟩ := highest hS hheld hin hall
    rw [hheld.check_ok_iff, hsize]
    constructor
    · rintro (hno | hnew | ⟨hold, hnot⟩) q hq
      · exact absurd hno hS.ne_empty
      · have := hle q hq
        omega
      · have := hle q hq
        refine ⟨fun e => ?_, by omega⟩
        rcases hall q hq with hmem | hbehind
        · exact hnot (e ▸ hmem)
        · omega
    · intro hnone
      obtain ⟨hne, hlt⟩ := hnone m hm
      by_cases hnew : x.rtpReplay.highest < p.index.value
      · exact .inr (.inl hnew)
      · refine .inr (.inr ⟨by omega, fun hmem => ?_⟩)
        obtain ⟨q, hq, hqv⟩ := hin _ hmem
        exact (hnone q hq).1 hqv

theorem refuse (h : Tracked x delivered) (hno : (x.rtpReplay.check p.index.value).1 ≠ .ok ()) :
    Tracked { x with rtpReplay := (x.rtpReplay.check p.index.value).2 } (p :: delivered) := by
  obtain ⟨hh, -, hw, -⟩ := ReplayProtection.check_snd x.rtpReplay p.index.value
  obtain ⟨hsize, ⟨-, -, hheld⟩ | ⟨S, hS, hheld, hinit, hhigh, hin, hall⟩⟩ := h
  · exact absurd ((hheld.check_ok_iff _).2 (.inl rfl)) hno
  · rw [Ne, hheld.check_ok_iff, hsize] at hno
    refine ⟨hw.trans hsize, .inr ⟨S, hS, hheld.check _, hinit, hh.trans hhigh, ?_, ?_⟩⟩
    · intro v hv
      obtain ⟨q, hq, hqv⟩ := hin v hv
      exact ⟨q, mem_cons_of_mem p hq, hqv⟩
    · simp only [hh]
      refine forall_mem_cons.2 ⟨?_, hall⟩
      by_cases hmem : p.index.value ∈ S
      · exact .inl hmem
      · refine .inr ?_
        have hold : ¬ x.rtpReplay.highest - p.index.value < 64 := fun hlt =>
          hno (.inr (.inr ⟨hlt, hmem⟩))
        omega

theorem accept (h : Tracked x delivered) (nowS : Nat)
    (hest : x.roc.estimateIndex p.index.seq = .ok p.index)
    (hnear : x.roc.initialized = true → x.roc.Near p.index) :
    Tracked (SsrcIn.acceptRtp { x with rtpReplay := (x.rtpReplay.check p.index.value).2 } p.index
      p.index.seq nowS) (p :: delivered) := by
  obtain ⟨-, -, hw, -⟩ := ReplayProtection.check_snd x.rtpReplay p.index.value
  obtain ⟨hsize, hcase⟩ := h
  have hsize' : ((x.rtpReplay.check p.index.value).2.accept p.index.value).windowSize = 64 := by
    rw [ReplayProtection.accept_windowSize, hw, hsize]
  rcases hcase with ⟨hd, hroc, hheld⟩ | ⟨S, hS, hheld, hinit, hhigh, hin, hall⟩
  · have hhighest := hheld.highest_accept_first p.index.value
    rw [hroc] at hest
    have hindex := Except.ok.inj hest
    refine ⟨hsize', .inr ⟨_, Set.insert_nonempty _ _, hheld.check_accept _,
      RocState.update_initialized _ _, ?_, ?_, ?_⟩⟩
    · simp only [SsrcIn.acceptRtp, hhighest, hroc]
      nth_rewrite 1 [← hindex]
      rfl
    · intro v hv
      exact ⟨p, mem_cons_self, by simpa [eq_comm] using hv⟩
    · simp [hd]
  · have hhighest := hheld.highest_accept p.index.value hS
    have hroc := RocState.update_near hinit (hnear hinit)
    refine ⟨hsize', .inr ⟨_, Set.insert_nonempty _ _, hheld.check_accept _,
      RocState.update_initialized _ _, ?_, ?_, ?_⟩⟩
    · simp only [SsrcIn.acceptRtp, hhighest, hroc, hhigh, max_comm]
    · rintro v (rfl | hv)
      · exact ⟨p, mem_cons_self, rfl⟩
      · obtain ⟨q, hq, hqv⟩ := hin v hv
        exact ⟨q, mem_cons_of_mem p hq, hqv⟩
    · simp only [SsrcIn.acceptRtp, hhighest]
      refine forall_mem_cons.2 ⟨.inl (Set.mem_insert _ _), fun q hq => ?_⟩
      rcases hall q hq with hmem | hbehind
      · exact .inl (Set.mem_insert_of_mem _ hmem)
      · exact .inr (by omega)

end Tracked

variable {cipher : SrtpCipher} {ssrc : UInt32} {t : Receiver} {d : Delivery} {ds : List Delivery}

theorem Start.inv (h : t.Start cipher ssrc) : t.Inv cipher ssrc := by
  obtain ⟨i, hi, hx⟩ := h.pinned
  refine ⟨h.cipher_eq, i, hi, ?_⟩
  rw [hx, h.delivered]
  exact ⟨rfl, .inl ⟨rfl, rfl, ReplayProtection.new_holds⟩⟩

theorem Inv.receive (h : t.Inv cipher ssrc) (hc : cipher.Opens) (hgen : d.packet.Genuine cipher)
    (hssrc : d.packet.ssrc = ssrc) (hn : t.Near d.packet.index)
    (hmax : d.packet.plain.length + cipher.tagLen ≤ maxPacketSize) :
    t.ctx.estimatedIndex (buf d) d.nowS = some d.packet.index ∧ (t.step d).Inv cipher ssrc ∧
      ((∀ q ∈ t.delivered, q.index.value ≠ d.packet.index.value ∧
        q.index.value < d.packet.index.value + 64) →
        ∃ out, (t.receive d).1 = some (out, d.packet.plain.length) ∧
        out.take d.packet.plain.length = d.packet.plain) ∧
      (¬ (∀ q ∈ t.delivered, q.index.value ≠ d.packet.index.value ∧
          q.index.value < d.packet.index.value + 64) → (t.receive d).1 = none) := by
  obtain ⟨hceq, i, hi, htr⟩ := h
  obtain ⟨hwlen, hmin, hbseq, hbssrc⟩ := hgen.received d.tail
  obtain ⟨out, hout, htake⟩ := hgen.unprotectRtp hc hmax d.tail
  obtain ⟨hest, hnear⟩ := htr.near hn
  obtain ⟨hadm, hsome, hnone⟩ := SsrcIn.admitRtp_of_estimate hest
  have hpos : position t.ctx.slots (SsrcIn.isFor (be32 (buf d) 8)) = some i := by
    rw [buf, hbssrc, hssrc, hi]
  have hlen : d.packet.wire.length ≤ (buf d).length := by simp [buf]
  have hseq : be16 (buf d) 2 = d.packet.index.seq := hbseq
  have hfor {x : SsrcIn} (hx : x.live = (t.ctx.slots i).live ∧ x.ssrc = (t.ctx.slots i).ssrc) :
      position (t.ctx.setSlot i x).slots (SsrcIn.isFor ssrc) = some i := by
    rw [SrtpInbound.setSlot, position_update (by simp [SsrcIn.isFor, hx]), hi]
  refine ⟨SrtpInbound.estimatedIndex_known hpos (hseq ▸ hest), ?_⟩
  by_cases hok : ((t.ctx.slots i).rtpReplay.check d.packet.index.value).1 = .ok ()
  · have heq : t.receive d = _ := SrtpInbound.unprotectRtp_accepted hpos hmin hlen
      (hseq ▸ hsome.2 hok) (hceq ▸ hout)
    rw [hseq, hadm] at heq
    refine ⟨⟨?_, i, ?_, ?_⟩, fun _ => ⟨out, by rw [heq], htake⟩, fun hno =>
      absurd (htr.check_ok_iff.1 hok) hno⟩
    · rw [step, heq]
      exact hceq
    · rw [step, heq]
      exact hfor ⟨rfl, rfl⟩
    · rw [step, heq]
      simpa [SrtpInbound.setSlot] using htr.accept d.nowS hest hnear
  · have heq : t.receive d = _ := SrtpInbound.unprotectRtp_refused hpos hmin hlen
      (hseq ▸ hnone.2 hok)
    rw [hseq, hadm] at heq
    refine ⟨⟨?_, i, ?_, ?_⟩, fun hall => absurd (htr.check_ok_iff.2 hall) hok,
      fun _ => by rw [heq]⟩
    · rw [step, heq]
      exact hceq
    · rw [step, heq]
      exact hfor ⟨rfl, rfl⟩
    · rw [step, heq]
      simpa [SrtpInbound.setSlot] using htr.refuse hok

structure Delivers (sender : Sender) (ssrc : UInt32) (t : Receiver) (d : Delivery) : Prop where
  sent : d.packet ∈ sender.packets
  ssrc_eq : d.packet.ssrc = ssrc
  near : t.Near d.packet.index

def Fits (cipher : SrtpCipher) (d : Delivery) : Prop :=
  d.packet.plain.length + cipher.tagLen ≤ maxPacketSize

theorem run_inv {sender : Sender} (hs : sender.Inv cipher) (hc : cipher.Opens)
    (ht : t.Start cipher ssrc)
    (hg : Guarded (fun t d => Delivers sender ssrc t d ∧ Fits cipher d) step t ds) :
    (ds.foldl step t).Inv cipher ssrc ∧
      ∀ q ∈ (ds.foldl step t).delivered, q ∈ sender.packets ∧ q.ssrc = ssrc := by
  refine guarded_invariant
    (I := fun t => t.Inv cipher ssrc ∧ ∀ q ∈ t.delivered, q ∈ sender.packets ∧
      q.ssrc = ssrc)
    (fun t d h hg => ⟨?_, ?_⟩) ⟨ht.inv, by simp [ht.delivered]⟩ hg
  · exact (h.1.receive hc (hs.genuine _ hg.1.sent) hg.1.ssrc_eq hg.1.near hg.2).2.1
  · exact forall_mem_cons.2 ⟨⟨hg.1.sent, hg.1.ssrc_eq⟩, h.2⟩

/-- Whatever a sender protected and however it arrives, near what arrived before and not larger
than the receiver takes: the receiver recognises the index, returns the packet as it was if it has
not arrived before and is not 64 behind, and never returns it again. -/
theorem receiver_agrees (ds : List Delivery) {ssrcBase : UInt32} {calls : List SrtpOutbound.Call}
    {sender : Sender} (hrun : run Sender.step (Sender.start cipher ssrcBase) calls = some sender)
    (hc : cipher.Opens) (ht : t.Start cipher ssrc)
    (hg : Guarded (fun t d => Delivers sender ssrc t d ∧ Fits cipher d) step t (ds ++ [d])) :
    (ds.foldl step t).ctx.estimatedIndex (buf d) d.nowS = some d.packet.index ∧
      (d.packet ∉ (ds.foldl step t).delivered →
        (∀ q ∈ (ds.foldl step t).delivered, q.index.value < d.packet.index.value + 64) →
        ∃ out, ((ds.foldl step t).receive d).1 = some (out, d.packet.plain.length) ∧
          out.take d.packet.plain.length = d.packet.plain) ∧
      (d.packet ∈ (ds.foldl step t).delivered → ((ds.foldl step t).receive d).1 = none) := by
  have hs := Sender.inv_of_run hrun
  obtain ⟨hruns, hlast, hfits⟩ := guarded_concat.1 hg
  obtain ⟨hinv, hdel⟩ := run_inv hs hc ht hruns
  obtain ⟨hest, -, hreturned, hrefused⟩ :=
    hinv.receive hc (hs.genuine _ hlast.sent) hlast.ssrc_eq hlast.near hfits
  refine ⟨hest, fun hnew hwin => hreturned fun q hq => ⟨fun e => ?_, hwin q hq⟩, fun hmem =>
    hrefused fun hall => (hall _ hmem).1 rfl⟩
  obtain ⟨hsent, hssrc⟩ := hdel q hq
  exact hnew (hs.eq_of_index hsent hlast.sent (hssrc.trans hlast.ssrc_eq.symm) e ▸ hq)

section Sample

def headerOf (words : Nat) : Bytes :=
  [0x90, 96, 0, 1, 0, 0, 0, 0, 0, 0, 0, 1, 0, 0] ++ beBytes 2 words ++ List.replicate (4 * words) 0

def callsFor (words : Nat) : List SrtpOutbound.Call :=
  [.register 1, .protectRtp (headerOf words ++ List.replicate 10 0) (16 + 4 * words)]

def waiting : Receiver :=
  ⟨(SrtpInbound.fromKeys zeroCipher).setSlot
    ⟨0, by decide⟩ { SsrcIn.fresh 1 0 with pinned := true }, []⟩

theorem waiting_start : waiting.Start zeroCipher 1 :=
  ⟨rfl, ⟨0, by decide, rfl⟩, rfl⟩

theorem exists_sent (calls : List SrtpOutbound.Call) {P : Packet → Prop}
    (h : ∃ p ∈ ((run Sender.step (Sender.start zeroCipher 0) calls).map Sender.packets).getD [],
      P p) :
    ∃ sender, run Sender.step (Sender.start zeroCipher 0) calls = some sender ∧
      ∃ p ∈ sender.packets, P p := by
  cases hr : run Sender.step (Sender.start zeroCipher 0) calls with
  | none => simp [hr] at h
  | some sender => exact ⟨sender, rfl, by simpa [hr] using h⟩

theorem receiver_agrees_on_duplicate :
    ∃ sender, run Sender.step (Sender.start zeroCipher 0) (callsFor 0) = some sender ∧
      ∃ p ∈ sender.packets,
        (∃ out, (waiting.receive ⟨p, [], 0⟩).1 = some (out, p.plain.length) ∧
          out.take p.plain.length = p.plain) ∧
            ((waiting.step ⟨p, [], 0⟩).receive ⟨p, [], 0⟩).1 = none := by
  obtain ⟨sender, hrun, p, hp, hssrc, hroc, hfits⟩ :=
    exists_sent (callsFor 0)
      (P := fun p => p.ssrc = 1 ∧ p.index.roc = 0 ∧ p.plain.length + 10 ≤ maxPacketSize)
      (by decide +kernel)
  have hfirst : Delivers sender 1 waiting ⟨p, [], 0⟩ := ⟨hp, hssrc, hroc⟩
  have hagain : Delivers sender 1 (waiting.step ⟨p, [], 0⟩) ⟨p, [], 0⟩ :=
    ⟨hp, hssrc, p, mem_cons_self, by simp [step, waiting], by simp, by simp⟩
  obtain ⟨-, hnew, -⟩ := receiver_agrees [] hrun trivial waiting_start
    ⟨⟨hfirst, hfits⟩, trivial⟩
  obtain ⟨-, -, hdup⟩ := receiver_agrees [⟨p, [], 0⟩] hrun trivial waiting_start
    ⟨⟨hfirst, hfits⟩, ⟨hagain, hfits⟩, trivial⟩
  exact ⟨sender, hrun, p, hp, hnew (by simp [waiting]) (by simp [waiting]),
    hdup mem_cons_self⟩

theorem receiver_refuses_largest : waiting.Start zeroCipher 1 ∧
    ∃ sender, run Sender.step (Sender.start zeroCipher 0) (callsFor 2044) = some sender ∧
      ∃ p ∈ sender.packets, Delivers sender 1 waiting ⟨p, [], 0⟩ ∧
        p ∉ waiting.delivered ∧ (waiting.receive ⟨p, [], 0⟩).1 = none := by
  obtain ⟨sender, hrun, p, hp, hssrc, hroc, hnone⟩ :=
    exists_sent (callsFor 2044) (P := fun p => p.ssrc = 1 ∧ p.index.roc = 0 ∧
      (waiting.receive ⟨p, [], 0⟩).1 = none) (by decide +kernel)
  exact ⟨waiting_start, sender, hrun, p, hp, ⟨hp, hssrc, hroc⟩, by simp [waiting], hnone⟩

end Sample
end Receiver
end NexusSfu.Srtp
