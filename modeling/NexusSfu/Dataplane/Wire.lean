import NexusSfu.Dataplane.Forward
import NexusSfu.Dataplane.Shard.Tables
import NexusSfu.Rtp.Elements

namespace NexusSfu.Dataplane

open Base Rtp List RtpHeader

namespace Subscription

variable (sub : Subscription)

def mapped (e : Element) : UInt8 := sub.extMap.map.toList.getD e.id.toNat 0

def keeps (e : Element) : Bool :=
  e.id ≠ sub.pubMid ∧ e.id.toNat < 15 ∧ e.data.length ≤ maxOneByteLen ∧
    sub.mapped e ≠ 0 ∧ e.data ≠ []

def forwarded (es : List Element) : List Element :=
  (es.filter sub.keeps).map fun e => ⟨sub.mapped e, e.data⟩

def midElement : List Element :=
  if sub.extMap.mid ≠ 0 then [⟨sub.extMap.mid, sub.mid.asBytes⟩] else []

def outElements (es : List Element) : List Element :=
  sub.forwarded es ++ sub.midElement

end Subscription

theorem extIdsValid_le {ids used : List UInt8} (h : extIdsValid ids used) :
    ∀ id ∈ ids, id ≤ 14 := by
  induction ids generalizing used with
  | nil => exact nofun
  | cons x ids ih =>
    simp only [extIdsValid] at h
    split_ifs at h with hzero hbad
    · rw [forall_mem_cons, hzero]
      exact ⟨by decide, ih h⟩
    · rw [forall_mem_cons]
      exact ⟨UInt8.not_lt.1 (not_or.1 hbad).1, ih h⟩

theorem extMapIsValid_le {m : ExtMap} (h : extMapIsValid m) :
    (∀ id ∈ m.map.toList, id ≤ 14) ∧ m.mid ≤ 14 := by
  rw [extMapIsValid, Bool.and_eq_true] at h
  have hall := extIdsValid_le h.1
  exact ⟨fun id hid => hall id (mem_append_left _ hid), hall _ (by simp)⟩

section Place

variable {dst src a b : Bytes} {start : Nat} {sub : Subscription} {hdr : RtpHeader}

variable (r : Bytes × Nat)

def place (bytes : Bytes) : Except RewriteError (Bytes × Nat) :=
  if bytes ≠ [] ∧ r.2 + bytes.length > r.1.length then .error .tooLarge
  else .ok (writeAt r.1 r.2 bytes, r.2 + bytes.length)

theorem place_nil : place r [] = .ok r := by
  simp [place]

theorem place_of_le {r : Bytes × Nat} (h : r.2 + a.length ≤ r.1.length) :
    place r a = .ok (writeAt r.1 r.2 a, r.2 + a.length) :=
  if_neg fun hbig => by omega

theorem place_append (a b : Bytes) : (place r a).bind (place · b) = place r (a ++ b) := by
  obtain ⟨dst, start⟩ := r
  by_cases ha : a = []
  · rw [ha, place_nil]
    rfl
  by_cases hfit : start + a.length ≤ dst.length
  · have hlen := length_writeAt hfit
    rw [place_of_le hfit]
    simp only [Except.bind, place, hlen, writeAt_append rfl hfit, length_append, Nat.add_assoc]
    by_cases hb : b = []
    · simp [hb, hfit]
    · simp [hb]
  · simp only [place, ne_eq, ha, not_false_eq_true, true_and, append_eq_nil_iff, false_and,
      length_append]
    rw [if_pos (by omega), if_pos (by omega)]
    rfl

theorem writeElement_eq (id : UInt8) (data : Bytes) :
    writeElement dst start id data = place (dst, start) (Element.encode ⟨id, data⟩) := by
  have hne : Element.encode ⟨id, data⟩ ≠ [] := cons_ne_nil _ _
  simp only [writeElement, place, hne, ne_eq, not_false_eq_true, true_and, Element.length_encode,
    Nat.add_assoc]
  rfl

theorem writeElements_cons (e : Element) (es : List Element) (r : Bytes × Nat) :
    writeElements sub (e :: es) r =
      if sub.keeps e then (writeElement r.1 r.2 (sub.mapped e) e.data).bind (writeElements sub es)
      else writeElements sub es r := by
  have hskip : (e.id = sub.pubMid ∨ e.id.toNat ≥ 15 ∨ e.data.length > maxOneByteLen ∨
      sub.mapped e = 0 ∨ e.data = []) ↔ ¬ sub.keeps e := by
    simp only [Subscription.keeps, decide_eq_true_eq, not_and_or, not_not, not_lt, not_le, ne_eq,
      ge_iff_le, gt_iff_lt]
  by_cases hk : sub.keeps e
  · rw [if_pos hk]
    refine (if_neg (mt hskip.1 (not_not.2 hk))).trans ?_
    rw [Subscription.mapped]
    cases writeElement r.1 r.2 (sub.extMap.map.toList.getD e.id.toNat 0) e.data <;> rfl
  · rw [if_neg hk]
    exact if_pos (hskip.2 hk)

theorem writeElements_eq (es : List Element) (r : Bytes × Nat) :
    writeElements sub es r = place r (encodeElements (sub.forwarded es)) := by
  induction es generalizing r with
  | nil => exact (place_nil r).symm
  | cons e es ih =>
    rw [writeElements_cons]
    by_cases hk : sub.keeps e
    · have hcons : sub.forwarded (e :: es) = ⟨sub.mapped e, e.data⟩ :: sub.forwarded es := by
        simp [Subscription.forwarded, hk]
      rw [hcons, encodeElements_cons, ← place_append, if_pos hk, writeElement_eq, funext ih]
    · have hcons : sub.forwarded (e :: es) = sub.forwarded es := by
        simp [Subscription.forwarded, hk]
      rw [hcons, if_neg hk, ih]

def writeMid (sub : Subscription) (r : Bytes × Nat) : Except RewriteError (Bytes × Nat) :=
  if sub.extMap.mid ≠ 0 then writeElement r.1 r.2 sub.extMap.mid sub.mid.asBytes else .ok r

theorem writeMid_eq : writeMid sub r = place r (encodeElements sub.midElement) := by
  by_cases hm : sub.extMap.mid = 0
  · simp [writeMid, Subscription.midElement, hm, place_nil]
  · simp [writeMid, Subscription.midElement, hm, writeElement_eq]

def closeBlock (start : Nat) (r : Bytes × Nat) : Except RewriteError (Bytes × Nat) :=
  if r.2 = start + 4 then .ok (r.1, start)
  else
    let words := (r.2 - (start + 4) + 3) / 4
    let padded := start + 4 + words * 4
    if padded > r.1.length then .error .tooLarge
    else .ok (writeAt (writeAt r.1 r.2 (List.replicate (padded - r.2) 0)) start
      (beBytes 2 0xBEDE ++ beBytes 2 words), padded)

theorem writeExtensions_bind : writeExtensions src hdr sub dst start =
    ((writeElements sub (elements src hdr) (dst, start + 4)).bind (writeMid sub)).bind
      (closeBlock start) := by
  rw [writeExtensions]
  cases writeElements sub (elements src hdr) (dst, start + 4) with
  | error e => rfl
  | ok r =>
    simp only [Except.bind, writeMid]
    split <;> rename_i h <;> simp only [h]
    rfl

theorem closeBlock_place (es : List Element) :
    (place (dst, start + 4) (encodeElements es)).bind (closeBlock start) =
      place (dst, start) (extensionBlock es) := by
  by_cases hes : es = []
  · simp [hes, place_nil, extensionBlock, closeBlock, Except.bind]
  have hlen := length_extensionBlock hes
  have hne : encodeElements es ≠ [] := mt encodeElements_eq_nil.1 hes
  have hpos := length_pos_iff.2 hne
  generalize he : (encodeElements es).length = n at *
  have hblock : extensionBlock es ≠ [] := by
    intro h
    rw [h, length_nil] at hlen
    omega
  by_cases hfit : start + 4 + n ≤ dst.length
  · rw [place_of_le (by simpa [he] using hfit)]
    have hd : (writeAt dst (start + 4) (encodeElements es)).length = dst.length :=
      length_writeAt (by omega)
    have hwords : start + 4 + n - (start + 4) = n := by omega
    simp only [Except.bind, closeBlock, he, hd, hwords]
    rw [if_neg (by omega)]
    by_cases hpad : start + 4 + (n + 3) / 4 * 4 ≤ dst.length
    · have hzeros : start + 4 + (n + 3) / 4 * 4 - (start + 4 + n) = (n + 3) / 4 * 4 - n := by omega
      have hhead : (beBytes 2 0xBEDE ++ beBytes 2 ((n + 3) / 4)).length = 4 := by simp
      rw [if_neg (by omega), place_of_le (by simp only [hlen]; omega), hlen, hzeros]
      simp only [extensionBlock, if_neg hes, he, Nat.add_assoc]
      rw [← Nat.add_assoc start 4 n, writeAt_append he hfit, writeAt_prepend hhead (by omega)]
    · rw [if_pos (by omega), place, if_pos ⟨hblock, by simp only [hlen]; omega⟩]
  · rw [place, place, if_pos ⟨hne, by simp only [he]; omega⟩,
      if_pos ⟨hblock, by simp only [hlen]; omega⟩]
    rfl

theorem writeExtensions_eq : writeExtensions src hdr sub dst start =
    place (dst, start) (extensionBlock (sub.outElements (elements src hdr))) := by
  rw [writeExtensions_bind, writeElements_eq, funext writeMid_eq, place_append,
    ← encodeElements_append, ← Subscription.outElements, closeBlock_place]

end Place

section Packet

variable {dst src : Bytes} {sub : Subscription} {hdr : RtpHeader} {rng : Rng} {now : Nat}

def packetTail (src : Bytes) (hdr : RtpHeader) (sub : Subscription) : Bytes :=
  slice src 12 (4 * hdr.csrcCount.toNat) ++
    (extensionBlock (sub.outElements (elements src hdr)) ++ src.drop hdr.headerLenBytes)

def wireLength (src : Bytes) (hdr : RtpHeader) (sub : Subscription) : Nat :=
  12 + (packetTail src hdr sub).length

def packet (src : Bytes) (hdr : RtpHeader) (sub : Subscription) (pt : UInt8) (seq : UInt16)
    (ts : UInt32) : Bytes :=
  fixedHeader src hdr (sub.outElements (elements src hdr) ≠ []) pt seq ts sub.rewrite.outSsrc ++
    packetTail src hdr sub

theorem length_packet (pt : UInt8) (seq : UInt16) (ts : UInt32) :
    (packet src hdr sub pt seq ts).length = wireLength src hdr sub := by
  rw [packet, length_append, length_fixedHeader, wireLength]

theorem outElements_oneByte (h : extMapIsValid sub.extMap) (es : List Element) :
    ∀ e ∈ sub.outElements es, e.OneByte := by
  obtain ⟨hmap, hmid⟩ := extMapIsValid_le h
  intro e he
  rcases mem_append.1 he with he | he
  · obtain ⟨e, hk, rfl⟩ := mem_map.1 he
    obtain ⟨-, hid, hlen, hne, hdata⟩ := of_decide_eq_true (mem_filter.1 hk).2
    refine ⟨hne, hmap _ ?_, hdata, hlen⟩
    rw [Subscription.mapped, getD_eq_getElem?_getD, getElem?_eq_getElem (by simpa)]
    exact getElem_mem _
  · rw [Subscription.midElement] at he
    split_ifs at he with hm
    · obtain rfl := mem_singleton.1 he
      exact ⟨hm, hmid, sub.mid.ne_nil, sub.mid.length_le⟩
    · exact absurd he not_mem_nil

theorem length_data_outElements (sub : Subscription) (es : List Element) :
    ∀ e ∈ sub.outElements es, e.data.length ≤ maxOneByteLen := by
  intro e he
  rcases mem_append.1 he with he | he
  · obtain ⟨e, hk, rfl⟩ := mem_map.1 he
    exact (of_decide_eq_true (mem_filter.1 hk).2).2.2.1
  · rw [Subscription.midElement] at he
    split_ifs at he
    · obtain rfl := mem_singleton.1 he
      exact sub.mid.length_le
    · exact absurd he not_mem_nil

theorem length_outElements_le : (sub.outElements (elements src hdr)).length ≤ 17 := by
  have hels := length_elements_le src hdr
  have hmax : maxElements = 16 := rfl
  have hfilter := length_filter_le sub.keeps (elements src hdr)
  have hmid : sub.midElement.length ≤ 1 := by
    rw [Subscription.midElement]
    split_ifs <;> simp
  rw [Subscription.outElements, length_append, Subscription.forwarded, length_map]
  omega

theorem extensionBlock_words (src : Bytes) (hdr : RtpHeader) (sub : Subscription) :
    ((encodeElements (sub.outElements (elements src hdr))).length + 3) / 4 ≤ 73 := by
  have hlen := length_encodeElements_le (length_data_outElements sub (elements src hdr))
  have hcount : (sub.outElements (elements src hdr)).length ≤ 17 := length_outElements_le
  omega

theorem secondByte_bits (s : UInt8) {pt : UInt8} (h : pt ≤ 127) :
    ((((s &&& 0x80) ||| pt) >>> 7) &&& (0x01 : UInt8)) = ((s >>> 7) &&& 0x01) ∧
      (((s &&& 0x80) ||| pt) &&& (0x7F : UInt8)) = pt := by
  have hall : ∀ n : Fin 128, UInt8.ofNat n &&& 0x7F = UInt8.ofNat n := by decide
  have hpt : pt &&& 0x7F = pt := by
    have hlt : pt.toNat ≤ 127 := h
    simpa using hall ⟨pt.toNat, by omega⟩
  rw [← hpt]
  constructor <;> apply UInt8.eq_of_toBitVec_eq <;> apply BitVec.eq_of_getLsbD_eq <;>
    intro i hi <;> interval_cases i <;> simp

theorem take_rewritten (dst : Bytes) (pt : UInt8) (seq : UInt16) (ts : UInt32) :
    (writeAt dst 0 (packet src hdr sub pt seq ts)).take (wireLength src hdr sub) =
      packet src hdr sub pt seq ts := by
  rw [← length_packet pt seq ts, ← Nat.zero_add (packet src hdr sub pt seq ts).length,
    take_writeAt_end (Nat.zero_le _) rfl]
  rfl

theorem rewrite_eq (hp : RtpHeader.parse src = .ok hdr) : rewrite src hdr sub rng now dst =
      match sub.ptMap.map hdr.payloadType with
      | none => (.error .unmappedPt, rng)
      | some pt =>
        if dst.length < wireLength src hdr sub then (.error .tooLarge, rng)
        else
          let r := offsets sub.rewrite hdr sub.clockRate rng now
          let seq := hdr.sequenceNumber + r.1.1
          let ts := hdr.timestamp + r.1.2.1
          (.ok (writeAt dst 0 (packet src hdr sub pt seq ts), wireLength src hdr sub,
            ⟨r.1.1, r.1.2.1, hdr.sequenceNumber, seq, ts, r.1.2.2⟩), r.2) := by
  obtain ⟨-, hmin, hmax, -⟩ := parse_ok hp
  have hcsrc : (slice src 12 (4 * hdr.csrcCount.toNat)).length = 4 * hdr.csrcCount.toNat :=
    length_slice (by omega)
  have hpos : 0 < (extensionBlock (sub.outElements (elements src hdr))).length ↔ _ :=
    extensionBlock_pos
  have hlen : wireLength src hdr sub = 12 + (4 * hdr.csrcCount.toNat +
      ((extensionBlock (sub.outElements (elements src hdr))).length +
        (src.drop hdr.headerLenBytes).length)) := by
    rw [wireLength, packetTail, length_append, length_append, hcsrc]
  unfold rewrite
  cases sub.ptMap.map hdr.payloadType with
  | none => rfl
  | some pt =>
    simp only [Nat.add_sub_cancel_left, writeExtensions_eq]
    simp only [packet, packetTail]
    generalize extensionBlock (sub.outElements (elements src hdr)) = block at *
    generalize src.drop hdr.headerLenBytes = payload at *
    generalize slice src 12 (4 * hdr.csrcCount.toNat) = csrcs at *
    generalize 4 * hdr.csrcCount.toNat = n at *
    by_cases hshort : 12 + n ≤ dst.length
    · have hd : (writeAt dst 12 csrcs).length = dst.length := length_writeAt (by omega)
      rw [if_neg (show ¬ 12 + n > dst.length by omega)]
      by_cases hblock : 12 + n + block.length ≤ dst.length
      · rw [place_of_le (by simpa [hd] using hblock)]
        have hd' : (writeAt (writeAt dst 12 csrcs) (12 + n) block).length = dst.length := by
          rw [length_writeAt (by omega), hd]
        simp only [hd']
        by_cases hfit : wireLength src hdr sub ≤ dst.length
        · rw [if_neg (by omega), if_neg (by omega), writeAt_append hcsrc hshort, Nat.add_assoc,
            writeAt_append (by rw [length_append, hcsrc]) (by omega), append_assoc]
          have hx : (decide (12 + (n + block.length) > 12 + n)) =
              decide (sub.outElements (elements src hdr) ≠ []) := by
            rw [decide_eq_decide, ← hpos]
            omega
          simp only [hx]
          have h12 : (0 : Nat) + 12 = 12 := rfl
          rw [← h12, writeAt_prepend (length_fixedHeader ..) (by omega)]
          rw [show 0 + 12 + (n + block.length) + payload.length = wireLength src hdr sub by omega]
        · rw [if_pos (by omega), if_pos (by omega)]
      · have hne : block ≠ [] := by
          rintro rfl
          exact hblock (by simpa using hshort)
        rw [place, if_pos ⟨hne, by simp only [hd]; omega⟩]
        exact (if_pos (by omega)).symm
    · rw [if_pos (by omega), if_pos (by omega)]

section Read

variable {pt : UInt8} {seq : UInt16} {ts : UInt32}

theorem drop_packet : (packet src hdr sub pt seq ts).drop 12 = packetTail src hdr sub :=
  drop_left' (length_fixedHeader ..)

theorem slice_csrcs (hp : RtpHeader.parse src = .ok hdr) :
    slice (packet src hdr sub pt seq ts) 12 (4 * hdr.csrcCount.toNat) = slice src 12
      (4 * hdr.csrcCount.toNat) := by
  obtain ⟨-, hmin, hmax, -⟩ := parse_ok hp
  exact slice_of_drop drop_packet (length_slice (by omega))

theorem drop_csrcs (sub : Subscription) (pt : UInt8) (seq : UInt16) (ts : UInt32)
    (hp : RtpHeader.parse src = .ok hdr) :
    (packet src hdr sub pt seq ts).drop (12 + 4 * hdr.csrcCount.toNat) =
      extensionBlock (sub.outElements (elements src hdr)) ++ src.drop hdr.headerLenBytes := by
  obtain ⟨-, hmin, hmax, -⟩ := parse_ok hp
  exact drop_of_drop drop_packet (length_slice (by omega))

def outHeader (src : Bytes) (hdr : RtpHeader) (sub : Subscription) (pt : UInt8) (seq : UInt16)
    (ts : UInt32) : RtpHeader :=
  { hdr with
    extension := sub.outElements (elements src hdr) ≠ []
    payloadType := pt
    sequenceNumber := seq
    timestamp := ts
    ssrc := sub.rewrite.outSsrc
    headerLenBytes :=
      12 + 4 * hdr.csrcCount.toNat + (extensionBlock (sub.outElements (elements src hdr))).length }

theorem drop_header (hp : RtpHeader.parse src = .ok hdr) :
    (packet src hdr sub pt seq ts).drop (outHeader src hdr sub pt seq ts).headerLenBytes =
      src.drop hdr.headerLenBytes :=
  drop_of_drop (drop_csrcs sub pt seq ts hp) rfl

theorem length_packet_eq (sub : Subscription) (pt : UInt8) (seq : UInt16) (ts : UInt32)
    (hp : RtpHeader.parse src = .ok hdr) : (packet src hdr sub pt seq ts).length =
      (outHeader src hdr sub pt seq ts).headerLenBytes + (src.drop hdr.headerLenBytes).length := by
  obtain ⟨-, hmin, hmax, -⟩ := parse_ok hp
  have hcsrc := length_slice (b := src) (i := 12) (k := 4 * hdr.csrcCount.toNat) (by omega)
  rw [length_packet, wireLength, packetTail, length_append, length_append, hcsrc]
  simp only [outHeader]
  omega

theorem measure_packet (hp : RtpHeader.parse src = .ok hdr) :
    RtpHeader.measure (packet src hdr sub pt seq ts) (outHeader src hdr sub pt seq ts).extension
      hdr.csrcCount = .ok (outHeader src hdr sub pt seq ts).headerLenBytes := by
  have hlen := length_packet_eq sub pt seq ts hp
  have hcc : hdr.csrcCount.toNat ≤ 15 := by
    rw [(parse_ok hp).1, UInt8.toNat_and]
    exact Nat.and_le_right
  have hstart : rtpHeaderMinSizeBytes + hdr.csrcCount.toNat * rtpCsrcSizeBytes =
      12 + 4 * hdr.csrcCount.toNat := by
    rw [Nat.mul_comm]
  simp only [RtpHeader.measure, hstart, outHeader] at hlen ⊢
  rw [if_neg (by omega)]
  by_cases hes : sub.outElements (elements src hdr) = []
  · simp [hes, extensionBlock]
  · have hwords := extensionBlock_words src hdr sub
    obtain ⟨-, hword, -⟩ := extensionBlock_read hes (drop_csrcs sub pt seq ts hp)
      (by omega)
    have hmax : maxHeaderLenBytes = 65535 := rfl
    rw [length_extensionBlock hes] at hlen ⊢
    simp only [hes, ne_eq, not_false_eq_true, decide_true, if_true, hword]
    rw [if_neg (by omega), if_neg (by omega), if_neg (by omega)]

theorem parse_packet (hp : RtpHeader.parse src = .ok hdr) (hpt : pt ≤ 127) :
    RtpHeader.parse (packet src hdr sub pt seq ts) = .ok (outHeader src hdr sub pt seq ts) := by
  obtain ⟨-, -, -, hpad, hver, hp5, hp4, hcc, hmk, -⟩ := parse_iff.1 hp
  obtain ⟨-, hmin, hmax, -⟩ := parse_ok hp
  have hlen := length_packet_eq sub pt seq ts hp
  obtain ⟨h6, hlow, -, h5, h4⟩ := firstByte_bits (src.getD 0 0) (src.getD 0 0)
    (sub.outElements (elements src hdr) ≠ [])
  obtain ⟨h7, htype⟩ := secondByte_bits (src.getD 1 0) hpt
  have hfirst : (packet src hdr sub pt seq ts).getD 0 0 = 0x80 ||| (src.getD 0 0 &&& 0x20) |||
      (if decide (sub.outElements (elements src hdr) ≠ []) then 0x10 else 0) |||
      (src.getD 0 0 &&& 0x0F) := by
    rw [← hcc]
    rfl
  have hsecond : (packet src hdr sub pt seq ts).getD 1 0 = (src.getD 1 0 &&& 0x80) ||| pt := rfl
  rw [← hfirst] at h6 h5 h4 hlow
  rw [← hsecond] at h7 htype
  have hx : decide ((packet src hdr sub pt seq ts).getD 0 0 >>> 4 &&& 0x01 ≠ 0) =
      (outHeader src hdr sub pt seq ts).extension := by
    rw [h4]
    by_cases hes : sub.outElements (elements src hdr) = [] <;> simp [hes, outHeader]
  have hf0 : (packet src hdr sub pt seq ts).drop 0 = _ := rfl
  rw [packet, fixedHeader, append_assoc, append_assoc, append_assoc] at hf0
  have hf2 := drop_of_drop hf0 (k := 2) rfl
  have hf4 := drop_of_drop hf2 (length_beBytes ..)
  have hf8 := drop_of_drop hf4 (length_beBytes ..)
  refine parse_iff.2 ⟨?_, h6, ?_, ?_, hver, ?_, hx.symm, ?_, ?_, htype.symm, ?_, ?_, ?_⟩
  · rw [length_packet, wireLength]
    exact Nat.le_add_right ..
  · rw [hx, hlow, ← hcc]
    exact measure_packet hp
  · rw [h5, ← hp5, measurePadding_congr (by omega) hmax (drop_header hp), hp5]
    exact hpad
  · rw [h5]
    exact hp5
  · rw [hlow]
    exact hcc
  · rw [h7]
    exact hmk
  · exact (be16_of_slice (slice_of_drop hf2 (length_beBytes ..))).symm
  · exact (be32_of_slice (slice_of_drop hf4 (length_beBytes ..))).symm
  · exact (be32_of_slice (slice_of_drop hf8 (length_beBytes ..))).symm

theorem elements_packet (hp : RtpHeader.parse src = .ok hdr) (h : extMapIsValid sub.extMap)
    (n : Nat) : elementsUpTo n (packet src hdr sub pt seq ts) (outHeader src hdr sub pt seq ts) =
      (sub.outElements (elements src hdr)).take n := by
  have hlen := length_packet_eq sub pt seq ts hp
  simp only [elementsUpTo, outHeader] at hlen ⊢
  by_cases hes : sub.outElements (elements src hdr) = []
  · simp [hes]
  · have hwords := extensionBlock_words src hdr sub
    obtain ⟨hprofile, -, hblock⟩ := extensionBlock_read hes
      (drop_csrcs sub pt seq ts hp) (by omega)
    simp only [length_extensionBlock hes] at hlen ⊢
    rw [if_neg (by simp [hes]), if_neg (by omega), if_pos hprofile, ← Nat.add_assoc,
      Nat.add_sub_cancel_left, hblock, Elements.collect_encode (outElements_oneByte h _)]

end Read
end Packet
end NexusSfu.Dataplane
