import NexusSfu.Dataplane.Wire

/-!
The rewrite with every index check and assertion of the code, where `none` is a panic, and that a
valid subscription never reaches one.
-/

namespace NexusSfu.Dataplane

open Base Rtp Option List

theorem PtMap.map_le {m : PtMap} {pt out : UInt8} (h : m.map pt = some out) : out ≤ 127 := by
  obtain ⟨p, hp, rfl⟩ := map_eq_some_iff.1 h
  exact (m.seven_bit p (mem_of_find?_eq_some hp)).2

namespace Strict

def range (b : Bytes) (i j : Nat) : Option Bytes :=
  if i ≤ j ∧ j ≤ b.length then some (slice b i (j - i)) else none

def copyFromSlice (dst : Bytes) (i j : Nat) (bytes : Bytes) : Option Bytes :=
  if i ≤ j ∧ j ≤ dst.length ∧ bytes.length = j - i then some (writeAt dst i bytes) else none

def writeElement (dst : Bytes) (start : Nat) (id : UInt8) (data : Bytes) :
    Option (Except RewriteError (Bytes × Nat)) :=
  if id < 1 ∨ id > 14 ∨ data.length < 1 ∨ data.length > maxOneByteLen then none
  else
    let stop := start + 1 + data.length
    if stop > dst.length then some (.error .tooLarge)
    else do
      let dst ← copyFromSlice dst start (start + 1) [id <<< 4 ||| (UInt8.ofNat data.length - 1)]
      let dst ← copyFromSlice dst (start + 1) stop data
      return .ok (dst, stop)

def writeElements (sub : Subscription) :
    List Element → Bytes × Nat → Option (Except RewriteError (Bytes × Nat))
  | [], r => some (.ok r)
  | e :: es, (dst, stop) =>
    if e.id = sub.pubMid ∨ e.id.toNat ≥ 15 ∨ e.data.length > maxOneByteLen then
      writeElements sub es (dst, stop)
    else
      match sub.extMap.map.toList[e.id.toNat]? with
      | none => none
      | some mapped =>
        if mapped = 0 ∨ e.data = [] then writeElements sub es (dst, stop)
        else match writeElement dst stop mapped e.data with
          | none => none
          | some (.error err) => some (.error err)
          | some (.ok r) => writeElements sub es r

def closeBlock (start : Nat) (r : Bytes × Nat) : Option (Except RewriteError (Bytes × Nat)) :=
  let (dst, stop) := r
  let block := start + 4
  if stop = block then some (.ok (dst, start))
  else if stop < block then none
  else
    let padded := block + (stop - block + 3) / 4 * 4
    if padded > dst.length then some (.error .tooLarge)
    else do
      let dst ← copyFromSlice dst stop padded (List.replicate (padded - stop) 0)
      let dst ← copyFromSlice dst start (start + 2) (beBytes 2 0xBEDE)
      let dst ← copyFromSlice dst (start + 2) (start + 4) (beBytes 2 ((padded - block) / 4))
      return .ok (dst, padded)

def writeExtensions (src : Bytes) (hdr : RtpHeader) (sub : Subscription) (dst : Bytes)
    (start : Nat) : Option (Except RewriteError (Bytes × Nat)) := do
  match ← writeElements sub (elements src hdr) (dst, start + 4) with
  | .error e => return .error e
  | .ok (dst, stop) =>
    let withMid := if sub.extMap.mid ≠ 0 then writeElement dst stop sub.extMap.mid sub.mid.asBytes
      else some (.ok (dst, stop))
    match ← withMid with
    | .error e => return .error e
    | .ok r => closeBlock start r

def writeFixed (src : Bytes) (hdr : RtpHeader) (extended : Bool) (pt : UInt8) (seq : UInt16)
    (ts ssrc : UInt32) (dst : Bytes) : Option Bytes := do
  let first ← src[0]?
  let second ← src[1]?
  let dst ← copyFromSlice dst 0 1
    [0x80 ||| (first &&& 0x20) ||| (if extended then 0x10 else 0) ||| hdr.csrcCount]
  let dst ← copyFromSlice dst 1 2 [(second &&& 0x80) ||| pt]
  let dst ← copyFromSlice dst 2 4 (beBytes 2 seq.toNat)
  let dst ← copyFromSlice dst 4 8 (beBytes 4 ts.toNat)
  copyFromSlice dst 8 12 (beBytes 4 ssrc.toNat)

def rewrite (src : Bytes) (hdr : RtpHeader) (sub : Subscription) (rng : Rng) (now : Nat)
    (dst : Bytes) : Option (Except RewriteError (Bytes × Nat × Advance) × Rng) :=
  if src.length < hdr.headerLenBytes then none
  else match sub.ptMap.map hdr.payloadType with
  | none => some (.error .unmappedPt, rng)
  | some pt =>
    let csrcEnd := 12 + 4 * hdr.csrcCount.toNat
    if csrcEnd > dst.length then some (.error .tooLarge, rng)
    else do
      let csrcs ← range src 12 csrcEnd
      let dst ← copyFromSlice dst 12 csrcEnd csrcs
      match ← writeExtensions src hdr sub dst csrcEnd with
      | .error e => return (.error e, rng)
      | .ok (dst, headerEnd) =>
        let payload ← range src hdr.headerLenBytes src.length
        let outLen := headerEnd + payload.length
        if outLen > dst.length then return (.error .tooLarge, rng)
        else
          let dst ← copyFromSlice dst headerEnd outLen payload
          let ((seqOffset, tsOffset, rebased), rng) := offsets sub.rewrite hdr sub.clockRate rng now
          let outSeq := hdr.sequenceNumber + seqOffset
          let outTs := hdr.timestamp + tsOffset
          let dst ← writeFixed src hdr
              (headerEnd > csrcEnd) pt outSeq outTs sub.rewrite.outSsrc dst
          return (.ok (dst, outLen,
            { seqOffset, tsOffset, inSeq := hdr.sequenceNumber, outSeq, outTs, rebased }), rng)

variable {src dst bytes : Bytes} {i j start : Nat} {id : UInt8} {data : Bytes} {sub : Subscription}
  {hdr : RtpHeader} {rng : Rng} {now : Nat}

theorem copyFromSlice_eq (hj : i + bytes.length = j) (h : j ≤ dst.length) :
    copyFromSlice dst i j bytes = some (writeAt dst i bytes) :=
  if_pos ⟨by omega, h, by omega⟩

theorem copyFromSlice_next {front : Bytes} (hi : front.length = i) (hj : i + bytes.length = j)
    (h : j ≤ dst.length) :
    copyFromSlice (writeAt dst 0 front) i j bytes = some (writeAt dst 0 (front ++ bytes)) := by
  rw [copyFromSlice_eq hj (by rw [length_writeAt (by omega)]; exact h), ← Nat.zero_add i,
    writeAt_append hi (by omega)]

theorem writeElement_eq (hne : id ≠ 0) (hid : id ≤ 14) (hpos : data ≠ [])
    (hlen : data.length ≤ maxOneByteLen) :
    writeElement dst start id data = some (Dataplane.writeElement dst start id data) := by
  have hlen0 := length_pos_iff.2 hpos
  have hone : ¬ id < 1 := fun h => hne (UInt8.lt_one_iff.1 h)
  rw [writeElement,
    if_neg (by simp only [not_or]; exact ⟨hone, UInt8.not_lt.2 hid, by omega, by omega⟩),
    Dataplane.writeElement]
  by_cases hfit : start + 1 + data.length > dst.length
  · simp only [if_pos hfit]
  · simp only [if_neg hfit]
    rw [copyFromSlice_eq (by simp) (by omega), bind_eq_bind, bind_some,
      copyFromSlice_eq rfl (by rw [length_writeAt (by simp; omega)]; omega), bind_some,
      writeAt_append (by simp) (by omega)]
    rfl

theorem writeElements_eq (hmap : ∀ id ∈ sub.extMap.map.toList, id ≤ 14) (es : List Element)
    (r : Bytes × Nat) : writeElements sub es r = some (Dataplane.writeElements sub es r) := by
  induction es generalizing r with
  | nil => rfl
  | cons e es ih =>
    rw [writeElements_cons, writeElements]
    by_cases hskip : e.id = sub.pubMid ∨ e.id.toNat ≥ 15 ∨ e.data.length > maxOneByteLen
    · have hk : ¬ sub.keeps e := by
        simp only [Subscription.keeps, decide_eq_true_eq]
        rintro ⟨hpub, hid, hlen, -⟩
        rcases hskip with h | h | h
        · exact hpub h
        · omega
        · omega
      rw [if_pos hskip, if_neg hk, ih]
    · obtain ⟨hpub, hid, hlen⟩ : e.id ≠ sub.pubMid ∧ e.id.toNat < 15 ∧
          e.data.length ≤ maxOneByteLen := by
        simpa only [not_or, not_le, not_lt, ge_iff_le, gt_iff_lt] using hskip
      have hget : sub.extMap.map.toList[e.id.toNat]? = some (sub.mapped e) := by
        rw [Subscription.mapped, getD_eq_getElem?_getD, getElem?_eq_getElem (by simpa)]
        rfl
      rw [if_neg hskip, hget]
      by_cases hdrop : sub.mapped e = 0 ∨ e.data = []
      · have hk : ¬ sub.keeps e := by
          simp only [Subscription.keeps, decide_eq_true_eq]
          rintro ⟨-, -, -, hne, hdata⟩
          exact hdrop.elim hne hdata
        simp only [if_pos hdrop, if_neg hk, ih]
      · obtain ⟨hne, hdata⟩ := not_or.1 hdrop
        have hk : sub.keeps e := decide_eq_true ⟨hpub, hid, hlen, hne, hdata⟩
        simp only [if_neg hdrop, if_pos hk]
        rw [writeElement_eq hne (hmap _ (mem_of_getElem? hget)) hdata hlen]
        cases Dataplane.writeElement r.1 r.2 (sub.mapped e) e.data with
        | error err => rfl
        | ok r => exact ih r

theorem closeBlock_eq {r : Bytes × Nat} (h : start + 4 ≤ r.2) :
    closeBlock start r = some (Dataplane.closeBlock start r) := by
  obtain ⟨dst, stop⟩ := r
  simp only [closeBlock, Dataplane.closeBlock]
  by_cases hnone : stop = start + 4
  · simp only [if_pos hnone]
  · simp only [if_neg hnone, if_neg (show ¬ stop < start + 4 by omega)]
    generalize hp : start + 4 + (stop - (start + 4) + 3) / 4 * 4 = padded
    by_cases hbig : padded > dst.length
    · simp only [if_pos hbig]
    · have hwords : (padded - (start + 4)) / 4 = (stop - (start + 4) + 3) / 4 := by omega
      have hd : (writeAt dst stop (List.replicate (padded - stop) 0)).length = dst.length :=
        length_writeAt (by simp; omega)
      simp only [if_neg hbig]
      rw [copyFromSlice_eq (by simp; omega) (by omega), bind_eq_bind, bind_some,
        copyFromSlice_eq (by simp) (by omega), bind_some,
        copyFromSlice_eq (by simp) (by rw [length_writeAt (by simp; omega)]; omega),
        bind_some, writeAt_append (by simp) (by omega), hwords]
      rfl

theorem writeMid_eq (hmid : sub.extMap.mid ≤ 14) (r : Bytes × Nat) :
    (if sub.extMap.mid ≠ 0 then writeElement r.1 r.2 sub.extMap.mid sub.mid.asBytes
      else some (.ok r)) = some (writeMid sub r) := by
  by_cases hm : sub.extMap.mid = 0
  · simp [writeMid, hm]
  · simp only [writeMid, ne_eq, hm, not_false_eq_true, if_true]
    exact writeElement_eq hm hmid sub.mid.ne_nil sub.mid.length_le

theorem le_of_writeMid {r t : Bytes × Nat} (h : writeMid sub r = .ok t) : r.2 ≤ t.2 := by
  simp only [writeMid] at h
  split_ifs at h
  · exact (writeElement_ok h).2.1.le
  · cases h
    exact le_rfl

theorem writeExtensions_eq (h : extMapIsValid sub.extMap) : writeExtensions src hdr sub dst start =
      some (Dataplane.writeExtensions src hdr sub dst start) := by
  obtain ⟨hmap, hmid⟩ := extMapIsValid_le h
  rw [writeExtensions, writeElements_eq hmap, writeExtensions_bind, bind_eq_bind,
    bind_some]
  cases hels : Dataplane.writeElements sub (elements src hdr) (dst, start + 4) with
  | error e => rfl
  | ok r =>
    have hle := (writeElements_ok hels).2
    simp only [writeMid_eq hmid r, Except.bind, bind_some]
    cases ht : writeMid sub r with
    | error e => rfl
    | ok t => exact closeBlock_eq (hle.trans (le_of_writeMid ht))

theorem writeFixed_eq (h2 : 2 ≤ src.length) (h12 : 12 ≤ dst.length) (x : Bool) (pt : UInt8)
    (seq : UInt16) (ts ssrc : UInt32) : writeFixed src hdr x pt seq ts ssrc dst =
      some (writeAt dst 0 (fixedHeader src hdr x pt seq ts ssrc)) := by
  have h0 : src[0]? = some (src.getD 0 0) := by
    rw [getD_eq_getElem?_getD, getElem?_eq_getElem (by omega)]
    rfl
  have h1 : src[1]? = some (src.getD 1 0) := by
    rw [getD_eq_getElem?_getD, getElem?_eq_getElem (by omega)]
    rfl
  simp only [writeFixed, h0, h1, bind_eq_bind, bind_some]
  rw [copyFromSlice_eq (by rfl) (by omega), bind_some,
    copyFromSlice_next (by rfl) (by rfl) (by omega), bind_some,
    copyFromSlice_next (by rfl) (by rfl) (by omega), bind_some,
    copyFromSlice_next (by rfl) (by rfl) (by omega), bind_some,
    copyFromSlice_next (by rfl) (by rfl) (by omega)]
  rfl

theorem rewrite_eq (hp : RtpHeader.parse src = .ok hdr) (h : extMapIsValid sub.extMap) :
    rewrite src hdr sub rng now dst = some (Dataplane.rewrite src hdr sub rng now dst) := by
  obtain ⟨-, hmin, hmax, -⟩ := RtpHeader.parse_ok hp
  rw [rewrite, if_neg (by omega), Dataplane.rewrite]
  cases sub.ptMap.map hdr.payloadType with
  | none => rfl
  | some pt =>
    simp only []
    by_cases hcsrc : 12 + 4 * hdr.csrcCount.toNat > dst.length
    · simp only [if_pos hcsrc]
    · simp only [if_neg hcsrc]
      have hlen : (slice src 12 (12 + 4 * hdr.csrcCount.toNat - 12)).length =
        12 + 4 * hdr.csrcCount.toNat - 12 := length_slice (by omega)
      rw [range, if_pos (by omega), bind_eq_bind, bind_some,
        copyFromSlice_eq (by omega) (by omega), bind_some, writeExtensions_eq h]
      cases hext : Dataplane.writeExtensions src hdr sub _ (12 + 4 * hdr.csrcCount.toNat) with
      | error e => rfl
      | ok r =>
        obtain ⟨d, headerEnd⟩ := r
        have hpayload : range src hdr.headerLenBytes src.length =
            some (src.drop hdr.headerLenBytes) := by
          rw [range, if_pos (by omega), slice, take_of_length_le (by simp)]
        have hd : d.length = dst.length := by
          rw [(writeExtensions_ok hext).1, length_writeAt (by omega)]
        simp only [bind_eq_bind, bind_some, hpayload]
        by_cases hbig : headerEnd + (src.drop hdr.headerLenBytes).length > d.length
        · simp only [if_pos hbig]
          rfl
        · simp only [if_neg hbig]
          rw [copyFromSlice_eq rfl (by omega), bind_some, writeFixed_eq (by omega)
            (by rw [length_writeAt (by omega)]; omega)]
          rfl

/-- The rewrite never panics; it refuses an unmapped payload type and an output that does not fit;
else a reader of the output finds the source's packet with the subscriber's numbers and elements. -/
theorem rewrite_correct (src dst : Bytes) (hdr : RtpHeader) (sub : Subscription) (rng : Rng)
    (now : Nat) (hp : RtpHeader.parse src = .ok hdr) (hext : extMapIsValid sub.extMap) :
    ∃ result rng', rewrite src hdr sub rng now dst = some (result, rng') ∧
      (result = .error .unmappedPt ↔ sub.ptMap.map hdr.payloadType = none) ∧
        (result = .error .tooLarge ↔
        sub.ptMap.map hdr.payloadType ≠ none ∧ dst.length < wireLength src hdr sub) ∧
      ∀ dst' len advance, result = .ok (dst', len, advance) →
        len = wireLength src hdr sub ∧ dst'.length = dst.length ∧
          dst'.drop len = dst.drop len ∧
        ∃ pt out, sub.ptMap.map hdr.payloadType = some pt ∧
          RtpHeader.parse (dst'.take len) = .ok out ∧
          out.version = hdr.version ∧ out.padding = hdr.padding ∧ out.marker = hdr.marker ∧
          out.csrcCount = hdr.csrcCount ∧ slice (dst'.take len) 12 (4 * hdr.csrcCount.toNat) =
            slice src 12 (4 * hdr.csrcCount.toNat) ∧
          (dst'.take len).drop out.headerLenBytes = src.drop hdr.headerLenBytes ∧
          out.payloadType = pt ∧ out.ssrc = sub.rewrite.outSsrc ∧
          out.sequenceNumber = hdr.sequenceNumber + advance.seqOffset ∧
          out.timestamp = hdr.timestamp + advance.tsOffset ∧
            ∀ n, elementsUpTo n (dst'.take len) out =
            (sub.outElements (elements src hdr)).take n := by
  rw [rewrite_eq hp hext, Dataplane.rewrite_eq hp]
  cases hmap : sub.ptMap.map hdr.payloadType with
  | none => exact ⟨_, _, rfl, by simp, by simp, nofun⟩
  | some pt =>
    by_cases hfit : dst.length < wireLength src hdr sub
    · simp only [if_pos hfit]
      exact ⟨_, _, rfl, by simp, by simpa using hfit, nofun⟩
    · simp only [if_neg hfit]
      refine ⟨_, _, rfl, by simp, by simpa using hfit, ?_⟩
      rintro dst' len advance ⟨rfl⟩
      generalize hdr.sequenceNumber + (offsets sub.rewrite hdr sub.clockRate rng now).1.1 = seq
      generalize hdr.timestamp + (offsets sub.rewrite hdr sub.clockRate rng now).1.2.1 = ts
      have hlen : (packet src hdr sub pt seq ts).length = wireLength src hdr sub :=
        length_packet pt seq ts
      have hroom : 0 + (packet src hdr sub pt seq ts).length ≤ dst.length := by omega
      rw [take_rewritten]
      exact ⟨rfl, length_writeAt hroom, drop_writeAt (Nat.zero_le _) (by omega), pt, _, rfl,
        parse_packet hp (sub.ptMap.map_le hmap), rfl, rfl, rfl, rfl, slice_csrcs hp,
        drop_header hp, rfl, rfl, rfl, rfl, elements_packet hp hext⟩

def mappedPacket : Bytes :=
  [0x90, 0xE0, 0, 1, 0, 0, 0, 2, 0, 0, 0, 3, 0xBE, 0xDE, 0, 1, 0x30, 0xAA, 0x10, 0xBB, 0x55]

def mappedHeader : RtpHeader := ⟨2, false, true, 0, true, 96, 1, 2, 3, 20, 0⟩

def mappedSub : Subscription where
  id := ⟨1, firstId_ne_zero⟩
  session := ⟨0, 0⟩
  track := ⟨0, 0⟩
  rewrite := .new 9
  extMap := ⟨⟨#[0, 0, 0, 5, 0, 0, 0, 0, 0, 0, 0, 0, 0, 0, 0], rfl⟩, 2⟩
  pubMid := 1
  clockRate := 90000
  ptMap := ⟨[(96, 100)], by simp, by simp, by simp⟩
  mid := ⟨[0x37], by decide, by decide⟩
  sentPackets := 0
  sentOctets := 0

theorem rewrite_correct_mapped : ∃ dst len advance rng,
    rewrite mappedPacket mappedHeader mappedSub ⟨7⟩ 0 (List.replicate 32 0) =
      some (.ok (dst, len, advance), rng) ∧ len = 21 := by
  obtain ⟨result, rng, hrun, hpt, hlarge, hok⟩ :=
    rewrite_correct mappedPacket (List.replicate 32 0)
    mappedHeader mappedSub ⟨7⟩ 0 (by decide +kernel) (by decide +kernel)
  cases result with
  | error e =>
    cases e with
    | unmappedPt => exact absurd (hpt.1 rfl) (by decide +kernel)
    | tooLarge => exact absurd (hlarge.1 rfl).2 (by decide +kernel)
  | ok r =>
    have hlen := (hok _ _ _ rfl).1
    exact ⟨_, _, _, rng, hrun, hlen.trans (by decide +kernel)⟩

end Strict
end NexusSfu.Dataplane
