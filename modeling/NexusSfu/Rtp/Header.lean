import NexusSfu.Base.Bytes

namespace NexusSfu.Rtp

open Base List

inductive RtpError
  | tooShort (actualBytes minBytes : Nat)
  | invalidVersion (version : UInt8)
  | invalidCsrcCount (count : UInt8) (availableBytes : Nat)
  | invalidExtension
  | invalidPadding (paddingLen : UInt8) (availableBytes : Nat)
  deriving DecidableEq, Repr

abbrev rtpHeaderMinSizeBytes : Nat := 12
abbrev rtpCsrcSizeBytes : Nat := 4
abbrev maxHeaderLenBytes : Nat := 65535

structure RtpHeader where
  version : UInt8
  padding : Bool
  extension : Bool
  csrcCount : UInt8
  marker : Bool
  payloadType : UInt8
  sequenceNumber : UInt16
  timestamp : UInt32
  ssrc : UInt32
  headerLenBytes : Nat
  paddingLen : UInt8
  deriving DecidableEq, Repr

namespace RtpHeader

def measure (data : Bytes) (extension : Bool) (csrcCount : UInt8) : Except RtpError Nat :=
  let afterCsrc := rtpHeaderMinSizeBytes + csrcCount.toNat * rtpCsrcSizeBytes
  if data.length < afterCsrc then
    .error (.invalidCsrcCount csrcCount (data.length - rtpHeaderMinSizeBytes))
  else if extension then
    let headerLen := afterCsrc + (4 + (be16 data (afterCsrc + 2)).toNat * 4)
    if data.length < afterCsrc + 4 then .error .invalidExtension
    else if headerLen > maxHeaderLenBytes then .error .invalidExtension
    else if data.length < headerLen then .error .invalidExtension
    else .ok headerLen
  else .ok afterCsrc

def measurePadding (data : Bytes) (padding : Bool) (headerLen : Nat) : Except RtpError UInt8 :=
  if !padding then .ok 0
  else if data.length ≤ headerLen then .error (.invalidPadding 0 (data.length - headerLen))
  else
    let pad := data.getD (data.length - 1) 0
    if pad = 0 ∨ pad.toNat > data.length - headerLen then
      .error (.invalidPadding pad (data.length - headerLen))
    else .ok pad

def parse (data : Bytes) : Except RtpError RtpHeader :=
  let first := data.getD 0 0
  let second := data.getD 1 0
  let version := (first >>> 6) &&& 0x03
  let padding := (first >>> 5) &&& 0x01 ≠ 0
  let extension := (first >>> 4) &&& 0x01 ≠ 0
  let csrcCount := first &&& 0x0F
  if data.length < rtpHeaderMinSizeBytes then
    .error (.tooShort data.length rtpHeaderMinSizeBytes)
  else if version ≠ 2 then .error (.invalidVersion version)
  else match measure data extension csrcCount with
    | .error e => .error e
    | .ok headerLenBytes =>
      match measurePadding data padding headerLenBytes with
      | .error e => .error e
      | .ok paddingLen => .ok {
          version
          padding
          extension
          csrcCount
          marker := (second >>> 7) &&& 0x01 ≠ 0
          payloadType := second &&& 0x7F
          sequenceNumber := be16 data 2
          timestamp := be32 data 4
          ssrc := be32 data 8
          headerLenBytes
          paddingLen }

variable {data : Bytes} {h : RtpHeader}

theorem measure_bounds {extension : Bool} {csrcCount : UInt8} {n : Nat}
    (hm : measure data extension csrcCount = .ok n) :
    12 + 4 * csrcCount.toNat ≤ n ∧ n ≤ data.length := by
  have hconst : rtpHeaderMinSizeBytes = 12 ∧ rtpCsrcSizeBytes = 4 := ⟨rfl, rfl⟩
  simp only [measure] at hm
  split_ifs at hm <;> obtain rfl := Except.ok.inj hm <;> rw [hconst.1, hconst.2] at * <;> omega

theorem parse_iff : parse data = .ok h ↔
    rtpHeaderMinSizeBytes ≤ data.length ∧ (data.getD 0 0 >>> 6) &&& 0x03 = 2 ∧
      measure data ((data.getD 0 0 >>> 4) &&& 0x01 ≠ 0) (data.getD 0 0 &&& 0x0F) =
        .ok h.headerLenBytes ∧
      measurePadding data ((data.getD 0 0 >>> 5) &&& 0x01 ≠ 0) h.headerLenBytes =
        .ok h.paddingLen ∧
      h.version = 2 ∧ h.padding = ((data.getD 0 0 >>> 5) &&& 0x01 ≠ 0 : Bool) ∧
      h.extension = ((data.getD 0 0 >>> 4) &&& 0x01 ≠ 0 : Bool) ∧
        h.csrcCount = data.getD 0 0 &&& 0x0F ∧
      h.marker = ((data.getD 1 0 >>> 7) &&& 0x01 ≠ 0 : Bool) ∧
      h.payloadType = data.getD 1 0 &&& 0x7F ∧ h.sequenceNumber = be16 data 2 ∧
      h.timestamp = be32 data 4 ∧ h.ssrc = be32 data 8 := by
  constructor
  · intro hp
    simp only [parse] at hp
    split_ifs at hp with hmin hver
    split at hp
    · cases hp
    rename_i n hm
    split at hp
    · cases hp
    rename_i pad hpad
    obtain rfl := Except.ok.inj hp
    have hver := not_not.1 hver
    exact ⟨not_lt.1 hmin, hver, hm, hpad, hver, rfl, rfl, rfl, rfl, rfl, rfl, rfl, rfl⟩
  · rintro ⟨hmin, hver, hm, hpad, hv, hp, hx, hc, hmk, hpt, hseq, hts, hssrc⟩
    rw [parse, if_neg (not_lt.2 hmin), if_neg (not_not.2 hver)]
    simp only [hm, hpad]
    rw [hver, ← hv, ← hp, ← hx, ← hc, ← hmk, ← hpt, ← hseq, ← hts, ← hssrc]

theorem parse_ok (hp : parse data = .ok h) :
    h.csrcCount = data.getD 0 0 &&& 0x0F ∧ 12 + 4 * h.csrcCount.toNat ≤ h.headerLenBytes ∧
      h.headerLenBytes ≤ data.length ∧ h.sequenceNumber = be16 data 2 ∧
        h.ssrc = be32 data 8 := by
  obtain ⟨-, -, hm, -, -, -, -, hc, -, -, hseq, -, hssrc⟩ := parse_iff.1 hp
  obtain ⟨hle, hlen⟩ := measure_bounds hm
  exact ⟨hc, hc ▸ hle, hlen, hseq, hssrc⟩

theorem measurePadding_congr {data' : Bytes} {padding : Bool} {n n' : Nat} (hn : n ≤ data.length)
    (hn' : n' ≤ data'.length) (hd : data.drop n = data'.drop n') :
    measurePadding data padding n = measurePadding data' padding n' := by
  have hlen := congrArg List.length hd
  rw [length_drop, length_drop] at hlen
  have hle : data.length ≤ n ↔ data'.length ≤ n' := by omega
  have hlast : n < data.length → data.getD (data.length - 1) 0 = data'.getD
      (data'.length - 1) 0 := by
    intro hlt
    have hget := congrArg (fun l => l.getD (data.length - n - 1) 0) hd
    simp only [getD_eq_getElem?_getD, getElem?_drop] at hget ⊢
    rwa [show n + (data.length - n - 1) = data.length - 1 by omega,
      show n' + (data.length - n - 1) = data'.length - 1 by omega] at hget
  simp only [measurePadding, hle, hlen]
  by_cases hshort : data'.length ≤ n'
  · simp only [if_pos hshort]
  · simp only [if_neg hshort, hlast (by omega)]

def payloadLen (h : RtpHeader) (packetLen : Nat) : Nat :=
  packetLen - h.headerLenBytes - h.paddingLen.toNat

end RtpHeader

abbrev maxElements : Nat := 16

abbrev maxOneByteLen : Nat := 16

structure Element where
  id : UInt8
  data : Bytes
  deriving DecidableEq, Repr

structure Elements where
  block : Bytes
  twoByte : Bool

namespace Elements

def isPadding (twoByte : Bool) (byte : UInt8) : Bool :=
  if twoByte then byte == 0 else byte >>> 4 == 0

def next (e : Elements) : Option (Element × Elements) :=
  match e.block.dropWhile (isPadding e.twoByte) with
  | [] => none
  | first :: rest =>
    if e.twoByte then
      match rest with
      | [] => none
      | len :: rest =>
        if rest.length < len.toNat then none
        else some (⟨first, rest.take len.toNat⟩, { e with block := rest.drop len.toNat })
    else if first >>> 4 = 15 then none
    else
      let len := (first &&& 0x0F).toNat + 1
      if rest.length < len then none
      else some (⟨first >>> 4, rest.take len⟩, { e with block := rest.drop len })

def collect : Nat → Elements → List Element
  | 0, _ => []
  | fuel + 1, e =>
    match e.next with
    | none => []
    | some (x, e) => x :: collect fuel e

end Elements

def elements (packet : Bytes) (header : RtpHeader) : List Element :=
  let start := 12 + 4 * header.csrcCount.toNat
  let stop := header.headerLenBytes
  let profile := be16 packet start
  let block := slice packet (start + 4) (stop - (start + 4))
  if !header.extension then []
  else if stop < start + 4 ∨ stop > packet.length then []
  else if profile = 0xBEDE then Elements.collect maxElements ⟨block, false⟩
  else if profile &&& 0xFFF0 = 0x1000 then Elements.collect maxElements ⟨block, true⟩
  else []

def findElement (packet : Bytes) (header : RtpHeader) (id : UInt8) : Option Bytes :=
  if id = 0 then none
  else ((elements packet header).find? fun e => e.id = id).map Element.data

end NexusSfu.Rtp
