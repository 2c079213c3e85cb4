import NexusSfu.Base.Bytes

namespace NexusSfu.Srtp

open Base

inductive SrtpError
  | packetTooShort
  | packetTooLarge
  | invalidRtpHeader
  | authenticationFailed
  | encryptionFailed
  | replayDetected
  | bufferTooSmall
  | invalidSsrc
  | rocOverflow
  | sessionLimitReached
  deriving DecidableEq, Repr

abbrev rtpHeaderSize : Nat := 12
abbrev rtcpHeaderSize : Nat := 8
abbrev srtpAuthTagSize : Nat := 16
abbrev maxPacketSize : Nat := 8192
abbrev replayWindowSize : Nat := 64
def srtcpIndexMask : UInt32 := 0x7FFFFFFF
def srtcpEFlag : UInt32 := 0x80000000

@[ext]
structure PacketIndex where
  roc : UInt32
  seq : UInt16
  deriving DecidableEq, Repr

namespace PacketIndex

def value (x : PacketIndex) : Nat := x.roc.toNat * 65536 + x.seq.toNat

theorem value_lt (x : PacketIndex) : x.value < 256 ^ 6 := by
  have hr := x.roc.toNat_lt
  have hs := x.seq.toNat_lt
  simp only [value]
  omega

theorem value_inj {x y : PacketIndex} (h : x.value = y.value) : x = y := by
  have hx := x.seq.toNat_lt
  have hy := y.seq.toNat_lt
  simp only [value] at h
  ext
  · omega
  · omega

end PacketIndex

structure RtpHeader where
  version : UInt8
  padding : Bool
  extension : Bool
  csrcCount : UInt8
  marker : Bool
  payloadType : UInt8
  sequenceNumber : UInt16
  timestamp : UInt32
  ssrc : UInt32
  headerLen : Nat
  deriving DecidableEq, Repr

namespace RtpHeader

def measure (data : Bytes) (extension : Bool) (csrcCount : UInt8) : Option Nat :=
  let fixed := rtpHeaderSize + csrcCount.toNat * 4
  if extension then
    if data.length < fixed + 4 then none
    else some (fixed + 4 + (be16 data (fixed + 2)).toNat * 4)
  else some fixed

def parse (data : Bytes) : Option RtpHeader :=
  let first := data.getD 0 0
  let second := data.getD 1 0
  let version := (first >>> 6) &&& 0x03
  let extension := first &&& 0x10 ≠ 0
  let csrcCount := first &&& 0x0F
  if data.length < rtpHeaderSize then none
  else if version ≠ 2 then none
  else match measure data extension csrcCount with
    | none => none
    | some headerLen =>
      if data.length < headerLen then none
      else some {
        version
        padding := first &&& 0x20 ≠ 0
        extension
        csrcCount
        marker := second &&& 0x80 ≠ 0
        payloadType := second &&& 0x7F
        sequenceNumber := be16 data 2
        timestamp := be32 data 4
        ssrc := be32 data 8
        headerLen }

variable {data : Bytes} {h : RtpHeader}

theorem le_measure {extension : Bool} {csrcCount : UInt8} {n : Nat}
    (hm : measure data extension csrcCount = some n) : rtpHeaderSize ≤ n := by
  simp only [measure] at hm
  split_ifs at hm <;> obtain rfl := Option.some.inj hm <;> omega

theorem measure_congr {data' : Bytes} {extension : Bool} {csrcCount : UInt8} {n : Nat}
    (hm : measure data extension csrcCount = some n) (ht : data'.take n = data.take n)
    (hlen : n ≤ data'.length) : measure data' extension csrcCount = some n := by
  simp only [measure] at hm ⊢
  split_ifs at hm with hext
  · rename_i hshort
    have hn := Option.some.inj hm
    have hword : be16 data' (rtpHeaderSize + csrcCount.toNat * 4 + 2) =
        be16 data (rtpHeaderSize + csrcCount.toNat * 4 + 2) := by
      rw [be16, be16, slice_congr ht (by omega)]
    rw [if_pos hext, if_neg (by omega), hword, hm]
  · rw [if_neg hext, hm]

theorem parse_bounds (hp : parse data = some h) :
    rtpHeaderSize ≤ h.headerLen ∧ h.headerLen ≤ data.length ∧ h.ssrc = be32 data 8 ∧
      h.sequenceNumber = be16 data 2 := by
  simp only [parse] at hp
  split_ifs at hp
  split at hp
  · cases hp
  · rename_i headerLen hm
    split_ifs at hp with hfit
    cases hp
    exact ⟨le_measure hm, by simpa using hfit, rfl, rfl⟩

theorem parse_congr {data' : Bytes} (hp : parse data = some h)
    (ht : data'.take h.headerLen = data.take h.headerLen) (hlen : h.headerLen ≤ data'.length) :
    parse data' = some h := by
  obtain ⟨hmin, -⟩ := parse_bounds hp
  have h12 : rtpHeaderSize = 12 := rfl
  have h0 := getD_congr (i := 0) ht (by omega)
  have h1 := getD_congr (i := 1) ht (by omega)
  have hseq : be16 data' 2 = be16 data 2 := by rw [be16, be16, slice_congr ht (by omega)]
  have hts : be32 data' 4 = be32 data 4 := by rw [be32, be32, slice_congr ht (by omega)]
  have hssrc : be32 data' 8 = be32 data 8 := by rw [be32, be32, slice_congr ht (by omega)]
  simp only [parse] at hp ⊢
  rw [h0, h1, hseq, hts, hssrc]
  split_ifs at hp with hshort hver
  rw [if_neg (by omega), if_neg hver]
  split at hp
  · cases hp
  · rename_i headerLen hm
    split_ifs at hp with hfit
    have hhl : headerLen = h.headerLen := by
      rw [← Option.some.inj hp]
    rw [measure_congr hm (hhl ▸ ht) (by omega)]
    simp only [if_neg (show ¬ data'.length < headerLen by omega)]
    exact hp

theorem parse_isSome {n : Nat} (hlen : rtpHeaderSize ≤ data.length)
    (hver : (data.getD 0 0 >>> 6) &&& 0x03 = 2)
    (hm : measure data (data.getD 0 0 &&& 0x10 ≠ 0) (data.getD 0 0 &&& 0x0F) = some n)
    (hn : n ≤ data.length) : ∃ x, parse data = some x := by
  simp only [parse]
  rw [if_neg (by omega), if_neg (not_not.2 hver), hm]
  simp only [if_neg (show ¬ data.length < n by omega)]
  exact ⟨_, rfl⟩

end RtpHeader
end NexusSfu.Srtp
