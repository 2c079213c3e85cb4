import NexusSfu.Dataplane.Session
import NexusSfu.Rtp.Rtcp

namespace NexusSfu.Dataplane

open Base Rtp List

abbrev srLen : Nat := 28

abbrev pliLen : Nat := 12

abbrev maxFirEntries : Nat := 16

abbrev maxWanted : Nat := 32

def fmtPli : UInt8 := 1

def fmtFir : UInt8 := 4

def rtcpHeader (count pt : UInt8) (len : Nat) : Bytes :=
  [0x80 ||| count, pt] ++ beBytes 2 (len / 4 - 1)

def writeSr (dst : Bytes) (ssrc : UInt32) (sr : SrInfo) (packets octets : UInt32) :
    Option (Bytes × Nat) :=
  if dst.length < srLen then none
  else some (writeAt dst 0 (rtcpHeader 0 200 srLen ++ beBytes 4 ssrc.toNat ++
    beBytes 8 sr.ntp.toNat ++ beBytes 4 sr.rtp.toNat ++ beBytes 4 packets.toNat ++
    beBytes 4 octets.toNat), srLen)

def writeSdesCname (dst : Bytes) (start : Nat) (ssrc : UInt32) (cname : CnameValue) :
    Option (Bytes × Nat) :=
  let name := cname.asBytes
  let len := (4 + 4 + 2 + name.length + 1 + 3) / 4 * 4
  if dst.length < start + len then none
  else some (writeAt dst start (rtcpHeader 1 202 len ++ beBytes 4 ssrc.toNat ++
    [1, UInt8.ofNat name.length] ++ name ++ List.replicate (len - (10 + name.length)) 0), len)

def writePli (dst : Bytes) (senderSsrc mediaSsrc : UInt32) : Option (Bytes × Nat) :=
  if dst.length < pliLen then none
  else some (writeAt dst 0 (rtcpHeader fmtPli 206 pliLen ++ beBytes 4 senderSsrc.toNat ++
    beBytes 4 mediaSsrc.toNat), pliLen)

def writeTranslatedSr (dst : Bytes) (ssrc : UInt32) (sr : SrInfo) (packets octets : UInt32)
    (cname : CnameValue) : Option (Bytes × Nat) := do
  let (dst, n) ← writeSr dst ssrc sr packets octets
  let (dst, m) ← writeSdesCname dst n ssrc cname
  return (dst, n + m)

section Length

variable {dst : Bytes} {ssrc ssrc' packets octets : UInt32} {sr : SrInfo} {cname : CnameValue}
  {start : Nat} {p : Bytes × Nat}

@[simp] theorem length_rtcpHeader (count pt : UInt8) (len : Nat) :
    (rtcpHeader count pt len).length = 4 := by
  simp [rtcpHeader]

theorem writePli_length (h : writePli dst ssrc ssrc' = some p) : p.1.length = dst.length := by
  simp only [writePli] at h
  split_ifs at h with hlt
  cases h
  exact length_writeAt (by simpa using hlt)

theorem writeSr_length (h : writeSr dst ssrc sr packets octets = some p) :
    p.1.length = dst.length := by
  simp only [writeSr] at h
  split_ifs at h with hlt
  cases h
  exact length_writeAt (by simpa using hlt)

theorem writeSdesCname_length (h : writeSdesCname dst start ssrc cname = some p) :
    p.1.length = dst.length := by
  simp only [writeSdesCname] at h
  split_ifs at h with hlt
  cases h
  refine length_writeAt ?_
  simp only [length_append, length_rtcpHeader, length_beBytes, length_cons, length_nil,
    length_replicate]
  omega

theorem writeTranslatedSr_length (h : writeTranslatedSr dst ssrc sr packets octets cname = some p) :
    p.1.length = dst.length := by
  obtain ⟨⟨dst', n⟩, hsr, h⟩ := Option.bind_eq_some_iff.1 h
  obtain ⟨⟨dst'', m⟩, hsdes, h⟩ := Option.bind_eq_some_iff.1 h
  cases h
  exact (writeSdesCname_length hsdes).trans (writeSr_length hsr)

end Length

def firTargets (packet : Bytes) : List UInt32 :=
  (List.range (min maxFirEntries ((packet.length - 12) / 8))).map fun i => be32 packet (12 + 8 * i)

structure Requests where
  srs : List (UInt32 × SrInfo)
  keyframes : FixedVec UInt32 maxWanted
  ignored : Nat

namespace Requests

def empty : Requests := ⟨[], .new, 0⟩

/-- One report per SSRC, the last. At most 16 blocks are read, so the list never fills. -/
def noteSr (r : Requests) (ssrc : UInt32) (info : SrInfo) : Requests :=
  if r.srs.any fun p => p.1 = ssrc then
    { r with srs := r.srs.map fun p => if p.1 = ssrc then (p.1, info) else p }
  else { r with srs := r.srs ++ [(ssrc, info)] }

def wantKeyframe (r : Requests) (ssrc : UInt32) : Requests :=
  { r with keyframes := (r.keyframes.push ssrc).2 }

def note (r : Requests) (entry : CompoundEntry) : Option Requests :=
  match entry.header.packetType with
  | .senderReport =>
    match SenderReport.parse entry.data with
    | .error _ => none
    | .ok sr => some (r.noteSr sr.ssrc ⟨sr.ntpTimestamp, sr.rtpTimestamp⟩)
  | .payloadFeedback =>
    if entry.header.count = fmtPli then
      match PliPacket.parse entry.data with
      | .error _ => none
      | .ok pli => some (r.wantKeyframe pli.mediaSsrc)
    else if entry.header.count = fmtFir then
      some ((firTargets entry.data).foldl wantKeyframe r)
    else some { r with ignored := r.ignored + 1 }
  | _ => some { r with ignored := r.ignored + 1 }

/-- `none` when a block is malformed or the blocks read do not cover the compound. -/
def read (data : Bytes) : Option Requests :=
  match demuxCompound data with
  | .error _ => none
  | .ok entries =>
    if (entries.map fun e => e.data.length).sum ≠ data.length then none
    else entries.foldlM note empty

end Requests
end NexusSfu.Dataplane
