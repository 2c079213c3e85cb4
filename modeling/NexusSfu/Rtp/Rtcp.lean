import NexusSfu.Base.Bytes

namespace NexusSfu.Rtp

open Base

abbrev rtcpHeaderMinSizeBytes : Nat := 8

abbrev maxCompoundPackets : Nat := 16

abbrev senderReportMinSizeBytes : Nat := 28

inductive RtcpError
  | tooShort (actualBytes minBytes : Nat)
  | invalidVersion (version : UInt8)
  | invalidPacketType (packetType : UInt8)
  deriving DecidableEq, Repr

inductive RtcpType
  | senderReport
  | receiverReport
  | sourceDescription
  | goodbye
  | applicationDefined
  | transportFeedback
  | payloadFeedback
  | extendedReports
  | unknown (pt : UInt8)
  deriving DecidableEq, Repr

def RtcpType.fromByte (pt : UInt8) : RtcpType :=
  if pt = 200 then .senderReport
  else if pt = 201 then .receiverReport
  else if pt = 202 then .sourceDescription
  else if pt = 203 then .goodbye
  else if pt = 204 then .applicationDefined
  else if pt = 205 then .transportFeedback
  else if pt = 206 then .payloadFeedback
  else if pt = 207 then .extendedReports
  else .unknown pt

structure RtcpHeader where
  version : UInt8
  padding : Bool
  count : UInt8
  packetType : RtcpType
  lengthWords : UInt16
  ssrc : UInt32
  deriving DecidableEq

namespace RtcpHeader

def parse (data : Bytes) : Except RtcpError RtcpHeader :=
  if data.length < rtcpHeaderMinSizeBytes then
    .error (.tooShort data.length rtcpHeaderMinSizeBytes)
  else
    let first := data.getD 0 0
    let version := (first >>> 6) &&& 0x03
    if version ≠ 2 then .error (.invalidVersion version)
    else .ok {
      version
      padding := (first >>> 5) &&& 0x01 ≠ 0
      count := first &&& 0x1F
      packetType := .fromByte (data.getD 1 0)
      lengthWords := be16 data 2
      ssrc := be32 data 4 }

def packetLenBytes (h : RtcpHeader) : Nat := (h.lengthWords.toNat + 1) * 4

end RtcpHeader

structure CompoundEntry where
  header : RtcpHeader
  data : Bytes

def demux : Nat → Bytes → Except RtcpError (List CompoundEntry)
  | 0, _ => .ok []
  | n + 1, data =>
    if data.length < rtcpHeaderMinSizeBytes then .ok []
    else match RtcpHeader.parse data with
      | .error e => .error e
      | .ok header =>
        let packetLen := header.packetLenBytes
        if packetLen < 4 ∨ packetLen > data.length then .error (.tooShort data.length packetLen)
        else match demux n (data.drop packetLen) with
          | .error e => .error e
          | .ok entries => .ok (⟨header, data.take packetLen⟩ :: entries)

def demuxCompound (data : Bytes) : Except RtcpError (List CompoundEntry) :=
  demux maxCompoundPackets data

structure SenderReport where
  ssrc : UInt32
  ntpTimestamp : UInt64
  rtpTimestamp : UInt32
  packetCount : UInt32
  octetCount : UInt32

def SenderReport.parse (data : Bytes) : Except RtcpError SenderReport :=
  let version := (data.getD 0 0 >>> 6) &&& 0x03
  if data.length < senderReportMinSizeBytes then
    .error (.tooShort data.length senderReportMinSizeBytes)
  else if version ≠ 2 then .error (.invalidVersion version)
  else if data.getD 1 0 ≠ 200 then .error (.invalidPacketType (data.getD 1 0))
  else .ok {
    ssrc := be32 data 4
    ntpTimestamp := UInt64.ofNat (beNat (slice data 8 8))
    rtpTimestamp := be32 data 16
    packetCount := be32 data 20
    octetCount := be32 data 24 }

structure PliPacket where
  senderSsrc : UInt32
  mediaSsrc : UInt32

def PliPacket.parse (data : Bytes) : Except RtcpError PliPacket :=
  let version := (data.getD 0 0 >>> 6) &&& 0x03
  let fmt := data.getD 0 0 &&& 0x1F
  if data.length < 12 then .error (.tooShort data.length 12)
  else if version ≠ 2 then .error (.invalidVersion version)
  else if data.getD 1 0 ≠ 206 then .error (.invalidPacketType (data.getD 1 0))
  else if fmt ≠ 1 then .error (.invalidPacketType fmt)
  else .ok ⟨be32 data 4, be32 data 8⟩

end NexusSfu.Rtp
