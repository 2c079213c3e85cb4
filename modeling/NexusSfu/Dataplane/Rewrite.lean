import NexusSfu.Dataplane.Slab
import NexusSfu.Dataplane.Types
import NexusSfu.Rtp.Header

/-!
RTP header rewrite for one subscription. `rewrite` leaves the subscription alone and returns what
`commit` applies once the packet was protected.
-/

namespace NexusSfu.Dataplane

open Base Rtp

structure Rng where
  state : UInt64

def Rng.nextU64 (r : Rng) : UInt64 × Rng :=
  let state := r.state + 0x9E3779B97F4A7C15
  let z := (state ^^^ (state >>> 30)) * 0xBF58476D1CE4E5B9
  let z := (z ^^^ (z >>> 27)) * 0x94D049BB133111EB
  (z ^^^ (z >>> 31), ⟨state⟩)

abbrev rebaseGap : Int := 16384

abbrev reorderLimit : Int := 64

abbrev rebaseIdle : Nat := 5000000000

structure RewriteState where
  outSsrc : UInt32
  seqOffset : UInt16
  tsOffset : UInt32
  started : Bool
  lastOutSeq : UInt16
  lastOutTs : UInt32
  lastOutAt : Option Nat
  lastInSeq : UInt16
  layer : UInt8
  deriving DecidableEq

def RewriteState.new (outSsrc : UInt32) : RewriteState :=
  ⟨outSsrc, 0, 0, false, 0, 0, none, 0, 0⟩

structure Subscription where
  id : SubscriptionId
  session : Key
  track : Key
  rewrite : RewriteState
  extMap : ExtMap
  pubMid : UInt8
  clockRate : UInt32
  ptMap : PtMap
  mid : MidValue
  sentPackets : UInt32
  sentOctets : UInt32

inductive RewriteError
  | unmappedPt
  | tooLarge
  deriving DecidableEq, Repr

structure Advance where
  seqOffset : UInt16
  tsOffset : UInt32
  inSeq : UInt16
  outSeq : UInt16
  outTs : UInt32
  rebased : Bool
  deriving DecidableEq

def asI16 (x : UInt16) : Int := if x < 32768 then x.toNat else x.toNat - 65536

namespace RewriteState

variable (s : RewriteState)

def delta (seq : UInt16) : Int := asI16 (seq - s.lastInSeq)

def idle (now : Nat) : Bool :=
  s.lastOutAt.any fun sentAt => decide (now - sentAt ≥ rebaseIdle)

def inStep (seq : UInt16) : Bool :=
  decide (-reorderLimit ≤ s.delta seq ∧ s.delta seq ≤ rebaseGap)

def pauseTicks (clockRate : UInt32) (now : Nat) : UInt32 :=
  let elapsed := match s.lastOutAt with
    | none => 0
    | some sentAt => (now - sentAt) / 1000000
  let step := min (elapsed % 2 ^ 64 * clockRate.toNat) (2 ^ 64 - 1) / 1000
  UInt32.ofNat (max step 1)

end RewriteState

def offsets (state : RewriteState) (hdr : RtpHeader) (clockRate : UInt32) (rng : Rng) (now : Nat) :
    (UInt16 × UInt32 × Bool) × Rng :=
  if !state.started then
    let (r, rng) := rng.nextU64
    ((r.toUInt16 - hdr.sequenceNumber, (r >>> 32).toUInt32 - hdr.timestamp, false), rng)
  else if state.inStep hdr.sequenceNumber && !state.idle now then
    ((state.seqOffset, state.tsOffset, false), rng)
  else
    ((state.lastOutSeq + 1 - hdr.sequenceNumber,
      state.lastOutTs + state.pauseTicks clockRate now - hdr.timestamp, true), rng)

def writeElement (dst : Bytes) (start : Nat) (id : UInt8) (data : Bytes) :
    Except RewriteError (Bytes × Nat) :=
  let stop := start + 1 + data.length
  if stop > dst.length then .error .tooLarge
  else .ok (writeAt dst start ((id <<< 4 ||| (UInt8.ofNat data.length - 1)) :: data), stop)

def writeElements (sub : Subscription) :
    List Element → Bytes × Nat → Except RewriteError (Bytes × Nat)
  | [], r => .ok r
  | e :: es, (dst, stop) =>
    let mapped := sub.extMap.map.toList.getD e.id.toNat 0
    if e.id = sub.pubMid ∨ e.id.toNat ≥ 15 ∨ e.data.length > maxOneByteLen ∨ mapped = 0 ∨
        e.data = [] then
      writeElements sub es (dst, stop)
    else match writeElement dst stop mapped e.data with
      | .error err => .error err
      | .ok r => writeElements sub es r

def writeExtensions (src : Bytes) (hdr : RtpHeader) (sub : Subscription) (dst : Bytes)
    (start : Nat) : Except RewriteError (Bytes × Nat) :=
  let block := start + 4
  match writeElements sub (elements src hdr) (dst, block) with
  | .error e => .error e
  | .ok (dst, stop) =>
    let withMid := if sub.extMap.mid ≠ 0 then writeElement dst stop sub.extMap.mid sub.mid.asBytes
      else .ok (dst, stop)
    match withMid with
    | .error e => .error e
    | .ok (dst, stop) =>
      if stop = block then .ok (dst, start)
      else
        let words := (stop - block + 3) / 4
        let padded := block + words * 4
        if padded > dst.length then .error .tooLarge
        else
          let dst := writeAt dst stop (List.replicate (padded - stop) 0)
          .ok (writeAt dst start (beBytes 2 0xBEDE ++ beBytes 2 words), padded)

def fixedHeader (src : Bytes) (hdr : RtpHeader) (extended : Bool) (pt : UInt8) (seq : UInt16)
    (ts ssrc : UInt32) : Bytes :=
  [0x80 ||| (src.getD 0 0 &&& 0x20) ||| (if extended then 0x10 else 0) ||| hdr.csrcCount,
    (src.getD 1 0 &&& 0x80) ||| pt] ++
    beBytes 2 seq.toNat ++ beBytes 4 ts.toNat ++ beBytes 4 ssrc.toNat

def rewrite (src : Bytes) (hdr : RtpHeader) (sub : Subscription) (rng : Rng) (now : Nat)
    (dst : Bytes) : Except RewriteError (Bytes × Nat × Advance) × Rng :=
  match sub.ptMap.map hdr.payloadType with
  | none => (.error .unmappedPt, rng)
  | some pt =>
    let csrcEnd := 12 + 4 * hdr.csrcCount.toNat
    if csrcEnd > dst.length then (.error .tooLarge, rng)
    else
      let dst := writeAt dst 12 (slice src 12 (csrcEnd - 12))
      match writeExtensions src hdr sub dst csrcEnd with
      | .error e => (.error e, rng)
      | .ok (dst, headerEnd) =>
        let payload := src.drop hdr.headerLenBytes
        let outLen := headerEnd + payload.length
        if outLen > dst.length then (.error .tooLarge, rng)
        else
          let dst := writeAt dst headerEnd payload
          let ((seqOffset, tsOffset, rebased), rng) := offsets sub.rewrite hdr sub.clockRate rng now
          let outSeq := hdr.sequenceNumber + seqOffset
          let outTs := hdr.timestamp + tsOffset
          let dst := writeAt dst 0
            (fixedHeader src hdr (headerEnd > csrcEnd) pt outSeq outTs sub.rewrite.outSsrc)
          (.ok (dst, outLen,
            { seqOffset, tsOffset, inSeq := hdr.sequenceNumber, outSeq, outTs, rebased }), rng)

def commit (state : RewriteState) (advance : Advance) (now : Nat) : RewriteState :=
  let newer := !state.started || advance.rebased ||
    decide (asI16 (advance.outSeq - state.lastOutSeq) > 0)
  let state := { state with
    seqOffset := advance.seqOffset
    tsOffset := advance.tsOffset
    started := true }
  if newer then
    { state with
      lastOutSeq := advance.outSeq
      lastOutTs := advance.outTs
      lastOutAt := some now
      lastInSeq := advance.inSeq }
  else state

end NexusSfu.Dataplane
