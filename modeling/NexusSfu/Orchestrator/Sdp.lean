import NexusSfu.Dataplane.Types
import NexusSfu.Orchestrator.Dtls

namespace NexusSfu.Orchestrator

open Base Dataplane

abbrev maxOneByteExtId : UInt8 := 14

inductive MediaType
  | audio
  | video
  | application
  deriving DecidableEq

inductive Direction
  | sendRecv
  | sendOnly
  | recvOnly
  | inactive
  deriving DecidableEq

structure RtpCodec where
  payloadType : UInt8
  name : String
  clockRate : UInt32
  deriving DecidableEq

structure ExtMapping where
  id : UInt8
  uri : String
  deriving DecidableEq

structure SsrcGroup where
  semantics : String
  ssrcs : List UInt32
  deriving DecidableEq

structure MediaDescription where
  mediaType : MediaType
  port : UInt16
  direction : Direction
  mid : Option String
  codecs : List RtpCodec
  extmaps : List ExtMapping
  ssrcGroups : List SsrcGroup
  ssrcValues : List UInt32
  deriving DecidableEq

structure SessionDescription where
  media : List MediaDescription
  deriving DecidableEq

inductive AnswerSdp
  | empty
  | unparsable
  | parsed (answer : SessionDescription)
  deriving DecidableEq

inductive ParamsError
  | unsupportedMedia
  | missingMid
  | noCommonCodec (name : String)
  | extIdOutOfRange (uri : String) (id : UInt8)
  | duplicateExtId (id : UInt8)
  | noSsrcSource
  | invalidCname
  | simulcast
  | kindMismatch
  deriving DecidableEq

structure CodecId where
  name : String
  clockRate : UInt32

def v1Codec : MediaKind → CodecId
  | .audio => ⟨"opus", 48000⟩
  | .video => ⟨"VP8", 90000⟩

def eqIgnoreAsciiCase (a b : String) : Bool :=
  a.toList.map Char.toLower = b.toList.map Char.toLower

def stringBytes (s : String) : Bytes := s.toUTF8.toList

def shortBytes (cap : Nat) (bytes : Bytes) : Option (ShortBytes cap) :=
  if h : bytes ≠ [] ∧ bytes.length ≤ cap then some ⟨bytes, h.1, h.2⟩ else none

variable (media : MediaDescription)

def kindOf : Except ParamsError MediaKind :=
  match media.mediaType with
  | .audio => .ok .audio
  | .video => .ok .video
  | .application => .error .unsupportedMedia

def midOf : Except ParamsError MidValue :=
  match media.mid.bind fun mid => shortBytes 16 (stringBytes mid) with
  | some mid => .ok mid
  | none => .error .missingMid

def findPt (codec : CodecId) : Except ParamsError { pt : UInt8 // pt ≤ 127 } :=
  match media.codecs.find? fun c => eqIgnoreAsciiCase c.name codec.name && c.clockRate ==
    codec.clockRate with
  | some c =>
    if h : c.payloadType ≤ 127 then .ok ⟨c.payloadType, h⟩
    else .error (.noCommonCodec codec.name)
  | none => .error (.noCommonCodec codec.name)

def midUri : String := "urn:ietf:params:rtp-hdrext:sdes:mid"
def audioLevelUri : String := "urn:ietf:params:rtp-hdrext:ssrc-audio-level"
def videoOrientationUri : String := "urn:3gpp:video-orientation"

def extmapId (uri : String) : Option UInt8 :=
  (media.extmaps.find? fun e => e.uri = uri).map ExtMapping.id

/-- The answer's id of one extension, 0 when it is declined; `used` are the ids taken so far, 0
among them. -/
def extId (uri : String) (used : List UInt8) : Except ParamsError UInt8 :=
  match extmapId media uri with
  | none => .ok 0
  | some id =>
    if id > maxOneByteExtId then .error (.extIdOutOfRange uri id)
    else if id ∈ used then .error (.duplicateExtId id)
    else .ok id

def extIds (kind : MediaKind) : Except ParamsError ExtIds := do
  let mid ← extId media midUri [0]
  match kind with
  | .audio =>
    let audioLevel ← extId media audioLevelUri [mid, 0]
    return ⟨mid, audioLevel, 0⟩
  | .video =>
    let videoOrientation ← extId media videoOrientationUri [mid, 0]
    return ⟨mid, 0, videoOrientation⟩

def hasSimulcastGroup : Bool :=
  media.ssrcGroups.any fun g => eqIgnoreAsciiCase g.semantics "SIM"

def primarySsrc : Option UInt32 :=
  media.ssrcValues.find? fun ssrc =>
    ssrc ≠ 0 ∧ ssrc ∉ media.ssrcGroups.flatMap fun g => g.ssrcs.drop 1

theorem extId_le {media : MediaDescription} {uri : String} {used : List UInt8} {id : UInt8}
    (h : extId media uri used = .ok id) : id ≤ 14 := by
  unfold extId at h
  split at h
  · cases h
    decide
  · split_ifs at h with hle
    cases h
    exact UInt8.not_lt.1 hle

structure OneByte (ids : ExtIds) : Prop where
  mid : ids.mid ≤ 14
  audioLevel : ids.audioLevel ≤ 14
  videoOrientation : ids.videoOrientation ≤ 14
  audio_ne : ids.audioLevel ≠ 0 → ids.audioLevel ≠ ids.mid
  video_ne : ids.videoOrientation ≠ 0 → ids.videoOrientation ≠ ids.mid
  one : ids.audioLevel = 0 ∨ ids.videoOrientation = 0

theorem extId_ne {media : MediaDescription} {uri : String} {used : List UInt8} {id : UInt8}
    (h : extId media uri used = .ok id) (h0 : id ≠ 0) : id ∉ used := by
  unfold extId at h
  split at h
  · cases h
    exact absurd rfl h0
  · split_ifs at h with hle hmem
    cases h
    exact hmem

theorem bind_ok {ε α β : Type} {x : Except ε α} {f : α → Except ε β} {b : β}
    (h : x >>= f = .ok b) : ∃ a, x = .ok a ∧ f a = .ok b := by
  cases x with
  | error e => cases h
  | ok a => exact ⟨a, rfl, h⟩

theorem extIds_oneByte {media : MediaDescription} {kind : MediaKind} {ids : ExtIds}
    (h : extIds media kind = .ok ids) : OneByte ids := by
  obtain ⟨mid, hmid, h⟩ := bind_ok h
  cases kind with
  | audio =>
    obtain ⟨id, hid, h⟩ := bind_ok h
    cases h
    exact ⟨extId_le hmid, extId_le hid, UInt8.zero_le,
      fun h0 heq => extId_ne hid h0 (List.mem_cons.2 (.inl heq)), fun h0 => absurd rfl h0,
      .inr rfl⟩
  | video =>
    obtain ⟨id, hid, h⟩ := bind_ok h
    cases h
    exact ⟨extId_le hmid, UInt8.zero_le, extId_le hid, fun h0 => absurd rfl h0,
      fun h0 heq => extId_ne hid h0 (List.mem_cons.2 (.inl heq)), .inl rfl⟩

structure PublishSpec extends TrackSpec where
  pt_le : codec.pt ≤ 127
  oneByte : OneByte ext

/-- The publisher's answered m-line; `none` if it was declined or sends nothing. -/
def trackSpec (cname : Bytes) :
    Except ParamsError (Option PublishSpec) := do
  if media.port = 0 ∨ media.direction ∉ [.sendOnly, .sendRecv] then return none
  let kind ← kindOf media
  if hasSimulcastGroup media then throw .simulcast
  let codec := v1Codec kind
  let pt ← findPt media codec
  match h : extIds media kind with
  | .error e => throw e
  | .ok ext =>
    let ssrc := primarySsrc media
    if ssrc.isNone ∧ ext.mid = 0 then throw .noSsrcSource
    let mid ← midOf media
    let some cname := shortBytes 255 cname | throw .invalidCname
    return some {
      kind, mid, ssrc, ext, cname
      codec := ⟨pt.1, codec.clockRate⟩
      pt_le := pt.2
      oneByte := extIds_oneByte h }

/-- Publisher to subscriber ids of the forwarded extensions; the publisher's `mid` is dropped. -/
def extMap (publisher : ExtIds) (h : OneByte publisher) (subscriber : ExtIds) : ExtMap :=
  let keep (id : UInt8) : Bool := id ≠ 0 ∧ id ≠ publisher.mid
  let map : Vector UInt8 15 := Vector.replicate 15 0
  let map := if keep publisher.audioLevel then
      map.set publisher.audioLevel.toNat subscriber.audioLevel (Nat.lt_succ_of_le h.audioLevel)
    else map
  let map := if keep publisher.videoOrientation then
      map.set publisher.videoOrientation.toNat subscriber.videoOrientation
        (Nat.lt_succ_of_le h.videoOrientation)
    else map
  ⟨map, subscriber.mid⟩

/-- The subscriber's answered m-line; `none` if it was declined or receives nothing. -/
def subSpec (track : PublishSpec) (outSsrc : UInt32)
    (source : TrackRef) : Except ParamsError (Option SubSpec) := do
  if media.port = 0 ∨ media.direction ∉ [.recvOnly, .sendRecv] then return none
  if (← kindOf media) ≠ track.kind then throw .kindMismatch
  let subPt ← findPt media ⟨(v1Codec track.kind).name, track.codec.clockRate⟩
  let sub ← extIds media track.kind
  let mid ← midOf media
  return some {
    outSsrc, mid, source
    ptMap := ⟨[(track.codec.pt, subPt)],
      Nat.le_succ 1, by simpa using ⟨track.pt_le, subPt.2⟩, by simp⟩
    extMap := extMap track.ext track.oneByte sub }

end NexusSfu.Orchestrator
