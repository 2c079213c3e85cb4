import Mathlib.Data.List.Nodup
import NexusSfu.Orchestrator.Sdp

/-!
The payload types of an offer: the m-lines in their order, of which the recycled ones keep their
codecs and those of subscribed tracks get a type that no other m-line uses.
-/

namespace NexusSfu.Sdp

open Dataplane Orchestrator List

abbrev maxMediaSections : Nat := 32

abbrev maxCodecsPerMedia : Nat := 16

structure Fmtp where
  payloadType : UInt8
  params : String
  deriving DecidableEq

structure RecycledMline where
  codecs : List RtpCodec
  fmtps : List Fmtp
  offerPts : List UInt8
  deriving DecidableEq

structure TrackMline where
  ssrc : UInt32
  mediaKind : MediaKind
  keepPt : Bool
  deriving DecidableEq

inductive OfferMline
  | recycled (r : RecycledMline)
  | track (t : TrackMline)
  deriving DecidableEq

structure OfferedMline where
  mline : OfferMline
  codecs : List RtpCodec
  fmtps : List Fmtp
  deriving DecidableEq

inductive OfferError
  | panicked
  | tooManyMedia (count max : Nat)
  | invalidAttribute (name value : String)
  | other
  deriving DecidableEq

/-- What an offer is made from besides its m-lines. `attributes` is how the other attributes of an
m-line come out, and `print` how the text does. -/
structure OfferParams where
  negotiatedCodec : MediaKind → Option RtpCodec
  negotiatedFmtp : MediaKind → Option Fmtp
  supportedCodecs : MediaKind → List RtpCodec
  attributes : OfferedMline → Except OfferError Unit
  print : List OfferedMline → Except OfferError String

def invalidPt (pt : UInt8) : OfferError := .invalidAttribute "rtpmap" (toString pt.toNat)

def recycledPts : List OfferMline → Except OfferError (List UInt8)
  | [] => .ok []
  | .track _ :: mlines => recycledPts mlines
  | .recycled r :: mlines =>
    match r.codecs.find? fun c => c.payloadType > 127 with
    | some c => .error (invalidPt c.payloadType)
    | none => do
      let pts ← recycledPts mlines
      return r.codecs.map RtpCodec.payloadType ++ r.offerPts.filter (· < 128) ++ pts

def dynamicPts : List UInt8 := (List.range 32).map fun i => UInt8.ofNat (96 + i)

def trackPt (count : Nat) (used : List UInt8) (codec : RtpCodec) (keepPt : Bool) :
    Except OfferError UInt8 :=
  if codec.payloadType > 127 then .error (invalidPt codec.payloadType)
  else if codec.payloadType ∈ used ∧ keepPt = false then
    match dynamicPts.find? (· ∉ used) with
    | some pt => .ok pt
    | none => .error (.tooManyMedia count 32)
  else .ok codec.payloadType

namespace OfferParams

variable (p : OfferParams)

/-- The m-line of a track under the type `pt`, to which a matching `fmtp` moves too. -/
def offered (t : TrackMline) (codec : RtpCodec) (pt : UInt8) : OfferedMline where
  mline := .track t
  codecs := [{ codec with payloadType := pt }]
  fmtps := (p.negotiatedFmtp t.mediaKind).toList.map fun f =>
    if f.payloadType = codec.payloadType then { f with payloadType := pt } else f

/-- The m-lines one after the other, and the types of the tracks (0 for one without a negotiated
codec); `used` are the types taken so far. -/
def emit (count : Nat) :
    List UInt8 → List OfferMline → Except OfferError (List OfferedMline × List UInt8)
  | _, [] => .ok ([], [])
  | used, .recycled r :: mlines => do
    -- what an m-line has no room for is left out
    let m : OfferedMline :=
      ⟨.recycled r, r.codecs.take maxCodecsPerMedia, r.fmtps.take maxCodecsPerMedia⟩
    p.attributes m
    let (ms, pts) ← emit count used mlines
    return (m :: ms, pts)
  | used, .track t :: mlines =>
    if t.ssrc = 0 then .error .panicked
    else match p.negotiatedCodec t.mediaKind with
      | some codec => do
        let pt ← trackPt count used codec t.keepPt
        p.attributes (p.offered t codec pt)
        let (ms, pts) ← emit count (pt :: used) mlines
        return (p.offered t codec pt :: ms, pt :: pts)
      | none => do
        let m : OfferedMline :=
          ⟨.track t, (p.supportedCodecs t.mediaKind).take maxCodecsPerMedia, []⟩
        p.attributes m
        if m.codecs.isEmpty then throw .panicked
        let (ms, pts) ← emit count used mlines
        return (m :: ms, 0 :: pts)

def createOrderedOffer (mlines : List OfferMline) : Except OfferError (String × List UInt8) :=
  if mlines.isEmpty then .error .panicked
  else if mlines.length > maxMediaSections then
    .error (.tooManyMedia mlines.length maxMediaSections)
  else do
    let used ← recycledPts mlines
    let (offered, pts) ← p.emit mlines.length used mlines
    let text ← p.print offered
    return (text, pts)

end OfferParams

def takenPts : List OfferMline → List UInt8
  | [] => []
  | .track _ :: mlines => takenPts mlines
  | .recycled r :: mlines =>
    r.codecs.map RtpCodec.payloadType ++ r.offerPts.filter (· < 128) ++ takenPts mlines

/-- The m-lines `ms` with the types `pts` for their tracks, each of which keeps the negotiated type
when it is free of `used` and the types before, and gets a free dynamic one otherwise; the `fmtp`
of that type moves with it. -/
inductive Assigns (p : OfferParams) :
    List UInt8 → List OfferMline → List OfferedMline → List UInt8 → Prop
  | nil {used : List UInt8} : Assigns p used [] [] []
  | recycled {used : List UInt8} {r : RecycledMline} {mlines : List OfferMline}
      {ms : List OfferedMline} {pts : List UInt8} (h : Assigns p used mlines ms pts) :
      Assigns p used (.recycled r :: mlines)
        (⟨.recycled r, r.codecs.take maxCodecsPerMedia, r.fmtps.take maxCodecsPerMedia⟩ :: ms)
          pts
  | track {used : List UInt8} {t : TrackMline} {codec : RtpCodec} {pt : UInt8} {fmtps : List Fmtp}
      {mlines : List OfferMline} {ms : List OfferedMline} {pts : List UInt8}
      (hcodec : p.negotiatedCodec t.mediaKind = some codec)
      (hfree : pt ∉ used) (hkept : codec.payloadType ∉ used → pt = codec.payloadType)
      (hmoved : codec.payloadType ∈ used → dynamicPts.find? (· ∉ used) = some pt)
      (hnone : p.negotiatedFmtp t.mediaKind = none → fmtps = [])
      (hfmtp : ∀ f, p.negotiatedFmtp t.mediaKind = some f → ∃ f', fmtps = [f'] ∧
        f'.params = f.params ∧ (f.payloadType = codec.payloadType → f'.payloadType = pt) ∧
        (f.payloadType ≠ codec.payloadType → f'.payloadType = f.payloadType))
      (h : Assigns p (pt :: used) mlines ms pts) :
      Assigns p used (.track t :: mlines)
        (⟨.track t, [⟨pt, codec.name, codec.clockRate⟩], fmtps⟩ :: ms) (pt :: pts)

structure ValidOffer (p : OfferParams) (mlines : List OfferMline) : Prop where
  length_le : mlines.length ≤ maxMediaSections
  recycled : ∀ r, .recycled r ∈ mlines → ∀ c ∈ r.codecs, c.payloadType ≤ 127
  tracks : ∀ t, .track t ∈ mlines → t.ssrc ≠ 0 ∧ t.keepPt = false ∧
    ∃ codec, p.negotiatedCodec t.mediaKind = some codec ∧ codec.payloadType ≤ 127
  attributes : ∀ before after ms pts, mlines = before ++ after →
    Assigns p (takenPts mlines) before ms pts → ∀ m ∈ ms, p.attributes m = .ok ()
  print : ∀ ms pts, Assigns p (takenPts mlines) mlines ms pts → ∃ text, p.print ms = .ok text

def Exhausted (p : OfferParams) (mlines : List OfferMline) : Prop :=
  ∃ before t after ms pts codec, mlines = before ++ .track t :: after ∧
    Assigns p (takenPts mlines) before ms pts ∧ p.negotiatedCodec t.mediaKind = some codec ∧
    codec.payloadType ∈ takenPts mlines ++ pts ∧
    ∀ pt ∈ dynamicPts, pt ∈ takenPts mlines ++ pts

variable {p : OfferParams} {used pts : List UInt8} {mlines : List OfferMline}
  {ms : List OfferedMline}

theorem recycledPts_eq
    (h : ∀ r, .recycled r ∈ mlines → ∀ c ∈ r.codecs, c.payloadType ≤ 127) :
    recycledPts mlines = .ok (takenPts mlines) := by
  induction mlines with
  | nil => rfl
  | cons m mlines ih =>
    have hrest := ih fun r hr => h r (mem_cons_of_mem m hr)
    cases m with
    | track t => exact hrest
    | recycled r =>
      have hnone : (r.codecs.find? fun c => c.payloadType > 127) = none := by
        refine find?_eq_none.2 fun c hc => ?_
        have hle := h r mem_cons_self c hc
        rw [decide_eq_true_eq, gt_iff_lt, UInt8.not_lt]
        exact hle
      rw [recycledPts, hnone, hrest]
      rfl

theorem Assigns.distinct (h : Assigns p used mlines ms pts) :
    pts.Nodup ∧ ∀ pt ∈ pts, pt ∉ used := by
  induction h with
  | nil => exact ⟨nodup_nil, nofun⟩
  | recycled _ ih => exact ih
  | track _ hfree _ _ _ _ _ ih =>
    obtain ⟨hnodup, hnew⟩ := ih
    refine ⟨nodup_cons.2 ⟨fun hmem => hnew _ hmem mem_cons_self, hnodup⟩, ?_⟩
    exact forall_mem_cons.2 ⟨hfree, fun pt hpt hmem => hnew pt hpt (mem_cons_of_mem _ hmem)⟩

theorem mem_shift {pt x : UInt8} : x ∈ (pt :: used) ++ pts ↔ x ∈ used ++ pt :: pts :=
  perm_middle.symm.mem_iff

theorem Assigns.not_exhausted {before after : List OfferMline} {t : TrackMline}
    {ms' : List OfferedMline} {pts' : List UInt8} {codec : RtpCodec}
    (hb : Assigns p used before ms' pts') (h : Assigns p used (before ++ .track t :: after) ms pts)
    (hcodec : p.negotiatedCodec t.mediaKind = some codec)
    (hneeds : codec.payloadType ∈ used ++ pts')
    (hall : ∀ pt ∈ dynamicPts, pt ∈ used ++ pts') : False := by
  induction hb generalizing ms pts with
  | nil =>
    rw [append_nil] at hneeds hall
    cases h with
    | track hcodec' hfree _ hmoved _ _ _ =>
      cases hcodec.symm.trans hcodec'
      exact hfree (hall _ (mem_of_find?_eq_some (hmoved hneeds)))
  | recycled _ ih =>
    cases h with
    | recycled h => exact ih h hneeds hall
  | track hc _ hkept hmoved _ _ _ ih =>
    cases h with
    | track hc' _ hkept' hmoved' _ _ h =>
      cases hc.symm.trans hc'
      -- both took the same type
      have hsame := if hmem : _ ∈ _ then Option.some.inj ((hmoved hmem).symm.trans (hmoved' hmem))
        else (hkept hmem).trans (hkept' hmem).symm
      subst hsame
      exact ih h (mem_shift.2 hneeds) fun pt hpt => mem_shift.2 (hall pt hpt)

theorem trackPt_cases (count : Nat) (used : List UInt8) {codec : RtpCodec}
    (hle : codec.payloadType ≤ 127) :
    (∃ pt, trackPt count used codec false = .ok pt ∧ pt ∉ used ∧
      (codec.payloadType ∉ used → pt = codec.payloadType) ∧
      (codec.payloadType ∈ used → dynamicPts.find? (· ∉ used) = some pt)) ∨
    trackPt count used codec false = .error (.tooManyMedia count 32) ∧
      codec.payloadType ∈ used ∧ ∀ pt ∈ dynamicPts, pt ∈ used := by
  have hpt : ¬ codec.payloadType > 127 := UInt8.not_lt.2 hle
  rw [trackPt, if_neg hpt]
  by_cases hused : codec.payloadType ∈ used
  · rw [if_pos ⟨hused, rfl⟩]
    cases hfind : dynamicPts.find? (· ∉ used) with
    | none =>
      refine .inr ⟨rfl, hused, fun pt hpt => ?_⟩
      simpa using find?_eq_none.1 hfind pt hpt
    | some pt =>
      exact .inl ⟨pt, rfl, by simpa using find?_some hfind, absurd hused, fun _ => rfl⟩
  · rw [if_neg fun h => hused h.1]
    exact .inl ⟨_, rfl, hused, fun _ => rfl, fun h => absurd h hused⟩

theorem Assigns.offered {t : TrackMline} {codec : RtpCodec} {pt : UInt8}
    (hcodec : p.negotiatedCodec t.mediaKind = some codec) (hfree : pt ∉ used)
    (hkept : codec.payloadType ∉ used → pt = codec.payloadType)
    (hmoved : codec.payloadType ∈ used → dynamicPts.find? (· ∉ used) = some pt)
    (h : Assigns p (pt :: used) mlines ms pts) :
    Assigns p used (.track t :: mlines) (p.offered t codec pt :: ms) (pt :: pts) := by
  refine .track hcodec hfree hkept hmoved (fun hnone => ?_) (fun f hf => ?_) h
  · rw [hnone]
    rfl
  · rw [hf]
    refine ⟨if f.payloadType = codec.payloadType then { f with payloadType := pt }
      else f, rfl, ?_, fun heq => ?_, fun hne => ?_⟩
    · split_ifs <;> rfl
    · rw [if_pos heq]
    · rw [if_neg hne]

theorem emit_assigns (count : Nat) (used : List UInt8)
    (hattr : ∀ before after ms pts, mlines = before ++ after → Assigns p used before ms pts →
      ∀ m ∈ ms, p.attributes m = .ok ())
    (htracks : ∀ t, .track t ∈ mlines → t.ssrc ≠ 0 ∧ t.keepPt = false ∧
      ∃ codec, p.negotiatedCodec t.mediaKind = some codec ∧ codec.payloadType ≤ 127) :
    (∃ ms pts, p.emit count used mlines = .ok (ms, pts) ∧ Assigns p used mlines ms pts) ∨
    p.emit count used mlines = .error (.tooManyMedia count 32) ∧
      ∃ before t after ms pts codec, mlines = before ++ .track t :: after ∧
        Assigns p used before ms pts ∧ p.negotiatedCodec t.mediaKind = some codec ∧
        codec.payloadType ∈ used ++ pts ∧ ∀ pt ∈ dynamicPts, pt ∈ used ++ pts := by
  induction mlines generalizing used with
  | nil => exact .inl ⟨[], [], rfl, .nil⟩
  | cons m mlines ih =>
    have ih := fun used hattr => ih used hattr fun t ht => htracks t (mem_cons_of_mem m ht)
    cases m with
    | recycled r =>
      have hrest := ih used fun before after ms pts heq hb m hm =>
        hattr (.recycled r :: before) after _ pts (congrArg _ heq) (.recycled hb) m
          (mem_cons_of_mem _ hm)
      rw [OfferParams.emit, hattr [.recycled r] mlines _ _ rfl (.recycled .nil) _ mem_cons_self]
      rcases hrest with
        ⟨ms, pts, hemit, h⟩ | ⟨hemit, before, t, after, ms, pts, codec, rfl, hb, hrest⟩
      · exact .inl ⟨_, pts, by rw [hemit]; rfl, .recycled h⟩
      · exact .inr ⟨by rw [hemit]; rfl, .recycled r :: before, t, after, _, pts, codec, rfl,
          .recycled hb, hrest⟩
    | track t =>
      obtain ⟨hssrc, hkeep, codec, hcodec, hle⟩ := htracks t mem_cons_self
      rw [OfferParams.emit, if_neg hssrc, hcodec, hkeep]
      rcases trackPt_cases count used hle with
        ⟨pt, hpt, hfree, hkept, hmoved⟩ | ⟨hpt, hneeds, hall⟩
      · have hrest := ih (pt :: used) fun before after ms pts heq hb m hm =>
          hattr (.track t :: before) after _ _ (congrArg _ heq)
            (.offered hcodec hfree hkept hmoved hb) m (mem_cons_of_mem _ hm)
        have hhead := hattr [.track t] mlines _ _ rfl (.offered hcodec hfree hkept hmoved .nil) _
          mem_cons_self
        rcases hrest with ⟨ms, pts, hemit, h⟩ |
          ⟨hemit, before, t', after, ms, pts, codec', rfl, hb, hc, hneeds, hall⟩
        · refine .inl ⟨_, _, ?_, .offered hcodec hfree hkept hmoved h⟩
          simp only [hpt, hhead, hemit, bind, Except.bind]
          rfl
        · refine .inr ⟨?_, .track t :: before, t', after, _, _, codec', rfl,
            .offered hcodec hfree hkept hmoved hb, hc, mem_shift.1 hneeds,
            fun x hx => mem_shift.1 (hall x hx)⟩
          simp only [hpt, hhead, hemit, bind, Except.bind]
      · refine .inr ⟨?_, [], t, mlines, [], [], codec, rfl, .nil, hcodec, ?_⟩
        · simp only [hpt, bind, Except.bind]
        · rw [append_nil]
          exact ⟨hneeds, hall⟩

/-- An offer gives the tracks types of their own, none of which a recycled m-line uses, or fails
exactly when a track needs a new one and there is none left. -/
theorem payload_types_assigned (p : OfferParams) (mlines : List OfferMline) (hne : mlines ≠ [])
    (hv : ValidOffer p mlines) :
    (¬ Exhausted p mlines ∧ ∃ ms pts text, p.createOrderedOffer mlines = .ok (text, pts) ∧
      p.print ms = .ok text ∧ Assigns p (takenPts mlines) mlines ms pts ∧ pts.Nodup ∧
      ∀ pt ∈ pts, pt ∉ takenPts mlines) ∨ Exhausted p mlines ∧
      p.createOrderedOffer mlines = .error (.tooManyMedia mlines.length 32) := by
  have hempty : ¬ mlines.isEmpty = true := fun h => hne (isEmpty_iff.1 h)
  rw [OfferParams.createOrderedOffer, if_neg hempty, if_neg (Nat.not_lt.2 hv.length_le),
    recycledPts_eq hv.recycled]
  rcases emit_assigns mlines.length (takenPts mlines) hv.attributes hv.tracks with
    ⟨ms, pts, hemit, h⟩ | ⟨hemit, hsplit⟩
  · obtain ⟨text, htext⟩ := hv.print ms pts h
    refine .inl ⟨?_, ms, pts, text, ?_, htext, h, h.distinct⟩
    · rintro ⟨before, t, after, ms', pts', codec, heq, hb, hcodec, hneeds, hall⟩
      have hsplit : Assigns p (takenPts mlines) (before ++ .track t :: after) ms pts := by
        rwa [← heq]
      exact hb.not_exhausted hsplit hcodec hneeds hall
    · simp only [hemit, htext, bind, Except.bind]
      rfl
  · refine .inr ⟨hsplit, ?_⟩
    simp only [hemit, bind, Except.bind]

def h264Offer : OfferParams where
  negotiatedCodec _ := some ⟨96, "H264", 90000⟩
  negotiatedFmtp _ := some ⟨96, "packetization-mode=1"⟩
  supportedCodecs _ := []
  attributes _ := .ok ()
  print ms := .ok (String.join (ms.flatMap fun m => m.fmtps.map fun f =>
    "a=fmtp:" ++ toString f.payloadType.toNat ++ " " ++ f.params))

def h264Mlines : List OfferMline :=
  [.recycled ⟨[⟨96, "VP8", 90000⟩], [], [97]⟩, .track ⟨7, .video, false⟩]

theorem payload_types_assigned_moved :
    h264Offer.createOrderedOffer h264Mlines = .ok ("a=fmtp:98 packetization-mode=1", [98]) ∧
    ((¬ Exhausted h264Offer h264Mlines ∧ ∃ ms pts text,
      h264Offer.createOrderedOffer h264Mlines = .ok (text, pts) ∧
      h264Offer.print ms = .ok text ∧
      Assigns h264Offer (takenPts h264Mlines) h264Mlines ms pts ∧ pts.Nodup ∧
      ∀ pt ∈ pts, pt ∉ takenPts h264Mlines) ∨ Exhausted h264Offer h264Mlines ∧
      h264Offer.createOrderedOffer h264Mlines = .error (.tooManyMedia h264Mlines.length 32)) := by
  refine ⟨by decide +kernel, payload_types_assigned h264Offer _ nofun
    ⟨by decide, ?_, ?_, fun _ _ _ _ _ _ _ _ => rfl, fun _ _ _ => ⟨_, rfl⟩⟩⟩
  · intro r hr c hc
    simp only [h264Mlines, mem_cons, reduceCtorEq, OfferMline.recycled.injEq, not_mem_nil,
      or_false] at hr
    subst hr
    rw [mem_singleton.1 hc]
    decide
  · intro t ht
    simp only [h264Mlines, mem_cons, reduceCtorEq, OfferMline.track.injEq, not_mem_nil, or_false,
      false_or] at ht
    subst ht
    exact ⟨by decide, rfl, _, rfl, by decide⟩

theorem empty_offer_panics : h264Offer.createOrderedOffer [] = .error .panicked := rfl

end NexusSfu.Sdp
