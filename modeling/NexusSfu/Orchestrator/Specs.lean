import NexusSfu.Base.Fallible
import NexusSfu.Dataplane.Strict
import NexusSfu.Orchestrator.Sdp

/-!
The specs of an answer with every assertion, `expect` and index check of the code, and that what
they return is valid for the shard.
-/

namespace NexusSfu.Dataplane

def PtMap.push (m : PtMap) (p : UInt8 × UInt8) : Option PtMap :=
  if h : p.1 ≤ 127 ∧ p.2 ≤ 127 ∧ p.1 ∉ m.pairs.map Prod.fst ∧ m.pairs.length < 2 then
    some {
      pairs := m.pairs ++ [p]
      length_le := by rw [List.length_append]; exact h.2.2.2
      seven_bit := by
        intro q hq
        rcases List.mem_append.1 hq with hq | hq
        · exact m.seven_bit q hq
        · exact List.mem_singleton.1 hq ▸ ⟨h.1, h.2.1⟩
      nodup := by
        rw [List.map_append]
        exact List.nodup_append.2 ⟨m.nodup, List.nodup_singleton _, fun a ha b hb hab =>
          h.2.2.1 (List.mem_singleton.1 hb ▸ hab ▸ ha)⟩ }
  else none

def PtMap.new (pairs : List (UInt8 × UInt8)) : Option PtMap :=
  if pairs.length > 2 then none
  else pairs.foldlM PtMap.push ⟨[], Nat.zero_le 2, nofun, List.nodup_nil⟩

end NexusSfu.Dataplane

namespace NexusSfu.Orchestrator.Strict

open Base Fallible Dataplane Option

structure Extension where
  id : UInt8
  uri : String

abbrev mid : UInt8 := 1
abbrev audioLevel : UInt8 := 2
abbrev videoOrientation : UInt8 := 3

def table : List Extension :=
  [⟨mid, midUri⟩, ⟨audioLevel, audioLevelUri⟩, ⟨videoOrientation, videoOrientationUri⟩,
    ⟨4, "http://www.ietf.org/id/draft-holmer-rmcat-transport-wide-cc-extensions-01"⟩,
    ⟨5, "http://www.webrtc.org/experiments/rtp-hdrext/abs-send-time"⟩,
    ⟨10, "urn:ietf:params:rtp-hdrext:sdes:rtp-stream-id"⟩,
    ⟨11, "urn:ietf:params:rtp-hdrext:sdes:repaired-rtp-stream-id"⟩]

variable (media : MediaDescription)

def findPt (codec : CodecId) : Except ParamsError UInt8 :=
  match ((media.codecs.find? fun c => eqIgnoreAsciiCase c.name codec.name &&
      c.clockRate == codec.clockRate).map RtpCodec.payloadType).filter (· ≤ 127) with
  | some pt => .ok pt
  | none => .error (.noCommonCodec codec.name)

def readExtId (ids : ExtIds) (wanted : UInt8 × Bool) :
    Fallible ParamsError ExtIds := do
  if !wanted.2 then return ids
  let entry ← expect (table.find? fun e => e.id = wanted.1)
  match extmapId media entry.uri with
  | none => return ids
  | some id =>
    if id > maxOneByteExtId then throw (.extIdOutOfRange entry.uri id)
    else if id ∈ [ids.mid, ids.audioLevel, ids.videoOrientation] then throw (.duplicateExtId id)
    else return if wanted.1 = mid then { ids with mid := id }
      else if wanted.1 = audioLevel then { ids with audioLevel := id }
      else { ids with videoOrientation := id }

def extIds (kind : MediaKind) : Fallible ParamsError ExtIds :=
  [(mid, true), (audioLevel, kind = .audio), (videoOrientation, decide (kind = .video))].foldlM
    (readExtId media) ⟨0, 0, 0⟩

def mapExt (publisherMid : UInt8) (map : Vector UInt8 15) (ids : UInt8 × UInt8) :
    Fallible ParamsError (Vector UInt8 15) :=
  if ids.1 ≠ 0 ∧ ids.1 ≠ publisherMid then
    if h : ids.1.toNat < 15 then return map.set ids.1.toNat ids.2 h else panic
  else return map

def extMap (publisher subscriber : ExtIds) : Fallible ParamsError ExtMap := do
  let map ← [(publisher.audioLevel, subscriber.audioLevel),
    (publisher.videoOrientation, subscriber.videoOrientation)].foldlM (mapExt publisher.mid)
      (Vector.replicate 15 0)
  assert (map.get 0 = 0)
  return ⟨map, subscriber.mid⟩

def trackSpec (cname : Bytes) :
    Fallible ParamsError (Option TrackSpec) := do
  if media.port = 0 ∨ media.direction ∉ [.sendOnly, .sendRecv] then return none
  let kind ← ofResult (kindOf media)
  if hasSimulcastGroup media then throw .simulcast
  let codec := v1Codec kind
  let pt ← ofResult (findPt media codec)
  let ext ← extIds media kind
  let ssrc := primarySsrc media
  if ssrc.isNone ∧ ext.mid = 0 then throw .noSsrcSource
  let mid ← ofResult (midOf media)
  let some cname := shortBytes 255 cname | throw .invalidCname
  let spec : TrackSpec := { kind, mid, ssrc, ext, cname, codec := ⟨pt, codec.clockRate⟩ }
  assert (spec.codec.pt ≤ 127)
  return some spec

def subSpec (track : TrackSpec) (outSsrc : UInt32) (source : TrackRef) :
    Fallible ParamsError (Option SubSpec) := do
  if media.port = 0 ∨ media.direction ∉ [.recvOnly, .sendRecv] then return none
  if (← ofResult (kindOf media)) ≠ track.kind then throw .kindMismatch
  let subPt ← ofResult (findPt media ⟨(v1Codec track.kind).name, track.codec.clockRate⟩)
  let ptMap ← expect (PtMap.new [(track.codec.pt, subPt)])
  let sub ← extIds media track.kind
  let extMap ← extMap track.ext sub
  let spec : SubSpec := { outSsrc, mid := ← ofResult (midOf media), ptMap, extMap, source }
  assert (spec.ptMap.map track.codec.pt = some subPt)
  return some spec

section Equal

variable {media : MediaDescription} {kind : MediaKind} {publisher subscriber : ExtIds}

theorem findPt_eq (media : MediaDescription) (codec : CodecId) :
    findPt media codec = (Orchestrator.findPt media codec).map Subtype.val := by
  rw [findPt, Orchestrator.findPt]
  cases media.codecs.find? _ with
  | none => rfl
  | some c =>
    by_cases h : c.payloadType ≤ 127
    · simp [Option.filter, h, Except.map]
    · simp [Option.filter, h, Except.map]

theorem readExtId_eq {ids : ExtIds} {id : UInt8} {uri : String} {used : List UInt8}
    {put : UInt8 → ExtIds} (hentry : table.find? (fun e => e.id = id) = some ⟨id, uri⟩)
    (hused : ∀ x, x ∈ [ids.mid, ids.audioLevel, ids.videoOrientation] ↔ x ∈ used)
    (hnone : put 0 = ids) (hput : ∀ x, (if id = mid then { ids with mid := x }
      else if id = audioLevel then { ids with audioLevel := x }
      else { ids with videoOrientation := x }) = put x) :
    readExtId media ids (id, true) = ofResult ((extId media uri used).map put) := by
  simp only [readExtId, hentry, extId, expect, hused, hput, Bool.not_true, Bool.false_eq_true,
    if_false, pure_bind]
  cases extmapId media uri with
  | none => exact congrArg pure hnone.symm
  | some x =>
    simp only
    split_ifs <;> rfl

theorem extIds_eq (media : MediaDescription) (kind : MediaKind) :
    extIds media kind = ofResult (Orchestrator.extIds media kind) := by
  have hmid : readExtId media ⟨0, 0, 0⟩ (mid, true) =
      ofResult ((extId media midUri [0]).map fun x => ⟨x, 0, 0⟩) :=
    readExtId_eq rfl (by simp) rfl fun _ => rfl
  rw [extIds, List.foldlM_cons, hmid, Orchestrator.extIds]
  cases extId media midUri [0] with
  | error e => rfl
  | ok m =>
    have haudio : readExtId media ⟨m, 0, 0⟩ (audioLevel, true) =
        ofResult ((extId media audioLevelUri [m, 0]).map fun x => ⟨m, x, 0⟩) :=
      readExtId_eq rfl (by simp) rfl fun _ => rfl
    have hvideo : readExtId media ⟨m, 0, 0⟩ (videoOrientation, true) =
        ofResult ((extId media videoOrientationUri [m, 0]).map fun x => ⟨m, 0, x⟩) :=
      readExtId_eq rfl (by simp) rfl fun _ => rfl
    cases kind with
    | audio =>
      change (readExtId media ⟨m, 0, 0⟩ (audioLevel, true) >>= _) =
        ofResult (extId media audioLevelUri [m, 0] >>= _)
      rw [haudio]
      cases extId media audioLevelUri [m, 0] <;> rfl
    | video =>
      change (readExtId media ⟨m, 0, 0⟩ (videoOrientation, true) >>= _) =
        ofResult (extId media videoOrientationUri [m, 0] >>= _)
      rw [hvideo]
      cases extId media videoOrientationUri [m, 0] <;> rfl

theorem mapExt_eq {publisherMid : UInt8} {map : Vector UInt8 15} {ids : UInt8 × UInt8}
    (h : ids.1.toNat < 15) : mapExt publisherMid map ids =
      pure (if ids.1 ≠ 0 ∧ ids.1 ≠ publisherMid then map.set ids.1.toNat ids.2 h
        else map) := by
  rw [mapExt, dif_pos h]
  split_ifs <;> rfl

theorem getElem_setIf {map : Vector UInt8 15} {id x y : UInt8} {h : id.toNat < 15} :
    (if id ≠ 0 ∧ id ≠ y then map.set id.toNat x h else map)[0] = map[0] := by
  split_ifs with hid
  · exact Vector.getElem_set_ne _ _ fun h0 => hid.1 (UInt8.toNat_inj.1 h0)
  · rfl

theorem extMap_eq (h : OneByte publisher) :
    extMap publisher subscriber = pure (Orchestrator.extMap publisher h subscriber) := by
  have haudio : (publisher.audioLevel, subscriber.audioLevel).1.toNat < 15 :=
    Nat.lt_succ_of_le h.audioLevel
  have hvideo : (publisher.videoOrientation, subscriber.videoOrientation).1.toNat < 15 :=
    Nat.lt_succ_of_le h.videoOrientation
  rw [extMap, List.foldlM_cons, mapExt_eq haudio, pure_bind, List.foldlM_cons, mapExt_eq hvideo,
    pure_bind, List.foldlM_nil, pure_bind, assert_eq, pure_bind]
  · simp only [Orchestrator.extMap, decide_eq_true_eq]
  · exact decide_eq_true ((getElem_setIf.trans getElem_setIf).trans (Vector.getElem_replicate _))

theorem trackSpec_eq (media : MediaDescription) (cname : Bytes) : trackSpec media cname =
      ofResult ((Orchestrator.trackSpec media cname).map (Option.map PublishSpec.toTrackSpec)) := by
  rw [trackSpec, Orchestrator.trackSpec]
  by_cases hsend : media.port = 0 ∨ media.direction ∉ [.sendOnly, .sendRecv]
  · rw [if_pos hsend, if_pos hsend]
    rfl
  rw [if_neg hsend, if_neg hsend]
  cases kindOf media with
  | error e => rfl
  | ok kind =>
    change (if hasSimulcastGroup media = true then _ else _) =
      ofResult (Except.map _ (if hasSimulcastGroup media = true then _ else _))
    by_cases hsim : hasSimulcastGroup media = true
    · rw [if_pos hsim, if_pos hsim]
      rfl
    rw [if_neg hsim, if_neg hsim, findPt_eq]
    cases Orchestrator.findPt media (v1Codec kind) with
    | error e => rfl
    | ok pt =>
      change (extIds media kind >>= _) = _
      rw [extIds_eq, show (Except.ok pt : Except ParamsError _) = pure pt from rfl, pure_bind]
      cases shortBytes 255 cname with
      | none =>
        dsimp only
        split
        · next e h =>
          rw [h]
          rfl
        · next ext h =>
          rw [show ofResult (Orchestrator.extIds media kind) = pure ext from congrArg ofResult h,
            pure_bind]
          split_ifs
          · rfl
          · cases midOf media <;> rfl
      | some cname =>
        dsimp only
        split
        · next e h =>
          rw [h]
          rfl
        · next ext h =>
          rw [show ofResult (Orchestrator.extIds media kind) = pure ext from congrArg ofResult h,
            pure_bind]
          split_ifs
          · rfl
          · cases midOf media with
            | error e => rfl
            | ok mid =>
              change (assert (pt.1 ≤ 127) >>= _) = _
              rw [assert_eq (decide_eq_true pt.2)]
              rfl

theorem subSpec_eq (media : MediaDescription) (track : PublishSpec) (outSsrc : UInt32)
    (source : TrackRef) : subSpec media track.toTrackSpec outSsrc source =
      ofResult (Orchestrator.subSpec media track outSsrc source) := by
  rw [subSpec, Orchestrator.subSpec]
  by_cases hrecv : media.port = 0 ∨ media.direction ∉ [.recvOnly, .sendRecv]
  · rw [if_pos hrecv, if_pos hrecv]
    rfl
  rw [if_neg hrecv, if_neg hrecv]
  cases kindOf media with
  | error e => rfl
  | ok kind =>
    change (if kind ≠ track.kind then _ else _) = ofResult (if kind ≠ track.kind then _ else _)
    by_cases hkind : kind ≠ track.kind
    · rw [if_pos hkind, if_pos hkind]
      rfl
    rw [if_neg hkind, if_neg hkind, findPt_eq]
    cases Orchestrator.findPt media ⟨(v1Codec track.kind).name, track.codec.clockRate⟩ with
    | error e => rfl
    | ok pt =>
      have hmap : PtMap.new [(track.codec.pt, pt.1)] =
          some ⟨[(track.codec.pt, pt.1)],
            Nat.le_succ 1, by simpa using ⟨track.pt_le, pt.2⟩, by simp⟩ := by
        simp [PtMap.new, PtMap.push, track.pt_le, pt.2]
      change (expect (PtMap.new [(track.codec.pt, pt.1)]) >>= _) = _
      rw [hmap]
      change (extIds media track.kind >>= _) =
        ofResult (Orchestrator.extIds media track.kind >>= _)
      rw [extIds_eq]
      cases Orchestrator.extIds media track.kind with
      | error e => rfl
      | ok sub =>
        change (extMap track.ext sub >>= _) = _
        rw [extMap_eq track.oneByte, pure_bind]
        change (ofResult (midOf media) >>= _) = ofResult (midOf media >>= _)
        cases midOf media with
        | error e => rfl
        | ok mid =>
          change (assert _ >>= _) = _
          rw [assert_eq (by simp [PtMap.map])]
          rfl

end Equal

section Valid

variable {publisher subscriber : ExtIds} {track : PublishSpec} {media : MediaDescription}
  {outSsrc : UInt32} {source : TrackRef} {spec : SubSpec}

structure Single (publisherMid subscriberMid : UInt8) (map : Vector UInt8 15) : Prop where
  exists_set : ∃ (id : UInt8) (hid : id.toNat < 15) (x : UInt8), id ≠ 0 ∧
    (x ≠ 0 → id ≠ publisherMid ∧ x ≠ subscriberMid) ∧ x ≤ 14 ∧
      map = (Vector.replicate 15 0).set id.toNat x hid

theorem single_setIf {id x y z : UInt8} (hid : id.toNat < 15) (hx : x ≤ 14)
    (hne : x ≠ 0 → x ≠ z) :
    Single y z (if id ≠ 0 ∧ id ≠ y then (Vector.replicate 15 0).set id.toNat x hid
      else .replicate 15 0) := by
  split_ifs with hkeep
  · exact ⟨id, hid, x, hkeep.1, fun h => ⟨hkeep.2, hne h⟩, hx, rfl⟩
  · exact ⟨1, by decide, 0, by decide, nofun, by decide, rfl⟩

theorem extMap_single (h : OneByte publisher) (h' : OneByte subscriber) :
    Single publisher.mid subscriber.mid (Orchestrator.extMap publisher h subscriber).map := by
  simp only [Orchestrator.extMap, decide_eq_true_eq]
  rcases h.one with hnone | hnone
  · have hdrop : ¬ (publisher.audioLevel ≠ 0 ∧ publisher.audioLevel ≠ publisher.mid) :=
      fun hkeep => hkeep.1 hnone
    simp only [if_neg hdrop]
    exact single_setIf _ h'.videoOrientation h'.video_ne
  · rw [if_neg fun hkeep => hkeep.1 hnone]
    exact single_setIf _ h'.audioLevel h'.audio_ne

theorem extIdsValid_zeros (n : Nat) (ids used : List UInt8) :
    extIdsValid (.replicate n 0 ++ ids) used = extIdsValid ids used := by
  induction n with
  | zero => rfl
  | succ n ih => rw [List.replicate_succ, List.cons_append, extIdsValid, if_pos rfl, ih]

theorem Single.valid {y z : UInt8} {map : Vector UInt8 15} (h : Single y z map) (hz : z ≤ 14) :
    extMapIsValid ⟨map, z⟩ = true := by
  obtain ⟨id, hid, x, hne, hfree, hx, rfl⟩ := h
  have hlist : ((Vector.replicate 15 (0 : UInt8)).set id.toNat x hid).toList =
      .replicate id.toNat 0 ++ x :: .replicate (14 - id.toNat) 0 := by
    rw [Vector.toList_set, Vector.toList_replicate, List.set_eq_take_append_cons_drop,
      if_pos (by rwa [List.length_replicate]), List.take_replicate, List.drop_replicate,
      Nat.min_eq_left hid.le, Nat.sub_add_eq, Nat.sub_right_comm]
  have hzero : ((Vector.replicate 15 (0 : UInt8)).set id.toNat x hid)[0] = 0 := by
    have hpos : id.toNat ≠ 0 := fun h0 => hne (UInt8.toNat_inj.1 h0)
    rw [Vector.getElem_set_ne _ _ hpos, Vector.getElem_replicate]
  rw [extMapIsValid, hlist, hzero, List.append_assoc, List.cons_append, extIdsValid_zeros]
  have hx' : ¬ x > 14 := UInt8.not_lt.2 hx
  have hz' : ¬ z > 14 := UInt8.not_lt.2 hz
  by_cases hx0 : x = 0
  · simp [extIdsValid, extIdsValid_zeros, hx0, hz']
  · have hzx : z ≠ x := (hfree hx0).2.symm
    simp [extIdsValid, extIdsValid_zeros, hx0, hx', hz', hzx]

theorem subSpec_ok (h : Orchestrator.subSpec media track outSsrc source = .ok (some spec)) :
    ∃ pt sub, pt ≤ 127 ∧ OneByte sub ∧ spec.ptMap.pairs = [(track.codec.pt, pt)] ∧
      spec.extMap = Orchestrator.extMap track.ext track.oneByte sub := by
  rw [Orchestrator.subSpec] at h
  by_cases hrecv : media.port = 0 ∨ media.direction ∉ [.recvOnly, .sendRecv]
  · rw [if_pos hrecv] at h
    cases h
  rw [if_neg hrecv] at h
  obtain ⟨kind, -, h⟩ := bind_ok h
  by_cases hkind : kind ≠ track.kind
  · rw [if_pos hkind] at h
    cases h
  rw [if_neg hkind] at h
  obtain ⟨pt, -, h⟩ := bind_ok h
  obtain ⟨sub, hsub, h⟩ := bind_ok h
  obtain ⟨mid, -, h⟩ := bind_ok h
  cases h
  exact ⟨pt.1, sub, pt.2, extIds_oneByte hsub, rfl, rfl⟩

theorem one_le {x : UInt8} (h : x ≠ 0) : 1 ≤ x :=
  UInt8.not_lt.1 fun hlt => h (UInt8.lt_one_iff.1 hlt)

structure Valid (track : TrackSpec) (spec : SubSpec) : Prop where
  extMap : extMapIsValid spec.extMap = true
  mid : spec.extMap.map.toList[track.ext.mid.toNat]? = some 0
  ids : ∀ i : Fin 15, spec.extMap.map[i] ≠ 0 →
    (1 ≤ i.val ∧ i.val ≤ 14) ∧ 1 ≤ spec.extMap.map[i] ∧ spec.extMap.map[i] ≤ 14
  mid_le : spec.extMap.mid ≤ 14
  pt : ∃ pt, spec.ptMap.map track.codec.pt = some pt ∧ pt ≤ 127
  rewrite : ∀ sub : Subscription, sub.extMap = spec.extMap → ∀ src hdr rng now dst,
    Rtp.RtpHeader.parse src = .ok hdr →
    Dataplane.Strict.rewrite src hdr sub rng now dst ≠ none ∧
      ∀ e ∈ sub.outElements (Rtp.elements src hdr),
        (1 ≤ e.id ∧ e.id ≤ 14) ∧ 1 ≤ e.data.length ∧ e.data.length ≤ Rtp.maxOneByteLen

theorem subSpec_ok_valid (h : Orchestrator.subSpec media track outSsrc source = .ok (some spec)) :
    Valid track.toTrackSpec spec := by
  obtain ⟨pt, sub, hpt, hsub, hpairs, hmap⟩ := subSpec_ok h
  have hsingle := extMap_single track.oneByte hsub
  have hmid : spec.extMap.mid = sub.mid := by rw [hmap]; rfl
  rw [← hmap, ← hmid] at hsingle
  have hvalid : extMapIsValid spec.extMap = true := hsingle.valid (hmid ▸ hsub.mid)
  obtain ⟨id, hid, x, hne, hfree, hx, hset⟩ := hsingle
  have hget : ∀ (i : Nat) (hi : i < 15), spec.extMap.map[i] ≠ 0 →
      i = id.toNat ∧ spec.extMap.map[i] = x := by
    intro i hi hmapped
    rw [hset, Vector.getElem_set] at hmapped ⊢
    split_ifs at hmapped ⊢ with heq
    · exact ⟨heq.symm, rfl⟩
    · rw [Vector.getElem_replicate] at hmapped
      exact absurd rfl hmapped
  have hpub : track.ext.mid.toNat < 15 := Nat.lt_succ_of_le track.oneByte.mid
  refine ⟨hvalid, ?_, fun i hi => ?_, hmid ▸ hsub.mid, ⟨pt, ?_, hpt⟩, ?_⟩
  · have hfree' : spec.extMap.map[track.ext.mid.toNat] = 0 := by
      by_contra hmapped
      obtain ⟨heq, hx'⟩ := hget _ hpub hmapped
      exact (hfree (hx' ▸ hmapped)).1 (UInt8.toNat_inj.1 heq.symm)
    rw [List.getElem?_eq_getElem (by rwa [Vector.length_toList])]
    exact congrArg some hfree'
  · obtain ⟨hi', hx'⟩ := hget i i.isLt hi
    have hpos : i.val ≠ 0 := fun h0 => hne (UInt8.toNat_inj.1 (hi'.symm.trans h0))
    exact ⟨⟨Nat.one_le_iff_ne_zero.2 hpos, Nat.le_of_lt_succ i.isLt⟩, one_le hi,
      hx'.trans_le hx⟩
  · rw [PtMap.map, hpairs]
    simp
  · intro sub' hsub' src hdr rng now dst hp
    rw [← hsub'] at hvalid
    refine ⟨?_, fun e he => ?_⟩
    · rw [Dataplane.Strict.rewrite_eq hp hvalid]
      exact some_ne_none _
    · obtain ⟨he0, he14, hnil, hlen⟩ := outElements_oneByte hvalid _ e he
      exact ⟨⟨one_le he0, he14⟩, List.length_pos_iff.2 hnil, hlen⟩

theorem subSpec_valid (m₁ m₂ : MediaDescription) (cname : Bytes) (outSsrc : UInt32)
    (source : TrackRef) : (trackSpec m₁ cname).run ≠ none ∧
      ∀ track, (trackSpec m₁ cname).run = some (.ok (some track)) →
        (subSpec m₂ track outSsrc source).run ≠ none ∧
          ∀ spec, (subSpec m₂ track outSsrc source).run = some (.ok (some spec)) →
            Valid track spec := by
  rw [trackSpec_eq]
  refine ⟨some_ne_none _, fun track htrack => ?_⟩
  obtain ⟨p, hp, rfl⟩ : ∃ p, Orchestrator.trackSpec m₁ cname = .ok (some p) ∧
      p.toTrackSpec = track := by
    have hmap := Option.some.inj htrack
    cases hspec : Orchestrator.trackSpec m₁ cname with
    | error e =>
      rw [hspec] at hmap
      cases hmap
    | ok p =>
      rw [hspec] at hmap
      obtain ⟨p, rfl, htrack⟩ := map_eq_some_iff.1 (Except.ok.inj hmap)
      exact ⟨p, rfl, htrack⟩
  rw [subSpec_eq]
  exact ⟨some_ne_none _, fun spec hspec => subSpec_ok_valid (Option.some.inj hspec)⟩

def answered (direction : Direction) (pt mid audioLevel : UInt8) : MediaDescription where
  mediaType := .audio
  port := 9
  direction
  mid := some "0"
  codecs := [⟨pt, "OPUS", 48000⟩]
  extmaps := [⟨mid, midUri⟩, ⟨audioLevel, audioLevelUri⟩]
  ssrcGroups := []
  ssrcValues := [7]

theorem subSpec_valid_crossed : ∃ track spec,
    (trackSpec (answered .sendOnly 111 1 2) [110]).run = some (.ok (some track)) ∧
      (subSpec (answered .recvOnly 96 2 1) track 9 ⟨0, ⟨1, by decide⟩⟩).run =
        some (.ok (some spec)) ∧ Valid track spec := by
  have hrun : ((trackSpec (answered .sendOnly 111 1 2) [110]).run.any fun r =>
      r.toOption.join.any fun track =>
      (subSpec (answered .recvOnly 96 2 1) track 9 ⟨0, ⟨1, by decide⟩⟩).run.any fun r =>
        r.toOption.join.isSome) = true := by
    decide +kernel
  obtain ⟨r, htrack, hrun⟩ := (Option.any_eq_true _ _).1 hrun
  cases r with
  | error e => cases hrun
  | ok o =>
    obtain ⟨track, rfl, hsub⟩ := (Option.any_eq_true _ _).1 hrun
    obtain ⟨r, hspec, hsome⟩ := (Option.any_eq_true _ _).1 hsub
    cases r with
    | error e => cases hsome
    | ok o =>
      obtain ⟨spec, rfl⟩ := isSome_iff_exists.1 hsome
      have hvalid := subSpec_valid (answered .sendOnly 111 1 2) (answered .recvOnly 96 2 1) [110] 9
        ⟨0, ⟨1, by decide⟩⟩
      exact ⟨track, spec, htrack, hspec, (hvalid.2 track htrack).2 spec hspec⟩

end Valid
end NexusSfu.Orchestrator.Strict
