import Mathlib.Data.List.TakeWhile
import NexusSfu.Base.Tlv
import NexusSfu.Dataplane.Stun

namespace NexusSfu.Dataplane

namespace Stun

open Base Option

def Offsets.noteAll : Offsets → Nat → List Tlv → Option Offsets
  | found, _, [] => some found
  | found, start, a :: attrs =>
    if found.fingerprint.isSome ∨
      (found.integrity.isSome ∧ a.kind ≠ attrFingerprint) then none
    else (found.note a.kind start a.value.length).bind (·.noteAll (start + a.size) attrs)

def userAt : Nat → List Tlv → Option (Nat × Nat)
  | _, [] => none
  | start, a :: attrs =>
    if a.kind = attrUsername then some (start + 4, a.value.length)
    else userAt (start + a.size) attrs

def Ordinary (a : Tlv) : Prop := a.kind ≠ attrMessageIntegrity ∧ a.kind ≠ attrFingerprint

instance : DecidablePred Ordinary := fun _ => instDecidableAnd

section Scan

variable {data rest : Bytes} {found last : Offsets} {start n : Nat} {attrs : List Tlv}

theorem scanAttributes_end (h : start = data.length) :
    scanAttributes data n found start = some found := by
  cases n with
  | zero => exact if_pos h
  | succ n => exact if_pos h

theorem scanAttributes_attr {a : Tlv} (h : start ≤ data.length)
    (hdrop : data.drop start = a.encode ++ rest) :
    scanAttributes data (n + 1) found start =
      if found.fingerprint.isSome ∨
        (found.integrity.isSome ∧ a.kind ≠ attrFingerprint) then none
      else (found.note a.kind start a.value.length).bind
        (scanAttributes data n · (start + a.size)) := by
  have hle := Tlv.le_of_drop h hdrop
  have hpos := a.size_pos
  have hnext : start + 4 + (a.value.length + 3) / 4 * 4 = start + a.size := by
    rw [Tlv.size, Nat.add_assoc]
  simp only [scanAttributes, Tlv.be16_kind hdrop, Tlv.be16_length hdrop, hnext]
  rw [if_neg (show start ≠ data.length by omega),
    if_neg (show ¬ start + a.size > data.length by omega)]
  by_cases hf : found.fingerprint.isSome
  · rw [if_pos (.inr hf), if_pos (.inl hf)]
  · rw [if_neg (not_or.2 ⟨show ¬ start + 4 > data.length by omega, hf⟩)]
    by_cases hi : found.integrity.isSome ∧ a.kind ≠ attrFingerprint
    · rw [if_pos hi, if_pos (.inr hi)]
    · rw [if_neg hi, if_neg (not_or.2 ⟨hf, hi⟩)]
      cases found.note a.kind start a.value.length <;> rfl

theorem exists_attr (hend : start ≠ data.length)
    (h : scanAttributes data n found start = some last) :
    ∃ a : Tlv, data.drop start = a.encode ++ data.drop (start + a.size) := by
  cases n with
  | zero => simp [scanAttributes, hend] at h
  | succ n =>
    simp only [scanAttributes, if_neg hend] at h
    by_cases hshort : start + 4 > data.length ∨ found.fingerprint.isSome
    · simp [hshort] at h
    · rw [if_neg hshort] at h
      by_cases hnext : start + 4 + ((be16 data (start + 2)).toNat + 3) / 4 * 4 > data.length
      · simp [hnext] at h
      · exact Tlv.exists_encode (by omega) (by omega)

theorem scanAttributes_iff (h : start ≤ data.length) :
    scanAttributes data n found start = some last ↔ ∃ attrs : List Tlv,
      attrs.length ≤ n ∧ data.drop start = Tlv.encodeAll attrs ∧
        found.noteAll start attrs = some last := by
  induction n generalizing found start with
  | zero =>
    constructor
    · intro hscan
      have hend : start = data.length := by
        by_contra hne
        simp [scanAttributes, hne] at hscan
      rw [scanAttributes_end hend] at hscan
      exact ⟨[], le_rfl, List.drop_eq_nil_of_le hend.ge, hscan⟩
    · rintro ⟨attrs, hlen, hdrop, hnote⟩
      cases attrs with
      | nil => rwa [scanAttributes_end (le_antisymm h (List.drop_eq_nil_iff.1 hdrop))]
      | cons a attrs => simp at hlen
  | succ n ih =>
    constructor
    · intro hscan
      by_cases hend : start = data.length
      · rw [scanAttributes_end hend] at hscan
        exact ⟨[], by simp, List.drop_eq_nil_of_le hend.ge, hscan⟩
      · obtain ⟨a, hdrop⟩ := exists_attr hend hscan
        rw [scanAttributes_attr h hdrop, Option.ite_none_left_eq_some, bind_eq_some_iff]
          at hscan
        obtain ⟨hok, noted, hnoted, hrest⟩ := hscan
        obtain ⟨attrs, hlen, hattrs, hall⟩ := (ih (Tlv.le_of_drop h hdrop)).1 hrest
        refine ⟨a :: attrs, by simpa using hlen, by rw [hdrop, hattrs, Tlv.encodeAll_cons], ?_⟩
        rw [Offsets.noteAll, if_neg hok, hnoted, bind_some, hall]
    · rintro ⟨attrs, hlen, hdrop, hnote⟩
      cases attrs with
      | nil => rwa [scanAttributes_end (le_antisymm h (List.drop_eq_nil_iff.1 hdrop))]
      | cons a attrs =>
        rw [Offsets.noteAll, Option.ite_none_left_eq_some, bind_eq_some_iff] at hnote
        obtain ⟨hok, noted, hnoted, hall⟩ := hnote
        rw [scanAttributes_attr h hdrop, if_neg hok, hnoted, bind_some]
        exact (ih (Tlv.le_of_drop h hdrop)).2
          ⟨attrs, by simpa using hlen, Tlv.drop_encode hdrop, hall⟩

theorem noteAll_fingerprint (h : found.fingerprint.isSome) :
    found.noteAll start attrs = some last ↔ attrs = [] ∧ last = found := by
  cases attrs with
  | nil => simp [Offsets.noteAll, eq_comm]
  | cons a attrs => simp [Offsets.noteAll, h]

theorem note_fingerprint (len : Nat) : found.note attrFingerprint start len =
    if len = 4 then some { found with fingerprint := some start } else none := rfl

theorem noteAll_integrity (hi : found.integrity.isSome) (hf : found.fingerprint = none) :
    (found.noteAll start attrs = some last ∧ last.fingerprint.isSome) ↔
      ∃ fp : Tlv, attrs = [fp] ∧ fp.kind = attrFingerprint ∧ fp.value.length = 4 ∧
        last = { found with fingerprint := some start } := by
  cases attrs with
  | nil =>
    simp only [Offsets.noteAll, Option.some.injEq, List.ne_cons_self, false_and, exists_false,
      iff_false]
    rintro ⟨rfl, hsome⟩
    simp [hf] at hsome
  | cons a attrs =>
    constructor
    · rintro ⟨hall, _⟩
      simp only [Offsets.noteAll, Option.ite_none_left_eq_some, bind_eq_some_iff, hi,
        true_and, not_or, not_not] at hall
      obtain ⟨⟨_, hk⟩, noted, hnoted, hrest⟩ := hall
      rw [hk, note_fingerprint, ite_none_right_eq_some] at hnoted
      obtain ⟨hlen, ⟨rfl⟩⟩ := hnoted
      obtain ⟨rfl, rfl⟩ := (noteAll_fingerprint rfl).1 hrest
      exact ⟨a, rfl, hk, hlen, rfl⟩
    · rintro ⟨_, ⟨rfl⟩, hk, hlen, rfl⟩
      simp [Offsets.noteAll, hk, hf, note_fingerprint, hlen]

def Offsets.noteOrdinary (found : Offsets) (start : Nat) (attrs : List Tlv) : Offsets where
  username := found.username.or (userAt start attrs)
  useCandidate := found.useCandidate || attrs.any (·.kind = attrUseCandidate)
  integrity := found.integrity
  fingerprint := found.fingerprint

theorem note_ordinary {a : Tlv} (ha : Ordinary a) :
    found.note a.kind start a.value.length = some (found.noteOrdinary start [a]) := by
  obtain ⟨user, _, _, _⟩ := found
  obtain ⟨hm, hf⟩ := ha
  by_cases hu : a.kind = attrUsername
  · have hc : attrUsername ≠ attrUseCandidate := by decide
    rw [hu] at hm hf
    cases user <;> simp [Offsets.note, Offsets.noteOrdinary, userAt, hu, hm, hf, hc]
  · by_cases hc : a.kind = attrUseCandidate
    · rw [hc] at hu
      simp [Offsets.note, Offsets.noteOrdinary, userAt, hu, hc]
    · simp [Offsets.note, Offsets.noteOrdinary, userAt, hu, hm, hf, hc]

theorem noteOrdinary_cons (a : Tlv) :
    (found.noteOrdinary start [a]).noteOrdinary (start + a.size) attrs =
      found.noteOrdinary start (a :: attrs) := by
  simp only [Offsets.noteOrdinary, userAt, List.any_cons, List.any_nil, Bool.or_false,
    Bool.or_assoc, Option.or_assoc, Offsets.mk.injEq, and_true]
  split_ifs <;> simp

theorem noteAll_ordinary (hi : found.integrity = none) (hf : found.fingerprint = none)
    {before : List Tlv} (hb : ∀ a ∈ before, Ordinary a) :
    found.noteAll start (before ++ attrs) =
      (found.noteOrdinary start before).noteAll (start + (Tlv.encodeAll before).length) attrs := by
  induction before generalizing found start with
  | nil => simp [Offsets.noteOrdinary, userAt]
  | cons a before ih =>
    rw [List.cons_append, Offsets.noteAll, if_neg (by simp [hi, hf]),
      note_ordinary (hb a List.mem_cons_self), bind_some,
      ih (by exact hi) (by exact hf) fun b h => hb b (List.mem_cons_of_mem _ h), noteOrdinary_cons,
      Tlv.encodeAll_cons, List.length_append, Tlv.length_encode, Nat.add_assoc]

theorem note_integrity (len : Nat) : found.note attrMessageIntegrity start len =
    if len = 20 then some { found with integrity := some start } else none := rfl

theorem noteAll_iff (start : Nat) (hi : found.integrity = none) (hf : found.fingerprint = none) :
    (found.noteAll start attrs = some last ∧ last.integrity.isSome ∧
      last.fingerprint.isSome) ↔
      ∃ (before : List Tlv) (mi fp : Tlv), attrs = before ++ [mi, fp] ∧
        (∀ a ∈ before, Ordinary a) ∧ mi.kind = attrMessageIntegrity ∧
          mi.value.length = 20 ∧
        fp.kind = attrFingerprint ∧ fp.value.length = 4 ∧
          last = { found.noteOrdinary start before with
          integrity := some (start + (Tlv.encodeAll before).length)
          fingerprint := some (start + (Tlv.encodeAll before).length + 24) } := by
  have hsize : ∀ mi : Tlv, mi.value.length = 20 → mi.size = 24 := fun mi h => by
    rw [Tlv.size, h]
  constructor
  · rintro ⟨hall, hmi, hfp⟩
    -- the ordinary attributes in front, and what is left
    have hsplit := List.takeWhile_append_dropWhile (p := (Ordinary ·)) (l := attrs)
    have hb : ∀ a ∈ attrs.takeWhile (Ordinary ·), Ordinary a := fun a ha => by
      simpa using List.mem_takeWhile_imp ha
    have hhead := List.head?_dropWhile_not (Ordinary ·) attrs
    generalize attrs.takeWhile (Ordinary ·) = before at *
    generalize attrs.dropWhile (Ordinary ·) = tail at *
    subst hsplit
    rw [noteAll_ordinary hi hf hb] at hall
    cases tail with
    | nil =>
      cases hall
      simp [Offsets.noteOrdinary, hi] at hmi
    | cons mi tail =>
      replace hhead : ¬ Ordinary mi := by simpa using hhead
      simp only [Offsets.noteAll, Option.ite_none_left_eq_some, bind_eq_some_iff] at hall
      obtain ⟨_, noted, hnoted, hrest⟩ := hall
      by_cases hmk : mi.kind = attrMessageIntegrity
      · rw [hmk, note_integrity, ite_none_right_eq_some] at hnoted
        obtain ⟨hml, ⟨rfl⟩⟩ := hnoted
        rw [hsize mi hml] at hrest
        obtain ⟨fp, rfl, hfk, hfl, rfl⟩ :=
          (noteAll_integrity rfl (by exact hf)).1 ⟨hrest, hfp⟩
        exact ⟨before, mi, fp, rfl, hb, hmk, hml, hfk, hfl, rfl⟩
      · have hfk : mi.kind = attrFingerprint := by
          by_contra hne
          exact hhead ⟨hmk, hne⟩
        rw [hfk, note_fingerprint, ite_none_right_eq_some] at hnoted
        obtain ⟨_, ⟨rfl⟩⟩ := hnoted
        obtain ⟨_, rfl⟩ := (noteAll_fingerprint rfl).1 hrest
        simp [Offsets.noteOrdinary, hi] at hmi
  · rintro ⟨before, mi, fp, rfl, hb, hmk, hml, hfk, hfl, rfl⟩
    refine ⟨?_, rfl, rfl⟩
    rw [noteAll_ordinary hi hf hb, Offsets.noteAll, if_neg (by simp [Offsets.noteOrdinary, hi, hf]),
      hmk, note_integrity, if_pos hml, bind_some, hsize mi hml]
    exact ((noteAll_integrity rfl (by exact hf)).2 ⟨fp, rfl, hfk, hfl, rfl⟩).1

theorem userAt_value (hdrop : data.drop start = Tlv.encodeAll attrs ++ rest) :
    (userAt start attrs).map (fun place => slice data place.1 place.2) =
      (attrs.find? (·.kind = attrUsername)).map Tlv.value := by
  induction attrs generalizing start with
  | nil => rfl
  | cons a attrs ih =>
    rw [Tlv.encodeAll_cons, List.append_assoc] at hdrop
    by_cases hu : a.kind = attrUsername
    · simp [userAt, hu, Tlv.slice_value hdrop]
    · simpa [userAt, hu] using ih (Tlv.drop_encode hdrop)

end Scan

section Message

theorem toList_bytesAt {data : Bytes} {i n : Nat} (h : i + n ≤ data.length) :
    (bytesAt data i n).toList = slice data i n := by
  apply List.ext_getElem
  · simp [length_slice h]
  · intro k hk hk'
    have hik : i + k < data.length := by
      simp at hk
      omega
    simp [bytesAt, slice, hik]

def message (transactionId : Vector UInt8 12) (body : Bytes) : Bytes :=
  beBytes 2 0x0001 ++ (beBytes 2 body.length ++ (beBytes 4 stunMagicCookie.toNat ++
    (transactionId.toList ++ body)))

def Framed (data : Bytes) : Prop :=
  stunHeaderSize ≤ data.length ∧ be16 data 0 = 0x0001 ∧ be32 data 4 = stunMagicCookie ∧
    stunHeaderSize + (be16 data 2).toNat = data.length

variable {tid : Vector UInt8 12} {data body : Bytes}

theorem length_message : (message tid body).length = stunHeaderSize + body.length := by
  simp only [message, List.length_append, length_beBytes, Vector.length_toList, stunHeaderSize]
  omega

theorem drop_message : (message tid body).drop stunHeaderSize = body := by
  have h : (message tid body).drop 0 = _ := rfl
  exact drop_of_drop (drop_of_drop (drop_of_drop (drop_of_drop h (length_beBytes ..))
    (length_beBytes ..)) (length_beBytes ..)) (Vector.length_toList ..)

theorem bytesAt_message : bytesAt (message tid body) 8 12 = tid := by
  apply Vector.toList_inj.1
  rw [toList_bytesAt (by rw [length_message]; simp)]
  have h : (message tid body).drop 0 = _ := rfl
  exact slice_of_drop (drop_of_drop (drop_of_drop (drop_of_drop h (length_beBytes ..))
    (length_beBytes ..)) (length_beBytes ..)) (Vector.length_toList ..)

theorem framed_message (h : body.length < 2 ^ 16) : Framed (message tid body) := by
  have h0 : (message tid body).drop 0 = _ := rfl
  have h2 := drop_of_drop h0 (length_beBytes ..)
  have h4 := drop_of_drop h2 (length_beBytes ..)
  have hlen : (be16 (message tid body) 2).toNat = body.length := by
    rw [be16, slice_of_drop h2 (length_beBytes ..), beNat_beBytes_of_lt h,
      UInt16.toNat_ofNat_of_lt' h]
  refine ⟨by rw [length_message]; omega, ?_, be32_of_slice (slice_of_drop h4 (length_beBytes ..)),
    by rw [hlen, length_message]⟩
  exact be16_of_slice (x := 0x0001) (slice_of_drop h0 (length_beBytes ..))

theorem Framed.eq_message (h : Framed data) :
    data = message (bytesAt data 8 12) (data.drop stunHeaderSize) := by
  obtain ⟨hmin, htype, hcookie, hlen⟩ := h
  have hmin' : 20 ≤ data.length := hmin
  have hbody : (data.drop stunHeaderSize).length = (be16 data 2).toNat := by
    rw [List.length_drop]
    omega
  have h0 := slice_be16 (b := data) (i := 0) (by omega)
  have h2 := slice_be16 (b := data) (i := 2) (by omega)
  have h4 := slice_be32 (b := data) (i := 4) (by omega)
  rw [htype] at h0
  rw [hcookie] at h4
  rw [message, hbody, toList_bytesAt (by omega), ← h4, ← h2]
  calc data = slice data 0 2 ++ (slice data 2 2 ++ (slice data 4 4 ++ (slice data 8 12 ++
        data.drop 20))) := by
        rw [slice_append_drop, slice_append_drop, slice_append_drop, slice_append_drop,
          List.drop_zero]
    _ = _ := by rw [h0]; rfl

end Message

structure Binding where
  transactionId : Vector UInt8 12
  before : List Tlv
  username : Tlv
  integrity : Tlv
  fingerprint : Tlv
  ordinary : ∀ a ∈ before, Ordinary a
  integrity_kind : integrity.kind = attrMessageIntegrity
  integrity_length : integrity.value.length = 20
  fingerprint_kind : fingerprint.kind = attrFingerprint
  fingerprint_length : fingerprint.value.length = 4
  first_username : before.find? (·.kind = attrUsername) = some username
  utf8 : ByteArray.validateUTF8 ⟨username.value.toArray⟩
  colon : username.value[ufragLen]? = some 0x3A
  few : (before ++ [integrity, fingerprint]).length ≤ maxAttributes
  fits : (Tlv.encodeAll (before ++ [integrity, fingerprint])).length < 2 ^ 16

namespace Binding

def encode (b : Binding) : Bytes :=
  message b.transactionId (Tlv.encodeAll (b.before ++ [b.integrity, b.fingerprint]))

def request (b : Binding) : BindingRequest where
  transactionId := b.transactionId
  localUfrag := bytesAt b.username.value 0 ufragLen
  useCandidate := b.before.any (·.kind = attrUseCandidate)
  integrityOffset := stunHeaderSize + (Tlv.encodeAll b.before).length
  integrity := bytesAt b.integrity.value 0 20
  fingerprintOffset := stunHeaderSize + (Tlv.encodeAll b.before).length + 24
  fingerprint := be32 b.fingerprint.value 0

end Binding

theorem scan_iff {data : Bytes} {request : BindingRequest} :
    scan data = some request ↔
      Framed data ∧ (be16 data 2).toNat % 4 = 0 ∧ ∃ found userAt userLen miAt fpAt,
        scanAttributes data maxAttributes ⟨none, false, none, none⟩ stunHeaderSize =
          some found ∧
        found.username = some (userAt, userLen) ∧ found.integrity = some miAt ∧
          found.fingerprint = some fpAt ∧
        ByteArray.validateUTF8 ⟨(slice data userAt userLen).toArray⟩ ∧
        (slice data userAt userLen)[ufragLen]? = some 0x3A ∧ request = {
          transactionId := bytesAt data 8 12
          localUfrag := bytesAt (slice data userAt userLen) 0 ufragLen
          useCandidate := found.useCandidate
          integrityOffset := miAt
          integrity := bytesAt data (miAt + 4) 20
          fingerprintOffset := fpAt
          fingerprint := be32 data (fpAt + 4) } := by
  unfold scan Framed
  simp only [Option.bind_eq_bind, Option.pure_def, Option.bind_none, Option.ite_none_left_eq_some,
    bind_eq_some_iff, Option.some.injEq, Prod.exists, not_or, not_not, not_lt]
  constructor
  · rintro ⟨⟨hmin, htype⟩, hcookie, ⟨hmod, hlen⟩, found, hfound, i, k, huser,
      ⟨hutf, hcolon⟩, mi, hmi, fp, hfp, rfl⟩
    exact ⟨⟨hmin, htype, hcookie, hlen⟩, hmod, found, i, k, mi, fp, hfound, huser, hmi, hfp,
      by simpa using hutf, hcolon, rfl⟩
  · rintro ⟨⟨hmin, htype, hcookie, hlen⟩, hmod, found, i, k, mi, fp, hfound, huser,
      hmi, hfp, hutf, hcolon, rfl⟩
    exact ⟨⟨hmin, htype⟩, hcookie, ⟨hmod, hlen⟩, found, hfound, i, k, huser,
      ⟨by simpa using hutf, hcolon⟩, mi, hmi, fp, hfp, rfl⟩

namespace Binding

variable (b : Binding)

theorem drop_encode : b.encode.drop stunHeaderSize =
    Tlv.encodeAll b.before ++ (b.integrity.encode ++ (b.fingerprint.encode ++ [])) := by
  rw [encode, drop_message, Tlv.encodeAll_append]
  rfl

theorem size_integrity : b.integrity.size = 24 := by rw [Tlv.size, b.integrity_length]

theorem size_fingerprint : b.fingerprint.size = 8 := by rw [Tlv.size, b.fingerprint_length]

theorem length_encode : b.encode.length = b.request.fingerprintOffset + 8 := by
  rw [encode, length_message, Tlv.encodeAll_append, List.length_append]
  simp [request, size_integrity, size_fingerprint]
  omega

theorem slice_integrity :
    slice b.encode (b.request.integrityOffset + 4) 20 = b.integrity.value := by
  have h := Tlv.slice_value (drop_of_drop b.drop_encode rfl)
  rwa [b.integrity_length] at h

theorem slice_fingerprint :
    slice b.encode (b.request.fingerprintOffset + 4) 4 = b.fingerprint.value := by
  have h := Tlv.drop_encode (drop_of_drop b.drop_encode rfl)
  have hv := Tlv.slice_value h
  rwa [b.fingerprint_length, b.size_integrity] at hv

theorem toList_integrity : b.request.integrity.toList = b.integrity.value := by
  rw [request, toList_bytesAt (by simp [b.integrity_length]), slice, List.drop_zero,
    List.take_of_length_le b.integrity_length.le]

theorem beBytes_fingerprint : beBytes 4 b.request.fingerprint.toNat = b.fingerprint.value := by
  rw [request, ← slice_be32 (by simp [b.fingerprint_length]), slice, List.drop_zero,
    List.take_of_length_le b.fingerprint_length.le]

theorem bytesAt_integrity :
    bytesAt b.encode (b.request.integrityOffset + 4) 20 = b.request.integrity := by
  have hlen := b.length_encode
  have hmi : b.request.fingerprintOffset = b.request.integrityOffset + 24 := rfl
  apply Vector.toList_inj.1
  rw [toList_bytesAt (by omega), slice_integrity, toList_integrity]

theorem be32_fingerprint :
    be32 b.encode (b.request.fingerprintOffset + 4) = b.request.fingerprint := by
  apply be32_of_slice
  rw [slice_fingerprint, beBytes_fingerprint]

theorem scan_encode : scan b.encode = some b.request := by
  have hframed : Framed b.encode := framed_message b.fits
  have hbody : (be16 b.encode 2).toNat =
      (Tlv.encodeAll (b.before ++ [b.integrity, b.fingerprint])).length := by
    have hlen := hframed.2.2.2
    rw [encode, length_message] at hlen
    exact Nat.add_left_cancel hlen
  obtain ⟨⟨i, k⟩, hplace, hvalue⟩ : ∃ place, userAt stunHeaderSize b.before =
      some place ∧ slice b.encode place.1 place.2 = b.username.value := by
    have h := userAt_value b.drop_encode
    rw [b.first_username] at h
    simpa using h
  have hempty : Offsets.integrity ⟨none, false, none, none⟩ = none := rfl
  have hnotes :=
    (noteAll_iff stunHeaderSize hempty rfl).2
      ⟨b.before, b.integrity, b.fingerprint, rfl, b.ordinary, b.integrity_kind,
        b.integrity_length, b.fingerprint_kind, b.fingerprint_length, rfl⟩
  refine scan_iff.2 ⟨hframed, ?_, _, i, k, _, _, (scanAttributes_iff hframed.1).2
    ⟨_, b.few, drop_message, hnotes.1⟩, hplace, rfl, rfl, hvalue ▸ b.utf8,
    hvalue ▸ b.colon, ?_⟩
  · rw [hbody]
    exact Nat.mod_eq_zero_of_dvd (Tlv.dvd_length_encodeAll _)
  · have hmi := b.bytesAt_integrity
    have hfp := b.be32_fingerprint
    simp only [request] at hmi hfp ⊢
    rw [hvalue, hmi, hfp, encode, bytesAt_message]
    rfl

end Binding

theorem scan_eq_some_iff {data : Bytes} {request : BindingRequest} :
    scan data = some request ↔ ∃ b : Binding, data = b.encode ∧ request = b.request := by
  constructor
  · intro hscan
    obtain ⟨hframed, -, found, i, k, mi, fp, hfound, huser, hmi, hfp, hutf, hcolon, -⟩ :=
      scan_iff.1 hscan
    obtain ⟨attrs, hfew, hdrop, hnotes⟩ := (scanAttributes_iff hframed.1).1 hfound
    obtain ⟨before, mi, fp, rfl, hb, hmk, hml, hfk, hfl, rfl⟩ :=
      (noteAll_iff _ rfl rfl).1 ⟨hnotes, by simp [hmi], by simp [hfp]⟩
    have hvalue := userAt_value (hdrop.trans (Tlv.encodeAll_append before [mi, fp]))
    replace huser : userAt stunHeaderSize before = some (i, k) := huser
    rw [huser, map_some, eq_comm, map_eq_some_iff] at hvalue
    obtain ⟨user, hfind, hvalue⟩ := hvalue
    let b : Binding := ⟨bytesAt data 8 12, before, user, mi, fp, hb, hmk, hml, hfk, hfl, hfind,
      hvalue ▸ hutf, hvalue ▸ hcolon, hfew, by
        rw [← hdrop, List.length_drop, ← hframed.2.2.2, Nat.add_sub_cancel_left]
        exact (be16 data 2).toNat_lt⟩
    have hb : data = b.encode := by
      rw [hframed.eq_message, hdrop]
      rfl
    exact ⟨b, hb, Option.some.inj (by rw [← hscan, hb, b.scan_encode])⟩
  · rintro ⟨b, rfl, rfl⟩
    exact b.scan_encode

def covered (data : Bytes) (request : BindingRequest) : Bytes :=
  slice data 0 2 ++ slice data 4 16 ++
    slice data stunHeaderSize (request.integrityOffset - stunHeaderSize)

namespace Binding

variable {b b' : Binding} {h : StunHash} {password : Bytes}

theorem slice_type (b : Binding) : slice b.encode 0 2 = beBytes 2 0x0001 :=
  slice_of_drop rfl (length_beBytes ..)

theorem slice_identity (b : Binding) :
    slice b.encode 4 16 = beBytes 4 stunMagicCookie.toNat ++ b.transactionId.toList := by
  have h0 : b.encode.drop 0 = _ := rfl
  have h4 := drop_of_drop (drop_of_drop h0 (length_beBytes ..)) (length_beBytes ..)
  rw [← List.append_assoc] at h4
  exact slice_of_drop h4 (by simp)

theorem covered_encode (b : Binding) : covered b.encode b.request = beBytes 2 0x0001 ++
    (beBytes 4 stunMagicCookie.toNat ++ b.transactionId.toList) ++ Tlv.encodeAll b.before := by
  have hoff : b.request.integrityOffset - stunHeaderSize = (Tlv.encodeAll b.before).length :=
    Nat.add_sub_cancel_left ..
  rw [covered, slice_type, slice_identity, hoff, slice_of_drop b.drop_encode rfl]

theorem digestInput_encode (b : Binding) : digestInput b.encode b.request.fingerprintOffset 8 =
    beBytes 2 0x0001 ++ beBytes 2 ((Tlv.encodeAll b.before ++ b.integrity.encode).length + 8) ++
      (beBytes 4 stunMagicCookie.toNat ++ b.transactionId.toList) ++
      (Tlv.encodeAll b.before ++ b.integrity.encode) := by
  have hoff : b.request.fingerprintOffset - stunHeaderSize =
      (Tlv.encodeAll b.before ++ b.integrity.encode).length := by
    rw [List.length_append, Tlv.length_encode, size_integrity]
    simp only [request]
    omega
  have hdrop := b.drop_encode
  rw [← List.append_assoc] at hdrop
  rw [digestInput, slice_type, slice_identity, hoff, slice_of_drop hdrop rfl]

theorem verify_fingerprint (hv : verify h b.encode b.request password) :
    computeFingerprint h b.encode b.request.fingerprintOffset = b.request.fingerprint := by
  rw [verify, Bool.and_eq_true, verifyFingerprint] at hv
  have hf := hv.1
  split_ifs at hf
  exact eq_of_beq hf

theorem encode_congr (htid : b.transactionId = b'.transactionId)
    (hbefore : Tlv.encodeAll b.before = Tlv.encodeAll b'.before)
    (hmi : b.integrity.value = b'.integrity.value)
    (hfp : b.fingerprint.value = b'.fingerprint.value) : b.encode = b'.encode := by
  rw [encode, encode, Tlv.encodeAll_append, Tlv.encodeAll_append, htid, hbefore,
    Tlv.encodeAll_cons, Tlv.encodeAll_cons, Tlv.encodeAll_cons, Tlv.encodeAll_cons,
    Tlv.encode_congr ⟨5, b.integrity_length⟩
      (b.integrity_kind.trans b'.integrity_kind.symm) hmi,
    Tlv.encode_congr ⟨1, b.fingerprint_length⟩
      (b.fingerprint_kind.trans b'.fingerprint_kind.symm)
      hfp]

end Binding

/-- The scan accepts exactly the well-formed binding requests, and an accepted one is determined by
what its integrity covers and the integrity itself. -/
theorem scan_nonmalleable : (∀ data, (scan data).isSome ↔ ∃ b : Binding, data = b.encode) ∧
      ∀ (h : StunHash) (password data data' : Bytes) (request request' : BindingRequest),
        scan data = some request → scan data' = some request' →
        verify h data request password → verify h data' request' password →
        covered data request = covered data' request' → request.integrity = request'.integrity →
        data = data' ∧ request = request' := by
  constructor
  · intro data
    constructor
    · intro hsome
      obtain ⟨request, hscan⟩ := isSome_iff_exists.1 hsome
      obtain ⟨b, hb, _⟩ := scan_eq_some_iff.1 hscan
      exact ⟨b, hb⟩
    · rintro ⟨b, rfl⟩
      rw [b.scan_encode]
      rfl
  · intro h password data data' request request' hscan hscan' hv hv' hcovered hmi
    obtain ⟨b, rfl, rfl⟩ := scan_eq_some_iff.1 hscan
    obtain ⟨b', rfl, rfl⟩ := scan_eq_some_iff.1 hscan'
    rw [b.covered_encode, b'.covered_encode] at hcovered
    obtain ⟨hheader, hbefore⟩ := List.append_inj hcovered (by simp)
    have htid := Vector.toList_inj.1 (List.append_cancel_left (List.append_cancel_left hheader))
    have hmi' : b.integrity.value = b'.integrity.value := by
      rw [← b.toList_integrity, hmi, b'.toList_integrity]
    have hfp : b.request.fingerprint = b'.request.fingerprint := by
      rw [← Binding.verify_fingerprint hv, ← Binding.verify_fingerprint hv', computeFingerprint,
        computeFingerprint, b.digestInput_encode, b'.digestInput_encode, htid, hbefore,
        Tlv.encode_congr ⟨5, b.integrity_length⟩ (b.integrity_kind.trans b'.integrity_kind.symm)
          hmi']
    have hfp' : b.fingerprint.value = b'.fingerprint.value := by
      rw [← b.beBytes_fingerprint, hfp, b'.beBytes_fingerprint]
    have heq := Binding.encode_congr htid hbefore hmi' hfp'
    exact ⟨heq, Option.some.inj (by rw [← hscan, heq, hscan'])⟩

def zeroRequest : Bytes :=
  message (.replicate 12 7) ([0, 6, 0, 18] ++ List.replicate 16 0x61 ++ [0x3A, 0x62, 0, 0] ++
    [0, 0x25, 0, 0] ++ [0, 8, 0, 20] ++ List.replicate 20 0 ++
    [0x80, 0x28, 0, 4, 0x53, 0x54, 0x55, 0x4E])

def zeroHash : StunHash := ⟨fun _ _ => .replicate 20 0, fun _ => 0⟩

theorem zeroRequest_nonmalleable : ∃ request, scan zeroRequest = some request ∧
    verify zeroHash zeroRequest request [1] ∧ ∀ data request', scan data = some request' →
      verify zeroHash data request' [1] → covered zeroRequest request = covered data request' →
      request.integrity = request'.integrity → zeroRequest = data := by
  have haccepted : ((scan zeroRequest).any fun request => verify zeroHash zeroRequest request [1]) =
      true := by
    decide +kernel
  obtain ⟨request, hscan, hverify⟩ := (Option.any_eq_true _ _).1 haccepted
  refine ⟨request, hscan, hverify, fun data request' hscan' hverify' hcovered hmi => ?_⟩
  exact (scan_nonmalleable.2 zeroHash [1] _ _ _ _ hscan hscan' hverify hverify' hcovered hmi).1

end Stun
end NexusSfu.Dataplane
