import NexusSfu.Base.Reader

/-!
The VP8 payload descriptor: RFC 7741's layout, and what the parser makes of it.
-/

namespace NexusSfu.Codec

open Base Reader Option

inductive CodecError
  | tooShort (actualBytes minBytes : Nat)
  | unsupported (feature : String)
  deriving DecidableEq

def next : Reader CodecError UInt8 := Reader.next .tooShort

def pictureId : Reader CodecError UInt16 := do
  let pid ← next
  if pid &&& 0x80 ≠ 0 then
    let lo ← next
    return ((pid &&& 0x7F).toUInt16 <<< 8) ||| lo.toUInt16
  else return pid.toUInt16 &&& 0x7F

def withLength {η : Type} (fields : Reader CodecError (UInt8 → η)) (data : Bytes) :
    Except CodecError η :=
  (fields data 0).map fun (header, offset) => header (UInt8.ofNat offset)

structure Vp8PayloadHeader where
  extendedBit : Bool
  startOfPartition : Bool
  partitionIndex : UInt8
  isKeyframe : Bool
  pictureId : Option UInt16
  tl0PicIdx : Option UInt8
  temporalLayer : Option UInt8
  headerLenBytes : UInt8
  deriving DecidableEq

namespace Vp8PayloadHeader

def extensions (ext : UInt8) :
    Reader CodecError (Option UInt16 × Option UInt8 × Option UInt8) := do
  let pictureId ← optional (ext &&& 0x80 ≠ 0) Codec.pictureId
  let tl0PicIdx ← optional (ext &&& 0x40 ≠ 0) next
  let layer ← optional (ext &&& 0x20 ≠ 0) next
  return (pictureId, tl0PicIdx, layer)

def fields : Reader CodecError (UInt8 → Vp8PayloadHeader) := do
  let first ← next
  let ext := (← optional (first &&& 0x80 ≠ 0) next).getD 0
  let (pictureId, tl0PicIdx, layer) ← extensions ext
  let payload ← peek
  return fun headerLenBytes => {
    extendedBit := first &&& 0x80 ≠ 0
    startOfPartition := first &&& 0x10 ≠ 0
    partitionIndex := first &&& 0x0F
    isKeyframe := first &&& 0x10 ≠ 0 ∧ payload.any fun x => x &&& 0x01 = 0
    pictureId
    tl0PicIdx
    temporalLayer := layer.map fun x : UInt8 => (x >>> 6) &&& 0x03
    headerLenBytes }

def parse : Bytes → Except CodecError Vp8PayloadHeader := withLength fields

end Vp8PayloadHeader

inductive PictureId
  | short (n : Fin 128)
  | long (n : Fin 32768)

namespace PictureId

def value : PictureId → UInt16
  | short n => UInt16.ofNat n
  | long n => UInt16.ofNat n

def encode : PictureId → Bytes
  | short n => [UInt8.ofNat n]
  | long n => [UInt8.ofNat (128 + n / 256), UInt8.ofNat n]

theorem reads (id : PictureId) (rest : Bytes) : Reads pictureId id.encode rest id.value := by
  cases id with
  | short n =>
    have hbits : ∀ n : Fin 128, UInt8.ofNat n &&& 0x80 = 0 ∧
        (UInt8.ofNat n).toUInt16 &&& 0x7F = UInt16.ofNat n := by decide +kernel
    refine Reads.bind_nil (reads_next _ _) ?_
    rw [if_neg (not_not.2 (hbits n).1), (hbits n).2]
    exact reads_pure _ _
  | long n =>
    have hbits : ∀ h : Fin 128, UInt8.ofNat (128 + h) &&& 0x80 ≠ 0 ∧
        (UInt8.ofNat (128 + h) &&& 0x7F).toUInt16 <<< 8 = UInt16.ofNat (h * 256) := by
          decide +kernel
    obtain ⟨hset, hhigh⟩ := hbits ⟨n / 256, by omega⟩
    refine Reads.bind (l := [_]) (k := [_]) (reads_next _ _) ?_
    rw [if_pos hset]
    refine Reads.bind_nil (reads_next _ _) ?_
    have hvalue : ((UInt8.ofNat (128 + n / 256) &&& 0x7F).toUInt16 <<< 8) |||
        (UInt8.ofNat n).toUInt16 =
        UInt16.ofNat n := by
      rw [hhigh]
      apply UInt16.toNat_inj.1
      have hor := Nat.two_pow_add_eq_or_of_lt (i := 8) (b := n % 2 ^ 8) (Nat.mod_lt _ (by decide))
        (n / 256)
      have hhigh : n.val / 256 * 256 % 2 ^ 16 = 2 ^ 8 * (n / 256) := by omega
      simp only [UInt16.toNat_or, UInt16.toNat_ofNat', UInt8.toNat_toUInt16, UInt8.toNat_ofNat',
        hhigh, ← hor]
      omega
    rw [hvalue]
    exact reads_pure _ _

end PictureId

structure Vp8Extension where
  pictureId : Option PictureId
  tl0PicIdx : Option UInt8
  t : Bool
  k : Bool
  tid : Fin 4
  y : Bool
  keyIdx : Fin 32

namespace Vp8Extension

variable (e : Vp8Extension)

def bits : UInt8 :=
  UInt8.ofNat (128 * e.pictureId.isSome.toNat + 64 * e.tl0PicIdx.isSome.toNat + 32 * e.t.toNat +
    16 * e.k.toNat)

def layerByte : UInt8 := UInt8.ofNat (64 * e.tid + 32 * e.y.toNat + e.keyIdx)

def withLayer (layer : Option UInt8) : Bytes :=
  e.bits :: (e.pictureId.elim [] PictureId.encode ++
    (e.tl0PicIdx.elim [] ([·]) ++ layer.elim [] ([·])))

def encode : Bytes := e.withLayer (if e.t || e.k then some e.layerByte else none)

def known : Bytes := e.withLayer (if e.t then some e.layerByte else none)

theorem reads_extensions {ext : UInt8} (id : Option PictureId) (tl0 layer : Option UInt8)
    (hi : decide (ext &&& 0x80 ≠ 0) = id.isSome) (hl : decide (ext &&& 0x40 ≠ 0) = tl0.isSome)
    (ht : decide (ext &&& 0x20 ≠ 0) = layer.isSome) (rest : Bytes) :
    Reads (Vp8PayloadHeader.extensions ext)
      (id.elim [] PictureId.encode ++ (tl0.elim [] ([·]) ++ layer.elim [] ([·]))) rest
      (id.map PictureId.value, tl0, layer) := by
  refine Reads.bind (Reads.optional hi fun b => b.reads _) ?_
  refine Reads.bind (reads_optional_next hl _) ?_
  exact (reads_optional_next ht rest).map

theorem flags : decide (e.bits &&& 0x80 ≠ 0) = e.pictureId.isSome ∧
    decide (e.bits &&& 0x40 ≠ 0) = e.tl0PicIdx.isSome ∧
      decide (e.bits &&& 0x20 ≠ 0) = e.t := by
  have hbits : ∀ i l t k : Bool,
      let x := UInt8.ofNat (128 * i.toNat + 64 * l.toNat + 32 * t.toNat + 16 * k.toNat)
      decide (x &&& 0x80 ≠ 0) = i ∧ decide (x &&& 0x40 ≠ 0) = l ∧
        decide (x &&& 0x20 ≠ 0) = t := by decide
  exact hbits _ _ _ _

theorem layerByte_tid : (e.layerByte >>> 6) &&& 0x03 = UInt8.ofNat e.tid := by
  have hbits : ∀ (tid : Fin 4) (y : Bool) (keyIdx : Fin 32),
      (UInt8.ofNat (64 * tid + 32 * y.toNat + keyIdx) >>> 6) &&& 0x03 = UInt8.ofNat tid := by
        decide +kernel
  exact hbits _ _ _

end Vp8Extension

structure Vp8Descriptor where
  nonReference : Bool
  start : Bool
  partitionIndex : Fin 8
  extension : Option Vp8Extension

namespace Vp8Descriptor

variable (d : Vp8Descriptor)

def first : UInt8 :=
  UInt8.ofNat (128 * d.extension.isSome.toNat + 32 * d.nonReference.toNat + 16 * d.start.toNat +
    d.partitionIndex)

def encode : Bytes := d.first :: d.extension.elim [] Vp8Extension.encode

def header (x : UInt8) : Vp8PayloadHeader where
  extendedBit := d.extension.isSome
  startOfPartition := d.start
  partitionIndex := UInt8.ofNat d.partitionIndex
  isKeyframe := d.start ∧ d.partitionIndex = 0 ∧ x &&& 0x01 = 0
  pictureId := d.extension.bind fun e => e.pictureId.map PictureId.value
  tl0PicIdx := d.extension.bind Vp8Extension.tl0PicIdx
  temporalLayer := d.extension.bind fun e => if e.t then some (UInt8.ofNat e.tid) else none
  headerLenBytes := UInt8.ofNat d.encode.length

def known : Bytes := d.first :: d.extension.elim [] Vp8Extension.known

def found (rest : Bytes) (headerLenBytes : UInt8) : Vp8PayloadHeader :=
  { d.header 0 with
    isKeyframe := d.start ∧ rest.head?.any fun x => x &&& 0x01 = 0
    headerLenBytes }

theorem flags : decide (d.first &&& 0x80 ≠ 0) = d.extension.isSome ∧
    decide (d.first &&& 0x10 ≠ 0) = d.start ∧
    d.first &&& 0x0F = UInt8.ofNat d.partitionIndex := by
  have hbits : ∀ (x n s : Bool) (p : Fin 8),
      let b := UInt8.ofNat (128 * x.toNat + 32 * n.toNat + 16 * s.toNat + p)
      decide (b &&& 0x80 ≠ 0) = x ∧ decide (b &&& 0x10 ≠ 0) = s ∧
        b &&& 0x0F = UInt8.ofNat p := by decide +kernel
  exact hbits _ _ _ _

theorem reads_fields (rest : Bytes) :
    Reads Vp8PayloadHeader.fields d.known rest (d.found rest) := by
  obtain ⟨hx, hs, hp⟩ := d.flags
  refine Reads.bind (l := [d.first]) (reads_next _ _) ?_
  cases hext : d.extension with
  | none =>
    rw [hext] at hx
    refine Reads.bind_nil (reads_optional_next (o := none) hx _) ?_
    refine Reads.bind_nil (Vp8Extension.reads_extensions none none none rfl rfl rfl _) ?_
    refine (congrArg (Reads _ [] rest) ?_).mp (reads_peek rest).map
    funext n
    simp [found, header, hext, hs, hp, hx]
  | some e =>
    rw [hext] at hx
    obtain ⟨hi, hl, ht⟩ := e.flags
    refine Reads.bind (l := [e.bits]) (reads_optional_next (o := some e.bits) hx _) ?_
    have hlayer : e.t = (if e.t then some e.layerByte else none).isSome := by cases e.t <;> rfl
    refine Reads.bind_nil (Vp8Extension.reads_extensions _ _ _ hi hl (ht.trans hlayer) _) ?_
    refine (congrArg (Reads _ [] rest) ?_).mp (reads_peek rest).map
    funext n
    simp [found, header, hext, hs, hp, hx, e.layerByte_tid]

theorem parse_known (rest : Bytes) :
    Vp8PayloadHeader.parse (d.known ++ rest) = .ok (d.found rest (UInt8.ofNat d.known.length)) := by
  rw [Vp8PayloadHeader.parse, withLength, d.reads_fields rest _ 0 rfl, Nat.zero_add]
  rfl

theorem encode_eq_known_append {e : Vp8Extension} (he : d.extension = some e) (hk : e.k = true)
    (ht : e.t = false) :
    d.encode = d.known ++ [e.layerByte] := by
  simp [encode, known, he, Vp8Extension.encode, Vp8Extension.known, Vp8Extension.withLayer, hk, ht]

theorem encode_eq_known (h : ∀ e ∈ d.extension, e.k → e.t) : d.encode = d.known := by
  cases he : d.extension with
  | none => simp only [encode, known, he, elim_none]
  | some e =>
    have hor : (e.t || e.k) = e.t := by
      have := h e he
      cases ht : e.t <;> simp_all
    simp only [encode, known, he, elim_some, Vp8Extension.encode, Vp8Extension.known, hor]

/-- A descriptor is read as it was written if K does not come without T and an inner partition
does not look like a keyframe. -/
theorem parse_encode_iff (x : UInt8) (rest : Bytes) :
    Vp8PayloadHeader.parse (d.encode ++ x :: rest) = .ok (d.header x) ↔
      (∀ e ∈ d.extension, e.k → e.t) ∧
        (d.start → d.partitionIndex ≠ 0 → x &&& 0x01 ≠ 0) := by
  by_cases h : ∀ e ∈ d.extension, e.k → e.t
  · rw [d.encode_eq_known h, parse_known, Except.ok.injEq, and_iff_right h]
    simp only [found, header, d.encode_eq_known h, Vp8PayloadHeader.mk.injEq, true_and, and_true,
      List.head?_cons, any_some, decide_eq_decide, decide_eq_true_eq]
    tauto
  · push Not at h
    obtain ⟨e, he, hk, ht⟩ := h
    refine iff_of_false (fun hparse => ?_) fun hboth => ht (hboth.1 e he hk)
    rw [d.encode_eq_known_append he hk (Bool.eq_false_of_not_eq_true ht),
      List.append_assoc, parse_known, Except.ok.injEq] at hparse
    have hlen := congrArg (UInt8.toNat ∘ Vp8PayloadHeader.headerLenBytes) hparse
    simp [found, header, d.encode_eq_known_append he hk (Bool.eq_false_of_not_eq_true ht)] at hlen
    omega

def keyIdxAlone : Vp8Descriptor :=
  ⟨false, true, ⟨0, by decide⟩,
    some ⟨none, none, false, true, ⟨0, by decide⟩, false, ⟨1, by decide⟩⟩⟩

theorem keyIdxAlone_misread :
    Vp8PayloadHeader.parse (keyIdxAlone.encode ++ [0x00]) ≠ .ok (keyIdxAlone.header 0x00) := by
  decide

end Vp8Descriptor
end NexusSfu.Codec
