import NexusSfu.Codec.Vp8
import Mathlib.Data.Nat.Digits.Defs

namespace NexusSfu.Codec

open Base Reader List

inductive ObuType
  | sequenceHeader
  | temporalDelimiter
  | frameHeader
  | tileGroup
  | frame
  | other (raw : UInt8)
  deriving DecidableEq

def ObuType.fromRaw (raw : UInt8) : ObuType :=
  if raw = 1 then sequenceHeader
  else if raw = 2 then temporalDelimiter
  else if raw = 3 then frameHeader
  else if raw = 4 then tileGroup
  else if raw = 6 then frame
  else other raw

structure Av1PayloadHeader where
  continuation : Bool
  willContinue : Bool
  obuCount : UInt8
  newSequence : Bool
  firstObuType : ObuType
  isKeyObu : Bool
  temporalId : Option UInt8
  spatialId : Option UInt8
  headerLenBytes : UInt8
  deriving DecidableEq

namespace Av1PayloadHeader

def skipElementSize : Nat → Reader CodecError Unit
  | 0 => pure ()
  | n + 1 => do if (← next) &&& 0x80 ≠ 0 then skipElementSize n

def skipObuSize : Nat → Reader CodecError Unit
  | 0 => pure ()
  | n + 1 => do
    let some byte ← peek | pure ()
    advance 1
    if byte &&& 0x80 ≠ 0 then skipObuSize n

def describe (agg obuHdr : UInt8) (ext : Option UInt8) (headerLenBytes : UInt8) :
    Av1PayloadHeader :=
  let obuType := ObuType.fromRaw ((obuHdr >>> 3) &&& 0x0F)
  { continuation := false
    willContinue := agg &&& 0x40 ≠ 0
    obuCount := (agg >>> 4) &&& 0x03
    newSequence := agg &&& 0x08 ≠ 0
    firstObuType := obuType
    isKeyObu := obuType = .sequenceHeader ∨ agg &&& 0x08 ≠ 0
    temporalId := ext.map fun x : UInt8 => (x >>> 5) &&& 0x07
    spatialId := ext.map fun x : UInt8 => (x >>> 3) &&& 0x03
    headerLenBytes }

def firstObu (agg : UInt8) : Reader CodecError (UInt8 → Av1PayloadHeader) := do
  let obuHdr ← next
  let ext ← optional (obuHdr &&& 0x04 ≠ 0) next
  skipObuSize (if obuHdr &&& 0x02 ≠ 0 then 4 else 0)
  return describe agg obuHdr ext

def fields : Reader CodecError (UInt8 → Av1PayloadHeader) := do
  let agg ← next
  if agg &&& 0x80 ≠ 0 then
    return fun headerLenBytes => {
      continuation := true
      willContinue := agg &&& 0x40 ≠ 0
      obuCount := (agg >>> 4) &&& 0x03
      newSequence := agg &&& 0x08 ≠ 0
      firstObuType := .other 0
      isKeyObu := false
      temporalId := none
      spatialId := none
      headerLenBytes }
  else
    skipElementSize (if (agg >>> 4) &&& 0x03 > 1 then 4 else 0)
    firstObu agg

def parse : Bytes → Except CodecError Av1PayloadHeader := withLength fields

theorem skipObuSize_ok (n : Nat) (data : Bytes) (i : Nat) :
    ∃ j, skipObuSize n data i = .ok ((), j) := by
  induction n generalizing i with
  | zero => exact ⟨i, rfl⟩
  | succ n ih =>
    simp only [skipObuSize, bind, peek, advance]
    cases data[i]? with
    | none => exact ⟨i, rfl⟩
    | some byte =>
      by_cases hmore : byte &&& 0x80 ≠ 0
      · simpa only [if_pos hmore] using ih (i + 1)
      · simp only [if_neg hmore]
        exact ⟨i + 1, rfl⟩

theorem firstObu_ok (agg : UInt8) {x : UInt8} {ext : Option UInt8} {data : Bytes} {i j : Nat}
    (hnext : next data i = .ok (x, i + 1))
    (hext : next.optional (x &&& 0x04 ≠ 0) data (i + 1) = .ok (ext, j)) :
    ∃ k, firstObu agg data i = .ok (describe agg x ext, k) := by
  obtain ⟨k, hk⟩ := skipObuSize_ok (if x &&& 0x02 ≠ 0 then 4 else 0) data j
  refine ⟨k, ?_⟩
  simp only [firstObu, bind, hnext, hext, hk, pure]

end Av1PayloadHeader

structure Leb128 (n : Nat) where
  groups : List (Fin 128)
  last : Fin 128
  value : Nat.ofDigits 128 ((groups ++ [last]).map Fin.val) = n
  short : groups.length < 8

def Leb128.encode {n : Nat} (size : Leb128 n) : Bytes :=
  size.groups.map (fun g : Fin 128 => UInt8.ofNat (128 + g)) ++ [UInt8.ofNat size.last]

theorem Leb128.reads {n : Nat} (size : Leb128 n) (k : Nat) (rest : Bytes) :
    Reads (Av1PayloadHeader.skipElementSize k) (size.encode.take k) rest () := by
  have hmore : ∀ g : Fin 128, UInt8.ofNat (128 + g) &&& 0x80 ≠ 0 ∧
      UInt8.ofNat g &&& 0x80 = 0 := by decide +kernel
  rw [encode]
  generalize size.groups = groups
  induction k generalizing groups with
  | zero => exact reads_pure () rest
  | succ k ih =>
    cases groups with
    | nil =>
      rw [map_nil, nil_append, take_of_length_le (by simp)]
      refine (reads_next _ _).bind_nil ?_
      rw [if_neg (not_not.2 (hmore size.last).2)]
      exact reads_pure () rest
    | cons g groups =>
      refine Reads.bind (l := [_]) (reads_next _ _) ?_
      rw [if_pos (hmore g).1]
      exact ih groups

structure Obu where
  type : Fin 16
  ids : Option (Fin 8 × Fin 4)
  hasSize : Bool
  content : Bytes

namespace Obu

variable (o : Obu)

def obuHdr : UInt8 := UInt8.ofNat (8 * o.type + 4 * o.ids.isSome.toNat + 2 * o.hasSize.toNat)

def extension (ids : Fin 8 × Fin 4) : UInt8 := UInt8.ofNat (32 * ids.1 + 8 * ids.2)

def encode : Bytes := o.obuHdr :: (o.ids.elim [] (fun ids => [extension ids]) ++ o.content)

def idBytes : Option (UInt8 × UInt8) := o.ids.map fun ids => (UInt8.ofNat ids.1, UInt8.ofNat ids.2)

def Heads : Bytes → Prop
  | [] => False
  | x :: rest => ObuType.fromRaw ((x >>> 3) &&& 0x0F) = ObuType.fromRaw (UInt8.ofNat o.type) ∧
      if x &&& 0x04 = 0 then o.idBytes = none
      else ∃ e, rest.head? = some e ∧ o.idBytes = some ((e >>> 5) &&& 0x07, (e >>> 3) &&& 0x03)

theorem flags : (o.obuHdr >>> 3) &&& 0x0F = UInt8.ofNat o.type ∧
    (o.obuHdr &&& 0x04 = 0 ↔ o.ids.isSome = false) := by
  have hbits : ∀ (t : Fin 16) (i s : Bool),
      let x := UInt8.ofNat (8 * t + 4 * i.toNat + 2 * s.toNat)
      (x >>> 3) &&& 0x0F = UInt8.ofNat t ∧ (x &&& 0x04 = 0 ↔ i = false) := by decide
  exact hbits _ _ _

theorem heads_encode (rest : Bytes) : o.Heads (o.encode ++ rest) := by
  have hids : ∀ (t : Fin 8) (s : Fin 4), (extension (t, s) >>> 5) &&& 0x07 = UInt8.ofNat t ∧
      (extension (t, s) >>> 3) &&& 0x03 = UInt8.ofNat s := by decide
  refine ⟨congrArg _ o.flags.1, ?_⟩
  cases h : o.ids with
  | none =>
    rw [if_pos (o.flags.2.2 (by rw [h]; rfl)), idBytes, h]
    rfl
  | some ids =>
    rw [if_neg fun hx => by simpa [h] using o.flags.2.1 hx]
    exact ⟨extension ids,
      rfl, by rw [idBytes, h, (hids ids.1 ids.2).1, (hids ids.1 ids.2).2]; rfl⟩

end Obu

structure ObuElement extends Obu where
  size : Leb128 toObu.encode.length

namespace ObuElement

def sized (e : ObuElement) : Bytes := e.size.encode ++ e.encode

def encodeAll (all : Bool) : List ObuElement → Bytes
  | [] => []
  | [e] => if all then e.sized else e.encode
  | e :: es => e.sized ++ encodeAll all es

end ObuElement

structure Av1Payload where
  y : Bool
  w : Fin 4
  n : Bool
  first : ObuElement
  others : List ObuElement
  count : w ≠ 0 → others.length + 1 = w

namespace Av1Payload

variable (p : Av1Payload)

def agg : UInt8 := UInt8.ofNat (64 * p.y.toNat + 16 * p.w + 8 * p.n.toNat)

def body : Bytes := ObuElement.encodeAll (p.w = 0) (p.first :: p.others)

def Describes (h : Av1PayloadHeader) : Prop :=
  h.firstObuType = ObuType.fromRaw (UInt8.ofNat p.first.type) ∧
    h.temporalId = p.first.idBytes.map Prod.fst ∧ h.spatialId = p.first.idBytes.map Prod.snd ∧
    (h.isKeyObu ↔ p.n ∨ p.first.type.val = 1)

def Reached : Prop := p.w = 1 ∨ 1 < p.w ∧ p.first.size.encode.length ≤ 4

theorem flags : p.agg &&& 0x80 = 0 ∧ decide (p.agg &&& 0x08 ≠ 0) = p.n ∧
    ((p.agg >>> 4) &&& 0x03 > 1 ↔ 1 < p.w) := by
  have hbits : ∀ (y n : Bool) (w : Fin 4),
      let x := UInt8.ofNat (64 * y.toNat + 16 * w + 8 * n.toNat)
      x &&& 0x80 = 0 ∧ decide (x &&& 0x08 ≠ 0) = n ∧ ((x >>> 4) &&& 0x03 > 1 ↔ 1 < w) := by
    decide
  exact hbits _ _ _

theorem describes_iff (x len : UInt8) (ext : Option UInt8) :
    p.Describes (Av1PayloadHeader.describe p.agg x ext len) ↔
      ObuType.fromRaw ((x >>> 3) &&& 0x0F) = ObuType.fromRaw (UInt8.ofNat p.first.type) ∧
        p.first.idBytes = ext.map fun e : UInt8 => ((e >>> 5) &&& 0x07, (e >>> 3) &&& 0x03) := by
  obtain ⟨-, hn, -⟩ := p.flags
  have hkey : ∀ t : Fin 16, ObuType.fromRaw (UInt8.ofNat t) = .sequenceHeader ↔ t.val = 1 := by
    decide
  simp only [Describes, Av1PayloadHeader.describe]
  refine ⟨fun h => ⟨h.1, ?_⟩, fun h =>
    ⟨h.1, by simp [h.2]; rfl, by simp [h.2]; rfl, by simp [h.1, hkey, ← hn, or_comm]⟩⟩
  cases ext <;> cases hids : p.first.idBytes <;> simp_all

theorem firstObu_describes_iff (data : Bytes) (i : Nat) :
    (∃ h j, Av1PayloadHeader.firstObu p.agg data i = .ok (h, j) ∧
      p.Describes (h (UInt8.ofNat j))) ↔
      p.first.Heads (data.drop i) := by
  cases hd : data.drop i with
  | nil =>
    have hnext : next data i = .error (.tooShort data.length (i + 1)) :=
      if_pos (drop_eq_nil_iff.1 hd)
    simp [Av1PayloadHeader.firstObu, bind, hnext, Obu.Heads]
  | cons x rest =>
    have hnext : next data i = .ok (x, i + 1) := reads_next x rest data i hd
    have hrest : data.drop (i + 1) = rest := by rw [← drop_drop, hd]; rfl
    by_cases hx : x &&& 0x04 = 0
    · obtain ⟨k, hk⟩ := Av1PayloadHeader.firstObu_ok p.agg hnext
        (reads_optional_next (o := none) (by simp [hx]) rest data (i + 1) hrest)
      simp [hk, describes_iff, Obu.Heads, hx]
    · cases rest with
      | nil =>
        have hnext' : next data (i + 1) = .error (.tooShort data.length (i + 2)) :=
          if_pos (drop_eq_nil_iff.1 hrest)
        simp [Av1PayloadHeader.firstObu, bind, hnext, hnext', hx, Reader.optional, Obu.Heads]
      | cons e rest =>
        obtain ⟨k, hk⟩ := Av1PayloadHeader.firstObu_ok p.agg hnext
          (reads_optional_next (o := some e) (by simp [hx]) rest data (i + 1) hrest)
        simp [hk, describes_iff, Obu.Heads, hx]

theorem parse_iff_heads {l rest : Bytes} (hbody : p.body = l ++ rest)
    (hl : Reads (Av1PayloadHeader.skipElementSize (if 1 < p.w then 4 else 0)) l rest ()) :
    (∃ h, Av1PayloadHeader.parse (p.agg :: p.body) = .ok h ∧ p.Describes h) ↔
      p.first.Heads rest := by
  obtain ⟨hz, -, hw⟩ := p.flags
  have hagg : next (p.agg :: p.body) 0 = .ok (p.agg, 1) := reads_next p.agg p.body _ 0 rfl
  have hdrop : (p.agg :: p.body).drop (1 + l.length) = rest := drop_of_drop (i := 1) hbody rfl
  have hfields : Av1PayloadHeader.fields (p.agg :: p.body) 0 =
      Av1PayloadHeader.firstObu p.agg (p.agg :: p.body) (1 + l.length) := by
    rw [Av1PayloadHeader.fields, bind_of_ok hagg, if_neg (not_not.2 hz)]
    simp only [hw]
    rw [bind_of_ok (hl (p.agg :: p.body) 1 hbody)]
  rw [← hdrop, ← p.firstObu_describes_iff, ← hfields, Av1PayloadHeader.parse, withLength]
  cases Av1PayloadHeader.fields (p.agg :: p.body) 0 with
  | error e => simp [Except.map]
  | ok r => simp [Except.map, Prod.ext_iff]

theorem body_of_one (h : p.w = 1) : p.body = p.first.encode := by
  have hnil : p.others = [] := length_eq_zero_iff.1 (by simpa [h] using p.count (by simp [h]))
  rw [body, hnil, h]
  rfl

theorem body_of_ne_one (h : p.w ≠ 1) :
    ∃ rest, p.body = p.first.size.encode ++ (p.first.encode ++ rest) := by
  cases hothers : p.others with
  | nil =>
    have hzero : p.w = 0 := by
      have := p.count
      grind
    exact ⟨[], by simp [body, hothers, ObuElement.encodeAll, hzero, ObuElement.sized]⟩
  | cons e es => exact ⟨_, by rw [body, hothers]; exact append_assoc _ _ _⟩

/-- Where the size is not skipped, what stands in the place of the first OBU must look like it. -/
theorem parse_describes_iff :
    (∃ h, Av1PayloadHeader.parse (p.agg :: p.body) = .ok h ∧ p.Describes h) ↔
    p.Reached ∨ p.first.Heads (p.body.drop (if p.w = 0 then 0 else 4)) := by
  by_cases hone : p.w = 1
  · rw [p.parse_iff_heads (nil_append p.body).symm (by rw [hone]; exact reads_pure () _),
      p.body_of_one hone, ← append_nil p.first.encode]
    exact iff_of_true (p.first.heads_encode []) (.inl (.inl hone))
  · obtain ⟨rest, hbody⟩ := p.body_of_ne_one hone
    have hsplit : p.body = p.first.size.encode.take (if 1 < p.w then 4 else 0) ++
        (p.first.size.encode.drop (if 1 < p.w then 4 else 0) ++ (p.first.encode ++ rest)) := by
      rw [← append_assoc, take_append_drop, hbody]
    rw [p.parse_iff_heads hsplit (p.first.size.reads _ _)]
    by_cases hw : 1 < p.w
    · rw [if_pos hw, if_neg (by omega), hbody]
      by_cases hlen : p.first.size.encode.length ≤ 4
      · rw [drop_of_length_le hlen]
        exact iff_of_true (p.first.heads_encode rest) (.inl (.inr ⟨hw, hlen⟩))
      · rw [drop_append_of_le_length (by omega), Reached, or_iff_right (by simp [hone, hlen])]
    · rw [if_neg hw, if_pos (by omega), drop_zero, drop_zero, ← hbody, Reached,
        or_iff_right (by simp [hone, hw])]

def sizedSequence : Av1Payload :=
  ⟨false, 0, false, ⟨⟨⟨1, by decide⟩, none, false, []⟩, ⟨[], 1, rfl, by decide⟩⟩,
    [], by decide⟩

theorem sizedSequence_missed :
    ¬ ∃ h, Av1PayloadHeader.parse (sizedSequence.agg :: sizedSequence.body) = .ok h ∧
    sizedSequence.Describes h := by
  have hparse : Av1PayloadHeader.parse (sizedSequence.agg :: sizedSequence.body) =
      .ok ⟨false, false, 0, false, .other 0, false, none, none, 2⟩ := by decide
  rintro ⟨h, hok, hdescribes⟩
  obtain rfl := Except.ok.inj (hparse.symm.trans hok)
  exact absurd hdescribes.1 (by decide)

end Av1Payload
end NexusSfu.Codec
