import NexusSfu.Base.Tlv
import NexusSfu.Ice.Attributes

namespace NexusSfu.Ice

open Base Fallible

abbrev stunHeaderSize : Nat := 20

abbrev stunMaxAttributes : Nat := 16

inductive StunClass
  | request
  | indication
  | successResponse
  | errorResponse
  deriving DecidableEq, Repr

inductive StunMethod
  | binding
  | allocate
  | refresh
  | send
  | data
  | createPermission
  | channelBind
  deriving DecidableEq, Repr

namespace StunClass

def toUInt16 : StunClass → UInt16
  | request => 0
  | indication => 1
  | successResponse => 2
  | errorResponse => 3

def fromBits (bits : UInt8) : StunClass :=
  if bits &&& 3 = 0 then request
  else if bits &&& 3 = 1 then indication
  else if bits &&& 3 = 2 then successResponse
  else errorResponse

end StunClass

namespace StunMethod

def toUInt16 : StunMethod → UInt16
  | binding => 0x001
  | allocate => 0x003
  | refresh => 0x004
  | send => 0x006
  | data => 0x007
  | createPermission => 0x008
  | channelBind => 0x009

def tryFromU16 (value : UInt16) : Option StunMethod :=
  if value = 0x001 then some binding
  else if value = 0x003 then some allocate
  else if value = 0x004 then some refresh
  else if value = 0x006 then some send
  else if value = 0x007 then some data
  else if value = 0x008 then some createPermission
  else if value = 0x009 then some channelBind
  else none

end StunMethod

structure StunMessage where
  cls : StunClass
  method : StunMethod
  transactionId : Vector UInt8 12
  attributes : List StunAttribute
  deriving DecidableEq

namespace StunMessage

def isStun (data : Bytes) : Bool :=
  if data.length < stunHeaderSize then false
  else if data.getD 0 0 &&& 0xC0 ≠ 0 then false
  else be32 data 4 = stunMagicCookie

def encodeType (cls : StunClass) (method : StunMethod) : UInt16 :=
  let method : UInt16 := method.toUInt16
  let cls : UInt16 := cls.toUInt16
  let low : UInt16 := method &&& 0x000F
  let middle : UInt16 := (method <<< 1) &&& 0x00E0
  let high : UInt16 := (method <<< 2) &&& 0x3E00
  low ||| middle ||| high ||| ((cls &&& 0x1) <<< 4) ||| ((cls &&& 0x2) <<< 7)

def classBits (msgType : UInt16) : UInt16 :=
  let c0 := (msgType >>> 4) &&& 0x1
  let c1 := (msgType >>> 8) &&& 0x1
  (c1 <<< 1) ||| c0

def methodBits (msgType : UInt16) : UInt16 :=
  let m0 := msgType &&& 0x000F
  let m1 := (msgType >>> 5) &&& 0x0070
  let m2 := (msgType >>> 2) &&& 0x0F80
  m0 ||| m1 ||| m2

structure Header where
  cls : StunClass
  method : StunMethod
  transactionId : Vector UInt8 12
  msgLen : Nat

def parseHeader (data : Bytes) : Parse Header := do
  assert (data.length ≥ stunHeaderSize)
  let msgType ← read16 data 0
  if msgType &&& 0xC000 ≠ 0 then throw .stunInvalidHeader
  let cls := StunClass.fromBits (classBits msgType).toUInt8
  let method ← match StunMethod.tryFromU16 (methodBits msgType) with
    | some method => pure method
    | none => throw (.stunUnknownMethod (methodBits msgType))
  let msgLen := (← read16 data 2).toNat
  if data.length < stunHeaderSize + msgLen then
    throw (.stunTooShort (.ofNat data.length) (.ofNat (stunHeaderSize + msgLen)))
  let cookie ← read32 data 4
  if cookie ≠ stunMagicCookie then throw (.stunInvalidMagicCookie cookie)
  let transactionId ← array 12 (← sub data 8 12)
  return ⟨cls, method, transactionId, msgLen⟩

section Types

variable {msgType : UInt16} {method : StunMethod}

theorem tryFromU16_lt (h : StunMethod.tryFromU16 msgType = some method) : msgType < 128 := by
  unfold StunMethod.tryFromU16 at h
  split_ifs at h with h1 h2 h3 h4 h5 h6 h7 <;> subst msgType <;> decide

theorem msgType_lt (hzero : msgType &&& 0xC000 = 0) (hbits : methodBits msgType < 128) :
    msgType.toNat < 512 := by
  have htop : msgType.toNat >>> 14 &&& 3 = 0 := by
    have h := congrArg (fun t : UInt16 => t.toNat >>> 14) hzero
    simpa [Nat.shiftRight_and_distrib] using h
  have hmid : msgType.toNat >>> 9 &&& 31 = 0 := by
    have hlt : (methodBits msgType).toNat < 128 := hbits
    have h : (methodBits msgType).toNat >>> 7 = 0 := by
      rw [Nat.shiftRight_eq_div_pow]
      omega
    simpa [methodBits, Nat.shiftRight_or_distrib, Nat.shiftRight_and_distrib,
      ← Nat.shiftRight_add] using h
  have hlt := msgType.toNat_lt
  rw [show (3 : Nat) = 2 ^ 2 - 1 from rfl, Nat.and_two_pow_sub_one_eq_mod,
    Nat.shiftRight_eq_div_pow] at htop
  rw [show (31 : Nat) = 2 ^ 5 - 1 from rfl, Nat.and_two_pow_sub_one_eq_mod,
    Nat.shiftRight_eq_div_pow] at hmid
  omega

theorem encodeType_eq_iff (hzero : msgType &&& 0xC000 = 0)
    (hmethod : StunMethod.tryFromU16 (methodBits msgType) = some method) :
    encodeType (.fromBits (classBits msgType).toUInt8) method = msgType ↔
      msgType &&& 0x00E0 = 0 := by
  have hall : ∀ t : Fin 512, ∀ m ∈ StunMethod.tryFromU16 (methodBits (.ofNat t)),
      (encodeType (.fromBits (classBits (.ofNat t)).toUInt8) m = .ofNat t ↔
        UInt16.ofNat t &&& 0x00E0 = 0) := by
    decide +kernel
  have h := hall ⟨msgType.toNat, msgType_lt hzero (tryFromU16_lt hmethod)⟩ method
  rw [UInt16.ofNat_toNat] at h
  exact h hmethod

end Types

def parseAttributesFrom (data : Bytes) (stop : Nat) (transactionId : Vector UInt8 12) :
    Nat → Nat → Bool → List StunAttribute → Parse (List StunAttribute)
  | 0, _, _, attributes => return attributes
  | n + 1, offset, sawIntegrity, attributes => do
    if offset + 4 > stop then return attributes
    else
      let attrType ← read16 data offset
      let attrLen := (← read16 data (offset + 2)).toNat
      if sawIntegrity = true ∧ attrType ≠ attrFingerprint then
        throw (invalid attrType "attribute after MESSAGE-INTEGRITY must be FINGERPRINT")
      if offset + 4 + attrLen > stop then
        throw (invalid attrType "attribute extends beyond message")
      let attrValue ← sub data (offset + 4) attrLen
      let attr ← StunAttribute.parse attrType attrValue transactionId
      let attributes :=
        if attributes.length < stunMaxAttributes then attributes ++ attr.toList else attributes
      parseAttributesFrom data stop transactionId n (offset + 4 + (attrLen + 3) / 4 * 4)
        (sawIntegrity || attrType == attrMessageIntegrity) attributes

def parseAttributes (data : Bytes) (msgLen : Nat) (transactionId : Vector UInt8 12) :
    Parse (List StunAttribute) := do
  assert (data.length ≥ stunHeaderSize + msgLen)
  let attributes ← parseAttributesFrom data (stunHeaderSize + msgLen) transactionId
    stunMaxAttributes stunHeaderSize false []
  assert (attributes.length ≤ stunMaxAttributes)
  return attributes

def parse (data : Bytes) : Parse StunMessage := do
  if data.length < stunHeaderSize then
    throw (.stunTooShort (.ofNat data.length) (.ofNat stunHeaderSize))
  assert (data.length ≥ stunHeaderSize)
  let header ← parseHeader data
  let attributes ← parseAttributes data header.msgLen header.transactionId
  assert (attributes.length ≤ stunMaxAttributes)
  return ⟨header.cls, header.method, header.transactionId, attributes⟩

section Parse

variable {data : Bytes} {m : StunMessage}

structure Header.Of (data : Bytes) (header : Header) : Prop where
  zero : be16 data 0 &&& 0xC000 = 0
  cls : header.cls = .fromBits (classBits (be16 data 0)).toUInt8
  method : StunMethod.tryFromU16 (methodBits (be16 data 0)) = some header.method
  msgLen : header.msgLen = (be16 data 2).toNat
  whole : stunHeaderSize + header.msgLen ≤ data.length

theorem parseHeader_returns (h : stunHeaderSize ≤ data.length) :
    Returns (parseHeader data) (Header.Of data) := by
  have hsize : stunHeaderSize = 20 := rfl
  simp only [parseHeader, returns_bind, returns_assert, returns_ite, returns_throw, implies_true,
    true_and]
  refine ⟨by simpa using h, returns_read16 (by omega) fun hzero => ?_⟩
  cases hmethod : StunMethod.tryFromU16 (methodBits (be16 data 0)) with
  | none => trivial
  | some method =>
    simp only [returns_bind, returns_ite, returns_throw, returns_pure, implies_true, true_and]
    refine returns_read16 (by omega) fun hwhole => returns_read32 (by omega) fun _ =>
      returns_sub (by omega) (returns_array (length_slice (by omega)) fun tid => ?_)
    exact ⟨not_not.1 hzero, rfl, hmethod, rfl, not_lt.1 hwhole⟩

theorem parse_ok (h : (parse data).run = some (.ok m)) : ∃ header, Header.Of data header ∧
    (parseHeader data).run = some (.ok header) ∧
    (parseAttributes data header.msgLen header.transactionId).run = some (.ok m.attributes) ∧
    m.cls = header.cls ∧ m.method = header.method ∧ m.transactionId = header.transactionId := by
  rw [parse] at h
  by_cases hsize : data.length < stunHeaderSize
  · rw [if_pos hsize] at h
    cases h
  rw [if_neg hsize] at h
  obtain ⟨-, -, h⟩ := run_bind_ok h
  obtain ⟨-, -, h⟩ := run_bind_ok h
  obtain ⟨header, hheader, h⟩ := run_bind_ok h
  obtain ⟨attributes, hattributes, h⟩ := run_bind_ok h
  obtain ⟨-, -, h⟩ := run_bind_ok h
  cases h
  exact ⟨header, (parseHeader_returns (not_lt.1 hsize)).of_ok hheader, hheader,
    hattributes, rfl, rfl, rfl⟩

theorem encodeType_parse_iff (h : (parse data).run = some (.ok m)) :
    encodeType m.cls m.method = be16 data 0 ↔ be16 data 0 &&& 0x00E0 = 0 := by
  obtain ⟨header, hof, -, -, hcls, hmethod, -⟩ := parse_ok h
  rw [hcls, hmethod, hof.cls]
  exact encodeType_eq_iff hof.zero hof.method

def bare (msgType : Nat) : Bytes :=
  beBytes 2 msgType ++ beBytes 2 0 ++ beBytes 4 stunMagicCookie.toNat ++ List.replicate 12 0

theorem encodeType_bare_response : (parse (bare 0x0101)).run =
    some (.ok ⟨.successResponse, .binding, .replicate 12 0, []⟩) ∧
      (encodeType .successResponse .binding = be16 (bare 0x0101) 0 ↔
        be16 (bare 0x0101) 0 &&& 0x00E0 = 0) := by
  have hparse : (parse (bare 0x0101)).run =
      some (.ok ⟨.successResponse, .binding, .replicate 12 0, []⟩) := by
    decide +kernel
  have hiff := encodeType_parse_iff hparse
  exact ⟨hparse, hiff⟩

theorem encodeType_ne_bare :
    (parse (bare 0x0021)).run = some (.ok ⟨.request, .binding, .replicate 12 0, []⟩) ∧
      encodeType .request .binding = 0x0001 ∧ be16 (bare 0x0021) 0 = 0x0021 := by
  decide +kernel

end Parse
end StunMessage

def isBindingIndication (data : Bytes) : Bool :=
  if data.length < stunHeaderSize then false
  else if !StunMessage.isStun data then false
  else
    let msgType : UInt16 := be16 data 0
    let c0 : UInt16 := (msgType >>> 4) &&& 0x01
    let c1 : UInt16 := (msgType >>> 7) &&& 0x02
    let m0 : UInt16 := msgType &&& 0x000F
    let m1 : UInt16 := (msgType >>> 1) &&& 0x0070
    let m2 : UInt16 := (msgType >>> 2) &&& 0x0F80
    (c0 ||| c1) = 0x01 ∧ (m0 ||| m1 ||| m2) = 0x0001

theorem be16_zero_and {data : Bytes} (h : 2 ≤ data.length) (hzero : data.getD 0 0 &&& 0xC0 = 0) :
    (be16 data 0).toNat < 2 ^ 14 := by
  match data, h with
  | a :: b :: rest, _ =>
    have ha : a.toNat >>> 6 &&& 3 = 0 := by
      have h := congrArg (fun t : UInt8 => t.toNat >>> 6) hzero
      simpa [Nat.shiftRight_and_distrib] using h
    rw [show (3 : Nat) = 2 ^ 2 - 1 from rfl, Nat.and_two_pow_sub_one_eq_mod,
      Nat.shiftRight_eq_div_pow] at ha
    have hb := b.toNat_lt
    have hlt := a.toNat_lt
    simp only [be16, slice, List.drop_zero, List.take_succ_cons, List.take_zero, beNat,
      UInt16.toNat_ofNat']
    simp
    omega

theorem eq_of_class_method {t c0 c1 m0 m1 m2 : UInt16} (ht : t.toNat < 2 ^ 14)
    (hc0 : c0 = (t >>> 4) &&& 0x01) (hc1 : c1 = (t >>> 7) &&& 0x02) (hm0 : m0 = t &&& 0x000F)
    (hm1 : m1 = (t >>> 1) &&& 0x0070) (hm2 : m2 = (t >>> 2) &&& 0x0F80)
    (hclass : c0 ||| c1 = 1) (hmethod : m0 ||| m1 ||| m2 = 1) : t = 0x0011 := by
  subst hc0 hc1 hm0 hm1 hm2
  have hclass := congrArg UInt16.toNat hclass
  have hmethod := congrArg UInt16.toNat hmethod
  simp only [UInt16.toNat_or, UInt16.toNat_and, UInt16.toNat_shiftRight] at hclass hmethod
  have b4 := congrArg (· &&& 1) hclass
  have b8 := congrArg (· >>> 1) hclass
  have b0 := congrArg (· &&& 15) hmethod
  have b5 := congrArg (fun x => x >>> 4 &&& 7) hmethod
  have b9 := congrArg (· >>> 7) hmethod
  simp [Nat.shiftRight_or_distrib, Nat.shiftRight_and_distrib, Nat.and_or_distrib_right,
    ← Nat.shiftRight_add, Nat.and_assoc] at b4 b8 b0 b5 b9
  rw [show (15 : Nat) = 2 ^ 4 - 1 from rfl, Nat.and_two_pow_sub_one_eq_mod] at b0
  rw [show (7 : Nat) = 2 ^ 3 - 1 from rfl, Nat.and_two_pow_sub_one_eq_mod] at b5
  rw [show (31 : Nat) = 2 ^ 5 - 1 from rfl, Nat.and_two_pow_sub_one_eq_mod] at b9
  simp only [Nat.shiftRight_eq_div_pow] at b4 b8 b5 b9
  have htoNat : t.toNat = 17 := by omega
  exact UInt16.toNat_inj.1 htoNat

theorem isBindingIndication_iff (data : Bytes) : isBindingIndication data = true ↔
    StunMessage.isStun data = true ∧
      be16 data 0 = StunMessage.encodeType .indication .binding := by
  have htype : StunMessage.encodeType .indication .binding = 0x0011 := by decide
  rw [htype, isBindingIndication]
  by_cases hsize : data.length < stunHeaderSize
  · simp [StunMessage.isStun, hsize]
  rw [if_neg hsize]
  by_cases hstun : StunMessage.isStun data = true
  swap
  · simp [hstun]
  rw [if_neg (by simp [hstun])]
  have hzero : data.getD 0 0 &&& 0xC0 = 0 := by
    by_contra hne
    rw [StunMessage.isStun, if_neg hsize, if_pos hne] at hstun
    cases hstun
  simp only [decide_eq_true_eq, hstun, true_and]
  constructor
  · rintro ⟨hclass, hmethod⟩
    have hsize : 20 ≤ data.length := not_lt.1 hsize
    exact eq_of_class_method (be16_zero_and (by omega) hzero) rfl rfl rfl rfl rfl hclass hmethod
  · intro heq
    rw [heq]
    decide

end NexusSfu.Ice
