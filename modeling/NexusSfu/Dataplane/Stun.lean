import NexusSfu.Dataplane.Types

/-!
Binding requests of ICE-lite and their success responses. HMAC-SHA1 and CRC-32 are parameters.
-/

namespace NexusSfu.Dataplane

open Base

structure StunHash where
  hmacSha1 : (key message : Bytes) → Vector UInt8 20
  crc32 : Bytes → UInt32

namespace Stun

abbrev stunHeaderSize : Nat := 20

abbrev ufragLen : Nat := 16

abbrev maxAttributes : Nat := 32

abbrev responseMaxLen : Nat := stunHeaderSize + 24 + 24 + 8

def stunMagicCookie : UInt32 := 0x2112A442

def stunFingerprintXor : UInt32 := 0x5354554E

def attrUsername : UInt16 := 0x0006

def attrMessageIntegrity : UInt16 := 0x0008

def attrXorMappedAddress : UInt16 := 0x0020

def attrUseCandidate : UInt16 := 0x0025

def attrFingerprint : UInt16 := 0x8028

structure BindingRequest where
  transactionId : Vector UInt8 12
  localUfrag : Vector UInt8 ufragLen
  useCandidate : Bool
  integrityOffset : Nat
  integrity : Vector UInt8 20
  fingerprintOffset : Nat
  fingerprint : UInt32

structure Offsets where
  username : Option (Nat × Nat)
  useCandidate : Bool
  integrity : Option Nat
  fingerprint : Option Nat

def bytesAt (data : Bytes) (i n : Nat) : Vector UInt8 n := Vector.ofFn fun j => data.getD (i + j) 0

def Offsets.note (found : Offsets) (kind : UInt16) (start len : Nat) : Option Offsets :=
  if kind = attrUsername ∧ found.username.isNone then
    some { found with username := some (start + 4, len) }
  else if kind = attrUseCandidate then some { found with useCandidate := true }
  else if kind = attrMessageIntegrity then
    if len = 20 then some { found with integrity := some start } else none
  else if kind = attrFingerprint then
    if len = 4 then some { found with fingerprint := some start } else none
  else some found

def scanAttributes (data : Bytes) : Nat → Offsets → Nat → Option Offsets
  | 0, found, start => if start = data.length then some found else none
  | n + 1, found, start =>
    if start = data.length then some found
    else if start + 4 > data.length ∨ found.fingerprint.isSome then none
    else
      let kind := be16 data start
      let len := (be16 data (start + 2)).toNat
      let next := start + 4 + (len + 3) / 4 * 4
      if next > data.length then none
      else if found.integrity.isSome ∧ kind ≠ attrFingerprint then none
      else match found.note kind start len with
        | none => none
        | some found => scanAttributes data n found next

def scan (data : Bytes) : Option BindingRequest := do
  if data.length < stunHeaderSize ∨ be16 data 0 ≠ 0x0001 then none
  if be32 data 4 ≠ stunMagicCookie then none
  let body := (be16 data 2).toNat
  if body % 4 ≠ 0 ∨ stunHeaderSize + body ≠ data.length then none
  let found ← scanAttributes data maxAttributes ⟨none, false, none, none⟩ stunHeaderSize
  let (userAt, userLen) ← found.username
  let username := slice data userAt userLen
  if !ByteArray.validateUTF8 ⟨username.toArray⟩ ∨ username[ufragLen]? ≠ some 0x3A then none
  let miAt ← found.integrity
  let fpAt ← found.fingerprint
  return {
    transactionId := bytesAt data 8 12
    localUfrag := bytesAt username 0 ufragLen
    useCandidate := found.useCandidate
    integrityOffset := miAt
    integrity := bytesAt data (miAt + 4) 20
    fingerprintOffset := fpAt
    fingerprint := be32 data (fpAt + 4) }

def digestInput (data : Bytes) (offset extra : Nat) : Bytes :=
  slice data 0 2 ++ beBytes 2 (offset - stunHeaderSize + extra) ++ slice data 4 16 ++
    slice data stunHeaderSize (offset - stunHeaderSize)

variable (h : StunHash)

def computeMessageIntegrity (data : Bytes) (offset : Nat) (key : Bytes) :
    Vector UInt8 20 :=
  h.hmacSha1 key (digestInput data offset 24)

def computeFingerprint (data : Bytes) (offset : Nat) : UInt32 :=
  h.crc32 (digestInput data offset 8) ^^^ stunFingerprintXor

def verifyMessageIntegrity (data : Bytes) (offset : Nat)
    (expected : Vector UInt8 20) (key : Bytes) : Bool :=
  if data.length < stunHeaderSize ∨ offset < stunHeaderSize ∨ offset > data.length ∨
    key = [] ∨
      key.length > 256 then false
  else computeMessageIntegrity h data offset key == expected

def verifyFingerprint (data : Bytes) (offset : Nat) (expected : UInt32) : Bool :=
  if data.length < stunHeaderSize ∨ offset < stunHeaderSize ∨ offset > data.length then false
  else computeFingerprint h data offset == expected

def verify (data : Bytes) (request : BindingRequest) (password : Bytes) : Bool :=
  verifyFingerprint h data request.fingerprintOffset request.fingerprint &&
    verifyMessageIntegrity h data request.integrityOffset request.integrity password

def encodeXorAddress (addr : SocketAddr) (tid : Vector UInt8 12) : Bytes :=
  let port (p : UInt16) := beBytes 2 (p ^^^ (stunMagicCookie >>> 16).toUInt16).toNat
  let cookie := beBytes 4 stunMagicCookie.toNat
  match addr with
  | .v4 ip p => [0, 1] ++ port p ++ xorBytes ip.toList cookie
  | .v6 ip p _ _ => [0, 2] ++ port p ++ xorBytes ip.toList (cookie ++ tid.toList)

def addMessageIntegrity (buf : Bytes) (len : Nat) (key : Bytes) :
    Option (Bytes × Nat) :=
  if buf.length < len + 24 ∨ len < stunHeaderSize ∨ key = [] ∨ key.length > 256 then none
  else
    let buf := writeAt buf 2 (beBytes 2 (len + 24 - stunHeaderSize))
    let hmac := computeMessageIntegrity h buf len key
    some (writeAt buf len
      (beBytes 2 attrMessageIntegrity.toNat ++ beBytes 2 20 ++ hmac.toList), len + 24)

def addFingerprint (buf : Bytes) (len : Nat) : Option (Bytes × Nat) :=
  if buf.length < len + 8 ∨ len < stunHeaderSize then none
  else
    let buf := writeAt buf 2 (beBytes 2 (len + 8 - stunHeaderSize))
    let fp := computeFingerprint h buf len
    some (writeAt buf len (beBytes 2 attrFingerprint.toNat ++ beBytes 2 4 ++ beBytes 4 fp.toNat),
      len + 8)

def signMessage (buf : Bytes) (len : Nat) (key : Bytes) : Option (Bytes × Nat) := do
  let (buf, len) ← addMessageIntegrity h buf len key
  addFingerprint h buf len

/-- The success response and its length; the outer `none` is a panic, the inner one a refusal. -/
def writeSuccess (dst : Bytes) (request : BindingRequest) (source : SocketAddr)
    (password : Bytes) : Option (Option (Bytes × Nat)) :=
  if dst.length < responseMaxLen ∨ password = [] then some none
  else
    let value := encodeXorAddress source request.transactionId
    let attr := 4 + value.length
    let message := beBytes 2 0x0101 ++ beBytes 2 attr ++ beBytes 4 stunMagicCookie.toNat ++
      request.transactionId.toList ++ beBytes 2 attrXorMappedAddress.toNat ++
      beBytes 2 value.length ++ value
    match signMessage h (writeAt dst 0 message) (stunHeaderSize + attr) password with
    | none => none
    | some (out, len) => if len ≤ responseMaxLen then some (some (out, len)) else none

theorem length_encodeXorAddress (addr : SocketAddr) (tid : Vector UInt8 12) :
    (encodeXorAddress addr tid).length ≤ 20 := by
  cases addr with
  | v4 ip p => simp [encodeXorAddress, xorBytes]
  | v6 ip p flow scope => simp [encodeXorAddress, xorBytes]

theorem signMessage_some {buf key : Bytes} {len : Nat} (hmin : stunHeaderSize ≤ len)
    (hroom : len + 32 ≤ buf.length) (hpos : key ≠ []) (hkey : key.length ≤ 256) :
    ∃ out, signMessage h buf len key = some (out, len + 32) := by
  have hheader : stunHeaderSize = 20 := rfl
  have hfirst : ∀ n, (writeAt buf 2 (beBytes 2 n)).length = buf.length := fun n =>
    length_writeAt (by rw [length_beBytes]; omega)
  have hnot : ¬ (buf.length < len + 24 ∨ len < stunHeaderSize ∨ key = [] ∨
      key.length > 256) := by
    simp only [hpos, false_or, not_or]
    omega
  simp only [signMessage, addMessageIntegrity, if_neg hnot, Option.bind_eq_bind, Option.bind_some,
    addFingerprint]
  rw [if_neg]
  · exact ⟨_, rfl⟩
  · rw [length_writeAt (by simp [hfirst]; omega), hfirst]
    omega

theorem writeSuccess_some {dst : Bytes} (hdst : responseMaxLen ≤ dst.length)
    (request : BindingRequest) (source : SocketAddr) {password : Bytes} (hpos : password ≠ [])
    (hpass : password.length ≤ 256) :
    ∃ out len, writeSuccess h dst request source password = some (some (out, len)) ∧
      len ≤ responseMaxLen := by
  have hvalue := length_encodeXorAddress source request.transactionId
  have hmax : responseMaxLen = 76 := rfl
  have hheader : stunHeaderSize = 20 := rfl
  simp only [writeSuccess]
  rw [if_neg (by simp only [hpos, or_false]; omega)]
  generalize hmessage : (beBytes 2 0x0101 ++ _ ++ _ ++ _ ++ _ ++ _ ++ _ : Bytes) = message
  have hlen : message.length = 24 + (encodeXorAddress source request.transactionId).length := by
    simp only [← hmessage, List.length_append, length_beBytes, Vector.length_toList]
  have hroom : stunHeaderSize + (4 + (encodeXorAddress source request.transactionId).length) +
      32 ≤
      (writeAt dst 0 message).length := by
    rw [length_writeAt (by omega)]
    omega
  obtain ⟨out, hout⟩ := signMessage_some h (by omega) hroom hpos hpass
  rw [hout]
  simp only
  rw [if_pos (by omega)]
  exact ⟨_, _, rfl, by omega⟩

end Stun
end NexusSfu.Dataplane
