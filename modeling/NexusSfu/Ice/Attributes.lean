import NexusSfu.Base.Fallible
import NexusSfu.Dataplane.Types

namespace NexusSfu.Ice

open Base Fallible
open Dataplane (SocketAddr)

inductive IceError
  | stunTooShort (actualBytes minBytes : UInt32)
  | stunInvalidHeader
  | stunInvalidMagicCookie (actual : UInt32)
  | stunUnknownMethod (method : UInt16)
  | stunInvalidAttribute (attrType : UInt16) (reason : String)
  deriving DecidableEq, Repr

abbrev Parse := Fallible IceError

def stunMagicCookie : UInt32 := 0x2112A442

def attrMappedAddress : UInt16 := 0x0001
def attrUsername : UInt16 := 0x0006
def attrMessageIntegrity : UInt16 := 0x0008
def attrErrorCode : UInt16 := 0x0009
def attrRealm : UInt16 := 0x0014
def attrNonce : UInt16 := 0x0015
def attrXorMappedAddress : UInt16 := 0x0020
def attrPriority : UInt16 := 0x0024
def attrUseCandidate : UInt16 := 0x0025
def attrFingerprint : UInt16 := 0x8028
def attrIceControlled : UInt16 := 0x8029
def attrIceControlling : UInt16 := 0x802A

def attrChannelNumber : UInt16 := 0x000C
def attrLifetime : UInt16 := 0x000D
def attrXorPeerAddress : UInt16 := 0x0012
def attrData : UInt16 := 0x0013
def attrXorRelayedAddress : UInt16 := 0x0016
def attrRequestedTransport : UInt16 := 0x0019

abbrev maxUsernameLen : Nat := 128
abbrev maxRealmLen : Nat := 128
abbrev maxReasonLen : Nat := 128
abbrev maxDataLen : Nat := 1200

inductive StunAttribute
  | mappedAddress (addr : SocketAddr)
  | username (value : Vector UInt8 maxUsernameLen) (len : UInt8)
  | messageIntegrity (hmac : Vector UInt8 20)
  | errorCode (code : UInt16) (reason : Vector UInt8 maxReasonLen) (reasonLen : UInt8)
  | realm (value : Vector UInt8 maxRealmLen) (len : UInt8)
  | nonce (value : Vector UInt8 maxRealmLen) (len : UInt8)
  | xorMappedAddress (addr : SocketAddr)
  | priority (value : UInt32)
  | useCandidate
  | fingerprint (value : UInt32)
  | iceControlled (tieBreaker : UInt64)
  | iceControlling (tieBreaker : UInt64)
  | channelNumber (channel : UInt16)
  | lifetime (secs : UInt32)
  | xorPeerAddress (addr : SocketAddr)
  | xorRelayedAddress (addr : SocketAddr)
  | data (value : Vector UInt8 maxDataLen) (len : UInt16)
  | requestedTransport (protocol : UInt8)
  deriving DecidableEq

def fill (n : Nat) (value : Bytes) : Parse (Vector UInt8 n) := do
  assert (value.length ≤ n)
  array n (value ++ List.replicate (n - value.length) 0)

def invalid (attrType : UInt16) (reason : String) : IceError :=
  .stunInvalidAttribute attrType reason

def parseMappedAddress (data : Bytes) (attrType : UInt16) : Parse SocketAddr := do
  if data.length < 4 then throw (invalid attrType "address too short")
  let family ← index data 1
  let port ← read16 data 2
  if family = 0x01 then
    if data.length < 8 then throw (invalid attrType "IPv4 address too short")
    return .v4 (← array 4 (← sub data 4 4)) port
  else if family = 0x02 then
    if data.length < 20 then throw (invalid attrType "IPv6 address too short")
    return .v6 (← array 16 (← sub data 4 16)) port 0 0
  else throw (invalid attrType "unknown address family")

def parseXorAddress (data : Bytes) (transactionId : Vector UInt8 12) (attrType : UInt16) :
    Parse SocketAddr := do
  if data.length < 4 then throw (invalid attrType "XOR address too short")
  let family ← index data 1
  let xorPort ← read16 data 2
  let port := xorPort ^^^ (stunMagicCookie >>> 16).toUInt16
  let magicBytes := beBytes 4 stunMagicCookie.toNat
  if family = 0x01 then
    if data.length < 8 then throw (invalid attrType "XOR IPv4 address too short")
    return .v4 (← array 4 (xorBytes (← sub data 4 4) magicBytes)) port
  else if family = 0x02 then
    if data.length < 20 then throw (invalid attrType "XOR IPv6 address too short")
    let xorKey := magicBytes ++ transactionId.toList
    return .v6 (← array 16 (xorBytes (← sub data 4 16) xorKey)) port 0 0
  else throw (invalid attrType "unknown address family")

section Returns

variable {data value : Bytes} {attrType : UInt16} {transactionId : Vector UInt8 12}

theorem fill_returns {n : Nat} (h : value.length ≤ n) : Returns (fill n value) fun _ => True := by
  simp only [fill, returns_bind, returns_assert, decide_eq_true_eq]
  refine ⟨h, returns_array ?_ fun _ => trivial⟩
  simp only [List.length_append, List.length_replicate]
  omega

theorem parseMappedAddress_returns : Returns (parseMappedAddress data attrType) fun _ => True := by
  simp only [parseMappedAddress, returns_ite, returns_bind, returns_throw, returns_pure,
    implies_true, true_and, and_true]
  refine fun h4 => returns_index (by omega) fun family => returns_read16 (by omega)
    ⟨fun _ h8 => ?v4, fun _ _ h20 => ?v6⟩
  case v4 => exact returns_sub (by omega) (returns_array (length_slice (by omega)) fun _ => trivial)
  case v6 => exact returns_sub (by omega) (returns_array (length_slice (by omega)) fun _ => trivial)

theorem parseXorAddress_returns :
    Returns (parseXorAddress data transactionId attrType) fun _ => True := by
  simp only [parseXorAddress, returns_ite, returns_bind, returns_throw, returns_pure,
    implies_true, true_and, and_true]
  refine fun h4 => returns_index (by omega) fun family => returns_read16 (by omega)
    ⟨fun _ h8 => ?v4, fun _ _ h20 => ?v6⟩
  case v4 =>
    refine returns_sub (by omega) (returns_array ?_ fun _ => trivial)
    exact length_xorBytes (length_slice (by omega))
  case v6 =>
    refine returns_sub (by omega) (returns_array ?_ fun _ => trivial)
    have hkey : (beBytes 4 stunMagicCookie.toNat ++ transactionId.toList).length = 16 := by simp
    rw [length_xorBytes (by rw [length_slice (by omega), hkey]), hkey]

end Returns

namespace StunAttribute

def parseAddressAttribute (attrType : UInt16) (value : Bytes) (transactionId : Vector UInt8 12) :
    Parse (Option StunAttribute) := do
  -- a debug assertion, ahead of the length checks of the parsers below
  assert (value.length ≥ 4 || attrType != attrMappedAddress)
  if attrType = attrMappedAddress then
    return some (.mappedAddress (← parseMappedAddress value attrType))
  else if attrType = attrXorMappedAddress then
    return some (.xorMappedAddress (← parseXorAddress value transactionId attrType))
  else return none

def parseCoreAttribute (attrType : UInt16) (value : Bytes) : Parse (Option StunAttribute) := do
  if attrType = attrUsername then
    if value.length > maxUsernameLen then throw (invalid attrType "username too long")
    if !ByteArray.validateUTF8 ⟨value.toArray⟩ then
      throw (invalid attrType "username is not UTF-8")
    return some (.username (← fill maxUsernameLen value) (.ofNat value.length))
  else if attrType = attrMessageIntegrity then
    if value.length ≠ 20 then throw (invalid attrType "MESSAGE-INTEGRITY must be 20 bytes")
    return some (.messageIntegrity (← array 20 value))
  else if attrType = attrErrorCode then
    if value.length < 4 then throw (invalid attrType "ERROR-CODE too short")
    let cls := ((← index value 2) &&& 0x07).toUInt16
    let number := (← index value 3).toUInt16
    let reasonLen := min (value.drop 4).length maxReasonLen
    let reason ← fill maxReasonLen ((value.drop 4).take reasonLen)
    return some (.errorCode (cls * 100 + number) reason (.ofNat reasonLen))
  else if attrType = attrRealm then
    if value.length > maxRealmLen then throw (invalid attrType "realm too long")
    return some (.realm (← fill maxRealmLen value) (.ofNat value.length))
  else if attrType = attrNonce then
    if value.length > maxRealmLen then throw (invalid attrType "nonce too long")
    return some (.nonce (← fill maxRealmLen value) (.ofNat value.length))
  else return none

def tieBreaker (value : Bytes) : Parse UInt64 := do
  assert (value.length = 8)
  return UInt64.ofNat (beNat value)

def parseIceAttribute (attrType : UInt16) (value : Bytes) : Parse (Option StunAttribute) := do
  if attrType = attrPriority then
    if value.length ≠ 4 then throw (invalid attrType "PRIORITY must be 4 bytes")
    return some (.priority (← read32 value 0))
  else if attrType = attrUseCandidate then return some .useCandidate
  else if attrType = attrFingerprint then
    if value.length ≠ 4 then throw (invalid attrType "FINGERPRINT must be 4 bytes")
    return some (.fingerprint (← read32 value 0))
  else if attrType = attrIceControlled then
    if value.length ≠ 8 then throw (invalid attrType "ICE-CONTROLLED must be 8 bytes")
    return some (.iceControlled (← tieBreaker value))
  else if attrType = attrIceControlling then
    if value.length ≠ 8 then throw (invalid attrType "ICE-CONTROLLING must be 8 bytes")
    return some (.iceControlling (← tieBreaker value))
  else return none

def parseTurnAttribute (attrType : UInt16) (value : Bytes) (transactionId : Vector UInt8 12) :
    Parse (Option StunAttribute) := do
  if attrType = attrLifetime then
    if value.length ≠ 4 then throw (invalid attrType "LIFETIME must be 4 bytes")
    return some (.lifetime (← read32 value 0))
  else if attrType = attrChannelNumber then
    if value.length < 2 then throw (invalid attrType "CHANNEL-NUMBER too short")
    return some (.channelNumber (← read16 value 0))
  else if attrType = attrXorPeerAddress then
    return some (.xorPeerAddress (← parseXorAddress value transactionId attrType))
  else if attrType = attrXorRelayedAddress then
    return some (.xorRelayedAddress (← parseXorAddress value transactionId attrType))
  else if attrType = attrRequestedTransport then
    if value.isEmpty then throw (invalid attrType "REQUESTED-TRANSPORT empty")
    return some (.requestedTransport (← index value 0))
  else if attrType = attrData then
    if value.length > maxDataLen then throw (invalid attrType "DATA too large")
    return some (.data (← fill maxDataLen value) (.ofNat value.length))
  else return none

def parse (attrType : UInt16) (value : Bytes) (transactionId : Vector UInt8 12) :
    Parse (Option StunAttribute) := do
  if value.length > maxDataLen then throw (invalid attrType "attribute value too long")
  if attrType ∈ [attrMappedAddress, attrXorMappedAddress] then
    parseAddressAttribute attrType value transactionId
  else if attrType ∈
      [attrUsername, attrMessageIntegrity, attrErrorCode, attrRealm, attrNonce] then
    parseCoreAttribute attrType value
  else if attrType ∈ [attrPriority, attrUseCandidate, attrFingerprint, attrIceControlled,
      attrIceControlling] then
    parseIceAttribute attrType value
  else if attrType ∈ [attrLifetime, attrChannelNumber, attrXorPeerAddress, attrXorRelayedAddress,
      attrRequestedTransport, attrData] then
    parseTurnAttribute attrType value transactionId
  else return none

variable {value : Bytes} {attrType : UInt16} {transactionId : Vector UInt8 12}

theorem parseCoreAttribute_returns : Returns (parseCoreAttribute attrType value) fun _ => True := by
  simp only [parseCoreAttribute, returns_ite, returns_bind, returns_throw, returns_pure,
    implies_true, true_and, and_true]
  refine ⟨fun _ hlen _ => ?username, fun _ => ⟨fun _ hlen => ?integrity, fun _ =>
    ⟨fun _ hlen => ?errorCode,
      fun _ => ⟨fun _ hlen => ?realm, fun _ _ hlen => ?nonce⟩⟩⟩⟩
  case username => exact fill_returns (not_lt.1 hlen)
  case integrity => exact returns_array (not_not.1 hlen) fun _ => trivial
  case errorCode =>
    refine returns_index (by omega) fun _ => returns_index (by omega) fun _ => fill_returns ?_
    exact (List.length_take_le ..).trans (Nat.min_le_right ..)
  case realm => exact fill_returns (not_lt.1 hlen)
  case nonce => exact fill_returns (not_lt.1 hlen)

theorem tieBreaker_returns (h : value.length = 8) : Returns (tieBreaker value) fun _ => True := by
  simp [tieBreaker, h]

theorem parseIceAttribute_returns : Returns (parseIceAttribute attrType value) fun _ => True := by
  simp only [parseIceAttribute, returns_ite, returns_bind, returns_throw, returns_pure,
    implies_true, true_and, and_true]
  refine ⟨fun _ hlen => ?priority, fun _ _ => ⟨fun _ hlen => ?fingerprint, fun _ =>
    ⟨fun _ hlen => ?controlled, fun _ _ hlen => ?controlling⟩⟩⟩
  case priority => exact returns_read32 (by omega) trivial
  case fingerprint => exact returns_read32 (by omega) trivial
  case controlled => exact tieBreaker_returns (not_not.1 hlen)
  case controlling => exact tieBreaker_returns (not_not.1 hlen)

theorem parseTurnAttribute_returns :
    Returns (parseTurnAttribute attrType value transactionId) fun _ => True := by
  simp only [parseTurnAttribute, returns_ite, returns_bind, returns_throw, returns_pure,
    implies_true, true_and, and_true]
  refine ⟨fun _ hlen => ?lifetime, fun _ => ⟨fun _ hlen => ?channelNumber, fun _ =>
    ⟨fun _ => parseXorAddress_returns, fun _ => ⟨fun _ => parseXorAddress_returns, fun _ =>
      ⟨fun _ hne => ?requestedTransport, fun _ _ hlen => ?data⟩⟩⟩⟩⟩
  case lifetime => exact returns_read32 (by omega) trivial
  case channelNumber => exact returns_read16 (by omega) trivial
  case requestedTransport =>
    exact returns_index (List.length_pos_iff.2 fun h => hne (by rw [h]; rfl)) fun _ => trivial
  case data => exact fill_returns (not_lt.1 hlen)

theorem parseAddressAttribute_returns (h : 4 ≤ value.length ∨ attrType ≠ attrMappedAddress) :
    Returns (parseAddressAttribute attrType value transactionId) fun _ => True := by
  simp only [parseAddressAttribute, returns_ite, returns_bind, returns_assert, returns_pure]
  exact ⟨by simpa using h, fun _ => parseMappedAddress_returns, fun _ =>
    ⟨fun _ => parseXorAddress_returns, fun _ => trivial⟩⟩

def ShortAddress (attrType : UInt16) (value : Bytes) : Prop :=
  attrType = attrMappedAddress ∧ value.length < 4

theorem parse_returns (h : ¬ ShortAddress attrType value) :
    Returns (parse attrType value transactionId) fun _ => True := by
  simp only [parse, returns_ite, returns_bind, returns_throw, returns_pure, implies_true, true_and,
    and_true]
  refine fun _ => ⟨fun _ => parseAddressAttribute_returns ?_, fun _ =>
    ⟨fun _ => parseCoreAttribute_returns,
      fun _ => ⟨fun _ => parseIceAttribute_returns, fun _ _ =>
      parseTurnAttribute_returns⟩⟩⟩
  exact (not_and_or.1 h).symm.imp_left not_lt.1

theorem parse_short (h : ShortAddress attrType value) :
    (parse attrType value transactionId).run = none := by
  obtain ⟨rfl, hlen⟩ := h
  have hmax : ¬ value.length > maxDataLen := by
    change ¬ value.length > 1200
    omega
  have hassert : (decide (value.length ≥ 4) || attrMappedAddress != attrMappedAddress) =
      false := by
    simpa using hlen
  rw [parse, if_neg hmax, if_pos List.mem_cons_self, parseAddressAttribute, hassert]
  rfl

theorem parse_eq_none_iff :
    (parse attrType value transactionId).run = none ↔ ShortAddress attrType value :=
  ⟨fun hnone => by_contra fun h => (parse_returns h).ne_none hnone, parse_short⟩

end StunAttribute
end NexusSfu.Ice
