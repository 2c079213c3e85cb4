import NexusSfu.Base.Bytes
import NexusSfu.Base.Prog

namespace NexusSfu.Orchestrator

open Base

abbrev maxBioRead : Nat := 16384
abbrev dtlsMtu : Nat := 1200
abbrev recordHeaderLen : Nat := 13
abbrev contentTypeHandshake : UInt8 := 22
abbrev handshakeClientHello : UInt8 := 1

inductive DtlsRole
  | client
  | server
  deriving DecidableEq, Repr

abbrev Fingerprint := Vector UInt8 32

inductive SrtpProfile
  | aes128CmHmacSha1_80
  | aes128CmHmacSha1_32
  | aeadAes128Gcm
  | aeadAes256Gcm
  deriving DecidableEq, Repr

def SrtpProfile.keyLength : SrtpProfile → Nat
  | aes128CmHmacSha1_80 | aes128CmHmacSha1_32 | aeadAes128Gcm => 16
  | aeadAes256Gcm => 32

def SrtpProfile.saltLength : SrtpProfile → Nat
  | aes128CmHmacSha1_80 | aes128CmHmacSha1_32 => 14
  | aeadAes128Gcm | aeadAes256Gcm => 12

structure SrtpKeyMaterial where
  clientKey : Bytes
  serverKey : Bytes
  clientSalt : Bytes
  serverSalt : Bytes
  profile : SrtpProfile
  deriving DecidableEq

structure MasterKey where
  key : Bytes
  salt : Bytes
  profile : SrtpProfile
  deriving DecidableEq

structure MasterKeys where
  «local» : MasterKey
  remote : MasterKey
  deriving DecidableEq

structure DtlsError where
  text : String
  deriving DecidableEq, Repr

def DtlsError.invalidState (reason : String) : DtlsError := ⟨"invalid state: " ++ reason⟩

inductive HandshakeError
  | invalidDatagram (len : Nat)
  | roleConflict (fixed answer : DtlsRole)
  | zeroFingerprint
  | fingerprintMismatch
  | engine (e : DtlsError)
  | keys (reason : String)
  | failed
  deriving DecidableEq, Repr

class DtlsEngine (E : Type) where
  withCertificate : DtlsRole → E
  startHandshake : E → Except DtlsError Bytes × E
  process : E → Bytes → Except DtlsError Bytes × E
  handleTimeout : E → Except DtlsError Bytes × E
  isEstablished : E → Bool
  peerFingerprint : E → Option Fingerprint
  srtpKeys : E → Option SrtpKeyMaterial

structure Progress where
  datagrams : List Bytes := []
  completed : Bool := false
  deriving DecidableEq

inductive HandshakeState
  | running
  | complete
  | failed
  | freed
  deriving DecidableEq, Repr

structure DtlsHandshake (E : Type) where
  engine : Option E := none
  role : Option DtlsRole := none
  remoteFingerprint : Option Fingerprint := none
  addressSelected : Bool := false
  state : HandshakeState := .running
  starts : Nat := 0

def isClientHello (datagram : Bytes) : Bool :=
  datagram.length > recordHeaderLen && datagram.getD 0 0 == contentTypeHandshake
    && datagram.getD 3 0 == 0 && datagram.getD 4 0 == 0
    && datagram.getD recordHeaderLen 0 == handshakeClientHello

def appendRecord (datagrams : List Bytes) (record : Bytes) : List Bytes :=
  match datagrams.getLast? with
  | some last =>
    if last.length + record.length ≤ dtlsMtu then datagrams.dropLast ++ [last ++ record]
    else datagrams ++ [record]
  | none => datagrams ++ [record]

/-- The loop of `splitRecords`; every pass takes at least a header off `records`, so their length
bounds the passes. -/
def splitFrom : Nat → Bytes → List Bytes → Except HandshakeError (List Bytes)
  | 0, _, datagrams => .ok datagrams
  | passes + 1, records, datagrams =>
    if records.isEmpty then .ok datagrams
    else if records.length < recordHeaderLen then
      .error (.engine (.invalidState "truncated DTLS record header in engine output"))
    else
      let len := recordHeaderLen + (be16 records 11).toNat
      if records.length < len then
        .error (.engine (.invalidState "truncated DTLS record in engine output"))
      else splitFrom passes (records.drop len) (appendRecord datagrams (records.take len))

def splitRecords (records : Bytes) : Except HandshakeError (List Bytes) :=
  splitFrom records.length records []

def directionKey (keys : SrtpKeyMaterial) (key salt : Bytes) : Except HandshakeError MasterKey :=
  if key.length ≠ keys.profile.keyLength ∨ salt.length ≠ keys.profile.saltLength then
    .error (.keys "key length does not match the profile")
  else if key.all (· == 0) || salt.all (· == 0) then .error (.keys "all-zero key material")
  else .ok ⟨key, salt, keys.profile⟩

namespace DtlsHandshake

variable {E : Type} [DtlsEngine E] {α : Type}

abbrev Method (E α : Type) := ExceptT HandshakeError (Prog (DtlsHandshake E)) α

def ofExcept (result : Except HandshakeError α) : Method E α := ExceptT.mk (pure result)

def checkUsable : Method E Unit := do
  if (← get).state = .failed then throw .failed

def failOnError (m : Method E α) : Method E α := do
  match ← ExceptT.lift m.run with
  | .ok a => return a
  | .error e =>
    modify fun h => { h with state := .failed, engine := none }
    throw e

variable (role : DtlsRole)

def startEngine : Method E (List Bytes) := do
  ExceptT.lift (Prog.assert (← get).engine.isNone)
  let (output, engine) := DtlsEngine.startHandshake (DtlsEngine.withCertificate role : E)
  modify fun h => { h with starts := h.starts + 1 }
  match output with
  | .error e => throw (.engine e)
  | .ok output =>
    modify fun h => { h with engine := some engine }
    ofExcept (splitRecords output)

def checkCompletion : Method E Bool := do
  let h ← get
  match h.engine with
  | none => return false
  | some engine =>
    if h.state ≠ .running ∨ DtlsEngine.isEstablished engine = false then return false
    match h.remoteFingerprint with
    | none => return false
    | some pinned =>
      if DtlsEngine.peerFingerprint engine ≠ some pinned then throw .fingerprintMismatch
      set { h with state := .complete }
      return true

def pinFingerprint (fingerprint : Fingerprint) : Method E Unit := do
  let h ← get
  if h.remoteFingerprint.any (· ≠ fingerprint) then throw .fingerprintMismatch
  set { h with remoteFingerprint := some fingerprint }

def fixRole : Method E Unit := do
  let h ← get
  match h.role with
  | some fixed =>
    if fixed ≠ role then throw (.roleConflict fixed role)
  | none => set { h with role := some role }

def startOnAnswer : Method E (List Bytes) := do
  let h ← get
  if h.state = .running ∧ h.engine.isNone then
    if role = .server then
      let _ ← startEngine .server
      return []
    if h.addressSelected then return ← startEngine .client
  return []

def applyAnswer (fingerprint : Fingerprint) : Method E Progress := do
  if fingerprint.toList.all (· == 0) then throw .zeroFingerprint
  pinFingerprint fingerprint
  fixRole role
  let datagrams ← startOnAnswer role
  return { datagrams, completed := ← checkCompletion }

def onAnswer (remoteFingerprint : Fingerprint) : Method E Progress := do
  checkUsable
  failOnError (applyAnswer role remoteFingerprint)

def onAddressSelected : Method E Progress := do
  checkUsable
  modify fun h => { h with addressSelected := true }
  let h ← get
  if h.state = .running ∧ h.engine.isNone ∧ h.role = some .client then
    let datagrams ← failOnError (startEngine .client)
    return { datagrams }
  return {}

def feedEngine (datagram : Bytes) : Method E Progress := do
  let engine ← ExceptT.lift (Prog.expect (← get).engine)
  let (output, engine) := DtlsEngine.process engine datagram
  modify fun h => { h with engine := some engine }
  match output with
  | .error e => throw (.engine e)
  | .ok output =>
    let datagrams ← ofExcept (splitRecords output)
    return { datagrams, completed := ← checkCompletion }

def feed (datagram : Bytes) : Method E Progress := do
  let h ← get
  if h.engine.isNone then
    -- before an engine exists only a ClientHello can start one, as server
    if h.role = some .client ∨ ¬ isClientHello datagram then return {}
    set { h with role := some .server }
    let _ ← startEngine .server
  feedEngine datagram

def process (datagram : Bytes) : Method E Progress := do
  if datagram.isEmpty ∨ datagram.length > maxBioRead then throw (.invalidDatagram datagram.length)
  checkUsable
  if (← get).state = .freed then return {}
  failOnError (feed datagram)

def handleTimeout : Method E (List Bytes) := do
  checkUsable
  let h ← get
  match h.engine with
  | none => return []
  | some engine =>
    if h.state ≠ .running then return []
    let (output, engine) := DtlsEngine.handleTimeout engine
    set { h with engine := some engine }
    failOnError (ofExcept ((output.mapError .engine).bind splitRecords))

/-- The keys of a complete handshake, split by role: `local` is our write key. -/
def installKeys (h : DtlsHandshake E) : Except HandshakeError MasterKeys := do
  if h.state ≠ .complete then throw (.keys "handshake not complete")
  let some engine := h.engine | throw (.keys "no engine")
  let some keys := DtlsEngine.srtpKeys engine | throw (.keys "no key material")
  let some role := h.role | throw (.keys "no role")
  let client ← directionKey keys keys.clientKey keys.clientSalt
  let server ← directionKey keys keys.serverKey keys.serverSalt
  return match role with
    | .server => ⟨server, client⟩
    | .client => ⟨client, server⟩

def srtpInstall : Method E MasterKeys := do
  let install ← ofExcept (installKeys (← get))
  ExceptT.lift (Prog.assert (decide (install.local ≠ install.remote)))
  return install

def freeSsl : Method E Bool := do
  let h ← get
  if h.state ≠ .complete then return false
  set (σ := DtlsHandshake E) { h with engine := none, state := .freed }
  return true

end DtlsHandshake
end NexusSfu.Orchestrator
