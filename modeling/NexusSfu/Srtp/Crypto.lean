import NexusSfu.Srtp.Types

/-!
The SRTP ciphers. AES-GCM, AES and HMAC-SHA1 themselves are parameters; everything this code adds
around them (bounds, nonces, layout of header, ciphertext, tag and SRTCP index) is spelled out.
-/

namespace NexusSfu.Srtp

open Base

structure GcmKey where
  encrypt : (nonce aad data : Bytes) → Option (Bytes × Bytes)
  decrypt : (nonce aad data tag : Bytes) → Option Bytes
  length_encrypt : ∀ {nonce aad data c t}, encrypt nonce aad data = some (c, t) →
    c.length = data.length ∧ t.length = srtpAuthTagSize
  length_decrypt : ∀ {nonce aad data tag p}, decrypt nonce aad data tag = some p →
    p.length = data.length

namespace GcmKey

def «seal» (k : GcmKey) (nonce aad data : Bytes) : Except SrtpError (Bytes × Bytes) :=
  match k.encrypt nonce aad data with
  | none => .error .encryptionFailed
  | some r => .ok r

def «open» (k : GcmKey) (nonce aad dataAndTag : Bytes) : Except SrtpError Bytes :=
  let plainLen := dataAndTag.length - srtpAuthTagSize
  if dataAndTag.length < srtpAuthTagSize then .error .packetTooShort
  else match k.decrypt nonce aad (dataAndTag.take plainLen) (dataAndTag.drop plainLen) with
    | none => .error .authenticationFailed
    | some plain => .ok plain

theorem length_open {k : GcmKey} {nonce aad dataAndTag plain : Bytes}
    (h : k.open nonce aad dataAndTag = .ok plain) : plain.length ≤ dataAndTag.length := by
  simp only [«open»] at h
  split_ifs at h
  split at h
  · cases h
  · rename_i hdec
    cases h
    rw [k.length_decrypt hdec]
    exact List.length_take_le' ..

end GcmKey

structure AesGcmCipher where
  rtpCipher : GcmKey
  rtpSalt : Vector UInt8 12
  rtcpCipher : GcmKey
  rtcpSalt : Vector UInt8 12

namespace AesGcmCipher

def buildRtpNonce (salt : Vector UInt8 12) (ssrc : UInt32) (index : PacketIndex) : Bytes :=
  xorAt (xorAt salt.toList 2 (beBytes 4 ssrc.toNat)) 6 (beBytes 6 index.value)

def buildRtcpNonce (salt : Vector UInt8 12) (ssrc srtcpIndex : UInt32) : Bytes :=
  xorAt (xorAt salt.toList 2 (beBytes 4 ssrc.toNat)) 8 (beBytes 4 srtcpIndex.toNat)

variable (c : AesGcmCipher) (packet : Bytes) (packetLen : Nat)

def encryptRtpPayload (header : RtpHeader)
    (index : PacketIndex) : Except SrtpError (Bytes × Nat) :=
  let nonce := buildRtpNonce c.rtpSalt header.ssrc index
  let payload := slice packet header.headerLen (packetLen - header.headerLen)
  match c.rtpCipher.seal nonce (packet.take header.headerLen) payload with
  | .error e => .error e
  | .ok (ct, tag) =>
    .ok (writeAt (writeAt packet header.headerLen ct) packetLen tag, packetLen + srtpAuthTagSize)

def protectRtp (index : PacketIndex) :
    Except SrtpError (Bytes × Nat) :=
  if packetLen < rtpHeaderSize then .error .packetTooShort
  else if packetLen > maxPacketSize then .error .packetTooLarge
  else match RtpHeader.parse (packet.take packetLen) with
    | none => .error .invalidRtpHeader
    | some header =>
      if packet.length < packetLen + srtpAuthTagSize then .error .bufferTooSmall
      else c.encryptRtpPayload packet packetLen header index

def decryptRtpPayload (header : RtpHeader)
    (index : PacketIndex) : Except SrtpError (Bytes × Nat) :=
  let nonce := buildRtpNonce c.rtpSalt header.ssrc index
  let dataAndTag := slice packet header.headerLen (packetLen - header.headerLen)
  match c.rtpCipher.open nonce (packet.take header.headerLen) dataAndTag with
  | .error e => .error e
  | .ok plain => .ok (writeAt packet header.headerLen plain, header.headerLen + plain.length)

def unprotectRtp (index : PacketIndex) :
    Except SrtpError (Bytes × Nat) :=
  if packetLen < rtpHeaderSize + srtpAuthTagSize then .error .packetTooShort
  else if packetLen > maxPacketSize then .error .packetTooLarge
  else match RtpHeader.parse (packet.take packetLen) with
    | none => .error .invalidRtpHeader
    | some header =>
      if packetLen < header.headerLen + srtpAuthTagSize then .error .packetTooShort
      else c.decryptRtpPayload packet packetLen header index

def encryptRtcpPayload
    (srtcpIndex : UInt32) : Except SrtpError (Bytes × Nat) :=
  let nonce := buildRtcpNonce c.rtcpSalt (be32 packet 4) srtcpIndex
  let trailer := beBytes 4 (srtcpIndex ||| srtcpEFlag).toNat
  let payload := slice packet rtcpHeaderSize (packetLen - rtcpHeaderSize)
  match c.rtcpCipher.seal nonce (packet.take rtcpHeaderSize ++ trailer) payload with
  | .error e => .error e
  | .ok (ct, tag) =>
    let sealed := writeAt (writeAt packet rtcpHeaderSize ct) packetLen tag
    .ok (writeAt sealed (packetLen + srtpAuthTagSize) trailer, packetLen + srtpAuthTagSize + 4)

def protectRtcp (srtcpIndex : UInt32) :
    Except SrtpError (Bytes × Nat) :=
  if packetLen < rtcpHeaderSize then .error .packetTooShort
  else if packetLen > maxPacketSize then .error .packetTooLarge
  else if packet.length < packetLen + 4 + srtpAuthTagSize then .error .bufferTooSmall
  else c.encryptRtcpPayload packet packetLen srtcpIndex

def decryptRtcpPayload
    (srtcpIndex : UInt32) : Except SrtpError (Bytes × Nat × UInt32) :=
  let indexOffset := packetLen - 4
  let nonce := buildRtcpNonce c.rtcpSalt (be32 packet 4) srtcpIndex
  let aad := packet.take rtcpHeaderSize ++ slice packet indexOffset 4
  match c.rtcpCipher.open nonce aad
    (slice packet rtcpHeaderSize (indexOffset - rtcpHeaderSize)) with
  | .error e => .error e
  | .ok plain =>
    .ok (writeAt packet rtcpHeaderSize plain, rtcpHeaderSize + plain.length, srtcpIndex)

def unprotectRtcp :
    Except SrtpError (Bytes × Nat × UInt32) :=
  if packetLen < rtcpHeaderSize + 4 + srtpAuthTagSize then .error .packetTooShort
  else if packetLen > maxPacketSize then .error .packetTooLarge
  else c.decryptRtcpPayload packet packetLen (be32 packet (packetLen - 4) &&& srtcpIndexMask)

end AesGcmCipher

structure Aes128 where
  block : BitVec 128 → Vector UInt8 16

structure HmacSha1 where
  mac : Bytes → Vector UInt8 20

structure AesCmHmacCipher where
  rtpAes : Aes128
  rtpSalt : Vector UInt8 14
  rtpMac : HmacSha1
  rtcpAes : Aes128
  rtcpSalt : Vector UInt8 14
  rtcpMac : HmacSha1
  tagLen : Nat
  tagLen_eq : tagLen = 10 ∨ tagLen = 4

def constantTimeEq (a b : Bytes) : Bool := (xorBytes a b).foldl (· ||| ·) 0 == 0

namespace AesCmHmacCipher

def aesCmEncrypt (aes : Aes128) (iv data : Bytes) : Bytes :=
  data.mapIdx fun i x =>
    x ^^^ (aes.block (BitVec.ofNat 128 (beNat iv + i / 16))).get
      ⟨i % 16, Nat.mod_lt i (by decide)⟩

def buildRtpIv (salt : Vector UInt8 14) (ssrc : UInt32) (index : PacketIndex) : Bytes :=
  xorAt (xorAt (salt.toList ++ [0, 0]) 4 (beBytes 4 ssrc.toNat)) 8 (beBytes 6 index.value)

def buildRtcpIv (salt : Vector UInt8 14) (ssrc srtcpIndex : UInt32) : Bytes :=
  xorAt (xorAt (salt.toList ++ [0, 0]) 4 (beBytes 4 ssrc.toNat)) 10 (beBytes 4 srtcpIndex.toNat)

def computeAuthTag (keyed : HmacSha1) (data : Bytes) (roc : UInt32) : Bytes :=
  (keyed.mac (data ++ beBytes 4 roc.toNat)).toList

def cryptRange (aes : Aes128) (iv packet : Bytes) (start stop : Nat) : Bytes :=
  writeAt packet start (aesCmEncrypt aes iv (slice packet start (stop - start)))

variable (c : AesCmHmacCipher) (packet : Bytes) (packetLen : Nat)

def protectRtp (index : PacketIndex) :
    Except SrtpError (Bytes × Nat) :=
  if packetLen < rtpHeaderSize then .error .packetTooShort
  else if packetLen > maxPacketSize then .error .packetTooLarge
  else match RtpHeader.parse (packet.take packetLen) with
    | none => .error .invalidRtpHeader
    | some header =>
      if packet.length < packetLen + c.tagLen then .error .bufferTooSmall
      else
        let iv := buildRtpIv c.rtpSalt header.ssrc index
        let packet := cryptRange c.rtpAes iv packet header.headerLen packetLen
        let tag := computeAuthTag c.rtpMac (packet.take packetLen) index.roc
        .ok (writeAt packet packetLen (tag.take c.tagLen), packetLen + c.tagLen)

def unprotectRtp (index : PacketIndex) :
    Except SrtpError (Bytes × Nat) :=
  if packetLen < rtpHeaderSize + c.tagLen then .error .packetTooShort
  else if packetLen > maxPacketSize then .error .packetTooLarge
  else match RtpHeader.parse (packet.take packetLen) with
    | none => .error .invalidRtpHeader
    | some header =>
      if packetLen < header.headerLen + c.tagLen then .error .packetTooShort
      else
        let ciphertextEnd := packetLen - c.tagLen
        let expectedTag := computeAuthTag c.rtpMac (packet.take ciphertextEnd) index.roc
        if !constantTimeEq (expectedTag.take c.tagLen) (slice packet ciphertextEnd c.tagLen) then
          .error .authenticationFailed
        else
          let iv := buildRtpIv c.rtpSalt header.ssrc index
          .ok (cryptRange c.rtpAes iv packet header.headerLen ciphertextEnd, ciphertextEnd)

def protectRtcp (srtcpIndex : UInt32) :
    Except SrtpError (Bytes × Nat) :=
  if packetLen < rtcpHeaderSize then .error .packetTooShort
  else if packetLen > maxPacketSize then .error .packetTooLarge
  else if packet.length < packetLen + 4 + c.tagLen then .error .bufferTooSmall
  else
    let iv := buildRtcpIv c.rtcpSalt (be32 packet 4) srtcpIndex
    let packet := cryptRange c.rtcpAes iv packet rtcpHeaderSize packetLen
    let packet := writeAt packet packetLen (beBytes 4 (srtcpIndex ||| srtcpEFlag).toNat)
    let authEnd := packetLen + 4
    let tag := (c.rtcpMac.mac (packet.take authEnd)).toList
    .ok (writeAt packet authEnd (tag.take c.tagLen), authEnd + c.tagLen)

def unprotectRtcp :
    Except SrtpError (Bytes × Nat × UInt32) :=
  if packetLen < rtcpHeaderSize + 4 + c.tagLen then .error .packetTooShort
  else if packetLen > maxPacketSize then .error .packetTooLarge
  else
    let tagOffset := packetLen - c.tagLen
    let indexOffset := tagOffset - 4
    let expected := (c.rtcpMac.mac (packet.take tagOffset)).toList
    if !constantTimeEq (expected.take c.tagLen) (slice packet tagOffset c.tagLen) then
      .error .authenticationFailed
    else
      let indexWithE := be32 packet indexOffset
      let srtcpIndex := indexWithE &&& srtcpIndexMask
      if indexWithE &&& srtcpEFlag = 0 then .ok (packet, indexOffset, srtcpIndex)
      else
        let iv := buildRtcpIv c.rtcpSalt (be32 packet 4) srtcpIndex
        .ok (cryptRange c.rtcpAes iv packet rtcpHeaderSize indexOffset, indexOffset, srtcpIndex)

end AesCmHmacCipher

inductive SrtpCipher
  | aesGcm (c : AesGcmCipher)
  | aesCmHmac (c : AesCmHmacCipher)

namespace SrtpCipher

def tagLen : SrtpCipher → Nat
  | aesGcm _ => srtpAuthTagSize
  | aesCmHmac c => c.tagLen

def protectRtp : SrtpCipher → Bytes → Nat → PacketIndex → Except SrtpError (Bytes × Nat)
  | aesGcm c => c.protectRtp
  | aesCmHmac c => c.protectRtp

def unprotectRtp : SrtpCipher → Bytes → Nat → PacketIndex → Except SrtpError (Bytes × Nat)
  | aesGcm c => c.unprotectRtp
  | aesCmHmac c => c.unprotectRtp

def protectRtcp : SrtpCipher → Bytes → Nat → UInt32 → Except SrtpError (Bytes × Nat)
  | aesGcm c => c.protectRtcp
  | aesCmHmac c => c.protectRtcp

def unprotectRtcp : SrtpCipher → Bytes → Nat → Except SrtpError (Bytes × Nat × UInt32)
  | aesGcm c => c.unprotectRtcp
  | aesCmHmac c => c.unprotectRtcp

def Seals : SrtpCipher → Prop
  | aesGcm c => ∀ nonce aad data, (c.rtpCipher.encrypt nonce aad data).isSome
  | aesCmHmac _ => True

variable {c : SrtpCipher} {packet : Bytes} {packetLen : Nat}

theorem tagLen_le (c : SrtpCipher) : c.tagLen ≤ srtpAuthTagSize := by
  cases c with
  | aesGcm c => exact le_rfl
  | aesCmHmac c =>
    simp only [tagLen]
    rcases c.tagLen_eq with h | h <;> rw [h] <;> decide

theorem protectRtp_ok (index : PacketIndex) {header : RtpHeader} (hc : c.Seals)
    (hmin : rtpHeaderSize ≤ packetLen) (hmax : packetLen ≤ maxPacketSize)
    (hroom : packetLen + c.tagLen ≤ packet.length)
    (hp : RtpHeader.parse (packet.take packetLen) = some header) :
    ∃ out, c.protectRtp packet packetLen index = .ok out := by
  cases c with
  | aesGcm c =>
    have hroom' : ¬ packet.length < packetLen + srtpAuthTagSize := by simpa [tagLen] using hroom
    obtain ⟨⟨ct, tag⟩, hseal⟩ := Option.isSome_iff_exists.1 (hc
      (AesGcmCipher.buildRtpNonce c.rtpSalt header.ssrc index) (packet.take header.headerLen)
      (slice packet header.headerLen (packetLen - header.headerLen)))
    simp only [protectRtp, AesGcmCipher.protectRtp, AesGcmCipher.encryptRtpPayload, GcmKey.seal,
      hp, hseal, if_neg hroom', if_neg (Nat.not_lt.2 hmin), if_neg (Nat.not_lt.2 hmax), gt_iff_lt]
    exact ⟨_, rfl⟩
  | aesCmHmac c =>
    have hroom' : ¬ packet.length < packetLen + c.tagLen := by simpa [tagLen] using hroom
    simp only [protectRtp, AesCmHmacCipher.protectRtp, hp, if_neg hroom',
      if_neg (Nat.not_lt.2 hmin), if_neg (Nat.not_lt.2 hmax), gt_iff_lt]
    exact ⟨_, rfl⟩

theorem protectRtp_le {index : PacketIndex} {out : Bytes × Nat}
    (h : c.protectRtp packet packetLen index = .ok out) : out.2 ≤ packet.length := by
  cases c with
  | aesGcm c =>
    simp only [protectRtp, AesGcmCipher.protectRtp] at h
    split_ifs at h with _ _ hroom
    · split at h <;> cases h
    split at h
    · cases h
    simp only [AesGcmCipher.encryptRtpPayload] at h
    split at h
    · cases h
    cases h
    exact Nat.not_lt.1 hroom
  | aesCmHmac c =>
    simp only [protectRtp, AesCmHmacCipher.protectRtp] at h
    split_ifs at h with _ _ hroom
    · split at h <;> cases h
    split at h
    · cases h
    cases h
    exact Nat.not_lt.1 hroom

theorem protectRtcp_le {index : UInt32} {out : Bytes × Nat}
    (h : c.protectRtcp packet packetLen index = .ok out) : out.2 ≤ packet.length := by
  cases c with
  | aesGcm c =>
    simp only [protectRtcp, AesGcmCipher.protectRtcp] at h
    split_ifs at h with _ _ hroom
    simp only [AesGcmCipher.encryptRtcpPayload] at h
    split at h
    · cases h
    cases h
    simp only
    omega
  | aesCmHmac c =>
    simp only [protectRtcp, AesCmHmacCipher.protectRtcp] at h
    split_ifs at h with _ _ hroom
    cases h
    simp only
    omega

theorem unprotectRtp_le {index : PacketIndex} {out : Bytes × Nat}
    (h : c.unprotectRtp packet packetLen index = .ok out) : out.2 ≤ packetLen := by
  cases c with
  | aesGcm c =>
    simp only [unprotectRtp, AesGcmCipher.unprotectRtp] at h
    split_ifs at h
    split at h
    · cases h
    split_ifs at h with hlen
    simp only [AesGcmCipher.decryptRtpPayload] at h
    split at h
    · cases h
    rename_i hopen
    cases h
    have hplain := (GcmKey.length_open hopen).trans length_slice_le
    simp only
    omega
  | aesCmHmac c =>
    simp only [unprotectRtp, AesCmHmacCipher.unprotectRtp] at h
    split_ifs at h
    · split at h
      · cases h
      split_ifs at h
    · split at h
      · cases h
      split_ifs at h
      cases h
      exact Nat.sub_le ..

theorem unprotectRtcp_le {out : Bytes × Nat × UInt32}
    (h : c.unprotectRtcp packet packetLen = .ok out) : out.2.1 ≤ packetLen := by
  cases c with
  | aesGcm c =>
    simp only [unprotectRtcp, AesGcmCipher.unprotectRtcp] at h
    split_ifs at h
    simp only [AesGcmCipher.decryptRtcpPayload] at h
    split at h
    · cases h
    rename_i hopen
    cases h
    have hplain := (GcmKey.length_open hopen).trans length_slice_le
    simp only
    omega
  | aesCmHmac c =>
    simp only [unprotectRtcp, AesCmHmacCipher.unprotectRtcp] at h
    split_ifs at h
    all_goals
      cases h
      simp only
      omega

end SrtpCipher

def zeroCipher : SrtpCipher := .aesCmHmac
  { rtpAes := ⟨fun _ => Vector.replicate 16 0⟩
    rtpSalt := Vector.replicate 14 0
    rtpMac := ⟨fun _ => Vector.replicate 20 0⟩
    rtcpAes := ⟨fun _ => Vector.replicate 16 0⟩
    rtcpSalt := Vector.replicate 14 0
    rtcpMac := ⟨fun _ => Vector.replicate 20 0⟩
    tagLen := 10
    tagLen_eq := .inl rfl }

end NexusSfu.Srtp
