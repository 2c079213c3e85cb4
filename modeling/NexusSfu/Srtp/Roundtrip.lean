import NexusSfu.Srtp.Crypto

namespace NexusSfu.Srtp

open Base RtpHeader List

structure Sealed (buf : Bytes) (len : Nat) (header : RtpHeader) (tagLen : Nat) (out : Bytes) :
    Prop where
  parsed : RtpHeader.parse (buf.take len) = some header
  headerLen_le : header.headerLen ≤ len
  fits : len + tagLen ≤ buf.length
  length : out.length = buf.length
  header : out.take header.headerLen = buf.take header.headerLen

namespace Sealed

variable {buf out packet : Bytes} {len tagLen : Nat} {header : RtpHeader}

theorem le_headerLen (h : Sealed buf len header tagLen out) : rtpHeaderSize ≤ header.headerLen :=
  (parse_bounds h.parsed).1

theorem of_writes (tag : Bytes) {ct : Bytes} (hp : RtpHeader.parse (buf.take len) = some header)
    (hlen : len + tag.length ≤ buf.length) (hct : ct.length = len - header.headerLen) :
    Sealed buf len header tag.length (writeAt (writeAt buf header.headerLen ct) len tag) := by
  obtain ⟨-, hle, -⟩ := parse_bounds hp
  rw [length_take] at hle
  have hw : (writeAt buf header.headerLen ct).length = buf.length := length_writeAt (by omega)
  refine ⟨hp, by omega, hlen, ?_, ?_⟩
  · rw [length_writeAt (by omega), hw]
  · rw [take_writeAt (by omega) (by omega), take_writeAt (by omega) le_rfl]

theorem parse_received (h : Sealed buf len header tagLen out)
    (hw : packet.take (len + tagLen) = out.take (len + tagLen))
    (hn : len + tagLen ≤ packet.length) :
    RtpHeader.parse (packet.take (len + tagLen)) = some header := by
  have hle := h.headerLen_le
  apply parse_congr h.parsed
  · rw [hw, take_take, take_take, Nat.min_eq_left (by omega), Nat.min_eq_left hle, h.header]
  · rw [length_take]
    omega

theorem header_received (h : Sealed buf len header tagLen out)
    (hw : packet.take (len + tagLen) = out.take (len + tagLen)) :
    packet.take header.headerLen = buf.take header.headerLen := by
  have hle := h.headerLen_le
  have ht := congrArg (List.take header.headerLen) hw
  rw [take_take, take_take, Nat.min_eq_left (by omega)] at ht
  rw [ht, h.header]

theorem restore (h : Sealed buf len header tagLen out)
    (hw : packet.take (len + tagLen) = out.take (len + tagLen))
    (hn : len + tagLen ≤ packet.length) :
    (writeAt packet header.headerLen (slice buf header.headerLen (len - header.headerLen))).take
      len =
      buf.take len := by
  have hle := h.headerLen_le
  have hfits := h.fits
  have hs : (slice buf header.headerLen (len - header.headerLen)).length = len - header.headerLen :=
    length_slice (by omega)
  have ht := take_writeAt_end (b := packet) (i := header.headerLen) (by omega) hs
  rw [Nat.add_sub_cancel' hle, h.header_received hw, ← take_add_slice, Nat.add_sub_cancel' hle]
    at ht
  exact ht

end Sealed

namespace AesGcmCipher

variable {c : AesGcmCipher} {buf out packet : Bytes} {len n : Nat} {index : PacketIndex}

theorem protectRtp_sealed (h : c.protectRtp buf len index = .ok (out, n)) :
    n = len + srtpAuthTagSize ∧ ∃ header ct tag, Sealed buf len header srtpAuthTagSize out ∧
      c.rtpCipher.encrypt (buildRtpNonce c.rtpSalt header.ssrc index) (buf.take header.headerLen)
        (slice buf header.headerLen (len - header.headerLen)) = some (ct, tag) ∧
      slice out header.headerLen (len - header.headerLen) = ct ∧
        slice out len srtpAuthTagSize = tag := by
  simp only [protectRtp] at h
  split_ifs at h with hmin hmax hroom
  · split at h <;> cases h
  split at h
  · cases h
  rename_i header hp
  simp only [encryptRtpPayload, GcmKey.seal] at h
  split at h
  · cases h
  rename_i ct tag hseal
  split at hseal
  · cases hseal
  rename_i henc
  obtain rfl := Except.ok.inj hseal
  obtain ⟨rfl, rfl⟩ := Prod.mk.inj (Except.ok.inj h)
  obtain ⟨-, hle, -⟩ := parse_bounds hp
  rw [length_take] at hle
  obtain ⟨hct, htag⟩ := c.rtpCipher.length_encrypt henc
  rw [length_slice (by omega)] at hct
  have hw : (writeAt buf header.headerLen ct).length = buf.length := length_writeAt (by omega)
  have hsealed := Sealed.of_writes tag hp (by omega) hct
  rw [htag] at hsealed
  refine ⟨rfl, header, ct, tag, hsealed, henc, ?_, ?_⟩
  · rw [slice_writeAt_before (by omega) (by omega), slice_writeAt_self (by omega) hct]
  · exact slice_writeAt_self (by omega) htag

theorem unprotectRtp_protectRtp
    (hopen : ∀ {nonce aad data ct tag}, c.rtpCipher.encrypt nonce aad data = some (ct, tag) →
      c.rtpCipher.decrypt nonce aad ct tag = some data)
    (h : c.protectRtp buf len index = .ok (out, n)) (hw : packet.take n = out.take n)
    (hn : n ≤ packet.length) (hmax : n ≤ maxPacketSize) :
    ∃ plain, c.unprotectRtp packet n index = .ok (plain, len) ∧
      plain.take len = buf.take len := by
  obtain ⟨rfl, header, ct, tag, hs, henc, hct, htag⟩ := protectRtp_sealed h
  have hmin := hs.le_headerLen
  have hle := hs.headerLen_le
  have hlen : len + srtpAuthTagSize - header.headerLen =
      (len - header.headerLen) + srtpAuthTagSize := by omega
  have hdata : (slice packet header.headerLen
      (len - header.headerLen + srtpAuthTagSize)).length - srtpAuthTagSize =
      len - header.headerLen := by
    rw [length_slice (by omega)]
    omega
  have hct' := (slice_congr hw (by omega)).trans hct
  have htag' := (slice_congr hw le_rfl).trans htag
  have hplain : c.rtpCipher.open (buildRtpNonce c.rtpSalt header.ssrc index)
      (packet.take header.headerLen) (slice packet header.headerLen
        (len + srtpAuthTagSize - header.headerLen)) =
      .ok (slice buf header.headerLen (len - header.headerLen)) := by
    rw [hlen, GcmKey.open, hdata, take_slice (by omega), drop_slice, Nat.add_sub_cancel' hle,
      hct', htag', hs.header_received hw, hopen henc, if_neg]
    rw [length_slice (by omega)]
    omega
  refine ⟨_, ?_, hs.restore hw hn⟩
  rw [unprotectRtp, if_neg (by omega), if_neg (by omega), hs.parse_received hw hn]
  simp only [if_neg (show ¬ len + srtpAuthTagSize < header.headerLen + srtpAuthTagSize by omega),
    decryptRtpPayload, hplain]
  rw [length_slice (by have := hs.fits; omega), Nat.add_sub_cancel' hle]

end AesGcmCipher

theorem constantTimeEq_self (a : Bytes) : constantTimeEq a a = true := by
  have hzero : ∀ l : Bytes, (xorBytes l l).foldl (· ||| ·) 0 = 0 := by
    intro l
    induction l with
    | nil => rfl
    | cons x xs ih => simpa [xorBytes] using ih
  simp [constantTimeEq, hzero a]

namespace AesCmHmacCipher

variable {c : AesCmHmacCipher} {buf out packet : Bytes} {len n : Nat} {index : PacketIndex}

theorem length_aesCmEncrypt (aes : Aes128) (iv data : Bytes) :
    (aesCmEncrypt aes iv data).length = data.length := by
  simp [aesCmEncrypt]

theorem aesCmEncrypt_aesCmEncrypt (aes : Aes128) (iv data : Bytes) :
    aesCmEncrypt aes iv (aesCmEncrypt aes iv data) = data := by
  apply ext_getElem
  · simp [length_aesCmEncrypt]
  · intro i hi hi'
    simp only [aesCmEncrypt, getElem_mapIdx]
    rw [UInt8.xor_assoc, UInt8.xor_self, UInt8.xor_zero]

theorem length_computeAuthTag (keyed : HmacSha1) (data : Bytes) (roc : UInt32) :
    ((computeAuthTag keyed data roc).take c.tagLen).length = c.tagLen := by
  have htag : c.tagLen ≤ 20 := by
    rcases c.tagLen_eq with h | h <;> omega
  simpa [computeAuthTag] using htag

theorem protectRtp_sealed (h : c.protectRtp buf len index = .ok (out, n)) :
    n = len + c.tagLen ∧ ∃ header, Sealed buf len header c.tagLen out ∧
      slice out header.headerLen (len - header.headerLen) =
        aesCmEncrypt c.rtpAes (buildRtpIv c.rtpSalt header.ssrc index)
          (slice buf header.headerLen (len - header.headerLen)) ∧ slice out len c.tagLen =
        (computeAuthTag c.rtpMac (out.take len) index.roc).take c.tagLen := by
  simp only [protectRtp] at h
  split_ifs at h with hmin hmax hroom
  · split at h <;> cases h
  split at h
  · cases h
  rename_i header hp
  obtain ⟨rfl, rfl⟩ := Prod.mk.inj (Except.ok.inj h)
  obtain ⟨-, hle, -⟩ := parse_bounds hp
  rw [length_take] at hle
  have hct := (length_aesCmEncrypt c.rtpAes (buildRtpIv c.rtpSalt header.ssrc index)
    (slice buf header.headerLen (len - header.headerLen))).trans (length_slice (by omega))
  refine ⟨rfl, header, ?_⟩
  rw [cryptRange]
  generalize aesCmEncrypt c.rtpAes (buildRtpIv c.rtpSalt header.ssrc index)
    (slice buf header.headerLen (len - header.headerLen)) = ct at hct
  have hw : (writeAt buf header.headerLen ct).length = buf.length := length_writeAt (by omega)
  have htag := length_computeAuthTag (c := c) c.rtpMac
    ((writeAt buf header.headerLen ct).take len) index.roc
  have hsealed := Sealed.of_writes
    ((computeAuthTag c.rtpMac ((writeAt buf header.headerLen ct).take len) index.roc).take c.tagLen)
    hp (by omega) hct
  rw [htag] at hsealed
  refine ⟨hsealed, ?_, ?_⟩
  · rw [slice_writeAt_before (by omega) (by omega), slice_writeAt_self (by omega) hct]
  · rw [slice_writeAt_self (by omega) htag, take_writeAt (by omega) le_rfl]

theorem unprotectRtp_protectRtp (h : c.protectRtp buf len index = .ok (out, n))
    (hw : packet.take n = out.take n) (hn : n ≤ packet.length) (hmax : n ≤ maxPacketSize) :
    ∃ plain, c.unprotectRtp packet n index = .ok (plain, len) ∧
      plain.take len = buf.take len := by
  obtain ⟨rfl, header, hs, hct, htag⟩ := protectRtp_sealed h
  have hmin := hs.le_headerLen
  have hle := hs.headerLen_le
  have hct' := (slice_congr hw (by omega)).trans hct
  have htag' := (slice_congr hw le_rfl).trans htag
  have hauth : packet.take len = out.take len := by
    have ht := congrArg (List.take len) hw
    rwa [take_take, take_take, Nat.min_eq_left (by omega)] at ht
  refine ⟨_, ?_, hs.restore hw hn⟩
  rw [unprotectRtp, if_neg (by omega), if_neg (by omega), hs.parse_received hw hn]
  simp only [if_neg (show ¬ len + c.tagLen < header.headerLen + c.tagLen by omega),
    Nat.add_sub_cancel, hauth, htag', constantTimeEq_self, Bool.not_true, Bool.false_eq_true,
    if_false, cryptRange, hct', aesCmEncrypt_aesCmEncrypt]

end AesCmHmacCipher

namespace SrtpCipher

variable {c : SrtpCipher} {buf out packet : Bytes} {len n : Nat} {index : PacketIndex}

def Opens : SrtpCipher → Prop
  | aesGcm c => ∀ nonce aad data ct tag, c.rtpCipher.encrypt nonce aad data = some (ct, tag) →
      c.rtpCipher.decrypt nonce aad ct tag = some data
  | aesCmHmac _ => True

theorem protectRtp_sealed (h : c.protectRtp buf len index = .ok (out, n)) :
    n = len + c.tagLen ∧ ∃ header, Sealed buf len header c.tagLen out := by
  cases c with
  | aesGcm c =>
    obtain ⟨hn, header, -, -, hs, -⟩ := AesGcmCipher.protectRtp_sealed h
    exact ⟨hn, header, hs⟩
  | aesCmHmac c =>
    obtain ⟨hn, header, hs, -⟩ := AesCmHmacCipher.protectRtp_sealed h
    exact ⟨hn, header, hs⟩

theorem unprotectRtp_protectRtp (hc : c.Opens) (h : c.protectRtp buf len index = .ok (out, n))
    (hw : packet.take n = out.take n) (hn : n ≤ packet.length) (hmax : n ≤ maxPacketSize) :
    ∃ plain, c.unprotectRtp packet n index = .ok (plain, len) ∧
      plain.take len = buf.take len := by
  cases c with
  | aesGcm c => exact AesGcmCipher.unprotectRtp_protectRtp (hc _ _ _ _ _) h hw hn hmax
  | aesCmHmac c => exact AesCmHmacCipher.unprotectRtp_protectRtp h hw hn hmax

end SrtpCipher
end NexusSfu.Srtp
