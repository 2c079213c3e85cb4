import NexusSfu.Rtp.Rtcp

namespace NexusSfu.Rtp

open Base List

structure RembPacket where
  senderSsrc : UInt32
  bitrateBps : Nat
  ssrcs : List UInt32
  deriving DecidableEq

namespace RembPacket

def rembIdentifier : Bytes := [0x52, 0x45, 0x4D, 0x42]

def parseSsrcs (data : Bytes) : Nat → Nat → List UInt32
  | 0, _ => []
  | n + 1, offset =>
    if offset + 4 > data.length then [] else be32 data offset :: parseSsrcs data n (offset + 4)

def parse (data : Bytes) : Except RtcpError RembPacket :=
  let version := (data.getD 0 0 >>> 6) &&& 0x03
  let fmt := data.getD 0 0 &&& 0x1F
  let numSsrcs := min (data.getD 16 0).toNat 32
  let exp := (data.getD 17 0 >>> 2) &&& 0x3F
  let mantissa := (data.getD 17 0 &&& 0x03).toNat * 2 ^ 16 + (be16 data 18).toNat
  if data.length < 20 then .error (.tooShort data.length 20)
  else if version ≠ 2 then .error (.invalidVersion version)
  else if data.getD 1 0 ≠ 206 then .error (.invalidPacketType (data.getD 1 0))
  else if fmt ≠ 15 then .error (.invalidPacketType fmt)
  else if slice data 12 4 ≠ rembIdentifier then .error (.invalidPacketType 0)
  else if data.length < 20 + numSsrcs * 4 then .error (.tooShort data.length (20 + numSsrcs * 4))
  else .ok ⟨be32 data 4, mantissa * 2 ^ exp.toNat % 2 ^ 64, parseSsrcs data numSsrcs 20⟩

def normalise : Nat → Nat → Nat → Nat × Nat
  | 0, exp, mantissa => (exp, mantissa)
  | n + 1, exp, mantissa =>
    if mantissa > 0x3FFFF then normalise n (exp + 1) (mantissa >>> 1) else (exp, mantissa)

def encodeBitrate (bitrateBps : Nat) : Nat × Nat :=
  if bitrateBps = 0 then (0, 0)
  else
    let (exp, mantissa) := normalise 63 0 bitrateBps
    (exp, mantissa % 2 ^ 32 &&& 0x3FFFF)

def layout (p : RembPacket) (exp mantissa : Nat) : Bytes :=
  0x8F :: 206 :: (beBytes 2 ((20 + p.ssrcs.length * 4) / 4 - 1) ++ beBytes 4 p.senderSsrc.toNat ++
    beBytes 4 0 ++ rembIdentifier ++
    [UInt8.ofNat p.ssrcs.length, UInt8.ofNat (exp <<< 2 ||| (mantissa >>> 16 &&& 0x03))] ++
    beBytes 2 mantissa ++ p.ssrcs.flatMap fun ssrc => beBytes 4 ssrc.toNat)

def build (p : RembPacket) : Option Bytes :=
  if p.bitrateBps = 0 ∨ p.ssrcs = [] then none
  else
    let (exp, mantissa) := encodeBitrate p.bitrateBps
    some (p.layout exp mantissa)

variable {p : RembPacket} {k m n r exp : Nat}

theorem normalise_eq (hm : m < 2 ^ 18) (hk : k = 0 ∨ 2 ^ 17 ≤ m) (hn : k ≤ n)
    (hr : r < 2 ^ k) :
    normalise n exp (m * 2 ^ k + r) = (exp + k, m) := by
  induction k generalizing n exp r with
  | zero =>
    cases Nat.lt_one_iff.1 hr
    cases n with
    | zero => simp [normalise]
    | succ n =>
      rw [normalise, if_neg (by omega)]
      simp
  | succ k ih =>
    obtain ⟨n, rfl⟩ := Nat.exists_eq_add_of_le' (Nat.le_trans (Nat.le_add_left 1 k) hn)
    have hm' : 2 ^ 17 ≤ m := hk.resolve_left (Nat.succ_ne_zero k)
    have hhalf : (m * 2 ^ (k + 1) + r) >>> 1 = m * 2 ^ k + r / 2 := by
      rw [Nat.shiftRight_one, Nat.pow_succ, ← Nat.mul_assoc]
      omega
    have hbig : m * 2 ^ (k + 1) + r > 0x3FFFF := by
      have := Nat.mul_le_mul hm' (Nat.one_le_two_pow (n := k))
      rw [Nat.pow_succ, ← Nat.mul_assoc]
      omega
    rw [normalise, if_pos hbig, hhalf, ih (.inr hm') (by omega) (by rw [Nat.pow_succ] at hr; omega),
      Nat.add_assoc, Nat.add_comm 1]

theorem exists_normal (b : Nat) :
    ∃ k m r, b = m * 2 ^ k + r ∧ r < 2 ^ k ∧ m < 2 ^ 18 ∧ (k = 0 ∨ 2 ^ 17 ≤ m) := by
  induction b using Nat.strongRecOn with
  | ind b ih =>
    by_cases hb : b < 2 ^ 18
    · exact ⟨0, b, 0, by simp, Nat.one_pos, hb, .inl rfl⟩
    · obtain ⟨k, m, r, heq, hr, hm, hk⟩ := ih (b / 2) (by omega)
      refine ⟨k + 1, m, 2 * r + b % 2, ?_, by rw [Nat.pow_succ]; omega, hm,
        .inr (hk.elim (fun hk => ?_) id)⟩
      · rw [Nat.pow_succ, ← Nat.mul_assoc]
        omega
      · subst hk
        omega

theorem encodeBitrate_eq (hm : m < 2 ^ 18) (hk : k = 0 ∨ 2 ^ 17 ≤ m) (hn : k ≤ 63)
    (hr : r < 2 ^ k) (hpos : m * 2 ^ k + r ≠ 0) : encodeBitrate (m * 2 ^ k + r) = (k, m) := by
  have hmask : m % 2 ^ 32 &&& 0x3FFFF = m := by
    rw [Nat.mod_eq_of_lt (by omega), Nat.and_two_pow_sub_one_eq_mod m 18, Nat.mod_eq_of_lt hm]
  simp only [encodeBitrate, if_neg hpos, normalise_eq hm hk hn hr, Nat.zero_add, hmask]

theorem parseSsrcs_eq {data : Bytes} {i : Nat} {ssrcs : List UInt32}
    (h : data.drop i = ssrcs.flatMap fun ssrc => beBytes 4 ssrc.toNat) :
    parseSsrcs data ssrcs.length i = ssrcs := by
  induction ssrcs generalizing i with
  | nil => rfl
  | cons ssrc ssrcs ih =>
    rw [flatMap_cons] at h
    have hlen := congrArg List.length h
    simp only [length_drop, length_append, length_beBytes] at hlen
    rw [length_cons, parseSsrcs, if_neg (by omega),
      be32_of_slice (slice_of_drop h (length_beBytes ..)), ih (drop_of_drop h (length_beBytes ..))]

theorem parse_layout (hm : m < 2 ^ 18) (hk : k < 64) (hfit : m * 2 ^ k < 2 ^ 64)
    (hmany : p.ssrcs.length ≤ 32) :
    parse (p.layout k m) = .ok ⟨p.senderSsrc, m * 2 ^ k, p.ssrcs⟩ := by
  have hlen : (p.layout k m).length = 20 + p.ssrcs.length * 4 := by
    simp [layout, rembIdentifier, length_flatMap, map_const']
    omega
  have hbits : ∀ (e : Fin 64) (x : Fin 4), let b := UInt8.ofNat (e.val <<< 2 ||| x.val)
      ((b >>> 2) &&& 0x3F).toNat = e ∧ (b &&& 0x03).toNat = x := by decide +kernel
  have hhigh : m >>> 16 &&& 0x03 = m / 2 ^ 16 := by
    rw [Nat.shiftRight_eq_div_pow, Nat.and_two_pow_sub_one_eq_mod _ 2]
    omega
  obtain ⟨hexp, htop⟩ := hbits ⟨k, hk⟩ ⟨m / 2 ^ 16, by omega⟩
  have hcount : min (UInt8.ofNat p.ssrcs.length).toNat 32 = p.ssrcs.length := by
    rw [UInt8.toNat_ofNat']
    omega
  have hlow : (be16 (p.layout k m) 18).toNat = m % 2 ^ 16 := by
    have hslice : slice (p.layout k m) 18 2 = beBytes 2 m := rfl
    rw [be16, hslice, beNat_beBytes, UInt16.toNat_ofNat']
    omega
  have h17 : (p.layout k m).getD 17 0 = UInt8.ofNat (k <<< 2 ||| (m / 2 ^ 16)) := by
    rw [← hhigh]
    rfl
  have h16 : (p.layout k m).getD 16 0 = UInt8.ofNat p.ssrcs.length := rfl
  have hssrcs : parseSsrcs (p.layout k m) p.ssrcs.length 20 = p.ssrcs := parseSsrcs_eq rfl
  have hsender : be32 (p.layout k m) 4 = p.senderSsrc := be32_of_slice rfl
  have h0 : (p.layout k m).getD 0 0 = 0x8F := rfl
  have h1 : (p.layout k m).getD 1 0 = 206 := rfl
  have hident : slice (p.layout k m) 12 4 = rembIdentifier := rfl
  rw [parse, if_neg (by omega), h0, h1, hident, if_neg (by decide), if_neg (by decide),
    if_neg (by decide), if_neg (by decide), h16, hcount, if_neg (by omega), h17, hexp, htop, hlow,
    hsender, hssrcs, Nat.div_add_mod', Nat.mod_eq_of_lt hfit]

theorem build_eq (hm : m < 2 ^ 18) (hk : k = 0 ∨ 2 ^ 17 ≤ m) (hn : k ≤ 63) (hr : r < 2 ^ k)
    (hb : p.bitrateBps = m * 2 ^ k + r) (hpos : m * 2 ^ k + r ≠ 0) (hs : p.ssrcs ≠ []) :
    p.build = some (p.layout k m) := by
  simp only [build, hb, encodeBitrate_eq hm hk hn hr hpos, hpos, hs, or_self, if_false]

theorem parse_build_accurate (hb : 1 ≤ p.bitrateBps) (hmax : p.bitrateBps < 2 ^ 64)
    (hs : 1 ≤ p.ssrcs.length) (hmany : p.ssrcs.length ≤ 32) :
    ∃ bytes q, p.build = some bytes ∧ parse bytes = .ok q ∧
      q.senderSsrc = p.senderSsrc ∧ q.ssrcs = p.ssrcs ∧ q.bitrateBps ≤ p.bitrateBps ∧
      p.bitrateBps * 2 ^ 17 < q.bitrateBps * (2 ^ 17 + 1) ∧
        (p.bitrateBps < 2 ^ 18 → q.bitrateBps = p.bitrateBps) ∧
      q.build = some bytes := by
  obtain ⟨k, m, r, heq, hr, hm, hk⟩ := exists_normal p.bitrateBps
  have hs' : p.ssrcs ≠ [] := ne_nil_of_length_pos hs
  have hlost : r * 2 ^ 17 < m * 2 ^ k := by
    rcases hk with rfl | hk
    · omega
    · calc r * 2 ^ 17 < 2 ^ k * 2 ^ 17 := Nat.mul_lt_mul_of_pos_right hr (by decide)
        _ = 2 ^ 17 * 2 ^ k := Nat.mul_comm ..
        _ ≤ m * 2 ^ k := Nat.mul_le_mul_right _ hk
  have hnear : p.bitrateBps * 2 ^ 17 < m * 2 ^ k * (2 ^ 17 + 1) := by
    rw [heq, Nat.add_mul, Nat.mul_add, Nat.mul_one]
    exact Nat.add_lt_add_left hlost _
  have hexact : p.bitrateBps < 2 ^ 18 → m * 2 ^ k = p.bitrateBps := fun hsmall => by
    rcases hk with rfl | hk
    · omega
    · have := Nat.mul_le_mul_right (2 ^ k) hk
      omega
  have hn : k < 64 := by
    rcases hk with rfl | hk
    · decide
    · refine (Nat.pow_lt_pow_iff_right (a := 2) (by decide)).1 ?_
      have := Nat.mul_le_mul_right (2 ^ k) hk
      omega
  refine ⟨p.layout k m, ⟨p.senderSsrc, m * 2 ^ k, p.ssrcs⟩,
    build_eq hm hk (by omega) hr heq (by omega) hs', parse_layout hm hn (by omega) hmany, rfl, rfl,
    heq ▸ Nat.le_add_right .., hnear, hexact,
    build_eq hm hk (by omega) (Nat.two_pow_pos k) rfl (by omega) hs'⟩

theorem parse_build_megabit :
    ∃ bytes q, build ⟨1, 1000001, [7]⟩ = some bytes ∧ parse bytes = .ok q ∧
    q.senderSsrc = 1 ∧ q.ssrcs = [7] ∧ q.bitrateBps ≤ 1000001 ∧
      1000001 * 2 ^ 17 < q.bitrateBps * (2 ^ 17 + 1) ∧
    (1000001 < 2 ^ 18 → q.bitrateBps = 1000001) ∧ q.build = some bytes :=
  parse_build_accurate (p := ⟨1, 1000001, [7]⟩) (by decide) (by decide) (by decide) (by decide)

end RembPacket
end NexusSfu.Rtp
