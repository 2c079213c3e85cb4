import NexusSfu.Rtp.Elements

namespace NexusSfu.Rtp

open Base List

namespace RtpHeader

def oneByteValue (extId : UInt8) : Nat → Bytes → Option Bytes
  | 0, _ => none
  | _ + 1, [] => none
  | n + 1, byte :: rest =>
    let id := (byte >>> 4) &&& 0x0F
    let len := (byte &&& 0x0F).toNat + 1
    if byte = 0 then oneByteValue extId n rest
    else if id = 0x0F then none
    else if rest.length < len then none
    else if id = extId then some (rest.take len)
    else oneByteValue extId n (rest.drop len)

def twoByteValue (extId : UInt8) : Nat → Bytes → Option Bytes
  | n + 1, id :: len :: rest =>
    if id = 0 then twoByteValue extId n (len :: rest)
    else if rest.length < len.toNat then none
    else if id = extId then some (rest.take len.toNat)
    else twoByteValue extId n (rest.drop len.toNat)
  | _, _ => none

def getExtensionValue (h : RtpHeader) (data : Bytes) (extId : UInt8) : Option Bytes :=
  let extStart := rtpHeaderMinSizeBytes + h.csrcCount.toNat * rtpCsrcSizeBytes
  let profile := be16 data extStart
  let extLenWords := (be16 data (extStart + 2)).toNat
  let block := slice data (extStart + 4) (extLenWords * 4)
  if !h.extension then none
  else if data.length < extStart + 4 then none
  else if extStart + 4 + extLenWords * 4 > data.length then none
  else if profile = 0xBEDE then oneByteValue extId block.length block
  else if profile &&& 0xFFF0 = 0x1000 then twoByteValue extId block.length block
  else none

end RtpHeader

namespace Elements

variable {e e' : Elements} {x : Element} {byte : UInt8} {rest : Bytes} {n : Nat} {two : Bool}

theorem next_padding (h : isPadding two byte = true) :
    next ⟨byte :: rest, two⟩ = next ⟨rest, two⟩ := by
  rw [next, next, dropWhile_cons_of_pos h]

theorem next_oneByte (h : byte >>> 4 ≠ 0) (rest : Bytes) : next ⟨byte :: rest, false⟩ =
    if byte >>> 4 = 15 then none
    else if rest.length < (byte &&& 0x0F).toNat + 1 then none
    else some (⟨byte >>> 4, rest.take ((byte &&& 0x0F).toNat + 1)⟩,
      ⟨rest.drop ((byte &&& 0x0F).toNat + 1), false⟩) := by
  rw [next, dropWhile_cons_of_neg (by simpa [isPadding] using h)]
  rfl

theorem next_twoByte (h : byte ≠ 0) (len : UInt8) (rest : Bytes) :
    next ⟨byte :: len :: rest, true⟩ =
    if rest.length < len.toNat then none
    else some (⟨byte, rest.take len.toNat⟩, ⟨rest.drop len.toNat, true⟩) := by
  rw [next, dropWhile_cons_of_neg (by simpa [isPadding] using h)]
  rfl

theorem next_twoByte_single : next ⟨[byte], true⟩ = none := by
  by_cases h : byte = 0
  · rw [next_padding (by simp [isPadding, h])]
    rfl
  · rw [next, dropWhile_cons_of_neg (by simpa [isPadding] using h)]
    rfl

theorem next_length {b b' : Bytes} {two' : Bool}
    (h : next ⟨b, two⟩ = some (x, ⟨b', two'⟩)) :
    b'.length < b.length ∧ two' = two := by
  induction b with
  | nil => cases h
  | cons byte rest ih =>
    by_cases hpad : isPadding two byte = true
    · rw [next_padding hpad] at h
      obtain ⟨hlt, htwo⟩ := ih h
      exact ⟨hlt.trans (Nat.lt_succ_self _), htwo⟩
    cases two with
    | false =>
      rw [next_oneByte (by simpa [isPadding] using hpad)] at h
      split_ifs at h
      cases h
      refine ⟨?_, rfl⟩
      rw [length_drop, length_cons]
      omega
    | true =>
      cases rest with
      | nil =>
        rw [next_twoByte_single] at h
        cases h
      | cons len rest =>
        rw [next_twoByte (by simpa [isPadding] using hpad)] at h
        split_ifs at h
        cases h
        simp
        omega

theorem collect_fuel {b : Bytes} {m : Nat} (hn : b.length ≤ n) (hm : b.length ≤ m) :
    collect n ⟨b, two⟩ = collect m ⟨b, two⟩ := by
  induction n generalizing b m with
  | zero =>
    cases eq_nil_of_length_eq_zero (Nat.le_zero.1 hn)
    cases m with
    | zero => rfl
    | succ m => rfl
  | succ n ih =>
    cases m with
    | zero =>
      cases eq_nil_of_length_eq_zero (Nat.le_zero.1 hm)
      rfl
    | succ m =>
      rw [collect, collect]
      cases hnext : next ⟨b, two⟩ with
      | none => rfl
      | some r =>
        obtain ⟨x, b', two'⟩ := r
        obtain ⟨hlt, rfl⟩ := next_length hnext
        exact congrArg (x :: ·) (ih (by omega) (by omega))

theorem collect_take {m : Nat} (e : Elements) (h : n ≤ m) :
    collect n e = (collect m e).take n := by
  induction n generalizing e m with
  | zero => rfl
  | succ n ih =>
    obtain ⟨m, rfl⟩ := Nat.exists_eq_succ_of_ne_zero (Nat.ne_zero_of_lt h)
    rw [collect, collect]
    cases e.next with
    | none => rfl
    | some r => exact congrArg (r.1 :: ·) (ih r.2 (Nat.le_of_succ_le_succ h))

def first (two : Bool) (id : UInt8) (b : Bytes) : Option Bytes :=
  ((collect b.length ⟨b, two⟩).find? fun e => e.id = id).map Element.data

variable {id : UInt8} {b b' : Bytes}

theorem first_none (h : next ⟨b, two⟩ = none) : first two id b = none := by
  rw [first]
  cases b with
  | nil => rfl
  | cons byte rest => rw [length_cons, collect, h]; rfl

theorem first_next (h : next ⟨b, two⟩ = some (x, ⟨b', two⟩)) :
    first two id b = if x.id = id then some x.data else first two id b' := by
  have hlt := (next_length h).1
  obtain ⟨n, hn⟩ := Nat.exists_eq_succ_of_ne_zero (Nat.ne_zero_of_lt hlt)
  rw [first, hn, collect, h]
  dsimp only
  rw [collect_fuel (m := b'.length) (by omega) le_rfl]
  by_cases hid : x.id = id
  · simp [hid]
  · simp [hid, first]

theorem first_padding (h : isPadding two byte = true) :
    first two id (byte :: rest) = first two id rest := by
  cases hnext : next ⟨rest, two⟩ with
  | none => rw [first_none hnext, first_none (by rw [next_padding h, hnext])]
  | some r =>
    obtain ⟨x, b', two'⟩ := r
    obtain ⟨-, rfl⟩ := next_length hnext
    rw [first_next hnext, first_next (by rw [next_padding h, hnext])]

end Elements

namespace RtpHeader

variable {extId : UInt8} {n m : Nat} {b : Bytes}

open Elements (first)

theorem twoByteValue_eq (hn : b.length ≤ n) : twoByteValue extId n b = first true extId b := by
  induction n generalizing b with
  | zero =>
    cases eq_nil_of_length_eq_zero (Nat.le_zero.1 hn)
    rfl
  | succ n ih =>
    match b with
    | [] => rfl
    | [byte] => rw [Elements.first_none Elements.next_twoByte_single]; rfl
    | byte :: len :: rest =>
      rw [length_cons, length_cons] at hn
      rw [twoByteValue]
      by_cases hzero : byte = 0
      · have hpad : Elements.isPadding true byte = true := by simp [Elements.isPadding, hzero]
        rw [if_pos hzero, Elements.first_padding hpad, ih (by rw [length_cons]; omega)]
      rw [if_neg hzero]
      have hnext := Elements.next_twoByte hzero len rest
      by_cases hshort : rest.length < len.toNat
      · rw [if_pos hshort, Elements.first_none (by rw [hnext, if_pos hshort])]
      · rw [if_neg hshort] at hnext
        rw [if_neg hshort, Elements.first_next hnext, ih (by rw [length_drop]; omega)]

def oneByte (extId : UInt8) (b : Bytes) : Option Bytes := oneByteValue extId b.length b

theorem shiftRight_and_mask (byte : UInt8) : (byte >>> 4 &&& 0x0F : UInt8) = byte >>> 4 := by
  have hall : ∀ i : Fin 256, (UInt8.ofNat i >>> 4 &&& 0x0F : UInt8) = UInt8.ofNat i >>> 4 := by
    decide +kernel
  have h := hall ⟨byte.toNat, byte.toNat_lt⟩
  rwa [UInt8.ofNat_toNat] at h

theorem oneByteValue_fuel (hn : b.length ≤ n) (hm : b.length ≤ m) :
    oneByteValue extId n b = oneByteValue extId m b := by
  induction n generalizing b m with
  | zero =>
    cases eq_nil_of_length_eq_zero (Nat.le_zero.1 hn)
    cases m with
    | zero => rfl
    | succ m => rfl
  | succ n ih =>
    cases b with
    | nil =>
      cases m with
      | zero => rfl
      | succ m => rfl
    | cons byte rest =>
      obtain ⟨m, rfl⟩ := Nat.exists_eq_succ_of_ne_zero (Nat.ne_zero_of_lt hm)
      rw [length_cons] at hn hm
      rw [oneByteValue, oneByteValue, ih (m := m) (by omega) (by omega),
        ih (m := m) (by rw [length_drop]; omega) (by rw [length_drop]; omega)]

section Step

variable {byte : UInt8} {rest : Bytes}

theorem oneByte_zero : oneByte extId (0 :: rest) = oneByte extId rest := by
  rw [oneByte, length_cons, oneByteValue, if_pos rfl, oneByte]

theorem oneByte_stop (hne : byte ≠ 0)
    (h : byte >>> 4 = 15 ∨ rest.length < (byte &&& 0x0F).toNat + 1) :
    oneByte extId (byte :: rest) = none := by
  rw [oneByte, length_cons, oneByteValue, if_neg hne, shiftRight_and_mask]
  rcases h with h | h
  · rw [if_pos h]
  · rw [if_pos h, ite_self]

theorem oneByte_element (hne : byte ≠ 0) (hid : byte >>> 4 ≠ 15)
    (hlen : ¬ rest.length < (byte &&& 0x0F).toNat + 1) : oneByte extId (byte :: rest) =
      if byte >>> 4 = extId then some (rest.take ((byte &&& 0x0F).toNat + 1))
      else oneByte extId (rest.drop ((byte &&& 0x0F).toNat + 1)) := by
  rw [oneByte, length_cons, oneByteValue, if_neg hne, shiftRight_and_mask, if_neg hid,
    if_neg hlen, oneByte, oneByteValue_fuel (by simp) le_rfl]

theorem first_stop (hne : byte >>> 4 ≠ 0)
    (h : byte >>> 4 = 15 ∨ rest.length < (byte &&& 0x0F).toNat + 1) :
    first false extId (byte :: rest) = none := by
  refine Elements.first_none ?_
  rw [Elements.next_oneByte hne]
  rcases h with h | h
  · rw [if_pos h]
  · rw [if_pos h, ite_self]

theorem first_element (hne : byte >>> 4 ≠ 0) (hid : byte >>> 4 ≠ 15)
    (hlen : ¬ rest.length < (byte &&& 0x0F).toNat + 1) : first false extId (byte :: rest) =
      if byte >>> 4 = extId then some (rest.take ((byte &&& 0x0F).toNat + 1))
      else first false extId (rest.drop ((byte &&& 0x0F).toNat + 1)) :=
  Elements.first_next (by rw [Elements.next_oneByte hne, if_neg hid, if_neg hlen])

end Step

/-- The walk over a one-byte block reaches a byte of id 0 that announces bytes after it. -/
def meetsStray : Nat → Bytes → Bool
  | 0, _ => false
  | _ + 1, [] => false
  | n + 1, byte :: rest =>
    let len := (byte &&& 0x0F).toNat + 1
    if byte = 0 then meetsStray n rest
    else if byte >>> 4 = 0 then true
    else if byte >>> 4 = 15 ∨ rest.length < len then false
    else meetsStray n (rest.drop len)

theorem oneByte_eq_first (b : Bytes) (hn : b.length ≤ n) (hstray : meetsStray n b = false) :
    oneByte extId b = first false extId b := by
  induction n generalizing b with
  | zero =>
    cases eq_nil_of_length_eq_zero (Nat.le_zero.1 hn)
    rfl
  | succ n ih =>
    cases b with
    | nil => rfl
    | cons byte rest =>
      rw [length_cons] at hn
      rw [meetsStray] at hstray
      by_cases hzero : byte = 0
      · subst hzero
        rw [if_pos rfl] at hstray
        rw [oneByte_zero, Elements.first_padding rfl]
        exact ih rest (by omega) hstray
      rw [if_neg hzero] at hstray
      by_cases hid : byte >>> 4 = 0
      · rw [if_pos hid] at hstray
        cases hstray
      rw [if_neg hid] at hstray
      by_cases hstop : byte >>> 4 = 15 ∨ rest.length < (byte &&& 0x0F).toNat + 1
      · rw [oneByte_stop hzero hstop, first_stop hid hstop]
      · rw [if_neg hstop] at hstray
        obtain ⟨hne15, hlen⟩ := not_or.1 hstop
        rw [oneByte_element hzero hne15 hlen, first_element hid hne15 hlen,
          ih (rest.drop ((byte &&& 0x0F).toNat + 1)) (by rw [length_drop]; omega) hstray]

def block (packet : Bytes) (header : RtpHeader) : Bytes :=
  let start := 12 + 4 * header.csrcCount.toNat
  slice packet (start + 4) (header.headerLenBytes - (start + 4))

def NoStray (packet : Bytes) (header : RtpHeader) : Prop :=
  header.extension = true → be16 packet (12 + 4 * header.csrcCount.toNat) = 0xBEDE →
    meetsStray (block packet header).length (block packet header) = false

variable {packet : Bytes} {header : RtpHeader}

theorem parse_extension (hp : parse packet = .ok header) (hx : header.extension = true) :
    header.headerLenBytes = 12 + 4 * header.csrcCount.toNat + 4 +
        (be16 packet (12 + 4 * header.csrcCount.toNat + 2)).toNat * 4 ∧
          header.headerLenBytes ≤ packet.length := by
  obtain ⟨-, -, hm, -, -, -, hext, hc, -, -, -, -, -⟩ := parse_iff.1 hp
  rw [← hext, ← hc, hx, measure] at hm
  have hconst : rtpHeaderMinSizeBytes = 12 ∧ rtpCsrcSizeBytes = 4 := ⟨rfl, rfl⟩
  simp only [hconst, if_true] at hm
  split_ifs at hm with h1 h2 h3 h4
  rw [Nat.mul_comm 4, ← Except.ok.inj hm]
  omega

section Extension

variable (hp : parse packet = .ok header) (hx : header.extension = true) {id : UInt8}

def profile (packet : Bytes) (header : RtpHeader) : UInt16 :=
  be16 packet (12 + 4 * header.csrcCount.toNat)

include hp hx

theorem elementsUpTo_eq (n : Nat) : elementsUpTo n packet header =
    if profile packet header = 0xBEDE then Elements.collect n ⟨block packet header, false⟩
    else if profile packet header &&& 0xFFF0 = 0x1000 then
      Elements.collect n ⟨block packet header, true⟩
    else [] := by
  obtain ⟨hlen, hle⟩ := parse_extension hp hx
  have hnot : ¬ (header.headerLenBytes < 12 + 4 * header.csrcCount.toNat + 4 ∨
      header.headerLenBytes > packet.length) := by omega
  simp only [elementsUpTo, hx, Bool.not_true, Bool.false_eq_true, if_false]
  rw [if_neg hnot]
  rfl

theorem getExtensionValue_eq : header.getExtensionValue packet id =
    if profile packet header = 0xBEDE then oneByte id (block packet header)
    else if profile packet header &&& 0xFFF0 = 0x1000 then first true id (block packet header)
    else none := by
  obtain ⟨hlen, hle⟩ := parse_extension hp hx
  have hstart : rtpHeaderMinSizeBytes + header.csrcCount.toNat * rtpCsrcSizeBytes =
      12 + 4 * header.csrcCount.toNat := by rw [Nat.mul_comm]
  have hblock : slice packet (12 + 4 * header.csrcCount.toNat + 4)
      ((be16 packet (12 + 4 * header.csrcCount.toNat + 2)).toNat * 4) = block packet header := by
    rw [block, hlen, Nat.add_sub_cancel_left]
  simp only [getExtensionValue, hstart, hx, Bool.not_true, Bool.false_eq_true, if_false, hblock]
  rw [if_neg (by omega), if_neg (by omega), twoByteValue_eq le_rfl]
  rfl

end Extension

theorem length_block_le : (block packet header).length ≤ packet.length := by
  rw [block, slice, length_take, length_drop]
  omega

theorem find_collect {two : Bool} {id : UInt8} {b : Bytes} {n : Nat} (hn : b.length ≤ n)
    (hmax : (Elements.collect n ⟨b, two⟩).length ≤ maxElements) :
    ((Elements.collect maxElements ⟨b, two⟩).find? fun e => e.id = id).map Element.data =
      first two id b := by
  have hfuel : Elements.collect n ⟨b, two⟩ = Elements.collect b.length ⟨b, two⟩ :=
    Elements.collect_fuel hn le_rfl
  have hwide : Elements.collect (max n maxElements) ⟨b, two⟩ = Elements.collect n
      ⟨b, two⟩ :=
    Elements.collect_fuel (hn.trans (Nat.le_max_left ..)) hn
  rw [Elements.collect_take _ (Nat.le_max_right n maxElements), hwide, take_of_length_le hmax,
    hfuel, first]

def withBlock (words : Nat) (b : Bytes) : Bytes :=
  [0x90, 111, 0, 1, 0, 0, 0, 1, 0, 0, 0, 2] ++ beBytes 2 0xBEDE ++ beBytes 2 words ++ b

def withBlockHeader (words : Nat) : RtpHeader where
  version := 2
  padding := false
  extension := true
  csrcCount := 0
  marker := false
  payloadType := 111
  sequenceNumber := 1
  timestamp := 1
  ssrc := 2
  headerLenBytes := 16 + words * 4
  paddingLen := 0

end RtpHeader
end NexusSfu.Rtp
