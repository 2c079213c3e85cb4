import NexusSfu.Ice.Message

namespace NexusSfu.Ice

open Base Fallible

namespace StunMessage

variable {data : Bytes} {transactionId : Vector UInt8 12} {stop n offset : Nat} {saw : Bool}
  {acc : List StunAttribute}

theorem parseAttributesFrom_succ (hstop : stop ≤ data.length) (h : offset + 4 ≤ stop) :
    (parseAttributesFrom data stop transactionId (n + 1) offset saw acc).run =
      let attrType := be16 data offset
      let attrLen := (be16 data (offset + 2)).toNat
      if saw = true ∧ attrType ≠ attrFingerprint then some (.error
        (invalid attrType "attribute after MESSAGE-INTEGRITY must be FINGERPRINT"))
      else if offset + 4 + attrLen > stop then
        some (.error (invalid attrType "attribute extends beyond message"))
      else match (StunAttribute.parse attrType
        (slice data (offset + 4) attrLen) transactionId).run with
        | none => none
        | some (.error e) => some (.error e)
        | some (.ok attr) => (parseAttributesFrom data stop transactionId n
            (offset + 4 + (attrLen + 3) / 4 * 4) (saw || attrType == attrMessageIntegrity)
            (if acc.length < stunMaxAttributes then acc ++ attr.toList else acc)).run := by
  rw [parseAttributesFrom, if_neg (by omega), read16_eq (by omega), read16_eq (by omega)]
  simp only [pure_bind]
  by_cases hsaw : saw = true ∧ be16 data offset ≠ attrFingerprint
  · rw [if_pos hsaw, if_pos hsaw]
    rfl
  rw [if_neg hsaw, if_neg hsaw]
  by_cases hend : offset + 4 + (be16 data (offset + 2)).toNat > stop
  · simp only [if_pos hend]
    rfl
  simp only [if_neg hend]
  rw [sub_eq (by omega), pure_bind, ExceptT.run_bind]
  cases (StunAttribute.parse (be16 data offset) _ transactionId).run with
  | none => rfl
  | some r =>
    cases r with
    | error e => rfl
    | ok attr => rfl

theorem parseAttributesFrom_saw (hstop : stop ≤ data.length) :
    (parseAttributesFrom data stop transactionId n offset true acc).run ≠ none := by
  induction n generalizing offset acc with
  | zero => exact nofun
  | succ n ih =>
    by_cases h : offset + 4 ≤ stop
    swap
    · rw [parseAttributesFrom, if_pos (by omega)]
      exact nofun
    rw [parseAttributesFrom_succ hstop h]
    dsimp only
    by_cases hfp : be16 data offset = attrFingerprint
    swap
    · rw [if_pos ⟨rfl, hfp⟩]
      exact nofun
    rw [if_neg (by simp [hfp])]
    by_cases hend : offset + 4 + (be16 data (offset + 2)).toNat > stop
    · rw [if_pos hend]
      exact nofun
    rw [if_neg hend]
    cases hattr : (StunAttribute.parse (be16 data offset) _ transactionId).run with
    | none =>
      have hkind := (StunAttribute.parse_eq_none_iff.1 hattr).1
      rw [hfp] at hkind
      exact absurd hkind (by decide)
    | some r =>
      cases r with
      | error e => exact nofun
      | ok attr => exact ih

def WellFormed (transactionId : Vector UInt8 12) (a : Tlv) : Prop :=
  ∃ attr, (StunAttribute.parse a.kind a.value transactionId).run = some (.ok attr)

/-- After fewer than `n` attributes that the parser reads, none of them the integrity, comes a
mapped address shorter than its port. -/
def LeadsToShort (transactionId : Vector UInt8 12) (n : Nat) (body : Bytes) : Prop :=
  ∃ l : List Tlv, l.length < n ∧
    (∀ a ∈ l, a.kind ≠ attrMessageIntegrity ∧ WellFormed transactionId a) ∧
    ∃ len < 4, ∃ rest : Bytes, len ≤ rest.length ∧
      body = Tlv.encodeAll l ++ (beBytes 2 attrMappedAddress.toNat ++ beBytes 2 len ++ rest)

theorem be16_take {i : Nat} (h : i + 2 ≤ stop) : be16 (data.take stop) i = be16 data i := by
  rw [be16, slice_take h, be16]

theorem parseAttributesFrom_panics (hstop : stop ≤ data.length)
    (h : (parseAttributesFrom data stop transactionId n offset false acc).run = none) :
    LeadsToShort transactionId n ((data.take stop).drop offset) := by
  have hlen : (data.take stop).length = stop := by simp [hstop]
  induction n generalizing offset acc with
  | zero => cases h
  | succ n ih =>
    by_cases hfit : offset + 4 ≤ stop
    swap
    · rw [parseAttributesFrom, if_pos (by omega)] at h
      cases h
    have hk : be16 (data.take stop) offset = be16 data offset := be16_take (by omega)
    have hn : be16 (data.take stop) (offset + 2) = be16 data (offset + 2) := be16_take (by omega)
    rw [parseAttributesFrom_succ hstop hfit] at h
    dsimp only at h
    rw [if_neg (by simp)] at h
    by_cases hend : offset + 4 + (be16 data (offset + 2)).toNat > stop
    · rw [if_pos hend] at h
      cases h
    rw [if_neg hend] at h
    cases hattr : (StunAttribute.parse (be16 data offset)
      (slice data (offset + 4) (be16 data (offset + 2)).toNat) transactionId).run with
    | none =>
      -- the debug assertion failed here
      obtain ⟨hkind, hshort⟩ := StunAttribute.parse_eq_none_iff.1 hattr
      rw [length_slice (by omega)] at hshort
      refine ⟨[], Nat.succ_pos n, nofun, _, hshort, (data.take stop).drop (offset + 4), ?_, ?_⟩
      · rw [List.length_drop, hlen]
        omega
      · rw [← hkind, ← hk, ← hn, ← slice_be16 (by omega), ← slice_be16 (by omega),
          List.append_assoc, slice_append_drop, slice_append_drop]
        rfl
    | some r =>
      rw [hattr] at h
      cases r with
      | error e => cases h
      | ok attr =>
        dsimp only at h
        by_cases hmi : be16 data offset = attrMessageIntegrity
        · rw [hmi, beq_self_eq_true, Bool.or_true] at h
          exact absurd h (parseAttributesFrom_saw hstop)
        rw [beq_eq_false_iff_ne.2 hmi, Bool.or_false] at h
        obtain ⟨l, hl, hwf, len, hlt, rest, hrest, hbody⟩ := ih h
        have hroom : offset + 4 + ((be16 data (offset + 2)).toNat + 3) / 4 * 4 ≤ stop := by
          have hcount := congrArg List.length hbody
          simp only [List.length_drop, List.length_append, length_beBytes, hlen] at hcount
          omega
        obtain ⟨a, ha⟩ := Tlv.exists_encode (b := data.take stop) (i := offset) (by omega)
          (by rw [hn, hlen]; exact hroom)
        have hkind : a.kind = be16 data offset := by rw [← Tlv.be16_kind ha, hk]
        have hval : a.value.length = (be16 data (offset + 2)).toNat := by
          rw [← Tlv.be16_length ha, hn]
        have hvalue : a.value = slice data (offset + 4) (be16 data (offset + 2)).toNat := by
          rw [← Tlv.slice_value ha, hval, slice_take (by omega)]
        refine ⟨a :: l, Nat.succ_lt_succ hl, ?_, len, hlt, rest, hrest, ?_⟩
        · rintro c (- | ⟨-, hc⟩)
          · exact ⟨hkind ▸ hmi, attr, by rw [hkind, hvalue, hattr]⟩
          · exact hwf c hc
        · rw [ha, Tlv.encodeAll_cons, List.append_assoc, ← hbody, Tlv.size, hval, Nat.add_assoc]

theorem parseAttributesFrom_leads (hstop : stop ≤ data.length) (hoffset : offset ≤ stop)
    (h : LeadsToShort transactionId n ((data.take stop).drop offset)) :
    (parseAttributesFrom data stop transactionId n offset false acc).run = none := by
  have hlen : (data.take stop).length = stop := by simp [hstop]
  induction n generalizing offset acc with
  | zero =>
    obtain ⟨l, hl, -⟩ := h
    cases hl
  | succ n ih =>
    obtain ⟨l, hl, hwf, len, hlt, rest, hrest, hbody⟩ := h
    have hcount := congrArg List.length hbody
    simp only [List.length_drop, List.length_append, length_beBytes, hlen] at hcount
    have hk : be16 (data.take stop) offset = be16 data offset := be16_take (by omega)
    have hn : be16 (data.take stop) (offset + 2) = be16 data (offset + 2) := be16_take (by omega)
    rw [parseAttributesFrom_succ hstop (by omega)]
    dsimp only
    rw [if_neg (by simp)]
    cases l with
    | nil =>
      rw [Tlv.encodeAll_nil, List.nil_append, List.append_assoc] at hbody
      have hkind := be16_of_slice (slice_of_drop hbody (length_beBytes ..))
      have hfour : len < 256 ^ 2 := by omega
      have hsize : (be16 data (offset + 2)).toNat = len := by
        rw [← hn, be16, slice_of_drop (drop_of_drop hbody (length_beBytes ..))
          (length_beBytes ..), beNat_beBytes_of_lt hfour, UInt16.toNat_ofNat_of_lt' hfour]
      rw [Tlv.encodeAll_nil, List.length_nil] at hcount
      rw [if_neg (by omega), hsize, StunAttribute.parse_short ⟨hk ▸ hkind, ?_⟩]
      rw [length_slice (by omega)]
      exact hlt
    | cons a l =>
      rw [Tlv.encodeAll_cons, List.append_assoc] at hbody
      have hkind : be16 data offset = a.kind := by rw [← hk, Tlv.be16_kind hbody]
      have hval : (be16 data (offset + 2)).toNat = a.value.length := by
        rw [← hn, Tlv.be16_length hbody]
      have hnext := Tlv.le_of_drop (by omega) hbody
      rw [hlen, Tlv.size] at hnext
      obtain ⟨hmi, attr, hattr⟩ := hwf a List.mem_cons_self
      have hvalue : slice data (offset + 4) (be16 data (offset + 2)).toNat = a.value := by
        rw [hval, ← slice_take (n := stop) (by omega), Tlv.slice_value hbody]
      rw [if_neg (by omega), hvalue, hkind, hattr]
      dsimp only
      rw [beq_eq_false_iff_ne.2 hmi, Bool.or_false]
      refine ih (by omega) ⟨l, Nat.lt_of_succ_lt_succ hl,
        fun c hc => hwf c (List.mem_cons_of_mem a hc), len, hlt, rest, hrest, ?_⟩
      rw [hval, Nat.add_assoc]
      exact Tlv.drop_encode hbody

def ReadFrom (data : Bytes) (transactionId : Vector UInt8 12) (first stop : Nat)
    (attr : StunAttribute) : Prop :=
  ∃ i len, first ≤ i ∧ i + 4 + len ≤ stop ∧ (be16 data (i + 2)).toNat = len ∧
    (StunAttribute.parse (be16 data i) (slice data (i + 4) len) transactionId).run =
      some (.ok (some attr))

theorem ReadFrom.mono {attr : StunAttribute} {first : Nat} (hle : offset ≤ first)
    (h : ReadFrom data transactionId first stop attr) :
    ReadFrom data transactionId offset stop attr := by
  obtain ⟨i, len, hi, hrest⟩ := h
  exact ⟨i, len, hle.trans hi, hrest⟩

theorem kept_of_length_le (hacc : acc.length ≤ stunMaxAttributes) (attr : Option StunAttribute) :
    (if acc.length < stunMaxAttributes then acc ++ attr.toList else acc).length ≤
      stunMaxAttributes ∧
      ∀ x ∈ (if acc.length < stunMaxAttributes then acc ++ attr.toList else acc), x ∈ acc ∨
        attr = some x := by
  by_cases hroom : acc.length < stunMaxAttributes
  · rw [if_pos hroom]
    refine ⟨?_, fun x hx => (List.mem_append.1 hx).imp_right Option.mem_toList.1⟩
    rw [List.length_append]
    cases attr with
    | none => exact hacc
    | some x => exact hroom
  · rw [if_neg hroom]
    exact ⟨hacc, fun _ => .inl⟩

theorem parseAttributesFrom_ok (hstop : stop ≤ data.length) {out : List StunAttribute}
    (h : (parseAttributesFrom data stop transactionId n offset saw acc).run = some (.ok out))
    (hacc : acc.length ≤ stunMaxAttributes) : out.length ≤ stunMaxAttributes ∧
      ∀ attr ∈ out, attr ∈ acc ∨ ReadFrom data transactionId offset stop attr := by
  induction n generalizing offset saw acc with
  | zero =>
    cases h
    exact ⟨hacc, fun _ => .inl⟩
  | succ n ih =>
    by_cases hfit : offset + 4 ≤ stop
    swap
    · rw [parseAttributesFrom, if_pos (by omega)] at h
      cases h
      exact ⟨hacc, fun _ => .inl⟩
    rw [parseAttributesFrom_succ hstop hfit] at h
    dsimp only at h
    by_cases hsaw : saw = true ∧ be16 data offset ≠ attrFingerprint
    · rw [if_pos hsaw] at h
      cases h
    rw [if_neg hsaw] at h
    by_cases hend : offset + 4 + (be16 data (offset + 2)).toNat > stop
    · rw [if_pos hend] at h
      cases h
    rw [if_neg hend] at h
    cases hattr : (StunAttribute.parse (be16 data offset)
      (slice data (offset + 4) (be16 data (offset + 2)).toNat) transactionId).run with
    | none =>
      rw [hattr] at h
      cases h
    | some r =>
      rw [hattr] at h
      cases r with
      | error e => cases h
      | ok attr =>
        obtain ⟨hlen, hkept⟩ := kept_of_length_le hacc attr
        obtain ⟨hout, hread⟩ := ih h hlen
        refine ⟨hout, fun x hx => ?_⟩
        rcases hread x hx with hx | hx
        · refine (hkept x hx).imp_right fun heq => ?_
          exact ⟨offset, _, le_rfl, not_lt.1 hend, rfl, heq ▸ hattr⟩
        · exact .inr (hx.mono (by omega))

def MeetsShortAddress (data : Bytes) : Prop :=
  ∃ header, (parseHeader data).run = some (.ok header) ∧
    LeadsToShort header.transactionId stunMaxAttributes (slice data stunHeaderSize header.msgLen)

def Within (data : Bytes) (transactionId : Vector UInt8 12) (attr : StunAttribute) : Prop :=
  ReadFrom data transactionId stunHeaderSize (stunHeaderSize + (be16 data 2).toNat) attr

theorem parseAttributes_ok {msgLen : Nat} {out : List StunAttribute}
    (hwhole : stunHeaderSize + msgLen ≤ data.length)
    (h : (parseAttributes data msgLen transactionId).run = some (.ok out)) :
    out.length ≤ stunMaxAttributes ∧
      ∀ attr ∈ out, ReadFrom data transactionId stunHeaderSize
        (stunHeaderSize + msgLen) attr := by
  rw [parseAttributes] at h
  obtain ⟨-, -, h⟩ := run_bind_ok h
  obtain ⟨attributes, hwalk, h⟩ := run_bind_ok h
  obtain ⟨-, -, h⟩ := run_bind_ok h
  cases h
  obtain ⟨hlen, hread⟩ := parseAttributesFrom_ok hwhole hwalk (Nat.zero_le _)
  exact ⟨hlen, fun attr hattr => (hread attr hattr).resolve_left List.not_mem_nil⟩

theorem parseAttributes_eq_none_iff {msgLen : Nat}
    (hwhole : stunHeaderSize + msgLen ≤ data.length) :
    (parseAttributes data msgLen transactionId).run = none ↔
      LeadsToShort transactionId stunMaxAttributes (slice data stunHeaderSize msgLen) := by
  have hbody : (data.take (stunHeaderSize + msgLen)).drop stunHeaderSize =
      slice data stunHeaderSize msgLen := by
    rw [slice, List.drop_take, Nat.add_sub_cancel_left]
  have hwalk : (parseAttributes data msgLen transactionId).run = none ↔
      (parseAttributesFrom data (stunHeaderSize + msgLen) transactionId stunMaxAttributes
        stunHeaderSize false []).run = none := by
    rw [parseAttributes, assert_eq (decide_eq_true hwhole), pure_bind, run_bind_eq_none_iff,
      or_iff_left]
    rintro ⟨out, hout, h⟩
    have hlen := (parseAttributesFrom_ok hwhole hout (Nat.zero_le _)).1
    rw [assert_eq (decide_eq_true hlen)] at h
    cases h
  rw [hwalk, ← hbody]
  exact ⟨parseAttributesFrom_panics hwhole,
    parseAttributesFrom_leads hwhole (Nat.le_add_right ..)⟩

theorem parse_eq_none_iff (data : Bytes) : (parse data).run = none ↔ MeetsShortAddress data := by
  rw [parse]
  by_cases hsize : data.length < stunHeaderSize
  · rw [if_pos hsize]
    refine ⟨by simp, fun h => ?_⟩
    obtain ⟨header, hheader, -⟩ := h
    rw [parseHeader, assert, if_neg (by simpa using hsize)] at hheader
    cases hheader
  have hreturns := parseHeader_returns (not_lt.1 hsize)
  rw [if_neg hsize]
  dsimp only
  rw [assert_eq (decide_eq_true (not_lt.1 hsize)), pure_bind, run_bind_eq_none_iff,
    or_iff_right hreturns.ne_none]
  refine exists_congr fun header => and_congr_right fun hheader => ?_
  have hwhole := (hreturns.of_ok hheader).whole
  rw [← parseAttributes_eq_none_iff hwhole, run_bind_eq_none_iff, or_iff_left]
  rintro ⟨out, hout, h⟩
  rw [assert_eq (decide_eq_true (parseAttributes_ok hwhole hout).1)] at h
  cases h

/-- Parsing ends without a panic, and all it returns lies inside the message, unless it meets a
mapped address shorter than its port. -/
theorem parse_safe_iff (data : Bytes) :
    ((parse data).run ≠ none ∧ ∀ m, (parse data).run = some (.ok m) →
      ∀ attr ∈ m.attributes, Within data m.transactionId attr) ↔
        ¬ MeetsShortAddress data := by
  rw [← parse_eq_none_iff]
  refine and_iff_left_of_imp fun _ m hm attr hattr => ?_
  obtain ⟨header, hof, -, hattributes, -, -, htid⟩ := parse_ok hm
  rw [Within, htid, ← hof.msgLen]
  exact (parseAttributes_ok hof.whole hattributes).2 attr hattr

def emptyAddress : Bytes :=
  beBytes 2 0x0001 ++ beBytes 2 4 ++ beBytes 4 stunMagicCookie.toNat ++ List.replicate 12 0 ++
    beBytes 2 0x0001 ++ beBytes 2 0

theorem parse_emptyAddress : (parse emptyAddress).run = none := by
  decide +kernel

end StunMessage
end NexusSfu.Ice
