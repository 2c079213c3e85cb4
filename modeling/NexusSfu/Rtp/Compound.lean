import NexusSfu.Rtp.Rtcp

namespace NexusSfu.Rtp

open Base List

structure IsBlock (b : Bytes) : Prop where
  version : (b.getD 0 0 >>> 6) &&& 0x03 = 2
  length : b.length = ((be16 b 2).toNat + 1) * 4

variable {b data rest : Bytes} {bs : List Bytes} {es : List CompoundEntry} {n : Nat}

theorem RtcpHeader.parse_ok {h : RtcpHeader} (hp : parse data = .ok h) :
    rtcpHeaderMinSizeBytes ≤ data.length ∧ (data.getD 0 0 >>> 6) &&& 0x03 = 2 ∧
      h.lengthWords = be16 data 2 := by
  simp only [parse] at hp
  split_ifs at hp with hmin hver
  cases hp
  exact ⟨not_lt.1 hmin, not_not.1 hver, rfl⟩

theorem RtcpHeader.parse_of_version (hmin : rtcpHeaderMinSizeBytes ≤ data.length)
    (hver : (data.getD 0 0 >>> 6) &&& 0x03 = 2) :
    ∃ h, parse data = .ok h ∧ h.lengthWords = be16 data 2 := by
  simp only [parse, if_neg (not_lt.2 hmin), if_neg (not_not.2 hver)]
  exact ⟨_, rfl, rfl⟩

theorem IsBlock.four_le (h : IsBlock b) : 4 ≤ b.length := by
  rw [h.length]
  omega

theorem demux_cons (hb : IsBlock b) (hmin : rtcpHeaderMinSizeBytes ≤ (b ++ rest).length) :
    ∃ header, demux (n + 1) (b ++ rest) = (demux n rest).map (⟨header, b⟩ :: ·) := by
  have hfour := hb.four_le
  have hword : be16 (b ++ rest) 2 = be16 b 2 := by
    rw [be16, slice_append_left (by omega), be16]
  have hver : ((b ++ rest).getD 0 0 >>> 6) &&& 0x03 = 2 := by
    rw [getD_congr (c := b) (n := b.length) (by simp) (by omega)]
    exact hb.version
  obtain ⟨header, hparse, hwords⟩ := RtcpHeader.parse_of_version hmin hver
  have hlen : header.packetLenBytes = b.length := by
    rw [RtcpHeader.packetLenBytes, hwords, hword, hb.length]
  refine ⟨header, ?_⟩
  rw [demux, if_neg (not_lt.2 hmin), hparse]
  simp only [hlen]
  rw [if_neg (by simp; omega), drop_left, take_left]
  cases demux n rest with
  | error e => rfl
  | ok es => rfl

theorem demux_short (h : data.length < rtcpHeaderMinSizeBytes) : demux n data = .ok [] := by
  cases n with
  | zero => rfl
  | succ n => rw [demux, if_pos h]

theorem demux_ok (h : demux n data = .ok es) : ∃ rest,
    data = (es.map CompoundEntry.data).flatten ++ rest ∧ es.length ≤ n ∧
      (∀ e ∈ es, IsBlock e.data) ∧
        (rest.length < rtcpHeaderMinSizeBytes ∨ es.length = n) := by
  induction n generalizing data es with
  | zero =>
    cases h
    exact ⟨data, rfl, le_rfl, nofun, .inr rfl⟩
  | succ n ih =>
    rw [demux] at h
    by_cases hmin : data.length < rtcpHeaderMinSizeBytes
    · rw [if_pos hmin] at h
      cases h
      exact ⟨data, rfl, Nat.zero_le _, nofun, .inl hmin⟩
    rw [if_neg hmin] at h
    cases hparse : RtcpHeader.parse data with
    | error e =>
      rw [hparse] at h
      cases h
    | ok header =>
      rw [hparse] at h
      dsimp only at h
      by_cases hlen : header.packetLenBytes < 4 ∨ header.packetLenBytes > data.length
      · rw [if_pos hlen] at h
        cases h
      rw [if_neg hlen] at h
      cases hrec : demux n (data.drop header.packetLenBytes) with
      | error e =>
        rw [hrec] at h
        cases h
      | ok es' =>
        rw [hrec] at h
        cases h
        obtain ⟨rest, hdata, hle, hall, hend⟩ := ih hrec
        obtain ⟨-, hver, hwords⟩ := RtcpHeader.parse_ok hparse
        have htake : (data.take header.packetLenBytes).length = header.packetLenBytes := by
          simp
          omega
        refine ⟨rest, ?_, Nat.succ_le_succ hle, ?_, hend.imp_right (congrArg Nat.succ)⟩
        · rw [map_cons, flatten_cons, append_assoc, ← hdata, take_append_drop]
        · rintro e (- | ⟨-, he⟩)
          · refine ⟨?_, ?_⟩
            · rw [getD_congr (c := data) (take_take.trans (by rw [Nat.min_self])) (by omega)]
              exact hver
            · rw [htake, be16, slice_take (by omega), ← be16, ← hwords,
                RtcpHeader.packetLenBytes]
          · exact hall e he

def packets (data : Bytes) : Except RtcpError (List Bytes) :=
  (demuxCompound data).map (·.map CompoundEntry.data)

theorem demux_flatten (hbs : ∀ b ∈ bs, IsBlock b) (hn : bs.length ≤ n)
    (hlast : ∀ h : bs ≠ [], rtcpHeaderMinSizeBytes ≤ (bs.getLast h).length) :
    (demux n bs.flatten).map (·.map CompoundEntry.data) = .ok bs := by
  induction bs generalizing n with
  | nil =>
    rw [flatten_nil, demux_short (by decide)]
    rfl
  | cons b bs ih =>
    have hmin : rtcpHeaderMinSizeBytes ≤ (b :: bs).flatten.length :=
      (hlast (cons_ne_nil b bs)).trans
        (sublist_flatten_of_mem (getLast_mem _)).length_le
    obtain ⟨n, rfl⟩ := Nat.exists_eq_succ_of_ne_zero (Nat.ne_zero_of_lt hn)
    obtain ⟨header, hcons⟩ := demux_cons (n := n) (hbs b mem_cons_self) hmin
    have hrec := ih (n := n) (fun c hc => hbs c (mem_cons_of_mem b hc))
      (Nat.le_of_succ_le_succ hn) fun h => by
        rw [← getLast_cons h]
        exact hlast _
    rw [flatten_cons, hcons]
    cases hdemux : demux n bs.flatten with
    | error e =>
      rw [hdemux] at hrec
      cases hrec
    | ok es =>
      rw [hdemux] at hrec
      exact congrArg (fun l => Except.ok (b :: l)) (Except.ok.inj hrec)

/-- Some blocks, no more than are read, and then bytes that are not: too few for a header, or
after the last block that is read. -/
def Leaves (data : Bytes) : Prop :=
  ∃ bs rest, (∀ b ∈ bs, IsBlock b) ∧ data = List.flatten bs ++ rest ∧ rest ≠ [] ∧
    bs.length ≤ maxCompoundPackets ∧
    (rest.length < rtcpHeaderMinSizeBytes ∨ bs.length = maxCompoundPackets)

theorem demux_leaves (hbs : ∀ b ∈ bs, IsBlock b) (hrest : rest ≠ []) (hn : bs.length ≤ n)
    (hend : rest.length < rtcpHeaderMinSizeBytes ∨ bs.length = n) :
    ∃ es, demux n (bs.flatten ++ rest) = .ok es ∧
      (es.map CompoundEntry.data).flatten ≠ bs.flatten ++ rest := by
  induction bs generalizing n with
  | nil =>
    have hempty : demux n rest = .ok [] := by
      rcases hend with hend | rfl
      · exact demux_short hend
      · rfl
    exact ⟨[], hempty, fun h => hrest h.symm⟩
  | cons b bs ih =>
    by_cases hmin : ((b :: bs).flatten ++ rest).length < rtcpHeaderMinSizeBytes
    · exact ⟨[], demux_short hmin, fun h => hrest (append_eq_nil_iff.1 h.symm).2⟩
    obtain ⟨n, rfl⟩ := Nat.exists_eq_succ_of_ne_zero (Nat.ne_zero_of_lt hn)
    rw [flatten_cons, append_assoc] at hmin ⊢
    obtain ⟨header, hcons⟩ := demux_cons (n := n) (hbs b mem_cons_self) (not_lt.1 hmin)
    obtain ⟨es, hes, hne⟩ := ih (n := n) (fun c hc => hbs c (mem_cons_of_mem b hc))
      (Nat.le_of_succ_le_succ hn) (hend.imp_right Nat.succ.inj)
    refine ⟨⟨header, b⟩ :: es, by rw [hcons, hes]; rfl, fun h => hne ?_⟩
    rw [map_cons, flatten_cons] at h
    exact append_cancel_left h

def Demuxes (data : Bytes) : Prop :=
  (∀ bs : List Bytes, bs ≠ [] → bs.length ≤ maxCompoundPackets →
    (∀ b ∈ bs, IsBlock b) → bs.flatten = data → packets data = .ok bs) ∧
  ∀ bs : List Bytes, packets data = .ok bs → bs.flatten = data

theorem packets_eq_ok (h : packets data = .ok bs) : ∃ es, demuxCompound data = .ok es ∧
    es.map CompoundEntry.data = bs := by
  rw [packets] at h
  cases hdemux : demuxCompound data with
  | error e =>
    rw [hdemux] at h
    cases h
  | ok es =>
    rw [hdemux] at h
    exact ⟨es, rfl, Except.ok.inj h⟩

theorem leaves_of_short_last (hbs : ∀ b ∈ bs, IsBlock b)
    (hmax : bs.length ≤ maxCompoundPackets) (hne : bs ≠ [])
    (hshort : (bs.getLast hne).length < rtcpHeaderMinSizeBytes) : Leaves bs.flatten := by
  have hfour := (hbs _ (getLast_mem hne)).four_le
  refine ⟨bs.dropLast, bs.getLast hne, fun b hb => hbs b (dropLast_subset bs hb), ?_,
    ne_nil_of_length_pos (by omega), ?_, .inl hshort⟩
  · rw [← flatten_concat, dropLast_concat_getLast hne]
  · rw [length_dropLast]
    omega

theorem Leaves.packets (h : Leaves data) :
    ∃ bs, packets data = .ok bs ∧ bs.flatten ≠ data := by
  obtain ⟨bs, rest, hbs, rfl, hrest, hmax, hend⟩ := h
  obtain ⟨es, hes, hne⟩ := demux_leaves hbs hrest hmax hend
  exact ⟨_, by rw [Rtp.packets, demuxCompound, hes]; rfl, hne⟩

theorem demuxes_iff (data : Bytes) : Demuxes data ↔ ¬ Leaves data := by
  constructor
  · rintro ⟨-, htiles⟩ hleaves
    obtain ⟨bs, hok, hne⟩ := hleaves.packets
    exact hne (htiles bs hok)
  · intro hleaves
    refine ⟨fun bs hne hmax hbs hdata => ?_, fun bs hok => ?_⟩
    · subst hdata
      exact demux_flatten hbs hmax fun _ => not_lt.1 fun hshort =>
        hleaves (leaves_of_short_last hbs hmax hne hshort)
    · obtain ⟨es, hes, rfl⟩ := packets_eq_ok hok
      obtain ⟨rest, hdata, hle, hall, hend⟩ := demux_ok hes
      by_cases hrest : rest = []
      · rw [hdata, hrest, append_nil]
      · refine absurd ⟨_, rest, ?_, hdata, hrest, ?_, ?_⟩ hleaves
        · intro b hb
          obtain ⟨e, he, rfl⟩ := mem_map.1 hb
          exact hall e he
        · rwa [length_map]
        · rwa [length_map]

def emptyReport : Bytes := [0x80, 201, 0, 1, 0, 0, 0, 7]

def emptyBye : Bytes := [0x80, 203, 0, 0]

theorem packets_emptyBye : IsBlock emptyBye ∧ IsBlock emptyReport ∧
    packets (emptyBye ++ emptyReport) = .ok [emptyBye, emptyReport] ∧
    packets (emptyReport ++ emptyBye) = .ok [emptyReport] := by
  refine ⟨⟨by decide, by decide⟩,
    ⟨by decide, by decide⟩, by decide +kernel, by decide +kernel⟩

end NexusSfu.Rtp
