import Mathlib.Data.List.Nodup
import Mathlib.Data.List.Perm.Subperm
import NexusSfu.Base.Fallible
import NexusSfu.Rtp.Rtcp

namespace NexusSfu.Rtp

open Base Fallible List

abbrev maxNackPackets : Nat := 64

abbrev maxFciEntries : Nat := 32

structure NackPacket where
  senderSsrc : UInt32
  mediaSsrc : UInt32
  lostPackets : List UInt16
  deriving DecidableEq

namespace NackPacket

def hasBit (blp : UInt16) (bit : Nat) : Bool := blp &&& (1 <<< UInt16.ofNat bit) ≠ 0

def pushBits (pid blp : UInt16) : List Nat → List UInt16 → List UInt16
  | [], lost => lost
  | bit :: bits, lost =>
    if hasBit blp bit then
      let lost := lost ++ [pid + (UInt16.ofNat bit + 1)]
      if lost.length ≥ maxNackPackets then lost else pushBits pid blp bits lost
    else pushBits pid blp bits lost

def parseFci : Bytes → List UInt16 → List UInt16
  | a :: b :: c :: d :: rest, lost =>
    if lost.length < maxNackPackets then
      let pid := be16 [a, b, c, d] 0
      let blp := be16 [a, b, c, d] 2
      parseFci rest (pushBits pid blp (List.range 16) (lost ++ [pid]))
    else lost
  | _, lost => lost

def parse (data : Bytes) : Fallible RtcpError NackPacket := do
  let version := (data.getD 0 0 >>> 6) &&& 0x03
  let fmt := data.getD 0 0 &&& 0x1F
  if data.length < 12 then throw (.tooShort data.length 12)
  if version ≠ 2 then throw (.invalidVersion version)
  if data.getD 1 0 ≠ 205 then throw (.invalidPacketType (data.getD 1 0))
  if fmt ≠ 1 then throw (.invalidPacketType fmt)
  let lostPackets := parseFci (data.drop 12) []
  assert (lostPackets.length ≤ maxNackPackets)
  return ⟨be32 data 4, be32 data 8, lostPackets⟩

def gather (pid : UInt16) : List UInt16 → UInt16 → UInt16 × List UInt16
  | [], blp => (blp, [])
  | x :: xs, blp =>
    let diff := x - pid
    if 1 ≤ diff ∧ diff ≤ 16 then gather pid xs (blp ||| (1 <<< (diff - 1)))
    else if diff > 16 then (blp, x :: xs)
    else gather pid xs blp

def fciEntries : Nat → List UInt16 → List (UInt16 × UInt16)
  | 0, _ => []
  | _ + 1, [] => []
  | n + 1, pid :: xs =>
    let (blp, rest) := gather pid xs 0
    (pid, blp) :: fciEntries n rest

def encodeFciEntries (p : NackPacket) : List (UInt16 × UInt16) :=
  fciEntries maxFciEntries ((p.lostPackets.take maxNackPackets).mergeSort (· ≤ ·))

def encodeFci (e : UInt16 × UInt16) : Bytes := beBytes 2 e.1.toNat ++ beBytes 2 e.2.toNat

def build (p : NackPacket) : Bytes :=
  let fci := p.encodeFciEntries
  let packetLen := 12 + fci.length * 4
  [((2 : UInt8) <<< 6) ||| 1, 205] ++ beBytes 2 (packetLen / 4 - 1) ++
    beBytes 4 p.senderSsrc.toNat ++ beBytes 4 p.mediaSsrc.toNat ++ fci.flatMap encodeFci

section Bits

theorem hasBit_zero (bit : Nat) : hasBit 0 bit = false := by
  simp [hasBit]

theorem hasBit_or (a b : UInt16) (bit : Nat) :
    hasBit (a ||| b) bit = (hasBit a bit || hasBit b bit) := by
  have hdistrib : ∀ m : UInt16, (a ||| b) &&& m = (a &&& m) ||| (b &&& m) := by
    intro m
    apply UInt16.toBitVec_inj.1
    ext i
    simp [Bool.and_or_distrib_right]
  simp only [hasBit, hdistrib, ne_eq, UInt16.or_eq_zero_iff, not_and_or, Bool.decide_or]

theorem hasBit_single {i j : Nat} (hi : i < 16) (hj : j < 16) :
    hasBit (1 <<< UInt16.ofNat j) i = decide (i = j) := by
  have hall : ∀ i j : Fin 16, hasBit (1 <<< UInt16.ofNat j) i = decide (i.val = j.val) := by
    decide +kernel
  exact hall ⟨i, hi⟩ ⟨j, hj⟩

end Bits

def decode (e : UInt16 × UInt16) : List UInt16 :=
  e.1 :: ((List.range 16).filter (hasBit e.2)).map fun bit => e.1 + (UInt16.ofNat bit + 1)

section Parse

variable {pid blp : UInt16} {bits : List Nat} {lost : List UInt16}

theorem pushBits_eq (h : lost.length + (bits.filter (hasBit blp)).length ≤ maxNackPackets) :
    pushBits pid blp bits lost = lost ++ (bits.filter (hasBit blp)).map fun bit =>
      pid + (UInt16.ofNat bit + 1) := by
  induction bits generalizing lost with
  | nil => simp [pushBits]
  | cons bit bits ih =>
    cases hbit : hasBit blp bit with
    | false =>
      rw [filter_cons_of_neg (by simp [hbit])] at *
      rw [pushBits, if_neg (by simp [hbit]), ih h]
    | true =>
      rw [filter_cons_of_pos hbit, length_cons] at h
      rw [pushBits, if_pos hbit, filter_cons_of_pos hbit, map_cons]
      dsimp only
      by_cases hfull : (lost ++ [pid + (UInt16.ofNat bit + 1)]).length ≥ maxNackPackets
      · -- at the bound nothing of the mask is left
        rw [length_append, length_singleton] at hfull
        have hnil : bits.filter (hasBit blp) = [] := eq_nil_of_length_eq_zero (by omega)
        rw [if_pos (by simpa using hfull), hnil, map_nil]
      · rw [if_neg hfull, ih (by rw [length_append, length_singleton]; omega),
          append_assoc]
        rfl

theorem parseFci_encodeFci (e : UInt16 × UInt16) (rest : Bytes)
    (h : lost.length < maxNackPackets) :
    parseFci (encodeFci e ++ rest) lost = parseFci rest
      (pushBits e.1 e.2 (List.range 16) (lost ++ [e.1])) := by
  have hpid : be16 (encodeFci e) 0 = e.1 := be16_of_slice rfl
  have hblp : be16 (encodeFci e) 2 = e.2 := be16_of_slice rfl
  have hstep : parseFci (encodeFci e ++ rest) lost =
      if lost.length < maxNackPackets then parseFci rest (pushBits (be16 (encodeFci e) 0)
        (be16 (encodeFci e) 2) (List.range 16) (lost ++ [be16 (encodeFci e) 0])) else lost := rfl
  rw [hstep, if_pos h, hpid, hblp]

theorem parseFci_flatMap {es : List (UInt16 × UInt16)}
    (h : lost.length + (es.flatMap decode).length ≤ maxNackPackets) :
    parseFci (es.flatMap encodeFci) lost = lost ++ es.flatMap decode := by
  induction es generalizing lost with
  | nil => simp [parseFci]
  | cons e es ih =>
    rw [flatMap_cons, length_append, decode, length_cons, length_map] at h
    rw [flatMap_cons, parseFci_encodeFci e _ (by omega), pushBits_eq, ih, flatMap_cons,
      decode]
    · simp
    · simp only [length_append, length_map, length_singleton]
      omega
    · rw [length_append, length_singleton]
      omega

end Parse

section Gather

variable {pid blp : UInt16} {xs s : List UInt16} {n : Nat}

theorem gather_spec (blp : UInt16) (hs : xs.Pairwise (· ≤ ·)) (hle : ∀ x ∈ xs, pid ≤ x) :
    ∃ taken, xs = taken ++ (gather pid xs blp).2 ∧
      (∀ x ∈ taken, x.toNat ≤ pid.toNat + 16) ∧
      (∀ x ∈ (gather pid xs blp).2, pid.toNat + 16 < x.toNat) ∧
        ∀ bit < 16, hasBit (gather pid xs blp).1 bit = true ↔
        hasBit blp bit = true ∨ ∃ x ∈ taken, x.toNat = pid.toNat + bit + 1 := by
  induction xs generalizing blp with
  | nil => exact ⟨[], rfl, nofun, nofun, by simp [gather]⟩
  | cons x xs ih =>
    obtain ⟨hx, hxs⟩ := pairwise_cons.1 hs
    have hpx : pid.toNat ≤ x.toNat := hle x mem_cons_self
    have hdiff : (x - pid).toNat = x.toNat - pid.toNat := UInt16.toNat_sub_of_le _ _ hpx
    have hle' : ∀ y ∈ xs, pid ≤ y := fun y hy => hle y (mem_cons_of_mem x hy)
    rw [gather]
    by_cases hnear : 1 ≤ x - pid ∧ x - pid ≤ 16
    · rw [if_pos hnear]
      have hone : 1 ≤ (x - pid).toNat := UInt16.le_iff_toNat_le.1 hnear.1
      have hmax : (x - pid).toNat ≤ 16 := UInt16.le_iff_toNat_le.1 hnear.2
      have hshift : x - pid - 1 = UInt16.ofNat (x.toNat - pid.toNat - 1) := by
        apply UInt16.toNat_inj.1
        rw [UInt16.toNat_sub_of_le _ _ hnear.1, hdiff, UInt16.toNat_ofNat_of_lt' (by
          change _ < 65536
          omega)]
        rfl
      obtain ⟨taken, hsplit, htaken, hrest, hbits⟩ := ih (blp ||| 1 <<< (x - pid - 1)) hxs hle'
      refine ⟨x :: taken, by rw [cons_append, ← hsplit], ?_, hrest, fun bit hbit => ?_⟩
      · rintro y (- | ⟨-, hy⟩)
        · omega
        · exact htaken y hy
      · rw [hbits bit hbit, hasBit_or, hshift, hasBit_single hbit (by omega), Bool.or_eq_true,
          decide_eq_true_eq, or_assoc]
        have hiff : bit = x.toNat - pid.toNat - 1 ↔ x.toNat = pid.toNat + bit + 1 := by omega
        simp only [hiff, mem_cons, exists_eq_or_imp]
    rw [if_neg hnear]
    by_cases hfar : x - pid > 16
    · rw [if_pos hfar]
      have hgt : 16 < (x - pid).toNat := UInt16.lt_iff_toNat_lt.1 hfar
      refine ⟨[], rfl, nofun, fun y hy => ?_, by simp⟩
      rcases mem_cons.1 hy with rfl | hy
      · omega
      · have hxy : x.toNat ≤ y.toNat := hx y hy
        omega
    · rw [if_neg hfar]
      have hzero : x.toNat = pid.toNat := by
        rw [UInt16.le_iff_toNat_le, UInt16.le_iff_toNat_le] at hnear
        rw [gt_iff_lt, UInt16.lt_iff_toNat_lt] at hfar
        simp only [UInt16.reduceToNat] at hnear hfar
        omega
      obtain ⟨taken, hsplit, htaken, hrest, hbits⟩ := ih blp hxs hle'
      refine ⟨x :: taken, by rw [cons_append, ← hsplit], ?_, hrest, fun bit hbit => ?_⟩
      · rintro y (- | ⟨-, hy⟩)
        · omega
        · exact htaken y hy
      · have hno : ¬ x.toNat = pid.toNat + bit + 1 := by omega
        simp only [hbits bit hbit, mem_cons, exists_eq_or_imp, hno, false_or]

theorem gather_rest (blp : UInt16) (hs : (pid :: xs).Pairwise (· ≤ ·)) :
    (gather pid xs blp).2.Pairwise (· ≤ ·) ∧
      ∀ x, x ∈ (gather pid xs blp).2 ↔ x ∈ xs ∧ pid.toNat + 16 < x.toNat := by
  obtain ⟨hpid, hxs⟩ := pairwise_cons.1 hs
  obtain ⟨taken, hsplit, htaken, hrest, -⟩ := gather_spec blp hxs hpid
  constructor
  · rw [hsplit] at hxs
    exact (pairwise_append.1 hxs).2.1
  · intro x
    constructor
    · intro hx
      refine ⟨?_, hrest x hx⟩
      rw [hsplit]
      exact mem_append_right _ hx
    · rintro ⟨hx, hfar⟩
      rw [hsplit] at hx
      exact (mem_append.1 hx).resolve_left fun h => absurd (htaken x h) (not_le.2 hfar)

theorem decode_gather {taken : List UInt16} (hmask : ∀ bit < 16,
      hasBit blp bit = true ↔ ∃ x ∈ taken, x.toNat = pid.toNat + bit + 1)
    (hle : ∀ x ∈ taken, pid ≤ x) (htaken : ∀ x ∈ taken, x.toNat ≤ pid.toNat + 16) :
    (∀ y, y ∈ decode (pid, blp) ↔ y ∈ pid :: taken) ∧
      (decode (pid, blp)).length ≤ (pid :: taken).length := by
  have hadd : ∀ bit < 16, pid.toNat + bit + 1 < 65536 →
      (pid + (UInt16.ofNat bit + 1)).toNat = pid.toNat + bit + 1 := by
    intro bit hbit hlt
    simp only [UInt16.toNat_add, UInt16.toNat_ofNat', UInt16.reduceToNat]
    omega
  have hsub : ∀ bit ∈ (List.range 16).filter (hasBit blp), ∃ x ∈ taken,
      x = pid + (UInt16.ofNat bit + 1) ∧ x.toNat = pid.toNat + bit + 1 := by
    intro bit hbit
    obtain ⟨hrange, hset⟩ := mem_filter.1 hbit
    obtain ⟨x, hx, heq⟩ := (hmask bit (mem_range.1 hrange)).1 hset
    have hlt := x.toNat_lt
    refine ⟨x, hx, UInt16.toNat_inj.1 ?_, heq⟩
    rw [heq, hadd bit (mem_range.1 hrange) (by omega)]
  constructor
  · intro y
    rw [decode, mem_cons, mem_cons, mem_map]
    constructor
    · rintro (rfl | ⟨bit, hbit, rfl⟩)
      · exact .inl rfl
      · obtain ⟨x, hx, heq, -⟩ := hsub bit hbit
        exact .inr (heq ▸ hx)
    · rintro (rfl | hy)
      · exact .inl rfl
      · have hpy : pid.toNat ≤ y.toNat := hle y hy
        have hmax := htaken y hy
        have hlt := y.toNat_lt
        rcases hpy.eq_or_lt with heq | hgt
        · exact .inl (UInt16.toNat_inj.1 heq.symm)
        · have hbit : y.toNat - pid.toNat - 1 < 16 := by omega
          have hset := (hmask _ hbit).2 ⟨y, hy, by omega⟩
          refine .inr ⟨_, mem_filter.2 ⟨mem_range.2 hbit, hset⟩, UInt16.toNat_inj.1 ?_⟩
          rw [hadd _ hbit (by omega)]
          omega
  · have hnodup : (((List.range 16).filter (hasBit blp)).map
        fun bit => pid + (UInt16.ofNat bit + 1)).Nodup := by
      refine List.Nodup.map_on (fun i hi j hj heq => ?_) (nodup_range.filter _)
      obtain ⟨x, -, hx, hxi⟩ := hsub i hi
      obtain ⟨y, -, hy, hyj⟩ := hsub j hj
      rw [hx, heq, ← hy] at hxi
      omega
    have hsubset : ((List.range 16).filter (hasBit blp)).map
        (fun bit => pid + (UInt16.ofNat bit + 1)) ⊆ taken := by
      intro y hy
      obtain ⟨bit, hbit, rfl⟩ := mem_map.1 hy
      obtain ⟨x, hx, heq, -⟩ := hsub bit hbit
      exact heq ▸ hx
    rw [decode, length_cons, length_cons]
    exact Nat.succ_le_succ (List.Nodup.subperm hnodup hsubset).length_le

def spill : Nat → List UInt16 → List UInt16
  | 0, s => s
  | _ + 1, [] => []
  | n + 1, pid :: xs => spill n (gather pid xs 0).2

theorem fciEntries_spec (hs : s.Pairwise (· ≤ ·)) : ∃ covered, s = covered ++ spill n s ∧
    (∀ y, y ∈ (fciEntries n s).flatMap decode ↔ y ∈ covered) ∧
      ((fciEntries n s).flatMap decode).length ≤ covered.length ∧
        ∀ x ∈ covered, ∀ y ∈ spill n s, x < y := by
  induction n generalizing s with
  | zero => exact ⟨[], rfl, fun y => Iff.rfl, le_rfl, nofun⟩
  | succ n ih =>
    cases s with
    | nil => exact ⟨[], rfl, fun y => Iff.rfl, le_rfl, nofun⟩
    | cons pid xs =>
      obtain ⟨hpid, hxs⟩ := pairwise_cons.1 hs
      obtain ⟨taken, hsplit, htaken, hrest, hmask⟩ := gather_spec 0 hxs hpid
      simp only [hasBit_zero, Bool.false_eq_true, false_or] at hmask
      obtain ⟨covered, hcovered, hmem, hlen, hlt⟩ := ih (gather_rest 0 hs).1
      obtain ⟨hdecode, hdlen⟩ := decode_gather hmask (fun x hx => hpid x (by
        rw [hsplit]
        exact mem_append_left _ hx)) htaken
      refine ⟨pid :: taken ++ covered, ?_, fun y => ?_, ?_, fun x hx y hy => ?_⟩
      · rw [spill, append_assoc, ← hcovered, cons_append, ← hsplit]
      · rw [fciEntries, flatMap_cons, mem_append, mem_append, hdecode, hmem]
      · rw [fciEntries, flatMap_cons, length_append, length_append]
        exact Nat.add_le_add hdlen hlen
      · rw [spill] at hy
        rcases mem_append.1 hx with hx | hx
        · have hfar := hrest y (by rw [hcovered]; exact mem_append_right _ hy)
          have hnear : x.toNat ≤ pid.toNat + 16 := by
            rcases mem_cons.1 hx with rfl | hx
            · exact Nat.le_add_right ..
            · exact htaken x hx
          exact UInt16.lt_iff_toNat_lt.2 (hnear.trans_lt hfar)
        · exact hlt x hx y hy

def Spread (n : Nat) (lost : List UInt16) : Prop :=
  ∃ l : List UInt16, l.length = n ∧ l ⊆ lost ∧ l.Pairwise fun a b => a.toNat + 16 < b.toNat

theorem spread_of_spill (hs : s.Pairwise (· ≤ ·)) (h : spill n s ≠ []) :
    Spread (n + 1) s := by
  induction n generalizing s with
  | zero =>
    cases s with
    | nil => exact absurd rfl h
    | cons x xs => exact ⟨[x], rfl, by simp, pairwise_singleton ..⟩
  | succ n ih =>
    cases s with
    | nil => exact absurd rfl h
    | cons pid xs =>
      obtain ⟨hsorted, hrest⟩ := gather_rest 0 hs
      obtain ⟨l, hlen, hl, hfar⟩ := ih hsorted h
      refine ⟨pid :: l, by rw [length_cons, hlen], ?_, pairwise_cons.2
        ⟨fun y hy => ((hrest y).1 (hl hy)).2, hfar⟩⟩
      exact cons_subset_cons pid fun y hy => ((hrest y).1 (hl hy)).1

theorem spill_of_spread (hs : s.Pairwise (· ≤ ·)) (h : Spread (n + 1) s) :
    spill n s ≠ [] := by
  induction n generalizing s with
  | zero =>
    obtain ⟨l, hlen, hl, -⟩ := h
    obtain ⟨x, rfl⟩ := length_eq_one_iff.1 hlen
    exact ne_nil_of_mem (hl mem_cons_self)
  | succ n ih =>
    obtain ⟨l, hlen, hl, hfar⟩ := h
    obtain ⟨x, l, rfl⟩ := exists_cons_of_length_eq_add_one hlen
    cases s with
    | nil => exact absurd (hl mem_cons_self) not_mem_nil
    | cons pid xs =>
      obtain ⟨hsorted, hrest⟩ := gather_rest 0 hs
      have hpx : pid.toNat ≤ x.toNat := by
        rcases mem_cons.1 (hl mem_cons_self) with rfl | hx
        · exact le_rfl
        · exact (pairwise_cons.1 hs).1 x hx
      obtain ⟨hxl, hfar⟩ := pairwise_cons.1 hfar
      refine ih hsorted ⟨l, Nat.succ.inj hlen, fun y hy => (hrest y).2 ?_, hfar⟩
      have hxy := hxl y hy
      rcases mem_cons.1 (hl (mem_cons_of_mem x hy)) with rfl | hmem
      · omega
      · exact ⟨hmem, by omega⟩

end Gather

section RoundTrip

variable (p : NackPacket)

def sorted : List UInt16 := (p.lostPackets.take maxNackPackets).mergeSort (· ≤ ·)

theorem sorted_pairwise : p.sorted.Pairwise (· ≤ ·) := by
  have h : p.sorted.Pairwise fun a b => decide (a ≤ b) = true := by
    refine pairwise_mergeSort (fun a b c hab hbc => ?_) (fun a b => ?_) _
    · exact decide_eq_true (UInt16.le_trans (of_decide_eq_true hab) (of_decide_eq_true hbc))
    · simpa using UInt16.le_total a b
  exact h.imp of_decide_eq_true

theorem length_entries_le : (p.encodeFciEntries.flatMap decode).length ≤ maxNackPackets := by
  obtain ⟨covered, hcovered, -, hlen, -⟩ :=
    fciEntries_spec (n := maxFciEntries) p.sorted_pairwise
  have hle : covered.length ≤ p.sorted.length := by
    rw [hcovered, length_append]
    exact Nat.le_add_right ..
  rw [sorted, length_mergeSort] at hle
  exact hlen.trans (hle.trans (length_take_le ..))

theorem parse_build : (parse p.build).run =
    some (.ok ⟨p.senderSsrc, p.mediaSsrc, p.encodeFciEntries.flatMap decode⟩) := by
  have hfci : parseFci (p.encodeFciEntries.flatMap encodeFci) [] =
      [] ++ p.encodeFciEntries.flatMap decode :=
    parseFci_flatMap (by simpa using p.length_entries_le)
  have hdrop : p.build.drop 12 = p.encodeFciEntries.flatMap encodeFci := drop_left' (by simp)
  have hfour : p.build.drop 4 = beBytes 4 p.senderSsrc.toNat ++ (beBytes 4 p.mediaSsrc.toNat ++
      p.encodeFciEntries.flatMap encodeFci) := by
    rw [build, append_assoc, append_assoc, drop_left' (by simp)]
  have hsender : be32 p.build 4 = p.senderSsrc :=
    be32_of_slice (slice_of_drop hfour (length_beBytes ..))
  have hmedia : be32 p.build 8 = p.mediaSsrc :=
    be32_of_slice (slice_of_drop (drop_of_drop hfour (length_beBytes ..)) (length_beBytes ..))
  have hlen : 12 ≤ p.build.length := by
    simp only [build, length_append, length_cons, length_beBytes]
    omega
  have hfirst : p.build.getD 0 0 = 129 := rfl
  have hsecond : p.build.getD 1 0 = 205 := rfl
  rw [parse]
  simp only [hfirst, hsecond, hdrop, hfci, hsender, hmedia, nil_append]
  rw [if_neg (by omega), if_neg (by decide), if_neg (by decide), if_neg (by decide),
    assert_eq (decide_eq_true p.length_entries_le)]
  rfl

/-- A packet within the bound comes back as it was, unless more than `maxFciEntries` of its numbers
are too far apart to share an entry. -/
theorem roundTrip_iff (h : p.lostPackets.length ≤ maxNackPackets) :
    (∃ q, (parse p.build).run = some (.ok q) ∧ q.senderSsrc = p.senderSsrc ∧
      q.mediaSsrc = p.mediaSsrc ∧ ∀ n, n ∈ q.lostPackets ↔ n ∈ p.lostPackets) ↔
      ¬ Spread (maxFciEntries + 1) p.lostPackets := by
  have hmem : ∀ n, n ∈ p.sorted ↔ n ∈ p.lostPackets := by
    intro n
    rw [sorted, take_of_length_le h, mem_mergeSort]
  have hspread : Spread (maxFciEntries + 1) p.lostPackets ↔
      spill maxFciEntries p.sorted ≠ [] := by
    have hsame : Spread (maxFciEntries + 1) p.lostPackets ↔
        Spread (maxFciEntries + 1) p.sorted := by
      simp only [Spread, subset_def, hmem]
    rw [hsame]
    exact ⟨spill_of_spread p.sorted_pairwise, spread_of_spill p.sorted_pairwise⟩
  obtain ⟨covered, hcovered, hdecode, -, hlt⟩ :=
    fciEntries_spec (n := maxFciEntries) p.sorted_pairwise
  rw [hspread, not_not]
  constructor
  · rintro ⟨q, hq, -, -, hlost⟩
    rw [parse_build] at hq
    cases hq
    by_contra hspill
    obtain ⟨y, hy⟩ := exists_mem_of_ne_nil _ hspill
    have hsorted : y ∈ p.sorted := by
      rw [hcovered]
      exact mem_append_right _ hy
    exact absurd (hlt y ((hdecode y).1 ((hlost y).2 ((hmem y).1 hsorted))) y hy)
      (UInt16.lt_irrefl y)
  · intro hspill
    refine ⟨_, p.parse_build, rfl, rfl, fun n => ?_⟩
    rw [hspill, append_nil] at hcovered
    rw [← hmem, hcovered]
    exact hdecode n

def strided (n : Nat) : NackPacket := ⟨1, 2, (List.range n).map fun i => UInt16.ofNat (17 * i)⟩

theorem roundTrip_strided : (strided 32).lostPackets.length ≤ maxNackPackets ∧
    ((∃ q, (parse (strided 32).build).run = some (.ok q) ∧
      q.senderSsrc = (strided 32).senderSsrc ∧
      q.mediaSsrc = (strided 32).mediaSsrc ∧ ∀ n, n ∈ q.lostPackets ↔
      n ∈ (strided 32).lostPackets) ↔
      ¬ Spread (maxFciEntries + 1) (strided 32).lostPackets) :=
  ⟨by decide, roundTrip_iff (strided 32) (by decide)⟩

theorem parse_build_strided : (strided 33).lostPackets.length ≤ maxNackPackets ∧
    544 ∈ (strided 33).lostPackets ∧
      (parse (strided 33).build).run = some (.ok (strided 32)) ∧
      544 ∉ (strided 32).lostPackets := by
  have hparse : (parse (strided 33).build).run = some (.ok (strided 32)) := by
    rw [parse_build, encodeFciEntries, mergeSort_of_pairwise (by decide +kernel)]
    decide +kernel
  exact ⟨by decide, by decide +kernel, hparse, by decide +kernel⟩

end RoundTrip
end NackPacket
end NexusSfu.Rtp
