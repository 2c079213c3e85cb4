import Mathlib.Algebra.Order.BigOperators.Group.List
import NexusSfu.Base.Bytes

namespace NexusSfu.Transport

open Base List

def maxGsoSegments : Nat := 64

def maxGsoBufferSize : Nat := 65535

def canUseGso (packets : List Bytes) : Bool :=
  let segmentSize := (packets.headD []).length
  if packets.length < 2 ∨ packets.length > maxGsoSegments then false
  else if segmentSize = 0 ∨ segmentSize > 1472 then false
  else if packets.dropLast.any fun p => p.length ≠ segmentSize then false
  else if (packets.getLast?.map length).getD 0 > segmentSize then false
  else (packets.map length).sum ≤ maxGsoBufferSize

/-- What `send_with_gso` hands to the kernel. -/
structure GsoMessage where
  concatBuffer : Bytes
  segmentSize : UInt16

def sendWithGso (packets : List Bytes) : GsoMessage where
  concatBuffer := packets.foldl (· ++ ·) []
  segmentSize := UInt16.ofNat (packets.headD []).length

theorem sendWithGso_concatBuffer (packets : List Bytes) :
    (sendWithGso packets).concatBuffer = packets.flatten := by
  simpa [sendWithGso] using @foldl_append_eq_append _ _ packets id []

structure GroPacketIterator where
  data : Bytes
  segmentSize : UInt16
  offset : Nat := 0

namespace GroPacketIterator

def next (it : GroPacketIterator) : Option (Bytes × GroPacketIterator) :=
  if it.offset ≥ it.data.length then none
  else if it.segmentSize = 0 ∨ it.data.length - it.offset ≤ it.segmentSize.toNat then
    some (it.data.drop it.offset, { it with offset := it.data.length })
  else some (slice it.data it.offset it.segmentSize.toNat,
    { it with offset := it.offset + it.segmentSize.toNat })

def packets : Nat → GroPacketIterator → List Bytes
  | 0, _ => []
  | n + 1, it => match it.next with
    | some (packet, it) => packet :: packets n it
    | none => []

theorem packets_of_drop {l : List Bytes} {data : Bytes} {seg : UInt16} {n i : Nat}
    (hpos : ∀ p ∈ l, 0 < p.length) (hall : ∀ p ∈ l.dropLast, p.length = seg.toNat)
    (hlast : (l.getLast?.map length).getD 0 ≤ seg.toNat) (hdrop : data.drop i = l.flatten)
    (hn : l.length ≤ n) : packets n ⟨data, seg, i⟩ = l := by
  induction l generalizing i n with
  | nil =>
    have hend : data.length ≤ i := drop_eq_nil_iff.1 hdrop
    cases n <;> simp [packets, next, hend]
  | cons p l ih =>
    obtain ⟨n, rfl⟩ : ∃ m, n = m + 1 := Nat.exists_eq_add_of_le' (Nat.le_of_add_left_le hn)
    have hp := hpos p mem_cons_self
    have hlen := congrArg length hdrop
    rw [length_drop, flatten_cons, length_append] at hlen
    rw [packets, next, if_neg (by simp; omega)]
    replace hn := Nat.le_of_succ_le_succ hn
    cases l with
    | nil =>
      have hle : p.length ≤ seg.toNat := hlast
      rw [if_pos (.inr (by simp at hlen ⊢; omega))]
      dsimp only
      rw [hdrop, ih (by simp) (by simp) (by simp) (by simp) hn, flatten_singleton]
    | cons q l =>
      have hsize := hall p mem_cons_self
      have hq := hpos q (mem_cons_of_mem _ mem_cons_self)
      rw [flatten_cons, length_append] at hlen
      rw [if_neg (by rw [UInt16.ext_iff]; simp; omega)]
      dsimp only
      rw [slice, hdrop, flatten_cons, ← hsize, take_left]
      rw [ih (fun r hr => hpos r (mem_cons_of_mem _ hr))
        (fun r hr => hall r (mem_cons_of_mem _ hr)) hlast _ hn]
      rw [← drop_drop, hdrop, flatten_cons, drop_left]

end GroPacketIterator

structure GroSplitter where
  segmentSize : UInt16

namespace GroSplitter

def new (segmentSize : UInt16) : Option GroSplitter :=
  if (segmentSize = 0 ∨ segmentSize ≥ 64) ∧ segmentSize ≤ 1472 then some ⟨segmentSize⟩
  else none

def split (s : GroSplitter) (data : Bytes) : Option (List Bytes) :=
  if data = [] then none
  else some (GroPacketIterator.packets data.length ⟨data, s.segmentSize, 0⟩)

end GroSplitter

theorem split_joined {packets : List Bytes} {s : GroSplitter} (hdata : ∀ p ∈ packets, p ≠ [])
    (hgso : canUseGso packets = true)
    (hnew : GroSplitter.new (sendWithGso packets).segmentSize = some s) :
    s.split (sendWithGso packets).concatBuffer = some packets := by
  rw [sendWithGso_concatBuffer]
  simp only [canUseGso] at hgso
  split_ifs at hgso with hcount hsize hall hlast
  have hseg : s.segmentSize.toNat = (packets.headD []).length := by
    unfold GroSplitter.new at hnew
    split_ifs at hnew
    cases hnew
    exact UInt16.toNat_ofNat_of_lt' (lt_of_le_of_lt (by omega : _ ≤ 1472) (by decide))
  have hpos : ∀ p ∈ packets, 0 < p.length := fun p hp => length_pos_iff.2 (hdata p hp)
  have hle : packets.length ≤ packets.flatten.length := by
    rw [length_flatten]
    exact (length_map _).symm.le.trans (length_le_sum_of_one_le _ (forall_mem_map.2 hpos))
  rw [GroSplitter.split, if_neg (length_pos_iff.1 (by omega))]
  refine congrArg some (GroPacketIterator.packets_of_drop hpos (fun p hp => ?_) (by omega) rfl hle)
  simpa [hseg] using fun h => hall (any_eq_true.2 ⟨p, hp, h⟩)

theorem split_joined_pair : ∃ s, GroSplitter.new 64 = some s ∧
    sendWithGso [replicate 64 1, [2]] = ⟨replicate 64 1 ++ [2], 64⟩ ∧
    s.split (replicate 64 1 ++ [2]) = some [replicate 64 1, [2]] :=
  ⟨⟨64⟩, rfl, rfl, @split_joined [replicate 64 1, [2]] ⟨64⟩ (by decide) (by decide) rfl⟩

end NexusSfu.Transport
