import NexusSfu.Base.Bytes

namespace NexusSfu.Base

open List

structure Tlv where
  kind : UInt16
  value : Bytes
  padding : Bytes
  value_lt : value.length < 2 ^ 16
  aligned : value.length + padding.length = (value.length + 3) / 4 * 4

namespace Tlv

def size (a : Tlv) : Nat := 4 + (a.value.length + 3) / 4 * 4

def encode (a : Tlv) : Bytes :=
  beBytes 2 a.kind.toNat ++ beBytes 2 a.value.length ++ a.value ++ a.padding

def encodeAll (l : List Tlv) : Bytes := l.flatMap encode

variable {a : Tlv} {b rest : Bytes} {i : Nat}

@[simp] theorem length_encode (a : Tlv) : a.encode.length = a.size := by
  have h := a.aligned
  simp only [encode, size, length_append, length_beBytes]
  omega

theorem size_pos (a : Tlv) : 4 ≤ a.size := Nat.le_add_right ..

@[simp] theorem encodeAll_nil : encodeAll [] = [] := rfl

@[simp] theorem encodeAll_cons (a : Tlv) (l : List Tlv) :
    encodeAll (a :: l) = a.encode ++ encodeAll l := rfl

@[simp] theorem encodeAll_append (l l' : List Tlv) :
    encodeAll (l ++ l') = encodeAll l ++ encodeAll l' :=
  flatMap_append

theorem dvd_length_encodeAll (l : List Tlv) : 4 ∣ (encodeAll l).length := by
  induction l with
  | nil => exact ⟨0, rfl⟩
  | cons a l ih =>
    rw [encodeAll_cons, length_append, length_encode, size]
    omega

theorem padding_eq_nil (h : 4 ∣ a.value.length) : a.padding = [] := by
  have hal := a.aligned
  apply eq_nil_of_length_eq_zero
  omega

theorem encode_congr {c : Tlv} (h : 4 ∣ a.value.length) (hkind : a.kind = c.kind)
    (hvalue : a.value = c.value) : a.encode = c.encode := by
  rw [encode, encode, padding_eq_nil h, padding_eq_nil (hvalue ▸ h), hkind, hvalue]

theorem be16_kind (h : b.drop i = a.encode ++ rest) : be16 b i = a.kind := by
  rw [encode, append_assoc, append_assoc, append_assoc] at h
  exact be16_of_slice (slice_of_drop h (length_beBytes ..))

theorem be16_length (h : b.drop i = a.encode ++ rest) :
    (be16 b (i + 2)).toNat = a.value.length := by
  rw [encode, append_assoc, append_assoc, append_assoc] at h
  have hs := slice_of_drop (drop_of_drop h (length_beBytes ..)) (length_beBytes ..)
  rw [be16, hs, beNat_beBytes_of_lt a.value_lt, UInt16.toNat_ofNat_of_lt' a.value_lt]

theorem slice_value (h : b.drop i = a.encode ++ rest) :
    slice b (i + 4) a.value.length = a.value := by
  rw [encode, append_assoc, append_assoc] at h
  exact slice_of_drop (drop_of_drop h (by simp)) rfl

theorem drop_encode (h : b.drop i = a.encode ++ rest) : b.drop (i + a.size) = rest :=
  drop_of_drop h (length_encode a)

theorem le_of_drop (hi : i ≤ b.length) (h : b.drop i = a.encode ++ rest) :
    i + a.size ≤ b.length := by
  have hlen := congrArg List.length h
  simp at hlen
  omega

theorem exists_encode (h : i + 4 ≤ b.length)
    (hnext : i + 4 + ((be16 b (i + 2)).toNat + 3) / 4 * 4 ≤ b.length) :
    ∃ a : Tlv, b.drop i = a.encode ++ b.drop (i + a.size) := by
  have hk := slice_be16 (b := b) (i := i) (by omega)
  have hl := slice_be16 (b := b) (i := i + 2) (by omega)
  generalize hn : (be16 b (i + 2)).toNat = n at *
  have hv : (slice b (i + 4) n).length = n := length_slice (by omega)
  have hp : (slice b (i + 4 + n) ((n + 3) / 4 * 4 - n)).length = (n + 3) / 4 * 4 - n :=
    length_slice (by omega)
  have hlt : n < 2 ^ 16 := hn ▸ (be16 b (i + 2)).toNat_lt
  refine ⟨⟨be16 b i, slice b (i + 4) n, slice b (i + 4 + n) ((n + 3) / 4 * 4 - n), by omega,
    by omega⟩, ?_⟩
  simp only [encode, size, hv]
  rw [← hk, ← hl, append_assoc, append_assoc, append_assoc,
    show i + (4 + (n + 3) / 4 * 4) = i + 4 + n + ((n + 3) / 4 * 4 - n) by omega,
    slice_append_drop, slice_append_drop, slice_append_drop, slice_append_drop]

end Tlv
end NexusSfu.Base
