import Mathlib.Tactic.Ring

namespace NexusSfu.Base

open List

abbrev Bytes := List UInt8

def slice (b : Bytes) (i k : Nat) : Bytes := (b.drop i).take k

def writeAt (b : Bytes) (i : Nat) (bs : Bytes) : Bytes :=
  b.take i ++ bs ++ b.drop (i + bs.length)

def xorBytes (a m : Bytes) : Bytes := List.zipWith (· ^^^ ·) a m

def xorAt (b : Bytes) (i : Nat) (m : Bytes) : Bytes :=
  writeAt b i (xorBytes (slice b i m.length) m)

def beBytes : Nat → Nat → Bytes
  | 0, _ => []
  | k + 1, n => UInt8.ofNat (n / 256 ^ k) :: beBytes k n

def beNat : Bytes → Nat
  | [] => 0
  | x :: xs => 256 ^ xs.length * x.toNat + beNat xs

def be16 (b : Bytes) (i : Nat) : UInt16 := UInt16.ofNat (beNat (slice b i 2))

def be32 (b : Bytes) (i : Nat) : UInt32 := UInt32.ofNat (beNat (slice b i 4))

section Slice

variable {b bs : Bytes} {i j k n : Nat}

theorem length_slice (h : i + k ≤ b.length) : (slice b i k).length = k := by
  simp only [slice, length_take, length_drop]
  omega

theorem length_slice_le : (slice b i k).length ≤ k := length_take_le ..

theorem length_writeAt (h : i + bs.length ≤ b.length) : (writeAt b i bs).length = b.length := by
  simp only [writeAt, length_append, length_take, length_drop]
  omega

theorem slice_writeAt_within (h : i + bs.length ≤ b.length) (hj : j + k ≤ bs.length) :
    slice (writeAt b i bs) (i + j) k = slice bs j k := by
  have hi : (b.take i).length = i := by simp; omega
  rw [slice, slice, writeAt, append_assoc, drop_append, hi,
    drop_eq_nil_of_le (by omega), nil_append, Nat.add_sub_cancel_left,
    drop_append_of_le_length (by omega), take_append_of_le_length (by simp; omega)]

theorem slice_writeAt_self (h : i + bs.length ≤ b.length) (hk : bs.length = k) :
    slice (writeAt b i bs) i k = bs := by
  have hs := slice_writeAt_within (j := 0) (k := k) h (by omega)
  simpa [slice, ← hk] using hs

theorem take_writeAt (h : i ≤ b.length) (hj : j ≤ i) : (writeAt b i bs).take j = b.take j := by
  have hi : (b.take i).length = i := by simp; omega
  rw [writeAt, append_assoc, take_append_of_le_length (by omega), take_take,
    Nat.min_eq_left hj]

theorem drop_writeAt (h : i ≤ b.length) (hj : i + bs.length ≤ j) :
    (writeAt b i bs).drop j = b.drop j := by
  have hi : (b.take i ++ bs).length = i + bs.length := by simp; omega
  rw [writeAt, drop_append, hi, drop_eq_nil_of_le (by omega), nil_append,
    drop_drop]
  congr 1
  omega

theorem slice_take (h : i + k ≤ n) : slice (b.take n) i k = slice b i k := by
  rw [slice, slice, drop_take, take_take, Nat.min_eq_left (by omega)]

theorem slice_congr {c : Bytes} (hb : b.take n = c.take n) (h : i + k ≤ n) :
    slice b i k = slice c i k := by
  rw [← slice_take h, hb, slice_take h]

theorem getD_congr {c : Bytes} (hb : b.take n = c.take n) (h : i < n) :
    b.getD i 0 = c.getD i 0 := by
  have hi := congrArg (fun l => l[i]?) hb
  simp only [getElem?_take, if_pos h] at hi
  simp [List.getD, hi]

theorem take_slice (h : j ≤ k) : (slice b i k).take j = slice b i j := by
  rw [slice, slice, take_take, Nat.min_eq_left h]

theorem drop_slice (b : Bytes) (i j k : Nat) : (slice b i (j + k)).drop j = slice b (i + j) k := by
  rw [slice, slice, drop_take, drop_drop, Nat.add_sub_cancel_left]

theorem slice_append_drop (b : Bytes) (i k : Nat) : slice b i k ++ b.drop (i + k) = b.drop i := by
  rw [slice, ← drop_drop, take_append_drop]

theorem slice_of_drop {a : Bytes} (h : b.drop i = a ++ bs) (ha : a.length = k) :
    slice b i k = a := by
  rw [slice, h, take_left' ha]

theorem drop_of_drop {a : Bytes} (h : b.drop i = a ++ bs) (ha : a.length = k) :
    b.drop (i + k) = bs := by
  rw [← drop_drop, h, drop_left' ha]

theorem take_add_slice (b : Bytes) (i k : Nat) : b.take (i + k) = b.take i ++ slice b i k :=
  take_add

theorem take_writeAt_end (h : i ≤ b.length) (hk : bs.length = k) :
    (writeAt b i bs).take (i + k) = b.take i ++ bs := by
  have hi : (b.take i).length = i := by simp; omega
  rw [writeAt, take_append_of_le_length (by simp; omega), take_of_length_le (by simp; omega)]

theorem slice_append_left (h : i + k ≤ b.length) : slice (b ++ bs) i k = slice b i k := by
  rw [slice, slice, drop_append_of_le_length (by omega),
    take_append_of_le_length (by simp; omega)]

theorem slice_writeAt_before (h : i ≤ b.length) (hj : j + k ≤ i) :
    slice (writeAt b i bs) j k = slice b j k := by
  rw [← slice_take (n := i) hj, take_writeAt h le_rfl, slice_take hj]

theorem slice_writeAt_after (h : i ≤ b.length) (hj : i + bs.length ≤ j) :
    slice (writeAt b i bs) j k = slice b j k := by
  rw [slice, slice, drop_writeAt h hj]

@[simp] theorem writeAt_nil (b : Bytes) (i : Nat) : writeAt b i [] = b := by
  simp [writeAt]

theorem writeAt_append {c : Bytes} (hk : bs.length = k) (h : i + k ≤ b.length) :
    writeAt (writeAt b i bs) (i + k) c = writeAt b i (bs ++ c) := by
  have hi : i ≤ b.length := by omega
  rw [writeAt, take_writeAt_end hi hk, drop_writeAt hi (by omega), writeAt, length_append, hk,
    append_assoc (b.take i), Nat.add_assoc]

theorem writeAt_prepend {c : Bytes} (hk : bs.length = k) (h : i + k ≤ b.length) :
    writeAt (writeAt b (i + k) c) i bs = writeAt b i (bs ++ c) := by
  have hd : (writeAt b (i + k) c).drop (i + k) = c ++ b.drop (i + k + c.length) := by
    rw [writeAt, append_assoc, drop_left' (by simp; omega)]
  rw [writeAt, hk, take_writeAt h (by omega), hd, writeAt, length_append, hk, Nat.add_assoc,
    append_assoc, append_assoc, append_assoc]

end Slice

section Xor

variable {a b m m' : Bytes} {i j k : Nat}

theorem length_xorBytes (h : a.length = m.length) : (xorBytes a m).length = m.length := by
  simp [xorBytes, h]

theorem xorBytes_cancel (h : a.length = m.length) (h' : a.length = m'.length)
    (e : xorBytes a m = xorBytes a m') : m = m' := by
  apply ext_getElem (by omega)
  intro n hn hn'
  have hget := congrArg (fun l => l[n]?) e
  simpa [xorBytes, getElem?_zipWith, h ▸ hn, hn, hn'] using hget

theorem length_xorAt (h : i + m.length ≤ b.length) : (xorAt b i m).length = b.length := by
  have hx := length_xorBytes (length_slice h)
  exact length_writeAt (by omega)

theorem slice_xorAt_self (h : i + m.length ≤ b.length) :
    slice (xorAt b i m) i m.length = xorBytes (slice b i m.length) m := by
  have hx := length_xorBytes (length_slice h)
  exact slice_writeAt_self (by omega) hx

theorem slice_xorAt_before (h : i + m.length ≤ b.length) (hj : j + k ≤ i) :
    slice (xorAt b i m) j k = slice b j k :=
  slice_writeAt_before (by omega) hj

theorem xorAt_cancel (h : i + m.length ≤ b.length) (hm : m.length = m'.length)
    (e : slice (xorAt b i m) i m.length = slice (xorAt b i m') i m.length) : m = m' := by
  rw [slice_xorAt_self h, hm, slice_xorAt_self (by omega)] at e
  have hs := length_slice h
  exact xorBytes_cancel (hm ▸ hs) (by rw [← hm, hs, hm]) e

theorem xorAt_xorAt_cancel {l l' : Bytes} (hl : l.length = l'.length) (hm : m.length = m'.length)
    (hi : i + l.length ≤ j) (hj : j + m.length ≤ k) (hk : k ≤ b.length)
    (e : (xorAt (xorAt b i l) j m).take k = (xorAt (xorAt b i l') j m').take k) :
    l = l' ∧ m = m' := by
  have hb := length_xorAt (b := b) (m := l) (i := i) (by omega)
  have hb' := length_xorAt (b := b) (m := l') (i := i) (by omega)
  have hll : l = l' := by
    have hs := congrArg (slice · i l.length) e
    simp only [slice_take (show i + l.length ≤ k by omega)] at hs
    rw [slice_xorAt_before (by omega) hi, slice_xorAt_before (by omega) hi] at hs
    exact xorAt_cancel (by omega) hl hs
  subst hll
  refine ⟨rfl, ?_⟩
  have hs := congrArg (slice · j m.length) e
  simp only [slice_take hj] at hs
  exact xorAt_cancel (by omega) hm hs

end Xor

section BigEndian

variable {b : Bytes} {i k n n' : Nat}

@[simp] theorem length_beBytes (k n : Nat) : (beBytes k n).length = k := by
  induction k with
  | zero => rfl
  | succ k ih => simp [beBytes, ih]

theorem beNat_beBytes (k n : Nat) : beNat (beBytes k n) = n % 256 ^ k := by
  induction k with
  | zero => simp [beBytes, beNat, Nat.mod_one]
  | succ k ih =>
    rw [beBytes, beNat, length_beBytes, ih, UInt8.toNat_ofNat',
      Nat.mod_pow_succ (b := 256), Nat.add_comm]

theorem beNat_beBytes_of_lt (h : n < 256 ^ k) : beNat (beBytes k n) = n := by
  rw [beNat_beBytes, Nat.mod_eq_of_lt h]

theorem beBytes_inj (h : n < 256 ^ k) (h' : n' < 256 ^ k) (e : beBytes k n = beBytes k n') :
    n = n' := by
  rw [← beNat_beBytes_of_lt h, e, beNat_beBytes_of_lt h']

theorem beNat_lt (b : Bytes) : beNat b < 256 ^ b.length := by
  induction b with
  | nil => simp [beNat]
  | cons x xs ih =>
    have hx := x.toNat_lt
    calc beNat (x :: xs) < 256 ^ xs.length * x.toNat + 256 ^ xs.length := by
          rw [beNat]
          omega
      _ ≤ 256 ^ xs.length * 256 := by
          rw [← Nat.mul_succ]
          exact Nat.mul_le_mul_left _ (by omega)

theorem beBytes_mod (k n : Nat) : beBytes k (n % 256 ^ k) = beBytes k n := by
  have h : ∀ j ≤ k, beBytes j (n % 256 ^ k) = beBytes j n := by
    intro j hj
    induction j with
    | zero => rfl
    | succ j ih =>
      rw [beBytes, beBytes, ih (by omega)]
      congr 1
      apply UInt8.toNat_inj.1
      obtain ⟨i, rfl⟩ := Nat.exists_eq_add_of_le hj
      rw [UInt8.toNat_ofNat', UInt8.toNat_ofNat', show j + 1 + i = j + (i + 1) by omega,
        Nat.pow_add, Nat.mod_mul_right_div_self]
      exact Nat.mod_mod_of_dvd _ (by rw [Nat.pow_succ]; exact Nat.dvd_mul_left 256 _)
  exact h k le_rfl

theorem beBytes_beNat (b : Bytes) : beBytes b.length (beNat b) = b := by
  induction b with
  | nil => rfl
  | cons x xs ih =>
    have hpos : 0 < 256 ^ xs.length := Nat.pow_pos (by omega)
    rw [length_cons, beBytes, beNat, Nat.mul_add_div hpos, Nat.div_eq_of_lt (beNat_lt xs),
      Nat.add_zero, UInt8.ofNat_toNat, ← beBytes_mod, Nat.mul_add_mod, beBytes_mod, ih]

theorem slice_be16 (h : i + 2 ≤ b.length) : slice b i 2 = beBytes 2 (be16 b i).toNat := by
  have hlen := length_slice h
  have hlt := beNat_lt (slice b i 2)
  rw [hlen] at hlt
  rw [be16, UInt16.toNat_ofNat_of_lt' hlt]
  exact (hlen ▸ beBytes_beNat (slice b i 2)).symm

theorem slice_be32 (h : i + 4 ≤ b.length) : slice b i 4 = beBytes 4 (be32 b i).toNat := by
  have hlen := length_slice h
  have hlt := beNat_lt (slice b i 4)
  rw [hlen] at hlt
  rw [be32, UInt32.toNat_ofNat_of_lt' hlt]
  exact (hlen ▸ beBytes_beNat (slice b i 4)).symm

theorem be16_of_slice {x : UInt16} (h : slice b i 2 = beBytes 2 x.toNat) : be16 b i = x := by
  rw [be16, h, beNat_beBytes_of_lt x.toNat_lt, UInt16.ofNat_toNat]

theorem be32_of_slice {x : UInt32} (h : slice b i 4 = beBytes 4 x.toNat) : be32 b i = x := by
  rw [be32, h, beNat_beBytes_of_lt x.toNat_lt, UInt32.ofNat_toNat]

end BigEndian
end NexusSfu.Base
