import NexusSfu.Dataplane.Shard.Net

namespace NexusSfu.Dataplane

open Base Prog List

namespace BufferPool

variable {p : BufferPool} {b : Nat}

@[simp] theorem write_free (bytes : Bytes) : (p.write b bytes).free = p.free := rfl

@[simp] theorem write_capacity (bytes : Bytes) : (p.write b bytes).capacity = p.capacity := by
  simp [write, capacity]

theorem length_buf_of_lt (h : b < p.capacity) : (p.buf b).length = bufSize := by
  have hlt : b < p.memory.length := h
  simp only [buf, List.getD, getElem?_eq_getElem hlt, Option.getD_some]
  exact p.length_buf _ (getElem_mem hlt)

theorem put_of_out {l : List Nat} (hnodup : (b :: l ++ p.free).Nodup)
    (hlt : ∀ c ∈ b :: l ++ p.free, c < p.capacity) :
    p.put b = some { p with free := b :: p.free } := by
  have hb := (nodup_cons.1 hnodup).1
  have hsub : (b :: p.free).Sublist (b :: l ++ p.free) :=
    (sublist_append_right l p.free).cons_cons b
  have hle := ((hnodup.sublist hsub).subperm fun c hc =>
    mem_range.2 (hlt c (hsub.subset hc))).length_le
  rw [length_cons, length_range] at hle
  exact if_pos ⟨hlt b mem_cons_self, fun hmem => hb (mem_append_right l hmem), hle⟩

end BufferPool

namespace Net

variable {ι : Type} {net net' : Net ι} {held : List Nat} {b : Nat} {d : Datagram}

structure Owned (held : List Nat) (net : Net ι) : Prop where
  once : ∀ b, held.count b + net.pool.free.count b + (net.rx.map Datagram.buf).count b +
    (net.tx.map Datagram.buf).count b = if b < net.pool.capacity then 1 else 0
  rx_le : net.rx.length ≤ recvBatch
  tx_le : net.tx.length ≤ sendBatch
  fits : ∀ d ∈ net.rx ++ net.tx, d.len ≤ bufSize

structure SameBatches (net net' : Net ι) : Prop where
  rx : net'.rx = net.rx
  tx : net'.tx = net.tx
  capacity : net'.pool.capacity = net.pool.capacity

theorem Owned.lt_of_held (h : net.Owned held) (hb : b ∈ held) : b < net.pool.capacity := by
  have honce := h.once b
  have hpos := count_pos_iff.2 hb
  split_ifs at honce with hlt
  · exact hlt
  · omega

theorem nodup_lt_of_count_le {l : List Nat} {n : Nat}
    (h : ∀ c, l.count c ≤ if c < n then 1 else 0) : l.Nodup ∧ ∀ c ∈ l, c < n := by
  refine ⟨nodup_iff_count_le_one.2 fun c => (h c).trans (by split_ifs <;> omega),
    fun c hc => ?_⟩
  have hpos := count_pos_iff.2 hc
  have hle := h c
  split_ifs at hle with hlt
  · exact hlt
  · omega

theorem Owned.nodup (h : net.Owned held) : held.Nodup := by
  refine nodup_iff_count_le_one.2 fun b => ?_
  have honce := h.once b
  split_ifs at honce <;> omega

theorem Owned.free_ne_nil (h : net.Owned [])
    (hroom : net.rx.length + net.tx.length < net.pool.capacity) :
    net.pool.free ≠ [] := by
  intro hfree
  have hsub : List.range net.pool.capacity ⊆ net.rx.map Datagram.buf ++
      net.tx.map Datagram.buf := by
    intro b hb
    have honce := h.once b
    rw [hfree, if_pos (mem_range.1 hb), count_nil, Nat.zero_add] at honce
    rw [← count_pos_iff, count_append]
    omega
  have hlen := (nodup_range.subperm hsub).length_le
  simp only [length_range, length_append, length_map] at hlen
  omega

theorem Owned.length_buf (h : net.Owned held) (hb : b ∈ held) :
    (net.pool.buf b).length = bufSize :=
  BufferPool.length_buf_of_lt (h.lt_of_held hb)

theorem Owned.moved {held' : List Nat} (h : net.Owned held)
    (hcap : net'.pool.capacity = net.pool.capacity)
    (hcount : ∀ b, held'.count b + net'.pool.free.count b + (net'.rx.map Datagram.buf).count b +
      (net'.tx.map Datagram.buf).count b = held.count b + net.pool.free.count b +
      (net.rx.map Datagram.buf).count b + (net.tx.map Datagram.buf).count b)
    (hrx : net'.rx.length ≤ recvBatch) (htx : net'.tx.length ≤ sendBatch)
    (hfits : ∀ d ∈ net'.rx ++ net'.tx, d.len ≤ bufSize) : net'.Owned held' :=
  ⟨fun b => by rw [hcount, hcap, h.once], hrx, htx, hfits⟩

theorem Owned.write (h : net.Owned held) (bytes : Bytes) :
    { net with pool := net.pool.write b bytes }.Owned held :=
  ⟨by simpa using h.once, h.rx_le, h.tx_le, h.fits⟩

theorem take_spec (h : net.Owned held) {Q : Option Nat → Net ι → Prop} (hnone : Q none net)
    (hsome : ∀ b net', net'.Owned (b :: held) → net.SameBatches net' → Q (some b) net') :
    Ends take net Q := by
  rw [take, ends_bind, ends_get, BufferPool.take]
  cases hfree : net.pool.free with
  | nil => exact ends_pure.2 hnone
  | cons b free =>
    simp only [ends_bind, ends_set]
    refine ends_pure.2
      (hsome b _ (h.moved rfl (fun c => ?_) h.rx_le h.tx_le h.fits) ⟨rfl, rfl, rfl⟩)
    simp only [hfree, count_cons]
    omega

theorem put_spec (h : net.Owned (b :: held)) {Q : Unit → Net ι → Prop}
    (hq : ∀ net', net'.Owned held → net.SameBatches net' → Q () net') :
    Ends (put b) net Q := by
  have hlt := h.lt_of_held mem_cons_self
  obtain ⟨hnodup, hout⟩ : (b :: net.pool.free).Nodup ∧ _ := nodup_lt_of_count_le fun c => by
    rw [← h.once c, count_cons, count_cons]
    omega
  have hfree : b ∉ net.pool.free := (nodup_cons.1 hnodup).1
  have hlen : net.pool.free.length < net.pool.capacity := by
    simpa [Nat.succ_le_iff] using
      (hnodup.subperm fun c hc => mem_range.2 (hout c hc)).length_le
  simp only [put, ends_bind, ends_get, ends_expect, ends_set, BufferPool.put]
  refine ⟨_, if_pos ⟨hlt, hfree, hlen⟩,
    hq _ (h.moved rfl (fun c => ?_) h.rx_le h.tx_le h.fits) ⟨rfl, rfl, rfl⟩⟩
  simp only [count_cons]
  omega

theorem data_spec {len : Nat} (hlen : len ≤ bufSize) {Q : Bytes → Net ι → Prop}
    (hq : ∀ bytes, Q bytes net) : Ends (data b len) net Q := by
  simp only [data, buf, ends_bind, ends_assert, decide_eq_true_eq]
  exact ⟨hlen, ends_get.2 (ends_pure.2 (ends_pure.2 (hq _)))⟩

theorem push_spec (h : net.Owned (d.buf :: held)) (hroom : net.tx.length < sendBatch)
    (hlen : d.len ≤ bufSize) {Q : Unit → Net ι → Prop}
    (hq : ∀ net', net'.Owned held → net'.rx = net.rx → net'.pool = net.pool → Q () net') :
    Ends (push d) net Q := by
  have hfull : (!net.txIsFull) = true := by
    simpa [txIsFull] using Nat.ne_of_lt hroom
  simp only [push, ends_bind, ends_get, ends_assert, ends_set, decide_eq_true_eq]
  refine ⟨hfull, hlen, hq _ (h.moved rfl (fun c => ?_) h.rx_le ?_ fun e he => ?_) rfl rfl⟩
  · simp only [map_append, map_cons, map_nil, count_append, count_cons,
      count_nil]
    omega
  · simpa [Nat.succ_le_iff] using hroom
  · rw [← append_assoc, mem_append, mem_singleton] at he
    rcases he with he | rfl
    · exact h.fits e he
    · exact hlen

theorem nextReceived_spec (h : net.Owned held) {Q : Option Datagram → Net ι → Prop}
    (hnone : net.rx = [] → Q none net)
    (hsome : ∀ d rx net', net.rx = d :: rx → d.len ≤ bufSize →
      net'.Owned (d.buf :: held) →
      net'.rx = rx → net'.pool.capacity = net.pool.capacity → Q (some d) net') :
    Ends nextReceived net Q := by
  rw [nextReceived, ends_bind, ends_get]
  cases hrx : net.rx with
  | nil => exact ends_pure.2 (hnone hrx)
  | cons d rx =>
    simp only [ends_bind, ends_set]
    have hfits : ∀ e ∈ d :: rx ++ net.tx, e.len ≤ bufSize := hrx ▸ h.fits
    refine ends_pure.2 (hsome d rx _ hrx (hfits d (by simp)) (h.moved rfl (fun c => ?_) ?_
      h.tx_le fun e he => hfits e (mem_cons_of_mem _ he)) rfl rfl)
    · simp only [hrx, map_cons, count_cons]
      omega
    · have := h.rx_le
      rw [hrx, length_cons] at this
      exact Nat.le_of_succ_le this

variable [DatagramIo ι] [LawfulIo ι]

theorem flush_spec (h : net.Owned held) {Q : Nat × Sent → Net ι → Prop}
    (hq : ∀ r net', net'.Owned held → net'.tx = [] → net'.rx = net.rx →
      net'.pool.capacity = net.pool.capacity → Q r net') : Ends flush net Q := by
  obtain ⟨hnodup, hlt⟩ : (net.tx.map Datagram.buf ++ net.pool.free).Nodup ∧ _ :=
    nodup_lt_of_count_le fun c => by
      rw [count_append, ← h.once c]
      omega
  obtain ⟨sent, io, pool, hflush, hsent, hcap, hperm⟩ := LawfulIo.flush net.io net.tx net.pool
    h.tx_le hnodup hlt
    (fun d hd => h.fits d (mem_append_right _ hd))
  simp only [flush, ends_bind, ends_get, ends_expect, ends_assert, ends_set]
  refine ⟨_, hflush, by simpa using hsent, ends_pure.2 (hq _ _ (h.moved hcap (fun c => ?_) h.rx_le
    (Nat.zero_le _) fun d hd => h.fits d (mem_append_left _ (by simpa using hd))) rfl rfl hcap)⟩
  have := hperm.count_eq c
  rw [count_append] at this
  simp only [map_nil, count_nil]
  omega

theorem receive_spec (h : net.Owned held) (hrx : net.rx = [])
    {Q : Except Unit RecvResult → Net ι → Prop}
    (hq : ∀ r net', net'.Owned held → (RecvResult.ofCall r).received = net'.rx.length →
      net'.tx = net.tx → net'.pool.capacity = net.pool.capacity → Q r net') :
    Ends receive net Q := by
  obtain ⟨hnodup, hlt⟩ : net.pool.free.Nodup ∧ _ := nodup_lt_of_count_le fun c => by
    rw [← h.once c]
    omega
  obtain ⟨r, io, ds, pool, hrecv, hnum, hle, hfits, hcap, hperm⟩ :=
    LawfulIo.recv net.io net.rx net.pool h.rx_le hnodup hlt
  simp only [receive, ends_bind, ends_get, ends_expect, ends_set]
  rw [hrx, nil_append] at hle
  refine ⟨_, hrecv,
    ends_pure.2 (hq r _ (h.moved hcap (fun c => ?_) (by rw [hrx]; exact hle) h.tx_le
    fun d hd => ?_) (by rw [hrx]; exact hnum) rfl hcap)⟩
  · have := hperm.count_eq c
    rw [count_append] at this
    simp only [hrx, nil_append, map_nil, count_nil]
    omega
  · rw [hrx, nil_append] at hd
    rcases mem_append.1 hd with hd | hd
    · exact hfits d hd
    · exact h.fits d (mem_append_right _ hd)

end Net
end NexusSfu.Dataplane
