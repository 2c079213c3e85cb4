import NexusSfu.Dataplane.Shard.Ownership
import NexusSfu.Dataplane.Shard.State

namespace NexusSfu.Dataplane

open Base List

structure MemIo where
  inbound : List (SocketAddr × Bytes)
  out : List (SocketAddr × Bytes)
  droppedOversize : Nat

namespace MemIo

def new : MemIo := ⟨[], [], 0⟩

def receive : List (SocketAddr × Bytes) → List Datagram → BufferPool →
    List (SocketAddr × Bytes) × List Datagram × BufferPool × Nat
  | [], rx, pool => ([], rx, pool, 0)
  | (addr, bytes) :: inbound, rx, pool =>
    if rx.length = recvBatch then ((addr, bytes) :: inbound, rx, pool, 0)
    else if bytes.length > bufSize then
      let (rest, rx, pool, dropped) := receive inbound rx pool
      (rest, rx, pool, dropped + 1)
    else
      match pool.take with
      | none => ((addr, bytes) :: inbound, rx, pool, 0)
      | some (b, pool) => receive inbound (rx ++ [⟨b, bytes.length, addr⟩]) (pool.write b bytes)

def capture : List Datagram → List (SocketAddr × Bytes) → BufferPool →
    Option (List (SocketAddr × Bytes) × BufferPool)
  | [], out, pool => some (out, pool)
  | d :: tx, out, pool =>
    if d.len ≤ bufSize then
      (pool.put d.buf).bind (capture tx (out ++ [(d.addr, (pool.buf d.buf).take d.len)]))
    else none

instance : DatagramIo MemIo where
  recvBatch io rx pool :=
    let (inbound, rx', pool, dropped) := receive io.inbound rx pool
    some (.ok ⟨rx'.length - rx.length, inbound.isEmpty, dropped, 0⟩,
      { io with inbound, droppedOversize := io.droppedOversize + dropped }, rx', pool)
  flush io tx pool :=
    (capture tx io.out pool).map fun (out, pool) =>
      (⟨tx.length, (tx.map Datagram.len).sum⟩, { io with out }, [], pool)

theorem receive_spec (inbound : List (SocketAddr × Bytes)) :
    ∀ (rx : List Datagram) (pool : BufferPool),
    rx.length ≤ recvBatch → ∃ rest ds pool' dropped,
      receive inbound rx pool = (rest, rx ++ ds, pool', dropped) ∧
        (rx ++ ds).length ≤ recvBatch ∧
      (∀ d ∈ ds, d.len ≤ bufSize) ∧ pool'.capacity = pool.capacity ∧
      (ds.map Datagram.buf ++ pool'.free).Perm pool.free := by
  induction inbound with
  | nil =>
    exact fun rx pool hrx =>
      ⟨[], [], pool, 0, by simp [receive], by simpa using hrx, by simp, rfl, .refl _⟩
  | cons p inbound ih =>
    obtain ⟨addr, bytes⟩ := p
    intro rx pool hrx
    have hstop : ∃ rest ds pool' dropped, (((addr, bytes) :: inbound, rx, pool, 0) :
        List (SocketAddr × Bytes) × List Datagram × BufferPool × Nat) = (rest, rx ++ ds,
        pool', dropped) ∧ (rx ++ ds).length ≤ recvBatch ∧
        (∀ d ∈ ds, d.len ≤ bufSize) ∧ pool'.capacity = pool.capacity ∧
        (ds.map Datagram.buf ++ pool'.free).Perm pool.free :=
      ⟨(addr, bytes) :: inbound, [], pool, 0, by simp, by simpa using hrx, by simp,
        rfl, .refl _⟩
    rw [receive]
    split_ifs with hfull hlong
    · exact hstop
    · obtain ⟨rest, ds, pool', dropped, hrec, hle, hfits, hcap, hperm⟩ := ih rx pool hrx
      exact ⟨rest, ds, pool', dropped + 1, by rw [hrec], hle, hfits, hcap, hperm⟩
    · cases htake : pool.take with
      | none => exact hstop
      | some q =>
        obtain ⟨b, pool₁⟩ := q
        obtain ⟨hfree, hcap₁⟩ : pool.free = b :: pool₁.free ∧
            pool₁.capacity = pool.capacity := by
          rw [BufferPool.take] at htake
          split at htake
          · cases htake
          · cases htake
            exact ⟨‹_›, rfl⟩
        obtain ⟨rest, ds, pool', dropped, hrec, hle, hfits, hcap, hperm⟩ :=
          ih (rx ++ [⟨b, bytes.length, addr⟩]) (pool₁.write b bytes) (by
            rw [length_append, length_singleton]
            omega)
        refine ⟨rest, ⟨b, bytes.length, addr⟩ :: ds, pool', dropped, ?_, ?_, ?_, ?_, ?_⟩
        · simpa using hrec
        · simpa using hle
        · exact forall_mem_cons.2 ⟨by simpa using hlong, hfits⟩
        · rw [hcap, BufferPool.write_capacity, hcap₁]
        · rw [hfree]
          exact hperm.cons b

theorem capture_spec (tx : List Datagram) :
    ∀ (out : List (SocketAddr × Bytes)) (pool : BufferPool),
    (tx.map Datagram.buf ++ pool.free).Nodup →
    (∀ b ∈ tx.map Datagram.buf ++ pool.free, b < pool.capacity) →
      (∀ d ∈ tx, d.len ≤ bufSize) →
    ∃ out' pool', capture tx out pool = some (out', pool') ∧ pool'.capacity = pool.capacity ∧
      pool'.free.Perm (tx.map Datagram.buf ++ pool.free) := by
  induction tx with
  | nil => exact fun out pool _ _ _ => ⟨out, pool, rfl, rfl, .refl _⟩
  | cons d tx ih =>
    intro out pool hnodup hlt hfits
    have hperm : (tx.map Datagram.buf ++ d.buf :: pool.free).Perm
        ((d :: tx).map Datagram.buf ++ pool.free) := perm_middle
    have hput := pool.put_of_out hnodup hlt
    obtain ⟨out', pool', hcap, hcapacity, hfree⟩ :=
      ih (out ++ [(d.addr, (pool.buf d.buf).take d.len)])
      { pool with free := d.buf :: pool.free } (hperm.nodup_iff.2 hnodup)
      (fun b hb => hlt b (hperm.mem_iff.1 hb)) fun e he => hfits e (mem_cons_of_mem _ he)
    refine ⟨out', pool', ?_, hcapacity, hfree.trans hperm⟩
    rw [capture, if_pos (hfits d mem_cons_self), hput]
    exact hcap

instance : LawfulIo MemIo where
  recv io rx pool hrx _ _ := by
    obtain ⟨rest, ds, pool', dropped, hrec, hle, hfits, hcap, hperm⟩ :=
      receive_spec io.inbound rx pool hrx
    refine ⟨.ok ⟨(rx ++ ds).length - rx.length, rest.isEmpty, dropped, 0⟩,
      { io with inbound := rest, droppedOversize := io.droppedOversize + dropped }, ds,
      pool', ?_, ?_, hle, hfits, hcap, hperm⟩
    · simp only [DatagramIo.recvBatch, hrec]
    · simp [RecvResult.ofCall]
  flush io tx pool _ hnodup hlt hfits := by
    obtain ⟨out, pool', hcap, hcapacity, hfree⟩ := capture_spec tx io.out pool hnodup hlt hfits
    refine ⟨⟨tx.length, (tx.map Datagram.len).sum⟩, { io with out }, pool', ?_, le_rfl,
      hcapacity, hfree⟩
    simp only [DatagramIo.flush, hcap, Option.map_some]

end MemIo

instance : EventSink (List Event) where
  trySend events event := (.accepted, events ++ [event])

end NexusSfu.Dataplane
