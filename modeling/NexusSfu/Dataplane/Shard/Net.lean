import NexusSfu.Base.Prog
import NexusSfu.Dataplane.Forward

/-!
The buffer pool, the two batches and the I/O backend. A buffer is named by its index in the pool.
-/

namespace NexusSfu.Dataplane

open Base Prog List

abbrev recvBatch : Nat := 64

abbrev sendBatch : Nat := 256

structure Datagram where
  buf : Nat
  len : Nat
  addr : SocketAddr

structure BufferPool where
  memory : List Bytes
  free : List Nat
  length_buf : ∀ b ∈ memory, b.length = bufSize

namespace BufferPool

def new (count : Nat) : BufferPool where
  memory := List.replicate count (List.replicate bufSize 0)
  free := List.range count
  length_buf b hb := by
    rw [eq_of_mem_replicate hb]
    exact length_replicate

variable (p : BufferPool)

def capacity : Nat := p.memory.length

def available : Nat := p.free.length

def take : Option (Nat × BufferPool) :=
  match p.free with
  | [] => none
  | b :: free => some (b, { p with free })

def put (b : Nat) : Option BufferPool :=
  if b < p.capacity ∧ b ∉ p.free ∧ p.free.length < p.capacity then
    some { p with free := b :: p.free }
  else none

def buf (b : Nat) : Bytes := p.memory.getD b []

def write (b : Nat) (bytes : Bytes) : BufferPool where
  memory := p.memory.modify b fun old => writeAt old 0 (bytes.take old.length)
  free := p.free
  length_buf c hc := by
    obtain ⟨old, hold, hlen⟩ : ∃ old ∈ p.memory, c.length = old.length := by
      obtain ⟨i, hi, rfl⟩ := mem_iff_getElem.1 hc
      rw [length_modify] at hi
      refine ⟨p.memory[i], getElem_mem hi, ?_⟩
      rw [getElem_modify]
      split_ifs
      · rw [length_writeAt (by rw [length_take]; omega)]
      · rfl
    rw [hlen]
    exact p.length_buf old hold

end BufferPool

structure RecvResult where
  received : Nat
  wouldBlock : Bool
  truncated : Nat
  unreadable : Nat
  deriving DecidableEq

def RecvResult.empty : RecvResult := ⟨0, false, 0, 0⟩

def RecvResult.taken (r : RecvResult) : Nat := r.received + r.truncated + r.unreadable

structure Net.Sent where
  datagrams : Nat
  bytes : Nat

/-- How a shard receives and sends datagrams; `none` is a panic of the backend. -/
class DatagramIo (ι : Type) where
  recvBatch : ι → List Datagram → BufferPool →
    Option (Except Unit RecvResult × ι × List Datagram × BufferPool)
  flush : ι → List Datagram → BufferPool →
    Option (Net.Sent × ι × List Datagram × BufferPool)

def RecvResult.ofCall : Except Unit RecvResult → RecvResult
  | .ok r => r
  | .error _ => .empty

/-- The contract of a backend: it takes buffers from the pool only for the datagrams it reports,
and a flush returns every queued buffer. -/
class LawfulIo (ι : Type) [DatagramIo ι] : Prop where
  recv : ∀ (io : ι) (rx : List Datagram) (pool : BufferPool), rx.length ≤ recvBatch →
    pool.free.Nodup → (∀ b ∈ pool.free, b < pool.capacity) → ∃ result io' ds pool',
      DatagramIo.recvBatch io rx pool = some (result, io', rx ++ ds, pool') ∧
      (RecvResult.ofCall result).received = ds.length ∧ (rx ++ ds).length ≤ recvBatch ∧
      (∀ d ∈ ds, d.len ≤ bufSize) ∧ pool'.capacity = pool.capacity ∧
      (ds.map Datagram.buf ++ pool'.free).Perm pool.free
  flush : ∀ (io : ι) (tx : List Datagram) (pool : BufferPool), tx.length ≤ sendBatch →
    (tx.map Datagram.buf ++ pool.free).Nodup →
    (∀ b ∈ tx.map Datagram.buf ++ pool.free, b < pool.capacity) →
    (∀ d ∈ tx, d.len ≤ bufSize) → ∃ sent io' pool', DatagramIo.flush io tx pool = some
      (sent, io', [], pool') ∧ sent.datagrams ≤ tx.length ∧ pool'.capacity = pool.capacity ∧
      pool'.free.Perm (tx.map Datagram.buf ++ pool.free)

structure Net (ι : Type) where
  io : ι
  pool : BufferPool
  rx : List Datagram
  tx : List Datagram

namespace Net

variable {ι : Type} [DatagramIo ι]

def txIsFull (net : Net ι) : Bool := net.tx.length == sendBatch

def receive : Prog (Net ι) (Except Unit RecvResult) := do
  let net ← get
  let (result, io, rx, pool) ← expect (DatagramIo.recvBatch net.io net.rx net.pool)
  set { net with io, rx, pool }
  return result

def take : Prog (Net ι) (Option Nat) := do
  let net ← get
  match net.pool.take with
  | none => return none
  | some (b, pool) =>
    set { net with pool }
    return some b

def put (b : Nat) : Prog (Net ι) Unit := do
  let net ← get
  let pool ← expect (net.pool.put b)
  set { net with pool }

def buf (b : Nat) : Prog (Net ι) Bytes := do return (← get).pool.buf b

def data (b len : Nat) : Prog (Net ι) Bytes := do
  assert (len ≤ bufSize)
  return (← buf b).take len

def write (b : Nat) (bytes : Bytes) : Prog (Net ι) Unit :=
  modify fun net => { net with pool := net.pool.write b bytes }

def push (d : Datagram) : Prog (Net ι) Unit := do
  let net ← get
  assert (!net.txIsFull)
  assert (d.len ≤ bufSize)
  set { net with tx := net.tx ++ [d] }

def flush : Prog (Net ι) (Nat × Sent) := do
  let net ← get
  let (sent, io, tx, pool) ← expect (DatagramIo.flush net.io net.tx net.pool)
  assert (sent.datagrams ≤ net.tx.length && tx.isEmpty)
  set { net with io, tx, pool }
  return (net.tx.length, sent)

def nextReceived : Prog (Net ι) (Option Datagram) := do
  let net ← get
  match net.rx with
  | [] => return none
  | d :: rx =>
    set { net with rx }
    return some d

end Net
end NexusSfu.Dataplane
