import NexusSfu.Dataplane.Shard.Ownership

/-!
Sockets on Linux. The kernel answers each `sendmmsg` and `recvmmsg` as it likes, within what the
call asked for; slot `i` is armed with datagram `i` of the batch. In the functions `none` is a
failed assertion.
-/

namespace NexusSfu.Dataplane

open Base List Option

inductive SendError
  | interrupted
  | wouldBlock
  | noBufs
  | other
  deriving DecidableEq

/-- The rest of the batch is dropped; after any other error only the datagram that caused it. -/
def sendBufferFull (e : SendError) : Bool := e = .wouldBlock || e = .noBufs

/-- The byte counts of the messages the kernel took, the first ones of `pending`. -/
structure TakenMessages (pending : Nat) where
  lens : List Nat
  length_le : lens.length ≤ pending

structure SendCall where
  start : Nat
  result : Except SendError (List Nat)
  deriving DecidableEq

inductive RecvError
  | wouldBlock
  | interrupted
  | other

/-- What the kernel wrote for one slot; no `source` where the name was of another family or too
short. -/
structure Message where
  bytes : Bytes
  length_le : bytes.length ≤ bufSize
  source : Option SocketAddr
  truncated : Bool

structure ReceivedMessages (armed : Nat) where
  messages : List Message
  length_le : messages.length ≤ armed

structure LinuxIo where
  kernel : Nat → (pending : Nat) → Except SendError (TakenMessages pending)
  calls : List SendCall := []
  inbound : Nat → (armed : Nat) → Except RecvError (ReceivedMessages armed)
  reads : Nat := 0

def normalizeSource : SocketAddr → SocketAddr
  | .v4 ip port => .v4 ip port
  | .v6 ip port flowinfo scopeId =>
    if (ip.take 12).toList = List.replicate 10 0 ++ [0xff, 0xff] then .v4 (ip.drop 12) port
    else .v6 ip port flowinfo scopeId

structure SendBatch (pool : BufferPool) where
  items : List Datagram
  length_le : items.length ≤ sendBatch
  nodup : (items.map Datagram.buf ++ pool.free).Nodup
  buf_lt : ∀ b ∈ items.map Datagram.buf ++ pool.free, b < pool.capacity

namespace LinuxIo

def sendmmsg (io : LinuxIo) (start stop : Nat) : Option (Except SendError (List Nat) × LinuxIo) :=
  if start < stop ∧ stop ≤ sendBatch then
    let result := (io.kernel io.calls.length (stop - start)).map TakenMessages.lens
    some (result, { io with calls := io.calls ++ [⟨start, result⟩] })
  else none

def sendRounds (count : Nat) : Nat → LinuxIo → Nat → Net.Sent → Option (LinuxIo × Net.Sent)
  | 0, io, _, sent => some (io, sent)
  | rounds + 1, io, start, sent =>
    if start = count then some (io, sent)
    else match io.sendmmsg start count with
      | none => none
      | some (.ok [], io) => some (io, sent)
      | some (.ok (len :: lens), io) =>
        sendRounds count rounds io (start + (len :: lens).length)
          ⟨sent.datagrams + (len :: lens).length, sent.bytes + (len :: lens).sum⟩
      | some (.error e, io) =>
        if e = .interrupted then sendRounds count rounds io start sent
        else if sendBufferFull e then some (io, sent)
        -- this destination only
        else sendRounds count rounds io (start + 1) sent

def putAll : List Datagram → BufferPool → Option BufferPool
  | [], pool => some pool
  | d :: tx, pool => (pool.put d.buf).bind (putAll tx)

def flush (io : LinuxIo) (tx : List Datagram) (pool : BufferPool) :
    Option (Net.Sent × LinuxIo × List Datagram × BufferPool) := do
  let (io, sent) ← sendRounds tx.length (2 * tx.length + 1) io 0 ⟨0, 0⟩
  let pool ← putAll tx pool
  if sent.datagrams ≤ tx.length then some (sent, io, [], pool) else none

def recvmmsg (io : LinuxIo) (armed : Nat) :
    Option (Except Unit (List Message × Bool) × LinuxIo) :=
  if 0 < armed ∧ armed ≤ recvBatch then
    let outcome := match io.inbound io.reads armed with
      | .ok received => .ok (received.messages, false)
      | .error .wouldBlock => .ok ([], true)
      | .error .interrupted => .ok ([], false)
      | .error .other => .error ()
    some (outcome, { io with reads := io.reads + 1 })
  else none

def armRx : Nat → BufferPool → Option (List Nat × BufferPool)
  | 0, pool => some ([], pool)
  | room + 1, pool => do
    let (b, pool) ← pool.take
    let (bufs, pool) ← armRx room pool
    some (b :: bufs, pool)

-- the kernel writes into the armed buffers
def fill : List Nat → List Message → BufferPool → BufferPool
  | b :: bufs, m :: messages, pool => fill bufs messages (pool.write b m.bytes)
  | _, _, pool => pool

def settle : List Nat → List Message → RecvResult → List Datagram → BufferPool →
    Option (RecvResult × List Datagram × BufferPool)
  | [], _, result, rx, pool => some (result, rx, pool)
  | b :: bufs, [], result, rx, pool => (pool.put b).bind (settle bufs [] result rx)
  | b :: bufs, m :: messages, result, rx, pool =>
    match m.source, m.truncated with
    | some addr, false =>
      if m.bytes.length ≤ bufSize ∧ rx.length < recvBatch then
        settle bufs messages { result with received := result.received + 1 }
          (rx ++ [⟨b, m.bytes.length, normalizeSource addr⟩]) pool
      else none
    | some _, true =>
      (pool.put b).bind
        (settle bufs messages { result with truncated := result.truncated + 1 } rx)
    | none, _ =>
      (pool.put b).bind
        (settle bufs messages { result with unreadable := result.unreadable + 1 } rx)

def receive (io : LinuxIo) (rx : List Datagram) (pool : BufferPool) :
    Option (Except Unit RecvResult × LinuxIo × List Datagram × BufferPool) :=
  let room := min (recvBatch - rx.length) pool.available
  if room = 0 then some (.ok .empty, io, rx, pool)
  else do
    let (bufs, pool) ← armRx room pool
    let (outcome, io) ← io.recvmmsg room
    let (messages, wouldBlock) := outcome.toOption.getD ([], false)
    let (result, rx, pool) ← settle bufs messages { RecvResult.empty with wouldBlock } rx
      (fill bufs messages pool)
    some (outcome.map fun _ => result, io, rx, pool)

instance : DatagramIo LinuxIo where
  recvBatch := receive
  flush := flush

end LinuxIo

namespace SendCall

def taken (c : SendCall) : List Nat :=
  match c.result with
  | .ok lens => List.range' c.start lens.length
  | .error _ => []

def interrupted (c : SendCall) : Bool := c.result = .error .interrupted

def ends (c : SendCall) : Bool :=
  match c.result with
  | .ok lens => lens.isEmpty
  | .error e => sendBufferFull e

def refused (c : SendCall) : Bool :=
  match c.result with
  | .ok _ => false
  | .error e => e ≠ .interrupted && !sendBufferFull e

end SendCall

structure FlushAccounts (count start rounds : Nat) (calls : List SendCall) : Prop where
  ordered : (calls.flatMap SendCall.taken).Pairwise (· < ·)
  between : ∀ i ∈ calls.flatMap SendCall.taken, start ≤ i ∧ i < count
  covered : (∀ c ∈ calls, c.ends = false) →
    (calls.filter SendCall.interrupted).length + (count - start) ≤ rounds →
    ∀ i, start ≤ i → i < count →
      i ∈ calls.flatMap SendCall.taken ∨ ∃ c ∈ calls, c.start = i ∧ c.refused = true

namespace FlushAccounts

variable {count start rounds : Nat} {calls : List SendCall} {c : SendCall}

theorem nil (h : count ≤ start + rounds → count ≤ start) :
    FlushAccounts count start rounds [] := by
  refine ⟨.nil, nofun, fun _ hle i hi hlt => ?_⟩
  rw [filter_nil, length_nil] at hle
  omega

theorem stop (htaken : c.taken = []) (hends : c.ends = true) :
    FlushAccounts count start rounds [c] := by
  have hnil : [c].flatMap SendCall.taken = [] := by rw [flatMap_singleton, htaken]
  refine ⟨hnil ▸ .nil, fun i hi => ?_, fun hgo => ?_⟩
  · rw [hnil] at hi
    cases hi
  · rw [hgo c mem_cons_self] at hends
    cases hends

theorem interrupted (hc : c.interrupted = true) (h : FlushAccounts count start rounds calls) :
    FlushAccounts count start (rounds + 1) (c :: calls) := by
  have hnil : c.taken = [] := by rw [SendCall.taken, of_decide_eq_true hc]
  have htaken : (c :: calls).flatMap SendCall.taken = calls.flatMap SendCall.taken := by
    rw [flatMap_cons, hnil, nil_append]
  refine ⟨htaken ▸ h.ordered, htaken ▸ h.between, fun hgo hle i hi hlt => ?_⟩
  rw [filter_cons_of_pos hc, length_cons] at hle
  rw [htaken]
  refine (h.covered (fun c' hc' => hgo c' (mem_cons_of_mem c hc')) (by omega) i hi hlt).imp_right ?_
  rintro ⟨c', hc', hfirst⟩
  exact ⟨c', mem_cons_of_mem c hc', hfirst⟩

theorem advance {n : Nat} (hn : 0 < n) (hint : c.interrupted = false)
    (htaken : ∀ i ∈ c.taken, start ≤ i ∧ i < start + n) (hord : c.taken.Pairwise (· < ·))
    (hcover : ∀ i, start ≤ i → i < start + n →
      i ∈ c.taken ∨ c.start = i ∧ c.refused = true)
    (hle : start + n ≤ count) (h : FlushAccounts count (start + n) rounds calls) :
    FlushAccounts count start (rounds + 1) (c :: calls) := by
  refine ⟨?_, fun i hi => ?_, fun hgo hint' i hi hlt => ?_⟩
  · rw [flatMap_cons, pairwise_append]
    exact ⟨hord, h.ordered, fun i hi j hj => (htaken i hi).2.trans_le (h.between j hj).1⟩
  · rw [flatMap_cons] at hi
    rcases mem_append.1 hi with hi | hi
    · exact ⟨(htaken i hi).1, (htaken i hi).2.trans_le hle⟩
    · exact ⟨(Nat.le_add_right start n).trans (h.between i hi).1, (h.between i hi).2⟩
  · rw [filter_cons_of_neg (by rw [hint]; nofun)] at hint'
    rw [flatMap_cons]
    rcases Nat.lt_or_ge i (start + n) with hfirst | hrest
    · exact (hcover i hi hfirst).imp (mem_append_left _) fun hc => ⟨c, mem_cons_self, hc⟩
    · refine (h.covered (fun c' hc' => hgo c' (mem_cons_of_mem c hc')) (by omega) i hrest hlt).imp
        (mem_append_right _) ?_
      rintro ⟨c', hc', hc⟩
      exact ⟨c', mem_cons_of_mem c hc', hc⟩

end FlushAccounts

namespace LinuxIo

variable {count : Nat}

theorem sendmmsg_answer (io : LinuxIo) {start stop : Nat} (hlt : start < stop)
    (hle : stop ≤ sendBatch) : ∃ result,
      io.sendmmsg start stop =
        some (result, { io with calls := io.calls ++ [⟨start, result⟩] }) ∧
      result = (io.kernel io.calls.length (stop - start)).map TakenMessages.lens ∧
      ∀ lens, result = .ok lens → lens.length ≤ stop - start := by
  refine ⟨_, if_pos ⟨hlt, hle⟩, rfl, fun lens hlens => ?_⟩
  cases hk : io.kernel io.calls.length (stop - start) with
  | error e =>
    rw [hk] at hlens
    cases hlens
  | ok messages =>
    rw [hk] at hlens
    cases hlens
    exact messages.length_le

/-- The results of `calls` are the kernel's, from its `n`-th answer on. -/
def Answered (io : LinuxIo) (count n : Nat) (calls : List SendCall) : Prop :=
  ∀ j (hj : j < calls.length), calls[j].result =
    (io.kernel (n + j) (count - calls[j].start)).map TakenMessages.lens

theorem Answered.nil {io : LinuxIo} {n : Nat} : io.Answered count n [] := fun _ hj => by cases hj

theorem Answered.cons {io : LinuxIo} {n : Nat} {c : SendCall} {calls : List SendCall}
    (hc : c.result = (io.kernel n (count - c.start)).map TakenMessages.lens)
    (h : io.Answered count (n + 1) calls) : io.Answered count n (c :: calls) := by
  intro j hj
  cases j with
  | zero => exact hc
  | succ j =>
    have hrest := h j (Nat.lt_of_succ_lt_succ hj)
    rwa [Nat.add_right_comm] at hrest

theorem sendRounds_accounts (hcount : count ≤ sendBatch) (rounds : Nat) (io : LinuxIo)
    {start : Nat} (hstart : start ≤ count) (sent : Net.Sent) : ∃ calls sent',
      sendRounds count rounds io start sent =
        some ({ io with calls := io.calls ++ calls }, sent') ∧
      sent'.datagrams = sent.datagrams + (calls.flatMap SendCall.taken).length ∧
      io.Answered count io.calls.length calls ∧ FlushAccounts count start rounds calls := by
  induction rounds generalizing io start sent with
  | zero =>
    refine ⟨[], sent, ?_, rfl, .nil, .nil id⟩
    rw [sendRounds, append_nil]
  | succ rounds ih =>
    rw [sendRounds]
    by_cases hend : start = count
    · refine ⟨[], sent, ?_, rfl, .nil, .nil fun _ => hend.ge⟩
      rw [if_pos hend, append_nil]
    have hlt : start < count := lt_of_le_of_ne hstart hend
    obtain ⟨result, hsend, hanswer, hlens⟩ := io.sendmmsg_answer hlt hcount
    rw [if_neg hend, hsend]
    -- what the later rounds do, after this call
    have hlater : ∀ {start'} (_ : start' ≤ count) (sent' : Net.Sent), ∃ calls sent'',
        sendRounds count rounds { io with calls := io.calls ++ [⟨start, result⟩] }
          start' sent' =
          some ({ io with calls := io.calls ++ ⟨start, result⟩ :: calls }, sent'') ∧
        sent''.datagrams = sent'.datagrams + (calls.flatMap SendCall.taken).length ∧
        io.Answered count io.calls.length (⟨start, result⟩ :: calls) ∧
        FlushAccounts count start' rounds calls := by
      intro start' hstart' sent'
      obtain ⟨calls, sent'', hrun, hsent, hlog, hacc⟩ :=
        ih { io with calls := io.calls ++ [⟨start, result⟩] } hstart' sent'
      rw [append_assoc] at hrun
      rw [length_append, length_singleton] at hlog
      exact ⟨calls, sent'', hrun, hsent, .cons hanswer hlog, hacc⟩
    have hlast : io.Answered count io.calls.length [⟨start, result⟩] := .cons hanswer .nil
    cases result with
    | ok lens =>
      cases lens with
      | nil => exact ⟨[⟨start, .ok []⟩], sent, rfl, rfl, hlast, .stop rfl rfl⟩
      | cons len lens =>
        have hfit := hlens _ rfl
        have hn : start + (len :: lens).length ≤ count := by omega
        obtain ⟨calls, sent', hrun, hsent, hlog, hacc⟩ := hlater hn
          ⟨sent.datagrams + (len :: lens).length, sent.bytes + (len :: lens).sum⟩
        refine ⟨⟨start, .ok (len :: lens)⟩ :: calls, sent', hrun, ?_, hlog,
          hacc.advance (Nat.succ_pos _) rfl (fun i hi => mem_range'_1.1 hi)
            (pairwise_lt_range') (fun i hi hi' => .inl (mem_range'_1.2 ⟨hi, hi'⟩)) hn⟩
        rw [hsent, flatMap_cons, length_append, SendCall.taken, length_range', Nat.add_assoc]
    | error e =>
      dsimp only
      by_cases hint : e = .interrupted
      · subst hint
        obtain ⟨calls, sent', hrun, hsent, hlog, hacc⟩ := hlater hstart sent
        exact ⟨⟨start, .error .interrupted⟩ :: calls, sent', hrun, hsent, hlog,
          hacc.interrupted rfl⟩
      rw [if_neg hint]
      by_cases hfull : sendBufferFull e = true
      · rw [if_pos hfull]
        exact ⟨[⟨start, .error e⟩], sent, rfl, rfl, hlast, .stop rfl hfull⟩
      · rw [if_neg hfull]
        obtain ⟨calls, sent', hrun, hsent, hlog, hacc⟩ := hlater (Nat.succ_le_of_lt hlt) sent
        refine ⟨⟨start, .error e⟩ :: calls, sent', hrun, hsent, hlog,
          hacc.advance Nat.one_pos ?_ nofun .nil
            (fun i hi hi' => .inr ⟨le_antisymm hi (Nat.le_of_lt_succ hi'), ?_⟩)
            (Nat.succ_le_of_lt hlt)⟩
        · simpa [SendCall.interrupted] using hint
        · simpa [SendCall.refused, hint] using hfull

theorem putAll_eq (tx : List Datagram) : ∀ pool : BufferPool,
    (tx.map Datagram.buf ++ pool.free).Nodup →
      (∀ b ∈ tx.map Datagram.buf ++ pool.free, b < pool.capacity) →
    putAll tx pool = some { pool with free := (tx.map Datagram.buf).reverse ++ pool.free } := by
  induction tx with
  | nil => exact fun _ _ _ => rfl
  | cons d tx ih =>
    intro pool hnodup hlt
    have hperm : (tx.map Datagram.buf ++ d.buf :: pool.free).Perm
        ((d :: tx).map Datagram.buf ++ pool.free) := perm_middle
    have hrest := ih { pool with free := d.buf :: pool.free } (hperm.nodup_iff.2 hnodup) fun b hb =>
      hlt b (hperm.mem_iff.1 hb)
    rw [putAll, pool.put_of_out hnodup hlt, bind_some, hrest, map_cons, reverse_cons,
      append_assoc]
    rfl

theorem flush_spec (io : LinuxIo) {tx : List Datagram} {pool : BufferPool}
    (htx : tx.length ≤ sendBatch) (hnodup : (tx.map Datagram.buf ++ pool.free).Nodup)
    (hbuf : ∀ b ∈ tx.map Datagram.buf ++ pool.free, b < pool.capacity) : ∃ calls sent,
      io.flush tx pool = some (sent, { io with calls := io.calls ++ calls }, [],
        { pool with free := (tx.map Datagram.buf).reverse ++ pool.free }) ∧
      sent.datagrams = (calls.flatMap SendCall.taken).length ∧ sent.datagrams ≤ tx.length ∧
      io.Answered tx.length io.calls.length calls ∧
      FlushAccounts tx.length 0 (2 * tx.length + 1) calls := by
  obtain ⟨calls, sent, hrun, hsent, hlog, hacc⟩ :=
    sendRounds_accounts htx (2 * tx.length + 1) io
    (Nat.zero_le _) ⟨0, 0⟩
  rw [Nat.zero_add] at hsent
  have hle : sent.datagrams ≤ tx.length := by
    have hsub := (hacc.ordered.nodup.subperm fun i hi =>
      mem_range.2 (hacc.between i hi).2).length_le
    rwa [length_range, ← hsent] at hsub
  refine ⟨calls, sent, ?_, hsent, hle, hlog, hacc⟩
  simp only [flush, hrun, putAll_eq tx pool hnodup hbuf, bind_eq_bind, bind_some, if_pos hle]

/-- Every datagram of a flush is accounted for, whatever the kernel answers: it takes a part of the
batch in order and no datagram twice, every buffer goes back once, and as long as nothing ends the
flush early each datagram was taken or refused by itself. -/
theorem flush_accounts (io : LinuxIo) (pool : BufferPool) (tx : SendBatch pool) :
    ∃ calls sent, io.flush tx.items pool = some (sent, { io with calls := io.calls ++ calls }, [],
        { pool with free := (tx.items.map Datagram.buf).reverse ++ pool.free }) ∧
      (∀ j (hj : j < calls.length), calls[j].result =
        (io.kernel (io.calls.length + j) (tx.items.length - calls[j].start)).map
          TakenMessages.lens) ∧
      (calls.flatMap SendCall.taken).Pairwise (· < ·) ∧
      (∀ i ∈ calls.flatMap SendCall.taken, i < tx.items.length) ∧
      sent.datagrams = (calls.flatMap SendCall.taken).length ∧
      ((∀ c ∈ calls, c.ends = false) →
        (calls.filter SendCall.interrupted).length ≤ tx.items.length + 1 →
        ∀ i < tx.items.length,
          i ∈ calls.flatMap SendCall.taken ∨ ∃ c ∈ calls, c.start = i ∧
          c.refused = true) := by
  obtain ⟨calls, sent, hflush, hsent, -, hlog, hacc⟩ :=
    io.flush_spec tx.length_le tx.nodup tx.buf_lt
  refine ⟨calls, sent, hflush, hlog, hacc.ordered, fun i hi => (hacc.between i hi).2, hsent,
    fun hgo hint i hi => ?_⟩
  exact hacc.covered hgo (by omega) i (Nat.zero_le i) hi

theorem armRx_eq {room : Nat} {pool : BufferPool} (h : room ≤ pool.free.length) :
    armRx room pool = some (pool.free.take room, { pool with free := pool.free.drop room }) := by
  induction room generalizing pool with
  | zero => rfl
  | succ room ih =>
    cases hfree : pool.free with
    | nil =>
      rw [hfree] at h
      exact absurd h (Nat.not_succ_le_zero room)
    | cons b free =>
      rw [hfree, length_cons] at h
      simp only [armRx, BufferPool.take, hfree, bind_eq_bind, bind_some]
      rw [ih (Nat.le_of_succ_le_succ h)]
      rfl

@[simp] theorem fill_free (bufs : List Nat) (messages : List Message) (pool : BufferPool) :
    (fill bufs messages pool).free = pool.free ∧
      (fill bufs messages pool).capacity = pool.capacity := by
  fun_induction fill bufs messages pool with
  | case1 b bufs m messages pool ih => simpa using ih
  | case2 => exact ⟨rfl, rfl⟩

/-- Where the buffers `bufs` end up: in the datagrams that are added to the batch, or back in the
pool. -/
structure Settles (bufs : List Nat) (messages : List Message) (result : RecvResult)
    (rx : List Datagram) (pool : BufferPool) (result' : RecvResult) (ds : List Datagram)
    (pool' : BufferPool) : Prop where
  settled : settle bufs messages result rx pool = some (result', rx ++ ds, pool')
  received : result'.received = result.received + ds.length
  room : ds.length ≤ bufs.length
  sent : ds.length ≤ messages.length
  fits : ∀ d ∈ ds, d.len ≤ bufSize
  capacity : pool'.capacity = pool.capacity
  perm : (ds.map Datagram.buf ++ pool'.free).Perm (bufs ++ pool.free)

section Settles

variable {b : Nat} {bufs : List Nat} {ms messages : List Message} {m : Message}
  {r result result' : RecvResult} {rx ds : List Datagram} {pool pool' : BufferPool}

theorem Settles.back
    (h : Settles bufs ms r rx { pool with free := b :: pool.free } result' ds pool')
    (heq : settle (b :: bufs) messages result rx pool =
      settle bufs ms r rx { pool with free := b :: pool.free })
    (hreceived : r.received = result.received) (hms : ms.length ≤ messages.length) :
    Settles (b :: bufs) messages result rx pool result' ds pool' where
  settled := heq.trans h.settled
  received := hreceived ▸ h.received
  room := h.room.trans (Nat.le_succ _)
  sent := h.sent.trans hms
  fits := h.fits
  capacity := h.capacity
  perm := h.perm.trans perm_middle

theorem Settles.add {d : Datagram}
    (h : Settles bufs messages r (rx ++ [d]) pool result' ds pool') (hbuf : d.buf = b)
    (hlen : d.len ≤ bufSize)
    (heq : settle (b :: bufs) (m :: messages) result rx pool =
      settle bufs messages r (rx ++ [d]) pool)
    (hreceived : r.received = result.received + 1) :
    Settles (b :: bufs) (m :: messages) result rx pool result' (d :: ds) pool' where
  settled := by
    rw [heq, h.settled, append_assoc, singleton_append]
  received := by
    rw [h.received, hreceived, length_cons, Nat.add_assoc, Nat.add_comm 1]
  room := Nat.succ_le_succ h.room
  sent := Nat.succ_le_succ h.sent
  fits := forall_mem_cons.2 ⟨hlen, h.fits⟩
  capacity := h.capacity
  perm := by
    rw [map_cons, hbuf]
    exact h.perm.cons b

end Settles

theorem settle_spec (bufs : List Nat) (messages : List Message) (result : RecvResult)
    (rx : List Datagram) (pool : BufferPool) (hnodup : (bufs ++ pool.free).Nodup)
    (hbuf : ∀ b ∈ bufs ++ pool.free, b < pool.capacity)
    (hroom : rx.length + bufs.length ≤ recvBatch) :
    ∃ result' ds pool', Settles bufs messages result rx pool result' ds pool' := by
  induction bufs generalizing messages result rx pool with
  | nil =>
    refine ⟨result, [], pool, ?_, rfl, le_rfl, Nat.zero_le _, nofun, rfl, .refl _⟩
    rw [settle, append_nil]
  | cons b bufs ih =>
    rw [length_cons] at hroom
    have hmid : (bufs ++ b :: pool.free).Perm (b :: bufs ++ pool.free) := perm_middle
    have hput := pool.put_of_out hnodup hbuf
    -- the buffer goes back, and the other slots follow
    have hback : ∀ ms r, ∃ r' ds pool',
        Settles bufs ms r rx { pool with free := b :: pool.free } r' ds pool' :=
      fun ms r => ih ms r rx _ (hmid.nodup_iff.2 hnodup)
        (fun c hc => hbuf c (hmid.mem_iff.1 hc)) (by omega)
    cases messages with
    | nil =>
      obtain ⟨result', ds, pool', h⟩ := hback [] result
      refine ⟨result', ds, pool', h.back ?_ rfl le_rfl⟩
      rw [settle, hput]
      rfl
    | cons m messages =>
      rcases hsource : m.source with _ | addr
      · obtain ⟨result', ds, pool', h⟩ :=
          hback messages { result with unreadable := result.unreadable + 1 }
        refine ⟨result', ds, pool', h.back ?_ rfl (Nat.le_succ _)⟩
        rw [settle, hsource, hput]
        rfl
      rcases htrunc : m.truncated with _ | _
      · obtain ⟨result', ds, pool', h⟩ :=
          ih messages { result with received := result.received + 1 }
          (rx ++ [⟨b, m.bytes.length, normalizeSource addr⟩]) pool (nodup_cons.1 hnodup).2
          (fun c hc => hbuf c (mem_cons_of_mem b hc))
          (by simp only [length_append, length_singleton]; omega)
        refine ⟨result', _, pool', h.add rfl m.length_le ?_ rfl⟩
        rw [settle, hsource, htrunc]
        exact if_pos ⟨m.length_le, by omega⟩
      · obtain ⟨result', ds, pool', h⟩ :=
          hback messages { result with truncated := result.truncated + 1 }
        refine ⟨result', ds, pool', h.back ?_ rfl (Nat.le_succ _)⟩
        rw [settle, hsource, htrunc, hput]
        rfl

theorem recvmmsg_answer (io : LinuxIo) {armed : Nat} (hpos : 0 < armed)
    (hle : armed ≤ recvBatch) :
    ∃ outcome : Except Unit (List Message × Bool),
      io.recvmmsg armed = some (outcome, { io with reads := io.reads + 1 }) :=
  ⟨_, if_pos ⟨hpos, hle⟩⟩

instance : LawfulIo LinuxIo where
  recv io rx pool hrx hnodup hbuf := by
    simp only [DatagramIo.recvBatch, receive]
    obtain ⟨room, hmin⟩ : ∃ room, min (recvBatch - rx.length) pool.available = room :=
      ⟨_, rfl⟩
    have hrest : room ≤ recvBatch - rx.length := hmin ▸ min_le_left _ _
    have hfree : room ≤ pool.free.length := hmin ▸ min_le_right _ _
    rw [hmin]
    rcases Nat.eq_zero_or_pos room with hroom | hroom
    · refine ⟨.ok .empty, io, [], pool, ?_, rfl, ?_, nofun, rfl, .refl _⟩
      · rw [if_pos hroom, append_nil]
      · rwa [append_nil]
    obtain ⟨outcome, hrecv⟩ := io.recvmmsg_answer hroom (by omega)
    rcases hout : outcome.toOption.getD ([], false) with ⟨messages, wouldBlock⟩
    have hfill := fill_free (pool.free.take room) messages { pool with free := pool.free.drop room }
    obtain ⟨result, ds, pool', h⟩ := settle_spec (pool.free.take room) messages
      { RecvResult.empty with wouldBlock } rx
      (fill (pool.free.take room) messages { pool with free := pool.free.drop room })
      (by rwa [hfill.1, take_append_drop]) (by rwa [hfill.1, hfill.2, take_append_drop])
      (by rw [length_take]; omega)
    have hperm := h.perm
    rw [hfill.1, take_append_drop] at hperm
    refine ⟨outcome.map fun _ => result, { io with reads := io.reads + 1 }, ds, pool', ?_, ?_, ?_,
      h.fits, h.capacity.trans hfill.2, hperm⟩
    · rw [if_neg hroom.ne', armRx_eq hfree]
      simp only [bind_eq_bind, bind_some, hrecv, hout, h.settled]
    · cases outcome with
      | ok => exact h.received.trans (Nat.zero_add _)
      | error e =>
        obtain rfl : messages = [] := (congrArg Prod.fst hout).symm
        exact (Nat.le_zero.1 h.sent).symm
    · have hds := h.room
      rw [length_take] at hds
      rw [length_append]
      omega
  flush io tx pool htx hnodup hbuf _ := by
    obtain ⟨calls, sent, hflush, -, hle, -, -⟩ := io.flush_spec htx hnodup hbuf
    exact ⟨sent, _, _, hflush, hle, rfl, (reverse_perm _).append_right _⟩

end LinuxIo
end NexusSfu.Dataplane
