import NexusSfu.Dataplane.Shard.Book
import NexusSfu.Dataplane.Shard.Loop

namespace NexusSfu.Dataplane

open Base Prog Srtp Tables List Option

variable {ι ε : Type}

structure Recorder (ι : Type) where
  io : ι
  sent : List SocketAddr := []

namespace Recorder

instance [DatagramIo ι] : DatagramIo (Recorder ι) where
  recvBatch r rx pool := (DatagramIo.recvBatch r.io rx pool).map fun (result, io, rx, pool) =>
    (result, { r with io }, rx, pool)
  flush r tx pool := (DatagramIo.flush r.io tx pool).map fun (sent, io, rest, pool) =>
    (sent, ⟨io, r.sent ++ tx.map Datagram.addr⟩, rest, pool)

instance [DatagramIo ι] [LawfulIo ι] : LawfulIo (Recorder ι) where
  recv r rx pool hrx hnodup hlt := by
    obtain ⟨result, io, ds, pool', hrecv, hrest⟩ := LawfulIo.recv r.io rx pool hrx hnodup hlt
    exact ⟨result, { r with io }, ds, pool', by simp [DatagramIo.recvBatch, hrecv], hrest⟩
  flush r tx pool htx hnodup hlt hlen := by
    obtain ⟨sent, io, pool', hflush, hrest⟩ := LawfulIo.flush r.io tx pool htx hnodup hlt hlen
    exact ⟨sent, ⟨io, r.sent ++ tx.map Datagram.addr⟩, pool', by
      simp only [DatagramIo.flush, hflush, map_some], hrest⟩

end Recorder

namespace Net

variable {net : Net (Recorder ι)} {b : Nat}

def destinations (net : Net (Recorder ι)) : List SocketAddr :=
  net.io.sent ++ net.tx.map Datagram.addr

theorem take_takes : Allows take net fun taken net' =>
    net'.destinations = net.destinations ∧ (taken = none → net.pool.free = []) := by
  simp only [take, allows_bind, allows_get, BufferPool.take]
  cases net.pool.free with
  | nil => exact allows_pure.2 ⟨rfl, fun _ => rfl⟩
  | cons b free => exact allows_bind.2 (allows_set.2 (allows_pure.2 ⟨rfl, by simp⟩))

theorem take_destinations : Allows take net fun _ net' => net'.destinations = net.destinations :=
  take_takes.mono fun _ _ h => h.1

theorem put_destinations :
    Allows (put b) net fun _ net' => net'.destinations = net.destinations := by
  simp only [put, allows_bind, allows_get, allows_expect, allows_set]
  exact fun _ _ => rfl

theorem write_destinations (bytes : Bytes) :
    Allows (write b bytes) net fun _ net' => net'.destinations = net.destinations :=
  allows_modify.2 rfl

theorem push_destinations (d : Datagram) :
    Allows (push d) net fun _ net' => net'.destinations = net.destinations ++ [d.addr] := by
  simp only [push, allows_bind, allows_get, allows_assert, allows_set]
  intro _ _
  simp [destinations]

variable [DatagramIo ι]

theorem flush_destinations :
    Allows flush net fun _ net' => net'.destinations = net.destinations := by
  simp only [flush, allows_bind, allows_get, allows_expect, allows_assert, allows_set, allows_pure]
  rintro ⟨sent, io, tx, pool⟩ hflush hassert
  obtain ⟨⟨sent', io', rest, pool'⟩, -, heq⟩ := map_eq_some_iff.1 hflush
  cases heq
  have hnil : tx = [] := by simpa using (Bool.and_eq_true_iff.1 hassert).2
  simp [destinations, hnil]

theorem receive_destinations :
    Allows receive net fun _ net' => net'.destinations = net.destinations := by
  simp only [receive, allows_bind, allows_get, allows_expect, allows_set, allows_pure]
  rintro ⟨result, io, rx, pool⟩ hrecv
  obtain ⟨⟨result', io', rx', pool'⟩, -, heq⟩ := map_eq_some_iff.1 hrecv
  cases heq
  rfl

end Net

def Book.Armed (b : Book) (a : SocketAddr) : Prop :=
  ∃ k c, b k = some c ∧ c.addr = some a ∧ c.srtp = true

namespace Shard

def book (s : Shard ι ε) : Book := s.tables.book

section KeepsTables

variable {s s' s'' : Shard ι ε}

structure KeepsTables (s s' : Shard ι ε) : Prop where
  tables : s'.tables = s.tables
  net : s'.net = s.net
  config : s'.config = s.config

theorem KeepsTables.refl (s : Shard ι ε) : s.KeepsTables s := ⟨rfl, rfl, rfl⟩

theorem KeepsTables.trans (h : s.KeepsTables s') (h' : s'.KeepsTables s'') : s.KeepsTables s'' :=
  ⟨h'.tables.trans h.tables, h'.net.trans h.net, h'.config.trans h.config⟩

theorem allows_readSession {k : Key} {Q : Session → Shard ι ε → Prop}
    (h : ∀ r, s.tables.sessions.get k = some r → Q r s) :
    Allows (onTables (Tables.session k)) s Q :=
  allows_zoom.2 (allows_session h)

theorem allows_writeSession {k : Key} {r v : Session} {Q : Unit → Shard ι ε → Prop}
    (hr : s.tables.sessions.get k = some r)
    (h : ∀ s' : Shard ι ε, s'.net = s.net →
      s'.book = Function.update s.book k (some v.card) → Q () s') :
    Allows (onTables (Tables.setSession k v)) s Q :=
  allows_zoom.2 (allows_setSession hr fun _ hget => h _ rfl (book_set hget))

theorem addTo_keepsTables (c : Counter) (n : Nat) (s : Shard ι ε) :
    Allows (addTo c n) s fun _ s' => s.KeepsTables s' :=
  allows_modify.2 ⟨rfl, rfl, rfl⟩

theorem count_keepsTables (c : Counter) (s : Shard ι ε) :
    Allows (count c) s fun _ s' => s.KeepsTables s' := addTo_keepsTables c 1 s

theorem retain_keepsTables (event : Event) (s : Shard ι ε) :
    Allows (retain event) s fun _ s' => s.KeepsTables s' := by
  simp only [retain, allows_bind, allows_get]
  split_ifs
  · simp only [allows_bind, allows_pure, count, addTo, note, allows_modify]
    exact ⟨rfl, rfl, rfl⟩
  · simp only [allows_bind, allows_pure, note, allows_modify, allows_get, allows_assert]
    exact fun _ => ⟨rfl, rfl, rfl⟩

theorem emit_keepsTables [EventSink ε] (event : Event) (s : Shard ι ε) :
    Allows (emit event) s fun _ s' => s.KeepsTables s' := by
  have hlost : Allows (consentWasLost event) s fun _ s' => s' = s := by
    simp only [consentWasLost, allows_bind, allows_get]
    split
    · exact allows_pure.2 rfl
    · exact allows_bind.2 (allows_zoom.2 (allows_session fun _ _ => allows_pure.2 rfl))
  rw [emit, allows_bind]
  refine hlost.mono ?_
  rintro lost _ rfl
  split_ifs
  · simp only [allows_bind, allows_pure, count, addTo, note, allows_modify]
    exact ⟨rfl, rfl, rfl⟩
  simp only [allows_bind, allows_get]
  split_ifs
  · simp only [allows_bind, allows_set]
    split
    · simp only [allows_bind, allows_pure, note, allows_modify]
      exact ⟨rfl, rfl, rfl⟩
    · simp only [allows_bind, allows_pure, count, addTo, note, allows_modify]
      exact ⟨rfl, rfl, rfl⟩
    · exact (retain_keepsTables event _).mono fun _ _ h => ⟨h.tables, h.net, h.config⟩
  · exact retain_keepsTables event _

end KeepsTables

section Posts

variable {s s' s'' : Shard (Recorder ι) ε}

structure Posts (s s' : Shard (Recorder ι) ε) : Prop where
  book : s'.book = s.book
  posted : ∃ as, s'.net.destinations = s.net.destinations ++ as ∧ ∀ a ∈ as, s.book.Armed a

theorem Posts.of_eq (hbook : s'.book = s.book) (hnet : s'.net.destinations = s.net.destinations) :
    s.Posts s' :=
  ⟨hbook, [], by rw [hnet, append_nil], nofun⟩

theorem Posts.refl (s : Shard (Recorder ι) ε) : s.Posts s := .of_eq rfl rfl

theorem Posts.trans (h : s.Posts s') (h' : s'.Posts s'') : s.Posts s'' := by
  obtain ⟨as, has, ha⟩ := h.posted
  obtain ⟨bs, hbs, hb⟩ := h'.posted
  refine ⟨h'.book.trans h.book, as ++ bs, by rw [hbs, has, append_assoc], fun a hmem => ?_⟩
  rcases mem_append.1 hmem with hmem | hmem
  · exact ha a hmem
  · rw [← h.book]
    exact hb a hmem

theorem KeepsTables.posts (h : s.KeepsTables s') : s.Posts s' :=
  .of_eq (congrArg Tables.book h.tables) (congrArg Net.destinations h.net)

def Mails {α : Type} (m : Prog (Shard (Recorder ι) ε) α) : Prop :=
  ∀ s, Allows m s fun _ s' => s.Posts s'

namespace Mails

variable {α β : Type} {m : Prog (Shard (Recorder ι) ε) α}
  {f : α → Prog (Shard (Recorder ι) ε) β}

theorem after (hm : Mails m) (h : s.Posts s') : Allows m s' fun _ s'' => s.Posts s'' :=
  (hm s').mono fun _ _ h' => h.trans h'

theorem pure (a : α) : Mails (pure a : Prog (Shard (Recorder ι) ε) α) :=
  fun s => allows_pure.2 (.refl s)

theorem bind (hm : Mails m) (hf : ∀ a, Mails (f a)) : Mails (m >>= f) := fun s =>
  allows_bind.2 ((hm s).mono fun a _ h => (hf a).after h)

theorem get : Mails (get : Prog (Shard (Recorder ι) ε) _) := fun s => allows_get.2 (.refl s)

theorem assert (b : Bool) : Mails (assert b : Prog (Shard (Recorder ι) ε) _) := fun s =>
  allows_assert.2 fun _ => .refl s

theorem expect (x : Option α) : Mails (expect x : Prog (Shard (Recorder ι) ε) α) := fun s =>
  allows_expect.2 fun _ _ => .refl s

theorem each {g : α → Prog (Shard (Recorder ι) ε) Unit} (h : ∀ a, Mails (g a))
    (as : List α) :
    Mails (each g as) := fun s =>
  allows_each (I := fun s' => s.Posts s') (fun a _ hs => (h a).after hs) as (.refl s)

theorem addTo (c : Counter) (n : Nat) :
    Mails (addTo c n : Prog (Shard (Recorder ι) ε) Unit) := fun s =>
  (addTo_keepsTables c n s).mono fun _ _ h => h.posts

theorem count (c : Counter) : Mails (count c : Prog (Shard (Recorder ι) ε) Unit) := .addTo c 1

theorem emit [EventSink ε] (event : Event) :
    Mails (emit event : Prog (Shard (Recorder ι) ε) Bool) := fun s =>
  (emit_keepsTables event s).mono fun _ _ h => h.posts

theorem onTables {m : Prog Tables α} (hm : Tables.KeepsBook m) :
    Mails (onTables m : Prog (Shard (Recorder ι) ε) α) := fun s =>
  allows_zoom.2 ((hm s.tables).mono fun _ _ h => .of_eq h rfl)

theorem onNet {m : Prog (Net (Recorder ι)) α}
    (hm : ∀ net, Allows m net fun _ net' => net'.destinations = net.destinations) :
    Mails (onNet m : Prog (Shard (Recorder ι) ε) α) := fun s =>
  allows_zoom.2 ((hm s.net).mono fun _ _ h => .of_eq rfl h)

theorem put (b : Nat) : Mails (Shard.onNet (Net.put b) : Prog (Shard (Recorder ι) ε) _) :=
  .onNet fun _ => Net.put_destinations

theorem write (b : Nat) (bytes : Bytes) :
    Mails (Shard.onNet (Net.write b bytes) : Prog (Shard (Recorder ι) ε) _) :=
  .onNet fun _ => Net.write_destinations bytes

theorem data (b len : Nat) :
    Mails (Shard.onNet (Net.data b len) : Prog (Shard (Recorder ι) ε) _) :=
  .onNet fun _ => by
    simp only [Net.data, Net.buf, allows_bind, allows_assert, allows_get, allows_pure]
    exact fun _ => trivial

theorem taken (s : Shard (Recorder ι) ε) :
    Allows (Shard.onNet Net.take) s fun _ s' => s'.tables = s.tables ∧ s.Posts s' :=
  allows_zoom.2 (Net.take_destinations.mono fun _ _ h => ⟨rfl, .of_eq rfl h⟩)

theorem read {b : Nat} {Q : Bytes → Shard (Recorder ι) ε → Prop} (h : ∀ bytes, Q bytes s) :
    Allows (Shard.onNet (Net.buf b)) s Q :=
  allows_zoom.2 (allows_bind.2 (allows_get.2 (allows_pure.2 (h _))))

theorem session {k : Key} {g : Session → Prog (Shard (Recorder ι) ε) β}
    (h : ∀ r s, s.tables.sessions.get k = some r → Allows (g r) s fun _ s' => s.Posts s') :
    Mails (Shard.onTables (Tables.session k) >>= g) := fun _ =>
  allows_bind.2 (allows_readSession fun r hr => h r _ hr)

theorem setSession {k : Key} {r v : Session} (hr : s.tables.sessions.get k = some r)
    (hcard : v.card = r.card) :
    Allows (Shard.onTables (Tables.setSession k v)) s fun _ s' => s.Posts s' :=
  allows_zoom.2 (Allows.mono (setSession_book hr hcard) fun _ _ h => .of_eq h rfl)

theorem push (h : s.Posts s') {d : Datagram} (ha : s.book.Armed d.addr) :
    Allows (Shard.onNet (Net.push d)) s' fun _ s'' => s.Posts s'' := by
  refine allows_zoom.2
    ((Net.push_destinations d).mono fun _ net hnet => h.trans ⟨rfl, [d.addr], hnet, ?_⟩)
  intro a hmem
  rw [mem_singleton.1 hmem, h.book]
  exact ha

variable [DatagramIo ι]

theorem flush : Mails (flush : Prog (Shard (Recorder ι) ε) Unit) := by
  refine .bind .get fun s => ?_
  split_ifs
  · exact .pure ()
  · exact .bind (.onNet fun _ => Net.flush_destinations) fun _ => .bind (.addTo _ _) fun _ =>
      .bind (.addTo _ _) fun _ => .addTo _ _

theorem flushIfFull : Mails (flushIfFull : Prog (Shard (Recorder ι) ε) Unit) := by
  refine .bind .get fun s => ?_
  split_ifs
  · exact .bind (.count _) fun _ => .flush
  · exact .pure ()

end Mails
end Posts

section Media

variable [DatagramIo ι] [EventSink ε] {s : Shard (Recorder ι) ε} {k : Key} {r : Session}

omit [DatagramIo ι] [EventSink ε] in
theorem armed_of_get {o : SrtpOutbound} {a : SocketAddr} (hr : s.tables.sessions.get k = some r)
    (ho : r.srtpOut = some o) (ha : r.addr = some a) : s.book.Armed a :=
  ⟨k, r.card, book_of_get hr, ha, by rw [Session.card, ho]; rfl⟩

omit [EventSink ε] in
theorem requestKeyframe_mails (x : Key) (now : Nat) :
    Mails (requestKeyframe x now : Prog (Shard (Recorder ι) ε) Unit) := by
  refine .bind .flushIfFull fun _ => .bind (.onTables (.track x)) fun track => ?_
  split_ifs
  · exact .bind (.count _) fun _ => .pure ()
  split
  · refine .session fun r s hr => ?_
    split
    next outbound ho =>
      split
      next addr ha =>
        have harmed := armed_of_get hr ho ha
        refine allows_bind.2 ((Mails.taken s).mono fun out s₁ ⟨htables, h₁⟩ => ?_)
        split
        next b =>
          refine allows_bind.2 (Mails.read fun bytes => allows_bind.2 ?_)
          refine (Mails.setSession (htables ▸ hr) (by simp [Session.card, ho])).mono
            fun _ s₂ h₂ => ?_
          have h₂ := h₁.trans h₂
          split
          · exact (Mails.bind (.count _) fun _ => .put b).after h₂
          · refine allows_bind.2 (((Mails.write b _).after h₂).mono fun _ s₃ h₃ => ?_)
            refine allows_bind.2 ((Mails.push h₃ harmed).mono fun _ s₄ h₄ => ?_)
            exact (Mails.bind (.onTables (.setTrack x _)) fun _ => .count _).after h₄
        next => exact (Mails.count _).after h₁
      next => exact Mails.pure () s
    next => exact Mails.pure () s
  · exact .pure ()

omit [EventSink ε] in
theorem translateSrTo_mails (x : Key) (sr : SrInfo) (i : Nat) :
    Mails (translateSrTo x sr i : Prog (Shard (Recorder ι) ε) Unit) := by
  refine .bind .flushIfFull fun _ => .bind (.onTables (.track x)) fun track => ?_
  refine .bind (.expect _) fun y => .bind (.onTables (.sub y)) fun sub => .session fun r s hr => ?_
  split
  next outbound ho =>
    split
    next addr ha =>
      have harmed := armed_of_get hr ho ha
      split_ifs
      · exact Mails.pure () s
      refine allows_bind.2 ((Mails.taken s).mono fun out s₁ ⟨htables, h₁⟩ => ?_)
      split
      next b =>
        refine allows_bind.2 (Mails.read fun bytes => allows_bind.2 ?_)
        refine (Mails.setSession (htables ▸ hr) (by simp [Session.card, ho])).mono
          fun _ s₂ h₂ => ?_
        have h₂ := h₁.trans h₂
        split
        · exact (Mails.bind (.count _) fun _ => .put b).after h₂
        · refine allows_bind.2 (((Mails.write b _).after h₂).mono fun _ s₃ h₃ => ?_)
          refine allows_bind.2 (((Mails.count _).after h₃).mono fun _ s₄ h₄ => ?_)
          exact Mails.push h₄ harmed
      next => exact (Mails.count _).after h₁
    next => exact Mails.pure () s
  next => exact Mails.pure () s

omit [EventSink ε] in
theorem translateSr_mails (publisher : Key) (ssrc : UInt32) (sr : SrInfo) :
    Mails (translateSr publisher ssrc sr : Prog (Shard (Recorder ι) ε) Unit) := by
  refine .bind (.onTables (.session publisher)) fun session => ?_
  split
  · exact .bind (.onTables (.track _)) fun track => .bind (.onTables (.setTrack _ _)) fun _ =>
      .each (translateSrTo_mails _ sr) _
  · exact .pure ()

theorem findSub_keeps (ssrc : UInt32) (xs : List Key) : Tables.KeepsBook (findSub ssrc xs) := by
  induction xs with
  | nil => exact .pure none
  | cons x xs ih =>
    refine .bind (.sub x) fun b => ?_
    split_ifs
    · exact .pure _
    · exact ih

omit [EventSink ε] in
theorem keyframeWanted_mails (subscriber : Key) (now : Nat) (ssrc : UInt32) :
    Mails (keyframeWanted subscriber now ssrc : Prog (Shard (Recorder ι) ε) Unit) := by
  refine .bind (.onTables (.session subscriber)) fun session => ?_
  refine .bind (.onTables (findSub_keeps ssrc _)) fun found => ?_
  split
  · exact .bind (.onTables (.sub _)) fun sub => requestKeyframe_mails _ now
  · exact .pure ()

omit [EventSink ε] in
theorem handleRtcpCompound_mails (k : Key) (buf len now : Nat) :
    Mails (handleRtcpCompound k buf len now : Prog (Shard (Recorder ι) ε) Unit) := by
  refine .bind (.data buf len) fun bytes => ?_
  split
  · exact .count _
  · exact .bind (.addTo _ _) fun _ => .bind (.each (fun _ => translateSr_mails k _ _) _) fun _ =>
      .each (keyframeWanted_mails k now) _

omit [DatagramIo ι] in
theorem handleDtls_mails (d : Datagram) :
    Mails (handleDtls d : Prog (Shard (Recorder ι) ε) Unit) := by
  refine .bind .get fun s => ?_
  split
  · refine .session fun r s' hr => ?_
    split_ifs
    · exact Mails.bind (.count _) (fun _ => .pure ()) s'
    · exact Mails.bind (.count _) (fun _ => .pure ()) s'
    · exact Mails.bind (.count _) (fun _ => .pure ()) s'
    · exact Mails.bind (.count _) (fun _ => .pure ()) s'
    refine allows_bind.2 (Allows.mono (Mails.setSession hr rfl) fun _ s₁ h₁ => ?_)
    rw [allows_bind, allows_modify]
    exact (Mails.bind (.emit _) fun _ => .pure ()).after (h₁.trans (.of_eq rfl rfl))
  · exact .count _

omit [DatagramIo ι] [EventSink ε] in
theorem srtpSession_mails (d : Datagram) :
    Mails (srtpSession d : Prog (Shard (Recorder ι) ε) (Option Key)) := by
  refine .bind .get fun s => ?_
  split
  · refine .bind (.onTables (.session _)) fun r => ?_
    split_ifs
    · exact .bind (.count _) fun _ => .pure _
    · exact .pure _
  · exact .bind (.count _) fun _ => .pure _

omit [DatagramIo ι] in
theorem authenticated_mails (k : Key) (a : SocketAddr) (now : Nat) :
    Mails (authenticated k a now : Prog (Shard (Recorder ι) ε) Unit) := by
  refine .session fun r s hr => ?_
  have hcard : (if r.addr = some a then { r with lastRxSelected := now } else r).card = r.card := by
    split_ifs
    · rfl
    · rfl
  dsimp only
  generalize (if r.addr = some a then { r with lastRxSelected := now } else r) = v at hcard ⊢
  refine allows_bind.2 (Allows.mono (Mails.setSession hr hcard) fun _ s₁ h₁ => ?_)
  split_ifs
  · refine Mails.after (.bind (.emit _) fun delivered => ?_) h₁
    split_ifs
    · exact .session fun r' s' hr' => Mails.setSession hr' rfl
    · exact .pure ()
  · exact Mails.after (.pure ()) h₁

omit [DatagramIo ι] [EventSink ε] in
theorem forward_mails (src len : Nat) (header : Rtp.RtpHeader) (now : Nat) (y : Key) :
    Mails (forward src len header now y : Prog (Shard (Recorder ι) ε) Unit) := by
  refine .bind .get fun _ => .bind (.assert _) fun _ => .bind (.onTables (.sub y)) fun sub => ?_
  refine .session fun r s hr => ?_
  split
  next outbound ho =>
    split
    next addr ha =>
      have harmed := armed_of_get hr ho ha
      refine allows_bind.2 ((Mails.taken s).mono fun out s₁ ⟨htables, h₁⟩ => ?_)
      split
      next b =>
        simp only [allows_bind, allows_assert, allows_get, allows_set]
        intro _
        refine allows_zoom.2 (allows_setSub fun subs => ?_)
        refine Allows.mono (Mails.setSession (r := r) (htables ▸ hr) (by simp [Session.card, ho]))
          fun _ s₂ h₂ => ?_
        have h₂ := h₁.trans (Posts.trans (by exact .of_eq rfl rfl) h₂)
        split
        · exact (Mails.bind (.count _) fun _ => .put b).after h₂
        · refine allows_bind.2 (((Mails.write b _).after h₂).mono fun _ s₃ h₃ => ?_)
          refine allows_bind.2 (((Mails.addTo _ _).after h₃).mono fun _ s₄ h₄ => ?_)
          exact Mails.push h₄ harmed
      next => exact (Mails.count _).after h₁
    next => exact Mails.pure () s
  next => exact Mails.pure () s

omit [EventSink ε] in
theorem fanOut_mails (x : Key) (src len : Nat) (header : Rtp.RtpHeader) (now : Nat) :
    Mails (fanOut x src len header now : Prog (Shard (Recorder ι) ε) Unit) := by
  refine .bind (.onTables (.track x)) fun track => .each (fun i => ?_) _
  exact .bind .flushIfFull fun _ => .bind (.onTables (.track x)) fun _ => .bind (.expect _) fun y =>
    forward_mails src len header now y

omit [DatagramIo ι] [EventSink ε] in
theorem learnSsrc_mails (k : Key) (buf len : Nat) (header : Rtp.RtpHeader) :
    Mails (learnSsrc k buf len header : Prog (Shard (Recorder ι) ε) (Option Key)) := by
  have hfind : ∀ packet xs, Tables.KeepsBook (findUnbound packet header xs) := by
    intro packet xs
    induction xs with
    | nil => exact .pure none
    | cons x xs ih =>
      refine .bind (.track x) fun track => ?_
      dsimp only
      split_ifs
      · exact .pure _
      · exact ih
  refine .bind (.onTables (.session k)) fun session => .bind (.data buf len) fun packet => ?_
  refine .bind (.onTables (hfind packet _)) fun found => ?_
  split
  · exact .bind (.onTables (bindSsrc_keeps k _ _)) fun _ => .bind (.count _) fun _ => .pure _
  · exact .pure none

omit [DatagramIo ι] [EventSink ε] in
theorem unprotect_mails (k : Key) (d : Datagram) (now : Nat) (rtcp : Bool) :
    Mails (unprotect k d now rtcp : Prog (Shard (Recorder ι) ε) (Option Nat)) := by
  refine .bind .get fun s => .session fun r s' hr => ?_
  refine allows_bind.2 (allows_expect.2 fun inbound _ => allows_bind.2 ?_)
  refine Allows.mono (Mails.setSession hr rfl) fun _ s₁ h₁ => ?_
  split
  · exact (Mails.bind (.count _) fun _ => .pure none).after h₁
  · exact (Mails.bind (.write _ _) fun _ => .pure _).after h₁

theorem handleRtp_mails (d : Datagram) (now : Nat) :
    Mails (handleRtp d now : Prog (Shard (Recorder ι) ε) Unit) := by
  refine .bind (srtpSession_mails d) fun found => ?_
  split
  · refine .bind (unprotect_mails _ d now false) fun opened => ?_
    split
    · refine .bind (authenticated_mails _ d.addr now) fun _ => .bind (.data d.buf _)
        fun packet => ?_
      split
      · refine .bind (.onTables (.session _)) fun session => ?_
        split
        · exact fanOut_mails _ _ _ _ now
        · refine .bind (learnSsrc_mails _ _ _ _) fun learned => ?_
          split
          · exact fanOut_mails _ _ _ _ now
          · exact .count _
      · exact .count _
    · exact .pure ()
  · exact .pure ()

theorem handleRtcp_mails (d : Datagram) (now : Nat) :
    Mails (handleRtcp d now : Prog (Shard (Recorder ι) ε) Unit) := by
  refine .bind (srtpSession_mails d) fun found => ?_
  split
  · refine .bind (unprotect_mails _ d now true) fun opened => ?_
    split
    · exact .bind (authenticated_mails _ d.addr now) fun _ => .bind (.count _) fun _ =>
        handleRtcpCompound_mails _ _ _ now
    · exact .pure ()
  · exact .pure ()

end Media

section Sweep

variable [EventSink ε]

theorem reportSwitch_stands (k : Key) (reason : SelectReason) (s : Shard ι ε) :
    Allows (reportSwitch k reason) s fun _ s' => s'.net = s.net ∧ s'.book = s.book ∧
      s'.tables.pendingSwitches = s.tables.pendingSwitches := by
  rw [reportSwitch, allows_bind]
  refine allows_readSession fun r hr => ?_
  split
  · refine allows_bind.2 ((emit_keepsTables _ s).mono fun delivered s₁ h₁ => allows_bind.2 ?_)
    refine allows_readSession fun r₁ hr₁ =>
      allows_zoom.2 (allows_setSession hr₁ fun sessions hget => ?_)
    refine ⟨h₁.net, ?_, congrArg (·.pendingSwitches) h₁.tables⟩
    exact (project_set Session.card hget hr₁ rfl).trans (congrArg Tables.book h₁.tables)
  · exact allows_pure.2 ⟨rfl, rfl, rfl⟩

theorem reportSwitch_mails (k : Key) (reason : SelectReason) :
    Mails (reportSwitch k reason : Prog (Shard (Recorder ι) ε) Unit) := fun s =>
  (reportSwitch_stands k reason s).mono fun _ _ h => .of_eq h.2.1 (congrArg Net.destinations h.1)

theorem checkConsent_mails (k : Key) (now : Nat) :
    Mails (checkConsent k now : Prog (Shard (Recorder ι) ε) Unit) := by
  refine .bind (.onTables (.session k)) fun session => .bind .get fun s => ?_
  split_ifs
  · exact .pure ()
  refine .bind (.emit _) fun delivered => ?_
  split_ifs
  · refine .session fun r s hr =>
      allows_bind.2 (Allows.mono (Mails.setSession hr rfl) fun _ s₁ h₁ => ?_)
    exact (Mails.count _).after h₁
  · exact .pure ()

theorem sweepSession_mails (now : Nat) (k : Key) :
    Mails (sweepSession now k : Prog (Shard (Recorder ι) ε) Unit) := by
  refine .bind .get fun s => .session fun r s' hr => allows_bind.2 ?_
  refine Allows.mono (Mails.setSession hr rfl) fun _ s₁ h₁ => Mails.after ?_ h₁
  split_ifs
  · refine .bind (.onTables (dropPrevAddr_keeps k)) fun _ => ?_
    split
    · exact .bind (reportSwitch_mails k _) fun _ => checkConsent_mails k now
    · exact checkConsent_mails k now
  · split
    · exact .bind (reportSwitch_mails k _) fun _ => checkConsent_mails k now
    · exact checkConsent_mails k now

theorem sweep_mails (now : Nat) : Mails (sweep now : Prog (Shard (Recorder ι) ε) Unit) := by
  have hmodify : ∀ g : Shard (Recorder ι) ε → Shard (Recorder ι) ε,
      (∀ s, KeepsTables s (g s)) → Mails (modify g) :=
        fun g hg s => allows_modify.2 (hg s).posts
  refine .bind .get fun s => ?_
  split_ifs
  · refine .bind (.bind (hmodify _ fun _ => ⟨rfl, rfl, rfl⟩) fun _ => .bind .get fun s =>
      .bind (.assert _) fun _ =>
      .each (fun i => .bind .get fun s' => ?_) _) fun _ => hmodify _ fun _ => ⟨rfl, rfl, rfl⟩
    split
    · exact sweepSession_mails now _
    · exact .pure ()
  · exact .pure ()

theorem pushPending_keepsTables (s : Shard ι ε) :
    Allows pushPending s fun _ s' => s.KeepsTables s' := by
  have hoffer : ∀ (es : List Emission) (s : Shard ι ε), Allows (offerPending es) s fun _ s' =>
      s.KeepsTables s' := by
    intro es
    induction es with
    | nil => exact fun s => allows_pure.2 (.refl s)
    | cons e es ih =>
      intro s
      simp only [offerPending, allows_bind, allows_get]
      split
      · exact allows_bind.2
          (allows_set.2 ((ih _).mono fun _ _ h => ⟨h.tables, h.net, h.config⟩))
      · simp only [allows_bind, allows_set, count, addTo, allows_modify]
        exact (ih _).mono fun _ _ h => ⟨h.tables, h.net, h.config⟩
      · exact allows_set.2 ⟨rfl, rfl, rfl⟩
  exact allows_bind.2 (allows_get.2 (hoffer _ s))

end Sweep
end Shard
end NexusSfu.Dataplane
