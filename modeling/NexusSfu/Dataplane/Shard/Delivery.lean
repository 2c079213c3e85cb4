import NexusSfu.Dataplane.Shard.Steering

namespace NexusSfu.Dataplane

open Base Prog Srtp

def Book.Follows (b : Book) (V : Key → SocketAddr → Prop) (b' : Book) : Prop :=
  ∀ k c', b' k = some c' → (c'.addr = none ∧ c'.nomination = none) ∨ ∃ c,
    b k = some c ∧ c.Steers (V k) c'

theorem Book.Steers.follows {b b' : Book} {V : Key → SocketAddr → Prop} (h : b.Steers V b') :
    b.Follows V b' :=
  fun k c' hc' => .inr (h k c' hc')

theorem Book.Keeps.follows {b b' : Book} (h : b.Keeps b') (V : Key → SocketAddr → Prop) :
    b.Follows V b' := by
  intro k c' hc'
  rcases h k c' hc' with ⟨-, ice, rfl⟩ | ⟨c, hc, hlike⟩
  · exact .inl ⟨rfl, rfl⟩
  · exact .inr ⟨c, hc, hlike.ice, fun a ha => .inl (hlike.addr ▸ ha),
      fun a ha => .inl (hlike.nomination ▸ ha)⟩

theorem Tables.checkTables_reads (t : Tables) : Allows checkTables t fun _ t' => t' = t := by
  simp only [checkTables, allows_bind, allows_get, allows_assert]
  exact fun _ _ _ _ _ => trivial

namespace Shard

variable {ι ε : Type} {s s' s'' : Shard (Recorder ι) ε}

def Media (s s' : Shard (Recorder ι) ε) : Prop :=
  ∃ as, s'.net.destinations = s.net.destinations ++ as ∧ ∀ a ∈ as, ∃ k c c',
    s.book k = some c ∧ s'.book k = some c' ∧ c.addr = some a ∧ c'.addr = some a ∧
    c'.srtp = true

theorem Media.none (h : s'.net.destinations = s.net.destinations) : Media s s' :=
  ⟨[], by rw [h, List.append_nil], nofun⟩

theorem Posts.media (h : s'.Posts s'') (hstands : s.book.Stands s'.book)
    (hdest : s'.net.destinations = s.net.destinations) : s.Media s'' := by
  obtain ⟨as, has, ha⟩ := h.posted
  refine ⟨as, by rw [has, hdest], fun a hmem => ?_⟩
  obtain ⟨k, c', hc', haddr, hsrtp⟩ := ha a hmem
  obtain ⟨c, hc, hlike⟩ := hstands k c' hc'
  exact ⟨k, c, c', hc, h.book.symm ▸ hc', hlike.addr ▸ haddr, haddr, hsrtp⟩

structure Works (s : Shard (Recorder ι) ε) (c : Command) (s' : Shard (Recorder ι) ε) :
    Prop where
  book : s.book.Keeps s'.book
  posted : s.Media s' ∨ ∃ id bytes k r a, c = .sendDatagram id bytes ∧
    s.tables.sessionIds.lookup id = some k ∧ s.tables.sessions.get k = some r ∧
    r.addr = some a ∧
      s'.book = s.book ∧ s'.net.destinations = s.net.destinations ++ [a]

theorem Posts.works (h : s.Posts s') (c : Command) : s.Works c s' :=
  ⟨h.book.symm ▸ .refl s.book, .inl (h.media (.refl _) rfl)⟩

theorem Works.within {s₁ s₂ : Shard (Recorder ι) ε} {c : Command} (h : s₁.Works c s₂)
    (h₁ : s.KeepsTables s₁) (h₂ : s₂.KeepsTables s') : s.Works c s' := by
  have hbook₁ : s₁.book = s.book := congrArg Tables.book h₁.tables
  have hbook₂ : s'.book = s₂.book := congrArg Tables.book h₂.tables
  obtain ⟨hbook, hposted⟩ := h
  refine ⟨by rwa [hbook₂, ← hbook₁], ?_⟩
  rw [Media, h₁.net, hbook₁, h₁.tables] at hposted
  rwa [Media, h₂.net, hbook₂]

section Commands

variable [EventSink ε]

omit [EventSink ε] in
theorem createSession_works (id : SessionId) (ice : IceParams) (base : UInt32) (now : Nat)
    (hmax : s.config.maxSessions ≤ 2 ^ 32) :
    Allows (createSession id ice base now) s fun _ s' =>
      s.Works (.createSession id ice base) s' := by
  simp only [createSession, allows_bind, allows_get]
  refine allows_zoom.2
    ((Tables.createSession_keeps hmax id ice base now s.tables).mono fun r t ht => ?_)
  cases r with
  | error e => exact allows_pure.2 ⟨ht, .inl (.none rfl)⟩
  | ok k => exact allows_bind.2 (allows_modify.2 (allows_pure.2 ⟨ht, .inl (.none rfl)⟩))

omit [EventSink ε] in
theorem closeSession_works (id : SessionId) (s : Shard (Recorder ι) ε) :
    Allows (closeSession id) s fun _ s' => s.Works (.closeSession id) s' := by
  rw [closeSession, allows_bind]
  refine allows_zoom.2 ((Tables.closeSession_stands id s.tables).mono fun r t ht => ?_)
  cases r with
  | error e => exact allows_pure.2 ⟨ht.keeps, .inl (.none rfl)⟩
  | ok k => exact allows_bind.2 (allows_modify.2 (allows_pure.2 ⟨ht.keeps, .inl (.none rfl)⟩))

variable [DatagramIo ι]

omit [EventSink ε] in
theorem sendDatagram_works (id : SessionId) (bytes : Bytes) (s : Shard (Recorder ι) ε) :
    Allows (sendDatagram id bytes) s fun _ s' => s.Works (.sendDatagram id bytes) s' := by
  have hcount : ∀ c, Allows (do count c; return .ok ()) s fun (_ : Outcome) s' =>
      s.Works (.sendDatagram id bytes) s' := fun c =>
    allows_bind.2 ((count_keepsTables c s).mono fun _ _ h => allows_pure.2 (h.posts.works _))
  simp only [sendDatagram, allows_bind, allows_get]
  split
  next k hk =>
    refine allows_bind.2 (allows_readSession fun r hr => ?_)
    split
    next a ha =>
      refine allows_ite.2 ⟨fun _ => hcount _, fun _ => ?_⟩
      refine allows_bind.2 (allows_zoom.2 (Net.take_destinations.mono fun taken net hnet => ?_))
      split
      next buf =>
        refine allows_bind.2
          (allows_zoom.2 ((Net.write_destinations bytes).mono fun _ net₂ hnet₂ => ?_))
        refine allows_bind.2 ((send_queues buf _ a _).mono fun _ s₃ h₃ => allows_pure.2 ?_)
        obtain ⟨htables, -, hdest, -⟩ := h₃
        have hbook : s₃.book = s.book := congrArg Tables.book htables
        refine ⟨hbook ▸ .refl _, .inr ⟨id, bytes, k, r, a, rfl, hk, hr, ha, hbook, ?_⟩⟩
        exact hdest.trans (congrArg (· ++ [a]) (hnet₂.trans hnet))
      next =>
        refine allows_bind.2 ((count_keepsTables _ _).mono fun _ s₂ h₂ => allows_pure.2 ?_)
        have hposts : s.Posts { s with net } := .of_eq rfl hnet
        exact (hposts.trans h₂.posts).works _
    next => exact hcount _
  next => exact allows_pure.2 ((Posts.refl s).works _)

omit [EventSink ε] in
theorem installSrtp_works (id : SessionId) (keys : SrtpInstall) (now : Nat)
    (s : Shard (Recorder ι) ε) :
    Allows (installSrtp id keys now) s fun _ s' => s.Works (.installSrtp id keys) s' := by
  rw [installSrtp, allows_bind]
  refine allows_zoom.2 ((Tables.setupSrtp_stands id keys s.tables).mono fun r t ht => ?_)
  have hworks : ∀ s', Posts { s with tables := t } s' → s.Works (.installSrtp id keys) s' := by
    intro s' h
    refine ⟨?_, .inl (h.media ht rfl)⟩
    rw [h.book]
    exact ht.keeps
  cases r with
  | error e => exact allows_pure.2 (hworks _ (.refl _))
  | ok k =>
    refine Allows.mono
      (Mails.bind (.onTables (.session k)) (fun session => .bind (.each (fun i => ?_) _)
      fun _ => .pure _) { s with tables := t }) fun _ s' h => hworks s' h
    exact .bind (.onTables (.session k)) fun _ => .bind (.expect _) fun y =>
      .bind (.onTables (.sub y))
      fun _ => requestKeyframe_mails _ now

omit [EventSink ε] in
theorem subscribe_mails (id : SessionId) (sub : SubscriptionId) (track : TrackId)
    (spec : SubSpec) (now : Nat) :
    Mails (subscribe id sub track spec now : Prog (Shard (Recorder ι) ε) Outcome) := by
  refine .bind .get fun s => .bind (.onTables (Tables.addSubscription_keeps _ id sub track spec))
    fun r => ?_
  cases r with
  | error e => exact .pure _
  | ok found =>
    refine .bind (.onTables (.session _)) fun session => ?_
    split_ifs
    · exact .bind (requestKeyframe_mails _ now) fun _ => .pure _
    · exact .pure _

omit [EventSink ε] in
theorem execute_works (now : Nat) (c : Command) (hmax : s.config.maxSessions ≤ 2 ^ 32) :
    Allows (execute now c) s fun _ s' => s.Works c s' := by
  have hmails : ∀ {m : Prog (Shard (Recorder ι) ε) Outcome}, Mails m →
      Allows m s fun _ s' => s.Works c s' := fun hm => (hm s).mono fun _ _ h => h.works c
  cases c with
  | createSession id ice base => exact createSession_works id ice base now hmax
  | sendDatagram id bytes => exact sendDatagram_works id bytes s
  | installSrtp id keys => exact installSrtp_works id keys now s
  | addTrack id track spec => exact hmails (.onTables (Tables.addTrack_keeps id track spec))
  | removeTrack track => exact hmails (.onTables (Tables.removeTrackCmd_keeps track))
  | subscribe id sub track spec => exact hmails (subscribe_mails id sub track spec now)
  | unsubscribe sub => exact hmails (.onTables (Tables.unsubscribe_keeps sub))
  | closeSession id => exact closeSession_works id s

theorem handleCommand_works (now : Nat) (c : Command) (hmax : s.config.maxSessions ≤ 2 ^ 32) :
    Allows (handleCommand now c) s fun _ s' => s.Works c s' := by
  have hcheck : ∀ s₂ : Shard (Recorder ι) ε, Allows (onTables Tables.checkTables) s₂
      fun _ s' => s₂.KeepsTables s' :=
    fun s₂ =>
      allows_zoom.2 ((Tables.checkTables_reads s₂.tables).mono fun _ t ht => ⟨ht, rfl, rfl⟩)
  refine allows_bind.2 (allows_modify.2 (allows_bind.2 ?_))
  refine (execute_works now c (by exact hmax)).mono fun r s₁ h₁ => ?_
  cases r with
  | ok _ => exact (hcheck s₁).mono fun _ _ h₂ => h₁.within ⟨rfl, rfl, rfl⟩ h₂
  | error e =>
    refine allows_bind.2 ((count_keepsTables _ s₁).mono fun _ s₂ h₂ => ?_)
    refine allows_bind.2 ((emit_keepsTables _ s₂).mono fun _ s₃ h₃ => ?_)
    exact (hcheck s₃).mono fun _ _ h₄ => h₁.within ⟨rfl, rfl, rfl⟩
      ((h₂.trans h₃).trans h₄)

end Commands

section Operations

variable [DatagramIo ι] [EventSink ε]

inductive Posted (s : Shard (Recorder ι) ε) : Action → Shard (Recorder ι) ε → Prop
  | reply {d : Datagram} {now : Nat} {t : Shard (Recorder ι) ε} :
      s.net.rx.head? = some d → s.Replied d t → Posted s (.next now) t
  | control {now : Nat} {id : SessionId} {bytes : Bytes} {k : Key} {r : Session} {a : SocketAddr}
      {t : Shard (Recorder ι) ε} :
      s.commands.head? = some (.sendDatagram id bytes) →
        s.tables.sessionIds.lookup id = some k →
      s.tables.sessions.get k = some r → r.addr = some a → t.book = s.book →
      t.net.destinations = s.net.destinations ++ [a] → Posted s (.command now) t
  | media {op : Action} {t : Shard (Recorder ι) ε} : s.Media t → Posted s op t

structure Delivers (s : Shard (Recorder ι) ε) (op : Action) (s' : Shard (Recorder ι) ε) :
    Prop where
  book : s.book.Follows (fun k a => s.requested op = some (k, a)) s'.book
  posted : s.Posted op s'

omit [DatagramIo ι] [EventSink ε] in
theorem Posts.delivers (h : s.Posts s') (op : Action) : s.Delivers op s' :=
  ⟨h.book.symm ▸ (Book.Steers.refl _ s.book).follows, .media (h.media (.refl _) rfl)⟩

theorem handleDatagram_delivers (d : Datagram) (now : Nat) (s : Shard (Recorder ι) ε) :
    Allows (handleDatagram d now) s fun _ s' =>
      s.book.Steers (fun k a => s.verifies d = some k ∧ a = d.addr) s'.book ∧
        (s.Media s' ∨ s.Replied d s') := by
  have hmails : ∀ {m : Prog (Shard (Recorder ι) ε) Unit} {s₁ : Shard (Recorder ι) ε},
      Mails m → s.Posts s₁ → Allows m s₁ fun _ s' =>
        s.book.Steers (fun k a => s.verifies d = some k ∧ a = d.addr) s'.book ∧
          (s.Media s' ∨ s.Replied d s') := by
    intro m s₁ hm h₁
    refine (hm.after h₁).mono fun _ s' h => ⟨?_, .inl (h.media (.refl _) rfl)⟩
    exact h.book.symm ▸ .refl _ _
  simp only [handleDatagram, count, addTo, Net.data, Net.buf, allows_bind, allows_modify]
  refine allows_zoom.2 ?_
  simp only [allows_bind, allows_assert, allows_get, allows_pure]
  intro _
  split
  next hclass =>
    refine Allows.mono (handleStun_steers d now _ (by exact hclass)) fun _ s' h => ⟨h.1, ?_⟩
    exact h.2.imp (fun h => .none h) fun h => ⟨h.written, h.queued⟩
  next => exact hmails (handleDtls_mails d) (.of_eq rfl rfl)
  next => exact hmails (handleRtp_mails d now) (.of_eq rfl rfl)
  next => exact hmails (handleRtcp_mails d now) (.of_eq rfl rfl)
  next => exact hmails (.count _) (.of_eq rfl rfl)

theorem handleNext_delivers (now : Nat) (s : Shard (Recorder ι) ε) :
    Allows (handleNext now) s fun _ s' => s.Delivers (.next now) s' := by
  simp only [handleNext, allows_bind]
  refine allows_zoom.2 ?_
  simp only [Net.nextReceived, allows_bind, allows_get]
  cases hrx : s.net.rx with
  | nil => exact allows_pure.2 (allows_pure.2 ((Posts.refl s).delivers _))
  | cons d rx =>
    refine allows_bind.2 (allows_set.2 (allows_pure.2 (allows_bind.2 ?_)))
    refine (handleDatagram_delivers d now _).mono fun _ s₂ h₂ => allows_zoom.2 ?_
    simp only [Net.put, allows_bind, allows_get, allows_expect, allows_set]
    refine fun pool _ => ⟨Book.Steers.follows (h₂.1.mono ?_), ?_⟩
    · rintro k _ ⟨hk, rfl⟩
      simp only [requested, hrx, List.head?_cons, Option.bind_some]
      exact Option.map_eq_some_iff.2 ⟨k, hk, rfl⟩
    · rcases h₂.2 with h | h
      · exact .media h
      · exact .reply (d := d) (by rw [hrx]; rfl) ⟨h.written, h.queued⟩

theorem nextCommand_delivers (now : Nat) (hmax : s.config.maxSessions ≤ 2 ^ 32) :
    Allows (nextCommand now) s fun _ s' => s.Delivers (.command now) s' := by
  simp only [nextCommand, allows_bind, allows_get]
  cases hc : s.commands with
  | nil => exact allows_pure.2 ((Posts.refl s).delivers _)
  | cons c rest =>
    refine allows_bind.2 (allows_set.2 (allows_bind.2 ?_))
    refine (handleCommand_works now c (by exact hmax)).mono fun _ s' h =>
      allows_pure.2 ⟨h.book.follows _, ?_⟩
    rcases h.posted with h | ⟨id, bytes, k, r, a, rfl, hid, hr, ha, hbook, hdest⟩
    · exact .media h
    · exact .control (by rw [hc]; rfl) hid hr ha hbook hdest

omit [EventSink ε] in
theorem receive_mails : Mails (receive : Prog (Shard (Recorder ι) ε) RecvResult) := by
  have hrest : ∀ received : RecvResult, Mails (do
      assert (received.received = (← get).net.rx.length)
      addTo .rxTruncated received.truncated
      addTo .rxUnreadable received.unreadable
      return received : Prog (Shard (Recorder ι) ε) RecvResult) := fun received =>
    .bind .get fun _ => .bind (.assert _) fun _ => .bind (.addTo _ _) fun _ => .bind (.addTo _ _)
      fun _ => .pure _
  refine .bind (.count _) fun _ => .bind (.onNet fun _ => Net.receive_destinations) fun result => ?_
  cases result with
  | ok _ => exact hrest _
  | error _ => exact .bind (.count _) fun _ => hrest _

omit [DatagramIo ι] [EventSink ε] in
theorem pushCommand_mails (c : Command) :
    Mails (pushCommand c : Prog (Shard (Recorder ι) ε) Bool) := by
  intro s
  simp only [pushCommand, allows_bind, allows_get]
  refine allows_ite.2 ⟨fun _ => allows_pure.2 (.refl s), fun _ => ?_⟩
  exact allows_bind.2 (allows_set.2 (allows_pure.2 (.of_eq rfl rfl)))

def Action.single : Action → Bool
  | .iterate _ => false
  | _ => true

theorem act_delivers {op : Action} (hop : op.single) (hmax : s.config.maxSessions ≤ 2 ^ 32) :
    Allows (act op) s fun _ s' => s.Delivers op s' := by
  have hmails : ∀ {m : Prog (Shard (Recorder ι) ε) Unit}, Mails m →
      Allows m s fun _ s' => s.Delivers op s' := fun hm => (hm s).mono fun _ _ h => h.delivers op
  cases op with
  | iterate now => cases hop
  | receive =>
    refine hmails (.bind .get fun s => ?_)
    split_ifs
    · exact .bind receive_mails fun _ => .pure _
    · exact .pure _
  | next now => exact handleNext_delivers now s
  | switches now =>
    refine allows_bind.2 (allows_get.2 ?_)
    refine (applySwitches_turns now _ 0 _ s).mono fun _ s' h =>
      ⟨h.book.follows, .media (.none ?_)⟩
    exact congrArg Net.destinations h.net
  | flush => exact hmails .flush
  | command now =>
    exact allows_bind.2 ((nextCommand_delivers now hmax).mono fun _ _ h => allows_pure.2 h)
  | retry => exact hmails fun s => (pushPending_keepsTables s).mono fun _ _ h => h.posts
  | sweep now => exact hmails (sweep_mails now)
  | push c => exact hmails (.bind (pushCommand_mails c) fun _ => .pure _)

end Operations
end Shard
end NexusSfu.Dataplane
