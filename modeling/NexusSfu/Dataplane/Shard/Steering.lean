import NexusSfu.Dataplane.Shard.Posting

namespace NexusSfu.Dataplane

open Base Prog Srtp Option Tables

namespace Shard

variable {ι ε : Type}

section Requests

def verifies (s : Shard ι ε) (d : Datagram) : Option Key := do
  let data := (s.net.pool.buf d.buf).take d.len
  let request ← Stun.scan data
  let k ← s.tables.byUfrag.lookup request.localUfrag
  let r ← s.tables.sessions.get k
  if classify data = .stun ∧ Stun.verify s.stun data request r.ice.localPwd.toList then some k
  else none

def requested (s : Shard ι ε) : Action → Option (Key × SocketAddr)
  | .next _ => s.net.rx.head?.bind fun d => (s.verifies d).map (·, d.addr)
  | _ => none

end Requests

section Switches

variable [EventSink ε] {s s' : Shard ι ε} {k : Key} {r : Session} {a : SocketAddr}
  {V : Key → SocketAddr → Prop}

structure Turns (V : Key → SocketAddr → Prop) (s s' : Shard ι ε) : Prop where
  net : s'.net = s.net
  book : s.book.Steers V s'.book

omit [EventSink ε] in
theorem Turns.refl (V : Key → SocketAddr → Prop) (s : Shard ι ε) : Turns V s s :=
  ⟨rfl, .refl V _⟩

omit [EventSink ε] in
theorem Turns.of_eq (hnet : s'.net = s.net) (hbook : s'.book = s.book) : Turns V s s' :=
  ⟨hnet, hbook ▸ .refl V _⟩

omit [EventSink ε] in
theorem Turns.trans {s'' : Shard ι ε} (h : Turns V s s') (h' : Turns V s' s'') : Turns V s s'' :=
  ⟨h'.net.trans h.net, h.book.trans h'.book⟩

theorem switchTo_turns (k : Key) (a : SocketAddr) (reason : SelectReason) (now : Nat)
    (s : Shard ι ε) :
    Allows (switchTo k a reason now) s fun _ s' => Turns (fun j c => j = k ∧ c = a) s s' := by
  unfold switchTo
  rw [allows_bind]
  refine allows_zoom.2 ((selectAddr_steers k a now s.tables).mono fun _ t ht => ?_)
  refine allows_bind.2 ((count_keepsTables _ _).mono fun _ s₁ h₁ => ?_)
  refine (reportSwitch_stands k reason s₁).mono fun _ s₂ h₂ => ⟨h₂.1.trans h₁.net, ?_⟩
  have hbook : s₁.book = t.book := congrArg Tables.book h₁.tables
  rw [h₂.2.1, hbook]
  exact ht

theorem deferNomination_steers (maxSessions : Nat) (k : Key) (a : SocketAddr) (t : Tables) :
    Allows (deferNomination maxSessions k a) t fun _ t' =>
      t.book.Steers (fun j c => j = k ∧ c = a) t'.book := by
  rw [deferNomination, allows_bind]
  refine allows_session fun r hr => ?_
  have hdefer : ∀ c : Card, c.ice = r.ice → c.addr = r.addr → c.nomination = some a →
      t.book.Steers (fun j c => j = k ∧ c = a) (Function.update t.book k (some c)) := by
    intro c hice haddr hnom
    refine .update (book_of_get hr) hice (fun x hx => .inl (haddr.symm.trans hx)) fun x hx =>
      .inr ⟨rfl, ?_⟩
    exact Option.some.inj (hx.symm.trans hnom)
  split_ifs
  · refine allows_setSession hr fun sessions hget => ?_
    rw [book_set hget]
    exact hdefer _ rfl rfl rfl
  · simp only [allows_bind, allows_get, allows_assert, allows_modify]
    refine fun _ => allows_setSession hr fun sessions hget => ?_
    exact (book_set hget).symm ▸ hdefer _ rfl rfl rfl

omit [EventSink ε] in
theorem setNomination_turns (hr : s.tables.sessions.get k = some r) {v : Session}
    (hice : v.ice = r.ice) (haddr : v.addr = r.addr)
    (hnom : ∀ c, v.pendingNomination = some c → r.pendingNomination = some c)
    (V : Key → SocketAddr → Prop) :
    Allows (onTables (Tables.setSession k v)) s fun _ s' => Turns V s s' := by
  refine allows_writeSession hr fun s' hnet hbook => ⟨hnet, ?_⟩
  rw [hbook]
  exact .update (book_of_get hr) hice (fun c hc => .inl (haddr.symm.trans hc)) fun c hc =>
    .inl (hnom c hc)

theorem selectAddress_turns (k : Key) (a : SocketAddr) (nominated : Bool) (now : Nat)
    (s : Shard ι ε) :
    Allows (selectAddress k a nominated now) s fun _ s' =>
      Turns (fun j c => j = k ∧ c = a) s s' := by
  rw [selectAddress, allows_bind]
  refine allows_readSession fun r hr => allows_ite.2 ⟨fun hsame => ?_, fun hsame => ?_⟩
  · refine allows_bind.2
      (Allows.mono (setNomination_turns hr (by rfl) (by rfl) ?_ _) fun _ _ h => allows_pure.2 h)
    intro c hc
    dsimp only at hc
    split_ifs at hc
    exact hc
  rw [allows_bind, allows_get]
  refine allows_ite.2
    ⟨fun _ => allows_pure.2 (.refl _ _), fun _ => allows_ite.2 ⟨fun _ => ?_, fun _ => ?_⟩⟩
  · refine allows_bind.2 ((count_keepsTables _ s).mono fun _ s₁ h₁ => ?_)
    have h₁ : Turns (fun j c => j = k ∧ c = a) s s₁ :=
      .of_eq h₁.net (congrArg Tables.book h₁.tables)
    refine allows_ite.2 ⟨fun _ => ?_, fun _ => allows_pure.2 h₁⟩
    refine allows_bind.2
      (allows_zoom.2 ((deferNomination_steers _ k a s₁.tables).mono fun _ t ht => ?_))
    exact allows_pure.2 ⟨h₁.net, h₁.book.trans ht⟩
  · refine allows_bind.2 (Allows.mono (setNomination_turns hr (by rfl) (by rfl) (by nofun)
      fun j c => j = k ∧ c = a) fun _ s₁ h₁ => ?_)
    exact (switchTo_turns k a _ now s₁).mono fun _ _ h₂ => h₁.trans h₂

theorem applySwitches_turns (now fuel i : Nat) (V : Key → SocketAddr → Prop) (s : Shard ι ε) :
    Allows (applySwitches now fuel i) s fun _ s' => Turns V s s' := by
  induction fuel generalizing i s with
  | zero => exact allows_pure.2 (.refl V s)
  | succ fuel ih =>
    rw [applySwitches]
    simp only [allows_bind, allows_get, allows_expect]
    refine fun k _ => allows_readSession fun r hr =>
      allows_ite.2 ⟨fun _ => ih (i + 1) s, fun _ => ?_⟩
    simp only [allows_bind, allows_modify]
    refine Allows.mono (setNomination_turns (r := r) (by exact hr) (by rfl) (by rfl) (by simp) V)
      fun _ s₁ h₁ => ?_
    have h₁ : Turns V s s₁ := ⟨h₁.net, h₁.book⟩
    cases hn : r.pendingNomination with
    | none => exact (ih i s₁).mono fun _ _ h₂ => h₁.trans h₂
    | some a =>
      refine allows_bind.2 ((switchTo_turns k a .nominated now s₁).mono fun _ s₂ h₂ => ?_)
      have h₂ : Turns V s s₂ :=
        ⟨h₂.net.trans h₁.net, h₁.book.nominated (book_of_get hr) hn h₂.book⟩
      exact (ih i s₂).mono fun _ _ h₃ => h₂.trans h₃

end Switches

section Stun

variable [DatagramIo ι] [EventSink ε]

structure Replied (s : Shard (Recorder ι) ε) (d : Datagram) (s' : Shard (Recorder ι) ε) :
    Prop where
  written : ∃ k r request dst bytes len out, s.verifies d = some k ∧
    s.tables.sessions.get k = some r ∧
    Stun.scan ((s.net.pool.buf d.buf).take d.len) = some request ∧
      Stun.writeSuccess s.stun dst request d.addr r.ice.localPwd.toList =
        some (some (bytes, len)) ∧ s'.net.tx.getLast? = some ⟨out, len, d.addr⟩
  queued : s'.net.destinations = s.net.destinations ++ [d.addr]

omit [DatagramIo ι] in
def heed (k : Key) (a : SocketAddr) (request : Stun.BindingRequest) (now : Nat) :
    Prog (Shard ι ε) Unit := do
  let (replayed, session) := (← onTables (Tables.session k)).noteTransaction request.transactionId
  onTables (Tables.setSession k session)
  if replayed then
    count .stunRepeated
    return ()
  selectAddress k a request.useCandidate now

omit [DatagramIo ι] in
theorem allows_heed {k : Key} {a : SocketAddr} {request : Stun.BindingRequest} {now : Nat}
    {s : Shard ι ε} {Q : Unit → Shard ι ε → Prop}
    (hseen : ∀ r s', s.tables.sessions.get k = some r →
      (r.noteTransaction request.transactionId).1 = true →
      s'.net = s.net → s'.book = s.book → Q () s')
    (hfresh : ∀ r s', s.tables.sessions.get k = some r →
      (r.noteTransaction request.transactionId).1 = false →
      s'.net = s.net → s'.book = s.book →
      Allows (selectAddress k a request.useCandidate now) s' Q) :
    Allows (heed k a request now) s Q := by
  rw [heed, allows_bind]
  refine allows_readSession fun r hr => ?_
  have hcard : (r.noteTransaction request.transactionId).2.card = r.card := by
    rw [Session.noteTransaction]
    split_ifs
    · rfl
    · rfl
  specialize hseen r
  specialize hfresh r
  generalize r.noteTransaction request.transactionId = noted at hcard hseen hfresh ⊢
  refine allows_bind.2 (allows_writeSession hr fun s₁ hnet hbook => ?_)
  have hbook : s₁.book = s.book := by
    rw [hbook, hcard]
    exact Function.update_eq_self_iff.2 (book_of_get hr).symm
  refine allows_ite.2 ⟨fun h => ?_, fun h => ?_⟩
  · refine allows_bind.2 ((count_keepsTables _ s₁).mono fun _ s₂ h₂ => allows_pure.2 ?_)
    exact hseen s₂ hr h (h₂.net.trans hnet) ((congrArg Tables.book h₂.tables).trans hbook)
  · exact hfresh s₁ hr (by simpa using h) hnet hbook

omit [DatagramIo ι] in
theorem heed_turns (k : Key) (a : SocketAddr) (request : Stun.BindingRequest) (now : Nat)
    (s : Shard ι ε) :
    Allows (heed k a request now) s fun _ s' => Turns (fun j c => j = k ∧ c = a) s s' := by
  refine allows_heed (fun _ s' _ _ hnet hbook => .of_eq hnet hbook) fun _ s' _ _ hnet hbook => ?_
  exact (selectAddress_turns k a _ now s').mono fun _ _ h => (Turns.of_eq hnet hbook).trans h

omit [EventSink ε] in
theorem send_queues (buf len : Nat) (a : SocketAddr) (s : Shard (Recorder ι) ε) :
    Allows (send buf len a) s fun _ s' => s'.tables = s.tables ∧ s'.config = s.config ∧
      s'.net.destinations = s.net.destinations ++ [a] ∧
        s'.net.tx.getLast? = some ⟨buf, len, a⟩ := by
  have hflush : Allows flushIfFull s fun _ s' => s'.tables = s.tables ∧ s'.config = s.config ∧
      s'.net.destinations = s.net.destinations := by
    simp only [flushIfFull, flush, allows_bind, allows_get]
    refine allows_ite.2 ⟨fun _ => ?_, fun _ => allows_pure.2 ⟨rfl, rfl, rfl⟩⟩
    refine allows_bind.2 ((count_keepsTables _ s).mono fun _ s₁ h₁ => ?_)
    rw [← h₁.tables, ← h₁.net, ← h₁.config]
    refine allows_ite.2 ⟨fun _ => allows_pure.2 ⟨rfl, rfl, rfl⟩, fun _ => ?_⟩
    refine allows_bind.2 (allows_zoom.2 (Net.flush_destinations.mono fun _ net hnet => ?_))
    simp only [addTo, allows_bind, allows_modify]
    exact ⟨trivial, trivial, hnet⟩
  refine allows_bind.2 (hflush.mono fun _ s₁ h₁ => allows_zoom.2 ?_)
  obtain ⟨htables, hconfig, hdest⟩ := h₁
  simp only [Net.push, allows_bind, allows_get, allows_assert, allows_set]
  refine fun _ _ => ⟨htables, hconfig, ?_, List.getLast?_concat⟩
  rw [← hdest]
  simp [Net.destinations]

inductive Answered (s : Shard (Recorder ι) ε) (d : Datagram) (now : Nat)
    (s' : Shard (Recorder ι) ε) : Prop
  | dropped : s.verifies d = none ∨ s.net.pool.free = [] → s'.book = s.book →
      s'.net.destinations = s.net.destinations → Answered s d now s'
  | heeded {k : Key} {r : Session} {request : Stun.BindingRequest} {s₁ : Shard (Recorder ι) ε} :
      s.verifies d = some k → s.tables.sessions.get k = some r →
      Stun.scan ((s.net.pool.buf d.buf).take d.len) = some request → s₁.tables = s.tables →
      s₁.config = s.config → s₁.net.destinations = s.net.destinations ∨ s.Replied d s₁ →
      heed k d.addr request now s₁ = some ((), s') → Answered s d now s'

theorem handleStun_answers (d : Datagram) (now : Nat) (s : Shard (Recorder ι) ε)
    (hstun : classify ((s.net.pool.buf d.buf).take d.len) = .stun) :
    Allows (handleStun d now) s fun _ s' => s.Answered d now s' := by
  have hdrop : ∀ c, s.verifies d = none → Allows (count c) s fun _ s' =>
      s.Answered d now s' := fun c hnone =>
    (count_keepsTables c s).mono fun _ _ h =>
      .dropped (.inl hnone) (congrArg Tables.book h.tables) (congrArg Net.destinations h.net)
  simp only [handleStun, allows_bind, allows_get]
  split
  next request hscan =>
    split
    next k hk =>
      rw [allows_bind]
      refine allows_readSession fun r hr => allows_ite.2 ⟨fun hverify => ?_, fun hverify => ?_⟩
      · refine allows_bind.2 ((hdrop _ ?_).mono fun _ _ h => allows_pure.2 h)
        simp only [verifies, hscan, hk, hr, bind_eq_bind, bind_some]
        exact if_neg fun h => absurd h.2 (by simpa using hverify)
      have hverified : s.verifies d = some k := by
        simp only [verifies, hscan, hk, hr, bind_eq_bind, bind_some]
        rw [if_pos ⟨hstun, by simpa using hverify⟩]
      refine allows_bind.2 (allows_zoom.2 (Net.take_takes.mono fun taken net htake => ?_))
      obtain ⟨hnet, hempty⟩ := htake
      split
      next out =>
        simp only [allows_bind, allows_assert, allows_expect]
        rintro _ reply hreply
        split
        next bytes len =>
          refine allows_bind.2
            (allows_zoom.2 ((Net.write_destinations bytes).mono fun _ net₂ hnet₂ => ?_))
          refine allows_bind.2 ((count_keepsTables _ _).mono fun _ s₃ h₃ => ?_)
          refine allows_bind.2 ((send_queues out len d.addr s₃).mono fun _ s₄ h₄ => ?_)
          obtain ⟨htables, hconfig, hdest, hlast⟩ := h₄
          intro _ s₅ hheed
          refine .heeded hverified hr hscan (htables.trans h₃.tables) (hconfig.trans h₃.config)
            (.inr ⟨⟨k, r, request, _, bytes, len, out, hverified, hr, hscan, hreply, hlast⟩,
              ?_⟩) hheed
          rw [hdest, h₃.net]
          exact congrArg (· ++ [d.addr]) (hnet₂.trans hnet)
        next =>
          refine allows_bind.2
            (allows_zoom.2 (Net.put_destinations.mono fun _ net₂ hnet₂ => ?_))
          intro _ s₅ hheed
          exact .heeded hverified hr hscan (by rfl) (by rfl) (.inl (hnet₂.trans hnet)) hheed
      next hnone =>
        have htaken : taken = none := eq_none_iff_forall_ne_some.2 hnone
        refine (count_keepsTables _ _).mono fun _ s' h => .dropped (.inr (hempty htaken)) ?_ ?_
        · exact congrArg Tables.book h.tables
        · rw [h.net]
          exact hnet
    next hk =>
      have hk : s.tables.byUfrag.lookup request.localUfrag = none := eq_none_iff_forall_ne_some.2 hk
      refine hdrop _ ?_
      simp only [verifies, hscan, hk, bind_eq_bind, bind_some, bind_none]
  next hscan =>
    have hscan : Stun.scan ((s.net.pool.buf d.buf).take d.len) = none :=
      eq_none_iff_forall_ne_some.2 hscan
    refine hdrop _ ?_
    simp only [verifies, hscan, bind_eq_bind, bind_none]

theorem handleStun_steers (d : Datagram) (now : Nat) (s : Shard (Recorder ι) ε)
    (hstun : classify ((s.net.pool.buf d.buf).take d.len) = .stun) :
    Allows (handleStun d now) s fun _ s' =>
      s.book.Steers (fun k a => s.verifies d = some k ∧ a = d.addr) s'.book ∧
        (s'.net.destinations = s.net.destinations ∨ s.Replied d s') := by
  refine (handleStun_answers d now s hstun).mono fun _ s' h => ?_
  cases h with
  | dropped _ hbook hdest =>
    rw [hbook]
    exact ⟨.refl _ _, .inl hdest⟩
  | @heeded k r request s₁ hk hr hscan htables _ hreplied hheed =>
    have hturns := heed_turns k d.addr request now s₁ _ _ hheed
    have hbook : s₁.book = s.book := congrArg Tables.book htables
    refine ⟨?_, ?_⟩
    · rw [← hbook]
      refine hturns.book.mono ?_
      rintro _ _ ⟨rfl, ha⟩
      exact ⟨hk, ha⟩
    · rw [hturns.net]
      exact hreplied.imp_right fun ⟨hwritten, hqueued⟩ =>
        ⟨by rwa [hturns.net], by rwa [hturns.net]⟩

end Stun
end Shard
end NexusSfu.Dataplane
