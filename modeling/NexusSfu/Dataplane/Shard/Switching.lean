import NexusSfu.Dataplane.Shard.Delivery

namespace NexusSfu.Dataplane

open Base Prog Srtp Function Tables Option

def Card.Recent (c : Card) (now : Nat) : Prop :=
  ∃ t, c.lastSwitch = some t ∧ now < t + minSwitchInterval

theorem Card.recent_iff {c : Card} {now : Nat} :
    c.Recent now ↔
      c.lastSwitch.any (fun last => decide (now - last < minSwitchInterval)) = true := by
  simp only [Recent, any_eq_true, decide_eq_true_eq]
  refine exists_congr fun t => and_congr_right fun _ => ?_
  simp only [minSwitchInterval]
  omega

theorem Card.recent_iff_not_due {c : Card} {now : Nat} :
    c.Recent now ↔
      (!c.lastSwitch.all fun last => decide (now - last ≥ minSwitchInterval)) = true := by
  rw [recent_iff]
  cases c.lastSwitch with
  | none => simp
  | some last => simp

structure Switch where
  key : Key
  addr : SocketAddr
  time : Nat

namespace Book

variable {b b' b'' : Book} {x : Switch} {k : Key} {c : Card} {a : SocketAddr} {now : Nat}

structure Switches (b : Book) (x : Switch) (b' : Book) : Prop where
  own : ∃ c c', b x.key = some c ∧ b' x.key = some c' ∧ c.addr ≠ some x.addr ∧
    ¬ c.Recent x.time ∧ c'.addr = some x.addr ∧ c'.nomination = none ∧
    c'.lastSwitch = some x.time
  others : ∀ j, j ≠ x.key → b' j = b j ∨
    ∃ c, b j = some c ∧ c.addr = some x.addr ∧ b' j = some { c with addr := none }

inductive Heeds (b : Book) (k : Key) (a : SocketAddr) (nominated : Bool) (now : Nat) (b' : Book) :
    Prop
  | stays {c : Card} : b k = some c → c.addr = some a → b' = update b k
      (some { c with nomination := if nominated then none else c.nomination }) →
        Heeds b k a nominated now b'
  | ignored : nominated = false → b' = b → Heeds b k a nominated now b'
  | waits {c : Card} : nominated = true → b k = some c → c.addr ≠ some a → c.Recent now →
      b' = update b k (some { c with nomination := some a, listed := true }) →
      Heeds b k a nominated now b'
  | switches : b.Switches ⟨k, a, now⟩ b' → Heeds b k a nominated now b'

def Waiting (b : Book) (now : Nat) (k : Key) : Prop :=
  ∃ c a, b k = some c ∧ c.nomination = some a ∧ c.Recent now

theorem Waiting.update {c' : Card} {j : Key} (h : b.Waiting now j) (hk : b k = some c)
    (hc : c.nomination = none) :
    Waiting (update b k (some c')) now j := by
  obtain ⟨d, a, hd, hnom, hrecent⟩ := h
  refine ⟨d, a, ?_, hnom, hrecent⟩
  rw [update_of_ne, hd]
  rintro rfl
  cases hd.symm.trans hk
  cases hnom.symm.trans hc

theorem Switches.waiting {j : Key} (h : b.Switches x b') (hj : b.Waiting x.time j) :
    b'.Waiting x.time j := by
  obtain ⟨d, a, hd, hnom, hrecent⟩ := hj
  by_cases hkey : j = x.key
  · obtain ⟨c, c', hc, -, -, hnot, -⟩ := h.own
    cases hd.symm.trans (hkey ▸ hc)
    exact absurd hrecent hnot
  · rcases h.others j hkey with hsame | ⟨c, hc, -, hc'⟩
    · exact ⟨d, a, hsame ▸ hd, hnom, hrecent⟩
    · cases hd.symm.trans hc
      exact ⟨_, a, hc', hnom, hrecent⟩

/-- What the pass over the waiting nominations does: entries without one are taken off, and sessions
switch to theirs. -/
inductive Applies (now : Nat) : Book → Book → Prop
  | done (b : Book) : Applies now b b
  | drop {b b' : Book} {k : Key} {c : Card} : b k = some c → c.nomination = none →
      Applies now (update b k (some { c with listed := false })) b' → Applies now b b'
  | switch {b b₁ b' : Book} {k : Key} {c : Card} {a : SocketAddr} : b k = some c →
    c.nomination = some a →
      b.Switches ⟨k, a, now⟩ b₁ → Applies now b₁ b' → Applies now b b'

end Book

namespace Tables

variable {t : Tables} {k : Key} {a : SocketAddr} {now : Nat}

structure Selects (t : Tables) (k : Key) (a : SocketAddr) (now : Nat) (t' : Tables) : Prop where
  own : ∃ c, t.book k = some c ∧ c.addr ≠ some a ∧
    t'.book k = some { c with addr := some a, lastSwitch := some now }
  others : ∀ j, j ≠ k → t'.book j = t.book j ∨
    ∃ c, t.book j = some c ∧ c.addr = some a ∧ t'.book j = some { c with addr := none }
  switches : t'.pendingSwitches = t.pendingSwitches

theorem forgetAddress_loses (j : Key) (a : SocketAddr) (t : Tables) :
    Allows (forgetAddress j a) t fun _ t' => t'.pendingSwitches = t.pendingSwitches ∧
      (t'.book = t.book ∨ ∃ c, t.book j = some c ∧ c.addr = some a ∧
        t'.book = update t.book j (some { c with addr := none })) := by
  rw [forgetAddress, allows_bind]
  refine allows_session fun r hr => allows_setSession hr fun sessions hget => ⟨rfl, ?_⟩
  rw [book_set hget]
  by_cases ha : r.addr = some a
  · refine .inr ⟨r.card, book_of_get hr, ha, ?_⟩
    simp [Session.card, ha]
  · refine .inl (update_eq_self_iff.2 ?_)
    rw [book_of_get hr]
    simp [Session.card, ha]

theorem dropPrevAddr_lists (k : Key) (t : Tables) :
    Allows (dropPrevAddr k) t fun _ t' => t'.pendingSwitches = t.pendingSwitches := by
  simp only [dropPrevAddr, unmapAddr, allows_bind, allows_modify]
  exact allows_session fun r hr => allows_setSession hr fun _ _ => rfl

theorem selectAddr_selects (k : Key) (a : SocketAddr) (now : Nat) (t : Tables) :
    Allows (selectAddr k a now) t fun _ t' => t.Selects k a now t' := by
  rw [selectAddr, allows_bind]
  refine allows_session fun r hr => ?_
  simp only [allows_bind, allows_assert]
  refine fun hne => ((dropPrevAddr_keeps k t).and (dropPrevAddr_lists k t)).mono
    fun _ t₁ h₁ => ?_
  obtain ⟨h₁, hlist₁⟩ := h₁
  refine allows_session fun r₁ hr₁ => allows_setSession hr₁ fun sessions hget => ?_
  have hcard : t.book k = some r₁.card := by rw [← h₁, book_of_get hr₁]
  have hne : r₁.card.addr ≠ some a := by
    rw [book_of_get hr] at hcard
    rw [← Option.some.inj hcard]
    simpa [Session.card] using hne
  have hbook : book { t₁ with sessions } =
      update t.book k (some { r₁.card with addr := some a, lastSwitch := some now }) := by
    rw [book_set hget, h₁]
    rfl
  simp only [claimAddress, allows_bind, allows_get, allows_set]
  have hselects : ∀ t' : Tables, t'.pendingSwitches = t₁.pendingSwitches →
      t'.book = book { t₁ with sessions } → t.Selects k a now t' := by
    intro t' hlist hbook'
    refine ⟨⟨r₁.card, hcard, hne, ?_⟩, fun j hj => .inl ?_, hlist.trans hlist₁⟩
    · rw [hbook', hbook, update_self]
    · rw [hbook', hbook, update_of_ne hj]
  split
  next other _ =>
    refine allows_ite.2 ⟨fun hother => ?_, fun _ => allows_pure.2 (hselects _ rfl rfl)⟩
    refine (forgetAddress_loses other a _).mono fun _ t' ht' => ?_
    obtain ⟨hlist, hloses⟩ := ht'
    rcases hloses with hsame | ⟨c, hc, hca, hlost⟩
    · exact hselects t' hlist hsame
    · have hc : update t.book k
          (some { r₁.card with addr := some a, lastSwitch := some now }) other =
          some c := hbook ▸ hc
      rw [update_of_ne hother] at hc
      have hlost : t'.book = update (book { t₁ with sessions }) other
          (some { c with addr := none }) :=
        hlost
      rw [hbook] at hlost
      refine ⟨⟨r₁.card, hcard, hne, ?_⟩, fun j hj => ?_, hlist.trans hlist₁⟩
      · rw [hlost, update_of_ne hother.symm, update_self]
      · by_cases hjo : j = other
        · subst hjo
          exact .inr ⟨c, hc, hca, by rw [hlost, update_self]⟩
        · exact .inl (by rw [hlost, update_of_ne hjo, update_of_ne hj])
  next => exact allows_pure.2 (hselects _ rfl rfl)

theorem Selects.book_switches {t' : Tables} {b : Book} {c c₁ : Card} (h : t.Selects k a now t')
    (hk : b k = some c) (hbook : t.book = update b k (some c₁)) (haddr : c₁.addr = c.addr)
    (hnom : c₁.nomination = none) (hrecent : ¬ c.Recent now) :
    b.Switches ⟨k, a, now⟩ t'.book := by
  obtain ⟨c₂, hc₂, hne, hc₃⟩ := h.own
  rw [hbook, update_self] at hc₂
  cases hc₂
  refine ⟨⟨c, _, hk, hc₃, haddr ▸ hne, hrecent, rfl, hnom, rfl⟩, fun j hj => ?_⟩
  have hother := h.others j hj
  rwa [hbook, update_of_ne hj] at hother

end Tables

namespace Shard

variable {ι ε : Type}

section Requests

def fresh (s : Shard ι ε) (d : Datagram) : Option (Key × Bool) := do
  let k ← s.verifies d
  let r ← s.tables.sessions.get k
  let request ← Stun.scan ((s.net.pool.buf d.buf).take d.len)
  if (r.noteTransaction request.transactionId).1 then none else some (k, request.useCandidate)

def heard (s : Shard ι ε) : Action → Option (Key × SocketAddr × Bool)
  | .next _ =>
    s.net.rx.head?.bind fun d => (s.fresh d).map fun (k, nominated) => (k, d.addr, nominated)
  | _ => none

inductive Hears (s : Shard ι ε) (d : Datagram) (now : Nat) (s' : Shard ι ε) : Prop
  | nothing : s.fresh d = none ∨ s.net.pool.free = [] → s'.book = s.book → Hears s d now s'
  | request {k : Key} {nominated : Bool} : s.fresh d = some (k, nominated) →
      s.book.Heeds k d.addr nominated now s'.book → Hears s d now s'

inductive Moved (s : Shard ι ε) : Action → Shard ι ε → Prop
  | keeps {op : Action} {s' : Shard ι ε} : (∀ now, op ≠ .switches now) →
      s.heard op = none ∨ s.net.pool.free = [] → s.book.Keeps s'.book → Moved s op s'
  | heeds {now : Nat} {k : Key} {a : SocketAddr} {nominated : Bool} {s' : Shard ι ε} :
      s.heard (.next now) = some (k, a, nominated) → s.book.Heeds k a nominated now s'.book →
      Moved s (.next now) s'
  | applies {now : Nat} {s' : Shard ι ε} : s.book.Applies now s'.book →
      (∀ k ∈ s'.tables.pendingSwitches, s'.book.Waiting now k) → Moved s (.switches now) s'

end Requests

variable [EventSink ε] {s s' : Shard ι ε} {k : Key} {r : Session} {a : SocketAddr} {now : Nat}

theorem switchTo_selects (k : Key) (a : SocketAddr) (reason : SelectReason) (now : Nat)
    (s : Shard ι ε) :
    Allows (switchTo k a reason now) s fun _ s' => s.tables.Selects k a now s'.tables := by
  unfold switchTo
  rw [allows_bind]
  refine allows_zoom.2 ((selectAddr_selects k a now s.tables).mono fun _ t ht => ?_)
  refine allows_bind.2 ((count_keepsTables _ _).mono fun _ s₁ h₁ => ?_)
  refine (reportSwitch_stands k reason s₁).mono fun _ s₂ ⟨_, hbook, hlist⟩ => ?_
  have hbook : s₂.tables.book = t.book := hbook.trans (congrArg Tables.book h₁.tables)
  refine ⟨?_, ?_, hlist.trans ((congrArg (·.pendingSwitches) h₁.tables).trans ht.switches)⟩
  · rw [hbook]
    exact ht.own
  · rw [hbook]
    exact ht.others

theorem deferNomination_book (maxSessions : Nat) (a : SocketAddr) {t : Tables}
    (hr : t.sessions.get k = some r) : Allows (deferNomination maxSessions k a) t fun _ t' =>
      t'.book = update t.book k (some { r.card with nomination := some a, listed := true }) := by
  rw [deferNomination, allows_bind]
  refine allows_session fun r' hr' => ?_
  cases hr.symm.trans hr'
  refine allows_ite.2 ⟨fun hlisted => ?_, fun _ => ?_⟩
  · refine allows_setSession hr fun sessions hget => ?_
    rw [book_set hget, ← hlisted]
    rfl
  · simp only [allows_bind, allows_get, allows_assert, allows_modify]
    exact fun _ => allows_setSession hr fun sessions hget => book_set hget

theorem selectAddress_heeds (k : Key) (a : SocketAddr) (nominated : Bool) (now : Nat)
    (s : Shard ι ε) :
    Allows (selectAddress k a nominated now) s fun _ s' =>
      s.book.Heeds k a nominated now s'.book := by
  rw [selectAddress, allows_bind]
  refine allows_readSession fun r hr => allows_ite.2 ⟨fun hsame => ?_, fun hsame => ?_⟩
  · refine allows_bind.2 (allows_writeSession hr fun s' _ hbook => allows_pure.2 ?_)
    exact .stays (book_of_get hr) hsame hbook
  rw [allows_bind, allows_get]
  refine allows_ite.2 ⟨fun hcheck => allows_pure.2 (.ignored (by simpa using hcheck.1) rfl),
    fun _ => ?_⟩
  refine allows_ite.2 ⟨fun hrecent => ?_, fun hrecent => ?_⟩
  · refine allows_bind.2 ((count_keepsTables _ s).mono fun _ s₁ h₁ => ?_)
    have hbook : s₁.book = s.book := congrArg Tables.book h₁.tables
    refine allows_ite.2
      ⟨fun hn => ?_, fun hn => allows_pure.2 (.ignored (by simpa using hn) hbook)⟩
    have hr₁ : s₁.tables.sessions.get k = some r := by rw [h₁.tables, hr]
    refine allows_bind.2
      (allows_zoom.2 ((deferNomination_book _ a hr₁).mono fun _ t ht => allows_pure.2 ?_))
    refine .waits hn (book_of_get hr) hsame (Card.recent_iff.2 hrecent) (ht.trans ?_)
    exact congrArg (update · _ _) hbook
  · refine allows_bind.2 (allows_writeSession hr fun s₁ _ hbook => ?_)
    refine (switchTo_selects k a _ now s₁).mono fun _ s₂ h₂ => .switches ?_
    exact h₂.book_switches (book_of_get hr) hbook rfl rfl fun h => hrecent (Card.recent_iff.1 h)

theorem applySwitches_applies (now fuel i : Nat) (s : Shard ι ε)
    (hlen : i + fuel = s.tables.pendingSwitches.length)
    (hwait : ∀ j < i, ∀ k, s.tables.pendingSwitches[j]? = some k → s.book.Waiting now k) :
    Allows (applySwitches now fuel i) s fun _ s' => s.book.Applies now s'.book ∧
      ∀ k ∈ s'.tables.pendingSwitches, s'.book.Waiting now k := by
  induction fuel generalizing i s with
  | zero =>
    refine allows_pure.2 ⟨.done _, fun k hk => ?_⟩
    obtain ⟨j, hj⟩ := List.mem_iff_getElem?.1 hk
    exact hwait j (by have := (List.getElem?_eq_some_iff.1 hj).1; omega) k hj
  | succ fuel ih =>
    rw [applySwitches]
    simp only [allows_bind, allows_get, allows_expect]
    intro k hk
    refine allows_readSession fun r hr => allows_ite.2 ⟨fun hskip => ?_, fun hdue => ?_⟩
    · refine ih (i + 1) s (by omega) fun j hj k' hk' => ?_
      rcases Nat.lt_succ_iff_lt_or_eq.1 hj with hj | rfl
      · exact hwait j hj k' hk'
      · cases hk.symm.trans hk'
        obtain ⟨a, ha⟩ := isSome_iff_exists.1 hskip.1
        exact ⟨r.card, a, book_of_get hr, ha, Card.recent_iff_not_due.2 hskip.2⟩
    have hi : i < s.tables.pendingSwitches.length := by omega
    have hlen' := length_swapRemove hi
    simp only [allows_bind, allows_modify]
    refine allows_zoom.2 (allows_setSession (by exact hr) fun sessions hget => ?_)
    have hbook := book_set (t := s.tables) hget
    have hbefore : ∀ j < i, ∀ k', (swapRemove s.tables.pendingSwitches i)[j]? = some k' →
        s.book.Waiting now k' :=
      fun j hj k' hk' => hwait j hj k' (getElem?_of_swapRemove hj hk')
    cases hn : r.pendingNomination with
    | none =>
      refine (ih i _ (by dsimp only; omega) fun j hj k' hk' => ?_).mono fun _ s' h =>
        ⟨.drop (book_of_get hr) hn ?_, h.2⟩
      · change Book.Waiting (Tables.book { s.tables with sessions }) now k'
        rw [hbook]
        exact (hbefore j hj k' hk').update (book_of_get hr) hn
      · have happly : Book.Applies now (Tables.book { s.tables with sessions }) s'.book := h.1
        rw [hbook] at happly
        simp only [Session.card, hn] at happly ⊢
        exact happly
    | some a =>
      have hrecent : ¬ r.card.Recent now := fun h =>
        hdue ⟨by simp [hn], Card.recent_iff_not_due.1 h⟩
      refine allows_bind.2 ((switchTo_selects k a .nominated now _).mono fun _ s₂ h₂ => ?_)
      have hswitch : s.book.Switches ⟨k, a, now⟩ s₂.book :=
        h₂.book_switches (book_of_get hr) hbook rfl rfl hrecent
      have hlist : s₂.tables.pendingSwitches = swapRemove s.tables.pendingSwitches i :=
        h₂.switches
      refine (ih i s₂ (by rw [hlist]; omega) fun j hj k' hk' => ?_).mono fun _ s' h =>
        ⟨.switch (book_of_get hr) hn hswitch h.1, h.2⟩
      rw [hlist] at hk'
      exact hswitch.waiting (hbefore j hj k' hk')

theorem applyPendingSwitches_applies (now : Nat) (s : Shard ι ε) :
    Allows (applyPendingSwitches now) s fun _ s' => s.book.Applies now s'.book ∧
      ∀ k ∈ s'.tables.pendingSwitches, s'.book.Waiting now k :=
  allows_bind.2 (allows_get.2 (applySwitches_applies now _ 0 s (Nat.zero_add _) nofun))

section Operations

variable [DatagramIo ι] {s s' : Shard (Recorder ι) ε}

theorem handleStun_hears (d : Datagram) (now : Nat) (s : Shard (Recorder ι) ε)
    (hstun : classify ((s.net.pool.buf d.buf).take d.len) = .stun) :
    Allows (handleStun d now) s fun _ s' => s.Hears d now s' := by
  refine (handleStun_answers d now s hstun).mono fun _ s' h => ?_
  cases h with
  | dropped hwhy hbook _ =>
    refine .nothing (hwhy.imp_left fun hnone => ?_) hbook
    rw [fresh, hnone]
    rfl
  | @heeded k r request s₁ hk hr hscan htables _ _ hheed =>
    have hbook : s₁.book = s.book := congrArg Tables.book htables
    refine allows_heed (Q := fun _ s' => s.Hears d now s') ?_ ?_ _ _ hheed
    · intro r' s₂ hr' hseen _ hbook₂
      rw [htables, hr] at hr'
      cases hr'
      refine .nothing (.inl ?_) (hbook₂.trans hbook)
      simp [fresh, hk, hr, hscan, hseen]
    · intro r' s₂ hr' hnew _ hbook₂
      rw [htables, hr] at hr'
      cases hr'
      refine (selectAddress_heeds k d.addr _ now s₂).mono fun _ s₃ h₃ => ?_
      rw [hbook₂, hbook] at h₃
      exact .request (by simp [fresh, hk, hr, hscan, hnew]) h₃

theorem handleDatagram_hears (d : Datagram) (now : Nat) (s : Shard (Recorder ι) ε) :
    Allows (handleDatagram d now) s fun _ s' => s.Hears d now s' := by
  have hmails : ∀ {m : Prog (Shard (Recorder ι) ε) Unit} {s₁ : Shard (Recorder ι) ε},
      Mails m → classify ((s.net.pool.buf d.buf).take d.len) ≠ .stun → s₁.book = s.book →
      Allows m s₁ fun _ s' => s.Hears d now s' := by
    intro m s₁ hm hclass hbook
    refine (hm s₁).mono fun _ s' h => .nothing (.inl ?_) (h.book.trans hbook)
    simp [fresh, verifies, hclass]
  simp only [handleDatagram, count, addTo, Net.data, Net.buf, allows_bind, allows_modify]
  refine allows_zoom.2 ?_
  simp only [allows_bind, allows_assert, allows_get, allows_pure]
  intro _
  split
  next hclass =>
    refine Allows.mono (handleStun_hears d now _ (by exact hclass)) fun _ s' h => ?_
    cases h with
    | nothing hwhy hbook => exact .nothing hwhy hbook
    | request hfresh hheeds => exact .request hfresh hheeds
  next hclass => exact hmails (handleDtls_mails d) (by rw [hclass]; decide) rfl
  next hclass => exact hmails (handleRtp_mails d now) (by rw [hclass]; decide) rfl
  next hclass => exact hmails (handleRtcp_mails d now) (by rw [hclass]; decide) rfl
  next hclass => exact hmails (.count _) (by rw [hclass]; decide) rfl

theorem handleNext_moved (now : Nat) (s : Shard (Recorder ι) ε) :
    Allows (handleNext now) s fun _ s' => s.Moved (.next now) s' := by
  simp only [handleNext, allows_bind]
  refine allows_zoom.2 ?_
  simp only [Net.nextReceived, allows_bind, allows_get]
  cases hrx : s.net.rx with
  | nil =>
    exact allows_pure.2 (allows_pure.2 (.keeps nofun (.inl (by simp [heard, hrx])) (.refl _)))
  | cons d rx =>
    refine allows_bind.2 (allows_set.2 (allows_pure.2 (allows_bind.2 ?_)))
    refine (handleDatagram_hears d now _).mono fun _ s₂ h₂ => allows_zoom.2 ?_
    simp only [Net.put, allows_bind, allows_get, allows_expect, allows_set]
    refine fun pool _ => ?_
    have hheard : s.heard (.next now) = (s.fresh d).map fun (k, nominated) =>
        (k, d.addr, nominated) := by
      rw [heard, hrx]
      rfl
    cases h₂ with
    | nothing hwhy hbook =>
      refine .keeps nofun (hwhy.imp_left fun hnone => ?_) ?_
      · rw [hheard]
        exact map_eq_none_iff.2 hnone
      · exact (congrArg s.book.Keeps hbook).mpr (.refl _)
    | request hfresh hheeds =>
      refine .heeds (hheard.trans ?_) hheeds
      exact map_eq_some_iff.2 ⟨_, hfresh, rfl⟩

theorem nextCommand_keeps (now : Nat) (hmax : s.config.maxSessions ≤ 2 ^ 32) :
    Allows (nextCommand now) s fun _ s' => s.book.Keeps s'.book := by
  simp only [nextCommand, allows_bind, allows_get]
  cases s.commands with
  | nil => exact allows_pure.2 (.refl _)
  | cons c rest =>
    refine allows_bind.2 (allows_set.2 (allows_bind.2 ?_))
    exact (handleCommand_works now c (by exact hmax)).mono fun _ s' h => allows_pure.2 h.book

theorem act_moved {op : Action} (hop : op.single) (hmax : s.config.maxSessions ≤ 2 ^ 32) :
    Allows (act op) s fun _ s' => s.Moved op s' := by
  have hmails : ∀ {m : Prog (Shard (Recorder ι) ε) Unit}, Mails m →
      (∀ now, op ≠ .switches now) → s.heard op = none → Allows m s fun _ s' =>
        s.Moved op s' := fun hm hne hnone =>
    (hm s).mono fun _ _ h => .keeps hne (.inl hnone) (h.book.symm ▸ .refl _)
  cases op with
  | iterate now => cases hop
  | receive =>
    refine hmails (.bind .get fun s => ?_) nofun rfl
    split_ifs
    · exact .bind receive_mails fun _ => .pure _
    · exact .pure _
  | next now => exact handleNext_moved now s
  | switches now =>
    exact (applyPendingSwitches_applies now s).mono fun _ s' ⟨happly, hleft⟩ =>
      .applies happly hleft
  | flush => exact hmails .flush nofun rfl
  | command now =>
    refine allows_bind.2 ((nextCommand_keeps now hmax).mono fun _ _ h => allows_pure.2 ?_)
    exact .keeps nofun (.inl rfl) h
  | retry => exact hmails (fun s => (pushPending_keepsTables s).mono fun _ _ h => h.posts) nofun rfl
  | sweep now => exact hmails (sweep_mails now) nofun rfl
  | push c => exact hmails (.bind (pushCommand_mails c) fun _ => .pure _) nofun rfl

end Operations
end Shard
end NexusSfu.Dataplane
