import NexusSfu.Dataplane.Shard.Delivery
import NexusSfu.Dataplane.Shard.Safety

namespace NexusSfu.Dataplane

open Base Prog Srtp Option List

namespace Shard

variable {ι ε : Type}

theorem new_eq_ok {config : ShardConfig} {stun : StunHash} {io : ι} {events : ε} {start : Nat}
    {s₀ : Shard ι ε} (h : (Shard.new config stun io events start).toOption = some s₀) :
    Shard.new config stun io events start = .ok s₀ := by
  cases hnew : Shard.new config stun io events start with
  | error e =>
    rw [hnew] at h
    cases h
  | ok s =>
    rw [hnew] at h
    exact congrArg Except.ok (Option.some.inj h)

section Addresses

variable {s : Shard ι ε} {k j : Key} {c d : Card} {a : SocketAddr}

def Unshared (s : Shard ι ε) (k : Key) (a : SocketAddr) : Prop :=
  ∀ j c, j ≠ k → s.book j = some c → c.addr ≠ some a

def Uncontested (s : Shard ι ε) : Prop :=
  ∀ k c a, s.book k = some c → c.nomination = some a → s.Unshared k a

theorem unshared_of_linked (h : s.tables.Linked) (hk : s.book k = some c) (ha : c.addr = some a) :
    s.Unshared k a := by
  have hkey : ∀ i e, s.book i = some e → e.addr = some a →
      s.tables.byAddr.lookup a = some i := by
    intro i e he hae
    obtain ⟨r, hr, rfl⟩ := Tables.book_eq_some.1 he
    exact (h.addrs a i).2 ⟨r.addrs, by rw [project_apply, hr]; rfl, .inl hae⟩
  intro j d hne hj hd
  exact hne (Option.some.inj ((hkey j d hj hd).symm.trans (hkey k c hk ha)))

end Addresses

section Runs

variable [DatagramIo ι] [EventSink ε] {s₀ s s' : Shard (Recorder ι) ε}
  {ops : List Action} {op : Action}
  {k : Key} {ice : IceParams} {a : SocketAddr}

/-- During `ops` a request of `k` from `a` was verified under the password in `ice`; and if no
nomination was contested, nobody else has selected `a` since. -/
def Earned (s₀ : Shard (Recorder ι) ε) (ops : List Action) (k : Key) (ice : IceParams)
    (a : SocketAddr) : Prop :=
  ∃ pre op post t c, ops = pre ++ op :: post ∧ run step s₀ pre = some t ∧
    t.requested op = some (k, a) ∧ t.book k = some c ∧ c.ice = ice ∧
    ((∀ p u, p <+: ops → run step s₀ p = some u → u.Uncontested) →
      ∀ p u, p <+: post → run step s₀ (pre ++ op :: p) = some u → u.Unshared k a)

theorem Earned.concat (h : Earned s₀ ops k ice a) (hrun : run step s₀ (ops ++ [op]) = some s')
    (hun : s'.Uncontested → s'.Unshared k a) : Earned s₀ (ops ++ [op]) k ice a := by
  obtain ⟨pre, op', post, t, c, rfl, hpre, hreq, hc, hice, hsince⟩ := h
  refine ⟨pre, op', post ++ [op], t, c, by simp, hpre, hreq, hc, hice,
    fun hcalm p u hp hu => ?_⟩
  rcases prefix_concat_iff.1 hp with rfl | hp
  · rw [← cons_append, ← append_assoc, hrun] at hu
    cases hu
    exact hun (hcalm _ _ (prefix_refl _) hrun)
  · exact hsince (fun p u hp => hcalm p u (hp.trans (prefix_append _ _))) p u hp hu

theorem Earned.now {c : Card} (hpre : run step s₀ ops = some s)
    (hreq : s.requested op = some (k, a)) (hc : s.book k = some c) (hice : c.ice = ice)
    (hrun : run step s₀ (ops ++ [op]) = some s') (hun : s'.Uncontested → s'.Unshared k a) :
    Earned s₀ (ops ++ [op]) k ice a := by
  refine ⟨ops, op, [], s, c, rfl, hpre, hreq, hc, hice, fun hcalm p u hp hu => ?_⟩
  cases prefix_nil.1 hp
  rw [hrun] at hu
  cases hu
  exact hun (hcalm _ _ (prefix_refl _) hrun)

def AllEarned (s₀ : Shard (Recorder ι) ε) (ops : List Action) (s : Shard (Recorder ι) ε) :
    Prop :=
  ∀ k c, s.book k = some c → ∀ a, c.addr = some a ∨ c.nomination = some a →
    Earned s₀ ops k c.ice a

theorem allEarned_concat (h : AllEarned s₀ ops s) (hrun : run step s₀ ops = some s)
    (hstep : step s op = some s')
    (hbook : s.book.Follows (fun k a => s.requested op = some (k, a)) s'.book)
    (hlinked : s'.tables.Linked) : AllEarned s₀ (ops ++ [op]) s' := by
  have hrun' : run step s₀ (ops ++ [op]) = some s' := run_append hrun (run_one hstep)
  intro k c' hc' a ha
  have hun : s'.Uncontested → s'.Unshared k a := fun hcalm =>
    ha.elim (fun ha => unshared_of_linked hlinked hc' ha) fun ha => hcalm k c' a hc' ha
  rcases hbook k c' hc' with ⟨haddr, hnom⟩ | ⟨c, hc, hice, haddr, hnom⟩
  · rw [haddr, hnom] at ha
    simp at ha
  have hold : (c.addr = some a ∨ c.nomination = some a) ∨ s.requested op = some (k, a) := by
    rcases ha with ha | ha
    · exact or_assoc.2 (haddr a ha)
    · exact (hnom a ha).imp_left .inr
  rcases hold with hold | hreq
  · exact hice ▸ (h k c hc a hold).concat hrun' hun
  · exact .now hrun hreq hc hice.symm hrun' hun

variable [LawfulIo ι] {config : ShardConfig} {stun : StunHash} {io : Recorder ι}
  {events : ε} {start : Nat}

theorem run_allEarned (hnew : Shard.new config stun io events start = .ok s₀)
    (hmax : config.maxSessions ≤ Tables.maxWebrtcSessions) (ops : List Action)
    (hops : ∀ op ∈ ops, op.single) :
    ∃ s, run step s₀ ops = some s ∧ AllEarned s₀ ops s := by
  induction ops using List.reverseRecOn with
  | nil =>
    refine ⟨s₀, rfl, fun k c hc => ?_⟩
    rw [Shard.new] at hnew
    split at hnew
    · cases hnew
    cases hnew
    simp [book, Tables.book, Tables.new, project_apply, Slab.get, Slab.new] at hc
  | append_singleton ops op ih =>
    obtain ⟨s, hrun, h⟩ := ih fun op' hop' => hops op' (mem_append_left _ hop')
    obtain ⟨s₁, hrun₁, hinv, hconfig⟩ := run_spec hnew hmax ops
    cases hrun.symm.trans hrun₁
    obtain ⟨_, s', hact, hinv', -⟩ := act_spec hinv op
    have hstep : step s op = some s' := by rw [step, hact]; rfl
    have hlimit : s.config.maxSessions ≤ 2 ^ 32 := by
      rw [hconfig]
      exact hmax.trans (by decide)
    have hdelivers := act_delivers (hops op (by simp)) hlimit _ _ hact
    exact ⟨s', run_append hrun (run_one hstep),
      allEarned_concat h hrun hstep hdelivers.book hinv'.sound.tables.linked⟩

end Runs

section Parts

variable [DatagramIo ι] [EventSink ε] {s s' s'' : Shard ι ε}

def Reaches (s s' : Shard ι ε) : Prop :=
  ∃ ops : List Action, (∀ op ∈ ops, op.single) ∧ run step s ops = some s'

theorem Reaches.refl (s : Shard ι ε) : s.Reaches s := ⟨[], nofun, rfl⟩

theorem Reaches.trans (h : s.Reaches s') (h' : s'.Reaches s'') : s.Reaches s'' := by
  obtain ⟨ops, hops, hrun⟩ := h
  obtain ⟨ops', hops', hrun'⟩ := h'
  exact ⟨ops ++ ops', fun op hop => (mem_append.1 hop).elim (hops op) (hops' op),
    run_append hrun hrun'⟩

theorem reaches_act (op : Action) (hop : op.single) (s : Shard ι ε) :
    Allows (act op) s fun _ s' => s.Reaches s' := by
  intro _ s' hact
  refine ⟨[op], fun op' hop' => ?_, run_one (by rw [step, hact]; rfl)⟩
  rw [mem_singleton.1 hop']
  exact hop

theorem reaches_part {α : Type} {m : Prog (Shard ι ε) α} (op : Action) (hop : op.single)
    (hm : act op s = (do let _ ← m) s) : Allows m s fun _ s' => s.Reaches s' := by
  intro x s' hx
  refine reaches_act op hop s () s' (hm.trans ?_)
  change (m s).bind _ = _
  rw [hx]
  rfl

theorem drainCommands_reaches (now budget : Nat) (s : Shard ι ε) :
    Allows (drainCommands now budget) s fun _ s' => s.Reaches s' := by
  induction budget generalizing s with
  | zero => exact allows_pure.2 (.refl s)
  | succ budget ih =>
    rw [drainCommands, allows_bind]
    refine (reaches_part (.command now) rfl rfl).mono fun more s₁ h₁ => ?_
    cases more with
    | false => exact allows_pure.2 h₁
    | true => exact allows_bind.2 ((ih s₁).mono fun _ _ h₂ => allows_pure.2 (h₁.trans h₂))

theorem iterate_reaches (now : Nat) (s : Shard ι ε) :
    Allows (act (.iterate now)) s fun _ s' => s.Reaches s' := by
  refine allows_bind.2
    (allows_get.2 (allows_ite.2 ⟨fun hrx => ?_, fun _ => allows_pure.2 (.refl s)⟩))
  have hreceive : act .receive s = (do let _ ← receive) s := by
    change (if s.net.rx.isEmpty then (do let _ ← receive)
      else (pure () : Prog (Shard ι ε) Unit)) s = _
    rw [if_pos hrx]
  refine allows_bind.2
    (allows_bind.2 ((reaches_part .receive rfl hreceive).mono fun received s₁ h₁ => ?_))
  refine allows_bind.2 (allows_get.2 (allows_bind.2 ?_))
  refine (allows_each (I := fun s' => s.Reaches s') (fun _ s₂ h₂ =>
    (reaches_act (.next now) rfl s₂).mono fun _ _ h => h₂.trans h) _ h₁).mono
      fun _ s₂ h₂ => ?_
  refine allows_bind.2 ((reaches_act (.switches now) rfl s₂).mono fun _ s₃ h₃ => ?_)
  refine allows_bind.2 ((reaches_act .flush rfl s₃).mono fun _ s₄ h₄ => ?_)
  refine allows_bind.2 ((drainCommands_reaches now _ s₄).mono fun _ s₅ h₅ => ?_)
  refine allows_bind.2 ((reaches_act .flush rfl s₅).mono fun _ s₆ h₆ => ?_)
  refine allows_bind.2 ((reaches_act .retry rfl s₆).mono fun _ s₇ h₇ => ?_)
  refine allows_bind.2 ((reaches_act (.sweep now) rfl s₇).mono fun _ s₈ h₈ => ?_)
  refine allows_bind.2
    (allows_get.2 (allows_bind.2 (allows_assert.2 fun _ => allows_pure.2 (allows_pure.2 ?_))))
  exact h₂.trans (h₃.trans (h₄.trans (h₅.trans (h₆.trans (h₇.trans h₈)))))

end Parts

section AuthenticatedRun

variable [DatagramIo ι] [LawfulIo ι] [EventSink ε] {s₀ : Shard (Recorder ι) ε}
  {config : ShardConfig}
  {stun : StunHash} {io : Recorder ι} {events : ε} {start : Nat}

/-- In every run, of single operations and so of iterations: a selected address comes from a
verified request of its session, and datagrams go to where such requests came from. A waiting
nomination of an address that another session selects meanwhile is the exception. -/
theorem run_authenticated (hnew : Shard.new config stun io events start = .ok s₀)
    (hmax : config.maxSessions ≤ Tables.maxWebrtcSessions) (ops : List Action)
    (hops : ∀ op ∈ ops, op.single) :
    ∃ s, run step s₀ ops = some s ∧
      (∀ k r a, s.tables.sessions.get k = some r → r.addr = some a →
        Earned s₀ ops k r.ice a) ∧
      (∀ op s', op.single → step s op = some s' → s.Posted op s') ∧
      ∀ now s', step s (.iterate now) = some s' → s.Reaches s' := by
  obtain ⟨s, hrun, hearned⟩ := run_allEarned hnew hmax ops hops
  obtain ⟨s₁, hrun₁, -, hconfig⟩ := run_spec hnew hmax ops
  cases hrun.symm.trans hrun₁
  have hlimit : s.config.maxSessions ≤ 2 ^ 32 := by
    rw [hconfig]
    exact hmax.trans (by decide)
  refine ⟨s, hrun, fun k r a hr ha => ?_, fun op s' hop hstep => ?_, fun now s' hstep => ?_⟩
  · exact hearned k r.card (Tables.book_of_get hr) a (.inl ha)
  · obtain ⟨⟨_, _⟩, hact, rfl⟩ := map_eq_some_iff.1 hstep
    exact (act_delivers hop hlimit _ _ hact).posted
  · obtain ⟨⟨_, _⟩, hact, rfl⟩ := map_eq_some_iff.1 hstep
    exact iterate_reaches now s _ _ hact

def bindingRequest (ufrag password tid : UInt8) : Bytes :=
  [0, 1, 0, 60, 0x21, 0x12, 0xA4, 0x42] ++ List.replicate 12 tid ++
    [0, 6, 0, 18] ++ List.replicate 16 ufrag ++ [0x3A, 112, 0, 0] ++ [0, 0x25, 0, 0] ++
    [0, 8, 0, 20] ++ List.replicate 20 password ++ [0x80, 0x28, 0, 4, 0x53, 0x54, 0x55, 0x4E]

structure Script where
  io : MemIo
  batches : List (List (SocketAddr × Bytes))

instance : DatagramIo Script where
  recvBatch r rx pool :=
    (DatagramIo.recvBatch { r.io with inbound := r.io.inbound ++ r.batches.headD [] } rx pool).map
      fun (result, io, rx, pool) => (result, ⟨io, r.batches.tail⟩, rx, pool)
  flush r tx pool := (DatagramIo.flush r.io tx pool).map fun (sent, io, rest, pool) =>
    (sent, { r with io }, rest, pool)

instance : LawfulIo Script where
  recv r rx pool hrx hnodup hlt := by
    obtain ⟨result, io, ds, pool', hrecv, hrest⟩ := LawfulIo.recv
      { r.io with inbound := r.io.inbound ++ r.batches.headD [] } rx pool hrx hnodup hlt
    refine ⟨result, ⟨io, r.batches.tail⟩, ds, pool', ?_, hrest⟩
    simp only [DatagramIo.recvBatch] at hrecv ⊢
    rw [hrecv]
    rfl
  flush r tx pool htx hnodup hlt hlen := by
    obtain ⟨sent, io, pool', hflush, hrest⟩ := LawfulIo.flush r.io tx pool htx hnodup hlt hlen
    refine ⟨sent, { r with io }, pool', ?_, hrest⟩
    simp only [DatagramIo.flush] at hflush ⊢
    rw [hflush]
    rfl

def keyedHash : StunHash := ⟨fun key _ => Vector.replicate 20 (key.headD 0), fun _ => 0⟩

def homeAddr : SocketAddr := .v4 (.replicate 4 1) 1000

def sharedAddr : SocketAddr := .v4 (.replicate 4 2) 2000

/-- Two sessions; the first has an address, nominates `sharedAddr` too soon after and has to wait,
and the second selects `sharedAddr` meanwhile. -/
def contestedRun : List Action :=
  [.push (.createSession sampleId ⟨.replicate 16 97, .replicate 32 65⟩ 1000),
    .push (.createSession secondId ⟨.replicate 16 98, .replicate 32 66⟩ 2000),
    .command 0, .command 0, .receive, .next 0, .switches 0, .flush, .receive, .next 50000000,
    .switches 50000000, .flush, .receive, .next 60000000, .switches 60000000, .flush]

def contestedShard : Option (Shard (Recorder Script) (List Event)) :=
  (Shard.new sampleConfig keyedHash ⟨⟨.new, [[(homeAddr, bindingRequest 97 65 1)],
    [(sharedAddr, bindingRequest 97 65 2)], [(sharedAddr, bindingRequest 98 66 3)]]⟩,
    []⟩ [] 0).toOption

def selectedAt (s : Shard (Recorder Script) (List Event)) (i : Nat) : Option SocketAddr :=
  (s.book ⟨i, 0⟩).bind Card.addr

/-- The first session moves to `sharedAddr` although the second selected it after every request of
the first from there. -/
theorem deferred_nomination_moves_back : ∃ s₀ s k r, contestedShard = some s₀ ∧
    run step s₀ (contestedRun ++ [.switches 200000000]) = some s ∧
    s.tables.sessions.get k = some r ∧ r.addr = some sharedAddr ∧
    ¬ ∃ pre op post t, contestedRun ++ [.switches 200000000] = pre ++ op :: post ∧
      run step s₀ pre = some t ∧ t.requested op = some (k, sharedAddr) ∧
      ∀ p u, p <+: post → run step s₀ (pre ++ op :: p) = some u →
        u.Unshared k sharedAddr := by
  have hmid : (contestedShard.bind fun s₀ => (run step s₀ contestedRun).map (selectedAt · 1)) =
      some (some sharedAddr) := by
    decide +kernel
  have hend : (contestedShard.bind fun s₀ =>
      (run step s₀ (contestedRun ++ [.switches 200000000])).map
      (selectedAt · 0)) = some (some sharedAddr) := by
    decide +kernel
  obtain ⟨s₀, hs₀, hmid⟩ := bind_eq_some_iff.1 hmid
  rw [hs₀, bind_some] at hend
  obtain ⟨u, hu, hother⟩ := map_eq_some_iff.1 hmid
  obtain ⟨s, hrun, hown⟩ := map_eq_some_iff.1 hend
  obtain ⟨d, hd, hdaddr⟩ := bind_eq_some_iff.1 hother
  obtain ⟨c, hc, haddr⟩ := bind_eq_some_iff.1 hown
  obtain ⟨r, hr, rfl⟩ := Tables.book_eq_some.1 hc
  refine ⟨s₀, s, ⟨0, 0⟩, r, hs₀, hrun, hr, haddr, ?_⟩
  rintro ⟨pre, op, post, t, hsplit, -, hreq, hsince⟩
  rcases eq_nil_or_concat post with rfl | ⟨post, last, rfl⟩
  · -- the last operation handles no request
    cases (append_inj_right' hsplit rfl)
    cases hreq
  · rw [concat_eq_append, ← cons_append, ← append_assoc] at hsplit
    rw [append_inj_left' hsplit rfl] at hu
    exact hsince post u (by simp) hu ⟨1, 0⟩ d (by decide) hd hdaddr

def requestRun : List Action :=
  [.push (.createSession sampleId ⟨.replicate 16 97, .replicate 32 65⟩ 1000), .command 0,
    .receive, .next 0]

def requestIo : Recorder MemIo := ⟨⟨[(homeAddr, bindingRequest 97 65 1)], [], 0⟩, []⟩

theorem run_authenticated_sample :
    ∃ (s₀ s : Shard (Recorder MemIo) (List Event)) (k : Key) (r : Session),
    Shard.new sampleConfig keyedHash requestIo [] 0 = .ok s₀ ∧
      run step s₀ requestRun = some s ∧
    s.tables.sessions.get k = some r ∧ r.addr = some homeAddr ∧
      Earned s₀ requestRun k r.ice homeAddr := by
  have hend : ((Shard.new sampleConfig keyedHash requestIo ([] : List Event) 0).toOption.bind
      fun s₀ =>
      (run step s₀ requestRun).map fun s => (s.book ⟨0, 0⟩).bind Card.addr) =
        some (some homeAddr) := by
    decide +kernel
  obtain ⟨s₀, hs₀, hend⟩ := bind_eq_some_iff.1 hend
  obtain ⟨s, hrun, hown⟩ := map_eq_some_iff.1 hend
  obtain ⟨c, hc, haddr⟩ := bind_eq_some_iff.1 hown
  obtain ⟨r, hr, rfl⟩ := Tables.book_eq_some.1 hc
  have hnew := new_eq_ok hs₀
  obtain ⟨s₁, hrun₁, hearned, -⟩ :=
    run_authenticated hnew (by decide) requestRun (by decide)
  cases hrun.symm.trans hrun₁
  exact ⟨s₀, s, ⟨0, 0⟩, r, hnew, hrun, hr, haddr, hearned _ r _ hr haddr⟩

end AuthenticatedRun
end Shard
end NexusSfu.Dataplane
