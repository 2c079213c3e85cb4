import NexusSfu.Swim.Runs

namespace NexusSfu.Swim

open Base State Checked MembershipList List
open Dataplane (SocketAddr)

theorem PeerState.fromU8_byte (state : PeerState) : fromU8 state.byte = some state := by
  cases state <;> rfl

inductive Report
  | alive (incarnation : Nat)
  | suspect (incarnation : Nat)
  | dead
  | entry (incarnation : Nat) (state : PeerState)

namespace Report

def state : Report → PeerState
  | alive _ => .alive
  | suspect _ => .suspect
  | dead => .dead
  | entry _ state => state

def number : Report → Nat
  | alive incarnation | suspect incarnation | entry incarnation _ => incarnation
  | dead => 0

end Report

namespace Opinion

variable {o : Opinion} {r r' : Report}

def hearing (o : Opinion) (r : Report) : Opinion :=
  let incarnation := if r.state = .dead then o.incarnation else r.number
  if validateTransition o.state r.state o.incarnation incarnation then ⟨r.state, incarnation⟩
  else o

theorem hearing_dead (h : r.state = .dead) : o.hearing r = ⟨.dead, o.incarnation⟩ := by
  obtain ⟨state, n⟩ := o
  cases state <;> simp [hearing, h, validateTransition]

theorem hearing_suspect (h : r.state = .suspect) :
    o.hearing r = if o.state ≠ .dead ∧ o.incarnation ≤ r.number then ⟨.suspect, r.number⟩
      else o := by
  obtain ⟨state, n⟩ := o
  cases state <;> simp [hearing, h, validateTransition]

theorem hearing_alive (h : r.state = .alive) :
    o.hearing r = if o.incarnation < r.number ∨ o.state = .alive ∧ o.incarnation = r.number then
      ⟨.alive, r.number⟩ else o := by
  obtain ⟨state, n⟩ := o
  cases state <;> simp [hearing, h, validateTransition, le_iff_lt_or_eq]

def Clash (o : Opinion) (r r' : Report) : Prop :=
  match r.state, r'.state with
  | .dead, .alive => o.incarnation < r'.number
  | .dead, .suspect => o.state ≠ .dead ∧ o.incarnation < r'.number
  | .suspect, .alive => o.state = .dead ∧ o.incarnation < r'.number ∧ r'.number ≤ r.number
  | _, _ => False

theorem dead_alive_comm_iff (h : r.state = .dead) (h' : r'.state = .alive) :
    (o.hearing r).hearing r' = (o.hearing r').hearing r ↔ ¬ o.incarnation < r'.number := by
  rw [hearing_dead h, hearing_dead h, hearing_alive h', hearing_alive h']
  by_cases hlt : o.incarnation < r'.number
  · simp [hlt]
  · simp only [hlt, false_or, reduceCtorEq, false_and, if_false, not_false_eq_true, iff_true]
    split_ifs with heq
    · rw [heq.2]
    · rfl

theorem dead_suspect_comm_iff (h : r.state = .dead) (h' : r'.state = .suspect) :
    (o.hearing r).hearing r' = (o.hearing r').hearing r ↔
      ¬ (o.state ≠ .dead ∧ o.incarnation < r'.number) := by
  rw [hearing_dead h, hearing_dead h, hearing_suspect h', hearing_suspect h']
  split_ifs with hdead hle hle
  · exact absurd rfl hdead.1
  · exact absurd rfl hdead.1
  · simp only [mk.injEq, true_and, hle.1, not_lt, ne_eq, not_false_eq_true]
    exact ⟨fun heq => heq.ge, fun hge => le_antisymm hle.2 hge⟩
  · simp only [true_iff, not_and, not_lt]
    exact fun hstate => (not_le.1 fun hle' => hle ⟨hstate, hle'⟩).le

theorem suspect_alive_comm_iff (h : r.state = .suspect) (h' : r'.state = .alive) :
    (o.hearing r).hearing r' = (o.hearing r').hearing r ↔
      ¬ (o.state = .dead ∧ o.incarnation < r'.number ∧ r'.number ≤ r.number) := by
  obtain ⟨state, n⟩ := o
  rw [hearing_suspect h, hearing_alive h', hearing_alive h', hearing_suspect h]
  cases state with
  | dead => grind
  | suspect => grind
  | alive => grind

theorem same_comm (h : r.state = r'.state) :
    (o.hearing r).hearing r' = (o.hearing r').hearing r := by
  obtain ⟨state, n⟩ := o
  cases hstate : r'.state with
  | dead =>
    rw [hearing_dead (h.trans hstate), hearing_dead hstate, hearing_dead hstate,
      hearing_dead (h.trans hstate)]
  | suspect =>
    rw [hearing_suspect (h.trans hstate), hearing_suspect hstate, hearing_suspect hstate,
      hearing_suspect (h.trans hstate)]
    grind
  | alive =>
    rw [hearing_alive (h.trans hstate), hearing_alive hstate, hearing_alive hstate,
      hearing_alive (h.trans hstate)]
    grind

theorem hearing_comm_iff : (o.hearing r).hearing r' = (o.hearing r').hearing r ↔
    ¬ o.Clash r r' ∧ ¬ o.Clash r' r := by
  unfold Clash
  cases h : r.state <;> cases h' : r'.state
  · simp [same_comm (h.trans h'.symm)]
  · simpa using eq_comm.trans (suspect_alive_comm_iff h' h)
  · simpa using eq_comm.trans (dead_alive_comm_iff h' h)
  · simpa using suspect_alive_comm_iff h h'
  · simp [same_comm (h.trans h'.symm)]
  · simpa using eq_comm.trans (dead_suspect_comm_iff h' h)
  · simpa using dead_alive_comm_iff h h'
  · simpa using dead_suspect_comm_iff h h'
  · simp [same_comm (h.trans h'.symm)]

end Opinion

namespace SwimProtocol

variable {A : Panic → Prop} {s : SwimProtocol} {a : ActorId} {o : Opinion} {r r' : Report}

structure Holds (s : SwimProtocol) (a : ActorId) (o : Opinion) : Prop where
  members : s.membership.Wf
  self : s.membership.localActor = s.localActor
  peer : s.opinionOf a = some o

theorem Holds.known (h : s.Holds a o) : ∃ p, s.membership.findPeer a = some p ∧ p.opinion = o :=
  Option.map_eq_some_iff.1 h.peer

theorem Holds.range (h : s.Holds a o) : a < maxActors ∧ a ≠ s.localActor := by
  obtain ⟨p, hp, -⟩ := h.known
  obtain ⟨hmem, rfl⟩ := mem_of_findPeer hp
  exact h.self ▸ h.members.range p.actorId (mem_map_of_mem hmem)

theorem Holds.transition (h : s.Holds a o) (r : Report) (now : Nat) (tape : Tape) : { s with
      tape
      membership := (s.membership.transition now a r.state
        (if r.state = PeerState.dead then o.incarnation else r.number)).2 }.Holds a
          (o.hearing r) where
  members := h.members.of_sameIds sameIds_transition
  self := sameIds_transition.1.trans h.self
  peer := by
    obtain ⟨p, hp, rfl⟩ := h.known
    rw [opinionOf, findPeer_transition, hp]
    simp only [Option.map_some, Opinion.hearing, PeerInfo.opinion, true_and]
    split_ifs <;> rfl

def handleReport (a : ActorId) : Report → Routine Unit
  | .alive incarnation => do let _ ← handleAlive a incarnation
  | .suspect incarnation => do let _ ← handleSuspect a incarnation
  | .dead => do let _ ← handleDead a
  | .entry incarnation state => mergeMember (a, incarnation, state.byte)

theorem Holds.ensures_markAlive (h : s.Holds a o) (hr : r.state = .alive) :
    Ensures A (markAlive a r.number) s fun _ s' => s'.Holds a (o.hearing r) := by
  obtain ⟨ha, hself⟩ := h.range
  rw [← h.self] at hself
  have hstep := h.transition r (s.tape.times.headD 0) { s.tape with times := s.tape.times.tail }
  simp only [hr, reduceCtorEq, if_false] at hstep
  simp only [SwimProtocol.markAlive, currentTimeNs, onMembers, MembershipList.markAlive,
    MembershipList.updateState, ensures_bind, ensures_get, ensures_modify, ensures_pure,
    ensures_zoom, ensures_assert, ha, decide_true, if_true, if_neg hself, ensures_set]
  exact hstep

theorem Holds.ensures_markSuspect (h : s.Holds a o) (hr : r.state = .suspect) (now : Nat)
    (tape : Tape) :
    Ensures A (onMembers (MembershipList.markSuspect now a r.number)) { s with tape } fun _ s' =>
      s'.Holds a (o.hearing r) := by
  obtain ⟨ha, hself⟩ := h.range
  rw [← h.self] at hself
  have hstep := h.transition r now tape
  simp only [hr, reduceCtorEq, if_false] at hstep
  simp only [onMembers, MembershipList.markSuspect, MembershipList.updateState,
    ensures_bind, ensures_get, ensures_pure, ensures_zoom, ensures_assert, ha, hself, ne_eq,
    not_false_eq_true, decide_true, if_true, ensures_set, transition_asserts]
  exact hstep

theorem Holds.ensures_markDead (h : s.Holds a o) (hr : r.state = .dead) (now : Nat) (tape : Tape) :
    Ensures A (onMembers (MembershipList.markDead now a)) { s with tape } fun _ s' =>
      s'.Holds a (o.hearing r) := by
  obtain ⟨ha, hself⟩ := h.range
  rw [← h.self] at hself
  obtain ⟨p, hp, rfl⟩ := h.known
  have hstep := h.transition r now tape
  simp only [hr, if_true] at hstep
  simp only [onMembers, MembershipList.markDead, MembershipList.updateState, ensures_bind,
    ensures_get, hp, ensures_pure, ensures_zoom, ensures_assert, ha, hself, ne_eq,
    not_false_eq_true, decide_true, if_true, ensures_set, transition_asserts]
  exact hstep

theorem Holds.ensures_report (h : s.Holds a o) (r : Report) :
    Ensures A (handleReport a r) s fun _ s' => s'.Holds a (o.hearing r) := by
  obtain ⟨ha, hself⟩ := h.range
  cases r with
  | alive incarnation =>
    simp only [handleReport, handleAlive, ensures_bind, ensures_pure]
    exact h.ensures_markAlive (r := .alive incarnation) rfl
  | suspect incarnation =>
    simp only [handleReport, handleSuspect, currentTimeNs, ensures_bind, ensures_get, if_neg hself,
      ensures_modify, ensures_pure]
    exact h.ensures_markSuspect (r := .suspect incarnation) rfl _ _
  | dead =>
    simp only [handleReport, handleDead, currentTimeNs, ensures_bind, ensures_get, ne_eq, hself,
      not_false_eq_true, if_true, ensures_modify, ensures_pure]
    exact h.ensures_markDead (r := .dead) rfl _ _
  | entry incarnation state =>
    obtain ⟨p, hp, -⟩ := h.known
    have hskip : ¬ (a = s.localActor ∨ a ≥ maxActors ∨
        (s.membership.findPeer a).isNone) := by
      simp [hself, ha, hp]
    simp only [handleReport, mergeMember, ensures_bind, ensures_get, if_neg hskip,
      PeerState.fromU8_byte]
    cases state with
    | alive => exact h.ensures_markAlive (r := .entry incarnation .alive) rfl
    | suspect =>
      simp only [currentTimeNs, ensures_bind, ensures_get, ensures_modify, ensures_pure]
      exact h.ensures_markSuspect (r := .entry incarnation .suspect) rfl _ _
    | dead =>
      simp only [currentTimeNs, ensures_bind, ensures_get, ensures_modify, ensures_pure]
      exact h.ensures_markDead (r := .entry incarnation .dead) rfl _ _

/-- Two reports about a known peer are handled in either order, and leave one opinion exactly when
they do not clash. -/
theorem reports_commute_iff (h : s.Holds a o) (r r' : Report) :
    ∃ s₁ s₂, (do handleReport a r; handleReport a r') s = .ok ((), s₁) ∧
      (do handleReport a r'; handleReport a r) s = .ok ((), s₂) ∧
      (s₁.opinionOf a = s₂.opinionOf a ↔ ¬ o.Clash r r' ∧ ¬ o.Clash r' r) := by
  have hboth : ∀ r r', ∃ s', (do handleReport a r; handleReport a r') s = .ok ((), s') ∧
      s'.Holds a ((o.hearing r).hearing r') := fun r r' => by
    obtain ⟨⟨⟩, s', hrun, hs'⟩ := Ensures.exists_ok
      (ensures_bind.2 ((h.ensures_report r).mono fun _ t ht => ht.ensures_report r'))
    exact ⟨s', hrun, hs'⟩
  obtain ⟨s₁, hrun₁, h₁⟩ := hboth r r'
  obtain ⟨s₂, hrun₂, h₂⟩ := hboth r' r
  refine ⟨s₁, s₂, hrun₁, hrun₂, ?_⟩
  rw [h₁.peer, h₂.peer, Option.some.injEq]
  exact Opinion.hearing_comm_iff

def acquainted : SwimProtocol :=
  (run step (loneNode 1) [arrives (.ping 2 1 []) hostB]).getD (loneNode 1)

theorem holds_acquainted : acquainted.Holds 2 ⟨.alive, 1⟩ := by
  have hlive := run_live starts_loneNode.live (eq_some_getD (loneNode 1)
    (show (run step (loneNode 1) [arrives (.ping 2 1 []) hostB]).isSome = true by decide +kernel))
  exact ⟨hlive.members, hlive.self.trans hlive.actor.symm, by decide +kernel⟩

theorem refutation_commutes : ∃ s₁ s₂,
    (do handleReport 2 (.suspect 1); handleReport 2 (.alive 2)) acquainted = .ok ((), s₁) ∧
      (do handleReport 2 (.alive 2); handleReport 2 (.suspect 1)) acquainted = .ok ((), s₂) ∧
      s₁.opinionOf 2 = s₂.opinionOf 2 := by
  obtain ⟨s₁, s₂, h₁, h₂, hiff⟩ :=
    reports_commute_iff holds_acquainted (.suspect 1) (.alive 2)
  refine ⟨s₁, s₂, h₁, h₂, hiff.2 ⟨?_, ?_⟩⟩
  · exact fun hclash => absurd hclash.1 (by decide)
  · exact id

theorem dead_alive_differ :
    ((do handleReport 2 .dead; handleReport 2 (.alive 2)) acquainted).toOption.bind
      (·.2.opinionOf 2) =
        some ⟨.alive, 2⟩ ∧
      ((do handleReport 2 (.alive 2); handleReport 2 .dead) acquainted).toOption.bind
        (·.2.opinionOf 2) =
        some ⟨.dead, 2⟩ := by
  decide +kernel

section Refute

variable {i n : Nat} {msg : GossipMessage} {source : SocketAddr}

/-- The message outdoes a suspicion of `me` in incarnation `i`, at every node that holds it. -/
def Refutes (me : ActorId) (i : Nat) (msg : GossipMessage) : Prop :=
  ∃ n, msg = .alive me n ∧ i < n ∧ ∀ (r : SwimProtocol) (source : SocketAddr),
    r.Holds me ⟨.suspect, i⟩ → ∃ r', handleMessage msg source r = .ok
      (.ok (), r') ∧ r'.opinionOf me = some ⟨.alive, n⟩

theorem refutes_of_lt (h : i < n) : Refutes a i (.alive a n) := by
  refine ⟨n, rfl, h, fun r source hr => ?_⟩
  have hhandle : Ensures (fun _ => False) (handleMessage (.alive a n) source) r fun result r' =>
      result = .ok () ∧ r'.Holds a (Opinion.hearing ⟨.suspect, i⟩ (.alive n)) := by
    simp only [handleMessage, actorIdsInRange, decide_eq_false_iff_not, hr.range.1, not_true,
      if_false, handleAlive, ensures_bind, ensures_pure, true_and]
    exact hr.ensures_markAlive (r := .alive n) rfl
  obtain ⟨_, r', hrun, rfl, hr'⟩ := hhandle.exists_ok
  refine ⟨r', hrun, hr'.peer.trans ?_⟩
  rw [Opinion.hearing_alive rfl, if_pos (.inl h)]
  rfl

theorem ensures_sendAll (msg : GossipMessage) (peers : List PeerInfo) :
    Ensures A (sendAll msg peers) s fun _ s' => ∃ sent, s'.outbox = s.outbox ++ sent ∧
      sent.map (fun m => (m.msg, m.dest)) = peers.map fun p => (msg, p.addr) := by
  rw [sendAll]
  induction peers generalizing s with
  | nil => exact ⟨[], (append_nil _).symm, rfl⟩
  | cons p peers ih =>
    rw [each, ensures_bind, ensures_bind]
    refine ensures_send.2 (ih.mono fun _ s' hs' => ?_)
    obtain ⟨sent, hout, hsent⟩ := hs'
    rw [append_assoc, singleton_append] at hout
    refine ⟨_, hout, ?_⟩
    rw [map_cons, hsent, map_cons]

/-- A suspected node says to its peers that it is alive in the next incarnation, which refutes the
suspicion exactly when the node's own incarnation is not behind. -/
theorem suspicion_refuted_iff (hme : s.localActor < maxActors) (hi : i < u64Max)
    (source : SocketAddr) :
    ∃ s', handleMessage (.suspect s.localActor i) source s = .ok (.ok (), s') ∧
      (s'.outbox.drop s.outbox.length).map (fun m => (m.msg, m.dest)) =
        s.membership.getAlivePeers.map (fun p =>
        (.alive s.localActor (min (s.membership.incarnation + 1) u64Max), p.addr)) ∧
      ((∀ m ∈ s'.outbox.drop s.outbox.length, Refutes s.localActor i m.msg) ↔
        s.membership.getAlivePeers = [] ∨ i ≤ s.membership.incarnation) := by
  have hhandle : Ensures (fun _ => False) (handleMessage (.suspect s.localActor i) source) s
      fun result s' =>
      result = .ok () ∧ ∃ sent, s'.outbox = s.outbox ++ sent ∧
        sent.map (fun m => (m.msg, m.dest)) = s.membership.getAlivePeers.map fun p =>
          (.alive s.localActor (min (s.membership.incarnation + 1) u64Max), p.addr) := by
    simp only [handleMessage, actorIdsInRange, decide_eq_false_iff_not, hme, not_true, if_false,
      handleSuspect, ensures_bind, ensures_get, if_true, onMembers, ensures_zoom,
      incrementIncarnation, ensures_modify, ensures_pure, broadcastAlive, true_and]
    exact ensures_sendAll _ _
  obtain ⟨_, s', hrun, rfl, sent, hout, hsent⟩ := hhandle.exists_ok
  have hdrop : s'.outbox.drop s.outbox.length = sent := by
    rw [hout, drop_left]
  refine ⟨s', hrun, hdrop ▸ hsent, ?_⟩
  rw [hdrop]
  have hmsg : ∀ m ∈ sent, m.msg = .alive s.localActor
      (min (s.membership.incarnation + 1) u64Max) := by
    intro m hm
    have hpair := mem_map_of_mem (f := fun m => (m.msg, m.dest)) hm
    rw [hsent] at hpair
    obtain ⟨p, -, hp⟩ := mem_map.1 hpair
    exact (congrArg Prod.fst hp).symm
  constructor
  · intro hall
    refine or_iff_not_imp_left.2 fun hne => ?_
    have hlen : sent.length = s.membership.getAlivePeers.length := by
      simpa using congrArg List.length hsent
    obtain ⟨m, hm⟩ := exists_mem_of_length_pos (hlen ▸ length_pos_iff.2 hne)
    obtain ⟨k, hk, hlt, -⟩ := hall m hm
    rw [hmsg m hm, GossipMessage.alive.injEq] at hk
    omega
  · rintro (hnil | hle) m hm
    · rw [hnil, map_nil, map_eq_nil_iff] at hsent
      exact absurd (hsent ▸ hm) not_mem_nil
    · rw [hmsg m hm]
      exact refutes_of_lt (by omega)

theorem first_suspicion_refuted :
    ∃ s', handleMessage (.suspect 1 1) hostB acquainted = .ok (.ok (), s') ∧
    acquainted.membership.getAlivePeers.length = 1 ∧
    ∀ m ∈ s'.outbox.drop acquainted.outbox.length, Refutes 1 1 m.msg := by
  have hactor : acquainted.localActor = 1 := by decide +kernel
  have hheld : 1 ≤ acquainted.membership.incarnation := by decide +kernel
  obtain ⟨s', hrun, -, hiff⟩ := suspicion_refuted_iff (s := acquainted) (i := 1)
    (show acquainted.localActor < maxActors by decide +kernel) (by decide) hostB
  rw [hactor] at hrun hiff
  exact ⟨s', hrun, by decide +kernel, hiff.2 (.inr hheld)⟩

def suspicious : SwimProtocol :=
  (run step (loneNode 2) [arrives (.ping 1 5 []) hostC, arrives (.suspect 1 5) hostC]).getD
    (loneNode 2)

theorem restarted_not_refuted : (handleMessage (.suspect 1 5) hostB acquainted).toOption.map
        (fun r => (r.2.outbox.drop acquainted.outbox.length).map Sent.msg) = some [.alive 1 2] ∧
      suspicious.opinionOf 1 = some ⟨.suspect, 5⟩ ∧
      (handleMessage (.alive 1 2) hostB suspicious).toOption.bind (·.2.opinionOf 1) =
        some ⟨.suspect, 5⟩ := by
  decide +kernel

end Refute
end SwimProtocol
end NexusSfu.Swim
