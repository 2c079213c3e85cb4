import NexusSfu.Swim.Cluster

namespace NexusSfu.Swim

open Base State Checked MembershipList Option List
open Dataplane (SocketAddr)

def PeerState.rank : PeerState → Nat
  | alive => 0
  | suspect => 1
  | dead => 2

def PeerInfo.standing (p : PeerInfo) : ℕ ×ₗ ℕ := toLex (p.incarnation, p.state.rank)

theorem PeerInfo.standing_le {p q : PeerInfo} : p.standing ≤ q.standing ↔
    p.incarnation < q.incarnation ∨ p.incarnation = q.incarnation ∧
      p.state.rank ≤ q.state.rank :=
  Prod.Lex.le_iff

def Rises (p p' : PeerInfo) : Prop := p'.addr = p.addr ∧ p.standing ≤ p'.standing

theorem rises_refl (p : PeerInfo) : Rises p p := ⟨rfl, le_rfl⟩

theorem Rises.trans {p q r : PeerInfo} (h : Rises p q) (h' : Rises q r) : Rises p r :=
  ⟨h'.1.trans h.1, h.2.trans h'.2⟩

theorem rises_of_validateTransition {p : PeerInfo} {state : PeerState} {inc : Nat} (now : Nat)
    (h : validateTransition p.state state p.incarnation inc = true)
    (hdead : state = .dead → inc = p.incarnation) :
    Rises p { p with state, incarnation := inc, lastSeenNs := now } := by
  refine ⟨rfl, PeerInfo.standing_le.2 ?_⟩
  dsimp only
  unfold validateTransition at h
  cases hp : p.state <;> cases state <;> simp [hp, PeerState.rank] at h hdead ⊢ <;> omega

namespace SwimProtocol

section Standing

variable {me x : ActorId} {news : News} {s s' : SwimProtocol} {p : PeerInfo} {e : Event}
  {r : List ActorId}

theorem Step.rises (hstep : Step news s s') (hx : s.membership.findPeer x = some p)
    (hnews : ∀ addr, news.registers x addr → p.addr = addr) :
    ∃ p', s'.membership.findPeer x = some p' ∧ Rises p p' := by
  cases hstep with
  | idle | indirect | send | bump => exact ⟨p, hx, rises_refl p⟩
  | register now a addr h =>
    refine ⟨p, ?_, rises_refl p⟩
    rw [findPeer_insertPeer_of_known hx, if_neg]
    rintro ⟨rfl, haddr⟩
    exact haddr (hnews addr h)
  | mark now a state inc halive hdead =>
    rw [findPeer_transition, hx]
    refine ⟨_, rfl, ?_⟩
    dsimp only
    split_ifs with hvalid
    · obtain ⟨rfl, hvalid⟩ := hvalid
      exact rises_of_validateTransition now hvalid fun h => (hdead h).2 p hx
    · exact rises_refl p
  | touch now a =>
    rw [findPeer_touch, hx]
    refine ⟨_, rfl, ?_⟩
    dsimp only
    split_ifs
    · exact rises_refl p
    · exact rises_refl p

theorem Path.rises (hpath : Path news s s') (hx : s.membership.findPeer x = some p)
    (hnews : ∀ addr, news.registers x addr → p.addr = addr) :
    ∃ p', s'.membership.findPeer x = some p' ∧ Rises p p' := by
  induction hpath with
  | refl => exact ⟨p, hx, rises_refl p⟩
  | tail _ hstep ih =>
    obtain ⟨q, hq, hrises⟩ := ih
    obtain ⟨p', hp', hrises'⟩ := hstep.rises hq fun addr h => hrises.1.trans (hnews addr h)
    exact ⟨p', hp', hrises.trans hrises'⟩

theorem rises_expire (now : Nat) (hx : s.membership.findPeer x = some p) :
    ∃ p', (s.expire now).membership.findPeer x = some p' ∧ Rises p p' := by
  rw [expire, findPeer_checkTimeouts, hx]
  refine ⟨_, rfl, ?_⟩
  dsimp only
  split_ifs with hexp
  · have hstate : p.state = .suspect := by simpa using (Bool.and_eq_true_iff.1 hexp).1
    refine ⟨rfl, PeerInfo.standing_le.2 (.inr ⟨rfl, ?_⟩)⟩
    rw [hstate]
    exact Nat.le_succ 1
  · exact rises_refl p

theorem Handles.rises {us : List Update} (h : Handles news us s s')
    (hx : s.membership.findPeer x = some p)
    (hnews : ∀ addr, news.registers x addr → p.addr = addr) :
    ∃ p', s'.membership.findPeer x = some p' ∧ Rises p p' := by
  obtain ⟨t, hpath, -, hpath'⟩ := h
  obtain ⟨q, hq, hrises⟩ := hpath.rises hx hnews
  obtain ⟨p', hp', hrises'⟩ := hpath'.rises (s := t.received us) hq fun addr h =>
    hrises.1.trans (hnews addr h)
  exact ⟨p', hp', hrises.trans hrises'⟩

theorem Probes.rises {result : Except GossipError (List ActorId)} (h : Probes result s s')
    (hx : s.membership.findPeer x = some p) :
    ∃ p', s'.membership.findPeer x = some p' ∧ Rises p p' := by
  obtain ⟨t, hpath, hres⟩ := h
  obtain ⟨q, hq, hrises⟩ := hpath.rises hx nofun
  cases result with
  | error e => exact ⟨q, hres ▸ hq, hrises⟩
  | ok dead =>
    obtain ⟨now, -, hpath'⟩ := hres
    obtain ⟨q', hq', hrises'⟩ := rises_expire now hq
    obtain ⟨p', hp', hrises''⟩ := hpath'.rises hq' nofun
    exact ⟨p', hp', (hrises.trans hrises').trans hrises''⟩

def movesPeer (x : ActorId) (s : SwimProtocol) : Event → Bool
  | .datagram _ data source => (accepted data).any fun msg =>
      msg.registrant = some x && (s.membership.findPeer x).any (·.addr ≠ source)
  | .seed _ a addr => a = x && (s.membership.findPeer x).any (·.addr ≠ addr)
  | .probe _ | .operation _ | .broadcast _ | .forward | .drainRelayEvents => false

theorem Effect.rises (h : Effect s e r s') (hx : s.membership.findPeer x = some p)
    (hmoves : movesPeer x s e = false) :
    ∃ p', s'.membership.findPeer x = some p' ∧ Rises p p' := by
  cases h with
  | datagram tape data source s' htakes =>
    unfold Takes at htakes
    cases hmsg : accepted data with
    | none =>
      rw [hmsg] at htakes
      exact ⟨p, htakes ▸ hx, rises_refl p⟩
    | some msg =>
      rw [hmsg] at htakes
      refine htakes.rises hx ?_
      rintro addr ⟨hreg, rfl⟩
      simpa [movesPeer, hmsg, hreg, hx] using hmoves
  | probe tape result s' hprobes => exact hprobes.rises hx
  | seed tape a addr s' hpath =>
    refine hpath.rises hx ?_
    rintro _ ⟨rfl, rfl⟩
    simpa [movesPeer, hx] using hmoves
  | operation | broadcast | drainRelayEvents => exact ⟨p, hx, rises_refl p⟩
  | forward =>
    refine ⟨p, ?_, rises_refl p⟩
    unfold forwarded
    split
    · exact hx
    · exact hx

theorem run_rises {es : List Event} (hs : Live me s) (hx : s.membership.findPeer x = some p)
    (hmoves : Permitted (fun s e => movesPeer x s e = false) step s es)
    (hrun : run step s es = some s') :
    ∃ p', s'.membership.findPeer x = some p' ∧ Rises p p' := by
  induction es generalizing s p with
  | nil =>
    cases hrun
    exact ⟨p, hx, rises_refl p⟩
  | cons e es ih =>
    obtain ⟨t, hstep, hrun⟩ := bind_eq_some_iff.1 hrun
    have heffect := step_effect hs hstep
    obtain ⟨q, hq, hrises⟩ := heffect.rises hx hmoves.1
    obtain ⟨p', hp', hrises'⟩ := ih (heffect.live hs) hq (hmoves.2 t hstep) hrun
    exact ⟨p', hp', hrises.trans hrises'⟩

/-- Along any run, the state and incarnation kept for a peer move up only, unless the peer turns up
at another address. -/
theorem peer_standing_rises {s₀ : SwimProtocol} (h₀ : Starts me s₀) {es es' : List Event}
    (hrun : run step s₀ es = some s) (hrun' : run step s es' = some s')
    (hmoves : Permitted (fun s e => movesPeer x s e = false) step s es')
    (hx : s.membership.findPeer x = some p) :
    ∃ p', s'.membership.findPeer x = some p' ∧ p.standing ≤ p'.standing ∧
      (p.state ≠ .alive → p'.state = .alive → p.incarnation < p'.incarnation) := by
  obtain ⟨p', hp', -, hle⟩ := run_rises (run_live h₀.live hrun) hx hmoves hrun'
  refine ⟨p', hp', hle, fun hstate hstate' => ?_⟩
  rcases PeerInfo.standing_le.1 hle with hlt | ⟨-, hrank⟩
  · exact hlt
  · rw [hstate'] at hrank
    cases h : p.state with
    | alive => exact absurd h hstate
    | suspect => simp [h, PeerState.rank] at hrank
    | dead => simp [h, PeerState.rank] at hrank

def suspecting : SwimProtocol :=
  (run step (loneNode 1) [arrives (.ping 2 0 []) hostB, arrives (.suspect 2 0) hostC]).getD
    (loneNode 1)

theorem suspect_refuted_at_its_address :
    ∃ s' p p', run step suspecting [arrives (.ping 2 1 []) hostB] = some s' ∧
    suspecting.membership.findPeer 2 = some p ∧ p.state = .suspect ∧
    s'.membership.findPeer 2 = some p' ∧ p.standing ≤ p'.standing := by
  have hrun' := eq_some_getD (loneNode 1)
    (by decide +kernel : (run step suspecting [arrives (.ping 2 1 []) hostB]).isSome = true)
  have hx : suspecting.membership.findPeer 2 = some ⟨2, hostB, .suspect, 0, 0⟩ := by
    decide +kernel
  obtain ⟨p', hp', hle, -⟩ := peer_standing_rises starts_loneNode
    (eq_some_getD (loneNode 1) (by decide +kernel)) hrun' (by decide +kernel) hx
  exact ⟨_, _, p', hrun', hx, rfl, hp', hle⟩

theorem moved_suspect_alive_again :
    (run step (loneNode 1) [arrives (.ping 2 0 []) hostB, arrives (.suspect 2 0) hostC]).bind
      (·.opinionOf 2) = some ⟨.suspect, 0⟩ ∧
    (run step (loneNode 1) [arrives (.ping 2 0 []) hostB, arrives (.suspect 2 0) hostC,
      arrives (.ping 2 0 []) hostC]).bind (·.opinionOf 2) = some ⟨.alive, 0⟩ := by
  decide +kernel

end Standing

section Reports

variable {me x : ActorId} {news : News} {s s' : SwimProtocol} {e : Event} {r : List ActorId}

def deadPeer (s : SwimProtocol) (x : ActorId) : Bool :=
  (s.membership.findPeer x).any (·.state = .dead)

theorem deadPeer_iff :
    s.deadPeer x = true ↔ ∃ p, s.membership.findPeer x = some p ∧ p.state = .dead := by
  unfold deadPeer
  cases s.membership.findPeer x with
  | none => simp
  | some p => simp

theorem Step.deadPeer_of_step (hstep : Step news s s') (hnews : ¬ news.buries x)
    (h : s'.deadPeer x = true) : s.deadPeer x = true := by
  rw [deadPeer_iff] at h ⊢
  obtain ⟨p', hp', hdead⟩ := h
  cases hstep with
  | idle | indirect | send | bump => exact ⟨p', hp', hdead⟩
  | register now a addr =>
    cases hx : s.membership.findPeer x with
    | none =>
      obtain ⟨-, rfl⟩ := findPeer_insertPeer_of_unknown hx hp'
      cases hdead
    | some p =>
      rw [findPeer_insertPeer_of_known hx] at hp'
      split_ifs at hp'
      · cases hp'
        cases hdead
      · cases hp'
        exact ⟨p', rfl, hdead⟩
  | mark now a state inc halive hburies =>
    rw [findPeer_transition] at hp'
    obtain ⟨p, hx, rfl⟩ := map_eq_some_iff.1 hp'
    split_ifs at hdead with hvalid
    · exact absurd (hvalid.1 ▸ (hburies hdead).1) hnews
    · exact ⟨p, hx, hdead⟩
  | touch now a =>
    rw [findPeer_touch] at hp'
    obtain ⟨p, hx, rfl⟩ := map_eq_some_iff.1 hp'
    refine ⟨p, hx, ?_⟩
    split_ifs at hdead
    · exact hdead
    · exact hdead

theorem Step.deadPeer_kept (hstep : Step {} s s') (h : s.deadPeer x = true) :
    s'.deadPeer x = true := by
  rw [deadPeer_iff] at h ⊢
  obtain ⟨p, hx, hdead⟩ := h
  cases hstep with
  | idle | indirect | send | bump => exact ⟨p, hx, hdead⟩
  | register now a addr h => exact absurd h id
  | mark now a state inc halive hburies =>
    refine ⟨_, by rw [findPeer_transition, hx, map_some], ?_⟩
    split_ifs with hvalid
    · cases state with
      | alive => exact absurd (halive rfl) id
      | suspect => simp [validateTransition, hdead] at hvalid
      | dead => rfl
    · exact hdead
  | touch now a =>
    refine ⟨_, by rw [findPeer_touch, hx, map_some], ?_⟩
    split_ifs
    · exact hdead
    · exact hdead

theorem Path.deadPeer_of_path (hpath : Path news s s') (hnews : ¬ news.buries x)
    (h : s'.deadPeer x = true) : s.deadPeer x = true := by
  induction hpath with
  | refl => exact h
  | tail _ hstep ih => exact ih (hstep.deadPeer_of_step hnews h)

theorem Path.deadPeer_eq (hpath : Path {} s s') : s'.deadPeer x = s.deadPeer x := by
  refine Bool.eq_iff_iff.2 ⟨hpath.deadPeer_of_path id, fun h => ?_⟩
  induction hpath with
  | refl => exact h
  | tail _ hstep ih => exact hstep.deadPeer_kept ih

theorem count_checkTimeouts (hs : Safe me s) (now : Nat) (x : ActorId) :
    (s.membership.checkTimeouts now).1.count x =
      if s.deadPeer x = false ∧ (s.expire now).deadPeer x = true then 1 else 0 := by
  have hnodup : (s.membership.checkTimeouts now).1.Nodup :=
    hs.members.nodup.sublist (filter_sublist.map PeerInfo.actorId)
  have hmem : x ∈ (s.membership.checkTimeouts now).1 ↔
      ∃ p, s.membership.findPeer x = some p ∧ expired now p = true := by
    simp only [checkTimeouts, List.mem_map, List.mem_filter, hs.members.findPeer_eq_some]
    exact exists_congr fun p => and_right_comm
  have hdies : s.deadPeer x = false ∧ (s.expire now).deadPeer x = true ↔
      ∃ p, s.membership.findPeer x = some p ∧ expired now p = true := by
    unfold deadPeer expire
    rw [findPeer_checkTimeouts]
    cases s.membership.findPeer x with
    | none => simp
    | some p =>
      by_cases hexp : expired now p = true
      · have hstate : p.state = .suspect := by simpa using (Bool.and_eq_true_iff.1 hexp).1
        simp [hexp, hstate]
      · simp [hexp]
  rw [hnodup.count]
  simp only [hmem, hdies]

theorem Probes.count_reported {result : Except GossipError (List ActorId)} (h : Probes result s s')
    (hs : Safe me s) (x : ActorId) : (result.toOption.getD []).count x =
      if s.deadPeer x = false ∧ s'.deadPeer x = true then 1 else 0 := by
  obtain ⟨t, hpath, hres⟩ := h
  rw [← hpath.deadPeer_eq]
  cases result with
  | error e =>
    cases hres
    simp [Except.toOption]
  | ok dead =>
    obtain ⟨now, rfl, hpath'⟩ := hres
    rw [hpath'.deadPeer_eq]
    exact count_checkTimeouts (hpath.safe hs) now x

def saysDead (x : ActorId) : Event → Bool
  | .datagram _ data _ => (accepted data).any fun msg => x ∈ msg.buried
  | .probe _ | .seed _ _ _ | .operation _ | .broadcast _ | .forward | .drainRelayEvents => false

theorem Effect.count_reported (h : Effect s e r s') (hs : Live me s)
    (hsaid : saysDead x e = false) :
    r.count x = if s.deadPeer x = false ∧ s'.deadPeer x = true then 1 else 0 := by
  have hnone : (s'.deadPeer x = true → s.deadPeer x = true) →
      ([] : List ActorId).count x = if s.deadPeer x = false ∧ s'.deadPeer x = true then 1
        else 0 := by
    intro himp
    rw [if_neg]
    · rfl
    · rintro ⟨halive, hdead⟩
      simp [himp hdead] at halive
  cases h with
  | datagram tape data source s' htakes =>
    refine hnone fun hdead => ?_
    unfold Takes at htakes
    cases hmsg : accepted data with
    | none =>
      rw [hmsg] at htakes
      obtain rfl : s' = { s with tape } := htakes
      exact hdead
    | some msg =>
      rw [hmsg] at htakes
      have hnews : x ∉ msg.buried := by simpa [saysDead, hmsg] using hsaid
      obtain ⟨t, hpath, -, hpath'⟩ := htakes
      exact hpath.deadPeer_of_path hnews (hpath'.deadPeer_of_path (s := t.received _) hnews hdead)
  | probe tape result s' hprobes => exact hprobes.count_reported (hs.withTape tape).toSafe x
  | seed tape a addr s' hpath => exact hnone (hpath.deadPeer_of_path id)
  | operation | broadcast | drainRelayEvents => exact hnone id
  | forward =>
    refine hnone fun hdead => ?_
    unfold forwarded at hdead
    split at hdead
    · exact hdead
    · exact hdead

/-- Every death is reported once, by the probe cycle that it happens in, and nothing else is
reported, unless a datagram says that the peer is dead; and the gossip thread calls
`handle_node_failure` for what the probe cycle of its turn reported, and for nothing else. -/
theorem death_reported_once {s₀ : SwimProtocol} (h₀ : Starts me s₀) {es : List Event}
    (hrun : run step s₀ es = some s) :
    (∀ e s', step s e = some s' → saysDead x e = false →
      (reported s e).count x = if s.deadPeer x = false ∧ s'.deadPeer x = true then 1 else 0) ∧
    ∀ tape incoming s', s.takeTurn (.iterate tape incoming) = some s' →
      ∃ tape', run step s (s.iterationEvents tape tape' incoming) = some s' := by
  have hs := run_live h₀.live hrun
  exact ⟨fun e s' hstep hsaid => (step_effect hs hstep).count_reported hs hsaid,
    fun tape incoming s' hturn => takeTurn_iterate hturn⟩

def reports : SwimProtocol → List Event → List ActorId
  | _, [] => []
  | s, e :: es => reported s e ++ match step s e with
    | some s' => reports s' es
    | none => []

theorem reports_append {es : List Event} (hrun : run step s es = some s') (es' : List Event) :
    reports s (es ++ es') = reports s es ++ reports s' es' := by
  induction es generalizing s with
  | nil =>
    cases hrun
    rfl
  | cons e es ih =>
    obtain ⟨t, hstep, hrun⟩ := bind_eq_some_iff.1 hrun
    rw [cons_append, reports, reports, hstep, append_assoc]
    exact congrArg (reported s e ++ ·) (ih hrun)

theorem Probes.deadPeer_kept {result : Except GossipError (List ActorId)} (h : Probes result s s')
    (hdead : s.deadPeer x = true) : s'.deadPeer x = true := by
  obtain ⟨t, hpath, hres⟩ := h
  rw [← hpath.deadPeer_eq] at hdead
  cases result with
  | error e =>
    cases hres
    exact hdead
  | ok dead =>
    obtain ⟨now, -, hpath'⟩ := hres
    rw [hpath'.deadPeer_eq]
    obtain ⟨p, hx, hstate⟩ := deadPeer_iff.1 hdead
    refine deadPeer_iff.2 ⟨_, by rw [expire, findPeer_checkTimeouts, hx, map_some], ?_⟩
    split_ifs
    · rfl
    · exact hstate

theorem dead_never_reported (hs : Live me s) (hdead : s.deadPeer x = true) (tapes : List Tape) :
    x ∉ reports s (tapes.map .probe) := by
  induction tapes generalizing s with
  | nil => exact not_mem_nil
  | cons tape tapes ih =>
    rw [map_cons, reports, mem_append, not_or]
    cases hstep : step s (.probe tape) with
    | none =>
      refine ⟨?_, not_mem_nil⟩
      unfold step at hstep
      rw [reported, map_eq_none_iff.1 hstep]
      exact not_mem_nil
    | some s' =>
      have heffect := step_effect hs hstep
      have hcount := heffect.count_reported (x := x) hs rfl
      refine ⟨?_, ?_⟩
      · rw [hdead] at hcount
        exact count_eq_zero.1 hcount
      · refine ih (heffect.live hs) ?_
        generalize reported s (.probe tape) = r at heffect
        cases heffect with
        | probe _ result _ hprobes => exact hprobes.deadPeer_kept hdead

theorem expired_suspect_reported :
    (reported suspecting (.probe { times := [6000000000] })).count 2 = 1 ∧
    ∃ s' tape', suspecting.takeTurn (.iterate { times := [6000000000] } none) = some s' ∧
      .operation (.handleNodeFailure 2) ∈ suspecting.iterationEvents { times := [6000000000] }
        tape' none ∧
      run step suspecting (suspecting.iterationEvents { times := [6000000000] } tape' none) =
        some s' := by
  have hrun := eq_some_getD (loneNode 1) (by decide +kernel :
    (run step (loneNode 1) [arrives (.ping 2 0 []) hostB, arrives (.suspect 2 0) hostC]).isSome =
      true)
  have hstep := eq_some_getD (loneNode 1)
    (by decide +kernel : (step suspecting (.probe { times := [6000000000] })).isSome = true)
  have hturn := eq_some_getD (loneNode 1) (by decide +kernel :
    (suspecting.takeTurn (.iterate { times := [6000000000] } none)).isSome = true)
  obtain ⟨hcount, hturns⟩ := death_reported_once (x := 2) starts_loneNode hrun
  obtain ⟨tape', hrun'⟩ := hturns _ _ _ hturn
  refine ⟨(hcount _ _ hstep rfl).trans (by decide +kernel), _, tape', hturn, ?_, hrun'⟩
  have hmem : 2 ∈ suspecting.forwarded.reported (.probe { times := [6000000000] }) := by
    decide +kernel
  exact mem_append_left _ (mem_append_right _ (mem_map_of_mem hmem))

/-- A peer that a message said is dead is never reported, whatever probe cycles follow. -/
theorem death_by_message_unreported :
    (step (loneNode 1) (arrives (.ping 2 0 []) hostB)).bind (·.opinionOf 2) =
      some ⟨.alive, 0⟩ ∧
    (run step (loneNode 1) [arrives (.ping 2 0 []) hostB, arrives (.dead 2) hostC]).bind
      (·.opinionOf 2)
      = some ⟨.dead, 0⟩ ∧ ∀ tapes : List Tape, 2 ∉ reports (loneNode 1)
      (arrives (.ping 2 0 []) hostB :: arrives (.dead 2) hostC :: tapes.map .probe) := by
  have hrun := eq_some_getD (loneNode 1) (by decide +kernel :
    (run step (loneNode 1) [arrives (.ping 2 0 []) hostB, arrives (.dead 2) hostC]).isSome = true)
  refine ⟨by decide +kernel, by decide +kernel, fun tapes => ?_⟩
  have hreports := reports_append hrun (tapes.map .probe)
  have hdead := dead_never_reported (x := 2) (run_live starts_loneNode.live hrun)
    (by decide +kernel) tapes
  rw [cons_append, cons_append, nil_append] at hreports
  rw [hreports, mem_append, not_or]
  exact ⟨by decide +kernel, hdead⟩

end Reports
end SwimProtocol
end NexusSfu.Swim
