import NexusSfu.Swim.Protocol

namespace NexusSfu.Swim

open Base State Checked MembershipList List
open Dataplane (SocketAddr)

def GossipMessage.registrant : GossipMessage → Option ActorId
  | ping sender _ _ | stateSnapshot sender _ _ _ => some sender
  | ack _ _ _ | pingReq _ _ _ _ | suspect _ _ | alive _ _ | dead _ | forwardedAck _ _ => none

def GossipMessage.buried : GossipMessage → List ActorId
  | dead actorId => [actorId]
  | stateSnapshot _ _ members _ => (members.filter (·.2.2 = 2)).map Prod.fst
  | ping _ _ _ | ack _ _ _ | pingReq _ _ _ _ | suspect _ _ | alive _ _ | forwardedAck _ _ => []

structure News where
  registers : ActorId → SocketAddr → Prop := fun _ _ => False
  buries : ActorId → Prop := fun _ => False
  vouches : Prop := False

def GossipMessage.news (msg : GossipMessage) (source : SocketAddr) : News where
  registers a addr := msg.registrant = some a ∧ addr = source
  buries a := a ∈ msg.buried
  vouches := True

namespace SwimProtocol

inductive Step (news : News) : SwimProtocol → SwimProtocol → Prop
  | idle {s} (tape : Tape) (pendingPings : Assoc ActorId PendingPing)
    (lastProbeNs lastAntiEntropyNs : Nat)
    (h : tape.sends = s.tape.sends) :
    Step news s { s with tape, pendingPings, lastProbeNs, lastAntiEntropyNs }
  | register {s} (now : Nat) (a : ActorId) (addr : SocketAddr) (h : news.registers a addr)
    (ha : a < maxActors) (hself : a ≠ s.membership.localActor) :
    Step news s { s with membership := (s.membership.insertPeer now a addr).2 }
  | mark {s} (now : Nat) (a : ActorId) (state : PeerState) (inc : Nat)
    (halive : state = .alive → news.vouches) (hdead : state = .dead → news.buries a ∧ ∀ p,
      s.membership.findPeer a = some p → inc = p.incarnation) :
    Step news s { s with membership := (s.membership.transition now a state inc).2 }
  | touch {s} (now : Nat) (a : ActorId) :
    Step news s { s with membership := s.membership.touch now a }
  | bump {s} (incarnation : Nat) :
    Step news s { s with membership := { s.membership with incarnation } }
  | indirect {s} (pendingIndirect : Assoc ActorId PendingIndirect)
    (h : pendingIndirect.entries.length ≤
      max s.pendingIndirect.entries.length maxPendingIndirect) :
    Step news s { s with pendingIndirect }
  | send {s} (msg : GossipMessage) (dest : SocketAddr) (k : Nat)
    (h : msg.updates = s.piggybackQueue.take k) :
    Step news s { s with
      piggybackQueue := s.piggybackQueue.drop k
      outbox := s.outbox ++ [⟨msg, dest, s.tape.sends.headD .sent = .sent⟩]
      tape := { s.tape with sends := s.tape.sends.tail } }

abbrev Path (news : News) := Relation.ReflTransGen (Step news)

structure Safe (me : ActorId) (s : SwimProtocol) : Prop where
  actor : s.localActor = me
  members : s.membership.Wf
  self : s.membership.localActor = me
  queue : s.piggybackQueue.length ≤ maxPiggybackQueueSize
  relays : s.relayEvents.length ≤ maxRelayEvents
  indirect : s.pendingIndirect.entries.length ≤ maxPendingIndirect

section Safe

variable {me : ActorId} {news : News} {s s' : SwimProtocol}

theorem Safe.withMembers (h : Safe me s) {m : MembershipList} (hm : m.Wf)
    (hself : m.localActor = me) :
    Safe me { s with membership := m } :=
  ⟨h.actor, hm, hself, h.queue, h.relays, h.indirect⟩

theorem Step.safe (hstep : Step news s s') (h : Safe me s) : Safe me s' := by
  cases hstep with
  | idle => exact ⟨h.actor, h.members, h.self, h.queue, h.relays, h.indirect⟩
  | register now a addr hnews ha hself =>
    have hm := h.members.insertPeer ha hself now addr
    exact h.withMembers hm.1 (hm.2.trans h.self)
  | mark now a state inc =>
    exact h.withMembers (h.members.of_sameIds sameIds_transition)
      (sameIds_transition.1.trans h.self)
  | touch now a =>
    exact h.withMembers (h.members.of_sameIds sameIds_touch)
      (sameIds_touch.1.trans h.self)
  | bump incarnation => exact h.withMembers (h.members.of_sameIds ⟨rfl, rfl, rfl, rfl⟩) h.self
  | indirect pendingIndirect hle =>
    exact ⟨h.actor, h.members, h.self, h.queue, h.relays, hle.trans (max_le h.indirect le_rfl)⟩
  | send msg dest k =>
    refine ⟨h.actor, h.members, h.self, ?_, h.relays, h.indirect⟩
    exact (drop_sublist ..).length_le.trans h.queue

theorem Path.safe (hpath : Path news s s') (h : Safe me s) : Safe me s' := by
  induction hpath with
  | refl => exact h
  | tail _ hstep ih => exact hstep.safe ih

end Safe

def Moves {α : Type} (me : ActorId) (news : News) (m : Routine α) : Prop :=
  ∀ (A : Panic → Prop) (s : SwimProtocol), Safe me s → Ensures A m s fun _ s' =>
    Path news s s'

section Moves

variable {α β : Type} {me : ActorId} {news : News} {m : Routine α}
  {f : α → Routine β} {a : ActorId}
  {inc : Nat}

theorem Moves.pure (a : α) : Moves me news (pure a : Routine α) := fun _ _ _ => .refl

theorem Moves.bind (hm : Moves me news m) (hf : ∀ a, Moves me news (f a)) :
    Moves me news (m >>= f) := by
  intro A s hs
  rw [ensures_bind]
  refine (hm A s hs).mono fun a s' hpath => ?_
  exact (hf a A s' (hpath.safe hs)).mono fun _ _ hpath' => hpath.trans hpath'

theorem Moves.andThen {A : Panic → Prop} {s t : SwimProtocol} {Q : β → SwimProtocol → Prop}
    (hm : Moves me news m) (hs : Safe me s) (hpath : Path news s t)
    (hf : ∀ a t', Path news s t' → Ensures A (f a) t' Q) : Ensures A (m >>= f) t Q := by
  rw [ensures_bind]
  exact (hm A t (hpath.safe hs)).mono fun a t' hpath' => hf a t' (hpath.trans hpath')

theorem Moves.get {f : SwimProtocol → Routine β}
    (hf : ∀ s, Safe me s → Moves me news (f s)) :
    Moves me news (MonadState.get >>= f) := fun A s hs => hf s hs A s hs

theorem Moves.ite {c : Prop} [Decidable c] {m' : Routine α} (hm : c → Moves me news m)
    (hm' : ¬ c → Moves me news m') : Moves me news (if c then m else m') := by
  split_ifs with hc
  · exact hm hc
  · exact hm' hc

theorem Moves.modify {g : SwimProtocol → SwimProtocol}
    (h : ∀ s, Safe me s → Step news s (g s)) :
    Moves me news (modify g) := fun _ s hs => .single (h s hs)

theorem Moves.each {g : α → Routine Unit} {as : List α}
    (h : ∀ a ∈ as, Moves me news (g a)) :
    Moves me news (each g as) := by
  induction as with
  | nil => exact .pure ()
  | cons a as ih =>
    exact .bind (h a (mem_cons_self ..)) fun _ => ih fun b hb => h b (mem_cons_of_mem a hb)

theorem Moves.onMembers {m : Checked Panic MembershipList α}
    (h : ∀ (A : Panic → Prop) s, Safe me s →
      Ensures A m s.membership fun _ t => Step news s { s with membership := t }) :
    Moves me news (onMembers m) := by
  intro A s hs
  rw [SwimProtocol.onMembers, ensures_zoom]
  exact (h A s hs).mono fun _ _ hstep => .single hstep

theorem moves_currentTimeNs : Moves me news currentTimeNs :=
  fun _ _ _ => .single (.idle _ _ _ _ rfl)

theorem moves_getrandom : Moves me news getrandom := fun _ _ _ => .single (.idle _ _ _ _ rfl)

theorem ensures_send {A : Panic → Prop} {s : SwimProtocol} {msg : GossipMessage}
    {dest : SocketAddr} {Q : Except GossipError Unit → SwimProtocol → Prop} :
    Ensures A (send msg dest) s Q ↔
      Q (if s.tape.sends.headD .sent = .failed then .error .transport else .ok ()) { s with
        tape := { s.tape with sends := s.tape.sends.tail }
        outbox := s.outbox ++ [⟨msg, dest, s.tape.sends.headD .sent = .sent⟩] } := by
  simp only [send, ensures_bind, ensures_expect, msg.encode_eq, ensures_assert,
    msg.length_layout_pos, msg.length_layout_le, decide_true, Bool.and_self, if_true, ensures_get,
    ensures_modify, ensures_pure]

theorem moves_send {msg : GossipMessage} (hmsg : msg.updates = []) (dest : SocketAddr) :
    Moves me news (send msg dest) := fun _ _ _ =>
  ensures_send.2 (.single (.send msg dest 0 hmsg))

theorem moves_sendWithUpdates {msg : List Update → GossipMessage}
    (hmsg : ∀ us, (msg us).updates = us) (dest : SocketAddr) :
    Moves me news (sendWithUpdates msg dest) := by
  intro A s _
  simp only [sendWithUpdates, getPiggybackUpdates, ensures_bind, ensures_get, ensures_set,
    ensures_pure, ensures_send]
  exact .single (.send _ dest _ (hmsg _))

theorem moves_sendAll {msg : GossipMessage} (hmsg : msg.updates = []) (peers : List PeerInfo) :
    Moves me news (sendAll msg peers) :=
  .each fun _ _ => .bind (moves_send hmsg _) fun _ => .pure _

theorem moves_fanoutPeers : Moves me news (fanoutPeers a) :=
  .bind moves_getrandom fun _ => .get fun _ _ => .pure _

theorem moves_broadcastAlive : Moves me news (broadcastAlive a inc) :=
  .get fun _ _ => moves_sendAll rfl _

theorem moves_broadcastSuspect : Moves me news (broadcastSuspect a inc) :=
  .bind moves_fanoutPeers fun _ => moves_sendAll rfl _

theorem moves_broadcastDead : Moves me news (broadcastDead a) :=
  .bind moves_fanoutPeers fun _ => moves_sendAll rfl _

theorem moves_requestIndirectProbes {addr : SocketAddr} :
    Moves me news (requestIndirectProbes a addr) :=
  .get fun _ _ => .bind moves_fanoutPeers fun _ => moves_sendAll rfl _

theorem moves_addPeer {addr : SocketAddr} (hnews : news.registers a addr) (ha : a < maxActors)
    (hself : a ≠ me) (now : Nat) :
    Moves me news (onMembers (MembershipList.addPeer now a addr)) := by
  refine .onMembers fun A s hs => ?_
  have hlocal : a ≠ s.membership.localActor := hs.self ▸ hself
  simp only [MembershipList.addPeer, ensures_bind, ensures_assert, ha, decide_true,
    if_true, ensures_get, hlocal, ne_eq, not_false_eq_true, ensures_set,
    insertPeer_asserts, ensures_pure]
  exact .register now a addr hnews ha hlocal

theorem moves_markSuspect (ha : a < maxActors) (hself : a ≠ me) (now inc : Nat) :
    Moves me news (onMembers (MembershipList.markSuspect now a inc)) := by
  refine .onMembers fun A s hs => ?_
  have hlocal : a ≠ s.membership.localActor := hs.self ▸ hself
  simp only [MembershipList.markSuspect, MembershipList.updateState, ensures_bind,
    ensures_assert, ha, decide_true, if_true, ensures_get, hlocal, ne_eq, not_false_eq_true,
    ensures_set, transition_asserts, ensures_pure]
  exact .mark now a .suspect inc (by simp) (by simp)

theorem moves_markDead (hnews : news.buries a) (ha : a < maxActors) (hself : a ≠ me) (now : Nat) :
    Moves me news (onMembers (MembershipList.markDead now a)) := by
  refine .onMembers fun A s hs => ?_
  have hlocal : a ≠ s.membership.localActor := hs.self ▸ hself
  simp only [MembershipList.markDead, MembershipList.updateState, ensures_bind, ensures_assert, ha,
    decide_true, if_true, ensures_get, hlocal, ne_eq, not_false_eq_true, ensures_set,
    transition_asserts, ensures_pure]
  refine .mark now a .dead _ (by simp) fun _ => ⟨hnews, fun p hp => ?_⟩
  rw [hp]

theorem step_refute {s : SwimProtocol} :
    Step news s { s with membership := s.membership.refute inc } := by
  unfold MembershipList.refute
  split_ifs
  · exact .bump s.membership.incarnation
  · exact .bump _

theorem moves_markAlive (hv : news.vouches) (ha : a < maxActors) :
    Moves me news (markAlive a inc) := by
  refine .bind moves_currentTimeNs fun now => .bind (.onMembers fun A s hs => ?_) fun _ => .pure _
  simp only [MembershipList.markAlive, MembershipList.updateState, ensures_bind, ensures_assert, ha,
    decide_true, if_true, ensures_get, ensures_ite, ensures_modify, ensures_set, ensures_pure]
  exact ⟨fun _ => step_refute, fun _ => .mark now a .alive inc (fun _ => hv) (by simp)⟩

theorem moves_touch : Moves me news (touch a) :=
  .bind moves_currentTimeNs fun now => .onMembers fun _ _ _ => .touch now a

theorem moves_welcome {source : SocketAddr} (hv : news.vouches) (hnews : news.registers a source)
    (ha : a < maxActors) (hself : a ≠ me) : Moves me news (welcome a inc source) :=
  .bind moves_currentTimeNs fun now => .bind (moves_addPeer hnews ha hself now) fun _ =>
    .bind (moves_markAlive hv ha) fun _ => moves_touch

theorem moves_forwardAck : Moves me news (forwardAck a inc) := by
  refine .get fun s _ => ?_
  cases s.pendingIndirect.lookup a with
  | none => exact .pure _
  | some pending =>
    refine .bind (.modify fun s _ => .indirect _ (le_max_of_le_left ?_)) fun _ =>
      .bind (moves_send rfl _) fun _ => .pure _
    exact (kerase_sublist a s.pendingIndirect.entries).length_le

theorem moves_handlePingReq {target : ActorId} {targetAddr requesterAddr : SocketAddr} :
    Moves me news (handlePingReq a target targetAddr requesterAddr) := by
  refine .get fun s _ => .ite (fun _ => .pure _) fun _ => ?_
  refine .bind (moves_sendWithUpdates (fun _ => rfl) _) fun r => ?_
  cases r with
  | error e => exact .pure _
  | ok =>
    refine .bind moves_currentTimeNs fun now => .bind (.modify fun s hs => ?_) fun _ => .pure _
    split_ifs with hlen
    · refine .indirect _ (le_max_of_le_right ?_)
      rw [AList.entries_insert, length_cons]
      exact (Nat.succ_le_succ (kerase_sublist target s.pendingIndirect.entries).length_le).trans
        hlen
    · exact .idle _ _ _ _ rfl

theorem moves_handleSuspect (ha : a < maxActors) : Moves me news (handleSuspect a inc) := by
  refine .get fun s hs => ?_
  dsimp only
  refine .ite (fun _ => ?_) fun hself => ?_
  · exact .bind (.onMembers fun _ _ _ => .bump _) fun _ => .bind moves_broadcastAlive
      fun _ => .pure _
  · exact .bind moves_currentTimeNs fun now =>
      .bind (moves_markSuspect ha (hs.actor ▸ hself) now inc) fun _ => .pure _

theorem moves_handleAlive (hv : news.vouches) (ha : a < maxActors) :
    Moves me news (handleAlive a inc) :=
  .bind (moves_markAlive hv ha) fun _ => .pure _

theorem moves_handleDead (hnews : news.buries a) (ha : a < maxActors) :
    Moves me news (handleDead a) := by
  refine .get fun s hs => ?_
  dsimp only
  refine .ite (fun hself => ?_) fun _ => .pure _
  exact .bind moves_currentTimeNs fun now =>
    .bind (moves_markDead hnews ha (hs.actor ▸ hself) now) fun _ => .pure _

theorem moves_handleForwardedAck (hv : news.vouches) (ha : a < maxActors) :
    Moves me news (handleForwardedAck a inc) := by
  refine .bind (.modify fun s _ => .idle _ _ _ _ rfl) fun _ => .get fun s hs => ?_
  dsimp only
  refine .ite (fun _ => ?_) fun _ => .pure _
  exact .bind (moves_markAlive hv ha) fun _ => .bind moves_touch fun _ => .pure _

theorem moves_mergeMember {state : UInt8} (hv : news.vouches)
    (hnews : state = 2 → news.buries a) :
    Moves me news (mergeMember (a, inc, state)) := by
  refine .get fun s hs => ?_
  refine .ite (fun _ => .pure _) fun hknown => ?_
  simp only [not_or, not_le] at hknown
  obtain ⟨hself, ha, -⟩ := hknown
  rw [hs.actor] at hself
  cases hst : PeerState.fromU8 state with
  | none => exact .pure _
  | some st =>
    cases st with
    | alive => exact moves_markAlive hv ha
    | suspect =>
      exact .bind moves_currentTimeNs fun now => .bind (moves_markSuspect ha hself now inc)
        fun _ => .pure _
    | dead =>
      have hstate : state = 2 := PeerState.eq_byte_of_fromU8 hst
      exact .bind moves_currentTimeNs fun now => .bind (moves_markDead (hnews hstate) ha hself now)
        fun _ => .pure _

theorem moves_sendPing {target : PeerInfo} (h : target.state = .alive) :
    Moves me news (sendPing target) := by
  intro A s hs
  rw [sendPing, ensures_bind, ensures_assert, if_pos (by simpa using h)]
  refine Moves.get (fun s _ => ?_) A s hs
  refine .bind (moves_sendWithUpdates (fun _ => rfl) _) fun r => ?_
  cases r with
  | error e => exact .pure _
  | ok =>
    refine .get fun s _ => ?_
    dsimp only
    refine .ite (fun _ => ?_) fun _ => .pure _
    exact .bind moves_currentTimeNs fun now => .bind (.modify fun s _ => .idle _ _ _ _ rfl)
      fun _ => .pure _

theorem moves_pingTimedOut {now : Nat} {pending : PendingPing} :
    Moves me news (pingTimedOut now a pending) := by
  unfold pingTimedOut
  refine .ite (fun _ => ?_) fun _ => ?_
  · refine .bind (.modify fun s _ => .idle _ _ _ _ rfl) fun _ => .get fun s hs => ?_
    cases hfind : s.membership.findPeer a with
    | none => exact .pure _
    | some peer =>
      obtain ⟨hmem, rfl⟩ := mem_of_findPeer hfind
      obtain ⟨ha, hself⟩ := hs.members.range peer.actorId (mem_map_of_mem hmem)
      exact .bind moves_currentTimeNs fun seen =>
        .bind (moves_markSuspect ha (hs.self ▸ hself) seen _) fun _ => moves_broadcastSuspect
  · exact .bind moves_requestIndirectProbes fun _ => .modify fun s _ => .idle _ _ _ _ rfl

theorem moves_checkPingTimeouts {now : Nat} : Moves me news (checkPingTimeouts now) := by
  refine .get fun s _ => .bind (.modify fun s _ => .indirect _ (le_max_of_le_left ?_)) fun _ =>
    .each fun e _ => moves_pingTimedOut
  exact length_filter_le ..

theorem alive_of_getRandomAlivePeer {m : MembershipList} {draw : Nat} {peer : PeerInfo}
    (h : m.getRandomAlivePeer draw = some peer) : peer.state = .alive := by
  have hmem := mem_of_getElem? h
  simpa using (mem_filter.1 hmem).2

theorem moves_runAntiEntropy {now : Nat} : Moves me news (runAntiEntropy now) := by
  refine .get fun s _ => .ite (fun _ => .pure _) fun _ => ?_
  refine .bind (.modify fun s _ => .idle _ _ _ _ rfl) fun _ => .bind moves_getrandom fun draws => ?_
  cases s.membership.getRandomAlivePeer (draws.headD 0) with
  | none => exact .pure _
  | some peer => exact .bind (moves_sendWithUpdates (fun _ => rfl) _) fun _ => .pure _

end Moves

section Received

variable {A : Panic → Prop} {me : ActorId} {news : News} {s : SwimProtocol}

def received (s : SwimProtocol) (us : List Update) : SwimProtocol :=
  { s with
    shared := s.shared.map fun shared => us.foldl Shared.applied shared
    piggybackQueue := us.foldl requeued s.piggybackQueue
    relayEvents := us.foldl noted s.relayEvents }

theorem onShared_of_none {m : Checked Panic Shared Unit} (hs : s.shared = none) :
    onShared m s = .ok ((), s) := by
  rw [onShared, hs]

theorem onShared_of_some {m : Checked Panic Shared Unit} {shared : Shared}
    (hs : s.shared = some shared) :
    onShared m s = (m shared).map fun r => ((), { s with shared := some r.2 }) := by
  rw [onShared, hs]

def ClockFits (s : SwimProtocol) : Prop :=
  ∀ shared, s.shared = some shared → shared.state.clock ≤ u64Max

theorem ensures_onShared {m : Checked Panic Shared Unit} {g : Shared → Shared}
    (h : ∀ shared, s.shared = some shared → Ensures A m shared fun _ t =>
      t = g shared ∧ t.state.clock ≤ u64Max) :
    Ensures A (onShared m) s fun _ s' => s' = { s with shared := s.shared.map g } ∧
      ClockFits s' := by
  cases hs : s.shared with
  | none =>
    rw [Ensures, onShared_of_none hs, Option.map_none]
    exact ⟨by rw [← hs], by rw [ClockFits, hs]; simp⟩
  | some shared =>
    have hm := h shared hs
    rw [Ensures] at hm ⊢
    rw [onShared_of_some hs]
    cases hr : m shared with
    | error e =>
      rw [hr] at hm
      exact hm
    | ok r =>
      rw [hr] at hm
      refine ⟨congrArg (fun t => { s with shared := some t }) hm.1, ?_⟩
      rintro _ ⟨⟩
      exact hm.2

structure Ready (A : Panic → Prop) (n : Nat) (shared : Shared) : Prop where
  sound : shared.state.Sound
  fits : shared.state.clock ≤ u64Max
  budget : A .clockOverflow ∨ shared.state.clock + n ≤ u64Max

def Prepared (A : Panic → Prop) (n : Nat) (s : SwimProtocol) : Prop :=
  ∀ shared, s.shared = some shared → Ready A n shared

theorem Prepared.mono {n k : Nat} (h : Prepared A n s) (hk : k ≤ n) : Prepared A k s := by
  intro shared hs
  obtain ⟨hsound, hfits, hclock⟩ := h shared hs
  exact ⟨hsound, hfits, hclock.imp_right (Nat.add_le_add_left hk _).trans⟩

theorem Prepared.clockFits {n : Nat} (h : Prepared A n s) : ClockFits s :=
  fun shared hs => (h shared hs).fits

theorem Prepared.applied {n : Nat} (h : Prepared A (n + 1) s) (u : Update)
    (hfits : ClockFits { s with shared := s.shared.map (·.applied u) }) :
    Prepared A n { s with shared := s.shared.map (·.applied u) } := by
  intro shared hs
  have hclock := hfits shared hs
  obtain ⟨shared', hs', rfl⟩ := Option.map_eq_some_iff.1 hs
  refine ⟨sound_applied (h shared' hs').sound, hclock,
    (h shared' hs').budget.imp_right fun hle => ?_⟩
  have hone := clock_applied_le (s := shared') (u := u)
  omega

theorem ensures_applyAll (us : List Update) (h : Prepared A us.length s) :
    Ensures A (each (fun u => onShared (applyStateUpdate u)) us) s fun _ s' =>
      s' = { s with shared := s.shared.map fun shared => us.foldl Shared.applied shared } ∧
        ClockFits s' := by
  induction us generalizing s with
  | nil => exact ⟨by simp, h.clockFits⟩
  | cons u us ih =>
    rw [each, ensures_bind]
    refine (ensures_onShared (g := fun shared => shared.applied u) fun shared hs => ?_).mono ?_
    · obtain ⟨hsound, hfits, hclock⟩ := h shared hs
      refine ensures_applyStateUpdate hsound hfits (hclock.imp_right fun hle => ?_)
      rw [length_cons] at hle
      omega
    · rintro _ _ ⟨rfl, hfits⟩
      refine (ih (h.applied u hfits)).mono ?_
      rintro _ _ ⟨rfl, hfits⟩
      exact ⟨by simp [Function.comp_def], hfits⟩

theorem ensures_rebroadcast (us : List Update) : Ensures A (each rebroadcast us) s fun _ s' =>
    s' = { s with
      piggybackQueue := us.foldl requeued s.piggybackQueue
      relayEvents := us.foldl noted s.relayEvents } := by
  induction us generalizing s with
  | nil => simp [each]
  | cons u us ih =>
    rw [each, ensures_bind]
    exact ih

theorem length_requeued_le {queue : List Update} (h : queue.length ≤ maxPiggybackQueueSize)
    (us : List Update) :
    (us.foldl requeued queue).length ≤ maxPiggybackQueueSize := by
  induction us generalizing queue with
  | nil => exact h
  | cons u us ih =>
    refine ih ?_
    unfold requeued
    split_ifs with hlen
    · rw [length_append]
      exact hlen
    · exact h

theorem ensures_processStateUpdates (hs : Safe me s) (us : List Update)
    (h : Prepared A (us.take maxPiggybackUpdates).length s) :
    Ensures A (processStateUpdates us) s fun _ s' =>
      s' = s.received (us.take maxPiggybackUpdates) ∧ ClockFits s' := by
  rw [processStateUpdates, ensures_bind]
  refine (ensures_applyAll _ h).mono ?_
  rintro _ _ ⟨rfl, hfits⟩
  rw [ensures_bind]
  refine (ensures_rebroadcast _).mono ?_
  rintro _ _ rfl
  simp only [ensures_bind, ensures_get, ensures_assert, length_requeued_le hs.queue,
    decide_true, if_true]
  exact ⟨rfl, hfits⟩

theorem length_noted_le {events : List RelayEvent} (h : events.length ≤ maxRelayEvents)
    (us : List Update) :
    (us.foldl noted events).length ≤ maxRelayEvents := by
  have hpush : ∀ (events : List RelayEvent) event, events.length ≤ maxRelayEvents →
      (pushRelayEvent events event).length ≤ maxRelayEvents := by
    intro events event h
    unfold pushRelayEvent
    split_ifs with hlen
    · rw [length_append]
      exact hlen
    · exact h
  induction us generalizing events with
  | nil => exact h
  | cons u us ih =>
    refine ih ?_
    cases u with
    | delta u => exact h
    | trackUpdated t info timestamp actor => exact h
    | relaySubscribe t n => exact hpush events _ h
    | relayUnsubscribe t n => exact hpush events _ h

theorem Safe.received (hs : Safe me s) (us : List Update) : Safe me (s.received us) :=
  ⟨hs.actor, hs.members, hs.self, length_requeued_le hs.queue us, length_noted_le hs.relays us,
    hs.indirect⟩

theorem received_nil (s : SwimProtocol) : s.received [] = s := by
  simp [SwimProtocol.received]

theorem Path.shared {s' : SwimProtocol} (h : Path news s s') : s'.shared = s.shared := by
  induction h with
  | refl => rfl
  | tail _ hstep ih =>
    refine Eq.trans ?_ ih
    cases hstep <;> rfl

def Handles (news : News) (us : List Update) (s s' : SwimProtocol) : Prop :=
  ∃ t, Path news s t ∧ ClockFits (t.received us) ∧ Path news (t.received us) s'

theorem Handles.safe {us : List Update} {s' : SwimProtocol} (h : Handles news us s s')
    (hs : Safe me s) :
    Safe me s' := by
  obtain ⟨t, hpath, -, hpath'⟩ := h
  exact hpath'.safe ((hpath.safe hs).received us)

variable {α β : Type} {us : List Update} {t : SwimProtocol} {a : ActorId} {inc : Nat}
  {source : SocketAddr}

theorem handles_of_moves {m : Routine α} (h : Moves me news m) (hs : Safe me s)
    (hready : Prepared A maxPiggybackUpdates s) :
    Ensures A m s fun _ s' => Handles news [] s s' := by
  refine (h A s hs).mono fun _ s' hpath => ⟨s', hpath, ?_⟩
  rw [received_nil]
  exact ⟨fun shared hshared => hready.clockFits shared (hpath.shared ▸ hshared), .refl⟩

theorem handles_process {post : Unit → Routine α} (hpost : ∀ u, Moves me news (post u))
    (hs : Safe me s) (hready : Prepared A maxPiggybackUpdates s) (hpath : Path news s t) :
    Ensures A (processStateUpdates us >>= post) t fun _ s' =>
      Handles news (us.take maxPiggybackUpdates) s s' := by
  have ht := hpath.safe hs
  have hready' : Prepared A (us.take maxPiggybackUpdates).length t := by
    intro shared hshared
    exact hready.mono (length_take_le ..) shared (hpath.shared ▸ hshared)
  rw [ensures_bind]
  refine (ensures_processStateUpdates ht us hready').mono ?_
  rintro u _ ⟨rfl, hfits⟩
  exact (hpost u A _ (ht.received _)).mono fun _ s' hpath' => ⟨t, hpath, hfits, hpath'⟩

theorem handles_handlePing (hv : news.vouches) (hnews : news.registers a source)
    (ha : a < maxActors) (hs : Safe me s) (hready : Prepared A maxPiggybackUpdates s) :
    Ensures A (handlePing a inc us source) s fun _ s' =>
      Handles news (us.take maxPiggybackUpdates) s s' := by
  have hpost : ∀ u : Unit, Moves me news (do
      let s ← get
      sendWithUpdates (.ack s.localActor s.membership.incarnation) source) :=
    fun _ => .get fun s _ => moves_sendWithUpdates (fun _ => rfl) source
  unfold handlePing
  rw [ensures_bind, ensures_get]
  dsimp only
  split_ifs with hself
  · exact Moves.andThen (moves_welcome hv hnews ha (hs.actor ▸ hself)) hs .refl fun _ _ =>
      handles_process hpost hs hready
  · exact handles_process hpost hs hready .refl

theorem handles_handleAck (hv : news.vouches) (ha : a < maxActors) (hs : Safe me s)
    (hready : Prepared A maxPiggybackUpdates s) :
    Ensures A (handleAck a inc us) s fun _ s' =>
      Handles news (us.take maxPiggybackUpdates) s s' := by
  have hrest : ∀ (_ : Unit) t, Path news s t → Ensures A (do
      forwardAck a inc
      processStateUpdates us
      return (.ok () : Except GossipError Unit)) t fun _ s' =>
        Handles news (us.take maxPiggybackUpdates) s s' :=
    fun _ t hpath => Moves.andThen moves_forwardAck hs hpath fun _ _ =>
      handles_process (fun _ => .pure _) hs hready
  refine Moves.andThen (.modify fun s _ => .idle _ _ _ _ rfl) hs (.refl : Path news s s)
    fun _ t hpath => ?_
  rw [ensures_bind, ensures_get]
  dsimp only
  split_ifs with hself
  · exact Moves.andThen (moves_markAlive hv ha) hs hpath fun _ _ hpath =>
      Moves.andThen moves_touch hs hpath hrest
  · exact hrest () t hpath

theorem handles_handleStateSnapshot {members : List (ActorId × Nat × UInt8)} (hv : news.vouches)
    (hnews : news.registers a source) (hdead : ∀ m ∈ members, m.2.2 = 2 → news.buries m.1)
    (ha : a < maxActors) (hs : Safe me s) (hready : Prepared A maxPiggybackUpdates s) :
    Ensures A (handleStateSnapshot a inc members us source) s fun _ s' =>
      Handles news (us.take maxPiggybackUpdates) s s' := by
  have hmembers : Moves me news (each mergeMember (members.take maxPeers)) :=
    .each fun m hm => moves_mergeMember hv (hdead m (mem_of_mem_take hm))
  have hrest : ∀ (_ : Unit) t, Path news s t → Ensures A (do
      each mergeMember (members.take maxPeers)
      processStateUpdates us
      return (.ok () : Except GossipError Unit)) t fun _ s' =>
        Handles news (us.take maxPiggybackUpdates) s s' :=
    fun _ t hpath => Moves.andThen hmembers hs hpath fun _ _ =>
      handles_process (fun _ => .pure _) hs hready
  unfold handleStateSnapshot
  rw [ensures_bind, ensures_get]
  dsimp only
  split_ifs with hself
  · exact Moves.andThen (moves_welcome hv hnews ha (hs.actor ▸ hself)) hs .refl hrest
  · exact hrest () s .refl

theorem handles_handleMessage {msg : GossipMessage} (hmsg : actorIdsInRange msg = true)
    (source : SocketAddr) (hs : Safe me s) (hready : Prepared A maxPiggybackUpdates s) :
    Ensures A (handleMessage msg source) s fun _ s' =>
      Handles (msg.news source) (msg.updates.take maxPiggybackUpdates) s s' := by
  unfold handleMessage
  rw [if_neg (by simp [hmsg])]
  cases msg with
  | ping a inc us =>
    exact handles_handlePing trivial ⟨rfl, rfl⟩ (of_decide_eq_true hmsg) hs hready
  | ack a inc us => exact handles_handleAck trivial (of_decide_eq_true hmsg) hs hready
  | pingReq a target targetAddr requesterAddr =>
    exact handles_of_moves moves_handlePingReq hs hready
  | suspect a inc => exact handles_of_moves (moves_handleSuspect (of_decide_eq_true hmsg)) hs hready
  | alive a inc =>
    exact handles_of_moves (moves_handleAlive trivial (of_decide_eq_true hmsg)) hs hready
  | dead a =>
    exact handles_of_moves
      (moves_handleDead (mem_singleton.2 rfl) (of_decide_eq_true hmsg)) hs hready
  | forwardedAck a inc =>
    exact handles_of_moves (moves_handleForwardedAck trivial (of_decide_eq_true hmsg)) hs hready
  | stateSnapshot a inc members us =>
    refine handles_handleStateSnapshot trivial ⟨rfl, rfl⟩ (fun m hm hstate => ?_)
      (of_decide_eq_true hmsg) hs hready
    exact mem_map.2 ⟨m, mem_filter.2 ⟨hm, decide_eq_true hstate⟩, rfl⟩

def accepted (data : Bytes) : Option GossipMessage :=
  if data.length > maxMessageSize then none
  else match GossipMessage.decode data with
    | .ok msg => if actorIdsInRange msg then some msg else none
    | .error _ => none

def Takes (data : Bytes) (source : SocketAddr) (s s' : SwimProtocol) : Prop :=
  match accepted data with
  | some msg => Handles (msg.news source) (msg.updates.take maxPiggybackUpdates) s s'
  | none => s' = s

theorem takes_handleDatagram (data : Bytes) (source : SocketAddr) (hs : Safe me s)
    (hready : Prepared A maxPiggybackUpdates s) :
    Ensures A (handleDatagram data source) s fun _ s' => Takes data source s s' := by
  unfold handleDatagram Takes accepted
  split_ifs
  · rfl
  · cases GossipMessage.decode data with
    | error reason => rfl
    | ok msg =>
      by_cases hmsg : actorIdsInRange msg = true
      · simp only [hmsg, if_true]
        exact handles_handleMessage hmsg source hs hready
      · simp [handleMessage, hmsg]

end Received

section Probed

variable {A : Panic → Prop} {me : ActorId} {news : News} {s : SwimProtocol} {now : Nat}

def expire (s : SwimProtocol) (now : Nat) : SwimProtocol :=
  { s with membership := (s.membership.checkTimeouts now).2 }

theorem Safe.expire (hs : Safe me s) : Safe me (s.expire now) :=
  hs.withMembers (hs.members.of_sameIds sameIds_checkTimeouts)
    (sameIds_checkTimeouts.1.trans hs.self)

theorem ensures_expireSuspects (hs : Safe me s) : Ensures A (expireSuspects now) s fun dead s' =>
    dead = (s.membership.checkTimeouts now).1 ∧ Path {} (s.expire now) s' := by
  unfold expireSuspects
  rw [ensures_bind, ensures_get]
  dsimp only
  rw [ensures_bind, ensures_assert, checkTimeouts_asserts, if_pos rfl, ensures_bind,
    ensures_modify, ensures_bind]
  have hall : Moves me {} (each broadcastDead (s.membership.checkTimeouts now).1) :=
    .each fun _ _ => moves_broadcastDead
  exact (hall A (s.expire now) hs.expire).mono fun _ s' hpath => ⟨rfl, hpath⟩

def Probes (result : Except GossipError (List ActorId)) (s s' : SwimProtocol) : Prop :=
  ∃ t, Path {} s t ∧ match result with
    | .error _ => s' = t
    | .ok dead => ∃ now, dead = (t.membership.checkTimeouts now).1 ∧ Path {} (t.expire now) s'

theorem Probes.safe {result : Except GossipError (List ActorId)} {s' : SwimProtocol}
    (h : Probes result s s') (hs : Safe me s) : Safe me s' := by
  obtain ⟨t, hpath, hres⟩ := h
  have ht := hpath.safe hs
  cases result with
  | error e => exact hres ▸ ht
  | ok dead =>
    obtain ⟨now, -, hpath'⟩ := hres
    exact hpath'.safe ht.expire

theorem probes_rest {t : SwimProtocol} {post : List ActorId → Routine Unit} (hs : Safe me s)
    (hpath : Path {} s t) (hpost : ∀ dead, Moves me {} (post dead)) : Ensures A (do
      checkPingTimeouts now
      let markedDead ← expireSuspects now
      post markedDead return (.ok markedDead : Except GossipError (List ActorId))) t fun r s' =>
        Probes r s s' := by
  refine moves_checkPingTimeouts.andThen hs hpath fun _ t₁ hpath₁ => ?_
  have hs₁ := hpath₁.safe hs
  rw [ensures_bind]
  refine (ensures_expireSuspects hs₁).mono ?_
  rintro dead t₂ ⟨rfl, hpath₂⟩
  exact (hpost _).andThen hs₁.expire hpath₂ fun _ t₃ hpath₃ =>
    ⟨t₁, hpath₁, now, rfl, hpath₃⟩

theorem probes_finishProbe {t : SwimProtocol} (hs : Safe me s) (hpath : Path {} s t) :
    Ensures A (finishProbe now) t fun r s' => Probes r s s' := by
  unfold finishProbe
  rw [ensures_bind, ensures_modify]
  exact probes_rest hs (hpath.tail (.idle _ _ _ _ rfl)) fun _ => moves_runAntiEntropy

theorem probes_runProbeCycle (hs : Safe me s) :
    Ensures A runProbeCycle s fun r s' => Probes r s s' := by
  unfold runProbeCycle
  refine moves_currentTimeNs.andThen hs (.refl : Path {} s s) fun now t hpath => ?_
  rw [ensures_bind, ensures_get]
  split_ifs
  · exact probes_rest hs hpath fun _ => .pure ()
  · refine moves_getrandom.andThen hs hpath fun draws t₁ hpath₁ => ?_
    cases hpeer : t.membership.getRandomAlivePeer (draws.headD 0) with
    | none => exact probes_finishProbe hs hpath₁
    | some peer =>
      refine (moves_sendPing (alive_of_getRandomAlivePeer hpeer)).andThen hs hpath₁
        fun r t₂ hpath₂ => ?_
      cases r with
      | error e => exact ⟨t₂, hpath₂, rfl⟩
      | ok _ => exact probes_finishProbe hs hpath₂

theorem moves_addSeedPeer {a : ActorId} {addr : SocketAddr} (hnews : news.registers a addr)
    (ha : a < maxActors) (hself : a ≠ me) : Moves me news (addSeedPeer a addr) := by
  refine .bind moves_currentTimeNs fun now => .bind (moves_addPeer hnews ha hself now) fun r => ?_
  cases r with
  | error e => exact .pure _
  | ok _ =>
    refine .get fun s _ => .bind (moves_sendWithUpdates (fun _ => rfl) _) fun r => ?_
    cases r with
    | error e => exact .pure _
    | ok _ =>
      exact .bind moves_currentTimeNs fun _ => .bind (.modify fun s _ => .idle _ _ _ _ rfl)
        fun _ => .pure _

end Probed
end SwimProtocol
end NexusSfu.Swim
