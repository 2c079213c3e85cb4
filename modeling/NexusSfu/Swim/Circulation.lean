import NexusSfu.Swim.Cluster
import NexusSfu.Swim.Codec

namespace NexusSfu.Swim

open Base State Checked Option
open Dataplane (SocketAddr)

def Operation.load : Operation → Nat
  | createRoomAuto _ _ | removeRoom _ | removeTrack _ | handleNodeFailure _ => 0
  | addParticipant _ _ | removeParticipant _ _ | addTrack _ _ | updateTrack _ _ |
    addSubscription _ _
  | removeSubscription _ _ => 1

theorem Operation.announces_le_load (s : DistributedState) (op : Operation) :
    (op.announces s).length ≤ op.load := by
  cases op with
  | createRoomAuto | removeRoom | removeTrack | handleNodeFailure => exact le_rfl
  | addParticipant | removeParticipant | addTrack | updateTrack | addSubscription |
    removeSubscription =>
    exact onOk_length_le

namespace SwimProtocol

def carried (data : Bytes) : Nat :=
  (accepted data).elim 0 fun msg => (msg.updates.take maxPiggybackUpdates).length

/-- How many updates an event gives the node to pass on: a received one is queued, and may be
announced once more by the operation it is applied as. -/
def load : Event → Nat
  | .datagram _ data _ => 2 * carried data
  | .operation op => op.load
  | .broadcast _ => 1
  | .probe _ | .seed _ _ _ | .forward | .drainRelayEvents => 0

def put (s : SwimProtocol) : Nat := (s.outbox.map fun m => m.msg.updates.length).sum

def pending (s : SwimProtocol) : Nat :=
  s.piggybackQueue.length + s.shared.elim 0 (·.channel.length)

section Load

variable {me : ActorId} {news : News} {s s' : SwimProtocol} {e : Event} {es : List Event}
  {r : List ActorId}

theorem Step.put_pending (hstep : Step news s s') : s'.put + s'.pending = s.put + s.pending := by
  cases hstep with
  | idle | register | mark | touch | bump | indirect => rfl
  | send msg dest k h =>
    simp only [put, pending, List.map_append, List.sum_append, List.map_cons, List.map_nil,
      List.sum_cons, List.sum_nil, h, List.length_take, List.length_drop]
    omega

theorem Path.put_pending (hpath : Path news s s') : s'.put + s'.pending = s.put + s.pending := by
  induction hpath with
  | refl => rfl
  | tail _ hstep ih => exact hstep.put_pending.trans ih

theorem length_requeued_le_add (queue : List Update) (us : List Update) :
    (us.foldl requeued queue).length ≤ queue.length + us.length := by
  induction us generalizing queue with
  | nil => exact le_rfl
  | cons u us ih =>
    have hone : (requeued queue u).length ≤ queue.length + 1 := by
      unfold requeued
      split_ifs
      · rw [List.length_append, List.length_singleton]
      · exact Nat.le_succ _
    have hrest := ih (requeued queue u)
    rw [List.foldl_cons, List.length_cons]
    omega

theorem channel_foldl_applied_le (shared : Shared) (us : List Update) :
    (us.foldl Shared.applied shared).channel.length ≤ shared.channel.length + us.length := by
  induction us generalizing shared with
  | nil => exact le_rfl
  | cons u us ih =>
    have hone : (shared.applied u).channel.length ≤ shared.channel.length + 1 :=
      channel_applied_le
    have hrest := ih (shared.applied u)
    rw [List.foldl_cons, List.length_cons]
    omega

theorem pending_received_le (us : List Update) :
    (s.received us).pending ≤ s.pending + 2 * us.length := by
  have hqueue := length_requeued_le_add s.piggybackQueue us
  cases hs : s.shared with
  | none =>
    simp only [pending, received, hs, map_none, elim_none]
    omega
  | some shared =>
    have hchannel := channel_foldl_applied_le shared us
    simp only [pending, received, hs, map_some, elim_some]
    omega

theorem length_foldl_enqueued_le (queue : List Update) (us : List Update) :
    (us.foldl enqueued queue).length ≤ queue.length + us.length := by
  induction us generalizing queue with
  | nil => exact le_rfl
  | cons u us ih =>
    have hone : (enqueued queue u).length ≤ queue.length + 1 := by
      refine ((length_newest_le ..).trans (min_le_right ..)).trans ?_
      rw [List.length_append, List.length_singleton]
    have hrest := ih (enqueued queue u)
    rw [List.foldl_cons, List.length_cons]
    omega

theorem pending_forwarded_le : s.forwarded.pending ≤ s.pending := by
  unfold forwarded
  cases hs : s.shared with
  | none => exact le_rfl
  | some shared =>
    have hqueue :=
      length_foldl_enqueued_le s.piggybackQueue (shared.channel.take maxUpdatesPerIteration)
    rw [List.length_take] at hqueue
    simp only [pending, hs, elim_some, List.length_drop]
    omega

theorem Effect.put_pending_le (h : Effect s e r s') :
    s'.put + s'.pending ≤ s.put + s.pending + load e := by
  cases h with
  | datagram tape data source s' htakes =>
    unfold Takes at htakes
    cases hmsg : accepted data with
    | none =>
      rw [hmsg] at htakes
      cases htakes
      exact Nat.le_add_right ..
    | some msg =>
      rw [hmsg] at htakes
      obtain ⟨t, hpath, -, hpath'⟩ := htakes
      have hrecv := pending_received_le (s := t) (msg.updates.take maxPiggybackUpdates)
      have hload : load (.datagram tape data source) =
          2 * (msg.updates.take maxPiggybackUpdates).length := by
        rw [load, carried, hmsg, elim_some]
      have hbefore : t.put + t.pending = s.put + s.pending := hpath.put_pending
      have hput : (t.received (msg.updates.take maxPiggybackUpdates)).put = t.put := rfl
      have hafter := hpath'.put_pending
      omega
  | probe tape result s' hprobes =>
    obtain ⟨t, hpath, hres⟩ := hprobes
    have hbefore : t.put + t.pending = s.put + s.pending := hpath.put_pending
    cases result with
    | error e =>
      cases hres
      exact hbefore.le
    | ok dead =>
      obtain ⟨now, -, hpath'⟩ := hres
      have hafter : s'.put + s'.pending = t.put + t.pending := hpath'.put_pending
      exact (hafter.trans hbefore).le
  | seed tape a addr s' hpath => exact hpath.put_pending.le
  | operation op hfits =>
    cases hs : s.shared with
    | none => simp [put, pending, hs]
    | some shared =>
      have hannounce := op.announces_le_load shared.state
      simp only [put, pending, hs, map_some, elim_some, Shared.performed, List.length_append, load]
      omega
  | broadcast update =>
    have hone := length_foldl_enqueued_le s.piggybackQueue [update]
    simp only [put, pending, load, List.foldl_cons, List.foldl_nil, List.length_singleton]
      at hone ⊢
    omega
  | forward =>
    have hput : s.forwarded.put = s.put := by
      unfold forwarded
      split <;> rfl
    have hpending := pending_forwarded_le (s := s)
    rw [hput]
    exact Nat.add_le_add_left hpending _
  | drainRelayEvents => exact le_rfl

theorem Path.outbox (hpath : Path news s s') : ∃ sent, s'.outbox = s.outbox ++ sent := by
  induction hpath with
  | refl => exact ⟨[], (List.append_nil _).symm⟩
  | tail _ hstep ih =>
    obtain ⟨sent, hsent⟩ := ih
    cases hstep with
    | idle | register | mark | touch | bump | indirect => exact ⟨sent, hsent⟩
    | send msg dest k h =>
      exact ⟨sent ++ [_], by rw [← List.append_assoc, ← hsent]⟩

theorem Effect.outbox (h : Effect s e r s') : ∃ sent, s'.outbox = s.outbox ++ sent := by
  have hkept : ∃ sent, s.outbox = s.outbox ++ sent := ⟨[], (List.append_nil _).symm⟩
  cases h with
  | datagram tape data source s' htakes =>
    unfold Takes at htakes
    cases hmsg : accepted data with
    | none =>
      rw [hmsg] at htakes
      cases htakes
      exact hkept
    | some msg =>
      rw [hmsg] at htakes
      obtain ⟨t, hpath, -, hpath'⟩ := htakes
      obtain ⟨sent, hsent⟩ := hpath.outbox
      obtain ⟨sent', hsent'⟩ := hpath'.outbox
      exact ⟨sent ++ sent', by rw [hsent', ← List.append_assoc, ← hsent]; rfl⟩
  | probe tape result s' hprobes =>
    obtain ⟨t, hpath, hres⟩ := hprobes
    obtain ⟨sent, hsent⟩ := hpath.outbox
    cases result with
    | error e =>
      cases hres
      exact ⟨sent, hsent⟩
    | ok dead =>
      obtain ⟨now, -, hpath'⟩ := hres
      obtain ⟨sent', hsent'⟩ := hpath'.outbox
      exact ⟨sent ++ sent', by rw [hsent', ← List.append_assoc, ← hsent]; rfl⟩
  | seed tape a addr s' hpath => exact hpath.outbox
  | operation | broadcast | drainRelayEvents => exact hkept
  | forward =>
    unfold forwarded
    split <;> exact hkept

theorem run_outbox (hs : Live me s) (hrun : run step s es = some s') :
    ∃ sent, s'.outbox = s.outbox ++ sent := by
  induction es generalizing s with
  | nil =>
    cases hrun
    exact ⟨[], (List.append_nil _).symm⟩
  | cons e es ih =>
    obtain ⟨t, hstep, hrun⟩ := bind_eq_some_iff.1 hrun
    have heffect := step_effect hs hstep
    obtain ⟨sent, hsent⟩ := heffect.outbox
    obtain ⟨sent', hsent'⟩ := ih (heffect.live hs) hrun
    exact ⟨sent ++ sent', by rw [hsent', hsent, List.append_assoc]⟩

theorem run_put_pending_le (hs : Live me s) (hrun : run step s es = some s') :
    s'.put + s'.pending ≤ s.put + s.pending + (es.map load).sum := by
  induction es generalizing s with
  | nil =>
    cases hrun
    exact le_rfl
  | cons e es ih =>
    obtain ⟨t, hstep, hrun⟩ := bind_eq_some_iff.1 hrun
    have heffect := step_effect hs hstep
    have hone := heffect.put_pending_le
    have hrest := ih (heffect.live hs) hrun
    rw [List.map_cons, List.sum_cons]
    omega

theorem carried_layout {msg : GossipMessage} (h : msg.updates = []) : carried msg.layout = 0 := by
  unfold carried accepted
  split_ifs
  · rfl
  · cases hmsg : GossipMessage.decode msg.layout with
    | error e => rfl
    | ok msg' =>
      dsimp only
      split_ifs
      · simp [GossipMessage.updates_decode_layout h hmsg]
      · rfl

/-- Nothing waits to be put into a message, and no message that can still arrive carries
anything. -/
def Idle (s : SwimProtocol) : Prop :=
  s.pending = 0 ∧ ∀ m ∈ s.outbox, carried m.msg.layout = 0

theorem Idle.run (h : Idle s) (hs : Live me s) (hrun : Base.run step s es = some s')
    (hload : (es.map load).sum = 0) : Idle s' ∧ s'.put = s.put := by
  have hle := run_put_pending_le hs hrun
  rw [h.1, hload] at hle
  obtain ⟨sent, hsent⟩ := run_outbox hs hrun
  have hput : s'.put = s.put + (sent.map fun m => m.msg.updates.length).sum := by
    rw [put, hsent, List.map_append, List.sum_append, put]
  refine ⟨⟨by omega, ?_⟩, by omega⟩
  rw [hsent]
  intro m hm
  rcases List.mem_append.1 hm with hm | hm
  · exact h.2 m hm
  · have hsum : (sent.map fun m => m.msg.updates.length).sum = 0 := by omega
    have hzero := List.sum_eq_zero_iff_forall_eq_nat.1 hsum _ (List.mem_map_of_mem hm)
    exact carried_layout (List.eq_nil_of_length_eq_zero hzero)

end Load
end SwimProtocol

def Action.isLocal (a : Action) : Bool :=
  match a.turn with
  | .operate _ | .broadcast _ => true
  | .iterate _ _ | .seed _ _ _ => false

def Action.delivers (a : Action) : Nat := a.turn.incoming.elim 0 fun d => SwimProtocol.carried d.1

namespace Cluster

open SwimProtocol

variable {cl₀ cl cl' : Cluster} {a : Action} {as as' : List Action}

def put (cl : Cluster) : Nat := (cl.map SwimProtocol.put).sum

def pending (cl : Cluster) : Nat := (cl.map SwimProtocol.pending).sum

theorem load_made {turn : Turn} {i : Nat} (h : Action.isLocal ⟨i, turn⟩ = false)
    {es : List Event} (hmade : turn.Made es) :
    (es.map load).sum = 2 * Action.delivers ⟨i, turn⟩ := by
  cases hmade with
  | iterate tape tape' incoming dead =>
    have hdead : ((dead.map fun a => Event.operation (.handleNodeFailure a)).map load).sum = 0 := by
      induction dead with
      | nil => rfl
      | cons a dead ih => simpa [load, Operation.load] using ih
    rw [List.map_append, List.map_append, List.sum_append, List.sum_append, hdead]
    cases incoming with
    | none => rfl
    | some d => simp [load, Action.delivers, Turn.incoming]
  | operate | broadcast => cases h
  | seed => rfl

theorem sum_map_set {α : Type} (f : α → Nat) {l : List α} {i : Nat} {x : α}
    (h : l[i]? = some x) (y : α) :
    ((l.set i y).map f).sum + f x = (l.map f).sum + f y := by
  induction l generalizing i with
  | nil => cases h
  | cons z l ih =>
    cases i with
    | zero =>
      cases h
      simp only [List.set_cons_zero, List.map_cons, List.sum_cons]
      omega
    | succ i =>
      have hrest := ih (i := i) h
      simp only [List.set_cons_succ, List.map_cons, List.sum_cons]
      omega

theorem act_delivers (h : act cl a = some cl') {d : Bytes × SocketAddr}
    (hd : a.turn.incoming = some d) : ∃ s ∈ cl, ∃ m ∈ s.outbox, m.msg.layout = d.1 := by
  obtain ⟨s, hs, h⟩ := bind_eq_some_iff.1 h
  split_ifs at h with hsent
  rw [hd, Option.all_some, sentTo, List.any_eq_true] at hsent
  obtain ⟨sender, hsender, hsent⟩ := hsent
  simp only [Bool.and_eq_true, List.any_eq_true, decide_eq_true_eq] at hsent
  obtain ⟨-, m, hm, -, hlayout⟩ := hsent
  exact ⟨sender, hsender, m, hm, hlayout⟩

theorem act_idle (hl : AllLive cl) (h : ∀ s ∈ cl, Idle s) (hlocal : a.isLocal = false)
    (hact : act cl a = some cl') : (∀ s ∈ cl', Idle s) ∧ cl'.put = cl.put := by
  have hnone : a.delivers = 0 := by
    unfold Action.delivers
    cases hin : a.turn.incoming with
    | none => rfl
    | some d =>
      obtain ⟨s, hs, m, hm, hlayout⟩ := act_delivers hact hin
      rw [elim_some, ← hlayout]
      exact (h s hs).2 m hm
  obtain ⟨s, s', hs, hturn, rfl⟩ := act_eq_some hact
  obtain ⟨es, hmade, hrun⟩ := takeTurn_run hturn
  obtain ⟨me, hlive⟩ := hl s (List.mem_of_getElem? hs)
  have hload : (es.map load).sum = 0 := by rw [load_made hlocal hmade, hnone]
  obtain ⟨hidle, hput⟩ := (h s (List.mem_of_getElem? hs)).run hlive hrun hload
  refine ⟨fun t ht => ?_, ?_⟩
  · rcases List.mem_or_eq_of_mem_set ht with ht | rfl
    · exact h t ht
    · exact hidle
  · have hsum := sum_map_set SwimProtocol.put hs s'
    unfold put
    omega

theorem run_idle (hl : AllLive cl) (h : ∀ s ∈ cl, Idle s)
    (hlocal : ∀ a ∈ as, a.isLocal = false) (hrun : run act cl as = some cl') :
    cl'.put = cl.put := by
  induction as generalizing cl with
  | nil =>
    cases hrun
    rfl
  | cons a as ih =>
    obtain ⟨cl₁, hact, hrun⟩ := bind_eq_some_iff.1 hrun
    obtain ⟨ha, has⟩ := List.forall_mem_cons.1 hlocal
    obtain ⟨hidle, hput⟩ := act_idle hl h ha hact
    exact (ih (act_allLive hl hact) hidle has hrun).trans hput

/-- Of the datagrams sent so far only those `inFlight` may still arrive. -/
def losing (cl : Cluster) (inFlight : Sent → Bool) : Cluster :=
  cl.map fun s => { s with outbox := s.outbox.filter inFlight }

structure Settled (cl : Cluster) (inFlight : Sent → Bool) : Prop where
  waiting : cl.pending = 0
  flying : ∀ s ∈ cl, ∀ m ∈ s.outbox, inFlight m = true → carried m.msg.layout = 0

/-- Once the nodes stop to change anything themselves, no update waits in a queue or a channel and
none is in flight, nothing but what was sent before is ever put into a message. -/
theorem dissemination_stops (h₀ : ∀ s ∈ cl₀, ∃ me, Starts me s)
    (hrun : run act cl₀ as = some cl) {inFlight : Sent → Bool} (hset : Settled cl inFlight)
    (hlocal : ∀ a ∈ as', a.isLocal = false)
    (hrun' : run act (cl.losing inFlight) as' = some cl') :
    cl'.put = (cl.losing inFlight).put := by
  have hl := run_allLive (allLive_of_starts h₀) hrun
  refine run_idle (fun s hs => ?_) (fun s hs => ?_) hlocal hrun'
  · obtain ⟨t, ht, rfl⟩ := List.mem_map.1 hs
    obtain ⟨me, hlive⟩ := hl t ht
    exact ⟨me, ⟨hlive.actor, hlive.members, hlive.self, hlive.queue, hlive.relays,
      hlive.indirect⟩, hlive.sound, hlive.clock⟩
  · obtain ⟨t, ht, rfl⟩ := List.mem_map.1 hs
    have hpending : t.pending = 0 :=
      List.sum_eq_zero_iff_forall_eq_nat.1 hset.waiting _ (List.mem_map_of_mem ht)
    refine ⟨hpending, fun m hm => ?_⟩
    obtain ⟨hm, hfly⟩ := List.mem_filter.1 hm
    exact hset.flying t ht m hm hfly

def greet : List Action :=
  [⟨0, .seed {} 2 hostB⟩,
    ⟨1, .iterate {} (some (GossipMessage.layout (.ping 1 1 []), hostA))⟩,
    ⟨0, .iterate {} (some (GossipMessage.layout (.ack 2 1 []), hostB))⟩]

def request : Update := .relaySubscribe 1 1

def requested : List Action := greet ++ [⟨0, .broadcast request⟩]

def pinged : List Action := requested ++ [⟨0, .iterate { times := [20000000000] } none⟩]

def pingedNodes : Cluster := (run act [stateNode, nodeB] pinged).getD []

/-- The ping that carries the request is lost, and the next one carries nothing. -/
theorem lost_request_stops : put pingedNodes = 1 ∧ ∃ cl',
    run act (pingedNodes.losing fun _ => false) [⟨0, .iterate { times := [40000000000] } none⟩]
      = some cl' ∧ (cl'.map fun s => s.outbox.length).sum ≠ 0 ∧
    put cl' = put (pingedNodes.losing fun _ => false) := by
  have hrun : run act [stateNode, nodeB] pinged = some pingedNodes :=
    eq_some_getD [] (by decide +kernel)
  have hrun' := eq_some_getD [] (by decide +kernel :
    (run act (pingedNodes.losing fun _ => false)
      [⟨0, .iterate { times := [40000000000] } none⟩]).isSome = true)
  exact ⟨by decide +kernel, _, hrun', by decide +kernel, dissemination_stops starts_pair hrun
    ⟨by decide +kernel, fun _ _ _ _ h => absurd h Bool.false_ne_true⟩
    (by simp [Action.isLocal]) hrun'⟩

end Cluster

namespace MembershipList

theorem checkTimeouts_of_alive {m : MembershipList} (h : ∀ p ∈ m.getAllPeers, p.state = .alive)
    (now : Nat) :
    m.checkTimeouts now = ([], m) := by
  have hexp : ∀ p ∈ m.getAllPeers, expired now p = false := fun p hp => by
    simp [expired, h p hp]
  have hnone : m.getAllPeers.filter (expired now) = [] := by simpa using hexp
  have hmap : m.peers.map (Option.map fun p =>
      if expired now p then { p with state := .dead, lastSeenNs := now } else p) = m.peers := by
    refine (List.map_congr_left fun o ho => ?_).trans (List.map_id _)
    cases o with
    | none => rfl
    | some p => simp [hexp p (List.mem_filterMap.2 ⟨some p, ho, rfl⟩)]
  rw [checkTimeouts, hnone, hmap, List.map_nil]

end MembershipList

namespace SwimProtocol

section Rounds

variable {A : Panic → Prop} {s : SwimProtocol} {now : Nat}

structure Calm (s : SwimProtocol) : Prop where
  config : s.config = {}
  alive : ∀ p ∈ s.membership.getAllPeers, p.state = .alive
  indirect : s.pendingIndirect = ∅

theorem Calm.ensures_checkPingTimeouts (h : Calm s)
    (hpings : ∀ e ∈ s.pendingPings.entries, now - e.2.sentAtNs ≤ 1000000000) :
    Ensures A (checkPingTimeouts now) s fun _ s' => s' = s := by
  have hindirect : ∀ f, s.pendingIndirect.retain f = s.pendingIndirect := fun f => by
    rw [h.indirect]
    rfl
  have hnone : (s.pendingPings.entries.filter fun e =>
      now - e.2.sentAtNs > msToNs s.config.pingTimeoutMs) = [] := by
    have hms : msToNs ({} : GossipConfig).pingTimeoutMs = 1000000000 := by decide
    rw [h.config, hms]
    simpa using hpings
  unfold checkPingTimeouts
  simp only [ensures_bind, ensures_get, ensures_modify, hindirect, hnone, List.take_nil,
    each, ensures_pure]

theorem Calm.ensures_expireSuspects (h : Calm s) :
    Ensures A (expireSuspects now) s fun dead s' => dead = [] ∧ s' = s := by
  have hasserts := s.membership.checkTimeouts_asserts now
  rw [MembershipList.checkTimeouts_of_alive h.alive] at hasserts
  unfold expireSuspects
  simp only [ensures_bind, ensures_get, MembershipList.checkTimeouts_of_alive h.alive,
    ensures_assert, hasserts, if_true, ensures_modify, each, ensures_pure, and_self]

theorem ensures_currentTimeNs (htape : s.tape = {}) :
    Ensures A currentTimeNs s fun now s' => now = 0 ∧ s' = s := by
  cases s
  cases htape
  exact ⟨rfl, rfl⟩

theorem ensures_getrandom (htape : s.tape = {}) :
    Ensures A getrandom s fun draws s' => draws = [] ∧ s' = s := by
  cases s
  cases htape
  exact ⟨rfl, rfl⟩

theorem Calm.ensures_runProbeCycle (h : Calm s) (htape : s.tape = {}) :
    Ensures A runProbeCycle s fun r s' => r = .ok [] ∧ s' = s := by
  unfold runProbeCycle
  refine (ensures_currentTimeNs htape).next ?_
  rw [ensures_bind, ensures_get, if_pos (by rw [h.config, Nat.zero_sub]; decide)]
  refine (h.ensures_checkPingTimeouts fun e _ => by simp).stay fun _ => ?_
  refine h.ensures_expireSuspects.next ?_
  exact ⟨rfl, rfl⟩

def pair (me : ActorId) (peer : PeerInfo) : MembershipList :=
  ⟨me, some peer :: List.replicate 255 none, 1, 1⟩

structure Paired (me : ActorId) (peer : PeerInfo) (s : SwimProtocol) : Prop extends Calm s where
  actor : s.localActor = me
  peers : s.membership = pair me peer
  interval : s.antiEntropyIntervalMs = defaultAntiEntropyIntervalMs

variable {me : ActorId} {peer : PeerInfo}

theorem getAllPeers_pair : (pair me peer).getAllPeers = [peer] := by
  have hnone : ∀ n, items (List.replicate n (none : Option PeerInfo)) = [] := by
    intro n
    induction n with
    | zero => rfl
    | succ n ih => rw [List.replicate_succ, items_none, ih]
  rw [MembershipList.getAllPeers, pair, items_some, hnone]

theorem findPeer_pair : (pair me peer).findPeer peer.actorId = some peer := by
  rw [MembershipList.findPeer, getAllPeers_pair]
  simp

theorem put_pair : (pair me peer).put peer = pair me peer := by
  rw [MembershipList.put, pair, replaceFirst, if_pos (by simp)]

theorem Paired.getRandomAlivePeer (h : Paired me peer s) :
    s.membership.getRandomAlivePeer 0 = some peer := by
  have hpeer := h.alive peer
  rw [h.peers, getAllPeers_pair] at hpeer
  rw [MembershipList.getRandomAlivePeer, MembershipList.getAlivePeers, h.peers, getAllPeers_pair,
    List.filter_cons_of_pos (by simp [hpeer])]
  rfl

theorem Paired.of_same (h : Paired me peer s) {t : SwimProtocol} (hconfig : t.config = s.config)
    (hmembers : t.membership = s.membership) (hindirect : t.pendingIndirect = s.pendingIndirect)
    (hactor : t.localActor = s.localActor)
    (hinterval : t.antiEntropyIntervalMs = s.antiEntropyIntervalMs) :
    Paired me peer t :=
  ⟨⟨hconfig.trans h.config, by rw [hmembers]; exact h.alive, hindirect.trans h.indirect⟩,
    hactor.trans h.actor, hmembers.trans h.peers, hinterval.trans h.interval⟩

theorem ensures_sent (msg : GossipMessage) (dest : SocketAddr) (hsends : s.tape.sends = []) :
    Ensures A (send msg dest) s fun r s' =>
      r = .ok () ∧ s' = { s with outbox := s.outbox ++ [⟨msg, dest, true⟩] } := by
  have htape : { s.tape with sends := [] } = s.tape := by rw [← hsends]
  simp only [ensures_send, hsends, List.headD_nil, List.tail_nil, htape]
  exact ⟨rfl, rfl⟩

theorem ensures_sendWithUpdates (msg : List Update → GossipMessage) (dest : SocketAddr)
    (hsends : s.tape.sends = []) (hconfig : s.config = {})
    (hqueue : s.piggybackQueue.length ≤ 16) :
    Ensures A (sendWithUpdates msg dest) s fun r s' => r = .ok () ∧ s' = { s with
      piggybackQueue := [], outbox := s.outbox ++ [⟨msg s.piggybackQueue, dest, true⟩] } := by
  have hcount : min s.piggybackQueue.length s.config.maxPiggybackUpdates =
      s.piggybackQueue.length := by
    rw [hconfig]
    exact min_eq_left hqueue
  simp only [sendWithUpdates, getPiggybackUpdates, ensures_bind, ensures_get, ensures_set,
    ensures_pure, hcount, List.take_length, List.drop_length]
  exact ensures_sent (s := { s with piggybackQueue := [] }) _ dest hsends

theorem Paired.ensures_sendPing (h : Paired me peer s) (htape : s.tape = { times := [now] })
    (hpings : s.pendingPings = ∅) (hqueue : s.piggybackQueue.length ≤ 16) :
    Ensures A (sendPing peer) s fun r s' => r = .ok () ∧ s' = { s with
      tape := {}, piggybackQueue := []
      pendingPings := AList.insert peer.actorId ⟨peer.actorId, peer.addr, now, false⟩ ∅
      outbox := s.outbox ++
        [⟨.ping s.localActor s.membership.incarnation s.piggybackQueue,
          peer.addr, true⟩] } := by
  have hpeer : peer.state = .alive :=
    h.alive peer (by rw [h.peers, getAllPeers_pair]; exact List.mem_singleton_self _)
  simp only [sendPing, ensures_bind, ensures_assert, hpeer, decide_true, if_true, ensures_get]
  refine (ensures_sendWithUpdates _ _ (by rw [htape]) h.config hqueue).mono ?_
  rintro _ _ ⟨rfl, rfl⟩
  simp only [ensures_bind, ensures_get, hpings, AList.lookup_empty, isNone_none, if_true,
    currentTimeNs, htape, ensures_modify, ensures_pure, List.headD_cons, List.tail_cons]
  trivial

theorem Paired.ensures_runAntiEntropy (h : Paired me peer s) (htape : s.tape = {})
    (hqueue : s.piggybackQueue.length ≤ 16) (hanti : s.lastAntiEntropyNs + 10000000000 ≤ now) :
    Ensures A (runAntiEntropy now) s fun _ s' => ∃ members, s' = { s with
      lastAntiEntropyNs := now, piggybackQueue := []
      outbox := s.outbox ++
        [⟨.stateSnapshot s.localActor s.membership.incarnation members s.piggybackQueue,
          peer.addr, true⟩] } := by
  have hdue : ¬ now - s.lastAntiEntropyNs < msToNs s.antiEntropyIntervalMs := by
    have hms : msToNs defaultAntiEntropyIntervalMs = 10000000000 := by decide
    rw [h.interval, hms]
    omega
  unfold runAntiEntropy
  rw [ensures_bind, ensures_get, if_neg hdue, ensures_bind, ensures_modify]
  refine (ensures_getrandom (s := { s with lastAntiEntropyNs := now }) htape).next ?_
  rw [List.headD_nil, h.getRandomAlivePeer]
  dsimp only
  rw [ensures_bind]
  refine (ensures_sendWithUpdates (s := { s with lastAntiEntropyNs := now }) _ _
    (by rw [htape]) h.config hqueue).mono ?_
  rintro _ _ ⟨-, rfl⟩
  exact ⟨_, rfl⟩

theorem Paired.ensures_finishProbe (h : Paired me peer s) (htape : s.tape = {})
    (hpings : ∀ e ∈ s.pendingPings.entries, now - e.2.sentAtNs ≤ 1000000000)
    (hqueue : s.piggybackQueue.length ≤ 16) (hanti : s.lastAntiEntropyNs + 10000000000 ≤ now) :
    Ensures A (finishProbe now) s fun r s' => r = .ok [] ∧ ∃ members, s' = { s with
      lastProbeNs := now, lastAntiEntropyNs := now, piggybackQueue := []
      outbox := s.outbox ++
        [⟨.stateSnapshot s.localActor s.membership.incarnation members s.piggybackQueue,
          peer.addr, true⟩] } := by
  have hprobed : Paired me peer { s with lastProbeNs := now } := h.of_same rfl rfl rfl rfl rfl
  unfold finishProbe
  rw [ensures_bind, ensures_modify]
  refine (hprobed.ensures_checkPingTimeouts hpings).stay fun _ => ?_
  refine hprobed.ensures_expireSuspects.next ?_
  rw [ensures_bind]
  refine (hprobed.ensures_runAntiEntropy htape hqueue hanti).mono ?_
  rintro _ _ ⟨members, rfl⟩
  exact ⟨rfl, members, rfl⟩

def probedAt (s : SwimProtocol) (peer : PeerInfo) (now : Nat)
    (members : List (ActorId × Nat × UInt8)) : SwimProtocol :=
  { s with
    tape := {}, lastProbeNs := now, lastAntiEntropyNs := now, piggybackQueue := []
    pendingPings := AList.insert peer.actorId ⟨peer.actorId, peer.addr, now, false⟩ ∅
    outbox := s.outbox ++
      [⟨.ping s.localActor s.membership.incarnation s.piggybackQueue, peer.addr, true⟩]
      ++ [⟨.stateSnapshot s.localActor s.membership.incarnation members [], peer.addr, true⟩] }

theorem Paired.ensures_runProbeCycle_due (h : Paired me peer s)
    (htape : s.tape = { times := [now, now] }) (hpings : s.pendingPings = ∅)
    (hqueue : s.piggybackQueue.length ≤ 16) (hprobe : s.lastProbeNs + 10000000000 ≤ now)
    (hanti : s.lastAntiEntropyNs + 10000000000 ≤ now) :
    Ensures A runProbeCycle s fun r s' => r = .ok [] ∧
      ∃ members, s' = s.probedAt peer now members := by
  have hdue : ¬ now - s.lastProbeNs < msToNs s.config.probeIntervalMs := by
    have hms : msToNs ({} : GossipConfig).probeIntervalMs = 1000000000 := by decide
    rw [h.config, hms]
    omega
  have htime : Ensures A currentTimeNs s fun t s' => t = now ∧
      s' = { s with tape := { times := [now] } } := by
    simp only [currentTimeNs, ensures_bind, ensures_get, ensures_modify, ensures_pure, htape]
    exact ⟨rfl, rfl⟩
  have hdraw : Ensures A getrandom { s with tape := { times := [now] } } fun draws t =>
      draws = [] ∧ t = { s with tape := { times := [now] } } := ⟨rfl, rfl⟩
  unfold runProbeCycle
  refine htime.next ?_
  rw [ensures_bind, ensures_get, if_neg hdue]
  refine hdraw.next ?_
  rw [List.headD_nil, h.getRandomAlivePeer]
  dsimp only
  refine Ensures.next (Paired.ensures_sendPing (h.of_same rfl rfl rfl rfl rfl) rfl hpings hqueue) ?_
  refine Ensures.mono
    (Paired.ensures_finishProbe (h.of_same rfl rfl rfl rfl rfl) rfl ?_ (Nat.zero_le _) hanti) ?_
  · intro e he
    cases List.mem_singleton.1 he
    simp
  · rintro _ _ ⟨rfl, members, rfl⟩
    exact ⟨rfl, members, rfl⟩

structure Fresh (me : ActorId) (peer : PeerInfo) : Prop where
  range : peer.actorId < maxActors
  other : peer.actorId ≠ me
  state : peer.state = .alive
  seen : peer.lastSeenNs = 0

theorem Fresh.eta (h : Fresh me peer) : { peer with state := .alive, lastSeenNs := 0 } = peer := by
  rw [← h.state, ← h.seen]

theorem Fresh.transition (h : Fresh me peer) :
    (pair me peer).transition 0 peer.actorId .alive peer.incarnation = (.ok (), pair me peer) := by
  have hvalid : validateTransition peer.state .alive peer.incarnation peer.incarnation = true := by
    simp [validateTransition, h.state]
  rw [MembershipList.transition, findPeer_pair]
  dsimp only
  rw [if_pos hvalid, h.eta, put_pair]

theorem Fresh.touch (h : Fresh me peer) : (pair me peer).touch 0 peer.actorId = pair me peer := by
  rw [MembershipList.touch, findPeer_pair]
  dsimp only
  rw [← h.seen]
  exact put_pair

theorem insertPeer_pair :
    (pair me peer).insertPeer 0 peer.actorId peer.addr = (.ok (), pair me peer) := by
  rw [MembershipList.insertPeer, findPeer_pair]
  simp

theorem Paired.ensures_onMembers {α : Type} {prog : Checked Panic MembershipList α}
    {Q : α → SwimProtocol → Prop} (h : Paired me peer s)
    (hprog : Ensures A prog (pair me peer) fun a m => m = pair me peer ∧ Q a s) :
    Ensures A (onMembers prog) s Q := by
  rw [onMembers, ensures_zoom, h.peers]
  refine hprog.mono fun a m hm => ?_
  rw [hm.1, ← h.peers]
  exact hm.2

theorem Paired.ensures_markAlive (h : Paired me peer s) (hp : Fresh me peer) (htape : s.tape = {}) :
    Ensures A (markAlive peer.actorId peer.incarnation) s fun _ s' => s' = s := by
  unfold markAlive
  refine (ensures_currentTimeNs htape).next ?_
  rw [ensures_bind]
  refine h.ensures_onMembers ?_
  simp only [MembershipList.markAlive, ensures_bind, ensures_assert, hp.range, decide_true,
    if_true, ensures_get]
  rw [if_neg (show peer.actorId ≠ (pair me peer).localActor from hp.other)]
  simp only [MembershipList.updateState, ensures_bind, ensures_assert, hp.range, decide_true,
    if_true, ensures_get, hp.transition, ensures_set, ensures_pure, and_self]

theorem Paired.ensures_touch (h : Paired me peer s) (hp : Fresh me peer) (htape : s.tape = {}) :
    Ensures A (touch peer.actorId) s fun _ s' => s' = s := by
  unfold touch
  refine (ensures_currentTimeNs htape).next ?_
  refine h.ensures_onMembers ?_
  rw [ensures_modify, hp.touch]
  exact ⟨rfl, rfl⟩

theorem Paired.ensures_welcome (h : Paired me peer s) (hp : Fresh me peer) (htape : s.tape = {}) :
    Ensures A (welcome peer.actorId peer.incarnation peer.addr) s fun _ s' => s' = s := by
  unfold welcome
  refine (ensures_currentTimeNs htape).next ?_
  rw [ensures_bind]
  refine h.ensures_onMembers ?_
  have hasserts := (pair me peer).insertPeer_asserts 0 peer.actorId peer.addr
  rw [insertPeer_pair] at hasserts
  simp only [MembershipList.addPeer, ensures_bind, ensures_assert, hp.range, decide_true,
    if_true, ensures_get, insertPeer_pair, ensures_set, hasserts, ensures_pure]
  rw [if_pos (decide_eq_true (show peer.actorId ≠ (pair me peer).localActor from hp.other))]
  refine ⟨trivial, ?_⟩
  refine (h.ensures_markAlive hp htape).mono ?_
  rintro _ _ rfl
  exact h.ensures_touch hp htape

theorem handleDatagram_eq {data : Bytes} {msg : GossipMessage} (h : accepted data = some msg)
    (source : SocketAddr) :
    handleDatagram data source = handleMessage msg source ∧ actorIdsInRange msg = true := by
  unfold accepted at h
  unfold handleDatagram
  split_ifs at h with hlen
  rw [if_neg hlen]
  cases hmsg : GossipMessage.decode data with
  | error reason => simp [hmsg] at h
  | ok msg' =>
    rw [hmsg] at h
    dsimp only at h
    split_ifs at h with hids
    cases h
    exact ⟨rfl, hids⟩

theorem ensures_process_one {u : Update} (hs : Safe me s) (hready : Prepared A 1 s) :
    Ensures A (processStateUpdates [u]) s fun _ s' => s' = s.received [u] :=
  (ensures_processStateUpdates hs [u] hready).mono fun _ _ h => h.1

theorem Paired.ensures_handlePing (h : Paired me peer s) (hp : Fresh me peer) (hs : Safe me s)
    (htape : s.tape = {}) (hqueue : s.piggybackQueue = []) {u : Update} (hready : Prepared A 1 s) :
    Ensures A (handlePing peer.actorId peer.incarnation [u] peer.addr) s fun _ s' =>
      s' = { s.received [u] with
        piggybackQueue := []
        outbox := s.outbox ++
          [⟨.ack s.localActor s.membership.incarnation [u], peer.addr, true⟩] } := by
  have hother : peer.actorId ≠ s.localActor := h.actor ▸ hp.other
  have hrequeued : (s.received [u]).piggybackQueue = [u] := by
    rw [received, hqueue]
    rfl
  unfold handlePing
  rw [ensures_bind, ensures_get]
  dsimp only
  rw [if_pos hother]
  refine (h.ensures_welcome hp htape).stay fun _ => ?_
  refine (ensures_process_one hs hready).stay fun _ => ?_
  rw [ensures_bind, ensures_get]
  refine Ensures.mono
    (ensures_sendWithUpdates _ _ (by rw [received, htape]) h.config (by simp [hrequeued])) ?_
  rintro _ _ ⟨-, rfl⟩
  rw [hrequeued]
  rfl

theorem Paired.ensures_handleAck (h : Paired me peer s) (hp : Fresh me peer) (hs : Safe me s)
    (htape : s.tape = {}) {u : Update} (hready : Prepared A 1 s) :
    Ensures A (handleAck peer.actorId peer.incarnation [u]) s fun _ s' =>
      s' = received { s with pendingPings := s.pendingPings.erase peer.actorId } [u] := by
  have hother : peer.actorId ≠ s.localActor := h.actor ▸ hp.other
  have herased : Paired me peer { s with pendingPings := s.pendingPings.erase peer.actorId } :=
    h.of_same rfl rfl rfl rfl rfl
  unfold handleAck
  rw [ensures_bind, ensures_modify, ensures_bind, ensures_get]
  dsimp only
  rw [if_pos hother]
  refine (herased.ensures_markAlive hp htape).stay fun _ => ?_
  refine (herased.ensures_touch hp htape).stay fun _ => ?_
  have hforward : Ensures A (forwardAck peer.actorId peer.incarnation)
      { s with pendingPings := s.pendingPings.erase peer.actorId } fun _ s' =>
        s' = { s with pendingPings := s.pendingPings.erase peer.actorId } := by
    simp only [forwardAck, ensures_bind, ensures_get, h.indirect, AList.lookup_empty, ensures_pure]
  refine hforward.stay fun _ => ?_
  refine Ensures.stay
    (ensures_process_one ⟨hs.actor, hs.members, hs.self, hs.queue, hs.relays, hs.indirect⟩
      hready) fun _ => ?_
  exact rfl

theorem forwarded_of_empty (h : ∀ shared, s.shared = some shared → shared.channel = []) :
    s.forwarded = s := by
  unfold forwarded
  cases hs : s.shared with
  | none => rfl
  | some shared =>
    obtain ⟨state, channel⟩ := shared
    cases h _ hs
    cases s
    cases hs
    rfl

theorem ensures_quiet_iteration {incoming : Option (Bytes × SocketAddr)}
    {P Q : SwimProtocol → Prop}
    (hchannel : ∀ shared, s.shared = some shared → shared.channel = [])
    (hprobe : Ensures A runProbeCycle s fun r s' => r = .ok [] ∧ P s')
    (hrecv : ∀ s', P s' → Ensures A (recvLoopIteration incoming) s' fun _ s'' => Q s'') :
    Ensures A (iteration false incoming) s fun _ s' => Q s' := by
  unfold iteration
  rw [if_neg Bool.false_ne_true]
  refine ensures_forwardUpdates.stay fun _ => ?_
  rw [forwarded_of_empty hchannel, ensures_bind]
  refine hprobe.mono ?_
  rintro _ s' ⟨rfl, hs'⟩
  dsimp only
  rw [ensures_bind]
  exact ensures_bind.2 (hrecv s' hs')

theorem takeTurn_of_ensures {tape : Tape} {incoming : Option (Bytes × SocketAddr)}
    {Q : SwimProtocol → Prop}
    (h : Ensures (fun _ => False) (iteration false incoming) { s with tape } fun _ s' => Q s') :
    ∃ s', s.takeTurn (.iterate tape incoming) = some s' ∧ Q s' := by
  cases hres : iteration false incoming { s with tape } with
  | error e => exact absurd (h.of_error hres) id
  | ok r => exact ⟨r.2, by rw [takeTurn, hres]; rfl, h.of_ok hres⟩

def Inert (u : Update) (I : Nat → Shared → Prop) : Prop :=
  ∀ n shared, I (n + 1) shared → shared.state.clock + 1 ≤ u64Max ∧
    (shared.applied u).channel = shared.channel ∧ I n (shared.applied u)

structure Spins (me : ActorId) (peer : PeerInfo) (I : Nat → Shared → Prop) (n : Nat)
    (s : SwimProtocol) : Prop
    extends Paired me peer s where
  live : Live me s
  fresh : Fresh me peer
  tape : s.tape = {}
  shared : ∃ shared, s.shared = some shared ∧ shared.channel = [] ∧ I n shared

variable {I : Nat → Shared → Prop} {n : Nat} {u : Update} {s' : SwimProtocol}

theorem Spins.channel (h : Spins me peer I n s) :
    ∀ shared, s.shared = some shared → shared.channel = [] := by
  obtain ⟨shared, hs, hchannel, -⟩ := h.shared
  intro shared' hs'
  cases hs.symm.trans hs'
  exact hchannel

theorem Spins.prepared (h : Spins me peer I (n + 1) s) (hu : Inert u I) :
    Prepared (fun _ => False) 1 s := by
  obtain ⟨shared, hs, -, hI⟩ := h.shared
  intro shared' hs'
  cases hs.symm.trans hs'
  exact ⟨h.live.sound _ hs, h.live.clock _ hs, .inr (hu n shared hI).1⟩

theorem Spins.received (h : Spins me peer I (n + 1) s) (hu : Inert u I) :
    ∃ shared, (s.received [u]).shared = some shared ∧ shared.channel = [] ∧ I n shared := by
  obtain ⟨shared, hs, hchannel, hI⟩ := h.shared
  obtain ⟨-, hsame, hI'⟩ := hu n shared hI
  refine ⟨shared.applied u, ?_, hsame.trans hchannel, hI'⟩
  rw [SwimProtocol.received, hs]
  rfl

theorem Spins.reload (h : Spins me peer I n s) : { s with tape := {} } = s := by
  rw [← h.tape]

theorem takeTurn_live {turn : Turn} (hs : Live me s) (h : s.takeTurn turn = some s') :
    Live me s' := by
  obtain ⟨es, -, hrun⟩ := takeTurn_run h
  exact run_live hs hrun

theorem ensures_recv {msg : GossipMessage} (hmsg : accepted msg.layout = some msg)
    (source : SocketAddr) {Q : SwimProtocol → Prop}
    (h : Ensures A (handleMessage msg source) s fun _ s' => Q s') :
    Ensures A (recvLoopIteration (some (msg.layout, source))) s fun _ s' => Q s' := by
  have hfits : (0 < msg.layout.length && msg.layout.length ≤ maxMessageSize) = true := by
    simp [msg.length_layout_pos, msg.length_layout_le]
  rw [recvLoopIteration, ensures_bind, ensures_assert, if_pos hfits, ensures_bind,
    (handleDatagram_eq hmsg source).1]
  refine h.mono fun r s' hs' => ?_
  rcases r with (_ | _ | _ | _) | _ <;> exact hs'

theorem Spins.takes (h : Spins me peer I n s) {msg : GossipMessage}
    (hmsg : accepted msg.layout = some msg) {t : SwimProtocol}
    (ht : Ensures (fun _ => False) (handleMessage msg peer.addr) s fun _ s' => s' = t) :
    s.takeTurn (.iterate {} (some (msg.layout, peer.addr))) = some t := by
  have hturn : ∃ s', s.takeTurn (.iterate {} (some (msg.layout, peer.addr))) = some s' ∧
      s' = t := by
    refine takeTurn_of_ensures ?_
    rw [h.reload]
    refine ensures_quiet_iteration h.channel (h.toCalm.ensures_runProbeCycle h.tape) ?_
    rintro _ rfl
    exact ensures_recv hmsg peer.addr ht
  obtain ⟨_, hturn, rfl⟩ := hturn
  exact hturn

theorem Spins.pinged (h : Spins me peer I (n + 1) s) (hu : Inert u I)
    (hqueue : s.piggybackQueue = [])
    (hmsg : accepted (GossipMessage.ping peer.actorId peer.incarnation [u]).layout
      = some (.ping peer.actorId peer.incarnation [u])) : ∃ s', s.takeTurn (.iterate {} (some
        ((GossipMessage.ping peer.actorId peer.incarnation [u]).layout, peer.addr))) = some s' ∧
      Spins me peer I n s' ∧ s'.piggybackQueue = [] ∧ s'.localAddr = s.localAddr ∧
      s'.outbox = s.outbox ++ [⟨.ack me 1 [u], peer.addr, true⟩] := by
  have hturn := h.takes hmsg (by
    rw [handleMessage, if_neg (by simp [(handleDatagram_eq hmsg peer.addr).2])]
    exact h.ensures_handlePing h.fresh h.live.toSafe h.tape hqueue (h.prepared hu))
  refine ⟨_, hturn, ⟨h.of_same rfl rfl rfl rfl rfl, takeTurn_live h.live hturn, h.fresh, h.tape,
    h.received hu⟩, rfl, rfl, ?_⟩
  rw [h.actor, h.peers]
  rfl

theorem Spins.acked (h : Spins me peer I (n + 1) s) (hu : Inert u I)
    (hmsg : accepted (GossipMessage.ack peer.actorId peer.incarnation [u]).layout
      = some (.ack peer.actorId peer.incarnation [u])) : ∃ s', s.takeTurn (.iterate {} (some
        ((GossipMessage.ack peer.actorId peer.incarnation [u]).layout, peer.addr))) = some s' ∧
      Spins me peer I n s' ∧
        s' = SwimProtocol.received { s with pendingPings := s.pendingPings.erase peer.actorId }
        [u] := by
  have hturn := h.takes hmsg (by
    rw [handleMessage, if_neg (by simp [(handleDatagram_eq hmsg peer.addr).2])]
    exact h.ensures_handleAck h.fresh h.live.toSafe h.tape (h.prepared hu))
  exact ⟨_, hturn, ⟨h.of_same rfl rfl rfl rfl rfl, takeTurn_live h.live hturn, h.fresh, h.tape,
    h.received hu⟩, rfl⟩

theorem Spins.probes (h : Spins me peer I n s) (hpings : s.pendingPings = ∅)
    (hqueue : s.piggybackQueue.length ≤ 16) (hanti : s.lastAntiEntropyNs ≤ s.lastProbeNs) :
    ∃ tape s', s.takeTurn (.iterate tape none) = some s' ∧ Spins me peer I n s' ∧
      ∃ now members, s' = s.probedAt peer now members := by
  have hturn : ∃ s', s.takeTurn
      (.iterate { times := [s.lastProbeNs + 10000000000, s.lastProbeNs + 10000000000] } none)
      = some s' ∧ ∃ now members, s' = s.probedAt peer now members := by
    refine takeTurn_of_ensures ?_
    refine ensures_quiet_iteration h.channel
      (Paired.ensures_runProbeCycle_due (h.of_same rfl rfl rfl rfl rfl) rfl
      hpings hqueue le_rfl (Nat.add_le_add_right hanti _)) ?_
    rintro s' ⟨members, rfl⟩
    exact ⟨_, members, rfl⟩
  obtain ⟨s', hturn, now, members, rfl⟩ := hturn
  exact ⟨_, _, hturn, ⟨h.of_same rfl rfl rfl rfl rfl, takeTurn_live h.live hturn, h.fresh, rfl,
    h.shared⟩, now, members, rfl⟩

end Rounds
end SwimProtocol

namespace Cluster

open SwimProtocol

variable {I : Nat → Shared → Prop} {n : Nat} {u : Update} {cl : Cluster}

def peerA : PeerInfo := ⟨1, hostA, .alive, 1, 0⟩

def peerB : PeerInfo := ⟨2, hostB, .alive, 1, 0⟩

structure Circling (u : Update) (I : Nat → Shared → Prop) (n : Nat) (a b : SwimProtocol) :
    Prop where
  first : Spins 1 peerB I n a
  second : Spins 2 peerA I n b
  addrs : a.localAddr = hostA ∧ b.localAddr = hostB
  pings : a.pendingPings = ∅
  queues : a.piggybackQueue = [u] ∧ b.piggybackQueue = []
  times : a.lastAntiEntropyNs ≤ a.lastProbeNs

theorem sentTo_of_mem {s sender : SwimProtocol} {msg : GossipMessage} (hmem : sender ∈ cl)
    (hsent : ⟨msg, s.localAddr, true⟩ ∈ sender.outbox) :
    cl.sentTo s (msg.layout, sender.localAddr) = true := by
  refine List.any_eq_true.2 ⟨sender, hmem, ?_⟩
  rw [decide_eq_true rfl, Bool.true_and]
  exact List.any_eq_true.2 ⟨_, hsent, by simp⟩

theorem act_of_turn {i : Nat} {turn : Turn} {s s' : SwimProtocol} (hs : cl[i]? = some s)
    (hin : turn.incoming.all (cl.sentTo s) = true) (hturn : s.takeTurn turn = some s') :
    act cl ⟨i, turn⟩ = some (cl.set i s') := by
  rw [act, hs, bind_some, if_pos hin, hturn, map_some]

theorem Circling.round {a b : SwimProtocol} (h : Circling u I (n + 1) a b) (hu : Inert u I)
    (hping : accepted (GossipMessage.ping 1 1 [u]).layout = some (.ping 1 1 [u]))
    (hack : accepted (GossipMessage.ack 2 1 [u]).layout = some (.ack 2 1 [u])) :
    ∃ as a' b', (∀ x ∈ as, x.isLocal = false) ∧ run act [a, b] as = some [a', b'] ∧
      Circling u I n a' b' ∧ put [a', b'] = put [a, b] + 2 := by
  obtain ⟨tape, a₁, hturn₁, hspins₁, now, members, ha₁⟩ :=
    h.first.probes h.pings (by simp [h.queues.1]) h.times
  have hinc : a.membership.incarnation = 1 := by rw [h.first.peers, pair]
  rw [probedAt, h.first.actor, hinc, h.queues.1] at ha₁
  have hqueue₁ : a₁.piggybackQueue = [] := by rw [ha₁]
  have haddr₁ : a₁.localAddr = hostA := by rw [ha₁, h.addrs.1]
  have hsent₁ : ⟨.ping 1 1 [u], b.localAddr, true⟩ ∈ a₁.outbox := by
    rw [ha₁, h.addrs.2]
    simp [peerB]
  obtain ⟨b', hturn₂, hspins₂, hqueue₂, haddr₂, hout₂⟩ :=
    h.second.pinged hu h.queues.2 hping
  have hsent₂ : ⟨.ack 2 1 [u], a₁.localAddr, true⟩ ∈ b'.outbox := by
    rw [hout₂, haddr₁]
    simp [peerA]
  obtain ⟨a', hturn₃, hspins₃, ha'⟩ := hspins₁.acked hu hack
  have hact₁ : act [a, b] ⟨0, .iterate tape none⟩ = some [a₁, b] :=
    act_of_turn rfl rfl hturn₁
  have hact₂ : act [a₁, b]
      ⟨1, .iterate {} (some ((GossipMessage.ping 1 1 [u]).layout, hostA))⟩ = some [a₁, b'] :=
    act_of_turn rfl (haddr₁ ▸ sentTo_of_mem List.mem_cons_self hsent₁) hturn₂
  have hact₃ : act [a₁, b']
      ⟨0, .iterate {} (some ((GossipMessage.ack 2 1 [u]).layout, hostB))⟩ = some [a', b'] :=
    act_of_turn rfl
      (haddr₂.trans h.addrs.2 ▸ sentTo_of_mem
        (List.mem_cons_of_mem _ List.mem_cons_self) hsent₂) hturn₃
  refine ⟨_, a', b', ?_, run_append (run_append (run_one hact₁) (run_one hact₂))
    (run_one hact₃), ?_, ?_⟩
  · simp [Action.isLocal]
  · refine ⟨hspins₃, hspins₂, ⟨?_, haddr₂.trans h.addrs.2⟩, ?_,
      ⟨?_, hqueue₂⟩, ?_⟩
    · rw [ha']
      exact haddr₁
    · rw [ha', ha₁]
      rfl
    · rw [ha', SwimProtocol.received, hqueue₁]
      rfl
    · rw [ha', ha₁]
      exact le_rfl
  · have hputA : a'.put = a.put + 1 := by
      rw [ha', ha₁]
      simp [SwimProtocol.put, SwimProtocol.received, GossipMessage.updates]
    have hputB : b'.put = b.put + 1 := by
      simp [SwimProtocol.put, hout₂, GossipMessage.updates]
    simp only [put, List.map_cons, List.map_nil, List.sum_cons, List.sum_nil, hputA, hputB]
    omega

theorem Circling.rounds {a b : SwimProtocol} (h : Circling u I n a b) (hu : Inert u I)
    (hping : accepted (GossipMessage.ping 1 1 [u]).layout = some (.ping 1 1 [u]))
    (hack : accepted (GossipMessage.ack 2 1 [u]).layout = some (.ack 2 1 [u])) :
    ∃ as cl', (∀ x ∈ as, x.isLocal = false) ∧ run act [a, b] as = some cl' ∧
      put cl' = put [a, b] + 2 * n := by
  induction n generalizing a b with
  | zero => exact ⟨[], [a, b], nofun, rfl, rfl⟩
  | succ n ih =>
    obtain ⟨as, a', b', hlocal, hrun, hcircling, hput⟩ := h.round hu hping hack
    obtain ⟨as', cl', hlocal', hrun', hput'⟩ := ih hcircling
    refine ⟨as ++ as', cl', fun x hx => ?_, run_append hrun hrun', by omega⟩
    rcases List.mem_append.1 hx with hx | hx
    · exact hlocal x hx
    · exact hlocal' x hx

def staleJoin : Update := .delta (.participantAdded 1 7 ⟨1, 2⟩)

def joined : List Action := greet ++ [⟨0, .operate (.createRoomAuto "room" 10)⟩,
  ⟨0, .operate (.addParticipant 1 7)⟩, ⟨0, .operate (.removeRoom 1)⟩,
      ⟨0, .iterate {} none⟩]

theorem inert_request : Inert request fun _ shared => shared.state.clock + 1 ≤ u64Max :=
  fun _ _ h => ⟨h, rfl, h⟩

theorem inert_staleJoin : Inert staleJoin fun n shared =>
    shared.state.rooms = [] ∧ shared.state.clock + n ≤ u64Max := by
  rintro n shared ⟨hrooms, hclock⟩
  have hroom : shared.state.getRoom 1 = none := by
    rw [DistributedState.getRoom, hrooms, List.find?_nil]
  have happlied : shared.applied staleJoin = { shared with state := shared.state.tick } := by
    simp [Shared.applied, staleJoin, Update.operation, Shared.performed, Operation.perform,
      Operation.announces, Operation.onOk, DistributedState.addParticipant,
      checkParticipantIds, hroom]
  rw [happlied]
  have hticked : shared.state.tick.clock + n ≤ u64Max := by
    rw [DistributedState.tick]
    dsimp only
    omega
  exact ⟨by omega, rfl, hrooms, hticked⟩

def atRest (me : ActorId) (peer : PeerInfo) (addr : SocketAddr) (J : DistributedState → Bool)
    (s : SwimProtocol) : Bool :=
  s.config = {} && s.localActor = me && s.membership = pair me peer && s.localAddr =
    addr && s.tape = {}
    && s.pendingIndirect.entries = [] && s.pendingPings.entries = []
    && s.antiEntropyIntervalMs = defaultAntiEntropyIntervalMs
    && s.shared.any fun shared => shared.channel = [] && J shared.state

def holding (u : Update) (J : DistributedState → Bool) : Cluster → Bool
  | [a, b] => atRest 1 peerB hostA J a && atRest 2 peerA hostB J b && a.piggybackQueue = [u]
    && b.piggybackQueue = [] && a.lastAntiEntropyNs ≤ a.lastProbeNs
  | _ => false

theorem spins_of_atRest {me : ActorId} {peer : PeerInfo} {addr : SocketAddr}
    {J : DistributedState → Bool} {s : SwimProtocol} (h : atRest me peer addr J s = true)
    (hlive : Live me s) (hp : Fresh me peer)
    (hI : ∀ shared : Shared, J shared.state = true → I n shared) :
    Spins me peer I n s ∧ s.localAddr = addr ∧ s.pendingPings = ∅ := by
  simp only [atRest, Bool.and_eq_true, decide_eq_true_eq, any_eq_true] at h
  obtain ⟨⟨⟨⟨⟨⟨⟨⟨hconfig, hactor⟩, hmembers⟩, haddr⟩, htape⟩, hindirect⟩,
      hpings⟩, hinterval⟩, shared, hs, hchannel, hJ⟩ := h
  refine ⟨⟨⟨⟨hconfig, ?_, AList.ext hindirect⟩, hactor, hmembers, hinterval⟩,
    hlive, hp, htape, shared, hs, hchannel, hI shared hJ⟩, haddr, AList.ext hpings⟩
  rw [hmembers, getAllPeers_pair]
  intro p hpeer
  rw [List.mem_singleton.1 hpeer]
  exact hp.state

theorem circling_of_holding {as : List Action} {J : DistributedState → Bool}
    (hrun : run act [stateNode, nodeB] as = some cl) (h : holding u J cl = true)
    (hI : ∀ shared : Shared, J shared.state = true → I n shared) :
    ∃ a b, cl = [a, b] ∧ Circling u I n a b := by
  unfold holding at h
  split at h
  next a b =>
    simp only [Bool.and_eq_true, decide_eq_true_eq] at h
    obtain ⟨⟨⟨⟨ha, hb⟩, hqa⟩, hqb⟩, htimes⟩ := h
    obtain ⟨hfirst, haddra, hpings⟩ :=
      spins_of_atRest ha (live_of_run (i := 0) hrun rfl starts_stateNode rfl)
        ⟨by decide, by decide, rfl, rfl⟩ hI
    obtain ⟨hsecond, haddrb, -⟩ :=
      spins_of_atRest hb (live_of_run (i := 1) hrun rfl starts_nodeB rfl)
        ⟨by decide, by decide, rfl, rfl⟩ hI
    exact ⟨a, b, rfl, hfirst, hsecond, ⟨haddra, haddrb⟩, hpings, ⟨hqa, hqb⟩, htimes⟩
  next => cases h

/-- A request, once broadcast, goes back and forth for ever; the news of a participant does until
the clocks are full. -/
theorem dissemination_unbounded :
    (∃ cl, run act [stateNode, nodeB] requested = some cl ∧
      ∀ n, ∃ as cl', (∀ x ∈ as, x.isLocal = false) ∧
      run act cl as = some cl' ∧ put cl' = put cl + 2 * n) ∧
    ∃ cl, run act [stateNode, nodeB] joined = some cl ∧ ∀ n ≤ 2 ^ 63, ∃ as cl',
      (∀ x ∈ as, x.isLocal = false) ∧
      run act cl as = some cl' ∧ put cl' = put cl + 2 * n := by
  constructor
  · obtain ⟨cl, hrun, hholding⟩ := (any_eq_true _ _).1 (by decide +kernel :
      (run act [stateNode, nodeB] requested).any (holding request (·.clock = 0)) = true)
    refine ⟨cl, hrun, fun n => ?_⟩
    obtain ⟨a, b, rfl, hcircling⟩ := circling_of_holding (n := n) hrun hholding
      (I := fun _ shared => shared.state.clock + 1 ≤ u64Max)
        (fun shared h => by simp [of_decide_eq_true h])
    exact hcircling.rounds inert_request (by decide +kernel) (by decide +kernel)
  · obtain ⟨cl, hrun, hholding⟩ := (any_eq_true _ _).1 (by decide +kernel :
      (run act [stateNode, nodeB] joined).any
        (holding staleJoin fun s => s.rooms = [] && s.clock ≤ 2) = true)
    refine ⟨cl, hrun, fun n hn => ?_⟩
    obtain ⟨a, b, rfl, hcircling⟩ := circling_of_holding (n := n) hrun hholding
      (I := fun n shared => shared.state.rooms = [] ∧ shared.state.clock + n ≤ u64Max)
        (fun shared h => by
        simp only [Bool.and_eq_true, decide_eq_true_eq] at h
        refine ⟨h.1, ?_⟩
        norm_num at hn ⊢
        omega)
    exact hcircling.rounds inert_staleJoin (by decide +kernel) (by decide +kernel)

end Cluster
end NexusSfu.Swim
