import NexusSfu.Swim.Steps

namespace NexusSfu.Swim

open Base State Checked
open Dataplane (SocketAddr)

inductive Event
  | datagram (tape : Tape) (data : Bytes) (source : SocketAddr)
  | probe (tape : Tape)
  | seed (tape : Tape) (actorId : ActorId) (addr : SocketAddr)
  | operation (op : Operation)
  | broadcast (update : Update)
  | forward
  | drainRelayEvents

namespace SwimProtocol

def loadTape (tape : Tape) : Routine Unit := modify fun s => { s with tape }

def react : Event → Routine (List ActorId)
  | .datagram tape data source => do
    loadTape tape
    let _ ← handleDatagram data source
    return []
  | .probe tape => do
    loadTape tape
    match ← runProbeCycle with
    | .ok dead => return dead
    | .error _ => return []
  | .seed tape actorId addr => do
    loadTape tape
    let _ ← addSeedPeer actorId addr
    return []
  | .operation op => do
    onShared op.run
    return []
  | .broadcast update => do
    broadcastStateUpdate update
    return []
  | .forward => do
    forwardUpdates
    return []
  | .drainRelayEvents => do
    modify fun s => { s with relayEvents := [] }
    return []

def step (s : SwimProtocol) (e : Event) : Option SwimProtocol := (react e s).toOption.map Prod.snd

def reported (s : SwimProtocol) (e : Event) : List ActorId :=
  ((react e s).toOption.map Prod.fst).getD []

def forwarded (s : SwimProtocol) : SwimProtocol :=
  match s.shared with
  | none => s
  | some shared => { s with
      shared := some { shared with channel := shared.channel.drop maxUpdatesPerIteration }
      piggybackQueue :=
        (shared.channel.take maxUpdatesPerIteration).foldl enqueued s.piggybackQueue }

inductive Effect (s : SwimProtocol) : Event → List ActorId → SwimProtocol → Prop
  | datagram (tape : Tape) (data : Bytes) (source : SocketAddr) (s' : SwimProtocol)
    (h : Takes data source { s with tape } s') : Effect s (.datagram tape data source) [] s'
  | probe (tape : Tape) (result : Except GossipError (List ActorId)) (s' : SwimProtocol)
    (h : Probes result { s with tape } s') : Effect s (.probe tape) (result.toOption.getD []) s'
  | seed (tape : Tape) (a : ActorId) (addr : SocketAddr) (s' : SwimProtocol)
    (h : Path { registers := fun x y => x = a ∧ y = addr } { s with tape } s') :
    Effect s (.seed tape a addr) [] s'
  | operation (op : Operation) (h : ClockFits { s with shared := s.shared.map (·.performed op) }) :
    Effect s (.operation op) [] { s with shared := s.shared.map (·.performed op) }
  | broadcast (update : Update) : Effect s (.broadcast update) []
      { s with piggybackQueue := enqueued s.piggybackQueue update }
  | forward : Effect s .forward [] s.forwarded
  | drainRelayEvents : Effect s .drainRelayEvents [] { s with relayEvents := [] }

def Performs : Event → Operation → Prop
  | .operation op, op' => op' = op
  | .datagram _ data _, op =>
    ∃ msg, accepted data = some msg ∧ ∃ u ∈ msg.updates, ∃ state,
      u.operation state = some op
  | .probe _, _ | .seed _ _ _, _ | .broadcast _, _ | .forward, _ | .drainRelayEvents, _ => False

def OnState (P : DistributedState → Prop) (s : SwimProtocol) : Prop :=
  ∀ shared, s.shared = some shared → P shared.state

structure Live (me : ActorId) (s : SwimProtocol) : Prop extends Safe me s where
  sound : OnState DistributedState.Sound s
  clock : ClockFits s

def Admits (A : Panic → Prop) (me : ActorId) (s : SwimProtocol) : Event → Prop
  | .datagram _ _ _ => Prepared A maxPiggybackUpdates s
  | .operation op =>
    Prepared A 1 s ∧ (A .assertion ∨ ∀ a, op = .handleNodeFailure a → a < maxActors)
  | .seed _ a _ => A .assertion ∨ a < maxActors ∧ a ≠ me
  | .probe _ | .broadcast _ | .forward | .drainRelayEvents => True

section Effect

variable {A : Panic → Prop} {me : ActorId} {s s' : SwimProtocol} {e : Event} {r : List ActorId}

theorem Live.withTape (h : Live me s) (tape : Tape) : Live me { s with tape } :=
  ⟨⟨h.actor, h.members, h.self, h.queue, h.relays, h.indirect⟩, h.sound, h.clock⟩

theorem length_newest_le {α : Type} (n : Nat) (l : List α) :
    (newest n l).length ≤ min n l.length := by
  rw [newest, List.length_drop]
  omega

theorem length_enqueued_le (queue : List Update) (u : Update) :
    (enqueued queue u).length ≤ maxPiggybackQueueSize :=
  (length_newest_le _ _).trans (min_le_left _ _)

theorem length_forwarded_le {queue : List Update} (h : queue.length ≤ maxPiggybackQueueSize)
    (us : List Update) :
    (us.foldl enqueued queue).length ≤ maxPiggybackQueueSize := by
  induction us generalizing queue with
  | nil => exact h
  | cons u us ih => exact ih (length_enqueued_le queue u)

theorem ensures_broadcastStateUpdate (u : Update) : Ensures A (broadcastStateUpdate u) s fun _ s' =>
    s' = { s with piggybackQueue := enqueued s.piggybackQueue u } := by
  simp only [broadcastStateUpdate, ensures_bind, ensures_modify, ensures_get, ensures_assert,
    length_enqueued_le, decide_true, if_true]

theorem ensures_broadcastAll (us : List Update) :
    Ensures A (each broadcastStateUpdate us) s fun _ s' =>
    s' = { s with piggybackQueue := us.foldl enqueued s.piggybackQueue } := by
  induction us generalizing s with
  | nil => rfl
  | cons u us ih =>
    rw [each, ensures_bind]
    refine (ensures_broadcastStateUpdate u).mono ?_
    rintro _ _ rfl
    exact ih

theorem ensures_forwardUpdates : Ensures A forwardUpdates s fun _ s' => s' = s.forwarded := by
  unfold forwardUpdates forwarded
  rw [ensures_bind, ensures_get]
  cases s.shared with
  | none => rfl
  | some shared =>
    simp only [ensures_bind, ensures_modify]
    exact ensures_broadcastAll _

theorem ensures_operation {op : Operation} (h : Admits A me s (.operation op)) :
    Ensures A (onShared op.run) s fun _ s' =>
      s' = { s with shared := s.shared.map (·.performed op) } ∧ ClockFits s' := by
  refine ensures_onShared fun shared hshared => ?_
  obtain ⟨hsound, -, hclock⟩ := h.1 shared hshared
  by_cases hop : ∀ a, op = .handleNodeFailure a → a < maxActors
  · exact ensures_run hsound hop hclock
  · have hA : A .assertion := h.2.resolve_right hop
    push Not at hop
    obtain ⟨a, rfl, ha⟩ := hop
    simp [Operation.run, Operation.asserts, not_lt.2 ha, hA]

theorem ensures_react (hs : Live me s) (h : Admits A me s e) :
    Ensures A (react e) s fun r s' => Effect s e r s' := by
  cases e with
  | datagram tape data source =>
    simp only [react, loadTape, ensures_bind, ensures_modify]
    exact (takes_handleDatagram data source (hs.withTape tape).toSafe h).mono fun _ s' hs' =>
      .datagram tape data source s' hs'
  | probe tape =>
    simp only [react, loadTape, ensures_bind, ensures_modify]
    refine (probes_runProbeCycle (hs.withTape tape).toSafe).mono fun r s' hs' => ?_
    cases r with
    | ok dead => exact .probe tape (.ok dead) s' hs'
    | error e => exact .probe tape (.error e) s' hs'
  | seed tape a addr =>
    simp only [react, loadTape, ensures_bind, ensures_modify]
    by_cases hp : a < maxActors ∧ a ≠ me
    · have hnews : News.registers { registers := fun x y => x = a ∧ y = addr } a addr :=
        ⟨rfl, rfl⟩
      exact (moves_addSeedPeer hnews hp.1 hp.2 A _ (hs.withTape tape).toSafe).mono fun _ s' hs' =>
        .seed tape a addr s' hs'
    · have hA : A .assertion := h.resolve_right hp
      refine moves_currentTimeNs.andThen (hs.withTape tape).toSafe (.refl : Path {} _ _)
        fun now t hpath => ?_
      have hself := (hpath.safe (hs.withTape tape).toSafe).self
      simp only [ensures_bind, onMembers, ensures_zoom, MembershipList.addPeer,
        ensures_assert, ensures_get, ensures_set, MembershipList.insertPeer_asserts, if_true]
      split_ifs with ha hne
      · rw [hself] at hne
        exact absurd ⟨of_decide_eq_true ha, of_decide_eq_true hne⟩ hp
      · exact hA
      · exact hA
  | operation op =>
    simp only [react, ensures_bind]
    refine (ensures_operation h).mono ?_
    rintro _ _ ⟨rfl, hfits⟩
    exact .operation op hfits
  | broadcast update =>
    simp only [react, ensures_bind]
    refine (ensures_broadcastStateUpdate update).mono ?_
    rintro _ _ rfl
    exact .broadcast update
  | forward =>
    simp only [react, ensures_bind]
    refine ensures_forwardUpdates.mono ?_
    rintro _ _ rfl
    exact .forward
  | drainRelayEvents => exact .drainRelayEvents

theorem ClockFits.of_shared (h : ClockFits s) (hshared : s'.shared = s.shared) : ClockFits s' := by
  rw [ClockFits, hshared]
  exact h

theorem Probes.shared {result : Except GossipError (List ActorId)} (h : Probes result s s') :
    s'.shared = s.shared := by
  obtain ⟨t, hpath, hres⟩ := h
  cases result with
  | error e => exact hres ▸ hpath.shared
  | ok dead =>
    obtain ⟨now, -, hpath'⟩ := hres
    exact hpath'.shared.trans hpath.shared

section OnState

variable {P : DistributedState → Prop}

theorem OnState.of_shared (h : OnState P s) (hshared : s'.shared = s.shared) : OnState P s' := by
  rw [OnState, hshared]
  exact h

theorem OnState.received (h : OnState P s) (us : List Update)
    (hP : ∀ u ∈ us, ∀ op state state', u.operation state = some op → P state →
      Operation.Edit state op state' → P state') : OnState P (s.received us) := by
  intro shared hshared
  obtain ⟨shared', hs', rfl⟩ := Option.map_eq_some_iff.1 hshared
  have hstate := h shared' hs'
  clear hs' hshared
  induction us generalizing shared' with
  | nil => exact hstate
  | cons u us ih =>
    obtain ⟨hu, hus⟩ := List.forall_mem_cons.1 hP
    refine ih hus (shared'.applied u) ?_
    rcases shared'.applied_cases u with heq | ⟨op, hop, heq⟩
    · rwa [heq]
    · rw [heq]
      exact hu op _ _ hop hstate (Operation.edit_perform shared'.state op)

theorem Effect.onState (h : Effect s e r s')
    (hP : ∀ op state state', Performs e op → P state →
    Operation.Edit state op state' → P state') (hs : OnState P s) : OnState P s' := by
  cases h with
  | datagram tape data source s' htakes =>
    unfold Takes at htakes
    cases hmsg : accepted data with
    | none =>
      rw [hmsg] at htakes
      exact htakes ▸ hs
    | some msg =>
      rw [hmsg] at htakes
      obtain ⟨t, hpath, -, hpath'⟩ := htakes
      refine OnState.of_shared (OnState.received (hs.of_shared hpath.shared) _ ?_) hpath'.shared
      intro u hu op state state' hop
      exact hP op state state' ⟨msg, hmsg, u, List.mem_of_mem_take hu, state, hop⟩
  | probe tape result s' hprobes => exact hs.of_shared hprobes.shared
  | seed tape a addr s' hpath => exact hs.of_shared hpath.shared
  | operation op hfits =>
    intro shared hshared
    obtain ⟨shared', hs', rfl⟩ := Option.map_eq_some_iff.1 hshared
    exact hP op _ _ rfl (hs shared' hs') (Operation.edit_perform shared'.state op)
  | broadcast update => exact hs
  | forward =>
    unfold forwarded
    cases hshared : s.shared with
    | none => exact hs
    | some shared =>
      rintro _ ⟨⟩
      exact hs shared hshared
  | drainRelayEvents => exact hs

end OnState

theorem Effect.live (h : Effect s e r s') (hs : Live me s) : Live me s' := by
  have hsound := h.onState (fun op _ _ _ h hedit => Operation.Edit.sound h hedit) hs.sound
  cases h with
  | datagram tape data source s' htakes =>
    have hs := hs.withTape tape
    unfold Takes at htakes
    cases hmsg : accepted data with
    | none =>
      rw [hmsg] at htakes
      exact htakes ▸ hs
    | some msg =>
      rw [hmsg] at htakes
      have hsafe := htakes.safe hs.toSafe
      obtain ⟨t, hpath, hfits, hpath'⟩ := htakes
      exact ⟨hsafe, hsound, hfits.of_shared hpath'.shared⟩
  | probe tape result s' hprobes =>
    have hs := hs.withTape tape
    exact ⟨hprobes.safe hs.toSafe, hsound, hs.clock.of_shared hprobes.shared⟩
  | seed tape a addr s' hpath =>
    have hs := hs.withTape tape
    exact ⟨hpath.safe hs.toSafe, hsound, hs.clock.of_shared hpath.shared⟩
  | operation op hfits =>
    exact ⟨⟨hs.actor, hs.members, hs.self, hs.queue, hs.relays, hs.indirect⟩, hsound, hfits⟩
  | broadcast update =>
    exact ⟨⟨hs.actor, hs.members, hs.self, length_enqueued_le .., hs.relays, hs.indirect⟩,
      hs.sound, hs.clock⟩
  | forward =>
    unfold forwarded at hsound ⊢
    cases hshared : s.shared with
    | none => exact hs
    | some shared =>
      rw [hshared] at hsound
      refine ⟨⟨hs.actor, hs.members, hs.self, ?_, hs.relays, hs.indirect⟩, hsound, ?_⟩
      · exact length_forwarded_le hs.queue _
      · rintro _ ⟨⟩
        exact hs.clock shared hshared
  | drainRelayEvents =>
    exact ⟨⟨hs.actor, hs.members, hs.self, hs.queue, Nat.zero_le _, hs.indirect⟩,
      hs.sound, hs.clock⟩

theorem step_effect (hs : Live me s) (h : step s e = some s') : Effect s e (reported s e) s' := by
  have hadmits : Admits (fun _ => True) me s e := by
    cases e with
    | datagram =>
      exact fun shared hshared =>
        ⟨hs.sound shared hshared, hs.clock shared hshared, .inl trivial⟩
    | operation =>
      exact ⟨fun shared hshared =>
        ⟨hs.sound shared hshared, hs.clock shared hshared, .inl trivial⟩, .inl trivial⟩
    | seed => exact .inl trivial
    | probe | broadcast | forward | drainRelayEvents => trivial
  have heffect := ensures_react hs hadmits
  unfold step at h
  unfold reported
  cases hreact : react e s with
  | error p => simp [hreact, Except.toOption] at h
  | ok res =>
    have heffect := heffect.of_ok hreact
    rw [hreact] at h
    cases h
    exact heffect

theorem exists_step (hs : Live me s) (h : Admits (fun _ => False) me s e) :
    ∃ s', step s e = some s' := by
  have heffect := ensures_react hs h
  unfold step
  cases hreact : react e s with
  | error p => exact absurd (heffect.of_error hreact) id
  | ok res => exact ⟨res.2, rfl⟩

theorem step_live (hs : Live me s) (h : step s e = some s') : Live me s' :=
  (step_effect hs h).live hs

theorem run_live {es : List Event} (hs : Live me s) (h : run step s es = some s') : Live me s' :=
  run_preserves (fun _ _ _ => step_live) hs h

theorem new_eq_some {addr : SocketAddr} {config : GossipConfig}
    (h : new me addr config = some (.ok s)) :
    s = { localActor := me, membership := .new me, localAddr := addr, config } := by
  unfold new at h
  split_ifs at h
  cases hv : config.validate with
  | error e => simp [hv, Except.map] at h
  | ok _ =>
    rw [hv] at h
    cases h
    rfl

theorem live_new {addr : SocketAddr} {config : GossipConfig}
    (h : new me addr config = some (.ok s)) : Live me s := by
  cases new_eq_some h
  exact ⟨⟨rfl, MembershipList.wf_new me, rfl, Nat.zero_le _, Nat.zero_le _, Nat.zero_le _⟩,
    nofun, nofun⟩

def Starts (me : ActorId) (s : SwimProtocol) : Prop :=
  ∃ addr config s₀, new me addr config = some (.ok s₀) ∧
    (s = s₀ ∨ ∃ c : DistributedStateConfig, c.localActor = me ∧ s = s₀.withState (.new c))

theorem Live.withState (hs : Live me s) {state : DistributedState} (h : state.Sound)
    (hclock : state.clock ≤ u64Max) : Live me (s.withState state) := by
  refine ⟨⟨hs.actor, hs.members, hs.self, hs.queue, hs.relays, hs.indirect⟩, ?_, ?_⟩
  · rintro _ ⟨⟩
    exact h
  · rintro _ ⟨⟩
    exact hclock

theorem Starts.live (h : Starts me s) : Live me s := by
  obtain ⟨addr, config, s₀, hnew, rfl | ⟨c, -, rfl⟩⟩ := h
  · exact live_new hnew
  · exact (live_new hnew).withState (DistributedState.sound_new c) (Nat.zero_le _)

end Effect

section Nodes

def hostA : SocketAddr := .v4 #v[10, 0, 0, 1] 7946

def loneNode (me : ActorId) : SwimProtocol :=
  { localActor := me, membership := .new me, localAddr := hostA, config := {} }

def stateNode : SwimProtocol := (loneNode 1).withState (.new (.new 1))

theorem starts_loneNode : Starts 1 (loneNode 1) := ⟨hostA, {}, loneNode 1, rfl, .inl rfl⟩

theorem starts_stateNode : Starts 1 stateNode :=
  ⟨hostA, {}, loneNode 1, rfl, .inr ⟨_, rfl, rfl⟩⟩

def hostB : SocketAddr := .v4 #v[10, 0, 0, 2] 7946

def hostC : SocketAddr := .v4 #v[10, 0, 0, 3] 7946

def arrives (msg : GossipMessage) (source : SocketAddr) : Event := .datagram {} msg.layout source

theorem eq_some_getD {α : Type} {o : Option α} (d : α) (h : o.isSome = true) :
    o = some (o.getD d) := by
  cases o with
  | none => cases h
  | some a => rfl

end Nodes
/-- What the node has of a peer: the two fields that decide how a later message about it is
taken. -/
def opinionOf (s : SwimProtocol) (a : ActorId) : Option Opinion :=
  (s.membership.findPeer a).map PeerInfo.opinion

end SwimProtocol
end NexusSfu.Swim
