import NexusSfu.Swim.Runs

/-!
A cluster: nodes that run their gossip threads and learn of each other by datagrams only.
-/

namespace NexusSfu.Swim

open Base State Checked Option List
open Dataplane (SocketAddr)

inductive Turn
  | iterate (tape : Tape) (incoming : Option (Bytes × SocketAddr))
  | operate (op : Operation)
  | broadcast (update : Update)
  | seed (tape : Tape) (actorId : ActorId) (addr : SocketAddr)

def Turn.incoming : Turn → Option (Bytes × SocketAddr)
  | iterate _ incoming => incoming
  | operate _ | broadcast _ | seed _ _ _ => none

inductive Turn.Made : Turn → List Event → Prop
  | iterate (tape tape' : Tape) (incoming : Option (Bytes × SocketAddr)) (dead : List ActorId) :
    Made (.iterate tape incoming) ([.forward, .probe tape]
      ++ (dead.map fun a => .operation (.handleNodeFailure a))
      ++ incoming.toList.map fun d => .datagram tape' d.1 d.2)
  | operate (op : Operation) : Made (.operate op) [.operation op]
  | broadcast (update : Update) : Made (.broadcast update) [.broadcast update]
  | seed (tape : Tape) (a : ActorId) (addr : SocketAddr) : Made
    (.seed tape a addr) [.seed tape a addr]

namespace SwimProtocol

variable {s s' : SwimProtocol}

def takeTurn (s : SwimProtocol) : Turn → Option SwimProtocol
  | .iterate tape incoming => (iteration false incoming { s with tape }).toOption.map Prod.snd
  | .operate op => step s (.operation op)
  | .broadcast update => step s (.broadcast update)
  | .seed tape a addr => step s (.seed tape a addr)

theorem step_forward (s : SwimProtocol) : step s .forward = some s.forwarded := by
  have hforward : Ensures (fun _ => False) (react .forward) s fun _ s' => s' = s.forwarded := by
    simp only [react, ensures_bind]
    exact ensures_forwardUpdates
  unfold step
  cases hreact : react .forward s with
  | error e => exact absurd (hforward.of_error hreact) id
  | ok r => exact congrArg some (hforward.of_ok hreact)

theorem step_eq_some {e : Event} {r : List ActorId} (h : react e s = .ok (r, s')) :
    step s e = some s' := by
  rw [step, h]
  rfl

theorem react_probe {r : Except GossipError (List ActorId)} {tape : Tape}
    (h : runProbeCycle { s with tape } = .ok (r, s')) :
    react (.probe tape) s = .ok (r.toOption.getD [], s') := by
  have hload : loadTape tape s = .ok ((), { s with tape }) := rfl
  rw [react, bind_of_ok hload, bind_of_ok h]
  cases r with
  | error e => rfl
  | ok dead => rfl

theorem step_of_handleDatagram {data : Bytes} {source : SocketAddr} {r : Except GossipError Unit}
    (h : handleDatagram data source s = .ok (r, s')) :
    step s (.datagram s.tape data source) = some s' := by
  have hload : loadTape s.tape s = .ok ((), s) := rfl
  refine step_eq_some (r := []) ?_
  rw [react, bind_of_ok hload, bind_of_ok h]
  rfl

theorem step_of_onShared {op : Operation} {u : Unit} (h : onShared op.run s = .ok (u, s')) :
    step s (.operation op) = some s' := by
  refine step_eq_some (r := []) ?_
  rw [react, bind_of_ok h]
  rfl

theorem ensures_failures (dead : List ActorId) : Ensures (fun _ => True)
    (each (fun a => onShared (Operation.run (.handleNodeFailure a))) dead) s fun _ s' =>
      run step s (dead.map fun a => .operation (.handleNodeFailure a)) = some s' := by
  induction dead generalizing s with
  | nil => rfl
  | cons a dead ih =>
    rw [each, ensures_bind]
    refine (ensures_ok _ s).mono fun _ t ht => ih.mono fun _ s' hs' => ?_
    rw [map_cons, run, step_of_onShared ht, bind_some, hs']

theorem ensures_recvLoopIteration (incoming : Option (Bytes × SocketAddr)) :
    Ensures (fun _ => True) (recvLoopIteration incoming) s fun _ s' =>
      run step s (incoming.toList.map fun d => .datagram s.tape d.1 d.2) = some s' := by
  cases incoming with
  | none => rfl
  | some d =>
    simp only [recvLoopIteration, ensures_bind, ensures_assert]
    split_ifs
    · refine (ensures_ok _ s).mono fun r s' hs' => ?_
      have hrun : run step s [.datagram s.tape d.1 d.2] = some s' :=
        run_one (step_of_handleDatagram hs')
      rcases r with (_ | _ | _ | _) | _ <;> exact hrun

/-- What a turn of the gossip thread does: it reports each peer that its probe cycle found dead to
the state. -/
def iterationEvents (s : SwimProtocol) (tape tape' : Tape)
    (incoming : Option (Bytes × SocketAddr)) : List Event :=
  [.forward, .probe tape]
    ++ ((s.forwarded.reported (.probe tape)).map fun a => .operation (.handleNodeFailure a))
    ++ incoming.toList.map fun d => .datagram tape' d.1 d.2

theorem ensures_iteration (tape : Tape) (incoming : Option (Bytes × SocketAddr)) :
    Ensures (fun _ => True) (iteration false incoming) { s with tape } fun _ s' =>
      ∃ tape', run step s (s.iterationEvents tape tape' incoming) = some s' := by
  unfold iteration
  rw [if_neg Bool.false_ne_true, ensures_bind]
  refine ensures_forwardUpdates.mono ?_
  rintro _ _ rfl
  have hforward : forwarded { s with tape } = { s.forwarded with tape } := by
    cases hs : s.shared with
    | none => simp [forwarded, hs]
    | some shared => simp [forwarded, hs]
  rw [ensures_bind, hforward]
  refine (ensures_ok _ _).mono fun r t hprobe => ?_
  have hreact := react_probe hprobe
  have hreported : s.forwarded.reported (.probe tape) = r.toOption.getD [] := by
    rw [reported, hreact]
    rfl
  have hprobe : run step s [.forward, .probe tape] = some t := by
    rw [run, step_forward, bind_some, run, step_eq_some hreact, bind_some, run]
  have hrest : ∀ t',
      run step t ((r.toOption.getD []).map fun a => .operation (.handleNodeFailure a)) = some t' →
      Ensures (fun _ => True) (recvLoopIteration incoming >>= fun _ => pure true) t' fun _ s' =>
        ∃ tape', run step s (s.iterationEvents tape tape' incoming) = some s' := by
    intro t' ht'
    rw [ensures_bind]
    refine (ensures_recvLoopIteration incoming).mono fun _ s' hs' => ⟨t'.tape, ?_⟩
    rw [iterationEvents, hreported]
    exact run_append (run_append hprobe ht') hs'
  cases r with
  | error e => exact hrest t rfl
  | ok dead =>
    dsimp only
    rw [ensures_bind]
    exact (ensures_failures dead).mono fun _ => hrest

theorem takeTurn_iterate {tape : Tape} {incoming : Option (Bytes × SocketAddr)}
    (h : s.takeTurn (.iterate tape incoming) = some s') :
    ∃ tape', run step s (s.iterationEvents tape tape' incoming) = some s' := by
  rw [takeTurn] at h
  cases hres : iteration false incoming { s with tape } with
  | error e => simp [hres, Except.toOption] at h
  | ok r =>
    rw [hres] at h
    cases h
    exact (ensures_iteration tape incoming).of_ok hres

theorem takeTurn_run {turn : Turn} (h : s.takeTurn turn = some s') :
    ∃ es, turn.Made es ∧ run step s es = some s' := by
  cases turn with
  | iterate tape incoming =>
    obtain ⟨tape', hrun⟩ := takeTurn_iterate h
    exact ⟨_, .iterate tape tape' incoming _, hrun⟩
  | operate op => exact ⟨_, .operate op, run_one h⟩
  | broadcast update => exact ⟨_, .broadcast update, run_one h⟩
  | seed tape a addr => exact ⟨_, .seed tape a addr, run_one h⟩

end SwimProtocol

abbrev Cluster := List SwimProtocol

structure Action where
  node : Nat
  turn : Turn

namespace Cluster

def sentTo (cl : Cluster) (s : SwimProtocol) (d : Bytes × SocketAddr) : Bool :=
  cl.any fun sender => sender.localAddr = d.2
    && sender.outbox.any fun m => m.taken && m.dest = s.localAddr && m.msg.layout = d.1

/-- A datagram may arrive late, more than once or not at all, but no other than one that was
sent. -/
def act (cl : Cluster) (a : Action) : Option Cluster :=
  (cl[a.node]?).bind fun s =>
    if a.turn.incoming.all (cl.sentTo s) then (s.takeTurn a.turn).map (cl.set a.node) else none

variable {cl cl' : Cluster} {a : Action} {as : List Action}

theorem act_eq_some (h : act cl a = some cl') : ∃ s s', cl[a.node]? = some s ∧
    s.takeTurn a.turn = some s' ∧ cl' = cl.set a.node s' := by
  obtain ⟨s, hs, h⟩ := bind_eq_some_iff.1 h
  split_ifs at h
  obtain ⟨s', hs', rfl⟩ := map_eq_some_iff.1 h
  exact ⟨s, s', hs, hs', rfl⟩

theorem run_length (h : run act cl as = some cl') : cl'.length = cl.length := by
  induction as generalizing cl with
  | nil =>
    cases h
    rfl
  | cons a as ih =>
    obtain ⟨cl₁, hact, hrun⟩ := bind_eq_some_iff.1 h
    obtain ⟨s, s', -, -, rfl⟩ := act_eq_some hact
    rw [ih hrun, length_set]

def AllLive (cl : Cluster) : Prop := ∀ s ∈ cl, ∃ me, SwimProtocol.Live me s

theorem allLive_of_starts (h : ∀ s ∈ cl, ∃ me, SwimProtocol.Starts me s) : AllLive cl := by
  intro s hs
  obtain ⟨me, hstart⟩ := h s hs
  exact ⟨me, hstart.live⟩

theorem act_allLive (h : AllLive cl) (hact : act cl a = some cl') : AllLive cl' := by
  obtain ⟨s, s', hs, hturn, rfl⟩ := act_eq_some hact
  obtain ⟨es, -, hrun⟩ := SwimProtocol.takeTurn_run hturn
  obtain ⟨me, hlive⟩ := h s (mem_of_getElem? hs)
  intro t ht
  rcases mem_or_eq_of_mem_set ht with ht | rfl
  · exact h t ht
  · exact ⟨me, SwimProtocol.run_live hlive hrun⟩

theorem run_allLive (h : AllLive cl) (hrun : run act cl as = some cl') : AllLive cl' :=
  run_preserves (fun _ _ _ => act_allLive) h hrun

def Causes (i : Nat) (a : Action) (e : Event) : Prop :=
  a.node = i ∧ ∃ es, a.turn.Made es ∧ e ∈ es

theorem run_node (h : run act cl as = some cl') {i : Nat} {s : SwimProtocol}
    (hs : cl[i]? = some s) :
    ∃ s' es, cl'[i]? = some s' ∧ run SwimProtocol.step s es = some s' ∧
      ∀ e ∈ es, ∃ a ∈ as, Causes i a e := by
  induction as generalizing cl s with
  | nil =>
    cases h
    exact ⟨s, [], hs, rfl, nofun⟩
  | cons a as ih =>
    obtain ⟨cl₁, hact, hrun⟩ := bind_eq_some_iff.1 h
    obtain ⟨t, t', ht, hturn, rfl⟩ := act_eq_some hact
    obtain ⟨es₁, hmade, hrun₁⟩ := SwimProtocol.takeTurn_run hturn
    by_cases hi : a.node = i
    · subst hi
      obtain rfl : t = s := Option.some.inj (ht.symm.trans hs)
      have hset : (cl.set a.node t')[a.node]? = some t' := by
        rw [List.getElem?_set_self (List.getElem?_eq_some_iff.1 ht).1]
      obtain ⟨s', es, hs', hrun', hes⟩ := ih hrun hset
      refine ⟨s', es₁ ++ es, hs', run_append hrun₁ hrun', fun e he => ?_⟩
      rcases mem_append.1 he with he | he
      · exact ⟨a, mem_cons_self, rfl, es₁, hmade, he⟩
      · obtain ⟨b, hb, hcause⟩ := hes e he
        exact ⟨b, mem_cons_of_mem a hb, hcause⟩
    · have hset : (cl.set a.node t')[i]? = some s := by rw [getElem?_set_ne hi, hs]
      obtain ⟨s', es, hs', hrun', hes⟩ := ih hrun hset
      refine ⟨s', es, hs', hrun', fun e he => ?_⟩
      obtain ⟨b, hb, hcause⟩ := hes e he
      exact ⟨b, mem_cons_of_mem a hb, hcause⟩

theorem live_of_run (h : run act cl as = some cl') {i : Nat} {s s' : SwimProtocol} {me : ActorId}
    (hs : cl[i]? = some s) (hstart : SwimProtocol.Starts me s) (hs' : cl'[i]? = some s') :
    SwimProtocol.Live me s' := by
  obtain ⟨t, es, ht, hrun, -⟩ := run_node h hs
  cases Option.some.inj (hs'.symm.trans ht)
  exact SwimProtocol.run_live hstart.live hrun

section Pair

open SwimProtocol

def nodeB : SwimProtocol :=
  ({ localActor := 2, membership := .new 2, localAddr := hostB, config := {} } :
    SwimProtocol).withState
    (.new (.new 2))

theorem starts_nodeB : Starts 2 nodeB := ⟨hostB, {}, _, rfl, .inr ⟨_, rfl, rfl⟩⟩

theorem starts_pair : ∀ s ∈ [stateNode, nodeB], ∃ me, Starts me s := by
  rintro s (_ | ⟨_, _ | ⟨_, ⟨⟩⟩⟩)
  · exact ⟨1, starts_stateNode⟩
  · exact ⟨2, starts_nodeB⟩

end Pair
end Cluster
end NexusSfu.Swim
