import NexusSfu.Swim.Runs

namespace NexusSfu.Swim

open Base State Checked List Option
open Dataplane (SocketAddr)

def Event.sends : Event → List SendResult
  | .datagram tape _ _ | .probe tape | .seed tape _ _ => tape.sends
  | .operation _ | .broadcast _ | .forward | .drainRelayEvents => []

inductive Shift
  | carried (sent : Sent)
  | queued (update : Update)
  | evicted (update : Update)

namespace Shift

def apply (queue : List Update) : Shift → Option (List Update)
  | carried sent =>
    if sent.msg.updates = queue.take sent.msg.updates.length then
      some (queue.drop sent.msg.updates.length)
    else none
  | queued update => some (queue ++ [update])
  | evicted update =>
    if queue.length = maxPiggybackQueueSize then some (queue.tail ++ [update]) else none

def sent? : Shift → Option Sent
  | carried sent => some sent
  | queued _ | evicted _ => none

end Shift

namespace SwimProtocol

/-- From `s` to `s'` the queue changes as its messages go out, and those with updates are taken by
the socket: every update that left is in one of them, or was the oldest of a full queue. -/
def Accounted (s s' : SwimProtocol) : Prop :=
  ∃ shifts, run Shift.apply s.piggybackQueue shifts = some s'.piggybackQueue ∧
    s'.outbox = s.outbox ++ shifts.filterMap Shift.sent? ∧
    ∀ m ∈ shifts.filterMap Shift.sent?, m.msg.updates ≠ [] → m.taken = true

variable {me : ActorId} {news : News} {s t s' : SwimProtocol} {e : Event} {r : List ActorId}
  {us : List Update}
  {queue queue' : List Update}

theorem Accounted.of_eq (hqueue : s'.piggybackQueue = s.piggybackQueue)
    (hout : s'.outbox = s.outbox) :
    Accounted s s' :=
  ⟨[], by rw [hqueue, run], by simp [hout], nofun⟩

theorem Accounted.trans (h : Accounted s t) (h' : Accounted t s') : Accounted s s' := by
  obtain ⟨shifts, hrun, hout, htaken⟩ := h
  obtain ⟨shifts', hrun', hout', htaken'⟩ := h'
  refine ⟨shifts ++ shifts', run_append hrun hrun', ?_, ?_⟩
  · rw [hout', hout, filterMap_append, append_assoc]
  · rw [filterMap_append]
    exact forall_mem_append.2 ⟨htaken, htaken'⟩

theorem Accounted.of_arrivals {shifts : List Shift} (hnone : shifts.filterMap Shift.sent? = [])
    (hrun : run Shift.apply s.piggybackQueue shifts = some s'.piggybackQueue)
    (hout : s'.outbox = s.outbox) :
    Accounted s s' :=
  ⟨shifts, hrun, by rw [hnone, append_nil, hout], by rw [hnone]; nofun⟩

section Sends

def Clear (tape : Tape) : Prop := ∀ r ∈ tape.sends, r = SendResult.sent

theorem Clear.tail {tape : Tape} (h : Clear tape) : Clear { tape with sends := tape.sends.tail } :=
  fun r hr => h r (mem_of_mem_tail hr)

theorem Clear.head {tape : Tape} (h : Clear tape) : tape.sends.headD .sent = .sent := by
  cases hsends : tape.sends with
  | nil => rfl
  | cons r rs => exact h r (hsends ▸ mem_cons_self)

theorem Step.accounted (hstep : Step news s s') (h : Clear s.tape) :
    Accounted s s' ∧ Clear s'.tape := by
  cases hstep with
  | idle tape _ _ _ hsends => exact ⟨.of_eq rfl rfl, fun r hr => h r (hsends ▸ hr)⟩
  | register | mark | touch | bump | indirect => exact ⟨.of_eq rfl rfl, h⟩
  | send msg dest k hmsg =>
    refine ⟨⟨[.carried ⟨msg, dest, s.tape.sends.headD .sent = .sent⟩], ?_, rfl, ?_⟩,
      h.tail⟩
    · have htake : msg.updates = s.piggybackQueue.take msg.updates.length := by
        rw [hmsg, length_take, take_eq_take_min]
      have hdrop : s.piggybackQueue.drop msg.updates.length = s.piggybackQueue.drop k := by
        rw [hmsg, length_take, ← drop_eq_drop_min]
      rw [run, Shift.apply, if_pos htake, bind_some, run, hdrop]
    · rintro m hm -
      obtain rfl := mem_singleton.1 hm
      exact decide_eq_true h.head

theorem Path.accounted (hpath : Path news s s') (h : Clear s.tape) :
    Accounted s s' ∧ Clear s'.tape := by
  induction hpath with
  | refl => exact ⟨.of_eq rfl rfl, h⟩
  | tail _ hstep ih =>
    obtain ⟨hacc, hclear⟩ := ih
    obtain ⟨hacc', hclear'⟩ := hstep.accounted hclear
    exact ⟨hacc.trans hacc', hclear'⟩

end Sends

section Arrivals

def Arrives (queue queue' : List Update) : Prop :=
  ∃ shifts, shifts.filterMap Shift.sent? = [] ∧ run Shift.apply queue shifts = some queue'

theorem Arrives.refl (queue : List Update) : Arrives queue queue := ⟨[], rfl, rfl⟩

theorem Arrives.trans {queue'' : List Update} (h : Arrives queue queue')
    (h' : Arrives queue' queue'') :
    Arrives queue queue'' := by
  obtain ⟨shifts, hnone, hrun⟩ := h
  obtain ⟨shifts', hnone', hrun'⟩ := h'
  exact ⟨shifts ++ shifts', by rw [filterMap_append, hnone, hnone', append_nil],
    run_append hrun hrun'⟩

theorem arrives_requeued (queue us : List Update) : Arrives queue (us.foldl requeued queue) := by
  induction us generalizing queue with
  | nil => exact .refl queue
  | cons u us ih =>
    refine Arrives.trans ?_ (ih (requeued queue u))
    unfold requeued
    split_ifs
    · exact ⟨[.queued u], rfl, rfl⟩
    · exact .refl queue

theorem arrives_enqueued (h : queue.length ≤ maxPiggybackQueueSize) (u : Update) :
    Arrives queue (enqueued queue u) := by
  rw [enqueued, newest, length_append, length_singleton]
  rcases h.lt_or_eq with hlt | heq
  · rw [Nat.sub_eq_zero_of_le hlt, drop_zero]
    exact ⟨[.queued u], rfl, rfl⟩
  · have htail : (queue ++ [u]).drop 1 = queue.tail ++ [u] := by
      rw [drop_one, tail_append_of_ne_nil (ne_nil_of_length_pos (heq ▸ Nat.succ_pos _))]
    rw [heq, Nat.add_sub_cancel_left, htail]
    exact ⟨[.evicted u], rfl, by rw [run, Shift.apply, if_pos heq, bind_some, run]⟩

theorem arrives_foldl_enqueued (h : queue.length ≤ maxPiggybackQueueSize) (us : List Update) :
    Arrives queue (us.foldl enqueued queue) := by
  induction us generalizing queue with
  | nil => exact .refl queue
  | cons u us ih => exact (arrives_enqueued h u).trans (ih (length_enqueued_le queue u))

theorem Arrives.accounted (h : Arrives s.piggybackQueue s'.piggybackQueue)
    (hout : s'.outbox = s.outbox) :
    Accounted s s' := by
  obtain ⟨shifts, hnone, hrun⟩ := h
  exact .of_arrivals hnone hrun hout

theorem accounted_received (us : List Update) : Accounted s (s.received us) :=
  (arrives_requeued s.piggybackQueue us).accounted rfl

theorem accounted_forwarded (h : s.piggybackQueue.length ≤ maxPiggybackQueueSize) :
    Accounted s s.forwarded := by
  unfold forwarded
  cases s.shared with
  | none => exact .of_eq rfl rfl
  | some shared => exact (arrives_foldl_enqueued h _).accounted rfl

end Arrivals

theorem Handles.accounted (h : Handles news us s s') (hclear : Clear s.tape) : Accounted s s' := by
  obtain ⟨t, hpath, -, hpath'⟩ := h
  obtain ⟨hacc, ht⟩ := hpath.accounted hclear
  exact hacc.trans ((accounted_received us).trans (hpath'.accounted ht).1)

theorem Probes.accounted {result : Except GossipError (List ActorId)} (h : Probes result s s')
    (hclear : Clear s.tape) : Accounted s s' := by
  obtain ⟨t, hpath, hres⟩ := h
  obtain ⟨hacc, ht⟩ := hpath.accounted hclear
  cases result with
  | error e => exact hres ▸ hacc
  | ok dead =>
    obtain ⟨now, -, hpath'⟩ := hres
    exact hacc.trans (.trans (.of_eq rfl rfl) (hpath'.accounted (s := t.expire now) ht).1)

theorem Accounted.of_tape {tape : Tape} (h : Accounted { s with tape } s') : Accounted s s' := h

theorem Effect.accounted (h : Effect s e r s') (hs : Live me s)
    (hsends : ∀ r ∈ e.sends, r = .sent) :
    Accounted s s' := by
  cases h with
  | datagram tape data source _ h =>
    unfold Takes at h
    cases hdata : accepted data with
    | none =>
      rw [hdata] at h
      exact h ▸ .of_eq rfl rfl
    | some msg =>
      rw [hdata] at h
      exact (Handles.accounted h hsends).of_tape
  | probe tape result _ h => exact (h.accounted hsends).of_tape
  | seed tape a addr _ h => exact (Path.accounted h hsends).1.of_tape
  | operation | drainRelayEvents => exact .of_eq rfl rfl
  | broadcast update => exact (arrives_enqueued hs.queue update).accounted rfl
  | forward => exact accounted_forwarded hs.queue

def probed (sends : List SendResult) : List Event :=
  [arrives (.ping 2 1 []) hostB, .broadcast (.relaySubscribe 1 1),
    .probe { times := [20000000000, 20000000000], sends }]

end SwimProtocol
end NexusSfu.Swim
