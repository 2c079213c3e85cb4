import NexusSfu.Dataplane.Shard.Safety

namespace NexusSfu.Dataplane

open Base Prog Srtp Option List

namespace Shard

def Action.outer : Action → Bool
  | .iterate _ | .push _ => true
  | _ => false

def Action.parts : Action → List Action
  | .iterate now => .receive :: (List.replicate recvBatch (.next now) ++ .switches now :: .flush ::
      (List.replicate commandBudget (.command now) ++ [.flush, .retry, .sweep now]))
  | op => [op]

variable {ι ε : Type} [DatagramIo ι] [EventSink ε] {s s' : Shard ι ε} {now n : Nat}

section Parts

theorem act_step (op : Action) {u : Unit} (h : act op s = some (u, s')) : step s op = some s' := by
  rw [step, h]
  rfl

theorem run_idle {op : Action} (h : step s op = some s) (n : Nat) :
    run step s (.replicate n op) = some s := by
  induction n with
  | zero => rfl
  | succ n ih => rw [replicate_succ, run, h, bind_some, ih]

theorem next_idle (h : s.net.rx = []) : step s (.next now) = some s := by
  have hidle : Ends (act (.next now)) s fun _ s' => s' = s := by
    refine ends_bind.2 (ends_zoom.2 ?_)
    rw [Net.nextReceived, ends_bind, ends_get, h]
    exact ends_pure.2 (ends_pure.2 rfl)
  obtain ⟨_, _, hact, rfl⟩ := hidle
  exact act_step _ hact

theorem each_runs (op : Action) {α : Type} (l : List α) (s : Shard ι ε) :
    Allows (each (fun _ => act op) l) s fun _ s' => run step s (.replicate l.length op) =
      some s' := by
  induction l generalizing s with
  | nil => exact allows_pure.2 rfl
  | cons a l ih =>
    refine allows_bind.2 fun _ s₁ h₁ => (ih s₁).mono fun _ s₂ h₂ => ?_
    rw [length_cons, replicate_succ, run, act_step op h₁, bind_some, h₂]

theorem nextCommand_false (now : Nat) (s : Shard ι ε) :
    Allows (nextCommand now) s fun more s' => more = false → s' = s := by
  simp only [nextCommand, allows_bind, allows_get]
  cases s.commands with
  | nil => exact allows_pure.2 fun _ => rfl
  | cons c rest =>
    refine allows_bind.2 (allows_set.2 (allows_bind.2 fun _ s' _ => allows_pure.2 ?_))
    simp

theorem drainCommands_runs (now budget : Nat) (s : Shard ι ε) :
    Allows (drainCommands now budget) s fun _ s' => run step s (.replicate budget (.command now)) =
      some s' := by
  induction budget generalizing s with
  | zero => exact allows_pure.2 rfl
  | succ budget ih =>
    rw [drainCommands, allows_bind]
    intro more s₁ h₁
    have hstep : step s (.command now) = some s₁ := by
      change ((nextCommand now s).bind _).map _ = _
      rw [h₁]
      rfl
    cases more with
    | false =>
      cases nextCommand_false now s _ _ h₁ rfl
      exact allows_pure.2 (run_idle hstep _)
    | true =>
      refine allows_bind.2 ((ih s₁).mono fun _ s₂ h₂ => allows_pure.2 ?_)
      rw [replicate_succ, run, hstep, bind_some, h₂]

variable [LawfulIo ι]

theorem step_inv (h : s.Inv []) {op : Action} (hstep : step s op = some s') :
    s'.Inv [] ∧ s.KeepsCapacity s' := by
  obtain ⟨_, t, hact, ht⟩ := act_spec h op
  cases hstep.symm.trans (act_step _ hact)
  exact ht

theorem run_inv (h : s.Inv []) {ops : List Action} (hrun : run step s ops = some s') :
    s'.Inv [] ∧ s.KeepsCapacity s' := by
  refine run_preserves (I := fun t : Shard ι ε => t.Inv [] ∧ s.KeepsCapacity t) ?_
    ⟨h, rfl, rfl⟩ hrun
  rintro t op t' ⟨ht, hsame⟩ hstep
  obtain ⟨ht', hsame'⟩ := step_inv ht hstep
  exact ⟨ht', hsame'.config.trans hsame.config, hsame'.capacity.trans hsame.capacity⟩

theorem next_rx (h : s.Inv []) (hstep : step s (.next now) = some s') :
    s'.net.rx = s.net.rx.tail := by
  obtain ⟨_, t, hact, -, -, hrx⟩ := handleNext_spec h now
  cases hstep.symm.trans (act_step (.next now) hact)
  exact hrx

theorem nexts_rx (h : s.Inv []) (hrun : run step s (.replicate n (.next now)) = some s') :
    s'.net.rx = s.net.rx.drop n := by
  induction n generalizing s with
  | zero =>
    cases hrun
    rfl
  | succ n ih =>
    obtain ⟨t, hstep, hrun⟩ := bind_eq_some_iff.1 hrun
    rw [ih (step_inv h hstep).1 hrun, next_rx h hstep, drop_tail]

theorem batch_runs (h : s.Inv []) (now : Nat) :
    Allows (each (fun _ => handleNext now) (List.range s.net.rx.length)) s fun _ s' =>
      run step s (.replicate recvBatch (.next now)) = some s' := by
  refine (each_runs (.next now) _ s).mono fun _ s' hrun => ?_
  rw [length_range] at hrun
  have hrx : s'.net.rx = [] := by rw [nexts_rx h hrun, drop_length]
  rw [← Nat.add_sub_of_le h.sound.net.rx_le, replicate_add]
  exact run_append hrun (run_idle (next_idle hrx) _)

theorem iterate_runs (h : s.Inv []) (hrx : s.net.rx = []) (now : Nat) :
    Allows (act (.iterate now)) s fun _ s' => run step s (Action.parts (.iterate now)) =
      some s' := by
  have hempty : s.net.rx.isEmpty = true := by simp [hrx]
  refine allows_bind.2 (allows_get.2 (allows_ite.2 ⟨fun _ => ?_, fun hne => absurd hempty hne⟩))
  refine allows_bind.2 (allows_bind.2 fun received s₁ hreceive => ?_)
  have h₁ : step s .receive = some s₁ := by
    change ((if s.net.rx.isEmpty then (do let _ ← receive)
      else (pure () : Prog (Shard ι ε) Unit)) s).map _ = _
    rw [if_pos hempty]
    change ((receive s).bind _).map _ = _
    rw [hreceive]
    rfl
  have hinv₁ := (step_inv h h₁).1
  refine allows_bind.2
    (allows_get.2 (allows_bind.2 ((batch_runs hinv₁ now).mono fun _ s₂ h₂ => ?_)))
  refine allows_bind.2 fun _ s₃ h₃ => allows_bind.2 fun _ s₄ h₄ => ?_
  refine allows_bind.2 ((drainCommands_runs now commandBudget s₄).mono fun _ s₅ h₅ => ?_)
  refine allows_bind.2 fun _ s₆ h₆ => allows_bind.2 fun _ s₇ h₇ =>
    allows_bind.2 fun _ s₈ h₈ => ?_
  refine allows_bind.2
    (allows_get.2 (allows_bind.2 (allows_assert.2 fun _ => allows_pure.2 (allows_pure.2 ?_))))
  rw [Action.parts, run, h₁, bind_some]
  refine run_append h₂ ?_
  rw [run, act_step (.switches now) h₃, bind_some, run, act_step .flush h₄, bind_some]
  refine run_append h₅ ?_
  rw [run, act_step .flush h₆, bind_some, run, act_step .retry h₇, bind_some]
  exact run_one (act_step (.sweep now) h₈)

end Parts

section Room

def Roomy (s : Shard ι ε) : Prop := s.net.rx.length + s.net.tx.length < recvBatch + sendBatch

def Spare (s : Shard ι ε) : Action → Prop
  | .next _ => s.Roomy
  | _ => True

theorem receive_tx (s : Shard ι ε) :
    Allows (act .receive) s fun _ s' => s'.net.tx = s.net.tx := by
  simp only [act, receive, count, addTo, allows_bind, allows_get, allows_ite,
    allows_modify, allows_pure]
  refine ⟨fun _ => allows_zoom.2 ?_, fun _ => trivial⟩
  simp only [Net.receive, allows_bind, allows_get, allows_expect, allows_set, allows_pure]
  rintro ⟨result, io, rx, pool⟩ _
  cases result with
  | ok r =>
    simp only [allows_bind, allows_get, allows_assert, allows_modify, allows_pure]
    exact fun _ => trivial
  | error e =>
    simp only [allows_bind, allows_get, allows_assert, allows_modify, allows_pure]
    exact fun _ => trivial

variable [LawfulIo ι]

theorem nexts_spare (h : s.Inv []) (hroom : s.Roomy) (now n : Nat) :
    Permitted Spare step s (.replicate n (.next now)) := by
  induction n generalizing s with
  | zero => trivial
  | succ n ih =>
    refine ⟨hroom, fun s' hstep => ih (step_inv h hstep).1 ?_⟩
    have hrx := next_rx h hstep
    cases hs : s.net.rx with
    | nil =>
      cases (next_idle hs).symm.trans hstep
      exact hroom
    | cons d rx =>
      have hle := h.sound.net.rx_le
      have htx := (step_inv h hstep).1.sound.net.tx_le
      rw [hs, length_cons] at hle
      rw [hs, tail_cons] at hrx
      rw [Roomy, hrx]
      omega

structure Rested (s : Shard ι ε) : Prop where
  inv : s.Inv []
  rx : s.net.rx = []
  tx : s.net.tx = []

theorem Rested.parts_spare (h : s.Rested) {a : Action} (ha : a.outer) :
    Permitted Spare step s a.parts := by
  have htrivial : ∀ (l : List Action) (s : Shard ι ε),
      (∀ op ∈ l, ∀ now, op ≠ .next now) → Permitted Spare step s l := by
    intro l
    induction l with
    | nil => exact fun _ _ => trivial
    | cons op l ih =>
      intro s hl
      refine ⟨?_, fun s' _ => ih s' fun op' hop' => hl op' (mem_cons_of_mem _ hop')⟩
      cases op with
      | next now => exact absurd rfl (hl _ mem_cons_self now)
      | _ => trivial
  cases a with
  | iterate now =>
    refine ⟨trivial, fun s₁ h₁ => ?_⟩
    have hinv₁ := (step_inv h.inv h₁).1
    have hroom : s₁.Roomy := by
      obtain ⟨⟨_, _⟩, hact, rfl⟩ := map_eq_some_iff.1 h₁
      have htx := receive_tx s _ _ hact
      have hrx := hinv₁.sound.net.rx_le
      rw [h.tx] at htx
      rw [Roomy, htx]
      exact Nat.lt_of_le_of_lt hrx (by decide)
    refine (nexts_spare hinv₁ hroom now recvBatch).append fun s₂ _ => htrivial _ s₂ ?_
    intro op hop
    simp only [mem_cons, mem_append, mem_replicate, not_mem_nil, or_false] at hop
    rcases hop with rfl | rfl | ⟨-, rfl⟩ | rfl | rfl | rfl <;> exact nofun
  | push c => exact ⟨trivial, fun _ _ => trivial⟩
  | _ => cases ha

theorem Rested.outer_runs (h : s.Rested) {a : Action} (ha : a.outer) :
    ∃ s', step s a = some s' ∧ run step s a.parts = some s' ∧ s'.Rested ∧
      s.KeepsCapacity s' := by
  cases a with
  | iterate now =>
    obtain ⟨_, s', hiterate, hinv, hsame, hrx, htx⟩ := iterate_spec h.inv h.rx now
    have hact : act (.iterate now) s = some ((), s') := by
      change ((if s.net.rx.isEmpty then (do let _ ← iterate now)
        else (pure () : Prog (Shard ι ε) Unit)) s) = _
      rw [if_pos (by simp [h.rx])]
      change (iterate now s).bind _ = _
      rw [hiterate]
      rfl
    exact ⟨s', act_step _ hact, iterate_runs h.inv h.rx now _ _ hact,
      ⟨hinv, hrx, htx⟩, hsame⟩
  | push c =>
    obtain ⟨_, s', hpush, hinv, hidle⟩ := pushCommand_spec h.inv c
    have hstep : step s (.push c) = some s' := by
      change ((pushCommand c s).bind _).map _ = _
      rw [hpush]
      rfl
    refine ⟨s', hstep, run_one hstep, ⟨hinv, ?_, ?_⟩, hidle.keepsRx.keepsCapacity⟩
    · rw [hidle.net, h.rx]
    · rw [hidle.net, h.tx]
  | _ => cases ha

theorem Rested.run_parts (h : s.Rested) {acts : List Action} (hacts : ∀ a ∈ acts, a.outer) :
    ∃ s', run step s acts = some s' ∧ run step s (acts.flatMap Action.parts) = some s' ∧
      s'.Rested ∧ s.KeepsCapacity s' ∧ Permitted Spare step s (acts.flatMap Action.parts) := by
  induction acts generalizing s with
  | nil => exact ⟨s, rfl, rfl, h, ⟨rfl, rfl⟩, trivial⟩
  | cons a acts ih =>
    obtain ⟨s₁, hstep, hparts, h₁, hsame₁⟩ := h.outer_runs (hacts a mem_cons_self)
    obtain ⟨s₂, hrun, hruns, h₂, hsame₂, hspare⟩ :=
      ih h₁ fun b hb => hacts b (mem_cons_of_mem _ hb)
    refine ⟨s₂, by rw [run, hstep, bind_some, hrun], run_append hparts hruns, h₂, ?_, ?_⟩
    · exact ⟨hsame₂.config.trans hsame₁.config, hsame₂.capacity.trans hsame₁.capacity⟩
    · refine (h.parts_spare (hacts a mem_cons_self)).append fun t ht => ?_
      cases hparts.symm.trans ht
      exact hspare

end Room
end Shard
end NexusSfu.Dataplane
