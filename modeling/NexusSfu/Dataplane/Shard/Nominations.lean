import NexusSfu.Dataplane.Shard.Authenticated
import NexusSfu.Dataplane.Shard.Laps
import NexusSfu.Dataplane.Shard.Selection

namespace NexusSfu.Dataplane

open Base Prog Srtp List Option

namespace Shard

variable {ι ε : Type} {s s' : Shard ι ε} {op : Action} {k : Key} {a : SocketAddr} {now : Nat}

section Steps

theorem Moved.lists (h : s.Moved op s') (hs : s.book.Lists) : s'.book.Lists := by
  cases h with
  | keeps _ _ h => exact h.lists hs
  | heeds _ h => exact h.lists hs
  | applies h _ => exact h.lists hs

theorem Moved.course (h : s.Moved op s') : ∃ l, s.book.Course l s'.book ∧
    ∀ x ∈ l, op = .next x.time ∨ op = .switches x.time := by
  cases h with
  | keeps _ _ h => exact ⟨[], .rest h.rests (.done _), nofun⟩
  | heeds _ h =>
    obtain ⟨l, hl, htime⟩ := h.course
    exact ⟨l, hl, fun x hx => .inl (by rw [htime x hx])⟩
  | applies h _ =>
    obtain ⟨l, hl, htime⟩ := h.course
    exact ⟨l, hl, fun x hx => .inr (by rw [htime x hx])⟩

theorem Moved.book_keeps (h : s.Moved op s') (hnext : ∀ now, op ≠ .next now)
    (hswitches : ∀ now, op ≠ .switches now) :
    s.book.Keeps s'.book := by
  cases h with
  | keeps _ _ h => exact h
  | heeds _ _ => exact absurd rfl (hnext _)
  | applies _ _ => exact absurd rfl (hswitches _)

theorem Moved.allWait (h : s.Moved (.switches now) s') (hlists : s'.book.Lists)
    (hlinked : s'.tables.Linked) :
    s'.book.AllWait now := by
  cases h with
  | keeps hne _ _ => exact absurd rfl (hne now)
  | applies _ hleft =>
    intro k c a hc ha
    obtain ⟨r, hr, rfl⟩ := Tables.book_eq_some.1 hc
    have hmem : k ∈ s'.tables.pendingSwitches := by
      rw [hlinked.switches k, project_apply, hr]
      exact congrArg some (hlists k _ a hc ha)
    obtain ⟨d, -, hd, -, hrecent⟩ := hleft k hmem
    cases hc.symm.trans hd
    exact hrecent

theorem book_apart {held : List Nat} [EventSink ε] (h : s.Inv held) : s.book.Apart := by
  intro k c a hc ha
  obtain ⟨r, hr, rfl⟩ := Tables.book_eq_some.1 hc
  exact (h.sound.tables.wellFormed k r hr).nomination_ne a ha

theorem Moved.holds (h : s.Moved op s') (hheard : s.heard op = some (k, a, true))
    (hfree : s.net.pool.free ≠ []) :
    s'.book.Holds k a := by
  cases h with
  | keeps _ hnone _ => exact absurd (hnone.resolve_right hfree) (by simp [hheard])
  | heeds hheard' h =>
    cases hheard.symm.trans hheard'
    exact h.holds
  | applies _ _ => cases hheard

def Diverts (s : Shard ι ε) (op : Action) (k : Key) (a : SocketAddr) (s' : Shard ι ε) : Prop :=
  (∃ b, s.heard op = some (k, b, false) ∧ s.book.Goes k b s'.book) ∨ s.book.Taken k a s'.book

theorem Moved.fate (h : s.Moved op s') (hapart : s.book.Apart) (hk : s.book.Holds k a)
    (hnot : ∀ b, s.heard op ≠ some (k, b, true)) (hlives : (s'.book k).isSome) :
    s'.book.Holds k a ∨ s.Diverts op k a s' := by
  cases h with
  | keeps _ _ h =>
    obtain ⟨c', hc'⟩ := isSome_iff_exists.1 hlives
    exact .inl (h.holds hk hc')
  | @heeds _ j y nominated _ hheard h =>
    have hn : j = k → nominated = false := by
      rintro rfl
      cases nominated with
      | false => rfl
      | true => exact absurd hheard (hnot y)
    rcases h.fate hn hk with hholds | htaken | ⟨rfl, hgoes⟩
    · exact .inl hholds
    · exact .inr (.inr htaken)
    · rw [hn rfl] at hheard
      exact .inr (.inl ⟨y, hheard, hgoes⟩)
  | applies h _ => exact (h.fate hapart hk).imp_right .inr

end Steps

section Runs

variable [DatagramIo ι] [EventSink ε] {s₀ s s' u v : Shard (Recorder ι) ε}
  {ops pre post : List Action}

/-- The last request that nominated `k` and was not seen before came from `a`; `v` is the state
after it, and `post` is what happens then, while the session lives. -/
structure LastNominated (s₀ : Shard (Recorder ι) ε) (ops : List Action) (k : Key)
    (a : SocketAddr) (v : Shard (Recorder ι) ε) (post : List Action) : Prop where
  heard : ∃ pre op u, ops = pre ++ op :: post ∧ run step s₀ pre = some u ∧
    u.heard op = some (k, a, true) ∧ step u op = some v
  last : Permitted (fun w op => ∀ b, w.heard op ≠ some (k, b, true)) step v post
  lives : Permitted (fun w _ => (w.book k).isSome = true) step v post

def Diverted (v : Shard (Recorder ι) ε) (post : List Action) (k : Key) (a : SocketAddr) : Prop :=
  ∃ p op w w', p ++ [op] <+: post ∧ run step v p = some w ∧ step w op = some w' ∧
    w.Diverts op k a w'

theorem Diverted.cons (hstep : step v op = some u) (h : Diverted u post k a) :
    Diverted v (op :: post) k a := by
  obtain ⟨p, op', w, w', hp, hrun, hrest⟩ := h
  refine ⟨op :: p, op', w, w', ?_, by rw [run, hstep, bind_some, hrun], hrest⟩
  exact (prefix_cons_inj op).2 hp

theorem step_moved (h : s.Inv []) (hop : op.single) (hstep : step s op = some s') :
    s.Moved op s' := by
  obtain ⟨⟨_, _⟩, hact, rfl⟩ := map_eq_some_iff.1 hstep
  exact act_moved hop (h.sound.limit.trans (by decide)) _ _ hact

variable [LawfulIo ι]

theorem holds_run (h : v.Inv []) (hops : ∀ op ∈ post, op.single)
    (hrun : run step v post = some s) (hk : v.book.Holds k a)
    (hlast : Permitted (fun w op => ∀ b, w.heard op ≠ some (k, b, true)) step v post)
    (hlives : Permitted (fun w _ => (w.book k).isSome = true) step v post)
    (hend : (s.book k).isSome) :
    s.book.Holds k a ∨ Diverted v post k a := by
  induction post generalizing v with
  | nil =>
    cases hrun
    exact .inl hk
  | cons op post ih =>
    obtain ⟨u, hstep, hrun⟩ := bind_eq_some_iff.1 hrun
    have hlive : (u.book k).isSome := by
      cases post with
      | nil =>
        cases hrun
        exact hend
      | cons op' post => exact (hlives.2 u hstep).1
    rcases (step_moved h (hops op mem_cons_self) hstep).fate (book_apart h) hk hlast.1 hlive with
        hu | hdivert
    · exact (ih (step_inv h hstep).1 (fun op' hop' => hops op' (mem_cons_of_mem _ hop')) hrun hu
        (hlast.2 u hstep) (hlives.2 u hstep)).imp_right (.cons hstep)
    · exact .inr ⟨[], op, v, u, (prefix_cons_inj op).2 nil_prefix, rfl, hstep, hdivert⟩

theorem parts_single {a : Action} (ha : a.outer) : ∀ op ∈ a.parts, op.single := by
  cases a with
  | iterate now =>
    intro op hop
    simp only [Action.parts, mem_cons, mem_append, mem_replicate, not_mem_nil,
      or_false] at hop
    rcases hop with rfl | ⟨-, rfl⟩ | rfl | rfl | ⟨-, rfl⟩ | rfl | rfl | rfl <;> rfl
  | push c => simp [Action.parts, Action.single]
  | _ => cases ha

theorem flatMap_parts_single {acts : List Action} (hacts : ∀ a ∈ acts, a.outer) :
    ∀ op ∈ acts.flatMap Action.parts, op.single := by
  intro op hop
  obtain ⟨a, ha, hop⟩ := mem_flatMap.1 hop
  exact parts_single (hacts a ha) op hop

theorem run_lists (h : s.Inv []) (hs : s.book.Lists) (hops : ∀ op ∈ ops, op.single)
    (hrun : run step s ops = some s') : s'.book.Lists := by
  induction ops generalizing s with
  | nil =>
    cases hrun
    exact hs
  | cons op ops ih =>
    obtain ⟨u, hstep, hrun⟩ := bind_eq_some_iff.1 hrun
    exact ih (step_inv h hstep).1 ((step_moved h (hops op mem_cons_self) hstep).lists hs)
      (fun op' hop' => hops op' (mem_cons_of_mem _ hop')) hrun

theorem run_allWait (h : s.Inv []) (hs : s.book.AllWait now)
    (hops : ∀ op ∈ ops, op.single ∧ (∀ n, op ≠ .next n) ∧ ∀ n, op ≠ .switches n)
    (hrun : run step s ops = some s') : s'.book.AllWait now := by
  induction ops generalizing s with
  | nil =>
    cases hrun
    exact hs
  | cons op ops ih =>
    obtain ⟨u, hstep, hrun⟩ := bind_eq_some_iff.1 hrun
    obtain ⟨hop, hnext, hswitches⟩ := hops op mem_cons_self
    exact ih (step_inv h hstep).1 (((step_moved h hop hstep).book_keeps hnext hswitches).allWait hs)
      (fun op' hop' => hops op' (mem_cons_of_mem _ hop')) hrun

theorem iterate_allWait (h : s.Inv []) (hs : s.book.Lists)
    (hrun : run step s (Action.parts (.iterate now)) = some s') : s'.book.AllWait now := by
  have hsingle := parts_single (a := .iterate now) rfl
  rw [Action.parts, ← cons_append] at hrun hsingle
  obtain ⟨s₂, hbatch, hrun⟩ := run_append_iff.1 hrun
  obtain ⟨s₃, hstep, hrun⟩ := bind_eq_some_iff.1 hrun
  have h₂ := (run_inv h hbatch).1
  have h₃ := (step_inv h₂ hstep).1
  have hmoved := step_moved h₂ rfl hstep
  have hlists := run_lists h hs (fun op hop => hsingle op (mem_append_left _ hop)) hbatch
  refine run_allWait h₃ (hmoved.allWait (hmoved.lists hlists) h₃.sound.tables.linked) ?_ hrun
  intro op hop
  refine ⟨hsingle op (mem_append_right _ (mem_cons_of_mem _ hop)), ?_⟩
  simp only [mem_cons, mem_append, mem_replicate, not_mem_nil, or_false] at hop
  rcases hop with rfl | ⟨-, rfl⟩ | rfl | rfl | rfl <;> simp

end Runs

section FirstNomination

variable [EventSink ε] {s₀ : Shard (Recorder ι) ε} {config : ShardConfig} {stun : StunHash}
  {io : Recorder ι}
  {events : ε} {start : Nat}

theorem new_rested (hnew : Shard.new config stun io events start = .ok s₀)
    (hmax : config.maxSessions ≤ Tables.maxWebrtcSessions) :
    s₀.Rested ∧ s₀.book.Lists ∧ recvBatch + sendBatch ≤ s₀.net.pool.capacity := by
  have hinv := (new_inv hnew hmax).1
  rw [Shard.new, ShardConfig.validate] at hnew
  split_ifs at hnew with hpool
  all_goals cases hnew
  refine ⟨⟨hinv, rfl, rfl⟩, fun k c a hc => ?_, ?_⟩
  · simp [book, Tables.book, Tables.new, project_apply, Slab.get, Slab.new] at hc
  · simpa [BufferPool.new, BufferPool.capacity] using hpool

variable [DatagramIo ι] [LawfulIo ι]

def nominationRun : List Action :=
  [.push (.createSession sampleId ⟨.replicate 16 97, .replicate 32 65⟩ 1000),
    .iterate 0, .iterate 10, .iterate 20, .iterate 100000010]

def nominationIo : Recorder Script :=
  ⟨⟨.new, [[], [(homeAddr, bindingRequest 97 65 1)], [(sharedAddr, bindingRequest 97 65 2)],
    []]⟩, []⟩

def nominationPre : List Action := (nominationRun.take 3).flatMap Action.parts ++ [.receive]

def nominationPost : List Action := ((nominationRun.drop 3).flatMap Action.parts).drop 2

def Unnominated (s : Shard (Recorder Script) (List Event)) (op : Action) : Prop :=
  (s.book ⟨0, 0⟩).isSome = true ∧ (s.heard op).all (fun x => !x.2.2) = true

instance (s : Shard (Recorder Script) (List Event)) (op : Action) : Decidable (s.Unnominated op) :=
  inferInstanceAs (Decidable (_ ∧ _))

end FirstNomination
end Shard
end NexusSfu.Dataplane
