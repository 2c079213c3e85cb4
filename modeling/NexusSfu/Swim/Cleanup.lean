import NexusSfu.Swim.Cluster

namespace NexusSfu.State

namespace LwwReg

theorem writer_set {T : Type} {r : LwwReg T} {actor : Nat} (h : r.writer = actor) (value : T)
    (timestamp : Nat) : (r.set value timestamp actor).writer = actor := by
  unfold set
  split_ifs
  · rfl
  · exact h

end LwwReg

namespace DistributedState

variable {s : DistributedState} {t : TrackId} {reg : LwwReg TrackInfo}

structure Owned (s : DistributedState) : Prop where
  writer : ∀ e ∈ s.tracks, e.2.writer = s.localActor
  count : s.tracks.length ≤ s.maxTracks

theorem owned_new (config : DistributedStateConfig) : Owned (.new config) :=
  ⟨nofun, Nat.zero_le _⟩

theorem mem_of_lookup {l : List (TrackId × LwwReg TrackInfo)} (h : l.lookup t = some reg) :
    (t, reg) ∈ l := by
  induction l with
  | nil => cases h
  | cons e l ih =>
    rw [List.lookup_cons] at h
    split at h
    next heq =>
      cases h
      rw [eq_of_beq heq]
      exact List.mem_cons_self
    next => exact List.mem_cons_of_mem e (ih h)

theorem Owned.setTrack (h : Owned s) (hwriter : reg.writer = s.localActor)
    (hcount : (s.tracks.filter (·.1 ≠ t)).length < s.maxTracks) :
    Owned (s.tick.setTrack t reg) := by
  refine ⟨fun e he => ?_, ?_⟩
  · rcases List.mem_append.1 he with he | he
    · exact h.writer e (List.mem_of_mem_filter he)
    · rw [List.mem_singleton.1 he]
      exact hwriter
  · rw [DistributedState.setTrack, List.length_append]
    exact hcount

theorem Owned.of_sublist (h : Owned s) {tracks : List (TrackId × LwwReg TrackInfo)}
    (hsub : tracks.Sublist s.tracks) : Owned { s with tracks } :=
  ⟨fun e he => h.writer e (hsub.subset he), hsub.length_le.trans h.count⟩

theorem Owned.tracks_handleNodeFailure (h : Owned s) :
    (s.handleNodeFailure s.localActor).tracks = [] := by
  have hall : s.tracks.filter (fun e => e.2.writer = s.localActor) = s.tracks :=
    List.filter_eq_self.2 fun e he => decide_eq_true (h.writer e he)
  rw [handleNodeFailure, hall, List.take_of_length_le (by rw [List.length_map]; exact h.count)]
  refine List.filter_eq_nil_iff.2 fun e he => ?_
  simpa using ⟨e.2, he⟩

theorem Owned.handleNodeFailure_of_ne (h : Owned s) {actor : Nat} (hne : actor ≠ s.localActor) :
    s.handleNodeFailure actor = s := by
  have hnone : s.tracks.filter (fun e => e.2.writer = actor) = [] :=
    List.filter_eq_nil_iff.2 fun e he => by simpa [h.writer e he] using hne.symm
  simp [handleNodeFailure, hnone]

end DistributedState
end NexusSfu.State

namespace NexusSfu.Swim

open Base State Checked DistributedState List Option
open Dataplane (SocketAddr)

section Node

variable {s s' : DistributedState} {op : Operation} {t : TrackId}

theorem Operation.Edit.localActor (hedit : Edit s op s') : s'.localActor = s.localActor := by
  cases hedit <;> rfl

theorem Operation.Edit.owned (h : Owned s) (hedit : Edit s op s') : Owned s' := by
  cases hedit with
  | keep | openRoom | closeRoom | addParticipant | removeParticipant | addSubscription
  | removeSubscription => exact ⟨h.writer, h.count⟩
  | addTrack t info hlen =>
    refine h.setTrack (LwwReg.writer_set ?_ _ _) ((length_filter_le ..).trans_lt hlen)
    cases hreg : s.tracks.lookup t with
    | none => rfl
    | some reg => exact h.writer _ (mem_of_lookup hreg)
  | updateTrack t info reg hreg =>
    have hmem := mem_of_lookup hreg
    refine h.setTrack (LwwReg.writer_set (h.writer _ hmem) _ _) (lt_of_lt_of_le ?_ h.count)
    exact length_filter_lt_length_iff_exists.2 ⟨_, hmem, by simp⟩
  | removeTrack t => exact h.of_sublist filter_sublist
  | fail a => exact h.of_sublist filter_sublist

end Node

namespace SwimProtocol

variable {me : ActorId} {s s' : SwimProtocol} {e : Event} {es : List Event} {t : TrackId}

def OwnTracks (me : ActorId) (s : SwimProtocol) : Prop :=
  OnState (fun state => state.localActor = me ∧ Owned state) s

theorem Starts.ownTracks (h : Starts me s) : OwnTracks me s := by
  obtain ⟨addr, config, s₀, hnew, rfl | ⟨c, rfl, rfl⟩⟩ := h
  · cases new_eq_some hnew
    nofun
  · rintro _ ⟨⟩
    exact ⟨rfl, owned_new c⟩

theorem run_ownTracks (hs : Live me s) (h : OwnTracks me s) (hrun : run step s es = some s') :
    OwnTracks me s' :=
  (run_preserves (I := fun s => Live me s ∧ OwnTracks me s) (fun _ _ _ hs hstep =>
    ⟨step_live hs.1 hstep, (step_effect hs.1 hstep).onState
      (fun _ _ _ _ h hedit => ⟨hedit.localActor.trans h.1, hedit.owned h.2⟩) hs.2⟩)
    ⟨hs, h⟩ hrun).2

end SwimProtocol

def Operation.writes (t : TrackId) : Operation → Bool
  | addTrack t' _ | updateTrack t' _ => t' = t
  | createRoomAuto _ _ | removeRoom _ | addParticipant _ _ | removeParticipant _ _ | removeTrack _
  | addSubscription _ _ | removeSubscription _ _ | handleNodeFailure _ => false

def Action.writes (t : TrackId) (x : Action) : Bool :=
  match x.turn with
  | .operate op => op.writes t
  | .iterate _ _ | .broadcast _ | .seed _ _ _ => false

namespace Cluster

open SwimProtocol

variable {cl₀ cl cl' : Cluster} {as : List Action} {a : Nat} {b : ActorId}
  {t : TrackId} {sa : SwimProtocol}

def trackAt (cl : Cluster) (i : Nat) (t : TrackId) : Option TrackInfo :=
  (cl[i]?).bind fun s => s.shared.bind fun shared => shared.state.getTrack t

theorem trackAt_eq {i : Nat} {s : SwimProtocol} (hs : cl[i]? = some s) :
    trackAt cl i t = s.shared.bind fun shared => shared.state.getTrack t := by
  rw [trackAt, hs, bind_some]

/-- Every register on a node names the node itself as its writer, whoever wrote the track first. So
handling a failure leaves no track at the failed node itself, and every track at any other. -/
theorem failure_cleanup_iff (h₀ : ∀ s ∈ cl₀, ∃ me, Starts me s)
    (hrun : run act cl₀ as = some cl) (ha : cl[a]? = some sa)
    (hfail : act cl ⟨a, .operate (.handleNodeFailure b)⟩ = some cl') :
    trackAt cl' a t = none ↔ sa.localActor = b ∨ trackAt cl a t = none := by
  obtain ⟨s, s', hs, hturn, rfl⟩ := act_eq_some hfail
  cases Option.some.inj (ha.symm.trans hs)
  have hlt := (List.getElem?_eq_some_iff.1 hs).1
  obtain ⟨s₀, hs₀⟩ : ∃ s₀, cl₀[a]? = some s₀ :=
    ⟨_, getElem?_eq_getElem (run_length hrun ▸ hlt)⟩
  obtain ⟨me, hstart⟩ := h₀ s₀ (mem_of_getElem? hs₀)
  obtain ⟨s₁, es, hs₁, hrun₁, -⟩ := run_node hrun hs₀
  cases Option.some.inj (hs.symm.trans hs₁)
  have hlive := run_live hstart.live hrun₁
  have hown := run_ownTracks hstart.live hstart.ownTracks hrun₁
  have heffect := step_effect hlive hturn
  generalize reported sa _ = r at heffect
  rw [trackAt_eq (getElem?_set_self hlt), trackAt_eq hs]
  cases heffect with
  | operation op hfits =>
    cases hshared : sa.shared with
    | none => simp
    | some shared =>
      obtain ⟨hactor, howned⟩ := hown shared hshared
      rw [← hlive.actor] at hactor
      simp only [map_some, bind_some, Shared.performed, Operation.perform]
      by_cases hsame : sa.localActor = b
      · have htracks := howned.tracks_handleNodeFailure
        rw [hactor, hsame] at htracks
        simp [getTrack, htracks, hsame]
      · rw [howned.handleNodeFailure_of_ne (by rw [hactor]; exact Ne.symm hsame)]
        simp [hsame]

def trackOfB : TrackInfo := ⟨1, 1, 1, 1, 2⟩

def addsTrack : Action := ⟨1, .operate (.addTrack 5 trackOfB)⟩

def tracked : Cluster := (run act [stateNode, nodeB] [addsTrack]).getD []

def trackedB : SwimProtocol := (tracked[1]?).getD nodeB

theorem own_track_cleaned_up : trackAt tracked 1 5 = some trackOfB ∧
    ∃ cl', act tracked ⟨1, .operate (.handleNodeFailure trackedB.localActor)⟩ = some cl' ∧
      trackAt cl' 1 5 = none := by
  have hrun : run act [stateNode, nodeB] [addsTrack] = some tracked :=
    eq_some_getD [] (by decide +kernel)
  have hb : tracked[1]? = some trackedB := eq_some_getD nodeB (by decide +kernel)
  have hfail := eq_some_getD [] (by decide +kernel :
    (act tracked ⟨1, .operate (.handleNodeFailure trackedB.localActor)⟩).isSome = true)
  exact ⟨by decide +kernel, _, hfail,
    (failure_cleanup_iff starts_pair hrun hb hfail).2 (.inl rfl)⟩

def gossips : List Action :=
  [⟨1, .seed {} 1 hostA⟩, addsTrack, ⟨1, .iterate { times := [2000000000] } none⟩,
    ⟨0, .iterate {}
      (some (GossipMessage.layout (.ping 2 1 [.trackUpdated 5 trackOfB 1 2]), hostB))⟩]

/-- A track that only one node wrote outlives that node's failure at the other. -/
theorem gossiped_track_survives : (∀ x ∈ gossips, x.writes 5 = true → x.node = 1) ∧
    (run act [stateNode, nodeB] gossips).bind (trackAt · 0 5) = some trackOfB ∧
    (run act [stateNode, nodeB] (gossips ++ [⟨0, .operate (.handleNodeFailure 2)⟩])).bind
      (trackAt · 0 5)
      = some trackOfB := by
  refine ⟨by simp [gossips, addsTrack, Action.writes], ?_⟩
  decide +kernel

end Cluster
end NexusSfu.Swim
