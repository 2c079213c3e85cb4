import NexusSfu.Base.Run
import NexusSfu.State.Distributed
import NexusSfu.State.Follow

namespace NexusSfu.State

open Base Delta

inductive Key
  | participant (roomId : RoomId) (participantId : ParticipantId)
  | subscription (trackId : TrackId) (participantId : ParticipantId)
  deriving DecidableEq

namespace StateUpdate

def dot : StateUpdate → Dot
  | participantAdded _ _ d | participantRemoved _ _ d | subscriptionAdded _ _ d
  | subscriptionRemoved _ _ d => d

def key : StateUpdate → Key
  | participantAdded r p _ | participantRemoved r p _ => .participant r p
  | subscriptionAdded t p _ | subscriptionRemoved t p _ => .subscription t p

def inRoom (r : RoomId) : StateUpdate → Option (Delta ParticipantId)
  | participantAdded r' p d => if r' = r then some (.add p d) else none
  | participantRemoved r' p d => if r' = r then some (.remove p d) else none
  | subscriptionAdded _ _ _ | subscriptionRemoved _ _ _ => none

def inSubscriptions : StateUpdate → Option (Delta (TrackId × ParticipantId))
  | subscriptionAdded t p d => some (.add (t, p) d)
  | subscriptionRemoved t p d => some (.remove (t, p) d)
  | participantAdded _ _ _ | participantRemoved _ _ _ => none

end StateUpdate

inductive LocalCall
  | addParticipant (roomId : RoomId) (participantId : ParticipantId)
  | removeParticipant (roomId : RoomId) (participantId : ParticipantId)
  | addSubscription (trackId : TrackId) (participantId : ParticipantId)
  | removeSubscription (trackId : TrackId) (participantId : ParticipantId)

namespace LocalCall

def run (s : DistributedState) : LocalCall → Except CrdtError Dot × DistributedState
  | addParticipant r p => s.addParticipant r p
  | removeParticipant r p => s.removeParticipant r p
  | addSubscription t p => s.addSubscription t p
  | removeSubscription t p => s.removeSubscription t p

def key : LocalCall → Key
  | addParticipant r p | removeParticipant r p => .participant r p
  | addSubscription t p | removeSubscription t p => .subscription t p

def update (d : Dot) : LocalCall → StateUpdate
  | addParticipant r p => .participantAdded r p d
  | removeParticipant r p => .participantRemoved r p d
  | addSubscription t p => .subscriptionAdded t p d
  | removeSubscription t p => .subscriptionRemoved t p d

end LocalCall

structure Cluster (ι : Type) where
  node : ι → DistributedState
  merged : ι → List StateUpdate := fun _ => []

inductive GossipAction (ι : Type)
  | call (i : ι) (c : LocalCall)
  | deliver (i j : ι) (n : Nat)

namespace Cluster

variable {ι : Type} [DecidableEq ι] (cl : Cluster ι)

def act : GossipAction ι → Cluster ι
  | .call i c => { cl with node := Function.update cl.node i (c.run (cl.node i)).2 }
  | .deliver i j n =>
    match (cl.node j).broadcast[n]? with
    | none => cl
    | some u =>
      { node := Function.update cl.node i ((cl.node i).mergeDelta u).2
        merged := Function.update cl.merged i (cl.merged i ++ [u]) }

def sentBy (j : ι) (u : StateUpdate) : Bool :=
  u.dot.actorId = (cl.node j).localActor

def heard (i j : ι) : List StateUpdate := (cl.merged i).filter (cl.sentBy j)

def BelowCapacity : GossipAction ι → Prop
  | .call i c => ∀ n, (c.run (cl.node i)).1 ≠ .error (.capacityExhausted n)
  | .deliver i j n => ∀ u, (cl.node j).broadcast[n]? = some u →
    ∀ k, ((cl.node i).mergeDelta u).1 ≠ .error (.capacityExhausted k)

instance {α : Type} :
    (r : Except CrdtError α) → Decidable (∀ n, r ≠ .error (.capacityExhausted n))
  | .ok _ => .isTrue nofun
  | .error (.capacityExhausted n) => .isFalse fun h => h n rfl
  | .error (.invalidDot _ _) | .error .elementNotFound | .error .duplicateElement
  | .error .overflow | .error (.invalidState _) | .error (.invalidTimestamp _)
  | .error (.invalidActorId _) => .isTrue nofun

instance (cl : Cluster ι) : (a : GossipAction ι) → Decidable (cl.BelowCapacity a)
  | .call i c =>
    inferInstanceAs (Decidable (∀ n, (c.run (cl.node i)).1 ≠ .error (.capacityExhausted n)))
  | .deliver i j n =>
    match h : (cl.node j).broadcast[n]? with
    | none => .isTrue fun _ hu => nomatch h.symm.trans hu
    | some u =>
      decidable_of_iff (∀ k, ((cl.node i).mergeDelta u).1 ≠ .error (.capacityExhausted k))
        ⟨fun hu _ hv => Option.some.inj (h.symm.trans hv) ▸ hu, fun hu => hu u h⟩

def InOrder : GossipAction ι → Prop
  | .call _ _ => True
  | .deliver i j n => i ≠ j ∧ n = (cl.heard i j).length

instance (cl : Cluster ι) : (a : GossipAction ι) → Decidable (cl.InOrder a)
  | .call _ _ => .isTrue trivial
  | .deliver i j n => inferInstanceAs (Decidable (i ≠ j ∧ n = (cl.heard i j).length))

def OwnedBy (owner : Key → ι) : GossipAction ι → Prop
  | .call i c => owner c.key = i
  | .deliver _ _ _ => True

instance (owner : Key → ι) : (a : GossipAction ι) → Decidable (OwnedBy owner a)
  | .call i c => inferInstanceAs (Decidable (owner c.key = i))
  | .deliver _ _ _ => .isTrue trivial

def ExactlyOnce : Prop :=
  ∀ i j, i ≠ j → (cl.heard i j).Perm (cl.node j).broadcast

instance [Fintype ι] (cl : Cluster ι) : Decidable cl.ExactlyOnce :=
  inferInstanceAs (Decidable (∀ i j, i ≠ j → _))

def Agree : Prop :=
  ∀ i j, (∀ r p, (cl.node i).participantExists r p = (cl.node j).participantExists r p) ∧
    ∀ k, (cl.node i).subscriptions.contains k = (cl.node j).subscriptions.contains k

structure Fresh (cl : Cluster ι) : Prop where
  actors : Function.Injective fun i => (cl.node i).localActor
  bounded : ∀ i, (cl.node i).localActor < maxActors
  rooms : ∀ i j, (cl.node i).rooms.map Room.roomId = (cl.node j).rooms.map Room.roomId
  nodup : ∀ i, ((cl.node i).rooms.map Room.roomId).Nodup
  empty : ∀ i, ∀ room ∈ (cl.node i).rooms, room.participants.elements = [] ∧
    room.participants.tombstones = []
  unsubscribed : ∀ i, (cl.node i).subscriptions.elements = [] ∧
    (cl.node i).subscriptions.tombstones = []
  silent : ∀ i, (cl.node i).broadcast = []
  unmerged : ∀ i, cl.merged i = []

end Cluster
end NexusSfu.State
