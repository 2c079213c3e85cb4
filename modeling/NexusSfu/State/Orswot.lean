import Mathlib.Data.Prod.Lex
import NexusSfu.Base.Replace

namespace NexusSfu.State

open Base

abbrev maxActors : Nat := 256

theorem maxActors_pos : 0 < maxActors := by decide

abbrev maxElementsLimit : Nat := 10000
abbrev maxTombstonesLimit : Nat := 5000

inductive CrdtError
  | capacityExhausted (capacity : Nat)
  | invalidDot (actorId clock : Nat)
  | elementNotFound
  | duplicateElement
  | overflow
  | invalidState (reason : String)
  | invalidTimestamp (timestamp : Nat)
  | invalidActorId (actorId : Nat)
  deriving DecidableEq, Repr

@[ext]
structure Dot where
  actorId : Nat
  clock : Nat
  deriving DecidableEq, Repr

namespace Dot

def rank (d : Dot) : ℕ ×ₗ ℕ := toLex (d.clock, d.actorId)

theorem rank_injective : Function.Injective rank := by
  intro d e h
  have h : (d.clock, d.actorId) = (e.clock, e.actorId) := toLex.injective h
  ext
  · exact (Prod.mk.inj h).2
  · exact (Prod.mk.inj h).1

instance : LinearOrder Dot := LinearOrder.lift' rank rank_injective

def Valid (d : Dot) : Prop := d.actorId < maxActors ∧ d.clock ≠ 0

instance (d : Dot) : Decidable d.Valid := inferInstanceAs (Decidable (_ ∧ _))

end Dot

/-- `entries` are the slots, free ones included; the source's counter of elements is the number of
slots in use. -/
structure Orswot (T : Type) where
  entries : List (Option (T × Dot)) := []
  maxElements : Nat
  tombstones : List Dot := []
  maxTombstones : Nat
  nextTombstone : Nat := 0
  deriving DecidableEq

structure OrswotSnapshot (T : Type) where
  elements : List (T × Dot)
  tombstones : List Dot

def OrswotSnapshot.eq {T : Type} [DecidableEq T] (a b : OrswotSnapshot T) : Bool :=
  a.elements.length == b.elements.length && a.tombstones.length == b.tombstones.length
    && a.elements.all (b.elements.contains ·) && a.tombstones.all (b.tombstones.contains ·)

namespace Orswot

variable {T : Type} [DecidableEq T]

def withCapacity (maxElements : Nat) : Orswot T :=
  { maxElements, maxTombstones := min (2 * maxElements) maxTombstonesLimit }

variable (s : Orswot T)

def elements : List (T × Dot) := items s.entries

def len : Nat := s.elements.length

variable (element : T)

def contains : Bool := s.elements.any fun e => e.1 = element

def snapshot : OrswotSnapshot T := ⟨s.elements, s.tombstones⟩

variable (dot : Dot)

def isTombstoned : Bool :=
  s.tombstones.any fun t => t.actorId = dot.actorId && t.clock ≥ dot.clock

def hasTombstone : Bool := s.tombstones.contains dot

def addTombstone : Orswot T :=
  if s.hasTombstone dot then s
  else if s.tombstones.length < s.maxTombstones then
    { s with tombstones := s.tombstones ++ [dot] }
  else
    { s with
      tombstones := s.tombstones.set s.nextTombstone dot
      nextTombstone := (s.nextTombstone + 1) % s.maxTombstones }

def dotOf : Option Dot :=
  (s.elements.find? fun e => e.1 = element).map Prod.snd

def setEntry (entry : Option (T × Dot)) : Orswot T :=
  { s with entries := replaceFirst (·.any fun e => e.1 = element) entry s.entries }

def add : Except CrdtError Bool × Orswot T :=
  if dot.actorId ≥ maxActors then (.error (.invalidDot dot.actorId dot.clock), s)
  else if dot.clock = 0 then (.error (.invalidDot dot.actorId 0), s)
  else if s.isTombstoned dot then (.ok false, s)
  else match s.dotOf element with
    | some existing =>
      if existing < dot then (.ok true, s.setEntry element (some (element, dot)))
      else (.ok false, s)
    | none =>
      if s.len ≥ s.maxElements then (.error (.capacityExhausted s.maxElements), s)
      else (.ok true, { s with entries := fill (element, dot) s.entries })

def remove : Except CrdtError Bool × Orswot T :=
  if dot.actorId ≥ maxActors then (.error (.invalidDot dot.actorId dot.clock), s)
  else match s.dotOf element with
    | some entryDot =>
      if entryDot ≤ dot then (.ok true, (s.addTombstone entryDot).setEntry element none)
      else (.ok false, s)
    | none => (.ok false, s)

def removeByDot : Orswot T :=
  { s with entries := replaceFirst (·.any fun e => e.2 = dot) none s.entries }

def mergeTombstone : Orswot T := (s.addTombstone dot).removeByDot dot

def mergeElements (s : Orswot T) : List (T × Dot) → Except CrdtError Unit × Orswot T
  | [] => (.ok (), s)
  | (element, dot) :: rest =>
    if s.isTombstoned dot then mergeElements s rest
    else match s.add element dot with
      | (.error e, s') => (.error e, s')
      | (.ok _, s') => mergeElements s' rest

def merge (s other : Orswot T) : Except CrdtError Unit × Orswot T :=
  mergeElements (other.tombstones.foldl mergeTombstone s) other.elements

end Orswot
end NexusSfu.State
