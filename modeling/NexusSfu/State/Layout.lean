import NexusSfu.State.Merge

/-!
The observed-remove set as it is stored, with its counters, and why they stay right.
-/

namespace NexusSfu.State

open Base List

structure Entry (T : Type) where
  element : Option T
  dot : Dot
  deriving DecidableEq

structure OrswotSlots (T : Type) where
  entries : List (Entry T) := []
  maxElements : Nat
  count : UInt32 := 0
  tombstones : List (Option Dot) := []
  maxTombstones : Nat
  nextTombstone : Nat := 0
  tombstoneCount : UInt32 := 0
  deriving DecidableEq

def Entry.item {T : Type} (e : Entry T) : Option (T × Dot) := e.element.map fun x => (x, e.dot)

/-! In these functions `none` is a failed assertion. -/

namespace OrswotSlots

variable {T : Type} [DecidableEq T]

def withCapacity (maxElements : Nat) : Option (OrswotSlots T) :=
  if 0 < maxElements ∧ maxElements ≤ maxElementsLimit then
    some { maxElements, maxTombstones := min (2 * maxElements) maxTombstonesLimit }
  else none

def len (s : OrswotSlots T) : UInt32 := s.count

def iter (s : OrswotSlots T) : List T := s.entries.filterMap Entry.element

def contains (s : OrswotSlots T) (element : T) : Bool :=
  s.entries.any fun e => e.element = some element

def isTombstoned (s : OrswotSlots T) (dot : Dot) : Bool :=
  s.tombstones.any fun t => t.any fun t => t.actorId = dot.actorId && t.clock ≥ dot.clock

def hasTombstone (s : OrswotSlots T) (dot : Dot) : Bool := s.tombstones.contains (some dot)

def addTombstone (s : OrswotSlots T) (dot : Dot) : Option (OrswotSlots T) :=
  if s.hasTombstone dot then some s
  else do
    let s ←
      if s.tombstones.length < s.maxTombstones then
        some { s with
          tombstones := s.tombstones ++ [some dot]
          tombstoneCount := s.tombstoneCount + 1 }
      else if s.nextTombstone < s.maxTombstones then
        some { s with
          tombstones := s.tombstones.set s.nextTombstone (some dot)
          nextTombstone := (s.nextTombstone + 1) % s.maxTombstones }
      else none
    if s.tombstones.length ≤ s.maxTombstones then some s else none

def find (s : OrswotSlots T) (element : T) : Option (Entry T) :=
  s.entries.find? fun e => e.element = some element

def setEntry (s : OrswotSlots T) (element : T) (entry : Entry T) : OrswotSlots T :=
  { s with entries := replaceFirst (fun e => e.element = some element) entry s.entries }

/-- The end of a call that took a slot or freed one: the element is asserted to be there, or not. -/
def settled (s : OrswotSlots T) (element : T) (present : Bool) :
    Option (Except CrdtError Bool × OrswotSlots T) :=
  if s.contains element = present then some (.ok true, s) else none

def add (s : OrswotSlots T) (element : T) (dot : Dot) :
    Option (Except CrdtError Bool × OrswotSlots T) :=
  if dot.actorId ≥ maxActors then some (.error (.invalidDot dot.actorId dot.clock), s)
  else if dot.clock = 0 then some (.error (.invalidDot dot.actorId 0), s)
  else if s.isTombstoned dot then some (.ok false, s)
  else match s.find element with
    | some existing =>
      if existing.dot < dot then some (.ok true, s.setEntry element ⟨some element, dot⟩)
      else some (.ok false, s)
    | none =>
      if s.count ≥ UInt32.ofNat s.maxElements then
        some (.error (.capacityExhausted s.maxElements), s)
      else if s.entries.any fun e => e.element.isNone then
        settled { s with
          entries := replaceFirst (fun e => e.element.isNone) ⟨some element, dot⟩ s.entries
          count := s.count + 1 } element true
      else if s.entries.length < s.maxElements then
        settled { s with
          entries := s.entries ++ [⟨some element, dot⟩]
          count := s.count + 1 } element true
      else none

def remove (s : OrswotSlots T) (element : T) (dot : Dot) :
    Option (Except CrdtError Bool × OrswotSlots T) :=
  if dot.actorId ≥ maxActors then some (.error (.invalidDot dot.actorId dot.clock), s)
  else match s.find element with
    | some entry =>
      if entry.dot ≤ dot then do
        let s ← s.addTombstone entry.dot
        settled { s.setEntry element ⟨none, entry.dot⟩ with count := s.count - 1 } element false
      else some (.ok false, s)
    | none => some (.ok false, s)

def removeByDot (s : OrswotSlots T) (dot : Dot) : OrswotSlots T :=
  if s.entries.any fun e => e.element.isSome && e.dot = dot then
    { s with
      entries := replaceFirst (fun e => e.element.isSome && e.dot = dot) ⟨none, dot⟩ s.entries
      count := s.count - 1 }
  else s

def mergeTombstones (s : OrswotSlots T) : List (Option Dot) → Option (OrswotSlots T)
  | [] => some s
  | none :: rest => s.mergeTombstones rest
  | some dot :: rest => do
    let s ← s.addTombstone dot
    (s.removeByDot dot).mergeTombstones rest

def mergeElements (s : OrswotSlots T) :
    List (Entry T) → Option (Except CrdtError Unit × OrswotSlots T)
  | [] => some (.ok (), s)
  | e :: rest =>
    match e.element with
    | none => s.mergeElements rest
    | some element =>
      if s.isTombstoned e.dot then s.mergeElements rest
      else match s.add element e.dot with
        | none => none
        | some (.error e, s) => some (.error e, s)
        | some (.ok _, s) => s.mergeElements rest

def merge (s other : OrswotSlots T) : Option (Except CrdtError Unit × OrswotSlots T) := do
  let s ← s.mergeTombstones other.tombstones
  s.mergeElements other.entries

variable {s s' : OrswotSlots T} {x : T} {d : Dot}

def toOrswot (s : OrswotSlots T) : Orswot T where
  entries := s.entries.map Entry.item
  maxElements := s.maxElements
  tombstones := items s.tombstones
  maxTombstones := s.maxTombstones
  nextTombstone := s.nextTombstone

structure WellFormed (s : OrswotSlots T) : Prop where
  room : s.maxElements ≤ maxElementsLimit
  slots : s.entries.length ≤ s.maxElements
  count : s.count.toNat = s.toOrswot.len
  ring : 0 < s.maxTombstones ∧ s.maxTombstones ≤ maxTombstonesLimit
  next : s.nextTombstone < s.maxTombstones
  tombs : none ∉ s.tombstones
  tombstones : s.tombstones.length ≤ s.maxTombstones
  tombstoneCount : s.tombstoneCount.toNat = s.tombstones.length
  keys : (s.toOrswot.elements.map Prod.fst).Nodup

def Refines {ρ : Type} (r : Option (ρ × OrswotSlots T)) (q : ρ × Orswot T) : Prop :=
  ∃ s', r = some (q.1, s') ∧ s'.toOrswot = q.2 ∧ s'.WellFormed

omit [DecidableEq T] in
theorem iter_eq (s : OrswotSlots T) : s.iter = s.toOrswot.elements.map Prod.fst := by
  simp only [iter, Orswot.elements, toOrswot, items, filterMap_map, map_filterMap]
  congr 1
  funext e
  cases h : e.element <;> simp [Entry.item, h]

theorem contains_eq (s : OrswotSlots T) (x : T) : s.contains x = s.toOrswot.contains x := by
  rw [Bool.eq_iff_iff, contains, Orswot.contains, any_eq_true, any_eq_true]
  have hmem : x ∈ s.iter ↔ x ∈ s.toOrswot.elements.map Prod.fst := by rw [iter_eq]
  simpa [iter, mem_filterMap] using hmem

omit [DecidableEq T] in
theorem isTombstoned_eq (s : OrswotSlots T) (d : Dot) :
    s.isTombstoned d = s.toOrswot.isTombstoned d := by
  rw [Bool.eq_iff_iff, isTombstoned, Orswot.isTombstoned, any_eq_true, any_eq_true]
  simp [toOrswot, items, Option.any_eq_true]

theorem find_eq (s : OrswotSlots T) (x : T) : (s.find x).map Entry.dot = s.toOrswot.dotOf x := by
  obtain ⟨entries, _⟩ := s
  simp only [find, Orswot.dotOf, Orswot.elements, toOrswot]
  induction entries with
  | nil => rfl
  | cons e entries ih =>
    obtain ⟨element, dot⟩ := e
    cases element with
    | none => simpa [Entry.item] using ih
    | some y =>
      by_cases hy : y = x
      · simp [Entry.item, hy]
      · simpa [Entry.item, hy] using ih

omit [DecidableEq T] in
theorem hasTombstone_eq (s : OrswotSlots T) (d : Dot) :
    s.hasTombstone d = s.toOrswot.hasTombstone d := by
  rw [Bool.eq_iff_iff]
  simp [hasTombstone, Orswot.hasTombstone, toOrswot, items]

theorem items_length {l : List (Option Dot)} (h : none ∉ l) : (items l).length = l.length :=
  length_items_of_full (by simpa using h)

theorem items_set {l : List (Option Dot)} (h : none ∉ l) (i : Nat) :
    items (l.set i (some d)) = (items l).set i d := by
  induction l generalizing i with
  | nil => rfl
  | cons t l ih =>
    obtain ⟨ht, hl⟩ := not_or.1 (mt mem_cons.2 h)
    obtain ⟨e, rfl⟩ := Option.ne_none_iff_exists'.1 (Ne.symm ht)
    cases i with
    | zero => rfl
    | succ i => exact congrArg (e :: ·) (ih hl i)

omit [DecidableEq T] in
theorem addTombstone_refines (h : s.WellFormed) (d : Dot) :
    ∃ s', s.addTombstone d = some s' ∧ s'.toOrswot = s.toOrswot.addTombstone d ∧
      s'.WellFormed ∧ s'.count = s.count := by
  have hlen := items_length h.tombs
  have htombs : s.toOrswot.tombstones.length = s.tombstones.length := hlen
  have hring := h.ring
  have hsome : ∀ {l : List (Option Dot)}, (∀ t ∈ l, t ∈ s.tombstones ∨ t = some d) →
      none ∉ l := by
    intro l hl hnone
    rcases hl none hnone with hold | hnew
    · exact h.tombs hold
    · cases hnew
  have hmax : s.toOrswot.maxTombstones = s.maxTombstones := rfl
  rw [addTombstone, Orswot.addTombstone, hasTombstone_eq, htombs, hmax]
  by_cases hhas : s.toOrswot.hasTombstone d = true
  · rw [if_pos hhas, if_pos hhas]
    exact ⟨s, rfl, rfl, h, rfl⟩
  rw [if_neg hhas, if_neg hhas, Option.bind_eq_bind]
  by_cases hlt : s.tombstones.length < s.maxTombstones
  · have hcount : (s.tombstoneCount + 1).toNat = (s.tombstones ++ [some d]).length := by
      rw [UInt32.toNat_add, h.tombstoneCount, UInt32.toNat_one, length_append, length_singleton]
      simp only [maxTombstonesLimit] at hring
      omega
    have hle : (s.tombstones ++ [some d]).length ≤ s.maxTombstones := by
      simpa using Nat.succ_le_of_lt hlt
    rw [if_pos hlt, if_pos hlt, Option.bind_some]
    dsimp only
    rw [if_pos hle]
    refine ⟨_, rfl, ?_, ⟨h.room, h.slots, h.count, h.ring, h.next, ?_, hle, hcount, h.keys⟩,
      rfl⟩
    · simp [toOrswot, items]
    · exact hsome fun t ht => (mem_append.1 ht).imp_right mem_singleton.1
  · have hle : (s.tombstones.set s.nextTombstone (some d)).length ≤ s.maxTombstones := by
      simpa using h.tombstones
    rw [if_neg hlt, if_pos h.next, if_neg hlt, Option.bind_some]
    dsimp only
    rw [if_pos hle]
    have hmod := Nat.mod_lt (s.nextTombstone + 1) h.ring.1
    refine ⟨_, rfl, ?_, ⟨h.room, h.slots, h.count, h.ring, hmod, ?_, hle, ?_, h.keys⟩, rfl⟩
    · simp [toOrswot, items_set h.tombs]
    · exact hsome fun t ht => mem_or_eq_of_mem_set ht
    · simpa using h.tombstoneCount

section Counts

omit [DecidableEq T]

variable {ρ : Type}

theorem WellFormed.same (h : s.WellFormed) (r : ρ) : Refines (some (r, s)) (r, s.toOrswot) :=
  ⟨s, rfl, rfl, h⟩

theorem WellFormed.withEntries (h : s.WellFormed) (r : ρ) {entries : List (Entry T)}
    {count : UInt32} {slots : List (Option (T × Dot))} (hmap : entries.map Entry.item = slots)
    (hlen : entries.length ≤ s.maxElements) (hcount : count.toNat = (items slots).length)
    (hkeys : ((items slots).map Prod.fst).Nodup) :
    Refines (some (r, { s with entries, count })) (r, { s.toOrswot with entries := slots }) := by
  subst hmap
  exact ⟨_, rfl, rfl, { h with slots := hlen, count := hcount, keys := hkeys }⟩

theorem WellFormed.full_iff (h : s.WellFormed) :
    s.count ≥ UInt32.ofNat s.maxElements ↔ s.toOrswot.len ≥ s.maxElements := by
  have hroom := h.room
  simp only [maxElementsLimit] at hroom
  rw [ge_iff_le, UInt32.le_iff_toNat_le, h.count,
    UInt32.toNat_ofNat_of_lt' (by simp [UInt32.size]; omega)]

theorem WellFormed.succ_count (h : s.WellFormed) (hlt : s.toOrswot.len < s.maxElements) :
    (s.count + 1).toNat = s.toOrswot.len + 1 := by
  have hroom := h.room
  simp only [maxElementsLimit] at hroom
  rw [UInt32.toNat_add, h.count, UInt32.toNat_one]
  omega

theorem WellFormed.pred_count (h : s.WellFormed) (hpos : 0 < s.toOrswot.len) :
    (s.count - 1).toNat = s.toOrswot.len - 1 := by
  have hone : (1 : UInt32) ≤ s.count := by
    rw [UInt32.le_iff_toNat_le, h.count]
    exact hpos
  rw [UInt32.toNat_sub_of_le _ _ hone, h.count, UInt32.toNat_one]

theorem item_isNone (e : Entry T) : e.item.isNone = e.element.isNone := by
  simp [Entry.item]

theorem item_isNone_any :
    s.toOrswot.entries.any Option.isNone = s.entries.any fun e => e.element.isNone := by
  rw [toOrswot, any_map]
  congr 1
  funext e
  exact item_isNone e

end Counts

theorem item_any (x : T) (e : Entry T) :
    (e.item.any fun p => decide (p.1 = x)) = decide (e.element = some x) := by
  cases he : e.element <;> simp [Entry.item, he]

theorem Refines.settled {o : Orswot T} {present : Bool}
    (h : Refines (some ((.ok true : Except CrdtError Bool), s)) (.ok true, o))
    (hx : o.contains x = present) :
    Refines (s.settled x present) (.ok true, o) := by
  obtain ⟨t, ht, heq, hwf⟩ := h
  cases ht
  rw [OrswotSlots.settled, contains_eq, heq, if_pos hx]
  exact ⟨s, rfl, heq, hwf⟩

theorem add_refines (h : s.WellFormed) (x : T) (d : Dot) :
    Refines (s.add x d) (s.toOrswot.add x d) := by
  rw [add, Orswot.add, isTombstoned_eq, ← find_eq]
  by_cases hactor : d.actorId ≥ maxActors
  · rw [if_pos hactor, if_pos hactor]
    exact h.same _
  by_cases hclock : d.clock = 0
  · rw [if_neg hactor, if_neg hactor, if_pos hclock, if_pos hclock]
    exact h.same _
  by_cases htomb : s.toOrswot.isTombstoned d = true
  · rw [if_neg hactor, if_neg hactor, if_neg hclock, if_neg hclock, if_pos htomb, if_pos htomb]
    exact h.same _
  rw [if_neg hactor, if_neg hactor, if_neg hclock, if_neg hclock, if_neg htomb, if_neg htomb]
  cases hfind : s.find x with
  | some e =>
    dsimp only [Option.map_some]
    split_ifs
    · refine h.withEntries _ (map_replaceFirst (item_any x)) ?_ ?_ ?_
      · rw [length_replaceFirst]
        exact h.slots
      · refine h.count.trans ?_
        rw [items_replaceFirst_some, length_replaceFirst]
        rfl
      · rw [items_replaceFirst_some, map_replaceFirst_key (k := x) rfl]
        exact h.keys
    · exact h.same _
  | none =>
    dsimp only [Option.map_none]
    rw [show s.toOrswot.maxElements = s.maxElements from rfl]
    by_cases hfull : s.toOrswot.len ≥ s.maxElements
    · rw [if_pos (h.full_iff.2 hfull), if_pos hfull]
      exact h.same _
    rw [if_neg (mt h.full_iff.1 hfull), if_neg hfull]
    have hlt := not_le.1 hfull
    have hlen : (items (fill (x, d) s.toOrswot.entries)).length = s.toOrswot.len + 1 :=
      (items_fill _ _).length_eq
    have hcount := (h.succ_count hlt).trans hlen.symm
    have hnew : s.toOrswot.dotOf x = none := by rw [← find_eq, hfind, Option.map_none]
    have hperm := (items_fill (x, d) s.toOrswot.entries).map Prod.fst
    have hkeys := hperm.nodup_iff.2 (nodup_cons.2 ⟨Orswot.dotOf_eq_none.1 hnew, h.keys⟩)
    have hthere := s.toOrswot.contains_fill x d
    by_cases hfree : (s.entries.any fun e => e.element.isNone) = true
    · rw [if_pos hfree]
      refine (h.withEntries _ ?_ ?_ hcount hkeys).settled hthere
      · rw [fill, if_pos (item_isNone_any.trans hfree)]
        exact map_replaceFirst item_isNone
      · rw [length_replaceFirst]
        exact h.slots
    · -- without a free slot the slots are as many as the elements
      have hfree' : ¬ s.toOrswot.entries.any Option.isNone = true := by rwa [item_isNone_any]
      have hslots : s.entries.length = s.toOrswot.len := by
        rw [Orswot.len, Orswot.elements, length_items_of_full hfree']
        exact (length_map _).symm
      rw [if_neg hfree, if_pos (by omega)]
      refine (h.withEntries _ ?_ ?_ hcount hkeys).settled hthere
      · rw [fill, if_neg hfree', map_append]
        rfl
      · rw [length_append, length_singleton]
        omega

omit [DecidableEq T] in
theorem WellFormed.free (h : s.WellFormed) {ρ : Type} (r : ρ) {p : Entry T → Bool}
    {q : T × Dot → Bool} (dot : Dot) (hq : ∀ e : Entry T, e.item.any q = p e)
    (hex : ∃ e ∈ s.toOrswot.elements, q e = true) :
    Refines (some
      (r, { s with entries := replaceFirst p ⟨none, dot⟩ s.entries, count := s.count - 1 }))
      (r, { s.toOrswot with entries := replaceFirst (·.any q) none s.toOrswot.entries }) := by
  obtain ⟨e, he, hqe⟩ := hex
  have hpos : 0 < s.toOrswot.len := length_pos_of_mem he
  refine h.withEntries _ (map_replaceFirst hq) ?_ ?_ ?_
  · rw [length_replaceFirst]
    exact h.slots
  · have herase := length_eraseP_of_mem he hqe
    refine (h.pred_count hpos).trans ?_
    rw [items_replaceFirst_none]
    exact herase.symm
  · rw [items_replaceFirst_none]
    exact h.keys.sublist (eraseP_sublist.map _)

theorem remove_refines (h : s.WellFormed) (x : T) (d : Dot) :
    Refines (s.remove x d) (s.toOrswot.remove x d) := by
  rw [remove, Orswot.remove, ← find_eq]
  by_cases hactor : d.actorId ≥ maxActors
  · rw [if_pos hactor, if_pos hactor]
    exact h.same _
  rw [if_neg hactor, if_neg hactor]
  cases hfind : s.find x with
  | none => exact h.same _
  | some e =>
    have hdot : s.toOrswot.dotOf x = some e.dot := by rw [← find_eq, hfind, Option.map_some]
    dsimp only [Option.map_some]
    split_ifs with hle
    · obtain ⟨t, ht, heq, hwf, hcount⟩ := addTombstone_refines h e.dot
      have hex : ∃ p ∈ t.toOrswot.elements, decide (p.1 = x) = true := by
        rw [heq, Orswot.addTombstone_elements]
        obtain ⟨p, hp, -⟩ := Option.map_eq_some_iff.1 hdot
        exact ⟨p, mem_of_find?_eq_some hp, by simpa using find?_some hp⟩
      have hgone : (t.toOrswot.setEntry x none).contains x = false :=
        t.toOrswot.contains_setEntry_none hwf.keys x
      rw [ht, ← heq]
      exact (hwf.free _ _ (item_any x) hex).settled hgone
    · exact h.same _

omit [DecidableEq T] in
theorem item_any_dot (d : Dot) (e : Entry T) :
    (e.item.any fun p => decide (p.2 = d)) = (e.element.isSome && decide (e.dot = d)) := by
  cases he : e.element <;> simp [Entry.item, he]

omit [DecidableEq T] in
theorem removeByDot_refines (h : s.WellFormed) (d : Dot) :
    (s.removeByDot d).toOrswot = s.toOrswot.removeByDot d ∧ (s.removeByDot d).WellFormed := by
  rw [removeByDot, Orswot.removeByDot]
  split_ifs with hany
  · obtain ⟨e, he, hdot⟩ := any_eq_true.1 hany
    have hitem := item_any_dot d e
    rw [hdot] at hitem
    obtain ⟨p, hp, hpd⟩ := (Option.any_eq_true _ _).1 hitem
    have hex : ∃ p ∈ s.toOrswot.elements, decide (p.2 = d) = true :=
      ⟨p, mem_filterMap.2 ⟨_, mem_map_of_mem he, hp⟩, hpd⟩
    obtain ⟨t, ht, heq, hwf⟩ := h.free () d (item_any_dot d) hex
    cases ht
    exact ⟨heq, hwf⟩
  · have hnone : ∀ e ∈ s.toOrswot.entries, ¬ (e.any fun p => decide (p.2 = d)) = true := by
      intro e he
      obtain ⟨c, hc, rfl⟩ := mem_map.1 he
      rw [item_any_dot]
      exact fun hcd => hany (any_eq_true.2 ⟨c, hc, hcd⟩)
    rw [replaceFirst_eq_self hnone]
    exact ⟨rfl, h⟩

omit [DecidableEq T] in
theorem mergeTombstones_refines (h : s.WellFormed) (l : List (Option Dot)) :
    ∃ t, s.mergeTombstones l = some t ∧
      t.toOrswot = (items l).foldl Orswot.mergeTombstone s.toOrswot ∧ t.WellFormed := by
  induction l generalizing s with
  | nil => exact ⟨s, rfl, rfl, h⟩
  | cons d l ih =>
    cases d with
    | none => exact ih h
    | some d =>
      obtain ⟨t, ht, heq, hwf, -⟩ := addTombstone_refines h d
      obtain ⟨heq', hwf'⟩ := removeByDot_refines hwf d
      obtain ⟨u, hu, hueq, huwf⟩ := ih hwf'
      refine ⟨u, by rw [mergeTombstones, ht]; exact hu, ?_, huwf⟩
      rw [hueq, heq', heq]
      rfl

theorem mergeElements_refines (h : s.WellFormed) (l : List (Entry T)) :
    Refines (s.mergeElements l) (s.toOrswot.mergeElements (items (l.map Entry.item))) := by
  induction l generalizing s with
  | nil => exact h.same _
  | cons e l ih =>
    obtain ⟨element, d⟩ := e
    cases element with
    | none => exact ih h
    | some x =>
      rw [map_cons, show Entry.item ⟨some x, d⟩ = some (x, d) from rfl, items_some,
        mergeElements, Orswot.mergeElements]
      dsimp only
      rw [isTombstoned_eq]
      by_cases htomb : s.toOrswot.isTombstoned d = true
      · rw [if_pos htomb, if_pos htomb]
        exact ih h
      · rw [if_neg htomb, if_neg htomb]
        obtain ⟨t, ht, heq, hwf⟩ := add_refines h x d
        rw [ht]
        generalize s.toOrswot.add x d = q at heq ⊢
        obtain ⟨r, o⟩ := q
        cases heq
        cases r with
        | error e => exact hwf.same _
        | ok b => exact ih hwf

theorem merge_refines {other : OrswotSlots T} (h : s.WellFormed) :
    Refines (s.merge other) (s.toOrswot.merge other.toOrswot) := by
  obtain ⟨t, ht, heq, hwf⟩ := mergeTombstones_refines h other.tombstones
  rw [merge, ht, Orswot.merge, show other.toOrswot.tombstones = items other.tombstones from rfl,
    ← heq]
  exact mergeElements_refines hwf other.entries

omit [DecidableEq T] in
theorem withCapacity_refines {n : Nat} (hn : 0 < n ∧ n ≤ maxElementsLimit) :
    ∃ s : OrswotSlots T, withCapacity n = some s ∧ s.toOrswot = .withCapacity n ∧
      s.WellFormed := by
  rw [withCapacity, if_pos hn]
  refine ⟨_, rfl, rfl, hn.2, Nat.zero_le _, rfl, ?_, ?_, not_mem_nil, Nat.zero_le _,
    rfl, nodup_nil⟩
  · exact ⟨by simp; omega, min_le_right _ _⟩
  · simp
    omega

end OrswotSlots
end NexusSfu.State
