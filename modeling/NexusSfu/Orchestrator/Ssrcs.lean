import NexusSfu.Orchestrator.Transports

namespace NexusSfu.Orchestrator

open Base Dataplane List

namespace SsrcAllocator

variable {a a' : SsrcAllocator} {ssrc o offset found : UInt32} {tries : Nat}

def Avoided (a : SsrcAllocator) (ssrc : UInt32) : Prop := ssrc = 0 ∨ ssrc ∈ a.peerSsrcs

theorem succ_toNat (h : found ≤ maxOutSsrcOffset) : (found + 1).toNat = found.toNat + 1 := by
  have hle := UInt32.le_iff_toNat_le.1 h
  have hmax : maxOutSsrcOffset.toNat = 2147483647 := by decide
  rw [UInt32.toNat_add, UInt32.toNat_one]
  omega

theorem lt_succ_iff (h : found ≤ maxOutSsrcOffset) : o < found + 1 ↔ o ≤ found := by
  rw [UInt32.lt_iff_toNat_lt, UInt32.le_iff_toNat_le, succ_toNat h, Nat.lt_succ_iff]

theorem usable_iff :
    (a.base + o ≠ 0 ∧ a.base + o ∉ a.peerSsrcs) ↔ ¬ a.Avoided (a.base + o) := by
  rw [Avoided, not_or]

theorem findOffset_first (h : a.findOffset tries offset = some found) :
    ¬ a.Avoided (a.base + found) ∧ ∀ o, offset ≤ o → o < found →
      a.Avoided (a.base + o) := by
  induction tries generalizing offset with
  | zero => cases h
  | succ tries ih =>
    rw [findOffset] at h
    split_ifs at h with hmax huse
    · cases h
      refine ⟨usable_iff.1 huse, fun o hge hlt => ?_⟩
      exact absurd hlt (UInt32.not_lt.2 hge)
    · obtain ⟨hfound, hskip⟩ := ih h
      refine ⟨hfound, fun o hge hlt => ?_⟩
      by_cases heq : o = offset
      · subst heq
        exact not_not.1 (mt usable_iff.2 huse)
      · refine hskip o ?_ hlt
        rw [UInt32.le_iff_toNat_le, succ_toNat (UInt32.not_lt.1 hmax)]
        have hge := UInt32.le_iff_toNat_le.1 hge
        have hne : o.toNat ≠ offset.toNat := fun h => heq (UInt32.toNat_inj.1 h)
        omega

theorem findOffset_none (h : a.findOffset tries offset = none) (hge : offset ≤ o)
    (hlt : o.toNat < offset.toNat + tries) (hle : o ≤ maxOutSsrcOffset) :
    a.Avoided (a.base + o) := by
  induction tries generalizing offset with
  | zero =>
    have hge := UInt32.le_iff_toNat_le.1 hge
    omega
  | succ tries ih =>
    rw [findOffset] at h
    split_ifs at h with hmax huse
    · exact absurd (UInt32.le_trans hge hle) (UInt32.not_le.2 hmax)
    · by_cases heq : o = offset
      · subst heq
        exact not_not.1 (mt usable_iff.2 huse)
      · have hsucc := succ_toNat (UInt32.not_lt.1 hmax)
        have hge := UInt32.le_iff_toNat_le.1 hge
        have hne : o.toNat ≠ offset.toNat := fun h => heq (UInt32.toNat_inj.1 h)
        exact ih h (UInt32.le_iff_toNat_le.2 (by omega)) (by omega)

/-- There are more tries than SSRCs to avoid, so the search fails only at the end of the range. -/
theorem findOffset_complete (h : a.findOffset allocateTries offset = none) (hge : offset ≤ o)
    (hle : o ≤ maxOutSsrcOffset) : a.Avoided (a.base + o) := by
  by_contra hfree
  have hfar : offset.toNat + allocateTries ≤ o.toNat :=
    not_lt.1 fun hlt => hfree (findOffset_none h hge hlt hle)
  have hmax := UInt32.le_iff_toNat_le.1 hle
  have hmaxval : maxOutSsrcOffset.toNat = 2147483647 := by decide
  have htoNat : ∀ k < allocateTries, (offset + UInt32.ofNat k).toNat = offset.toNat + k := by
    intro k hk
    rw [UInt32.toNat_add, UInt32.toNat_ofNat']
    omega
  -- all of the offsets tried are avoided, and they are too many for that
  have hmaps : ∀ k ∈ Finset.range allocateTries,
      a.base + (offset + UInt32.ofNat k) ∈ (0 :: a.peerSsrcs).toFinset := by
    intro k hk
    have hk := htoNat k (Finset.mem_range.1 hk)
    rw [mem_toFinset, mem_cons]
    refine findOffset_none h ?_ ?_ ?_
    · rw [UInt32.le_iff_toNat_le]
      omega
    · have := Finset.mem_range.1 ‹_›
      omega
    · rw [UInt32.le_iff_toNat_le]
      have := Finset.mem_range.1 ‹_›
      omega
  have hinj : Set.InjOn (fun k => a.base + (offset + UInt32.ofNat k))
      (Finset.range allocateTries : Set Nat) := by
    intro k hk m hm hkm
    have hk := htoNat k (by simpa using hk)
    have hm := htoNat m (by simpa using hm)
    have heq : offset + UInt32.ofNat k = offset + UInt32.ofNat m :=
      (UInt32.add_right_inj a.base).1 hkm
    rw [heq] at hk
    omega
  have hcard := Finset.card_le_card_of_injOn _ hmaps hinj
  have hlist := toFinset_card_le (0 :: a.peerSsrcs)
  have hpeers := a.peers_le
  rw [Finset.card_range] at hcard
  rw [length_cons] at hlist
  simp only [allocateTries] at hcard
  omega

inductive Call
  | notePeerSsrc (ssrc : UInt32)
  | allocate
  | markRegistered (ssrc : UInt32)

inductive Event
  | noted (ssrc : UInt32) (fresh : Bool)
  | allocated (ssrc : UInt32)
  deriving DecidableEq

def Event.returned : Event → Option UInt32
  | allocated ssrc => some ssrc
  | noted _ _ => none

def Event.peer : Event → Option UInt32
  | noted ssrc true => some ssrc
  | noted _ false | allocated _ => none

structure Ledger where
  allocator : SsrcAllocator
  log : List Event := []

namespace Ledger

variable {l l' : Ledger} {base : UInt32}

def new (base : UInt32) (hbase : base ≠ 0) : Ledger := { allocator := { base, base_ne := hbase } }

def call (l : Ledger) : Call → Option Ledger
  | .notePeerSsrc ssrc =>
    let (fresh, allocator) := l.allocator.notePeerSsrc ssrc
    some ⟨allocator, l.log ++ [.noted ssrc fresh]⟩
  | .allocate =>
    match l.allocator.allocate with
    | none => some l
    | some (ssrc, allocator) => some ⟨allocator, l.log ++ [.allocated ssrc]⟩
  | .markRegistered ssrc =>
    (l.allocator.markRegistered ssrc).map fun allocator => { l with allocator }

def returned (l : Ledger) : List UInt32 := l.log.filterMap Event.returned

def peers (l : Ledger) : List UInt32 := l.log.filterMap Event.peer

def remembered (l : Ledger) : List UInt32 := l.peers.eraseDups.take maxPeerSsrcs

structure Kept (base : UInt32) (l : Ledger) : Prop where
  base_eq : l.allocator.base = base
  peers : l.allocator.peerSsrcs = l.remembered
  below : ∀ r ∈ l.returned, r - base < l.allocator.nextOffset
  last : ∀ o < l.allocator.nextOffset, o = 0 ∨ ∃ r ∈ l.returned, o ≤ r - base
  gaps : ∀ o < l.allocator.nextOffset, o = 0 ∨ base + o ∈ l.returned ∨
    l.allocator.Avoided (base + o)
  refused : ∀ ssrc, .noted ssrc false ∈ l.log → ssrc - base < l.allocator.nextOffset

variable (hbase : base ≠ 0)

theorem new_kept : Kept base (new base hbase) where
  base_eq := rfl
  peers := rfl
  below := by simp [new, returned]
  last o ho := .inl (UInt32.lt_one_iff.1 ho)
  gaps o ho := .inl (UInt32.lt_one_iff.1 ho)
  refused := by simp [new]

theorem take_eraseDups_concat {n : Nat} (xs : List UInt32) (x : UInt32) :
    (xs ++ [x]).eraseDups.take n =
      if x ∉ xs.eraseDups.take n ∧ (xs.eraseDups.take n).length < n then
        xs.eraseDups.take n ++ [x]
      else xs.eraseDups.take n := by
  rw [eraseDups_append]
  by_cases hfull : n ≤ xs.eraseDups.length
  · rw [take_append_of_le_length hfull, if_neg (by simp [hfull])]
  · have hall : xs.eraseDups.take n = xs.eraseDups := take_of_length_le (by omega)
    by_cases hx : x ∈ xs
    · have hnew : [x].removeAll xs = [] := by simp [List.removeAll, hx]
      rw [hnew, eraseDups_nil, append_nil, hall, if_neg (by simp [hx])]
    · have hnew : [x].removeAll xs = [x] := by simp [List.removeAll, hx]
      rw [hnew, hall, if_pos ⟨by simpa using hx, by omega⟩, take_append, hall]
      congr 1
      exact take_of_length_le (show 1 ≤ _ by omega)

section Concat

variable {e : Event} {allocator : SsrcAllocator}

theorem returned_concat :
    returned ⟨allocator, l.log ++ [e]⟩ = l.returned ++ e.returned.toList := by
  rw [returned, filterMap_append]
  cases e <;> rfl

theorem peers_concat : peers ⟨allocator, l.log ++ [e]⟩ = l.peers ++ e.peer.toList := by
  rw [peers, filterMap_append]
  cases e with
  | noted ssrc fresh => cases fresh <;> rfl
  | allocated ssrc => rfl

end Concat

theorem Kept.congr (h : Kept base l) (hbase : l'.allocator.base = l.allocator.base)
    (hnext : l'.allocator.nextOffset = l.allocator.nextOffset)
    (hreturned : l'.returned = l.returned) (hpeers : l'.allocator.peerSsrcs = l'.remembered)
    (hsub : l.allocator.peerSsrcs ⊆ l'.allocator.peerSsrcs)
    (hrefused : ∀ ssrc, .noted ssrc false ∈ l'.log → ssrc - base < l.allocator.nextOffset) :
    Kept base l' where
  base_eq := hbase.trans h.base_eq
  peers := hpeers
  below := by
    rw [hreturned, hnext]
    exact h.below
  last := by
    rw [hreturned, hnext]
    exact h.last
  gaps o ho := by
    rw [hnext] at ho
    rw [hreturned]
    exact (h.gaps o ho).imp_right fun hgap => hgap.imp_right fun havoid =>
      havoid.imp_right fun hmem => hsub hmem
  refused := by
    rw [hnext]
    exact hrefused

theorem Kept.note (h : Kept base l) (ssrc : UInt32) :
    Kept base ⟨(l.allocator.notePeerSsrc ssrc).2,
      l.log ++ [.noted ssrc (l.allocator.notePeerSsrc ssrc).1]⟩ := by
  have hreturned : ∀ fresh (allocator : SsrcAllocator),
      returned ⟨allocator, l.log ++ [.noted ssrc fresh]⟩ = l.returned := by
    intro fresh allocator
    rw [returned_concat]
    exact append_nil _
  have hrefused : ∀ s fresh, (fresh = false → ssrc - base < l.allocator.nextOffset) →
      .noted s false ∈ l.log ++ [.noted ssrc fresh] → s - base < l.allocator.nextOffset := by
    intro s fresh hfresh hs
    rcases mem_append.1 hs with hs | hs
    · exact h.refused s hs
    · obtain ⟨rfl, rfl⟩ := Event.noted.inj (mem_singleton.1 hs)
      exact hfresh rfl
  have hpeers := take_eraseDups_concat (n := maxPeerSsrcs) l.peers ssrc
  rw [← remembered, ← h.peers] at hpeers
  unfold notePeerSsrc
  split_ifs with hused hnew
  · refine h.congr rfl rfl (hreturned _ _) ?_ (List.Subset.refl _) fun s hs =>
      hrefused s false (fun _ => h.base_eq ▸ hused) hs
    rw [remembered, peers_concat, Event.peer, Option.toList_none, append_nil]
    exact h.peers
  · refine h.congr rfl rfl (hreturned _ _) ?_ (subset_append_left _ _) fun s hs =>
      hrefused s true nofun hs
    rw [remembered, peers_concat, Event.peer, Option.toList_some, hpeers, if_pos hnew]
  · refine h.congr rfl rfl (hreturned _ _) ?_ (List.Subset.refl _) fun s hs =>
      hrefused s true nofun hs
    rw [remembered, peers_concat, Event.peer, Option.toList_some, hpeers, if_neg hnew]

theorem allocate_eq_some (h : a.allocate = some (ssrc, a')) :
    ∃ found, a.findOffset allocateTries a.nextOffset = some found ∧ ssrc = a.base + found ∧
      a'.base = a.base ∧ a'.nextOffset = found + 1 ∧ a'.peerSsrcs = a.peerSsrcs := by
  unfold SsrcAllocator.allocate at h
  split at h
  · cases h
  · cases h
    exact ⟨_, ‹_›, rfl, rfl, rfl, rfl⟩

theorem add_sub_self (base o : UInt32) : base + o - base = o := by
  rw [UInt32.add_comm, UInt32.add_sub_cancel]

theorem add_offset (base ssrc : UInt32) : base + (ssrc - base) = ssrc := by
  rw [UInt32.add_comm, UInt32.sub_add_cancel]

theorem Kept.allocated (h : Kept base l) (hok : l.allocator.allocate = some (ssrc, a')) :
    Kept base ⟨a', l.log ++ [.allocated ssrc]⟩ := by
  obtain ⟨found, hfind, rfl, hbase, hnext, hpeers⟩ := allocate_eq_some hok
  obtain ⟨hge, hle⟩ := findOffset_spec hfind
  obtain ⟨-, hskip⟩ := findOffset_first hfind
  have hreturned : returned ⟨a', l.log ++ [.allocated (l.allocator.base + found)]⟩
      = l.returned ++ [l.allocator.base + found] := returned_concat
  have hmono : ∀ o, o < l.allocator.nextOffset → o < found + 1 := fun o ho =>
    (lt_succ_iff hle).2 (UInt32.le_of_lt (UInt32.lt_of_lt_of_le ho hge))
  rw [h.base_eq] at hreturned hskip hbase
  refine ⟨hbase, ?_, ?_, ?_, ?_, ?_⟩
  · rw [remembered, peers_concat, Event.peer, Option.toList_none, append_nil]
    exact hpeers.trans h.peers
  · rw [h.base_eq, hreturned, hnext]
    intro r hr
    rcases mem_append.1 hr with hr | hr
    · exact hmono _ (h.below r hr)
    · rw [mem_singleton.1 hr, add_sub_self]
      exact (lt_succ_iff hle).2 (UInt32.le_refl _)
  · rw [h.base_eq, hreturned, hnext]
    intro o ho
    refine .inr ⟨base + found, mem_append_right _ (mem_singleton_self _), ?_⟩
    rw [add_sub_self]
    exact (lt_succ_iff hle).1 ho
  · rw [h.base_eq, hreturned, hnext]
    intro o ho
    have havoid : ∀ x, l.allocator.Avoided x → a'.Avoided x := by
      intro x hx
      rwa [Avoided, hpeers]
    by_cases hold : o < l.allocator.nextOffset
    · exact (h.gaps o hold).imp_right fun hgap =>
        hgap.imp (mem_append_left _) (havoid _)
    · by_cases heq : o = found
      · subst heq
        exact .inr (.inl (mem_append_right _ (mem_singleton_self _)))
      · have hlt := UInt32.lt_of_le_of_ne ((lt_succ_iff hle).1 ho) heq
        exact .inr (.inr (havoid _ (hskip o (UInt32.not_lt.1 hold) hlt)))
  · rw [hnext]
    intro s hs
    rcases mem_append.1 hs with hs | hs
    · exact hmono _ (h.refused s hs)
    · cases mem_singleton.1 hs

theorem Kept.call (h : Kept base l) {c : Call} (hcall : l.call c = some l') : Kept base l' := by
  cases c with
  | notePeerSsrc ssrc =>
    cases hcall
    exact h.note ssrc
  | allocate =>
    simp only [Ledger.call] at hcall
    split at hcall
    · cases hcall
      exact h
    · cases hcall
      exact h.allocated ‹_›
  | markRegistered ssrc =>
    obtain ⟨a', hmark, rfl⟩ := Option.map_eq_some_iff.1 hcall
    unfold markRegistered at hmark
    split_ifs at hmark
    cases hmark
    exact h.congr rfl rfl rfl h.peers (List.Subset.refl _) h.refused

theorem run_kept {calls : List Call} (h : run call (new base hbase) calls = some l) : Kept base l :=
  run_preserves (fun _ _ _ hkept hcall => hkept.call hcall) (new_kept hbase) h

theorem notePeerSsrc_fst : (a.notePeerSsrc ssrc).1 = false ↔ a.offsetOf ssrc < a.nextOffset := by
  unfold notePeerSsrc
  split_ifs with hused hnew <;> simp [hused]

def PassedOver (base : UInt32) (l : Ledger) (ssrc : UInt32) : Prop :=
  ssrc ≠ base ∧ ssrc ∉ l.returned ∧ (ssrc = 0 ∨ ssrc ∈ l.peers) ∧
    ∃ r ∈ l.returned, ssrc - base < r - base

theorem Kept.used_iff (h : Kept base l) : l.allocator.offsetOf ssrc < l.allocator.nextOffset ↔
    ssrc = base ∨ ssrc ∈ l.returned ∨ PassedOver base l ssrc := by
  have hadd := add_offset base ssrc
  rw [offsetOf, h.base_eq]
  constructor
  · intro hused
    by_cases hret : ssrc ∈ l.returned
    · exact .inr (.inl hret)
    rcases h.gaps _ hused with hzero | hgap
    · rw [hzero, UInt32.add_zero] at hadd
      exact .inl hadd.symm
    rw [hadd] at hgap
    have havoid := hgap.resolve_left hret
    by_cases hbase : ssrc = base
    · exact .inl hbase
    refine .inr (.inr ⟨hbase, hret, ?_, ?_⟩)
    · rw [Avoided, h.peers] at havoid
      exact havoid.imp_right fun hmem => mem_eraseDups.1 (mem_of_mem_take hmem)
    · rcases h.last _ hused with hzero | ⟨r, hr, hle⟩
      · rw [hzero, UInt32.add_zero] at hadd
        exact absurd hadd.symm hbase
      · refine ⟨r, hr, UInt32.lt_of_le_of_ne hle fun heq => hret ?_⟩
        have hr' := add_offset base r
        rw [← heq, hadd] at hr'
        rwa [hr']
  · rintro (rfl | hret | ⟨-, -, -, r, hr, hlt⟩)
    · rw [UInt32.sub_self]
      exact UInt32.lt_of_le_of_lt UInt32.zero_le l.allocator.highWater_lt
    · exact h.below ssrc hret
    · exact UInt32.lt_trans hlt (h.below r hr)

theorem notePeerSsrc_refuses_iff {calls : List Call}
    (h : run call (new base hbase) calls = some l) (ssrc : UInt32) :
    ((l.allocator.notePeerSsrc ssrc).1 = false ↔ ssrc = base ∨ ssrc ∈ l.returned) ↔
      ¬ PassedOver base l ssrc := by
  rw [notePeerSsrc_fst, (run_kept hbase h).used_iff]
  constructor
  · intro hiff hpassed
    rcases hiff.1 (.inr (.inr hpassed)) with heq | hret
    · exact hpassed.1 heq
    · exact hpassed.2.1 hret
  · intro hnot
    rw [or_iff_left hnot]

def passing : List Call := [.notePeerSsrc 2, .notePeerSsrc 3, .allocate]

def passed : Ledger where
  allocator := { base := 1, nextOffset := 4, peerSsrcs := [2, 3], base_ne := by decide }
  log := [.noted 2 true, .noted 3 true, .allocated 4]

theorem notePeerSsrc_refuses_passing : run call (new 1 (by decide)) passing = some passed ∧
    (passed.allocator.notePeerSsrc 2).1 = false ∧
      ¬ ((2 : UInt32) = 1 ∨ 2 ∈ passed.returned) :=
  ⟨rfl, by decide, by decide⟩

theorem notePeerSsrc_refuses_passing_next : run call (new 1 (by decide)) passing = some passed ∧
    ((passed.allocator.notePeerSsrc 4).1 = false ↔ (4 : UInt32) = 1 ∨ 4 ∈ passed.returned) :=
  ⟨rfl, (notePeerSsrc_refuses_iff (by decide)
    (show run call _ passing = some passed from rfl) 4).2
    fun h => h.2.1 (by decide)⟩

structure Free (base : UInt32) (l : Ledger) (ssrc : UInt32) : Prop where
  above : ∀ r ∈ l.returned, r - base < ssrc - base
  ne_zero : ssrc ≠ 0
  ne_base : ssrc ≠ base
  ne_refused : .noted ssrc false ∉ l.log
  ne_remembered : ssrc ∉ l.remembered
  le : ssrc - base ≤ maxOutSsrcOffset

theorem allocate_eq_none (h : a.allocate = none) :
    a.findOffset allocateTries a.nextOffset = none := by
  unfold SsrcAllocator.allocate at h
  split at h
  · assumption
  · cases h

theorem allocate_returns_free {calls : List Call}
    (h : run call (new base hbase) calls = some l) : match l.allocator.allocate with
    | some (ssrc, _) => Free base l ssrc
    | none => ∀ ssrc, ¬ Free base l ssrc := by
  have hkept := run_kept hbase h
  split
  next ssrc a' hok =>
    obtain ⟨found, hfind, rfl, -⟩ := allocate_eq_some hok
    obtain ⟨hge, hle⟩ := findOffset_spec hfind
    obtain ⟨hfree, -⟩ := findOffset_first hfind
    rw [Avoided, hkept.peers, not_or] at hfree
    rw [hkept.base_eq] at hfree ⊢
    have hoffset := add_sub_self base found
    refine ⟨?_, hfree.1, ?_, ?_, hfree.2, by rwa [hoffset]⟩
    · rw [hoffset]
      exact fun r hr => UInt32.lt_of_lt_of_le (hkept.below r hr) hge
    · intro heq
      rw [heq, UInt32.sub_self] at hoffset
      rw [← hoffset] at hge
      exact UInt32.not_lt.2 hge (UInt32.lt_of_le_of_lt UInt32.zero_le l.allocator.highWater_lt)
    · intro hrefused
      have hlt := hkept.refused _ hrefused
      rw [hoffset] at hlt
      exact UInt32.not_lt.2 hge hlt
  next hfail =>
    intro ssrc hfree
    have hge : l.allocator.nextOffset ≤ ssrc - base := by
      refine UInt32.not_lt.1 fun hlt => ?_
      rcases hkept.last _ hlt with hzero | ⟨r, hr, hle⟩
      · exact hfree.ne_base (by rw [← add_offset base ssrc, hzero, UInt32.add_zero])
      · exact UInt32.not_lt.2 hle (hfree.above r hr)
    have havoid := findOffset_complete (allocate_eq_none hfail) hge hfree.le
    rw [hkept.base_eq, add_offset, Avoided, hkept.peers] at havoid
    exact havoid.elim hfree.ne_zero hfree.ne_remembered

def crowded : List Call :=
  ((List.range 64).map fun i => .notePeerSsrc (1000 + UInt32.ofNat i)) ++ [.notePeerSsrc 2]

theorem allocate_returns_noted : ((run call (new 1 (by decide)) crowded).any fun l =>
    l.log.contains (.noted 2 true) && l.allocator.allocate.map Prod.fst == some 2) = true := by
  decide +kernel

theorem allocate_returns_free_passing : run call (new 1 (by decide)) passing = some passed ∧
    match passed.allocator.allocate with
    | some (ssrc, _) => Free 1 passed ssrc
    | none => ∀ ssrc, ¬ Free 1 passed ssrc :=
  ⟨rfl, allocate_returns_free (by decide) (show run call _ passing = some passed from rfl)⟩

end Ledger
end SsrcAllocator
end NexusSfu.Orchestrator
