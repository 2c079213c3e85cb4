import Mathlib.Data.Finset.Max
import Mathlib.Data.Set.Finite.Basic
import NexusSfu.State.Orswot

namespace NexusSfu.State

open Base List

namespace Orswot

variable {T : Type} [DecidableEq T] {s a b c : Orswot T} {x y : T} {d e : Dot}
  {adds : List (T × Dot)} {buried : List Dot}

structure Knows (adds : List (T × Dot)) (buried : List Dot) (s : Orswot T) : Prop where
  unique : (adds.map Prod.snd).Nodup
  valid : ∀ e ∈ adds, e.2.Valid
  room : (adds.map Prod.fst).dedup.length ≤ s.maxElements
  space : buried.length ≤ s.maxTombstones
  keys : (s.elements.map Prod.fst).Nodup
  tombs : s.tombstones.Nodup
  born : ∀ e ∈ s.elements, e ∈ adds
  dead : ∀ d ∈ s.tombstones, d ∈ buried
  live : ∀ e ∈ s.elements, e.2 ∉ s.tombstones

omit [DecidableEq T] in
theorem eq_of_dot (hu : (adds.map Prod.snd).Nodup) {p q : T × Dot} (hp : p ∈ adds)
    (hq : q ∈ adds) (h : p.2 = q.2) : p = q :=
  inj_on_of_nodup_map hu hp hq h

omit [DecidableEq T] in
theorem eq_of_key (hk : (s.elements.map Prod.fst).Nodup) (hd : (x, d) ∈ s.elements)
    (he : (x, e) ∈ s.elements) : d = e :=
  (Prod.mk.inj (inj_on_of_nodup_map hk hd he rfl)).2

namespace Knows

theorem dots (h : Knows adds buried s) : (s.elements.map Prod.snd).Nodup :=
  List.Nodup.map_on (fun _ hp _ hq hpq => eq_of_dot h.unique (h.born _ hp) (h.born _ hq) hpq)
    (List.Nodup.of_map _ h.keys)

theorem len_lt (h : Knows adds buried s) (hx : x ∈ adds.map Prod.fst)
    (hn : x ∉ s.elements.map Prod.fst) : s.len < s.maxElements := by
  have hsub : (x :: s.elements.map Prod.fst) ⊆ (adds.map Prod.fst).dedup := by
    intro y hy
    rw [mem_dedup]
    rcases mem_cons.1 hy with rfl | hy
    · exact hx
    · obtain ⟨p, hp, rfl⟩ := mem_map.1 hy
      exact mem_map_of_mem (h.born p hp)
  have := (subperm_of_subset (nodup_cons.2 ⟨hn, h.keys⟩) hsub).length_le
  simp only [length_cons, length_map] at this
  exact lt_of_lt_of_le this h.room

theorem tombstones_lt (h : Knows adds buried s) (hd : d ∈ buried) (hn : d ∉ s.tombstones) :
    s.tombstones.length < s.maxTombstones := by
  have hsub : (d :: s.tombstones) ⊆ buried := by
    intro y hy
    rcases mem_cons.1 hy with rfl | hy
    · exact hd
    · exact h.dead y hy
  exact lt_of_lt_of_le (subperm_of_subset (nodup_cons.2 ⟨hn, h.tombs⟩) hsub).length_le h.space

theorem mono {buried' : List Dot} (h : Knows adds buried s) (hsub : buried ⊆ buried')
    (hle : buried'.length ≤ s.maxTombstones) : Knows adds buried' s :=
  { h with space := hle, dead := fun d hd => hsub (h.dead d hd) }

end Knows

section Tombstones

theorem mem_addTombstone (h : Knows adds buried s) (hd : d ∈ buried) :
    e ∈ (s.addTombstone d).tombstones ↔ e ∈ s.tombstones ∨ e = d := by
  rw [addTombstone]
  split_ifs with hin hlt
  · have hin : d ∈ s.tombstones := by simpa [hasTombstone] using hin
    exact ⟨.inl, fun he => he.elim id (· ▸ hin)⟩
  · simp
  · exact absurd (h.tombstones_lt hd (by simpa [hasTombstone] using hin)) hlt

theorem nodup_addTombstone (h : Knows adds buried s) (hd : d ∈ buried) :
    (s.addTombstone d).tombstones.Nodup := by
  rw [addTombstone]
  split_ifs with hin hlt
  · exact h.tombs
  · have hin : d ∉ s.tombstones := by simpa [hasTombstone] using hin
    exact nodup_append.2 ⟨h.tombs, nodup_singleton d, by
      rintro y hy z hz rfl
      exact hin (mem_singleton.1 hz ▸ hy)⟩
  · exact absurd (h.tombstones_lt hd (by simpa [hasTombstone] using hin)) hlt

omit [DecidableEq T] in
@[simp] theorem addTombstone_elements : (s.addTombstone d).elements = s.elements := by
  unfold addTombstone
  split_ifs <;> rfl

omit [DecidableEq T] in
@[simp] theorem addTombstone_maxElements : (s.addTombstone d).maxElements = s.maxElements := by
  unfold addTombstone
  split_ifs <;> rfl

omit [DecidableEq T] in
@[simp] theorem addTombstone_maxTombstones :
    (s.addTombstone d).maxTombstones = s.maxTombstones := by
  unfold addTombstone
  split_ifs <;> rfl

omit [DecidableEq T] in
theorem removeByDot_elements : (s.removeByDot d).elements = s.elements.eraseP (fun e => e.2 = d) :=
  items_replaceFirst_none s.entries

theorem mem_mergeTombstone (h : Knows adds buried s) {p : T × Dot} :
    p ∈ (s.mergeTombstone d).elements ↔ p ∈ s.elements ∧ p.2 ≠ d := by
  rw [mergeTombstone, removeByDot_elements, addTombstone_elements, mem_eraseP_key h.dots]

theorem Knows.mergeTombstone (h : Knows adds buried s) (hd : d ∈ buried) :
    Knows adds buried (s.mergeTombstone d) where
  unique := h.unique
  valid := h.valid
  room := by simpa [Orswot.mergeTombstone, removeByDot] using h.room
  space := by simpa [Orswot.mergeTombstone, removeByDot] using h.space
  keys := by
    rw [Orswot.mergeTombstone, removeByDot_elements, addTombstone_elements]
    exact h.keys.sublist (eraseP_sublist.map _)
  tombs := nodup_addTombstone h hd
  born p hp := h.born p ((mem_mergeTombstone h).1 hp).1
  dead e he := ((mem_addTombstone h hd).1 he).elim (h.dead e) (· ▸ hd)
  live p hp he := by
    obtain ⟨hp, hpd⟩ := (mem_mergeTombstone h).1 hp
    exact ((mem_addTombstone h hd).1 he).elim (h.live p hp) hpd

theorem mergeTombstones_spec (h : Knows adds buried s) {ds : List Dot} (hds : ds ⊆ buried) :
    Knows adds buried (ds.foldl Orswot.mergeTombstone s) ∧
    (∀ e, e ∈ (ds.foldl Orswot.mergeTombstone s).tombstones ↔
      e ∈ s.tombstones ∨ e ∈ ds) ∧
    ∀ p, p ∈ (ds.foldl Orswot.mergeTombstone s).elements ↔
      p ∈ s.elements ∧ p.2 ∉ ds := by
  induction ds generalizing s with
  | nil => simp [h]
  | cons d ds ih =>
    obtain ⟨hd, hds⟩ := cons_subset.1 hds
    obtain ⟨hk, ht, he⟩ := ih (h.mergeTombstone hd) hds
    refine ⟨hk, fun e => ?_, fun p => ?_⟩
    · rw [foldl_cons, ht, mem_cons, ← or_assoc]
      exact or_congr_left (mem_addTombstone h hd)
    · rw [foldl_cons, he, mem_mergeTombstone h, mem_cons, not_or, and_assoc]

end Tombstones

section Elements

theorem dotOf_eq_some (hk : (s.elements.map Prod.fst).Nodup) :
    s.dotOf x = some d ↔ (x, d) ∈ s.elements := by
  rw [dotOf, Option.map_eq_some_iff]
  constructor
  · rintro ⟨⟨y, e⟩, hf, rfl⟩
    have hy : y = x := by simpa using find?_some hf
    exact hy ▸ mem_of_find?_eq_some hf
  · intro hd
    obtain ⟨⟨y, e⟩, hf⟩ := Option.isSome_iff_exists.1
      (find?_isSome.2 ⟨(x, d), hd, decide_eq_true rfl⟩ :
        (s.elements.find? fun p => p.1 = x).isSome)
    have hy : y = x := by simpa using find?_some hf
    subst hy
    exact ⟨(y, e), hf, eq_of_key hk (mem_of_find?_eq_some hf) hd⟩

theorem dotOf_eq_none : s.dotOf x = none ↔ x ∉ s.elements.map Prod.fst := by
  simp only [dotOf, Option.map_eq_none_iff, find?_eq_none, decide_eq_true_eq, mem_map, not_exists,
    not_and]

theorem setEntry_elements (p : T × Dot) :
    (s.setEntry x (some p)).elements = replaceFirst (fun e => e.1 = x) p s.elements :=
  items_replaceFirst_some s.entries

omit [DecidableEq T] in
theorem mem_iff_isGreatest (hk : (s.elements.map Prod.fst).Nodup) :
    (x, d) ∈ s.elements ↔ IsGreatest {e | (x, e) ∈ s.elements} d :=
  ⟨fun h => ⟨h, fun _ he => (eq_of_key hk he h).le⟩, fun h => h.1⟩

structure Added (s : Orswot T) (x : T) (d : Dot) (s' : Orswot T) : Prop where
  elements : ∀ y e, (y, e) ∈ s'.elements ↔
    IsGreatest {e | (y, e) ∈ s.elements ∨ (y, e) = (x, d)} e
  tombstones : s'.tombstones = s.tombstones
  keys : (s'.elements.map Prod.fst).Nodup
  maxElements : s'.maxElements = s.maxElements
  maxTombstones : s'.maxTombstones = s.maxTombstones

omit [DecidableEq T] in
theorem isGreatest_other (hk : (s.elements.map Prod.fst).Nodup) (hy : y ≠ x) :
    IsGreatest {e | (y, e) ∈ s.elements ∨ (y, e) = (x, d)} e ↔ (y, e) ∈ s.elements := by
  rw [mem_iff_isGreatest hk]
  congr! 2
  ext e
  simp [hy]

theorem isGreatest_iff {S : Set Dot} {g : Dot} (h : IsGreatest S g) : IsGreatest S e ↔ e = g :=
  ⟨fun he => he.unique h, fun he => he ▸ h⟩

theorem add_spec (h : Knows adds buried s) (hx : (x, d) ∈ adds) (hd : s.isTombstoned d = false) :
    (∃ b, (s.add x d).1 = .ok b) ∧ Added s x d (s.add x d).2 := by
  obtain ⟨hactor, hclock⟩ := h.valid _ hx
  rw [add, if_neg (by simpa using hactor), if_neg hclock, if_neg (by simp [hd])]
  cases hdot : s.dotOf x with
  | some old =>
    have hold := (dotOf_eq_some h.keys).1 hdot
    dsimp only
    split_ifs with hlt
    · refine ⟨⟨true, rfl⟩, fun y e => ?_, rfl, ?_, rfl, rfl⟩
      · rw [setEntry_elements, mem_replaceFirst_key h.keys (k := x) rfl ⟨_, hold, rfl⟩]
        by_cases hy : y = x
        · subst hy
          have hg : IsGreatest {e | (y, e) ∈ s.elements ∨ (y, e) = (y, d)} d := by
            refine ⟨.inr rfl, ?_⟩
            rintro e (he | he)
            · exact (eq_of_key h.keys he hold).le.trans hlt.le
            · exact (Prod.mk.inj he).2.le
          rw [isGreatest_iff hg]
          simp
        · rw [isGreatest_other h.keys hy]
          simp [hy]
      · rw [setEntry_elements, map_replaceFirst_key (k := x) rfl]
        exact h.keys
    · refine ⟨⟨false, rfl⟩, fun y e => ?_, rfl, h.keys, rfl, rfl⟩
      by_cases hy : y = x
      · subst hy
        have hg : IsGreatest {e | (y, e) ∈ s.elements ∨ (y, e) = (y, d)} old := by
          refine ⟨.inl hold, ?_⟩
          rintro e (he | he)
          · exact (eq_of_key h.keys he hold).le
          · exact (Prod.mk.inj he).2.le.trans (not_lt.1 hlt)
        rw [isGreatest_iff hg]
        exact ⟨fun he => eq_of_key h.keys he hold, fun he => he ▸ hold⟩
      · rw [isGreatest_other h.keys hy]
  | none =>
    have hnew := dotOf_eq_none.1 hdot
    have hlt := h.len_lt (mem_map_of_mem hx) hnew
    have hperm : (items (fill (x, d) s.entries)).Perm ((x, d) :: s.elements) := items_fill _ _
    dsimp only
    rw [if_neg (by omega)]
    refine ⟨⟨true, rfl⟩, fun y e => ?_, rfl, ?_, rfl, rfl⟩
    · refine hperm.mem_iff.trans ?_
      by_cases hy : y = x
      · subst hy
        have hn : ∀ e, (y, e) ∉ s.elements := fun e he => hnew (mem_map_of_mem he)
        have hg : IsGreatest {e | (y, e) ∈ s.elements ∨ (y, e) = (y, d)} d := by
          refine ⟨.inr rfl, ?_⟩
          rintro e (he | he)
          · exact absurd he (hn e)
          · exact (Prod.mk.inj he).2.le
        rw [isGreatest_iff hg]
        simp [hn]
      · rw [isGreatest_other h.keys hy]
        simp [hy]
    · exact ((hperm.map Prod.fst).nodup_iff).2 (nodup_cons.2 ⟨hnew, h.keys⟩)

omit [DecidableEq T] in
theorem not_mem_of_not_tombstoned (hd : s.isTombstoned d = false) : d ∉ s.tombstones := by
  intro hin
  have : s.isTombstoned d = true := any_eq_true.2 ⟨d, hin, by simp⟩
  simp [hd] at this

theorem Knows.added {s' : Orswot T} (h : Knows adds buried s) (hx : (x, d) ∈ adds)
    (hd : s.isTombstoned d = false) (ha : Added s x d s') : Knows adds buried s' where
  unique := h.unique
  valid := h.valid
  room := ha.maxElements ▸ h.room
  space := ha.maxTombstones ▸ h.space
  keys := ha.keys
  tombs := ha.tombstones ▸ h.tombs
  born := by
    rintro ⟨y, e⟩ he
    rcases ((ha.elements y e).1 he).1 with he | he
    · exact h.born _ he
    · exact he ▸ hx
  dead := ha.tombstones ▸ h.dead
  live := by
    rintro ⟨y, e⟩ he
    rw [ha.tombstones]
    rcases ((ha.elements y e).1 he).1 with he | he
    · exact h.live _ he
    · exact (Prod.mk.inj he).2 ▸ not_mem_of_not_tombstoned hd

theorem isGreatest_or {P Q R : Dot → Prop} (hR : ∀ e, R e ↔ IsGreatest {e | P e} e)
    (hne : ∀ e, P e → ∃ g, R g) :
    IsGreatest {e | R e ∨ Q e} d ↔ IsGreatest {e | P e ∨ Q e} d := by
  constructor
  · rintro ⟨hd, hub⟩
    refine ⟨hd.imp_left fun hr => ((hR d).1 hr).1, ?_⟩
    rintro e (he | he)
    · obtain ⟨g, hg⟩ := hne e he
      exact (((hR g).1 hg).2 he).trans (hub (.inl hg))
    · exact hub (.inr he)
  · rintro ⟨hd, hub⟩
    refine ⟨hd.imp_left fun hp => (hR d).2 ⟨hp, fun e he => hub (.inl he)⟩, ?_⟩
    rintro e (he | he)
    · exact hub (.inl ((hR e).1 he).1)
    · exact hub (.inr he)

theorem exists_isGreatest {S : Set Dot} (l : List Dot) (hl : ∀ e ∈ S, e ∈ l) (he : e ∈ S) :
    ∃ g, IsGreatest S g := by
  have hfin : S.Finite := (l.toFinset.finite_toSet).subset fun e he => by simpa using hl e he
  have hne : hfin.toFinset.Nonempty := ⟨e, by simpa using he⟩
  refine ⟨hfin.toFinset.max' hne, ?_⟩
  simpa using hfin.toFinset.isGreatest_max' hne

theorem mergeElements_spec (h : Knows adds buried s) {l : List (T × Dot)} (hl : l ⊆ adds) :
    (mergeElements s l).1 = .ok () ∧ Knows adds buried (mergeElements s l).2 ∧
    (mergeElements s l).2.tombstones = s.tombstones ∧
      ∀ y e, (y, e) ∈ (mergeElements s l).2.elements ↔
      IsGreatest {e | (y, e) ∈ s.elements ∨ (y, e) ∈ l ∧ s.isTombstoned e = false} e := by
  induction l generalizing s with
  | nil =>
    refine ⟨rfl, h, rfl, fun y e => ?_⟩
    simpa [mergeElements] using mem_iff_isGreatest h.keys
  | cons p l ih =>
    obtain ⟨x, d⟩ := p
    obtain ⟨hx, hl⟩ := cons_subset.1 hl
    rw [mergeElements]
    split_ifs with hd
    · obtain ⟨hok, hk, ht, he⟩ := ih h hl
      refine ⟨hok, hk, ht, fun y e => (he y e).trans ?_⟩
      congr! 2
      ext e
      refine or_congr_right (and_congr_left fun he => ?_)
      rw [mem_cons, or_iff_right]
      intro heq
      rw [(Prod.mk.inj heq).2, hd] at he
      cases he
    · have hd : s.isTombstoned d = false := by simpa using hd
      obtain ⟨⟨b, hb⟩, ha⟩ := add_spec h hx hd
      obtain ⟨hok, hk, ht, he⟩ := ih (h.added hx hd ha) hl
      have hcov : (s.add x d).2.isTombstoned = s.isTombstoned := by
        funext e
        rw [isTombstoned, isTombstoned, ha.tombstones]
      rw [← Prod.eta (s.add x d), hb]
      refine ⟨hok, hk, ht.trans ha.tombstones, fun y e => (he y e).trans ?_⟩
      rw [hcov, isGreatest_or (ha.elements y)]
      · congr! 2
        ext e
        rw [mem_cons, or_assoc, or_and_right]
        refine or_congr_right (or_congr_left ⟨fun heq => ⟨heq, ?_⟩, fun heq => heq.1⟩)
        rw [(Prod.mk.inj heq).2, hd]
      · intro e he
        have hl : ∀ e ∈ {e | (y, e) ∈ s.elements ∨ (y, e) = (x, d)},
            e ∈ d :: s.elements.map Prod.snd := by
          rintro e (he | he)
          · exact mem_cons_of_mem _ (mem_map_of_mem he)
          · exact (Prod.mk.inj he).2 ▸ mem_cons_self
        obtain ⟨g, hg⟩ := exists_isGreatest _ hl he
        exact ⟨g, (ha.elements y g).2 hg⟩

omit [DecidableEq T] in
theorem isTombstoned_or
    (h : ∀ d, d ∈ s.tombstones ↔ d ∈ a.tombstones ∨ d ∈ b.tombstones) :
    s.isTombstoned e = false ↔ a.isTombstoned e = false ∧ b.isTombstoned e = false := by
  simp only [isTombstoned, any_eq_false, h]
  exact ⟨fun hs => ⟨fun d hd => hs d (.inl hd), fun d hd => hs d (.inr hd)⟩,
    fun hs d hd => hd.elim (hs.1 d) (hs.2 d)⟩

theorem merge_spec (ha : Knows adds buried a) (hb : Knows adds buried b) :
    (a.merge b).1 = .ok () ∧ Knows adds buried (a.merge b).2 ∧
    (∀ d, d ∈ (a.merge b).2.tombstones ↔ d ∈ a.tombstones ∨ d ∈ b.tombstones) ∧
    ∀ y e, (y, e) ∈ (a.merge b).2.elements ↔
      IsGreatest {e | (y, e) ∈ a.elements ∧ e ∉ b.tombstones ∨
        (y, e) ∈ b.elements ∧ a.isTombstoned e = false ∧ b.isTombstoned e = false} e := by
  obtain ⟨hk, ht, he⟩ := mergeTombstones_spec ha hb.dead
  obtain ⟨hok, hk', ht', he'⟩ := mergeElements_spec hk (l := b.elements) hb.born
  refine ⟨hok, hk', fun d => ?_, fun y e => (he' y e).trans ?_⟩
  · rw [merge, ht', ht]
  · congr! 2
    ext e
    rw [he, isTombstoned_or ht]

theorem Knows.merge (ha : Knows adds buried a) (hb : Knows adds buried b) :
    Knows adds buried (a.merge b).2 :=
  (merge_spec ha hb).2.1

inductive Adds (s : Orswot T) (x : T) (d : Dot) : Except CrdtError Bool × Orswot T → Prop
  | invalid (e : CrdtError) (hv : ¬ d.Valid) : Adds s x d (.error e, s)
  | tombstoned (hv : d.Valid) (ht : s.isTombstoned d = true) : Adds s x d (.ok false, s)
  | older (hv : d.Valid) (ht : s.isTombstoned d = false) {old : Dot} (hx : s.dotOf x = some old)
      (hle : d ≤ old) : Adds s x d (.ok false, s)
  | renewed (hv : d.Valid) (ht : s.isTombstoned d = false) {old : Dot} (hx : s.dotOf x = some old)
      (hlt : old < d) : Adds s x d (.ok true, s.setEntry x (some (x, d)))
  | full (hv : d.Valid) (ht : s.isTombstoned d = false) (hx : s.dotOf x = none)
      (hle : s.maxElements ≤ s.len) : Adds s x d (.error (.capacityExhausted s.maxElements), s)
  | added (hv : d.Valid) (ht : s.isTombstoned d = false) (hx : s.dotOf x = none)
      (hlt : s.len < s.maxElements) : Adds s x d
        (.ok true, { s with entries := fill (x, d) s.entries })

theorem add_adds (s : Orswot T) (x : T) (d : Dot) : s.Adds x d (s.add x d) := by
  rw [add]
  by_cases hactor : d.actorId ≥ maxActors
  · rw [if_pos hactor]
    exact .invalid _ fun hv => not_lt.2 hactor hv.1
  by_cases hclock : d.clock = 0
  · rw [if_neg hactor, if_pos hclock]
    exact .invalid _ fun hv => hv.2 hclock
  have hv : d.Valid := ⟨not_le.1 hactor, hclock⟩
  by_cases htomb : s.isTombstoned d = true
  · rw [if_neg hactor, if_neg hclock, if_pos htomb]
    exact .tombstoned hv htomb
  rw [if_neg hactor, if_neg hclock, if_neg htomb]
  have htomb := Bool.eq_false_iff.2 htomb
  cases hdot : s.dotOf x with
  | some old =>
    dsimp only
    split_ifs with hlt
    · exact .renewed hv htomb hdot hlt
    · exact .older hv htomb hdot (not_lt.1 hlt)
  | none =>
    dsimp only
    split_ifs with hfull
    · exact .full hv htomb hdot hfull
    · exact .added hv htomb hdot (not_le.1 hfull)

theorem Adds.of_error {r : Except CrdtError Bool × Orswot T} (h : s.Adds x d r) {err : CrdtError}
    (he : r.1 = .error err) : r.2 = s := by
  cases h with
  | invalid | full => rfl
  | tombstoned | older | renewed | added => cases he

theorem add_error {err : CrdtError} (h : (s.add x d).1 = .error err) : (s.add x d).2 = s :=
  (add_adds s x d).of_error h

theorem Adds.limits {r : Except CrdtError Bool × Orswot T} (h : s.Adds x d r) :
    r.2.maxElements = s.maxElements ∧ r.2.maxTombstones = s.maxTombstones := by
  cases h <;> exact ⟨rfl, rfl⟩

theorem Adds.ring {r : Except CrdtError Bool × Orswot T} (h : s.Adds x d r) :
    r.2.tombstones = s.tombstones ∧ r.2.nextTombstone = s.nextTombstone := by
  cases h <;> exact ⟨rfl, rfl⟩

theorem Adds.keys {r : Except CrdtError Bool × Orswot T} (h : s.Adds x d r)
    (hk : (s.elements.map Prod.fst).Nodup) : (r.2.elements.map Prod.fst).Nodup := by
  cases h with
  | invalid | tombstoned | older | full => exact hk
  | renewed =>
    rw [setEntry_elements, map_replaceFirst_key (k := x) rfl]
    exact hk
  | added _ _ hx =>
    have hperm := (items_fill (x, d) s.entries).map Prod.fst
    exact hperm.nodup_iff.2 (nodup_cons.2 ⟨dotOf_eq_none.1 hx, hk⟩)

theorem Adds.mem {r : Except CrdtError Bool × Orswot T} (h : s.Adds x d r) {p : T × Dot}
    (hp : p ∈ r.2.elements) :
    p ∈ s.elements ∨ p = (x, d) ∧ d.Valid := by
  cases h with
  | invalid | tombstoned | older | full => exact .inl hp
  | renewed hv =>
    rw [setEntry_elements] at hp
    exact (mem_of_mem_replaceFirst hp).symm.imp_right fun hp => ⟨hp, hv⟩
  | added hv =>
    have hp := (items_fill (x, d) s.entries).mem_iff.1 hp
    exact (mem_cons.1 hp).symm.imp_right fun hp => ⟨hp, hv⟩

theorem remove_elements {old : Dot} (hactor : d.actorId < maxActors) (hx : s.dotOf x = some old) :
    (s.remove x d).2.elements = if old ≤ d then s.elements.eraseP (fun e => e.1 = x)
      else s.elements := by
  rw [remove, if_neg (not_le.2 hactor), hx]
  dsimp only
  split_ifs
  · exact (items_replaceFirst_none _).trans (congrArg _ addTombstone_elements)
  · rfl

theorem remove_sublist (s : Orswot T) (x : T) (d : Dot) :
    (s.remove x d).2.elements.Sublist s.elements := by
  by_cases hactor : d.actorId < maxActors
  · cases hx : s.dotOf x with
    | none =>
      rw [remove, if_neg (not_le.2 hactor), hx]
    | some old =>
      rw [remove_elements hactor hx]
      split_ifs
      · exact eraseP_sublist
      · exact List.Sublist.refl _
  · rw [remove, if_pos (not_lt.1 hactor)]

theorem contains_eq_isSome (s : Orswot T) (x : T) : s.contains x = (s.dotOf x).isSome := by
  rw [contains, dotOf, Option.isSome_map, Bool.eq_iff_iff, find?_isSome, any_eq_true]

theorem contains_eq_false_iff_keys : s.contains x = false ↔ x ∉ s.elements.map Prod.fst := by
  rw [contains_eq_isSome, Option.isSome_eq_false_iff, Option.isNone_iff_eq_none, dotOf_eq_none]

theorem contains_iff_mem_keys : s.contains x = true ↔ x ∈ s.elements.map Prod.fst := by
  rw [← not_iff_not, Bool.not_eq_true, contains_eq_false_iff_keys]

theorem contains_fill (s : Orswot T) (x : T) (d : Dot) :
    ({ s with entries := fill (x, d) s.entries } : Orswot T).contains x = true :=
  contains_iff_mem_keys.2 (((items_fill (x, d) s.entries).map Prod.fst).mem_iff.2 mem_cons_self)

theorem contains_setEntry_none (s : Orswot T) (hk : (s.elements.map Prod.fst).Nodup) (x : T) :
    (s.setEntry x none).contains x = false := by
  rw [contains_eq_false_iff_keys, elements, setEntry, items_replaceFirst_none, mem_map]
  rintro ⟨p, hp, rfl⟩
  exact ((mem_eraseP_key hk).1 hp).2 rfl

theorem add_contains_iff {b : Bool} (h : (s.add x d).1 = .ok b) :
    (s.add x d).2.contains x = true ↔ s.isTombstoned d = false ∨ s.contains x = true := by
  cases hadd : s.add x d with
  | mk r o =>
    have hadds := s.add_adds x d
    rw [hadd] at hadds h
    cases hadds with
    | invalid e hv => cases h
    | full => cases h
    | tombstoned _ ht => simp [ht]
    | older _ ht hx => simp [ht, contains_eq_isSome, hx]
    | renewed _ ht hx =>
      refine iff_of_true ?_ (.inl ht)
      rw [contains_iff_mem_keys, setEntry_elements, map_replaceFirst_key (k := x) rfl,
        ← contains_iff_mem_keys, contains_eq_isSome, hx]
      rfl
    | added _ ht hx => exact iff_of_true (s.contains_fill x d) (.inl ht)

theorem remove_contains_iff (hactor : d.actorId < maxActors)
    (hk : (s.elements.map Prod.fst).Nodup) :
    (s.remove x d).2.contains x = false ↔ ∀ old, s.dotOf x = some old → old ≤ d := by
  rw [remove, if_neg (not_le.2 hactor)]
  cases hx : s.dotOf x with
  | none => exact iff_of_true (contains_eq_false_iff_keys.2 (dotOf_eq_none.1 hx)) nofun
  | some old =>
    dsimp only
    split_ifs with hle
    · refine iff_of_true ?_ fun o ho => Option.some.inj ho ▸ hle
      refine contains_setEntry_none _ ?_ x
      rwa [addTombstone_elements]
    · refine iff_of_false ?_ fun h => hle (h old rfl)
      rw [contains_eq_isSome, hx]
      exact Bool.false_ne_true.symm

theorem remove_maxElements : (s.remove x d).2.maxElements = s.maxElements := by
  unfold remove
  split_ifs
  · rfl
  · split
    · split_ifs
      · exact addTombstone_maxElements
      · rfl
    · rfl

end Elements
end Orswot
end NexusSfu.State
