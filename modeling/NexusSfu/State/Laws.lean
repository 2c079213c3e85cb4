import NexusSfu.State.Merge

namespace NexusSfu.State

open Base List

namespace Orswot

variable {T : Type} [DecidableEq T] {s a b c : Orswot T} {x y : T} {d e g : Dot} {p : T × Dot}
  {adds : List (T × Dot)} {buried : List Dot} {l : List (Orswot T)}

def survivors (l : List (Orswot T)) (y : T) : Set Dot :=
  {e | (∃ s ∈ l, (y, e) ∈ s.elements) ∧ ∀ s ∈ l, e ∉ s.tombstones}

/-- No set of `l` has removed `p`, and whatever they hold of its element that is newer, one of them
has removed. -/
def Newest (l : List (Orswot T)) (p : T × Dot) : Prop :=
  (∀ t ∈ l, p.2 ∉ t.tombstones) ∧ ∀ t ∈ l, ∀ q ∈ t.elements, q.1 = p.1 →
    (∀ u ∈ l, q.2 ∉ u.tombstones) → q.2 ≤ p.2

/-- What is newest of an element is in both sets, or no tombstone of either covers it. -/
def HeldOrClear (a b : Orswot T) : Prop :=
  ∀ s ∈ [a, b], ∀ p ∈ s.elements, Newest [a, b] p →
    p ∈ a.elements ∧ p ∈ b.elements ∨ a.isTombstoned p.2 = false ∧
    b.isTombstoned p.2 = false

/-- A tombstone covers no element of the sets that none of them has removed. -/
def Clear (l : List (Orswot T)) : Prop :=
  ∀ s ∈ l, ∀ p ∈ s.elements, (∀ t ∈ l, p.2 ∉ t.tombstones) →
    ∀ t ∈ l, t.isTombstoned p.2 = false

/-- Merging `t` into `s` puts something newer in the place of `p`, which `u` then takes out. -/
def Masked (s t u : Orswot T) (p : T × Dot) : Prop :=
  p ∉ u.elements ∧
    ((p ∈ s.elements ∧ ∃ q ∈ t.elements, q.1 = p.1 ∧ p.2 < q.2 ∧
      q.2 ∈ u.tombstones ∧
        s.isTombstoned q.2 = false ∧ t.isTombstoned q.2 = false) ∨
      (p ∈ t.elements ∧ ∃ q ∈ s.elements, q.1 = p.1 ∧ p.2 < q.2 ∧
        q.2 ∈ u.tombstones ∧ q.2 ∉ t.tombstones))

/-- Both ways to merge three sets mask the same. -/
def MaskedAlike (a b c : Orswot T) : Prop :=
  ∀ s ∈ [a, b, c], ∀ p ∈ s.elements, Newest [a, b, c] p →
    (Masked a b c p ↔ Masked b c a p)

instance (l : List (Orswot T)) (p : T × Dot) : Decidable (Newest l p) :=
  inferInstanceAs (Decidable (_ ∧ ∀ t ∈ l, ∀ q ∈ t.elements, _))

instance (a b : Orswot T) : Decidable (HeldOrClear a b) :=
  inferInstanceAs (Decidable (∀ s ∈ [a, b], ∀ p ∈ s.elements, _))

instance (l : List (Orswot T)) : Decidable (Clear l) :=
  inferInstanceAs (Decidable (∀ s ∈ l, ∀ p ∈ s.elements, _))

instance (s t u : Orswot T) (p : T × Dot) : Decidable (Masked s t u p) :=
  inferInstanceAs
    (Decidable (_ ∧ (_ ∧ (∃ q ∈ t.elements, _) ∨ _ ∧ ∃ q ∈ s.elements, _)))

instance (a b c : Orswot T) : Decidable (MaskedAlike a b c) :=
  inferInstanceAs (Decidable (∀ s ∈ [a, b, c], ∀ p ∈ s.elements, _))

def SameAs (a b : Orswot T) : Prop :=
  (∀ y e, (y, e) ∈ a.elements ↔ (y, e) ∈ b.elements) ∧ ∀ d, d ∈ a.tombstones ↔
    d ∈ b.tombstones

theorem snapshot_eq_iff (ha : Knows adds buried a) (hb : Knows adds buried b) :
    a.snapshot.eq b.snapshot = true ↔ SameAs a b := by
  have hae := Nodup.of_map _ ha.keys
  have hbe := Nodup.of_map _ hb.keys
  simp only [OrswotSnapshot.eq, snapshot, Bool.and_eq_true, beq_iff_eq, all_eq_true,
    contains_iff_mem]
  constructor
  · rintro ⟨⟨⟨hel, htl⟩, he⟩, ht⟩
    have hperm := (hae.subperm he).perm_of_length_le hel.ge
    exact ⟨fun y e => hperm.mem_iff, fun d =>
      ((ha.tombs.subperm ht).perm_of_length_le htl.ge).mem_iff⟩
  · rintro ⟨he, ht⟩
    have heq : a.elements.Perm b.elements := (perm_ext_iff_of_nodup hae hbe).2 fun p => he p.1 p.2
    have htq : a.tombstones.Perm b.tombstones := (perm_ext_iff_of_nodup ha.tombs hb.tombs).2 ht
    exact ⟨⟨⟨heq.length_eq, htq.length_eq⟩, fun p hp => heq.subset hp⟩,
      fun d hd => htq.subset hd⟩

omit [DecidableEq T] in
theorem isGreatest_survivors : IsGreatest (survivors l y) d ↔
    (∃ s ∈ l, (y, d) ∈ s.elements) ∧ Newest l (y, d) := by
  constructor
  · rintro ⟨⟨hheld, hn⟩, hub⟩
    refine ⟨hheld, hn, fun t ht q hq hy hq' => hub ⟨⟨t, ht, ?_⟩, hq'⟩⟩
    rwa [← show q.1 = y from hy]
  · rintro ⟨hheld, hn, hub⟩
    refine ⟨⟨hheld, hn⟩, ?_⟩
    rintro e ⟨⟨t, ht, he⟩, hn'⟩
    exact hub t ht (y, e) he rfl hn'

omit [DecidableEq T] in
theorem survivors_congr {l' : List (Orswot T)} (h : ∀ s, s ∈ l ↔ s ∈ l') :
    survivors l y = survivors l' y := by
  ext e
  simp only [survivors, h]

omit [DecidableEq T] in
theorem Newest.congr {l' : List (Orswot T)} (h : ∀ s, s ∈ l ↔ s ∈ l') (hp : Newest l p) :
    Newest l' p := by
  simpa only [Newest, h] using hp

omit [DecidableEq T] in
theorem Clear.congr {l' : List (Orswot T)} (h : ∀ s, s ∈ l ↔ s ∈ l') (hx : Clear l) :
    Clear l' := by
  simpa only [Clear, h] using hx

omit [DecidableEq T] in
theorem exists_newest (he : e ∈ survivors l y) : ∃ g, IsGreatest (survivors l y) g := by
  refine exists_isGreatest ((l.flatMap elements).map Prod.snd) (fun d hd => ?_) he
  obtain ⟨⟨s, hs, hd⟩, -⟩ := hd
  exact mem_map_of_mem (f := Prod.snd) (mem_flatMap.2 ⟨s, hs, hd⟩)

omit [DecidableEq T] in
theorem mem_survivors_pair : e ∈ survivors [a, b] y ↔
    ((y, e) ∈ a.elements ∨ (y, e) ∈ b.elements) ∧ e ∉ a.tombstones ∧
      e ∉ b.tombstones := by
  simp [survivors]

/-- The dots of `y` that merging `b` into `a` chooses from. -/
def candidates (a b : Orswot T) (y : T) : Set Dot :=
  {e | (y, e) ∈ a.elements ∧ e ∉ b.tombstones ∨
    (y, e) ∈ b.elements ∧ a.isTombstoned e = false ∧ b.isTombstoned e = false}

theorem mem_merge (ha : Knows adds buried a) (hb : Knows adds buried b) :
    (y, e) ∈ (a.merge b).2.elements ↔ IsGreatest (candidates a b y) e :=
  (merge_spec ha hb).2.2.2 y e

theorem candidates_subset (ha : Knows adds buried a) : candidates a b y ⊆ survivors [a, b] y := by
  rintro e (⟨he, hn⟩ | ⟨he, hca, hcb⟩)
  · exact mem_survivors_pair.2 ⟨.inl he, ha.live _ he, hn⟩
  · exact mem_survivors_pair.2
      ⟨.inr he, not_mem_of_not_tombstoned hca, not_mem_of_not_tombstoned hcb⟩

omit [DecidableEq T] in
theorem isGreatest_of_subset {S R : Set Dot} (hsub : S ⊆ R) (hg : IsGreatest R g) :
    IsGreatest S g ↔ g ∈ S :=
  ⟨And.left, fun h => ⟨h, fun _ he => hg.2 (hsub he)⟩⟩

theorem mem_merge_iff_newest (h : HeldOrClear a b) (ha : Knows adds buried a)
    (hb : Knows adds buried b) :
    (y, e) ∈ (a.merge b).2.elements ↔ IsGreatest (survivors [a, b] y) e := by
  -- the newest survivor is a candidate
  have hkept : ∀ {g}, IsGreatest (survivors [a, b] y) g → g ∈ candidates a b y := by
    intro g hg
    obtain ⟨hg', hna, hnb⟩ := mem_survivors_pair.1 hg.1
    obtain ⟨⟨s, hs, hgs⟩, hnew⟩ := isGreatest_survivors.1 hg
    rcases h s hs (y, g) hgs hnew with ⟨hga, -⟩ | ⟨hca, hcb⟩
    · exact .inl ⟨hga, hnb⟩
    · exact hg'.elim (fun hga => .inl ⟨hga, hnb⟩) fun hgb => .inr ⟨hgb, hca, hcb⟩
  rw [mem_merge ha hb]
  constructor
  · intro he
    obtain ⟨g, hg⟩ := exists_newest (candidates_subset ha he.1)
    have hle : g ≤ e := he.2 (hkept hg)
    rwa [le_antisymm (hg.2 (candidates_subset ha he.1)) hle]
  · intro he
    exact (isGreatest_of_subset (candidates_subset ha) he).2 (hkept he)

theorem merge_comm_same_iff (ha : Knows adds buried a) (hb : Knows adds buried b) :
    SameAs (a.merge b).2 (b.merge a).2 ↔ HeldOrClear a b := by
  have hswap : ∀ s, s ∈ [a, b] ↔ s ∈ [b, a] := fun s => by simp [or_comm]
  constructor
  · rintro ⟨hsame, -⟩ s hs ⟨y, g⟩ hgs hnew
    have hg : IsGreatest (survivors [a, b] y) g :=
      isGreatest_survivors.2 ⟨⟨s, hs, hgs⟩, hnew⟩
    obtain ⟨hheld, hna, hnb⟩ := mem_survivors_pair.1 hg.1
    have hab : (y, g) ∈ (a.merge b).2.elements ↔ g ∈ candidates a b y := by
      rw [mem_merge ha hb, isGreatest_of_subset (candidates_subset ha) hg]
    have hba : (y, g) ∈ (b.merge a).2.elements ↔ g ∈ candidates b a y := by
      rw [survivors_congr hswap] at hg
      rw [mem_merge hb ha, isGreatest_of_subset (candidates_subset hb) hg]
    by_cases hga : (y, g) ∈ a.elements
    · by_cases hgb : (y, g) ∈ b.elements
      · exact .inl ⟨hga, hgb⟩
      -- kept where `a` receives, so also where it is merged into `b`
      rcases hba.1 ((hsame y g).1 (hab.2 (.inl ⟨hga, hnb⟩))) with ⟨hgb', -⟩ |
          ⟨-, hcb, hca⟩
      · exact absurd hgb' hgb
      · exact .inr ⟨hca, hcb⟩
    · have hgb := hheld.resolve_left hga
      rcases hab.1 ((hsame y g).2 (hba.2 (.inl ⟨hgb, hna⟩))) with ⟨hga', -⟩ |
          ⟨-, hca, hcb⟩
      · exact absurd hga' hga
      · exact .inr ⟨hca, hcb⟩
  · intro h
    have h' : HeldOrClear b a := fun s hs p hp hnew =>
      (h s ((hswap s).2 hs) p hp (hnew.congr fun s => (hswap s).symm)).imp And.symm And.symm
    refine ⟨fun y e => ?_, fun d => ?_⟩
    · rw [mem_merge_iff_newest h ha hb, mem_merge_iff_newest h' hb ha,
        survivors_congr hswap]
    · rw [(merge_spec ha hb).2.2.1, (merge_spec hb ha).2.2.1, or_comm]

theorem merge_idem_same (ha : Knows adds buried a) : SameAs (a.merge a).2 a := by
  refine ⟨fun y e => ?_, fun d => ?_⟩
  · rw [(merge_spec ha ha).2.2.2, mem_iff_isGreatest ha.keys]
    congr! 1
    ext e
    exact ⟨fun he => he.elim (·.1) (·.1), fun he => .inl ⟨he, ha.live _ he⟩⟩
  · rw [(merge_spec ha ha).2.2.1, or_self]

/-- What is newest of three sets and not in the third is in the merge of the first two unless they
hold something newer, which the third has removed. -/
theorem mem_merge_iff_not_masked (hx : Clear [a, b, c]) (ha : Knows adds buried a)
    (hb : Knows adds buried b) (hg : IsGreatest (survivors [a, b, c] y) g)
    (hc : (y, g) ∉ c.elements) :
    (y, g) ∈ (a.merge b).2.elements ↔ ¬ Masked a b c (y, g) := by
  obtain ⟨⟨s, hs, hgs⟩, hn⟩ := hg.1
  have hna := hn a (by simp)
  have hnb := hn b (by simp)
  have hclear := hx s hs (y, g) hgs hn
  have hcand : g ∈ candidates a b y := by
    simp only [mem_cons, not_mem_nil, or_false] at hs
    rcases hs with rfl | rfl | rfl
    · exact .inl ⟨hgs, hnb⟩
    · exact .inr ⟨hgs, hclear a (by simp), hclear s (by simp)⟩
    · exact absurd hgs hc
  rw [mem_merge ha hb]
  -- a newer candidate is no survivor of the three, so the third has removed it
  have hremoved : ∀ e ∈ candidates a b y, g < e → e ∈ c.tombstones := by
    intro e he hlt
    obtain ⟨hheld, hea, heb⟩ := mem_survivors_pair.1 (candidates_subset ha he)
    by_contra hec
    have hsurv : e ∈ survivors [a, b, c] y := by
      refine ⟨?_, by simp [hea, heb, hec]⟩
      exact hheld.elim (fun h => ⟨a, by simp, h⟩) fun h => ⟨b, by simp, h⟩
    exact absurd (hg.2 hsurv) (not_le.2 hlt)
  constructor
  · rintro ⟨-, hub⟩ ⟨-, ⟨-, ⟨z, e⟩, he, hz, hlt, -, hca, hcb⟩ |
      ⟨-, ⟨z, e⟩, he, hz, hlt, -, heb⟩⟩
    · cases hz
      exact absurd (hub (.inr ⟨he, hca, hcb⟩)) (not_le.2 hlt)
    · cases hz
      exact absurd (hub (.inl ⟨he, heb⟩)) (not_le.2 hlt)
  · intro hmask
    refine ⟨hcand, fun e he => not_lt.1 fun hlt => hmask ⟨hc, ?_⟩⟩
    have hec := hremoved e he hlt
    rcases he with ⟨he, heb⟩ | ⟨he, hca, hcb⟩
    · refine .inr ⟨?_, (y, e), he, rfl, hlt, hec, heb⟩
      rcases hcand with ⟨hga, -⟩ | ⟨hgb, -⟩
      · exact absurd (eq_of_key ha.keys hga he) hlt.ne
      · exact hgb
    · refine .inl ⟨?_, (y, e), he, rfl, hlt, hec, hca, hcb⟩
      rcases hcand with ⟨hga, -⟩ | ⟨hgb, -⟩
      · exact hga
      · exact absurd (eq_of_key hb.keys hgb he) hlt.ne

section Nested

variable (ha : Knows adds buried a) (hb : Knows adds buried b) (hc : Knows adds buried c)

include ha hb

theorem isTombstoned_merge : (a.merge b).2.isTombstoned e = false ↔
    a.isTombstoned e = false ∧ b.isTombstoned e = false :=
  isTombstoned_or (merge_spec ha hb).2.2.1

theorem mem_of_mem_merge (h : (y, e) ∈ (a.merge b).2.elements) :
    ((y, e) ∈ a.elements ∨ (y, e) ∈ b.elements) ∧ e ∉ a.tombstones ∧
      e ∉ b.tombstones :=
  mem_survivors_pair.1 (candidates_subset ha ((mem_merge ha hb).1 h).1)

theorem candidates_left_subset : candidates (a.merge b).2 c y ⊆ survivors [a, b, c] y := by
  intro e he
  obtain ⟨hheld, hab, hnc⟩ := mem_survivors_pair.1 (candidates_subset (ha.merge hb) he)
  rw [(merge_spec ha hb).2.2.1, not_or] at hab
  refine ⟨?_, by simp [hab, hnc]⟩
  rcases hheld with he | he
  · exact (mem_of_mem_merge ha hb he).1.elim (fun h => ⟨a, by simp, h⟩) fun h =>
      ⟨b, by simp, h⟩
  · exact ⟨c, by simp, he⟩

include hc

theorem candidates_right_subset : candidates a (b.merge c).2 y ⊆ survivors [a, b, c] y := by
  intro e he
  obtain ⟨hheld, hna, hbc⟩ := mem_survivors_pair.1 (candidates_subset ha he)
  rw [(merge_spec hb hc).2.2.1, not_or] at hbc
  refine ⟨?_, by simp [hna, hbc]⟩
  rcases hheld with he | he
  · exact ⟨a, by simp, he⟩
  · exact (mem_of_mem_merge hb hc he).1.elim (fun h => ⟨b, by simp, h⟩) fun h =>
      ⟨c, by simp, h⟩

section Newest

variable (hx : Clear [a, b, c]) (hg : IsGreatest (survivors [a, b, c] y) g)

include hx hg

theorem mem_left_iff :
    (y, g) ∈ ((a.merge b).2.merge c).2.elements ↔ ¬ Masked a b c (y, g) := by
  obtain ⟨⟨s, hs, hgs⟩, hn⟩ := hg.1
  have hclear := hx s hs (y, g) hgs hn
  rw [mem_merge (ha.merge hb) hc, isGreatest_of_subset (candidates_left_subset ha hb) hg]
  by_cases hgc : (y, g) ∈ c.elements
  · refine ⟨fun _ hmask => hmask.1 hgc, fun _ => .inr ⟨hgc, ?_, hclear c (by simp)⟩⟩
    exact (isTombstoned_merge ha hb).2 ⟨hclear a (by simp), hclear b (by simp)⟩
  · rw [← mem_merge_iff_not_masked hx ha hb hg hgc]
    exact ⟨fun h => h.elim And.left fun h => absurd h.1 hgc,
      fun h => .inl ⟨h, hn c (by simp)⟩⟩

theorem mem_right_iff :
    (y, g) ∈ (a.merge (b.merge c).2).2.elements ↔ ¬ Masked b c a (y, g) := by
  have hrot : ∀ s, s ∈ [a, b, c] ↔ s ∈ [b, c, a] := fun s => by simp; tauto
  obtain ⟨⟨s, hs, hgs⟩, hn⟩ := hg.1
  have hclear := hx s hs (y, g) hgs hn
  rw [mem_merge ha (hb.merge hc), isGreatest_of_subset (candidates_right_subset ha hb hc) hg]
  by_cases hga : (y, g) ∈ a.elements
  · refine ⟨fun _ hmask => hmask.1 hga, fun _ => .inl ⟨hga, ?_⟩⟩
    rw [(merge_spec hb hc).2.2.1, not_or]
    exact ⟨hn b (by simp), hn c (by simp)⟩
  · rw [← mem_merge_iff_not_masked (hx.congr hrot) hb hc (survivors_congr hrot ▸ hg) hga]
    refine ⟨fun h => h.elim (fun h => absurd h.1 hga) And.left, fun h => .inr ⟨h, ?_, ?_⟩⟩
    · exact hclear a (by simp)
    · exact (isTombstoned_merge hb hc).2 ⟨hclear b (by simp), hclear c (by simp)⟩

end Newest

/-- What is masked both ways is in the second set alone, and the two others have removed what each
other holds. -/
theorem eq_of_masked (hleft : Masked a b c (y, g)) (hright : Masked b c a (y, g))
    (he : e ∈ survivors [a, b, c] y) : e = g := by
  obtain ⟨hgc, ⟨hga, -⟩ | ⟨hgb, ⟨z, d⟩, hd, hz, -, hdc, -⟩⟩ := hleft
  · exact absurd hga hright.1
  cases hz
  obtain ⟨-, ⟨-, ⟨z, f⟩, hf, hz, -, hfa, -⟩ | ⟨hgc', -⟩⟩ := hright
  · cases hz
    obtain ⟨⟨s, hs, hes⟩, hn⟩ := he
    simp only [mem_cons, not_mem_nil, or_false] at hs
    rcases hs with rfl | rfl | rfl
    · exact absurd (eq_of_key ha.keys hd hes ▸ hdc) (hn c (by simp))
    · exact eq_of_key hb.keys hes hgb
    · exact absurd (eq_of_key hc.keys hf hes ▸ hfa) (hn a (by simp))
  · exact absurd hgc' hgc

theorem kept_or_masked (hx : Clear [a, b, c]) (h : MaskedAlike a b c)
    (he : e ∈ survivors [a, b, c] y) :
    (∃ g, (y, g) ∈ ((a.merge b).2.merge c).2.elements ∧
      (y, g) ∈ (a.merge (b.merge c).2).2.elements) ∨
    (y, e) ∉ ((a.merge b).2.merge c).2.elements ∧
      (y, e) ∉ (a.merge (b.merge c).2).2.elements := by
  obtain ⟨g, hg⟩ := exists_newest he
  obtain ⟨⟨s, hs, hgs⟩, hnew⟩ := isGreatest_survivors.1 hg
  have halike := h s hs (y, g) hgs hnew
  have hleft := mem_left_iff ha hb hc hx hg
  have hright := mem_right_iff ha hb hc hx hg
  by_cases hmask : Masked a b c (y, g)
  · cases eq_of_masked ha hb hc hmask (halike.1 hmask) he
    exact .inr ⟨fun h => hleft.1 h hmask, fun h => hright.1 h (halike.1 hmask)⟩
  · exact .inl ⟨g, hleft.2 hmask, hright.2 fun h => hmask (halike.2 h)⟩

theorem merge_assoc_same_iff (hx : Clear [a, b, c]) :
    SameAs ((a.merge b).2.merge c).2 (a.merge (b.merge c).2).2 ↔ MaskedAlike a b c := by
  have hab := ha.merge hb
  have hbc := hb.merge hc
  constructor
  · rintro ⟨hsame, -⟩ s hs ⟨y, g⟩ hgs hnew
    have hg := isGreatest_survivors.2 ⟨⟨s, hs, hgs⟩, hnew⟩
    have hiff := hsame y g
    rw [mem_left_iff ha hb hc hx hg, mem_right_iff ha hb hc hx hg] at hiff
    exact not_iff_not.1 hiff
  · intro h
    refine ⟨fun y e => ⟨fun hl => ?_, fun hr => ?_⟩, fun d => ?_⟩
    · have he := candidates_left_subset ha hb ((mem_merge hab hc).1 hl).1
      rcases kept_or_masked ha hb hc hx h he with ⟨g, hgl, hgr⟩ | ⟨hel, -⟩
      · rwa [eq_of_key (hab.merge hc).keys hl hgl]
      · exact absurd hl hel
    · have he := candidates_right_subset ha hb hc ((mem_merge ha hbc).1 hr).1
      rcases kept_or_masked ha hb hc hx h he with ⟨g, hgl, hgr⟩ | ⟨-, her⟩
      · rwa [eq_of_key (ha.merge hbc).keys hr hgr]
      · exact absurd hr her
    · rw [(merge_spec hab hc).2.2.1, (merge_spec ha hb).2.2.1, (merge_spec ha hbc).2.2.1,
        (merge_spec hb hc).2.2.1, or_assoc]

end Nested
end Orswot
end NexusSfu.State
