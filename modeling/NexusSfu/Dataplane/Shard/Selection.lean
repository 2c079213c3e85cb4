import NexusSfu.Dataplane.Shard.Switching

namespace NexusSfu.Dataplane

open Base Prog Srtp Function

namespace Book

variable {b b₁ b' : Book} {x : Switch} {l : List Switch} {i j k : Key} {c : Card}
  {a : SocketAddr} {now : Nat}
  {nominated : Bool}

section Course

def Rests (b b' : Book) : Prop :=
  ∀ k c', b' k = some c' → (b k = none ∧ c'.addr = none ∧ c'.lastSwitch = none) ∨
    ∃ c, b k = some c ∧ c'.addr = c.addr ∧ c'.lastSwitch = c.lastSwitch

inductive Course : Book → List Switch → Book → Prop
  | done (b : Book) : Course b [] b
  | rest {b b₁ b' : Book} {l : List Switch} : b.Rests b₁ → Course b₁ l b' → Course b l b'
  | switch {b b₁ b' : Book} {x : Switch} {l : List Switch} : b.Switches x b₁ →
    Course b₁ l b' →
      Course b (x :: l) b'

theorem Keeps.rests (h : b.Keeps b') : b.Rests b' := by
  intro k c' hc'
  rcases h k c' hc' with ⟨hnone, ice, rfl⟩ | ⟨c, hc, hlike⟩
  · exact .inl ⟨hnone, rfl, rfl⟩
  · exact .inr ⟨c, hc, hlike.addr, hlike.lastSwitch⟩

theorem rests_update {c' : Card} (hk : b k = some c) (haddr : c'.addr = c.addr)
    (hlast : c'.lastSwitch = c.lastSwitch) : b.Rests (update b k (some c')) := by
  intro j d hd
  rw [update_apply] at hd
  split_ifs at hd with hj
  · cases hd
    exact .inr ⟨c, hj ▸ hk, haddr, hlast⟩
  · exact .inr ⟨d, hd, rfl, rfl⟩

theorem Heeds.course (h : b.Heeds k a nominated now b') :
    ∃ l, b.Course l b' ∧ ∀ x ∈ l, x.time = now := by
  cases h with
  | stays hk _ heq =>
    subst heq
    exact ⟨[], .rest (rests_update hk (by rfl) (by rfl)) (.done _), nofun⟩
  | ignored _ heq =>
    subst heq
    exact ⟨[], .done _, nofun⟩
  | waits _ hk _ _ heq =>
    subst heq
    exact ⟨[], .rest (rests_update hk (by rfl) (by rfl)) (.done _), nofun⟩
  | switches h => exact ⟨_, .switch h (.done _), by simp⟩

theorem Applies.course (h : b.Applies now b') :
    ∃ l, b.Course l b' ∧ ∀ x ∈ l, x.time = now := by
  induction h with
  | done b => exact ⟨[], .done b, nofun⟩
  | drop hk _ _ ih =>
    obtain ⟨l, hcourse, htime⟩ := ih
    exact ⟨l, .rest (rests_update hk (by rfl) (by rfl)) hcourse, htime⟩
  | switch _ _ hswitch _ ih =>
    obtain ⟨l, hcourse, htime⟩ := ih
    exact ⟨_, .switch hswitch hcourse, by simpa using htime⟩

end Course

section Nominations

def Lists (b : Book) : Prop := ∀ k c a, b k = some c → c.nomination = some a → c.listed = true

def Apart (b : Book) : Prop :=
  ∀ k c a, b k = some c → c.nomination = some a → c.addr ≠ some a

def AllWait (b : Book) (now : Nat) : Prop :=
  ∀ k c a, b k = some c → c.nomination = some a → c.Recent now

theorem Switches.nomination (h : b.Switches x b') {c' : Card} (hc' : b' k = some c')
    (ha : c'.nomination = some a) :
    k ≠ x.key ∧ ∃ c, b k = some c ∧ c.nomination = some a ∧ c'.listed = c.listed := by
  by_cases hk : k = x.key
  · obtain ⟨c, d, hc, hd, -, -, -, hnone, -⟩ := h.own
    cases hc'.symm.trans (hk ▸ hd)
    cases hnone.symm.trans ha
  · refine ⟨hk, ?_⟩
    rcases h.others k hk with hsame | ⟨c, hc, -, hlost⟩
    · exact ⟨c', hsame ▸ hc', ha, rfl⟩
    · cases hc'.symm.trans hlost
      exact ⟨c, hc, ha, rfl⟩

theorem Switches.lists (h : b.Switches x b') (hb : b.Lists) : b'.Lists := by
  intro k c' a hc' ha
  obtain ⟨-, c, hc, hca, hlisted⟩ := h.nomination hc' ha
  exact hlisted.trans (hb k c a hc hca)

theorem Lists.update {c' : Card} (hb : b.Lists)
    (h : ∀ a, c'.nomination = some a → c'.listed = true) :
    Lists (update b k (some c')) := by
  intro j d a hd ha
  rw [update_apply] at hd
  split_ifs at hd
  · cases hd
    exact h a ha
  · exact hb j d a hd ha

theorem Keeps.lists (h : b.Keeps b') (hb : b.Lists) : b'.Lists := by
  intro k c' a hc' ha
  rcases h k c' hc' with ⟨-, ice, rfl⟩ | ⟨c, hc, hlike⟩
  · cases ha
  · rw [hlike.listed]
    exact hb k c a hc (hlike.nomination ▸ ha)

theorem Keeps.allWait (h : b.Keeps b') (hb : b.AllWait now) : b'.AllWait now := by
  intro k c' a hc' ha
  rcases h k c' hc' with ⟨-, ice, rfl⟩ | ⟨c, hc, hlike⟩
  · cases ha
  · obtain ⟨t, ht, hnow⟩ := hb k c a hc (hlike.nomination ▸ ha)
    exact ⟨t, hlike.lastSwitch.trans ht, hnow⟩

theorem Heeds.lists (h : b.Heeds k a nominated now b') (hb : b.Lists) : b'.Lists := by
  cases h with
  | @stays c hk _ heq =>
    subst heq
    refine hb.update fun x hx => ?_
    dsimp only at hx
    split_ifs at hx
    exact hb k c x hk hx
  | ignored _ heq => exact heq ▸ hb
  | waits _ _ _ _ heq =>
    subst heq
    exact hb.update fun _ _ => rfl
  | switches h => exact h.lists hb

theorem Applies.lists (h : b.Applies now b') (hb : b.Lists) : b'.Lists := by
  induction h with
  | done => exact hb
  | drop _ hnone _ ih =>
    refine ih (hb.update fun a ha => ?_)
    cases hnone.symm.trans ha
  | switch _ _ hswitch _ ih => exact ih (hswitch.lists hb)

end Nominations

section Fate

def Awaits (b : Book) (k : Key) (a : SocketAddr) : Prop :=
  ∃ c, b k = some c ∧ c.nomination = some a

def Settled (b : Book) (k : Key) (a : SocketAddr) : Prop :=
  ∃ c, b k = some c ∧ c.nomination = none ∧ c.addr = some a

def Goes (b : Book) (k : Key) (a : SocketAddr) (b' : Book) : Prop :=
  ∃ c c', b k = some c ∧ b' k = some c' ∧ c.addr ≠ some a ∧ c'.addr = some a

def Taken (b : Book) (k : Key) (a : SocketAddr) (b' : Book) : Prop :=
  ∃ j, j ≠ k ∧ b.Goes j a b'

theorem Switches.goes (h : b.Switches x b') : b.Goes x.key x.addr b' := by
  obtain ⟨c, c', hc, hc', hne, -, haddr, -⟩ := h.own
  exact ⟨c, c', hc, hc', hne, haddr⟩

theorem Switches.settles (h : b.Switches x b') : b'.Settled x.key x.addr := by
  obtain ⟨-, c', -, hc', -, -, haddr, hnom, -⟩ := h.own
  exact ⟨c', hc', hnom, haddr⟩

theorem Switches.awaits (h : b.Switches x b') (hk : b'.Awaits k a) :
    k ≠ x.key ∧ b.Awaits k a := by
  obtain ⟨c', hc', ha⟩ := hk
  obtain ⟨hne, c, hc, hca, -⟩ := h.nomination hc' ha
  exact ⟨hne, c, hc, hca⟩

theorem Settled.not_awaits (h : b.Settled k a) {y : SocketAddr} (hk : b.Awaits k y) : False := by
  obtain ⟨c, hc, hnone, -⟩ := h
  obtain ⟨d, hd, hnom⟩ := hk
  cases hc.symm.trans hd
  cases hnone.symm.trans hnom

theorem Switches.still_awaits (h : b.Switches x b') (hk : b.Awaits k a) (hne : k ≠ x.key) :
    b'.Awaits k a := by
  obtain ⟨c, hc, ha⟩ := hk
  rcases h.others k hne with hsame | ⟨d, hd, -, hlost⟩
  · exact ⟨c, hsame ▸ hc, ha⟩
  · cases hc.symm.trans hd
    exact ⟨_, hlost, ha⟩

theorem Switches.still_settled (h : b.Switches x b') (hk : b.Settled k a) (hne : k ≠ x.key) :
    b'.Settled k a ∨ x.addr = a := by
  obtain ⟨c, hc, hnom, haddr⟩ := hk
  rcases h.others k hne with hsame | ⟨d, hd, hlost, -⟩
  · exact .inl ⟨c, hsame ▸ hc, hnom, haddr⟩
  · cases hc.symm.trans hd
    exact .inr (Option.some.inj (hlost.symm.trans haddr))

section Update

variable {c' : Card} (hj : b j = some c)

include hj

theorem awaits_update (h : c'.nomination = c.nomination ∨ j ≠ k) :
    Awaits (update b j (some c')) k a ↔ b.Awaits k a := by
  by_cases hk : k = j
  · subst hk
    have hnom := h.resolve_right (not_not.2 rfl)
    simp [Awaits, hj, hnom]
  · simp [Awaits, update_of_ne hk]

theorem settled_update (haddr : c'.addr = c.addr) (h : c'.nomination = c.nomination ∨ j ≠ k) :
    Settled (update b j (some c')) k a ↔ b.Settled k a := by
  by_cases hk : k = j
  · subst hk
    have hnom := h.resolve_right (not_not.2 rfl)
    simp [Settled, hj, hnom, haddr]
  · simp [Settled, update_of_ne hk]

end Update

def Holds (b : Book) (k : Key) (a : SocketAddr) : Prop := b.Awaits k a ∨ b.Settled k a

theorem Heeds.holds (h : b.Heeds k a true now b') : b'.Holds k a := by
  cases h with
  | stays _ ha heq =>
    subst heq
    exact .inr ⟨_, update_self .., rfl, ha⟩
  | ignored hn _ => cases hn
  | waits _ _ _ _ heq =>
    subst heq
    exact .inl ⟨_, update_self .., rfl⟩
  | switches h => exact .inr h.settles

theorem Keeps.holds (h : b.Keeps b') (hk : b.Holds k a) {c' : Card} (hc' : b' k = some c') :
    b'.Holds k a := by
  rcases h k c' hc' with ⟨hnone, -⟩ | ⟨c, hc, hlike⟩
  · rcases hk with ⟨d, hd, -⟩ | ⟨d, hd, -⟩
    · cases hnone.symm.trans hd
    · cases hnone.symm.trans hd
  · simp only [Holds, Awaits, Settled, hc, hc', Option.some.injEq, exists_eq_left',
      hlike.nomination, hlike.addr] at hk ⊢
    exact hk

theorem Heeds.fate {y : SocketAddr} (h : b.Heeds j y nominated now b')
    (hn : j = k → nominated = false) (hk : b.Holds k a) :
    b'.Holds k a ∨ b.Taken k a b' ∨ j = k ∧ b.Goes k y b' := by
  cases h with
  | @stays c hj _ heq =>
    subst heq
    have hsame : (if nominated then none else c.nomination) = c.nomination ∨ j ≠ k :=
      or_iff_not_imp_right.2 fun hjk => if_neg (by simp [hn (not_not.1 hjk)])
    exact .inl (hk.imp (awaits_update hj hsame).2 (settled_update hj (by rfl) hsame).2)
  | ignored _ heq => exact .inl (heq ▸ hk)
  | waits hnom hj _ _ heq =>
    subst heq
    have hjk : j ≠ k := fun hjk => Bool.noConfusion (hnom.symm.trans (hn hjk))
    exact .inl (hk.imp (awaits_update hj (.inr hjk)).2 (settled_update hj (by rfl) (.inr hjk)).2)
  | switches h =>
    by_cases hjk : j = k
    · subst hjk
      exact .inr (.inr ⟨rfl, h.goes⟩)
    rcases hk with hk | hk
    · exact .inl (.inl (h.still_awaits hk (Ne.symm hjk)))
    · rcases h.still_settled hk (Ne.symm hjk) with hk | rfl
      · exact .inl (.inr hk)
      · exact .inr (.inl ⟨j, hjk, h.goes⟩)

theorem Applies.settled (h : b.Applies now b') (hj : b.Settled j a) :
    ∃ i c', (i = j ∨ b.Awaits i a) ∧ b' i = some c' ∧ c'.addr = some a := by
  induction h generalizing j with
  | done =>
    obtain ⟨c, hc, -, ha⟩ := hj
    exact ⟨j, c, .inl rfl, hc, ha⟩
  | drop hk _ _ ih =>
    obtain ⟨i, c', hi, hc', ha⟩ := ih ((settled_update hk (by rfl) (.inl (by rfl))).2 hj)
    exact ⟨i, c', hi.imp_right (awaits_update hk (.inl (by rfl))).1, hc', ha⟩
  | @switch b b₁ b' k c y hk hnom hswitch _ ih =>
    have hne : j ≠ k := by
      rintro rfl
      exact hj.not_awaits ⟨c, hk, hnom⟩
    rcases hswitch.still_settled hj hne with hj | rfl
    · obtain ⟨i, c', hi, hc', ha⟩ := ih hj
      exact ⟨i, c', hi.imp_right fun h => (hswitch.awaits h).2, hc', ha⟩
    · obtain ⟨i, c', hi, hc', ha⟩ := ih hswitch.settles
      refine ⟨i, c', .inr ?_, hc', ha⟩
      rcases hi with rfl | hi
      · exact ⟨c, hk, hnom⟩
      · exact (hswitch.awaits hi).2

theorem Applies.holds (h : b.Applies now b') (hk : b.Holds k a) :
    b'.Holds k a ∨ ∃ i c', i ≠ k ∧ b.Awaits i a ∧ b' i = some c' ∧
      c'.addr = some a := by
  induction h with
  | done => exact .inl hk
  | drop hj _ _ ih =>
    refine (ih (hk.imp (awaits_update hj (.inl (by rfl))).2
      (settled_update hj (by rfl) (.inl (by rfl))).2)).imp_right ?_
    rintro ⟨i, c', hi, hawaits, hc'⟩
    exact ⟨i, c', hi, (awaits_update hj (.inl (by rfl))).1 hawaits, hc'⟩
  | @switch b b₁ b' j c y hj hnom hswitch happly ih =>
    have hback : (∃ i c', i ≠ k ∧ b₁.Awaits i a ∧ b' i = some c' ∧ c'.addr = some a) →
        ∃ i c', i ≠ k ∧ b.Awaits i a ∧ b' i = some c' ∧ c'.addr = some a := by
      rintro ⟨i, c', hi, hawaits, hc'⟩
      exact ⟨i, c', hi, (hswitch.awaits hawaits).2, hc'⟩
    have hawaits : b.Awaits j y := ⟨c, hj, hnom⟩
    by_cases hjk : j = k
    · subst hjk
      rcases hk with ⟨d, hd, hda⟩ | hk
      · cases hj.symm.trans hd
        cases hnom.symm.trans hda
        exact (ih (.inr hswitch.settles)).imp_right hback
      · exact (hk.not_awaits hawaits).elim
    rcases hk with hk | hk
    · exact (ih (.inl (hswitch.still_awaits hk (Ne.symm hjk)))).imp_right hback
    rcases hswitch.still_settled hk (Ne.symm hjk) with hk | rfl
    · exact (ih (.inr hk)).imp_right hback
    obtain ⟨i, c', hi, hc', ha⟩ := happly.settled hswitch.settles
    rcases hi with rfl | hi
    · exact .inr ⟨i, c', hjk, hawaits, hc', ha⟩
    · refine .inr ⟨i, c', ?_, (hswitch.awaits hi).2, hc', ha⟩
      rintro rfl
      exact hk.not_awaits (hswitch.awaits hi).2

theorem Applies.fate (h : b.Applies now b') (hapart : b.Apart) (hk : b.Holds k a) :
    b'.Holds k a ∨ b.Taken k a b' := by
  refine (h.holds hk).imp_right ?_
  rintro ⟨i, c', hi, ⟨c, hc, hnom⟩, hc', ha⟩
  exact ⟨i, hi, c, c', hc, hc', hapart i c a hc hnom, ha⟩

end Fate
end Book
end NexusSfu.Dataplane
