import NexusSfu.Dataplane.Shard.Consistent

/-!
What sending depends on: each session's credentials, its selected address and when it was selected,
a nomination that waits, and whether it has SRTP. Commands on tracks and subscriptions change none
of it.
-/

namespace NexusSfu.Dataplane

open Base Prog Srtp Function

structure Card where
  ice : IceParams
  addr : Option SocketAddr
  nomination : Option SocketAddr
  srtp : Bool
  lastSwitch : Option Nat
  listed : Bool

def Session.card (s : Session) : Card :=
  ⟨s.ice, s.addr, s.pendingNomination, s.srtpOut.isSome, s.lastSwitch, s.switchListed⟩

abbrev Book := Key → Option Card

/-- An address or a nomination is an old one or one in `V`; a nomination may become the address. -/
def Card.Steers (c : Card) (V : SocketAddr → Prop) (c' : Card) : Prop :=
  c'.ice = c.ice ∧
    (∀ a, c'.addr = some a → c.addr = some a ∨ c.nomination = some a ∨ V a) ∧
    ∀ a, c'.nomination = some a → c.nomination = some a ∨ V a

def Book.Steers (b : Book) (V : Key → SocketAddr → Prop) (b' : Book) : Prop :=
  ∀ k c', b' k = some c' → ∃ c, b k = some c ∧ c.Steers (V k) c'

namespace Book.Steers

variable {V : Key → SocketAddr → Prop} {b b' b'' : Book} {k : Key} {c c' : Card}

theorem refl (V : Key → SocketAddr → Prop) (b : Book) : Steers b V b :=
  fun _ c hc => ⟨c, hc, rfl, fun _ => .inl, fun _ => .inl⟩

theorem trans (h : Steers b V b') (h' : Steers b' V b'') : Steers b V b'' := by
  intro k c'' hc''
  obtain ⟨c', hc', hice', haddr', hnom'⟩ := h' k c'' hc''
  obtain ⟨c, hc, hice, haddr, hnom⟩ := h k c' hc'
  refine ⟨c, hc, hice'.trans hice, fun a ha => ?_, fun a ha => ?_⟩
  · rcases haddr' a ha with ha | ha | ha
    · exact haddr a ha
    · exact .inr (hnom a ha)
    · exact .inr (.inr ha)
  · exact (hnom' a ha).elim (hnom a) .inr

theorem mono {W : Key → SocketAddr → Prop} (h : Steers b V b') (hV : ∀ k a, V k a → W k a) :
    Steers b W b' := by
  intro k c' hc'
  obtain ⟨c, hc, hice, haddr, hnom⟩ := h k c' hc'
  exact ⟨c, hc, hice, fun a ha => (haddr a ha).imp_right (Or.imp_right (hV k a)),
    fun a ha => (hnom a ha).imp_right (hV k a)⟩

theorem update (hk : b k = some c) (hice : c'.ice = c.ice)
    (haddr : ∀ a, c'.addr = some a → c.addr = some a ∨ c.nomination = some a ∨ V k a)
    (hnom : ∀ a, c'.nomination = some a → c.nomination = some a ∨ V k a) :
    Steers b V (update b k (some c')) := by
  intro j d hd
  rw [update_apply] at hd
  split_ifs at hd with hj
  · cases hd
    subst hj
    exact ⟨c, hk, hice, haddr, hnom⟩
  · exact ⟨d, hd, rfl, fun _ => .inl, fun _ => .inl⟩

theorem nominated {a : SocketAddr} (h : Steers b V b') (hk : b k = some c)
    (ha : c.nomination = some a) (h' : Steers b' (fun j x => j = k ∧ x = a) b'') :
    Steers b V b'' := by
  intro j c'' hc''
  obtain ⟨c', hc', hice', haddr', hnom'⟩ := h' j c'' hc''
  obtain ⟨d, hd, hice, haddr, hnom⟩ := h j c' hc'
  have hold : ∀ x, j = k ∧ x = a → d.nomination = some x := by
    rintro x ⟨rfl, rfl⟩
    cases hd.symm.trans hk
    exact ha
  refine ⟨d, hd, hice'.trans hice, fun x hx => ?_, fun x hx => ?_⟩
  · rcases haddr' x hx with hx | hx | hx
    · exact haddr x hx
    · exact .inr (hnom x hx)
    · exact .inr (.inl (hold x hx))
  · exact (hnom' x hx).elim (hnom x) fun hx => .inl (hold x hx)

end Book.Steers

structure Card.Like (c c' : Card) : Prop where
  ice : c'.ice = c.ice
  addr : c'.addr = c.addr
  nomination : c'.nomination = c.nomination
  lastSwitch : c'.lastSwitch = c.lastSwitch
  listed : c'.listed = c.listed

theorem Card.Like.refl (c : Card) : c.Like c := ⟨rfl, rfl, rfl, rfl, rfl⟩

def Book.Stands (b b' : Book) : Prop :=
  ∀ k c', b' k = some c' → ∃ c, b k = some c ∧ c.Like c'

theorem Book.Stands.refl (b : Book) : b.Stands b := fun _ c hc => ⟨c, hc, .refl c⟩

def Card.blank (ice : IceParams) : Card := ⟨ice, none, none, false, none, false⟩

def Book.Keeps (b b' : Book) : Prop :=
  ∀ k c', b' k = some c' → (b k = none ∧ ∃ ice, c' = .blank ice) ∨ ∃ c,
    b k = some c ∧ c.Like c'

theorem Book.Stands.keeps {b b' : Book} (h : b.Stands b') : b.Keeps b' :=
  fun k c' hc' => .inr (h k c' hc')

theorem Book.Keeps.refl (b : Book) : b.Keeps b := (Book.Stands.refl b).keeps

theorem Book.Keeps.enter {b : Book} {k : Key} (hk : b k = none) (ice : IceParams) :
    b.Keeps (update b k (some (.blank ice))) := by
  intro j d hd
  rw [update_apply] at hd
  split_ifs at hd with hj
  · exact .inl ⟨hj ▸ hk, ice, (Option.some.inj hd).symm⟩
  · exact .inr ⟨d, hd, .refl d⟩

namespace Tables

variable {t t' : Tables} {k : Key} {s v : Session}

def book (t : Tables) : Book := project t.sessions.get Session.card

theorem book_eq_some {c : Card} :
    t.book k = some c ↔ ∃ s, t.sessions.get k = some s ∧ s.card = c := Option.map_eq_some_iff

theorem book_of_get (h : t.sessions.get k = some s) : t.book k = some s.card :=
  book_eq_some.2 ⟨s, h, rfl⟩

section Rules

theorem allows_session {Q : Session → Tables → Prop}
    (h : ∀ s, t.sessions.get k = some s → Q s t) :
    Allows (session k) t Q := by
  simpa [session] using h

theorem allows_track {Q : PublishedTrack → Tables → Prop}
    (h : ∀ r, t.tracks.get k = some r → Q r t) :
    Allows (track k) t Q := by
  simpa [track] using h

theorem allows_sub {Q : Subscription → Tables → Prop}
    (h : ∀ b, t.subs.get k = some b → Q b t) :
    Allows (sub k) t Q := by
  simpa [sub] using h

theorem allows_setSession {Q : Unit → Tables → Prop} (hs : t.sessions.get k = some s)
    (h : ∀ sessions : Slab Session, sessions.get = update t.sessions.get k (some v) →
      Q () { t with sessions }) : Allows (setSession k v) t Q := by
  obtain ⟨sessions, hset, hw⟩ := Slab.set_spec hs v
  simp only [setSession, allows_bind, allows_get, allows_expect, allows_set]
  intro sessions' hset'
  cases hset.symm.trans hset'
  exact h sessions hw.get

theorem allows_setTrack {r : PublishedTrack} {Q : Unit → Tables → Prop}
    (h : ∀ tracks, Q () { t with tracks }) : Allows (setTrack k r) t Q := by
  simp only [setTrack, allows_bind, allows_get, allows_expect, allows_set]
  exact fun tracks _ => h tracks

theorem allows_setSub {b : Subscription} {Q : Unit → Tables → Prop}
    (h : ∀ subs, Q () { t with subs }) :
    Allows (setSub k b) t Q := by
  simp only [setSub, allows_bind, allows_get, allows_expect, allows_set]
  exact fun subs _ => h subs

end Rules

def KeepsBook {α : Type} (m : Prog Tables α) : Prop :=
  ∀ t, Allows m t fun _ t' => t'.book = t.book

namespace KeepsBook

variable {α β : Type} {m : Prog Tables α} {f : α → Prog Tables β}

theorem pure (a : α) : KeepsBook (pure a) := fun _ => allows_pure.2 rfl

theorem bind (hm : KeepsBook m) (hf : ∀ a, KeepsBook (f a)) : KeepsBook (m >>= f) := fun t =>
  allows_bind.2 ((hm t).mono fun a t' h => (hf a t').mono fun _ _ h' => h'.trans h)

theorem after (hm : KeepsBook m) (h : t'.book = t.book) :
    Allows m t' fun _ t'' => t''.book = t.book :=
  (hm t').mono fun _ _ h' => h'.trans h

theorem get : KeepsBook get := fun _ => allows_get.2 rfl

theorem assert (b : Bool) : KeepsBook (assert b) := fun _ => allows_assert.2 fun _ => rfl

theorem session (k : Key) : KeepsBook (session k) := fun _ => allows_session fun _ _ => rfl

theorem track (k : Key) : KeepsBook (track k) := fun _ => allows_track fun _ _ => rfl

theorem sub (k : Key) : KeepsBook (sub k) := fun _ => allows_sub fun _ _ => rfl

theorem setTrack (k : Key) (r : PublishedTrack) : KeepsBook (setTrack k r) := fun _ =>
  allows_setTrack fun _ => rfl

theorem edit {g : Session → Prog Tables α}
    (h : ∀ s t, t.sessions.get k = some s → Allows (g s) t fun _ t' => t'.book = t.book) :
    KeepsBook (Tables.session k >>= g) := fun _ =>
  allows_bind.2 (allows_session fun s hs => h s _ hs)

end KeepsBook

theorem setSession_book (hs : t.sessions.get k = some s) (hcard : v.card = s.card) :
    Allows (setSession k v) t fun _ t' => t'.book = t.book :=
  allows_setSession hs fun _ hget => project_set Session.card hget hs hcard

theorem keepsBook_modify {g : Tables → Tables} (h : ∀ t, (g t).sessions = t.sessions) :
    KeepsBook (modify g) := fun t => by
  rw [allows_modify, book, h t]
  rfl

section Tracks

theorem removeSubscription_keeps (x : Key) : KeepsBook (removeSubscription x) := by
  intro t
  simp only [removeSubscription, allows_bind, allows_get, allows_expect, allows_set, allows_assert]
  rintro ⟨b, subs⟩ -
  refine allows_session fun s hs _ => ?_
  refine (setSession_book hs ?_).mono fun _ t₁ h₁ => ?_
  · simp [Session.card]
  · refine allows_track fun r _ _ _ => allows_setTrack fun tracks _ => ?_
    exact h₁

theorem removeSubscribers_keeps (x : Key) (fuel : Nat) : KeepsBook (removeSubscribers x fuel) := by
  induction fuel with
  | zero => exact fun _ => allows_panic
  | succ fuel ih =>
    refine .bind (.track x) fun r => ?_
    split
    · exact .pure ()
    · exact .bind (removeSubscription_keeps _) fun _ => ih

theorem removeTrack_keeps (x : Key) : KeepsBook (removeTrack x) := by
  refine .bind (.track x) fun r => .bind (removeSubscribers_keeps x _) fun _ => ?_
  intro t
  simp only [allows_bind, allows_get, allows_expect, allows_set, unlistTrack,
    allows_assert, allows_pure]
  rintro ⟨r, tracks⟩ -
  refine allows_session fun s hs _ => ?_
  refine (setSession_book hs ?_).mono fun _ t₁ h₁ _ => h₁
  rfl

theorem removeTrackCmd_keeps (id : TrackId) : KeepsBook (removeTrackCmd id) := by
  refine .bind .get fun t => ?_
  split
  · exact .bind (removeTrack_keeps _) fun _ => .pure _
  · exact .pure _

theorem pinSsrc_keeps (k : Key) (ssrc : UInt32) : KeepsBook (pinSsrc k ssrc) := by
  refine .edit fun s t hs => ?_
  split
  · exact allows_pure.2 rfl
  · simp only [allows_bind, allows_expect, allows_pure]
    exact fun r _ => setSession_book hs rfl

theorem insertTrack_keeps (k : Key) (id : TrackId) (spec : TrackSpec) :
    KeepsBook (insertTrack k id spec) := by
  intro t
  simp only [insertTrack, allows_bind, allows_get, allows_expect, allows_set]
  rintro ⟨x, tracks⟩ -
  refine allows_session fun s hs => ?_
  cases spec.ssrc with
  | some ssrc =>
    simp only [allows_bind, allows_assert, allows_modify]
    exact Allows.mono (setSession_book hs rfl) fun _ t₁ h₁ _ => h₁
  | none =>
    simp only [allows_bind, allows_assert, allows_modify]
    exact Allows.mono (setSession_book hs rfl) fun _ t₁ h₁ _ => h₁

theorem addTrack_keeps (id : SessionId) (track : TrackId) (spec : TrackSpec) :
    KeepsBook (addTrack id track spec) := by
  refine .bind .get fun t => ?_
  split
  · split_ifs
    · exact .pure _
    refine .bind (.session _) fun s => ?_
    split_ifs
    · exact .pure _
    split
    · split_ifs
      · exact .pure _
      refine .bind (pinSsrc_keeps _ _) fun r => ?_
      split
      · exact .bind (insertTrack_keeps _ _ _) fun _ => .pure _
      · exact .pure _
    · exact .bind (insertTrack_keeps _ _ _) fun _ => .pure _
  · exact .pure _

theorem bindSsrc_keeps (k x : Key) (ssrc : UInt32) : KeepsBook (bindSsrc k x ssrc) := by
  refine .edit fun s t hs =>
    allows_bind.2 (Allows.mono (setSession_book hs rfl) fun _ t₁ h₁ => ?_)
  exact KeepsBook.after (.bind (.assert _) fun _ => .bind (pinSsrc_keeps k ssrc) fun _ =>
    .bind (.assert _) fun _ => .bind (.track x) fun _ => .setTrack x _) h₁

end Tracks

section Subscriptions

theorem registerSsrc_keeps (k : Key) (ssrc : UInt32) : KeepsBook (registerSsrc k ssrc) := by
  refine .edit fun s t hs => ?_
  cases ho : s.srtpOut with
  | none => exact allows_pure.2 rfl
  | some outbound =>
    simp only [allows_bind, allows_expect, allows_pure]
    refine fun r _ => setSession_book hs ?_
    simp [Session.card, ho]

theorem insertSubscription_keeps (k x : Key) (id : SubscriptionId) (spec : SubSpec) :
    KeepsBook (insertSubscription k x id spec) := by
  refine .bind (.track x) fun r => ?_
  intro t
  simp only [allows_bind, allows_get, allows_expect, allows_set]
  rintro ⟨y, subs⟩ -
  refine allows_session fun s hs => Allows.mono (setSession_book hs rfl) fun _ t₁ h₁ => ?_
  refine allows_setTrack fun tracks => allows_modify.2 ?_
  exact h₁

theorem addSubscription_keeps (shard : ShardId) (id : SessionId) (sub : SubscriptionId)
    (track : TrackId) (spec : SubSpec) : KeepsBook (addSubscription shard id sub track spec) := by
  refine .bind .get fun t => ?_
  split
  · split
    · split_ifs
      · exact .pure _
      · exact .pure _
      · exact .pure _
      refine .bind (.session _) fun s => ?_
      dsimp only
      split_ifs
      · exact .pure _
      · exact .pure _
      refine .bind (registerSsrc_keeps _ _) fun r => ?_
      split
      · refine .edit fun s' t' hs' =>
          allows_bind.2 (Allows.mono (setSession_book hs' rfl) fun _ t₁ h₁ => ?_)
        exact KeepsBook.after (.bind (insertSubscription_keeps _ _ _ _) fun _ => .pure _) h₁
      · exact .pure _
    · exact .pure _
  · exact .pure _

theorem unsubscribe_keeps (id : SubscriptionId) : KeepsBook (unsubscribe id) := by
  refine .bind .get fun t => ?_
  split
  · exact .bind (removeSubscription_keeps _) fun _ => .pure _
  · exact .pure _

end Subscriptions

section Sessions

theorem removeTracks_keeps (k : Key) (fuel : Nat) : KeepsBook (removeTracks k fuel) := by
  induction fuel with
  | zero => exact fun _ => allows_panic
  | succ fuel ih =>
    refine .bind (.session k) fun s => ?_
    split
    · exact .pure ()
    · exact .bind (removeTrack_keeps _) fun _ => ih

theorem removeSubs_keeps (k : Key) (fuel : Nat) : KeepsBook (removeSubs k fuel) := by
  induction fuel with
  | zero => exact fun _ => allows_panic
  | succ fuel ih =>
    refine .bind (.session k) fun s => ?_
    split
    · exact .pure ()
    · exact .bind (removeSubscription_keeps _) fun _ => ih

theorem closeSession_stands (id : SessionId) (t : Tables) :
    Allows (closeSession id) t fun _ t' => t.book.Stands t'.book := by
  rw [closeSession, allows_bind, allows_get]
  split
  next k _ =>
    simp only [allows_bind]
    refine allows_session fun s _ => (removeTracks_keeps k _ t).mono fun _ t₁ h₁ => ?_
    refine allows_session fun s _ => ((removeSubs_keeps k _).after h₁).mono fun _ t₂ h₂ => ?_
    simp only [allows_modify, allows_get, allows_expect, allows_set, unmapAddr,
      allows_assert, allows_pure]
    rintro ⟨s, sessions⟩ hremove -
    have hs : t₂.sessions.get k = some s := by
      unfold Slab.remove at hremove
      split at hremove
      next hget =>
        cases hremove
        exact hget
      next => cases hremove
    obtain ⟨sessions', hremove', -, -, hget⟩ := Slab.remove_spec hs
    cases hremove.symm.trans hremove'
    intro j c hc
    change project sessions.get Session.card j = some c at hc
    rw [hget, project_update_none, update_apply] at hc
    split_ifs at hc
    exact ⟨c, (congrFun h₂ j) ▸ hc, .refl c⟩
  next => exact allows_pure.2 (.refl _)

theorem createSession_keeps {maxSessions : Nat} (hmax : maxSessions ≤ 2 ^ 32) (id : SessionId)
    (ice : IceParams) (base : UInt32) (now : Nat) (t : Tables) :
    Allows (createSession maxSessions id ice base now) t fun _ t' => t.book.Keeps t'.book := by
  rw [createSession, allows_bind, allows_get]
  split_ifs with hdup hfull
  · exact allows_pure.2 (.refl _)
  · exact allows_pure.2 (.refl _)
  simp only [allows_bind, allows_expect, allows_set, allows_pure]
  rintro ⟨k, sessions⟩ hinsert
  obtain ⟨k', sessions', hinsert', hfree, -, -, hget⟩ :=
    Slab.insert_spec ((not_le.1 hfull).trans_le hmax) (Session.new id ice base now)
  cases hinsert.symm.trans hinsert'
  change t.book.Keeps (project sessions.get Session.card)
  rw [hget, project_update]
  refine .enter ?_ ice
  rw [book, project_apply, hfree]
  rfl

theorem registerAll_reads (ssrcs : List UInt32) (outbound : SrtpOutbound) (t : Tables) :
    Allows (registerAll outbound ssrcs) t fun _ t' => t' = t := by
  induction ssrcs generalizing outbound with
  | nil => exact allows_pure.2 rfl
  | cons x xs ih =>
    simp only [registerAll, allows_bind, allows_expect]
    rintro ⟨r, o⟩ -
    cases r with
    | error e => exact allows_pure.2 rfl
    | ok _ => exact ih o

theorem pinAll_reads (ssrcs : List UInt32) (inbound : SrtpInbound) (t : Tables) :
    Allows (pinAll inbound ssrcs) t fun _ t' => t' = t := by
  induction ssrcs generalizing inbound with
  | nil => exact allows_pure.2 rfl
  | cons x xs ih =>
    simp only [pinAll, allows_bind, allows_expect]
    rintro ⟨r, o⟩ -
    cases r with
    | error e => exact allows_pure.2 rfl
    | ok _ => exact ih o

theorem outSsrcs_reads (xs : List Key) (t : Tables) :
    Allows (outSsrcs xs) t fun _ t' => t' = t := by
  induction xs with
  | nil => exact allows_pure.2 rfl
  | cons x xs ih =>
    rw [outSsrcs, allows_bind]
    exact allows_sub fun b _ => allows_bind.2 (ih.mono fun _ _ h => allows_pure.2 h)

theorem setupSrtp_stands (id : SessionId) (keys : SrtpInstall) (t : Tables) :
    Allows (setupSrtp id keys) t fun _ t' => t.book.Stands t'.book := by
  rw [setupSrtp, allows_bind, allows_get]
  split
  next k _ =>
    rw [allows_bind]
    refine allows_session fun s hs => ?_
    split_ifs
    · exact allows_pure.2 (.refl _)
    rw [allows_bind, allows_assert]
    intro _
    split
    · split
      · rw [allows_bind]
        refine (outSsrcs_reads _ t).mono ?_
        rintro ssrcs _ rfl
        rw [allows_bind]
        refine (registerAll_reads _ _ _).mono ?_
        rintro registered _ rfl
        split
        · rw [allows_bind]
          refine (pinAll_reads _ _ _).mono ?_
          rintro pinned _ rfl
          split
          · rw [allows_bind]
            refine allows_setSession hs fun sessions hget => allows_pure.2 ?_
            intro j c hc
            change project sessions.get Session.card j = some c at hc
            rw [hget, project_update, update_apply] at hc
            split_ifs at hc with hj
            · cases hc
              subst hj
              exact ⟨s.card, book_of_get hs, rfl, rfl, rfl, rfl, rfl⟩
            · exact ⟨c, hc, .refl c⟩
          · exact allows_pure.2 (.refl _)
        · exact allows_pure.2 (.refl _)
      · exact allows_pure.2 (.refl _)
    · exact allows_pure.2 (.refl _)
  next => exact allows_pure.2 (.refl _)

end Sessions

section Addresses

variable {a : SocketAddr}

theorem dropPrevAddr_keeps (k : Key) : KeepsBook (dropPrevAddr k) := by
  refine .edit fun s t hs =>
    allows_bind.2 (Allows.mono (setSession_book hs rfl) fun _ t₁ h₁ => ?_)
  exact KeepsBook.after (keepsBook_modify fun _ => rfl) h₁

theorem book_set {sessions : Slab Session}
    (hget : sessions.get = update t.sessions.get k (some v)) :
    book { t with sessions } = update t.book k (some v.card) := by
  rw [book, hget, project_update]
  rfl

theorem forgetAddress_stays (k : Key) (a : SocketAddr) (V : Key → SocketAddr → Prop)
    (t : Tables) :
    Allows (forgetAddress k a) t fun _ t' => t.book.Steers V t'.book := by
  rw [forgetAddress, allows_bind]
  refine allows_session fun s hs => allows_setSession hs fun sessions hget => ?_
  rw [book_set hget]
  refine .update (book_of_get hs) rfl (fun c hc => .inl ?_) fun _ hc => .inl hc
  simp only [Session.card] at hc ⊢
  split_ifs at hc
  exact hc

theorem claimAddress_steers (k : Key) (a : SocketAddr) (V : Key → SocketAddr → Prop)
    (t : Tables) :
    Allows (claimAddress k a) t fun _ t' => t.book.Steers V t'.book := by
  simp only [claimAddress, allows_bind, allows_get, allows_set]
  split
  · split_ifs
    · exact forgetAddress_stays _ a V _
    · exact allows_pure.2 (.refl V _)
  · exact allows_pure.2 (.refl V _)

theorem selectAddr_steers (k : Key) (a : SocketAddr) (now : Nat) (t : Tables) :
    Allows (selectAddr k a now) t fun _ t' =>
      t.book.Steers (fun j c => j = k ∧ c = a) t'.book := by
  rw [selectAddr, allows_bind]
  refine allows_session fun _ _ => ?_
  simp only [allows_bind, allows_assert]
  refine fun _ => (dropPrevAddr_keeps k t).mono fun _ t₁ h₁ => ?_
  refine allows_session fun s hs => allows_setSession hs fun sessions hget => ?_
  refine (claimAddress_steers k a (fun j c => j = k ∧ c = a) _).mono fun _ t₂ h₂ => ?_
  rw [← h₁]
  refine .trans ?_ h₂
  rw [book_set hget]
  refine .update (book_of_get hs) rfl (fun c hc => .inr (.inr ⟨rfl, ?_⟩)) fun _ hc => .inl hc
  exact (Option.some.inj hc).symm

end Addresses
end Tables
end NexusSfu.Dataplane
