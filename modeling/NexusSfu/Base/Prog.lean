import NexusSfu.Base.Run

namespace NexusSfu.Base

open Option

variable {σ α β : Type}

abbrev Prog (σ α : Type) := StateT σ Option α

namespace Prog

variable {m : Prog σ α} {f : α → Prog σ β} {s : σ} {Q Q' : α → σ → Prop}
  {R : β → σ → Prop}

def panic : Prog σ α := fun _ => none

def assert (b : Bool) : Prog σ Unit := if b then pure () else panic

def expect (x : Option α) : Prog σ α := fun s => x.map (·, s)

def each (g : α → Prog σ Unit) : List α → Prog σ Unit
  | [] => pure ()
  | a :: as => do
    g a
    each g as

def zoom {τ : Type} (part : σ → τ) (put : σ → τ → σ) (m : Prog τ α) :
    Prog σ α := fun s =>
  (m (part s)).map fun r => (r.1, put s r.2)

def Ends (m : Prog σ α) (s : σ) (Q : α → σ → Prop) : Prop :=
  ∃ a s', m s = some (a, s') ∧ Q a s'

theorem Ends.mono (h : Ends m s Q) (hq : ∀ a s', Q a s' → Q' a s') : Ends m s Q' := by
  obtain ⟨a, s', hm, h⟩ := h
  exact ⟨a, s', hm, hq a s' h⟩

@[simp] theorem ends_pure {a : α} : Ends (pure a) s Q ↔ Q a s := by
  constructor
  · rintro ⟨a', s', h, hq⟩
    cases h
    exact hq
  · intro h
    exact ⟨a, s, rfl, h⟩

@[simp] theorem ends_bind : Ends (m >>= f) s R ↔ Ends m s fun a s' => Ends (f a) s' R := by
  constructor
  · rintro ⟨b, t, h, hr⟩
    obtain ⟨⟨a, s'⟩, hm, hf⟩ := bind_eq_some_iff.1 h
    exact ⟨a, s', hm, b, t, hf, hr⟩
  · rintro ⟨a, s', hm, b, t, hf, hr⟩
    exact ⟨b, t, bind_eq_some_iff.2 ⟨(a, s'), hm, hf⟩, hr⟩

@[simp] theorem ends_get {Q : σ → σ → Prop} : Ends get s Q ↔ Q s s := ends_pure (a := s)

@[simp] theorem ends_set {t : σ} {Q : Unit → σ → Prop} : Ends (set t) s Q ↔ Q () t :=
  ends_pure (a := ()) (s := t)

@[simp] theorem ends_modify {g : σ → σ} {Q : Unit → σ → Prop} :
    Ends (modify g) s Q ↔ Q () (g s) :=
  ends_pure (a := ()) (s := g s)

@[simp] theorem ends_expect {x : Option α} :
    Ends (expect x) s Q ↔ ∃ a, x = some a ∧ Q a s := by
  cases x with
  | none => simp [Ends, expect]
  | some a => simp [Ends, expect]

@[simp] theorem ends_assert {b : Bool} {Q : Unit → σ → Prop} :
    Ends (assert b) s Q ↔ b = true ∧ Q () s := by
  cases b with
  | false => simp [Ends, assert, panic]
  | true =>
    rw [assert, if_pos rfl, ends_pure]
    simp

@[simp] theorem ends_zoom {τ : Type} {part : σ → τ} {put : σ → τ → σ} {m : Prog τ α} :
    Ends (zoom part put m) s Q ↔ Ends m (part s) fun a t => Q a (put s t) := by
  constructor
  · rintro ⟨a, s', h, hq⟩
    obtain ⟨⟨a', t⟩, hm, hr⟩ := map_eq_some_iff.1 h
    cases hr
    exact ⟨a', t, hm, hq⟩
  · rintro ⟨a, t, hm, hq⟩
    exact ⟨a, put s t, map_eq_some_iff.2 ⟨(a, t), hm, rfl⟩, hq⟩

theorem ends_each {g : α → Prog σ Unit} {I : List α → σ → Prop}
    (hstep : ∀ a as s, I (a :: as) s → Ends (g a) s fun _ s' => I as s') {as : List α}
    (hs : I as s) : Ends (each g as) s fun _ s' => I [] s' := by
  induction as generalizing s with
  | nil => exact ends_pure.2 hs
  | cons a as ih => exact ends_bind.2 ((hstep a as s hs).mono fun _ s' h => ih h)

section Allows

variable {τ : Type}

def Allows (m : Prog σ α) (s : σ) (Q : α → σ → Prop) : Prop :=
  ∀ a s', m s = some (a, s') → Q a s'

theorem Allows.mono (h : Allows m s Q) (hq : ∀ a s', Q a s' → Q' a s') : Allows m s Q' :=
  fun a s' hm => hq a s' (h a s' hm)

theorem Allows.and (h : Allows m s Q) (h' : Allows m s Q') :
    Allows m s fun a s' => Q a s' ∧ Q' a s' :=
  fun a s' hm => ⟨h a s' hm, h' a s' hm⟩

@[simp] theorem allows_pure {a : α} : Allows (pure a) s Q ↔ Q a s := by
  constructor
  · exact fun h => h a s rfl
  · rintro h a' s' ⟨⟩
    exact h

@[simp] theorem allows_bind :
    Allows (m >>= f) s R ↔ Allows m s fun a s' => Allows (f a) s' R := by
  constructor
  · intro h a s' hm b t hf
    exact h b t (bind_eq_some_iff.2 ⟨(a, s'), hm, hf⟩)
  · intro h b t hmf
    obtain ⟨⟨a, s'⟩, hm, hf⟩ := bind_eq_some_iff.1 hmf
    exact h a s' hm b t hf

@[simp] theorem allows_get {Q : σ → σ → Prop} : Allows get s Q ↔ Q s s :=
  allows_pure (a := s)

@[simp] theorem allows_set {t : σ} {Q : Unit → σ → Prop} : Allows (set t) s Q ↔ Q () t :=
  allows_pure (a := ()) (s := t)

@[simp] theorem allows_modify {g : σ → σ} {Q : Unit → σ → Prop} :
    Allows (modify g) s Q ↔ Q () (g s) :=
  allows_pure (a := ()) (s := g s)

@[simp] theorem allows_panic : Allows (panic : Prog σ α) s Q := nofun

@[simp] theorem allows_expect {x : Option α} :
    Allows (expect x) s Q ↔ ∀ a, x = some a → Q a s := by
  cases x with
  | none => simp [Allows, expect]
  | some a => simp [Allows, expect]

@[simp] theorem allows_assert {b : Bool} {Q : Unit → σ → Prop} :
    Allows (assert b) s Q ↔ (b = true → Q () s) := by
  cases b with
  | false => simp [Allows, assert, panic]
  | true =>
    rw [assert, if_pos rfl, allows_pure]
    simp

@[simp] theorem allows_zoom {part : σ → τ} {put : σ → τ → σ} {m : Prog τ α} :
    Allows (zoom part put m) s Q ↔ Allows m (part s) fun a t => Q a (put s t) := by
  constructor
  · intro h a t hm
    exact h a (put s t) (map_eq_some_iff.2 ⟨(a, t), hm, rfl⟩)
  · intro h a s' hzoom
    obtain ⟨⟨a', t⟩, hm, hr⟩ := map_eq_some_iff.1 hzoom
    cases hr
    exact h a' t hm

theorem allows_ite {c : Prop} [Decidable c] {m' : Prog σ α} :
    Allows (if c then m else m') s Q ↔ (c → Allows m s Q) ∧ (¬ c → Allows m' s Q) := by
  split_ifs with h <;> simp [h]

theorem allows_each {g : α → Prog σ Unit} {I : σ → Prop}
    (hstep : ∀ a s, I s → Allows (g a) s fun _ s' => I s') (as : List α) (hs : I s) :
    Allows (each g as) s fun _ s' => I s' := by
  induction as generalizing s with
  | nil => exact allows_pure.2 hs
  | cons a as ih => exact allows_bind.2 ((hstep a s hs).mono fun _ s' h => ih h)

end Allows

section Try

variable {ε : Type} {t : ExceptT ε (Prog σ) α} {g : α → ExceptT ε (Prog σ) β}
  {P : Except ε α → σ → Prop} {S : Except ε β → σ → Prop}

@[simp] theorem ends_try_pure {a : α} :
    Ends (pure a : ExceptT ε (Prog σ) α).run s P ↔ P (.ok a) s :=
  ends_pure

@[simp] theorem ends_throw {e : ε} :
    Ends (throw e : ExceptT ε (Prog σ) α).run s P ↔ P (.error e) s :=
  ends_pure

@[simp] theorem ends_mk {r : Except ε α} :
    Ends (ExceptT.mk (pure r) : ExceptT ε (Prog σ) α).run s P ↔ P r s :=
  ends_pure

theorem ends_try_bind : Ends (t >>= g).run s S ↔ Ends t.run s fun r s' => match r with
      | .error e => S (.error e) s'
      | .ok a => Ends (g a).run s' S := by
  rw [ExceptT.run_bind, ends_bind]
  constructor
  · rintro ⟨r, s', ht, h⟩
    refine ⟨r, s', ht, ?_⟩
    cases r with
    | error e =>
      change Ends (pure (Except.error e)) s' S at h
      exact (ends_pure (a := Except.error e) (Q := S)).1 h
    | ok a => exact h
  · rintro ⟨r, s', ht, h⟩
    refine ⟨r, s', ht, ?_⟩
    cases r with
    | error e =>
      change Ends (pure (Except.error e)) s' S
      exact (ends_pure (a := Except.error e) (Q := S)).2 h
    | ok a => exact h

theorem ends_try_map {f : α → β} :
    Ends (f <$> t).run s S ↔ Ends t.run s fun r s' => S (r.map f) s' := by
  rw [← bind_pure_comp, ends_try_bind]
  constructor
  · rintro ⟨r, s', ht, h⟩
    refine ⟨r, s', ht, ?_⟩
    cases r with
    | error e => exact h
    | ok a => exact ends_try_pure.1 h
  · rintro ⟨r, s', ht, h⟩
    refine ⟨r, s', ht, ?_⟩
    cases r with
    | error e => exact h
    | ok a => exact ends_try_pure.2 h

@[simp] theorem ends_lift {m : Prog σ α} :
    Ends (ExceptT.lift m : ExceptT ε (Prog σ) α).run s P ↔ Ends m s fun a s' =>
      P (.ok a) s' := by
  rw [ExceptT.run_lift, ← bind_pure_comp, ends_bind]
  simp only [ends_pure]

@[simp] theorem ends_try_get {P : Except ε σ → σ → Prop} :
    Ends (get : ExceptT ε (Prog σ) σ).run s P ↔ P (.ok s) s :=
  ends_lift.trans ends_get

@[simp] theorem ends_try_set {s' : σ} {P : Except ε PUnit → σ → Prop} :
    Ends (set s' : ExceptT ε (Prog σ) PUnit).run s P ↔ P (.ok ⟨⟩) s' :=
  ends_lift.trans ends_set

@[simp] theorem ends_try_modify {f : σ → σ} {P : Except ε PUnit → σ → Prop} :
    Ends (modify f : ExceptT ε (Prog σ) PUnit).run s P ↔ P (.ok ⟨⟩) (f s) :=
  ends_lift.trans ends_modify

end Try
end Prog
end NexusSfu.Base
