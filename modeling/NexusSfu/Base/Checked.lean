import NexusSfu.Base.Prog

namespace NexusSfu.Base

variable {ε σ τ α β : Type}

abbrev Checked (ε σ α : Type) := StateT σ (Except ε) α

namespace Checked

variable {A : ε → Prop} {m : Checked ε σ α} {f : α → Checked ε σ β} {s : σ}
  {Q Q' : α → σ → Prop}
  {R : β → σ → Prop}

def panic (e : ε) : Checked ε σ α := fun _ => .error e

def assert (e : ε) (b : Bool) : Checked ε σ Unit := if b then pure () else panic e

def expect (e : ε) : Option α → Checked ε σ α
  | some a => pure a
  | none => panic e

def each (g : α → Checked ε σ Unit) : List α → Checked ε σ Unit
  | [] => pure ()
  | a :: as => do
    g a
    each g as

def zoom (part : σ → τ) (put : σ → τ → σ) (m : Checked ε τ α) :
    Checked ε σ α := fun s =>
  (m (part s)).map fun r => (r.1, put s r.2)

/-- `m` panics on `s` only as `A` allows, and else what it returns and leaves satisfies `Q`. -/
def Ensures (A : ε → Prop) (m : Checked ε σ α) (s : σ) (Q : α → σ → Prop) : Prop :=
  match m s with
  | .ok (a, s') => Q a s'
  | .error e => A e

theorem Ensures.mono (h : Ensures A m s Q) (hq : ∀ a s', Q a s' → Q' a s') :
    Ensures A m s Q' := by
  unfold Ensures at *
  split at h
  · exact hq _ _ h
  · exact h

theorem Ensures.of_ok {a : α} {s' : σ} (h : Ensures A m s Q) (hm : m s = .ok (a, s')) :
    Q a s' := by
  rw [Ensures, hm] at h
  exact h

theorem Ensures.of_error {e : ε} (h : Ensures A m s Q) (hm : m s = .error e) : A e := by
  rw [Ensures, hm] at h
  exact h

theorem Ensures.exists_ok (h : Ensures (fun _ => False) m s Q) :
    ∃ a s', m s = .ok (a, s') ∧ Q a s' := by
  cases hm : m s with
  | error e => exact (h.of_error hm).elim
  | ok r => exact ⟨r.1, r.2, rfl, h.of_ok hm⟩

theorem bind_of_ok {a : α} {t : σ} (h : m s = .ok (a, t)) : (m >>= f) s = f a t := by
  change (m s).bind (fun p => f p.1 p.2) = _
  rw [h]
  rfl

theorem ensures_ok (m : Checked ε σ α) (s : σ) :
    Ensures (fun _ => True) m s fun a s' => m s = .ok (a, s') := by
  unfold Ensures
  cases m s with
  | error e => trivial
  | ok r => rfl

@[simp] theorem ensures_pure {a : α} : Ensures A (pure a) s Q ↔ Q a s := Iff.rfl

@[simp] theorem ensures_bind :
    Ensures A (m >>= f) s R ↔ Ensures A m s fun a s' => Ensures A (f a) s' R := by
  change (match (m s).bind fun p => f p.1 p.2 with
    | .ok (b, t) => R b t
    | .error e => A e) ↔ _
  unfold Ensures
  cases m s with
  | error e => rfl
  | ok p => rfl

theorem Ensures.next {a : α} {t : σ} (h : Ensures A m s fun b s' => b = a ∧ s' = t)
    (hf : Ensures A (f a) t R) :
    Ensures A (m >>= f) s R :=
  ensures_bind.2 (h.mono fun _ _ hb => hb.1 ▸ hb.2 ▸ hf)

theorem Ensures.stay {t : σ} (h : Ensures A m s fun _ s' => s' = t)
    (hf : ∀ a, Ensures A (f a) t R) :
    Ensures A (m >>= f) s R :=
  ensures_bind.2 (h.mono fun a _ ht => ht ▸ hf a)

@[simp] theorem ensures_get {Q : σ → σ → Prop} : Ensures A get s Q ↔ Q s s := Iff.rfl

@[simp] theorem ensures_set {t : σ} {Q : PUnit → σ → Prop} :
    Ensures A (set t) s Q ↔ Q ⟨⟩ t := Iff.rfl

@[simp] theorem ensures_modify {g : σ → σ} {Q : PUnit → σ → Prop} :
    Ensures A (modify g) s Q ↔ Q ⟨⟩ (g s) := Iff.rfl

@[simp] theorem ensures_assert {e : ε} {b : Bool} {Q : Unit → σ → Prop} :
    Ensures A (assert e b) s Q ↔ if b then Q () s else A e := by
  cases b with
  | false => rfl
  | true => rfl

@[simp] theorem ensures_expect {e : ε} {x : Option α} :
    Ensures A (expect e x) s Q ↔ match x with
      | some a => Q a s
      | none => A e := by
  cases x with
  | none => rfl
  | some a => rfl

theorem ensures_ite {c : Prop} [Decidable c] {m' : Checked ε σ α} :
    Ensures A (if c then m else m') s Q ↔
      (c → Ensures A m s Q) ∧ (¬ c → Ensures A m' s Q) := by
  split_ifs with h <;> simp [h]

@[simp] theorem ensures_zoom {part : σ → τ} {put : σ → τ → σ} {m : Checked ε τ α} :
    Ensures A (zoom part put m) s Q ↔ Ensures A m (part s) fun a t => Q a (put s t) := by
  unfold Ensures zoom
  cases m (part s) with
  | error e => rfl
  | ok r => rfl

end Checked
end NexusSfu.Base
