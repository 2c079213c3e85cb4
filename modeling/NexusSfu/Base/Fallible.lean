import NexusSfu.Base.Bytes

namespace NexusSfu.Base

variable {ε α β : Type}

abbrev Fallible (ε α : Type) := ExceptT ε Option α

namespace Fallible

variable {m : Fallible ε α} {f : α → Fallible ε β} {Q Q' : α → Prop}
  {R : β → Prop} {b : Bytes}
  {i k : Nat}

def panic : Fallible ε α := ExceptT.mk none

def assert (b : Bool) : Fallible ε Unit := if b then pure () else panic

def expect (x : Option α) : Fallible ε α :=
  match x with
  | some a => pure a
  | none => panic

def ofResult (x : Except ε α) : Fallible ε α := ExceptT.mk (some x)

def index (b : Bytes) (i : Nat) : Fallible ε UInt8 :=
  match b[i]? with
  | some x => pure x
  | none => panic

def sub (b : Bytes) (i k : Nat) : Fallible ε Bytes := do
  assert (i + k ≤ b.length)
  return slice b i k

def array (n : Nat) (b : Bytes) : Fallible ε (Vector UInt8 n) :=
  if h : b.length = n then pure ⟨b.toArray, h⟩ else panic

def read16 (b : Bytes) (i : Nat) : Fallible ε UInt16 := do
  assert (i + 2 ≤ b.length)
  return be16 b i

def read32 (b : Bytes) (i : Nat) : Fallible ε UInt32 := do
  assert (i + 4 ≤ b.length)
  return be32 b i

theorem sub_eq (h : i + k ≤ b.length) : (sub b i k : Fallible ε Bytes) = pure (slice b i k) := by
  simp [sub, assert, h]

theorem read16_eq (h : i + 2 ≤ b.length) :
    (read16 b i : Fallible ε UInt16) = pure (be16 b i) := by
  simp [read16, assert, h]

theorem read32_eq (h : i + 4 ≤ b.length) :
    (read32 b i : Fallible ε UInt32) = pure (be32 b i) := by
  simp [read32, assert, h]

def Returns (m : Fallible ε α) (Q : α → Prop) : Prop :=
  match m.run with
  | none => False
  | some (.error _) => True
  | some (.ok a) => Q a

theorem Returns.ne_none (h : Returns m Q) : m.run ≠ none := by
  intro hm
  rw [Returns, hm] at h
  exact h

theorem Returns.of_ok {a : α} (h : Returns m Q) (hm : m.run = some (.ok a)) : Q a := by
  rw [Returns, hm] at h
  exact h

theorem run_bind_ok {c : β} (h : (m >>= f).run = some (.ok c)) :
    ∃ a, m.run = some (.ok a) ∧ (f a).run = some (.ok c) := by
  rw [ExceptT.run_bind] at h
  cases hm : m.run with
  | none =>
    rw [hm] at h
    cases h
  | some r =>
    rw [hm] at h
    cases r with
    | error e => cases h
    | ok a => exact ⟨a, rfl, h⟩

theorem run_bind_eq_none_iff :
    (m >>= f).run = none ↔ m.run = none ∨ ∃ a, m.run = some (.ok a) ∧ (f a).run = none := by
  rw [ExceptT.run_bind]
  cases m.run with
  | none => simp
  | some r =>
    cases r with
    | error e => simp [pure]
    | ok a => simp

theorem assert_eq {c : Bool} (h : c = true) : (assert c : Fallible ε Unit) = pure () := by
  rw [assert, if_pos h]

@[simp] theorem returns_pure {a : α} : Returns (pure a : Fallible ε α) Q ↔ Q a := Iff.rfl

@[simp] theorem returns_throw {e : ε} : Returns (throw e : Fallible ε α) Q ↔ True := Iff.rfl

@[simp] theorem returns_panic : Returns (panic : Fallible ε α) Q ↔ False := Iff.rfl

@[simp] theorem returns_bind : Returns (m >>= f) R ↔ Returns m fun a => Returns (f a) R := by
  unfold Returns
  rw [ExceptT.run_bind]
  cases m.run with
  | none => rfl
  | some r =>
    cases r with
    | error e => rfl
    | ok a => rfl

@[simp] theorem returns_map {g : α → β} :
    Returns (g <$> m) R ↔ Returns m fun a => R (g a) := by
  rw [← bind_pure_comp, returns_bind]
  rfl

@[simp] theorem returns_assert {c : Bool} {Q : Unit → Prop} :
    Returns (assert c : Fallible ε Unit) Q ↔ c = true ∧ Q () := by
  cases c with
  | false => simp [assert]
  | true => simp [assert]

theorem returns_ite {c : Prop} [Decidable c] {m' : Fallible ε α} :
    Returns (if c then m else m') Q ↔ (c → Returns m Q) ∧ (¬ c → Returns m' Q) := by
  split_ifs with h <;> simp [h]

theorem returns_index {Q : UInt8 → Prop} (hi : i < b.length) (h : ∀ x, Q x) :
    Returns (index b i : Fallible ε UInt8) Q := by
  rw [index, List.getElem?_eq_getElem hi]
  exact h _

theorem returns_sub {Q : Bytes → Prop} (hi : i + k ≤ b.length) (h : Q (slice b i k)) :
    Returns (sub b i k : Fallible ε Bytes) Q := by
  rwa [sub_eq hi]

theorem returns_array {n : Nat} {Q : Vector UInt8 n → Prop} (hb : b.length = n) (h : ∀ v, Q v) :
    Returns (array n b : Fallible ε (Vector UInt8 n)) Q := by
  rw [array, dif_pos hb]
  exact h _

theorem returns_read16 {Q : UInt16 → Prop} (hi : i + 2 ≤ b.length) (h : Q (be16 b i)) :
    Returns (read16 b i : Fallible ε UInt16) Q := by
  rwa [read16_eq hi]

theorem returns_read32 {Q : UInt32 → Prop} (hi : i + 4 ≤ b.length) (h : Q (be32 b i)) :
    Returns (read32 b i : Fallible ε UInt32) Q := by
  rwa [read32_eq hi]

end Fallible
end NexusSfu.Base
