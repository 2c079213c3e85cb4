import NexusSfu.Base.Bytes

namespace NexusSfu.Base

open List

variable {ε α β : Type}

def Reader (ε α : Type) := Bytes → Nat → Except ε (α × Nat)

namespace Reader

instance : Monad (Reader ε) where
  pure a := fun _ i => .ok (a, i)
  bind m f := fun data i => match m data i with
    | .error e => .error e
    | .ok (a, j) => f a data j

def next (tooShort : Nat → Nat → ε) : Reader ε UInt8 := fun data i =>
  if i ≥ data.length then .error (tooShort data.length (i + 1)) else .ok (data.getD i 0, i + 1)

def peek : Reader ε (Option UInt8) := fun data i => .ok (data[i]?, i)

def advance (n : Nat) : Reader ε Unit := fun _ i => .ok ((), i + n)

def optional (flag : Bool) (m : Reader ε α) : Reader ε (Option α) :=
  if flag then do return some (← m) else pure none

def Reads (m : Reader ε α) (bs rest : Bytes) (a : α) : Prop :=
  ∀ data i, data.drop i = bs ++ rest → m data i = .ok (a, i + bs.length)

variable {m : Reader ε α} {f : α → Reader ε β} {bs l k rest data : Bytes} {a : α}
  {b : β} {i : Nat}
  {tooShort : Nat → Nat → ε}

theorem reads_pure (a : α) (rest : Bytes) : Reads (pure a : Reader ε α) [] rest a :=
  fun _ _ _ => rfl

theorem bind_of_ok {j : Nat} (h : m data i = .ok (a, j)) : (m >>= f) data i = f a data j := by
  simp only [Bind.bind, h]

theorem Reads.bind (hm : Reads m l (k ++ rest) a) (hf : Reads (f a) k rest b) :
    Reads (m >>= f) (l ++ k) rest b := by
  intro data i h
  rw [append_assoc] at h
  rw [bind_of_ok (hm data i h), hf data _ (drop_of_drop h rfl), length_append, Nat.add_assoc]

theorem Reads.bind_nil (hm : Reads m l rest a) (hf : Reads (f a) [] rest b) :
    Reads (m >>= f) l rest b := by
  have hnil := Reads.bind (k := []) hm hf
  rwa [append_nil] at hnil

theorem Reads.map {g : α → β} (hm : Reads m l rest a) :
    Reads (do return g (← m)) l rest (g a) :=
  hm.bind_nil (reads_pure (g a) rest)

theorem length_of_drop (h : data.drop i = bs ++ rest) (hpos : 0 < bs.length) :
    i + bs.length ≤ data.length := by
  have hlen := congrArg List.length h
  rw [length_drop, length_append] at hlen
  omega

theorem reads_next (x : UInt8) (rest : Bytes) : Reads (next tooShort) [x] rest x := by
  intro data i h
  have hlt : i < data.length := length_of_drop h Nat.one_pos
  have hget : data[i]? = some x := by
    rw [← Nat.add_zero i, ← getElem?_drop, h]
    rfl
  rw [next, if_neg (Nat.not_le.2 hlt), getD_eq_getElem?_getD, hget]
  rfl

theorem reads_peek (rest : Bytes) : Reads (peek : Reader ε _) [] rest rest.head? := by
  intro data i h
  rw [peek, ← Nat.add_zero i, ← getElem?_drop, h, head?_eq_getElem?]
  rfl

theorem Reads.optional {flag : Bool} {o : Option β} {enc : β → Bytes} {g : β → α}
    (hflag : flag = o.isSome) (h : ∀ b, Reads m (enc b) rest (g b)) :
    Reads (m.optional flag) (o.elim [] enc) rest (o.map g) := by
  subst hflag
  cases o with
  | none => exact reads_pure none rest
  | some b => exact (h b).map

theorem reads_optional_next {flag : Bool} {o : Option UInt8} (hflag : flag = o.isSome)
    (rest : Bytes) :
    Reads ((next tooShort).optional flag) (o.elim [] ([·])) rest o := by
  have ho := Reads.optional (g := id) hflag fun x =>
    (reads_next x rest : Reads (next tooShort) _ _ _)
  rwa [Option.map_id_fun] at ho

end Reader
end NexusSfu.Base
