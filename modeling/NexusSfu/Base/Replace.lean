import Mathlib.Data.List.Nodup
import Mathlib.Data.List.Perm.Basic

namespace NexusSfu.Base

open List

variable {α β : Type*} {p : α → Bool} {a b : α} {l : List α}

def replaceFirst (p : α → Bool) (a : α) : List α → List α
  | [] => []
  | b :: l => if p b then a :: l else b :: replaceFirst p a l

def items (l : List (Option α)) : List α := l.filterMap id

@[simp] theorem items_none (l : List (Option α)) : items (none :: l) = items l := rfl

@[simp] theorem items_some (a : α) (l : List (Option α)) : items (some a :: l) = a :: items l :=
  rfl

def fill (a : α) (l : List (Option α)) : List (Option α) :=
  if l.any Option.isNone then replaceFirst Option.isNone (some a) l else l ++ [some a]

theorem length_replaceFirst : (replaceFirst p a l).length = l.length := by
  induction l with
  | nil => rfl
  | cons b l ih =>
    rw [replaceFirst]
    split_ifs
    · rfl
    · rw [length_cons, length_cons, ih]

theorem mem_of_mem_replaceFirst (h : b ∈ replaceFirst p a l) : b = a ∨ b ∈ l := by
  induction l with
  | nil => cases h
  | cons c l ih =>
    rw [replaceFirst] at h
    split_ifs at h
    · exact (mem_cons.1 h).imp_right (mem_cons_of_mem c)
    · rcases mem_cons.1 h with rfl | h
      · exact .inr mem_cons_self
      · exact (ih h).imp_right (mem_cons_of_mem c)

theorem replaceFirst_eq_self (h : ∀ b ∈ l, ¬ p b = true) : replaceFirst p a l = l := by
  induction l with
  | nil => rfl
  | cons b l ih =>
    rw [replaceFirst, if_neg (h b mem_cons_self), ih fun c hc => h c (mem_cons_of_mem b hc)]

theorem map_replaceFirst {f : α → β} {q : β → Bool} (h : ∀ c, q (f c) = p c) :
    (replaceFirst p a l).map f = replaceFirst q (f a) (l.map f) := by
  induction l with
  | nil => rfl
  | cons b l ih =>
    rw [replaceFirst, map_cons, replaceFirst, h]
    split_ifs
    · rfl
    · rw [map_cons, ih]

theorem items_replaceFirst_none (l : List (Option α)) :
    items (replaceFirst (fun e => e.any p) none l) = (items l).eraseP p := by
  induction l with
  | nil => rfl
  | cons e l ih =>
    cases e with
    | none => simpa [replaceFirst] using ih
    | some b =>
      cases hb : p b with
      | true => simp [replaceFirst, hb]
      | false => simp [replaceFirst, hb, ih]

theorem items_replaceFirst_some (l : List (Option α)) :
    items (replaceFirst (fun e => e.any p) (some a) l) = replaceFirst p a (items l) := by
  induction l with
  | nil => rfl
  | cons e l ih =>
    cases e with
    | none => simpa [replaceFirst] using ih
    | some b =>
      cases hb : p b with
      | true => simp [replaceFirst, hb]
      | false => simp [replaceFirst, hb, ih]

theorem items_fill (a : α) (l : List (Option α)) : (items (fill a l)).Perm (a :: items l) := by
  unfold fill
  split_ifs with hfree
  · induction l with
    | nil => simp at hfree
    | cons e l ih =>
      cases e with
      | none => simp [replaceFirst]
      | some b =>
        have hfree : l.any Option.isNone := by simpa using hfree
        simp only [replaceFirst, Option.isNone_some, Bool.false_eq_true, if_false, items_some]
        exact ((ih hfree).cons b).trans (List.Perm.swap a b (items l))
  · simp [items, filterMap_append, perm_append_singleton]

theorem length_items_of_full {l : List (Option α)} (h : ¬ l.any Option.isNone) :
    (items l).length = l.length := by
  induction l with
  | nil => rfl
  | cons e l ih =>
    cases e with
    | none => simp at h
    | some b => simp [ih (by simpa using h)]

section Keyed

variable {key : α → β} [DecidableEq β] {k : β}

theorem mem_eraseP_key (h : (l.map key).Nodup) :
    b ∈ l.eraseP (fun c => key c = k) ↔ b ∈ l ∧ key b ≠ k := by
  induction l with
  | nil => simp
  | cons c l ih =>
    obtain ⟨hc, hl⟩ := nodup_cons.1 h
    by_cases hk : key c = k
    · rw [eraseP_cons_of_pos (by simpa using hk)]
      constructor
      · intro hb
        exact ⟨mem_cons_of_mem _ hb, fun hbk => hc (mem_map.2 ⟨b, hb, hbk.trans hk.symm⟩)⟩
      · rintro ⟨hb, hbk⟩
        rcases mem_cons.1 hb with rfl | hb
        · exact absurd hk hbk
        · exact hb
    · rw [eraseP_cons_of_neg (by simpa using hk), mem_cons, mem_cons, ih hl]
      constructor
      · rintro (rfl | ⟨hb, hbk⟩)
        · exact ⟨.inl rfl, hk⟩
        · exact ⟨.inr hb, hbk⟩
      · rintro ⟨rfl | hb, hbk⟩
        · exact .inl rfl
        · exact .inr ⟨hb, hbk⟩

theorem map_replaceFirst_key (ha : key a = k) :
    (replaceFirst (fun c => key c = k) a l).map key = l.map key := by
  induction l with
  | nil => rfl
  | cons c l ih =>
    rw [replaceFirst]
    split_ifs with hk
    · rw [map_cons, map_cons, ha]
      congr 1
      exact (by simpa using hk : key c = k).symm
    · rw [map_cons, map_cons, ih]

theorem mem_replaceFirst_key (h : (l.map key).Nodup) (ha : key a = k)
    (hl : ∃ c ∈ l, key c = k) :
    b ∈ replaceFirst (fun c => key c = k) a l ↔ b = a ∨ b ∈ l ∧ key b ≠ k := by
  induction l with
  | nil => simp at hl
  | cons c l ih =>
    obtain ⟨hc, hnd⟩ := nodup_cons.1 h
    by_cases hk : key c = k
    · rw [replaceFirst, if_pos (by simpa using hk), mem_cons, mem_cons]
      refine or_congr_right
        ⟨fun hb => ⟨.inr hb, fun hbk => hc (mem_map.2 ⟨b, hb, hbk.trans hk.symm⟩)⟩, ?_⟩
      rintro ⟨rfl | hb, hbk⟩
      · exact absurd hk hbk
      · exact hb
    · have hl : ∃ c ∈ l, key c = k := by
        obtain ⟨c', hc', hk'⟩ := hl
        rcases mem_cons.1 hc' with rfl | hc'
        · exact absurd hk' hk
        · exact ⟨c', hc', hk'⟩
      rw [replaceFirst, if_neg (by simpa using hk), mem_cons, ih hnd hl, mem_cons]
      constructor
      · rintro (rfl | rfl | ⟨hb, hbk⟩)
        · exact .inr ⟨.inl rfl, hk⟩
        · exact .inl rfl
        · exact .inr ⟨.inr hb, hbk⟩
      · rintro (rfl | ⟨rfl | hb, hbk⟩)
        · exact .inr (.inl rfl)
        · exact .inl rfl
        · exact .inr (.inr ⟨hb, hbk⟩)

theorem find?_replaceFirst_key (ha : key a = k) (hl : ∃ c ∈ l, key c = k) (x : β) :
    (replaceFirst (fun c => key c = k) a l).find? (fun c => key c = x)
      = if x = k then some a else l.find? fun c => key c = x := by
  induction l with
  | nil => simp at hl
  | cons c l ih =>
    rw [replaceFirst]
    by_cases hc : key c = k
    · simp only [hc, decide_true, if_true, find?_cons, ha]
      by_cases hx : x = k
      · simp [hx]
      · simp [hx, Ne.symm hx]
    · have hl : ∃ c ∈ l, key c = k := by
        obtain ⟨c', hc', hk⟩ := hl
        rcases mem_cons.1 hc' with rfl | hc'
        · exact absurd hk hc
        · exact ⟨c', hc', hk⟩
      simp only [hc, decide_false, Bool.false_eq_true, if_false, find?_cons, ih hl]
      by_cases hx : key c = x
      · have hxk : x ≠ k := fun h => hc (hx.trans h)
        simp [hx, hxk]
      · simp [hx]

theorem find?_items_replaceFirst_isNone {l : List (Option α)} (hfree : l.any Option.isNone)
    (hnew : ∀ c ∈ items l, key c ≠ key a) (x : β) :
    (items (replaceFirst Option.isNone (some a) l)).find? (fun c => key c = x)
      = if x = key a then some a else (items l).find? fun c => key c = x := by
  induction l with
  | nil => simp at hfree
  | cons e l ih =>
    cases e with
    | none =>
      rw [replaceFirst, if_pos Option.isNone_none, items_some, items_none, find?_cons]
      by_cases hx : x = key a
      · simp [hx]
      · simp [hx, Ne.symm hx]
    | some b =>
      have hfree : l.any Option.isNone := by simpa using hfree
      rw [replaceFirst, if_neg (by simp), items_some, items_some, find?_cons, find?_cons,
        ih hfree fun c hc => hnew c (mem_cons_of_mem b hc)]
      by_cases hb : key b = x
      · have hxa : x ≠ key a := fun h => hnew b (mem_cons_self ..) (hb.trans h)
        simp [hb, hxa]
      · simp [hb]

end Keyed
end NexusSfu.Base
