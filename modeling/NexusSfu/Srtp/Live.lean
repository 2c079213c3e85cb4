import NexusSfu.Srtp.Inbound
import NexusSfu.Srtp.Outbound

namespace NexusSfu.Srtp

open Base Finset

namespace SrtpOutbound

variable {s s' : SrtpOutbound} {i : Fin outboundSsrcSlots} {ssrc base last : UInt32}
  {ssrcs ssrcs' : List UInt32}

def Sends (s : SrtpOutbound) (ssrc : UInt32) : Prop :=
  ∃ i, (s.slots i).live = true ∧ (s.slots i).ssrc = ssrc

def shape (s : SrtpOutbound) : UInt32 × UInt32 × (Fin outboundSsrcSlots → Bool × UInt32) :=
  (s.ssrcBase, s.nextOffset, fun i => ((s.slots i).live, (s.slots i).ssrc))

theorem shape_setSlot {x : SsrcOut} (hl : x.live = (s.slots i).live)
    (hs : x.ssrc = (s.slots i).ssrc) : (s.setSlot i x).shape = s.shape := by
  simp only [shape, Prod.mk.injEq]
  refine ⟨rfl, rfl, funext fun j => ?_⟩
  by_cases hj : j = i
  · subst hj
    simp [hl, hs]
  · rw [setSlot_slots_ne hj]

theorem shape_protectRtp (buf : Bytes) (len : Nat) : (s.protectRtp buf len).2.shape = s.shape := by
  rcases s.protectRtp_cases buf len with ⟨s', h, hs'⟩ | ⟨slot, index, out, -, -, -, -, -, h⟩
  · rw [h]
    rcases hs' with rfl | ⟨slot, index, rfl⟩
    · rfl
    · exact shape_setSlot rfl rfl
  · rw [h]
    exact shape_setSlot rfl rfl

theorem shape_protectRtcp (buf : Bytes) (len : Nat) :
    (s.protectRtcp buf len).2.shape = s.shape := by
  rcases s.protectRtcp_cases buf len with h | ⟨slot, out, -, -, -, -, h⟩
  · rw [h]
  · rw [h]
    exact shape_setSlot rfl rfl

structure Mirrors (s : SrtpOutbound) (base last : UInt32) (ssrcs : List UInt32) : Prop where
  wellFormed : s.WellFormed
  ssrcBase : s.ssrcBase = base
  sends : ∀ x, s.Sends x ↔ x ∈ base :: ssrcs
  nextOffset : s.nextOffset.toNat ≤ last.toNat + 1

theorem Mirrors.of_shape (h : s.Mirrors base last ssrcs) (hs : s'.shape = s.shape) :
    s'.Mirrors base last ssrcs := by
  simp only [shape, Prod.mk.injEq] at hs
  obtain ⟨hbase, hnext, hslots⟩ := hs
  have hslot : ∀ i, (s'.slots i).live = (s.slots i).live ∧
      (s'.slots i).ssrc = (s.slots i).ssrc :=
    fun i => by simpa using congrFun hslots i
  refine ⟨⟨fun i j hi hj e => ?_, fun i hi => ?_⟩, hbase.trans h.ssrcBase, fun x => ?_, ?_⟩
  · rw [(hslot i).1] at hi
    rw [(hslot j).1] at hj
    rw [(hslot i).2, (hslot j).2] at e
    exact h.wellFormed.distinct i j hi hj e
  · rw [(hslot i).1] at hi
    rw [(hslot i).2, hbase, hnext]
    exact h.wellFormed.below i hi
  · rw [← h.sends x]
    simp only [Sends, hslot]
  · rw [hnext]
    exact h.nextOffset

theorem Mirrors.exists_free (h : s.Mirrors base last ssrcs)
    (hlen : ssrcs.length + 1 < outboundSsrcSlots) : ∃ i, (s.slots i).live = false := by
  by_contra hall
  simp only [not_exists, Bool.not_eq_false] at hall
  have hinj : Function.Injective fun i => (s.slots i).ssrc := fun i j e =>
    h.wellFormed.distinct i j (hall i) (hall j) e
  have hmem : ∀ i ∈ Finset.univ, (s.slots i).ssrc ∈ (base :: ssrcs).toFinset := fun i _ =>
    List.mem_toFinset.2 ((h.sends _).1 ⟨i, hall i, rfl⟩)
  have hcard := card_le_card_of_injOn _ hmem hinj.injOn
  rw [card_univ, Fintype.card_fin] at hcard
  have := List.toFinset_card_le (base :: ssrcs)
  simp only [List.length_cons] at this
  omega

theorem register_ok (hwf : s.WellFormed) (hfree : ∃ i, (s.slots i).live = false)
    (hnext : s.nextOffset ≤ ssrc - s.ssrcBase) (hmax : ssrc - s.ssrcBase ≤ maxSsrcOffset) :
    ∃ slot, (s.slots slot).live = false ∧
      s.register ssrc = some (.ok (), s.assign slot ssrc) := by
  rcases hwf.register_cases ssrc with ⟨e, he⟩ | ⟨slot, hslot, -, -, hreg⟩
  · obtain ⟨i, hi⟩ := hfree
    obtain ⟨j, hj⟩ := exists_position (s := s.slots) (p := fun x => !x.live) (i := i)
      (by simp [hi])
    have hoff : ¬ (ssrc - s.ssrcBase < s.nextOffset ∨ ssrc - s.ssrcBase > maxSsrcOffset) := by
      simp only [not_or, gt_iff_lt, UInt32.not_lt]
      exact ⟨hnext, hmax⟩
    simp only [register, if_neg hoff, hj] at he
    split_ifs at he
    cases he
  · exact ⟨slot, hslot, hreg⟩

theorem sends_assign (hslot : (s.slots i).live = false) (x : UInt32) :
    (s.assign i ssrc).Sends x ↔ x = ssrc ∨ s.Sends x := by
  constructor
  · rintro ⟨j, hl, hs⟩
    by_cases hj : j = i
    · subst hj
      simp only [assign, setSlot_slots_self] at hs
      exact .inl hs.symm
    · simp only [assign, setSlot_slots_ne hj] at hl hs
      exact .inr ⟨j, hl, hs⟩
  · rintro (rfl | ⟨j, hl, hs⟩)
    · exact ⟨i, by simp [assign, SsrcOut.fresh], by simp [assign, SsrcOut.fresh]⟩
    · have hj : j ≠ i := by
        rintro rfl
        simp [hl] at hslot
      exact ⟨j, by simpa only [assign, setSlot_slots_ne hj] using hl,
        by simpa only [assign, setSlot_slots_ne hj] using hs⟩

theorem toNat_succ {o : UInt32} (h : o ≤ maxSsrcOffset) : (o + 1).toNat = o.toNat + 1 := by
  have hm : o.toNat ≤ 2147483647 := h
  rw [UInt32.toNat_add]
  simp only [UInt32.reduceToNat]
  omega

theorem Mirrors.register (h : s.Mirrors base last ssrcs)
    (hlen : ssrcs.length + 1 < outboundSsrcSlots) (hlast : last < ssrc - base)
    (hmax : ssrc - base ≤ maxSsrcOffset) :
    ∃ s', s.register ssrc = some (.ok (), s') ∧
      s'.Mirrors base (ssrc - base) (ssrcs ++ [ssrc]) := by
  have hnext : s.nextOffset ≤ ssrc - s.ssrcBase := by
    rw [h.ssrcBase, UInt32.le_iff_toNat_le]
    have := h.nextOffset
    rw [UInt32.lt_iff_toNat_lt] at hlast
    omega
  rw [← h.ssrcBase] at hmax
  obtain ⟨slot, hslot, hreg⟩ := register_ok h.wellFormed (h.exists_free hlen) hnext hmax
  refine ⟨s.assign slot ssrc, hreg, h.wellFormed.assign hnext hmax, h.ssrcBase, fun x => ?_, ?_⟩
  · rw [sends_assign hslot, h.sends]
    simp only [List.mem_cons, List.mem_append, List.not_mem_nil, or_false]
    tauto
  · have hsucc := toNat_succ hmax
    rw [h.ssrcBase] at hsucc
    simp only [assign, h.ssrcBase, hsucc, le_refl]

theorem Mirrors.mono (h : s.Mirrors base last ssrcs) {last' : UInt32} (hl : last ≤ last') :
    s.Mirrors base last' ssrcs := by
  refine ⟨h.wellFormed, h.ssrcBase, h.sends, ?_⟩
  have := h.nextOffset
  rw [UInt32.le_iff_toNat_le] at hl
  omega

theorem mirrors_first (cipher : SrtpCipher) (base : UInt32) :
    ∃ s', (fromKeys cipher base).register base = some (.ok (), s') ∧ s'.Mirrors base 0 [] := by
  have hwf := fromKeys_wellFormed cipher base
  have hzero : base - base = 0 := by simp
  have hoff : base - (fromKeys cipher base).ssrcBase = 0 := hzero
  have hnext : (fromKeys cipher base).nextOffset ≤ base - (fromKeys cipher base).ssrcBase := by
    rw [hoff]
    exact UInt32.le_refl _
  have hmax : base - (fromKeys cipher base).ssrcBase ≤ maxSsrcOffset := by
    rw [hoff]
    decide
  obtain ⟨slot, hslot, hreg⟩ := register_ok hwf ⟨0, rfl⟩ hnext hmax
  refine ⟨_, hreg, hwf.assign hnext hmax, rfl, fun x => ?_, ?_⟩
  · rw [sends_assign hslot]
    simp [Sends, fromKeys, SsrcOut.empty]
  · simp [assign, fromKeys]

theorem Mirrors.retire (h : s.Mirrors base last ssrcs) (hne : ssrc ≠ base)
    (hssrcs : ∀ x, x ∈ ssrcs' ↔ x ∈ ssrcs ∧ x ≠ ssrc) :
    (s.retire ssrc).Mirrors base last ssrcs' := by
  have hcases : s.slotOf ssrc = none ∨ ∃ i, s.slotOf ssrc = some i := by
    cases s.slotOf ssrc <;> simp
  rcases hcases with hslot | ⟨i, hslot⟩
  · have hnot : ¬ s.Sends ssrc := by
      rintro ⟨i, hl, hs⟩
      simp [h.wellFormed.slotOf_eq hl hs] at hslot
    have hmem : ssrc ∉ ssrcs := fun hm => hnot ((h.sends ssrc).2 (List.mem_cons_of_mem _ hm))
    have hsame : s.retire ssrc = s := by rw [SrtpOutbound.retire, hslot]
    rw [hsame]
    refine ⟨h.wellFormed, h.ssrcBase, fun x => ?_, h.nextOffset⟩
    rw [h.sends, List.mem_cons, List.mem_cons, hssrcs]
    have : x ∈ ssrcs → x ≠ ssrc := fun hx e => hmem (e ▸ hx)
    tauto
  · have hi := slotOf_some hslot
    have hret : s.retire ssrc = s.setSlot i { s.slots i with live := false } := by
      rw [SrtpOutbound.retire, hslot]
    rw [hret]
    refine ⟨h.wellFormed.setSlot (by simp), h.ssrcBase, fun x => ?_, h.nextOffset⟩
    have hsends : (s.setSlot i { s.slots i with live := false }).Sends x ↔
        s.Sends x ∧ x ≠ ssrc := by
      constructor
      · rintro ⟨j, hl, hs⟩
        by_cases hj : j = i
        · subst hj
          simp at hl
        · rw [setSlot_slots_ne hj] at hl hs
          refine ⟨⟨j, hl, hs⟩, fun e => hj ?_⟩
          exact h.wellFormed.distinct j i hl hi.1 (hs.trans (e.trans hi.2.symm))
      · rintro ⟨⟨j, hl, hs⟩, hx⟩
        have hj : j ≠ i := by
          rintro rfl
          exact hx (hs.symm.trans hi.2)
        exact ⟨j, by rwa [setSlot_slots_ne hj], by rwa [setSlot_slots_ne hj]⟩
    rw [hsends, h.sends, List.mem_cons, List.mem_cons, hssrcs]
    have : x = base → x ≠ ssrc := fun e e' => hne (e'.symm.trans e)
    tauto

end SrtpOutbound

namespace SrtpInbound

variable {s s' : SrtpInbound} {i j : Fin inboundSsrcSlots} {x : SsrcIn} {ssrc : UInt32}
  {ssrcs ssrcs' : List UInt32} {nowS : Nat}

def Pins (s : SrtpInbound) (ssrc : UInt32) : Prop :=
  ∃ i, (s.slots i).isPinned = true ∧ (s.slots i).ssrc = ssrc

def WellFormed (s : SrtpInbound) : Prop := ∀ i j, (s.slots i).live = true →
  (s.slots j).live = true → (s.slots i).ssrc = (s.slots j).ssrc → i = j

@[simp] theorem setSlot_slots_self : (s.setSlot i x).slots i = x := by simp [setSlot]

theorem setSlot_slots_ne (h : j ≠ i) : (s.setSlot i x).slots j = s.slots j := by simp [setSlot, h]

structure Mirrors (s : SrtpInbound) (ssrcs : List UInt32) : Prop where
  wellFormed : s.WellFormed
  pins : ∀ x, s.Pins x ↔ x ∈ ssrcs

theorem WellFormed.setSlot (h : s.WellFormed)
    (hx : x.live = true → ((s.slots i).live = true ∧ x.ssrc = (s.slots i).ssrc) ∨
      ∀ j, (s.slots j).isFor x.ssrc = false) : (s.setSlot i x).WellFormed := by
  have hother : ∀ j, j ≠ i → (s.slots j).live = true → x.live = true →
      (s.slots j).ssrc ≠ x.ssrc := by
    intro j hj hl hxl e
    rcases hx hxl with ⟨hi, hs⟩ | hnone
    · exact hj (h j i hl hi (e.trans hs))
    · simpa [SsrcIn.isFor, hl, e] using hnone j
  intro j k hj hk e
  by_cases hji : j = i <;> by_cases hki : k = i
  · rw [hji, hki]
  · subst hji
    rw [setSlot_slots_self] at hj e
    rw [setSlot_slots_ne hki] at hk e
    exact absurd e.symm (hother k hki hk hj)
  · subst hki
    rw [setSlot_slots_self] at hk e
    rw [setSlot_slots_ne hji] at hj e
    exact absurd e (hother j hji hj hk)
  · rw [setSlot_slots_ne hji] at hj e
    rw [setSlot_slots_ne hki] at hk e
    exact h j k hj hk e

theorem pins_setSlot (y : UInt32) : (s.setSlot i x).Pins y ↔
    (x.isPinned = true ∧ x.ssrc = y) ∨ ∃ j, j ≠ i ∧ (s.slots j).isPinned = true ∧
      (s.slots j).ssrc = y := by
  constructor
  · rintro ⟨j, hp, hs⟩
    by_cases hj : j = i
    · subst hj
      rw [setSlot_slots_self] at hp hs
      exact .inl ⟨hp, hs⟩
    · rw [setSlot_slots_ne hj] at hp hs
      exact .inr ⟨j, hj, hp, hs⟩
  · rintro (⟨hp, hs⟩ | ⟨j, hj, hp, hs⟩)
    · exact ⟨i, by rwa [setSlot_slots_self], by rwa [setSlot_slots_self]⟩
    · exact ⟨j, by rwa [setSlot_slots_ne hj], by rwa [setSlot_slots_ne hj]⟩

theorem pins_iff_of_slot (i : Fin inboundSsrcSlots) (y : UInt32) : s.Pins y ↔
    ((s.slots i).isPinned = true ∧ (s.slots i).ssrc = y) ∨
      ∃ j, j ≠ i ∧ (s.slots j).isPinned = true ∧ (s.slots j).ssrc = y := by
  constructor
  · rintro ⟨j, hp, hs⟩
    by_cases hj : j = i
    · exact .inl ⟨hj ▸ hp, hj ▸ hs⟩
    · exact .inr ⟨j, hj, hp, hs⟩
  · rintro (⟨hp, hs⟩ | ⟨j, -, hp, hs⟩)
    · exact ⟨i, hp, hs⟩
    · exact ⟨j, hp, hs⟩

theorem Mirrors.setSlot (h : s.Mirrors ssrcs)
    (hx : x.live = true → ((s.slots i).live = true ∧ x.ssrc = (s.slots i).ssrc) ∨
      ∀ j, (s.slots j).isFor x.ssrc = false)
    (hp : (x.isPinned = (s.slots i).isPinned ∧ x.ssrc = (s.slots i).ssrc) ∨
      (x.isPinned = false ∧ (s.slots i).isPinned = false)) : (s.setSlot i x).Mirrors ssrcs := by
  refine ⟨h.wellFormed.setSlot hx, fun y => ?_⟩
  rw [← h.pins y, pins_setSlot, s.pins_iff_of_slot i]
  rcases hp with ⟨hp, hs⟩ | ⟨hp, hp'⟩
  · rw [hp, hs]
  · simp [hp, hp']

def shape (s : SrtpInbound) : Fin inboundSsrcSlots → Bool × Bool × UInt32 :=
  fun i => ((s.slots i).live, (s.slots i).pinned, (s.slots i).ssrc)

theorem shape_setSlot (hl : x.live = (s.slots i).live) (hp : x.pinned = (s.slots i).pinned)
    (hs : x.ssrc = (s.slots i).ssrc) : (s.setSlot i x).shape = s.shape := by
  funext j
  by_cases hj : j = i
  · subst hj
    simp [shape, hl, hp, hs]
  · simp [shape, setSlot_slots_ne hj]

theorem isFor_of_shape (h : s'.shape = s.shape) (i : Fin inboundSsrcSlots) (ssrc : UInt32) :
    (s'.slots i).isFor ssrc = (s.slots i).isFor ssrc := by
  have hi := congrFun h i
  simp only [shape, Prod.mk.injEq] at hi
  rw [SsrcIn.isFor, SsrcIn.isFor, hi.1, hi.2.2]

theorem isPinned_of_shape (h : s'.shape = s.shape) (i : Fin inboundSsrcSlots) :
    (s'.slots i).isPinned = (s.slots i).isPinned := by
  have hi := congrFun h i
  simp only [shape, Prod.mk.injEq] at hi
  rw [SsrcIn.isPinned, SsrcIn.isPinned, hi.1, hi.2.1]

theorem Mirrors.of_shape (h : s.Mirrors ssrcs) (hs : s'.shape = s.shape) : s'.Mirrors ssrcs := by
  have hslot : ∀ i, (s'.slots i).live = (s.slots i).live ∧
      (s'.slots i).ssrc = (s.slots i).ssrc := by
    intro i
    have hi := congrFun hs i
    simp only [shape, Prod.mk.injEq] at hi
    exact ⟨hi.1, hi.2.2⟩
  refine ⟨fun i j hi hj e => ?_, fun y => ?_⟩
  · rw [(hslot i).1] at hi
    rw [(hslot j).1] at hj
    rw [(hslot i).2, (hslot j).2] at e
    exact h.wellFormed i j hi hj e
  · rw [← h.pins y]
    simp only [Pins, isPinned_of_shape hs, hslot]

theorem shape_admitRtp (seq : UInt16) : (s.admitRtp i ssrc seq).2.shape = s.shape := by
  rw [admitRtp]
  split_ifs
  · have hx : ∀ x : SsrcIn, (x.admitRtp seq).2.live = x.live ∧
        (x.admitRtp seq).2.pinned = x.pinned ∧ (x.admitRtp seq).2.ssrc = x.ssrc := by
      intro x
      rw [SsrcIn.admitRtp]
      split
      · simp
      · split <;> simp
    obtain ⟨hl, hp, hs⟩ := hx (s.slots i)
    exact shape_setSlot hl hp hs
  · rfl

theorem shape_admitRtcp (index : UInt32) : (s.admitRtcp i ssrc index).2.shape = s.shape := by
  rw [admitRtcp]
  split_ifs
  · have hx : ∀ x : SsrcIn, (x.admitRtcp index).2.live = x.live ∧
        (x.admitRtcp index).2.pinned = x.pinned ∧ (x.admitRtcp index).2.ssrc = x.ssrc := by
      intro x
      rw [SsrcIn.admitRtcp]
      split <;> simp
    obtain ⟨hl, hp, hs⟩ := hx (s.slots i)
    exact shape_setSlot hl hp hs
  · rfl

theorem foldl_some {α β : Type} {P : β → Prop} {f : Option β → α → Option β}
    (hf : ∀ best a r, (∀ r, best = some r → P r) → f best a = some r → P r) (l : List α)
    (best : Option β) (hb : ∀ r, best = some r → P r) (r : β) (h : l.foldl f best = some r) :
    P r := by
  induction l generalizing best with
  | nil => exact hb r h
  | cons a l ih => exact ih (f best a) (fun r hr => hf best a r hb hr) h

theorem idlestUnpinned_some {idle : Nat} (h : s.idlestUnpinned nowS = some (i, idle)) :
    (s.slots i).pinned = false := by
  refine foldl_some (P := fun r => (s.slots r.1).pinned = false) ?_ _ none (by simp) (i, idle) h
  intro best a r hb hr
  split_ifs at hr with hskip
  · exact hb r hr
  · have ha : (s.slots a).pinned = false := by
      simp only [Bool.or_eq_true, not_or, Bool.not_eq_true] at hskip
      exact hskip.2
    split at hr
    · obtain rfl := Option.some.inj hr
      exact ha
    · simp only at hr
      split_ifs at hr
      · obtain rfl := Option.some.inj hr
        exact ha
      · exact hb r hr

theorem slotFor_some (h : s.slotFor ssrc nowS = some i) : (s.slots i).isFor ssrc = true ∨
      ((s.slots i).isPinned = false ∧ ∀ j, (s.slots j).isFor ssrc = false) := by
  rw [slotFor] at h
  split at h
  · rename_i hpos
    obtain rfl := Option.some.inj h
    exact .inl (position_some hpos)
  · rename_i hnone
    refine .inr ⟨?_, position_eq_none.1 hnone⟩
    split at h
    · rename_i hpos
      obtain rfl := Option.some.inj h
      have := position_some hpos
      simp only [Bool.not_eq_true'] at this
      simp [SsrcIn.isPinned, this]
    · split at h
      · rename_i hidle
        split_ifs at h
        obtain rfl := Option.some.inj h
        simp [SsrcIn.isPinned, idlestUnpinned_some hidle]
      · cases h

theorem Mirrors.accepted (h : s.Mirrors ssrcs) (hslot : s.slotFor ssrc nowS = some i)
    (hs : s'.shape = s.shape) (accept : SsrcIn → SsrcIn)
    (ha : ∀ x, (accept x).live = x.live ∧ (accept x).pinned = x.pinned ∧
      (accept x).ssrc = x.ssrc) :
    (s'.setSlot i
      (accept (if (s.slots i).isFor ssrc then s'.slots i else .fresh ssrc nowS))).Mirrors
      ssrcs := by
  have h' := h.of_shape hs
  obtain ⟨hl, hp, hx⟩ := ha (if (s.slots i).isFor ssrc then s'.slots i else .fresh ssrc nowS)
  rcases slotFor_some hslot with hfor | ⟨hpin, hnone⟩
  · rw [if_pos hfor] at hl hp hx ⊢
    exact h'.of_shape (shape_setSlot hl hp hx)
  · have hnot : ¬ (s.slots i).isFor ssrc = true := by simp [hnone i]
    rw [if_neg hnot] at hl hp hx ⊢
    refine h'.setSlot (fun _ => .inr fun j => ?_) (.inr ⟨?_, ?_⟩)
    · rw [hx, isFor_of_shape hs]
      exact hnone j
    · rw [SsrcIn.isPinned, hp]
      simp [SsrcIn.fresh, SsrcIn.empty]
    · rw [isPinned_of_shape hs, hpin]

theorem Mirrors.unprotectRtp (h : s.Mirrors ssrcs) (buf : Bytes) (len nowS : Nat) :
    (s.unprotectRtp buf len nowS).2.Mirrors ssrcs := by
  rw [SrtpInbound.unprotectRtp]
  split_ifs
  · exact h
  simp only
  split
  · exact h
  rename_i slot hslot
  have hshape : (s.admitRtp slot (be32 buf 8) (be16 buf 2)).2.shape = s.shape := s.shape_admitRtp _
  generalize s.admitRtp slot (be32 buf 8) (be16 buf 2) = admitted at hshape
  obtain ⟨index, s'⟩ := admitted
  cases index with
  | none => exact h.of_shape hshape
  | some index =>
    simp only
    split
    · exact h.of_shape hshape
    · exact h.accepted hslot hshape (fun x => x.acceptRtp index (be16 buf 2) nowS)
        fun x => ⟨rfl, rfl, rfl⟩

theorem Mirrors.unprotectRtcp (h : s.Mirrors ssrcs) (buf : Bytes) (len nowS : Nat) :
    (s.unprotectRtcp buf len nowS).2.Mirrors ssrcs := by
  rw [SrtpInbound.unprotectRtcp]
  split_ifs
  · exact h
  split
  · exact h
  rename_i trailer htrailer
  simp only
  split_ifs
  · exact h
  split
  · exact h
  rename_i slot hslot
  have hshape : (s.admitRtcp slot (be32 buf 4) (be32 buf trailer &&& srtcpIndexMask)).2.shape =
      s.shape :=
    s.shape_admitRtcp _
  generalize s.admitRtcp slot (be32 buf 4) (be32 buf trailer &&& srtcpIndexMask) = admitted
    at hshape
  obtain ⟨ok, s'⟩ := admitted
  cases ok with
  | false => exact h.of_shape hshape
  | true =>
    simp only
    split
    · exact h.of_shape hshape
    · exact h.accepted hslot hshape
        (fun x => x.acceptRtcp (be32 buf trailer &&& srtcpIndexMask) nowS) fun x =>
          ⟨rfl, rfl, rfl⟩

theorem Mirrors.evictIdle (h : s.Mirrors ssrcs) (nowS idleS : Nat) :
    (s.evictIdle nowS idleS).2.Mirrors ssrcs := by
  have hslot : ∀ i, ((s.evictIdle nowS idleS).2.slots i).ssrc = (s.slots i).ssrc ∧
      ((s.evictIdle nowS idleS).2.slots i).isPinned = (s.slots i).isPinned ∧
      (((s.evictIdle nowS idleS).2.slots i).live = true → (s.slots i).live = true) := by
    intro i
    simp only [SrtpInbound.evictIdle]
    split_ifs with hidle
    · simp only [Bool.and_eq_true, Bool.not_eq_true'] at hidle
      simp [SsrcIn.isPinned, hidle.1.2]
    · simp
  refine ⟨fun i j hi hj e => ?_, fun y => ?_⟩
  · rw [(hslot i).1, (hslot j).1] at e
    exact h.wellFormed i j ((hslot i).2.2 hi) ((hslot j).2.2 hj) e
  · rw [← h.pins y]
    simp only [Pins, fun i => (hslot i).1, fun i => (hslot i).2.1]

theorem oldestUnpinned_some (h : s.oldestUnpinned = some i) : (s.slots i).pinned = false := by
  refine foldl_some (P := fun r => (s.slots r).pinned = false) ?_ _ none (by simp) i h
  intro best a r hb hr
  split_ifs at hr with hskip
  · exact hb r hr
  · have ha : (s.slots a).pinned = false := by simpa using hskip
    split at hr
    · obtain rfl := Option.some.inj hr
      exact ha
    · split_ifs at hr
      · obtain rfl := Option.some.inj hr
        exact ha
      · exact hb r hr

theorem foldl_isSome {α β : Type} {f : Option β → α → Option β} {i : α}
    (hkeep : ∀ b j, (f (some b) j).isSome) (hmake : ∀ best, (f best i).isSome) (l : List α)
    {best : Option β} (h : best.isSome ∨ i ∈ l) :
    (l.foldl f best).isSome := by
  induction l generalizing best with
  | nil => exact h.resolve_right List.not_mem_nil
  | cons j l ih =>
    apply ih
    rcases h with hb | hm
    · obtain ⟨b, rfl⟩ := Option.isSome_iff_exists.1 hb
      exact .inl (hkeep b j)
    · rcases List.mem_cons.1 hm with rfl | hm
      · exact .inl (hmake best)
      · exact .inr hm

theorem exists_oldestUnpinned (h : (s.slots i).pinned = false) :
    ∃ j, s.oldestUnpinned = some j := by
  rw [← Option.isSome_iff_exists, oldestUnpinned]
  refine foldl_isSome (fun k j => ?_) (fun best => ?_) _ (.inr (List.mem_finRange i))
  · simp only
    split_ifs <;> rfl
  · simp only [h, Bool.false_eq_true, if_false]
    cases best with
    | none => rfl
    | some k =>
      simp only
      split_ifs <;> rfl

theorem slotToReplace_some (h : s.slotToReplace = some i) : (s.slots i).isPinned = false := by
  rw [slotToReplace] at h
  split at h
  · rename_i hpos
    obtain rfl := Option.some.inj h
    have := position_some hpos
    simp only [Bool.not_eq_true'] at this
    simp [SsrcIn.isPinned, this]
  · simp [SsrcIn.isPinned, oldestUnpinned_some h]

theorem exists_slotToReplace (h : (s.slots i).isPinned = false) :
    ∃ j, s.slotToReplace = some j := by
  rw [slotToReplace]
  split
  · exact ⟨_, rfl⟩
  · rename_i hnone
    have hlive : (s.slots i).live = true := by simpa using position_eq_none.1 hnone i
    exact exists_oldestUnpinned (by simpa [SsrcIn.isPinned, hlive] using h)

theorem Mirrors.pinnedCount_le (h : s.Mirrors ssrcs) : s.pinnedCount ≤ ssrcs.length := by
  have hmem : ∀ i ∈ Finset.univ.filter fun i => (s.slots i).isPinned = true,
      (s.slots i).ssrc ∈ ssrcs.toFinset := by
    intro i hi
    exact List.mem_toFinset.2 ((h.pins _).1 ⟨i, (mem_filter.1 hi).2, rfl⟩)
  have hlive : ∀ i, (s.slots i).isPinned = true → (s.slots i).live = true := by
    intro i hi
    simp only [SsrcIn.isPinned, Bool.and_eq_true] at hi
    exact hi.1
  refine (card_le_card_of_injOn _ hmem ?_).trans (List.toFinset_card_le ssrcs)
  intro i hi j hj e
  exact h.wellFormed i j (hlive i (mem_filter.1 (mem_coe.1 hi)).2)
    (hlive j (mem_filter.1 (mem_coe.1 hj)).2) e

theorem Mirrors.pinSlot (h : s.Mirrors ssrcs) (hi : (s.slots i).isPinned = false)
    (hx : x.live = true ∧ x.ssrc = ssrc)
    (hfor : (s.slots i).isFor ssrc = true ∨ ∀ j, (s.slots j).isFor ssrc = false) :
    (s.setSlot i { x with pinned := true }).Mirrors (ssrcs ++ [ssrc]) := by
  refine ⟨h.wellFormed.setSlot fun _ => ?_, fun y => ?_⟩
  · rcases hfor with hfor | hnone
    · simp only [SsrcIn.isFor, Bool.and_eq_true, beq_iff_eq] at hfor
      exact .inl ⟨hfor.1, hx.2.trans hfor.2.symm⟩
    · exact .inr fun j => by simpa [hx.2] using hnone j
  · have hpins := h.pins y
    rw [s.pins_iff_of_slot i] at hpins
    rw [pins_setSlot, List.mem_append, List.mem_singleton, ← hpins]
    simp only [SsrcIn.isPinned, hx.1, hx.2, Bool.and_self, true_and]
    simp only [SsrcIn.isPinned] at hi
    simp only [hi, Bool.false_eq_true, false_and, false_or]
    exact ⟨fun h => h.symm.imp id Eq.symm, fun h => h.symm.imp Eq.symm id⟩

theorem Mirrors.pin (h : s.Mirrors ssrcs) (hnew : ssrc ∉ ssrcs)
    (hlen : ssrcs.length < inboundPinnedMax) :
    ∃ s', s.pin ssrc = some (.ok (), s') ∧ s'.Mirrors (ssrcs ++ [ssrc]) := by
  have hcount := h.pinnedCount_le
  have hunpinned : ∀ i, (s.slots i).isFor ssrc = true → (s.slots i).pinned = false := by
    intro i hi
    simp only [SsrcIn.isFor, Bool.and_eq_true, beq_iff_eq] at hi
    by_contra hp
    exact hnew ((h.pins ssrc).1 ⟨i, by simpa [SsrcIn.isPinned, hi.1] using hp, hi.2⟩)
  -- The slot that `pin` writes, and what it writes there before the pin.
  have hslot : ∃ i x, (s.slots i).isPinned = false ∧ (x.live = true ∧ x.ssrc = ssrc) ∧
      ((s.slots i).isFor ssrc = true ∨ ∀ j, (s.slots j).isFor ssrc = false) ∧
      s.pinTarget ssrc = some (i, x) := by
    rw [pinTarget]
    cases hpos : position s.slots (SsrcIn.isFor ssrc) with
    | some i =>
      have hfor := position_some hpos
      have hp := hunpinned i hfor
      simp only [SsrcIn.isFor, Bool.and_eq_true, beq_iff_eq] at hfor
      exact ⟨i, s.slots i, by simp [SsrcIn.isPinned, hp], hfor, .inl (position_some hpos), rfl⟩
    | none =>
      have hex : ∃ i, (s.slots i).isPinned = false := by
        by_contra hall
        simp only [not_exists, Bool.not_eq_false] at hall
        have : s.pinnedCount = inboundSsrcSlots := by
          simp [pinnedCount, count, hall]
        simp only [inboundSsrcSlots, inboundPinnedMax] at this hlen
        omega
      obtain ⟨j, hj⟩ := hex
      obtain ⟨i, hi⟩ := exists_slotToReplace hj
      exact ⟨i, .fresh ssrc 0, slotToReplace_some hi, ⟨rfl, rfl⟩,
        .inr (position_eq_none.1 hpos), by simp [hi]⟩
  obtain ⟨i, x, hi, hx, hfor, hpick⟩ := hslot
  have hdone := h.pinSlot hi hx hfor
  refine ⟨_, ?_, hdone⟩
  have hany : ((position s.slots (SsrcIn.isFor ssrc)).any fun i => (s.slots i).pinned) = false := by
    cases hpos : position s.slots (SsrcIn.isFor ssrc) with
    | none => rfl
    | some j => exact hunpinned j (position_some hpos)
  have hle := hdone.pinnedCount_le
  rw [List.length_append, List.length_singleton] at hle
  simp only [SrtpInbound.pin, hany, Bool.false_eq_true, if_false, hpick]
  rw [if_neg (by omega), if_pos (by omega)]

theorem Mirrors.unpin (h : s.Mirrors ssrcs)
    (hssrcs : ∀ x, x ∈ ssrcs' ↔ x ∈ ssrcs ∧ x ≠ ssrc) :
    (s.unpin ssrc).Mirrors ssrcs' := by
  rw [SrtpInbound.unpin]
  cases hpos : position s.slots (SsrcIn.isFor ssrc) with
  | none =>
    refine ⟨h.wellFormed, fun y => ?_⟩
    rw [h.pins, hssrcs]
    refine ⟨fun hy => ⟨hy, ?_⟩, fun hy => hy.1⟩
    rintro rfl
    obtain ⟨i, hp, hs⟩ := (h.pins y).2 hy
    have hnot := position_eq_none.1 hpos i
    simp only [SsrcIn.isPinned, Bool.and_eq_true] at hp
    simp [SsrcIn.isFor, hp.1, hs] at hnot
  | some i =>
    have hi := position_some hpos
    simp only [SsrcIn.isFor, Bool.and_eq_true, beq_iff_eq] at hi
    refine ⟨h.wellFormed.setSlot fun _ => .inl ⟨hi.1, rfl⟩, fun y => ?_⟩
    rw [pins_setSlot, hssrcs, ← h.pins, s.pins_iff_of_slot i]
    simp only [SsrcIn.isPinned, Bool.and_false, Bool.false_eq_true, false_and, false_or, hi.2]
    constructor
    · rintro ⟨j, hj, hp, hs⟩
      refine ⟨.inr ⟨j, hj, hp, hs⟩, fun e => hj ?_⟩
      simp only [Bool.and_eq_true] at hp
      exact h.wellFormed j i hp.1 hi.1 (hs.trans (e.trans hi.2.symm))
    · rintro ⟨⟨-, e⟩ | ⟨j, hj, hp, hs⟩, hne⟩
      · exact absurd e.symm hne
      · exact ⟨j, hj, hp, hs⟩

theorem mirrors_fromKeys (cipher : SrtpCipher) : (fromKeys cipher).Mirrors [] :=
  ⟨fun i _ hi => by simp [fromKeys, SsrcIn.empty] at hi,
    fun y => by simp [Pins, fromKeys, SsrcIn.empty, SsrcIn.isPinned]⟩

end SrtpInbound
end NexusSfu.Srtp
