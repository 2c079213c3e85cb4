import NexusSfu.Base.Packing
import NexusSfu.Orchestrator.Dtls

namespace NexusSfu.Orchestrator

open Base List

def IsRecord (r : Bytes) : Prop :=
  recordHeaderLen ≤ r.length ∧ r.length = recordHeaderLen + (be16 r 11).toNat

variable {r r' rest : Bytes} {rs : List Bytes} {n : Nat} {ds : List Bytes} {gs : List (List Bytes)}

theorem total_length (g : List Bytes) : total List.length g = g.flatten.length := by
  rw [total, length_flatten]

theorem IsRecord.length_eq (h : IsRecord r) (hpre : r <+: rest) :
    r.length = recordHeaderLen + (be16 rest 11).toNat := by
  obtain ⟨t, rfl⟩ := hpre
  have hle : 13 ≤ r.length := h.1
  rw [be16, slice_append_left (by omega), ← be16]
  exact h.2

theorem IsRecord.eq_of_prefix (h : IsRecord r) (h' : IsRecord r') (hpre : r <+: rest)
    (hpre' : r' <+: rest) : r = r' :=
  List.IsPrefix.eq_of_length_le (prefix_of_prefix_length_le hpre hpre'
    (by rw [h.length_eq hpre, h'.length_eq hpre'])) (by rw [h.length_eq hpre, h'.length_eq hpre'])

theorem appendRecord_map (gs : List (List Bytes)) (r : Bytes) :
    appendRecord (gs.map List.flatten) r = (put List.length dtlsMtu gs r).map List.flatten := by
  induction gs using List.reverseRecOn with
  | nil => simp [appendRecord, put_nil]
  | append_singleton gs g _ =>
    rw [put_concat, total_length]
    simp only [appendRecord, map_append, map_cons, map_nil, getLast?_concat,
      dropLast_concat]
    split_ifs <;> simp

theorem splitFrom_flatten (gs : List (List Bytes)) (hrs : ∀ r ∈ rs, IsRecord r)
    (hn : rs.flatten.length ≤ n) :
    splitFrom n rs.flatten (gs.map List.flatten) =
      .ok ((rs.foldl (put List.length dtlsMtu) gs).map List.flatten) := by
  induction rs generalizing n gs with
  | nil =>
    cases n with
    | zero => rfl
    | succ n => rfl
  | cons r rs ih =>
    have hr := hrs r mem_cons_self
    have hlen := hr.length_eq (prefix_append r rs.flatten)
    have hheader : 13 ≤ r.length := hr.1
    rw [flatten_cons, length_append] at hn
    obtain ⟨n, rfl⟩ := Nat.exists_eq_succ_of_ne_zero (show n ≠ 0 by omega)
    have hne : (r ++ rs.flatten).isEmpty = false := by
      rw [isEmpty_eq_false_iff]
      exact append_ne_nil_of_left_ne_nil (ne_nil_of_length_pos (by omega)) _
    have hmin : ¬ (r ++ rs.flatten).length < recordHeaderLen := by
      rw [length_append]
      exact not_lt.2 (hr.1.trans (Nat.le_add_right ..))
    rw [splitFrom, flatten_cons, hne, if_neg Bool.false_ne_true, if_neg hmin, ← hlen]
    dsimp only
    rw [if_neg (by rw [length_append]; omega), drop_left, take_left,
      appendRecord_map]
    exact ih _ (fun x hx => hrs x (mem_cons_of_mem r hx)) (by omega)

theorem splitFrom_ok {input : Bytes} {ds ds' : List Bytes} (hn : input.length ≤ n)
    (h : splitFrom n input ds = .ok ds') :
    ∃ rs : List Bytes, (∀ r ∈ rs, IsRecord r) ∧ rs.flatten = input := by
  induction n generalizing input ds with
  | zero => exact ⟨[], nofun, (eq_nil_of_length_eq_zero (Nat.le_zero.1 hn)).symm⟩
  | succ n ih =>
    rw [splitFrom] at h
    by_cases hempty : input.isEmpty = true
    · exact ⟨[], nofun, (isEmpty_iff.1 hempty).symm⟩
    rw [if_neg hempty] at h
    by_cases hmin : input.length < recordHeaderLen
    · rw [if_pos hmin] at h
      cases h
    rw [if_neg hmin] at h
    dsimp only at h
    by_cases hlen : input.length < recordHeaderLen + (be16 input 11).toNat
    · rw [if_pos hlen] at h
      cases h
    rw [if_neg hlen] at h
    have hheader : 13 ≤ input.length := not_lt.1 hmin
    have htake : (input.take (recordHeaderLen + (be16 input 11).toNat)).length =
        recordHeaderLen + (be16 input 11).toNat := by
      rw [length_take]
      omega
    have hdrop : (input.drop (recordHeaderLen + (be16 input 11).toNat)).length ≤ n := by
      rw [length_drop]
      change _ - (13 + _) ≤ n
      omega
    obtain ⟨rs, hrs, hflat⟩ := ih hdrop h
    refine ⟨input.take (recordHeaderLen + (be16 input 11).toNat) :: rs, fun r hr => ?_, ?_⟩
    · rcases mem_cons.1 hr with rfl | hr
      · refine ⟨(Nat.le_add_right ..).trans_eq htake.symm, ?_⟩
        rw [htake, be16, be16, slice_take (by change 11 + 2 ≤ 13 + _; omega)]
      · exact hrs r hr
    · rw [flatten_cons, hflat, take_append_drop]

structure Datagrams (ds : List Bytes) : Prop where
  whole : ∀ d ∈ ds, ∃ rs : List Bytes, rs ≠ [] ∧ (∀ r ∈ rs, IsRecord r) ∧
    d = rs.flatten ∧ (d.length ≤ dtlsMtu ∨ rs = [d] ∧ dtlsMtu < d.length)
  tight : ds.IsChain fun d d' => ∀ r, IsRecord r → r <+: d' → dtlsMtu < d.length + r.length

theorem datagrams_pack (hrs : ∀ r ∈ rs, IsRecord r) :
    Datagrams ((pack List.length dtlsMtu rs).map List.flatten) := by
  have hpacked := @packed_pack _ List.length dtlsMtu rs
  have hrecords : ∀ g ∈ pack List.length dtlsMtu rs, ∀ r ∈ g, IsRecord r := by
    intro g hg r hr
    refine hrs r ?_
    rw [← @flatten_pack _ List.length dtlsMtu rs]
    exact mem_flatten.2 ⟨g, hg, hr⟩
  refine ⟨fun d hd => ?_, ?_⟩
  · obtain ⟨g, hg, rfl⟩ := mem_map.1 hd
    refine ⟨g, hpacked.ne_nil g hg, hrecords g hg, rfl, ?_⟩
    rcases Nat.lt_or_ge dtlsMtu g.flatten.length with hlarge | hfits
    · rcases hpacked.fits g hg with hfits | ⟨r, rfl⟩
      · exact absurd hlarge (not_lt.2 (total_length g ▸ hfits))
      · rw [flatten_singleton] at hlarge ⊢
        exact .inr ⟨rfl, hlarge⟩
    · exact .inl hfits
  · rw [isChain_map]
    refine hpacked.tight.imp_of_mem_imp fun g g' _ hg' htight r hr hpre => ?_
    obtain ⟨r', g', rfl⟩ := exists_cons_of_ne_nil (hpacked.ne_nil g' hg')
    -- the record that starts the later datagram is the one packed first into it
    have hr' : r = r' := hr.eq_of_prefix (hrecords _ hg' r' mem_cons_self) hpre
      (prefix_append r' g'.flatten)
    rw [← total_length]
    exact htight r (Option.mem_some_iff.2 hr'.symm)

theorem splitRecords_spec (input : Bytes) : ((∃ ds, splitRecords input = .ok ds) ↔
      ∃ rs : List Bytes, (∀ r ∈ rs, IsRecord r) ∧ rs.flatten = input) ∧
    ∀ ds, splitRecords input = .ok ds → ds.flatten = input ∧ Datagrams ds := by
  have hpack : ∀ rs : List Bytes, (∀ r ∈ rs, IsRecord r) → rs.flatten = input →
      splitRecords input = .ok ((pack List.length dtlsMtu rs).map List.flatten) := by
    rintro rs hrs rfl
    exact splitFrom_flatten [] hrs le_rfl
  refine ⟨⟨fun ⟨ds, h⟩ => splitFrom_ok le_rfl h,
    fun ⟨rs, hrs, hflat⟩ => ⟨_, hpack rs hrs hflat⟩⟩, fun ds h => ?_⟩
  obtain ⟨rs, hrs, hflat⟩ := splitFrom_ok le_rfl h
  rw [hpack rs hrs hflat] at h
  cases h
  refine ⟨?_, datagrams_pack hrs⟩
  rw [← flatten_flatten, flatten_pack, hflat]

end NexusSfu.Orchestrator
