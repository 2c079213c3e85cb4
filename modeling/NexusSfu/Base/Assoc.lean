import Mathlib.Data.List.AList

namespace NexusSfu.Base

abbrev Assoc (κ ν : Type) := AList fun _ : κ => ν

namespace Assoc

variable {κ ν : Type} [DecidableEq κ] {m : Assoc κ ν} {k k' : κ} {v : ν}

theorem lookup_insert_ite : (m.insert k v).lookup k' = if k' = k then some v else m.lookup k' := by
  split_ifs with h
  · rw [h, AList.lookup_insert]
  · rw [AList.lookup_insert_ne h]

theorem lookup_erase_ite : (m.erase k).lookup k' = if k' = k then none else m.lookup k' := by
  split_ifs with h
  · rw [h, AList.lookup_erase]
  · rw [AList.lookup_erase_ne h]

theorem mem_iff_lookup : k ∈ m ↔ ∃ v, m.lookup k = some v := by
  rw [← AList.lookup_isSome, Option.isSome_iff_exists]

def retain (p : κ → ν → Bool) (m : Assoc κ ν) : Assoc κ ν :=
  ⟨m.entries.filter fun e => p e.1 e.2, m.nodupKeys.sublist List.filter_sublist⟩

theorem mem_entries_iff : ⟨k, v⟩ ∈ m.entries ↔ m.lookup k = some v :=
  (List.mem_dlookup_iff m.nodupKeys).symm

theorem lookup_retain {p : κ → ν → Bool} :
    (m.retain p).lookup k = some v ↔ m.lookup k = some v ∧ p k v = true := by
  rw [← mem_entries_iff, ← mem_entries_iff, retain, List.mem_filter]

end Assoc
end NexusSfu.Base
