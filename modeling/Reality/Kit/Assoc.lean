import Mathlib.Data.List.AList

/-!
# Sizes of association lists

How many keys a map has after an insertion or a deletion, for counters kept
beside a map.
-/

namespace Kit

variable {α β : Type} [DecidableEq α] {m : AList (fun _ : α => β)} {k : α}

/-- `len(m)` -/
def size (m : AList (fun _ : α => β)) : Nat := m.keys.length

theorem size_erase (h : k ∈ m) : size (m.erase k) + 1 = size m := by
  have hmem : k ∈ m.keys := h
  have hpos := List.length_pos_of_mem hmem
  rw [size, size, AList.keys_erase, List.length_erase_of_mem hmem]
  omega

theorem erase_of_notMem (h : k ∉ m) : m.erase k = m :=
  AList.ext (List.kerase_of_notMem_keys h)

theorem size_insert (h : k ∈ m) (v : β) : size (m.insert k v) = size m := by
  have hmem : k ∈ m.keys := h
  have hpos := List.length_pos_of_mem hmem
  rw [size, size, AList.keys_insert, List.length_cons, List.length_erase_of_mem hmem]
  omega

theorem size_insert_new (h : k ∉ m) (v : β) : size (m.insert k v) = size m + 1 := by
  have hmem : k ∉ m.keys := h
  rw [size, size, AList.keys_insert, List.length_cons, List.erase_of_not_mem hmem]

end Kit
