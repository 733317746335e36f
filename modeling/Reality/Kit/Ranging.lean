import Mathlib.Data.List.Dedup
import Reality.Kit.Assoc

/-!
# Ranging over a map

Go visits the keys of a map in SOME order (`visits`): the ones a list puts first,
and then the rest, so that every permutation arises.

`for k, v := range m { if p(k, v) { delete(m, k) } }` over an association list:
every entry is visited once, and those that satisfy `p` go. The number of
deletions comes along, for counters kept beside the map. A loop that rewrites
the values leaves the keys (`mapValues`).
-/

namespace Kit

variable {α β : Type} [DecidableEq α]

/-- The order in which a loop visits `keys` when `order` comes first. -/
def visits (keys order : List α) : List α :=
  order.dedup.filter (· ∈ keys) ++ keys.filter (· ∉ order)

theorem mem_visits {keys order : List α} {k : α} : k ∈ visits keys order ↔ k ∈ keys := by
  rw [visits, List.mem_append, List.mem_filter, List.mem_filter, List.mem_dedup]
  by_cases ho : k ∈ order <;> simp [ho]

theorem nodup_visits {keys : List α} (h : keys.Nodup) (order : List α) :
    (visits keys order).Nodup := by
  refine List.Nodup.append ((List.nodup_dedup order).filter _) (h.filter _) ?_
  intro k hk hk'
  have hin : k ∈ order := List.mem_dedup.mp (List.mem_of_mem_filter hk)
  have hout : k ∉ order := by simpa using (List.mem_filter.mp hk').2
  exact hout hin

/-- A key of the map that comes first makes the loop start with such a key. -/
theorem visits_eq_cons {keys order : List α} {k : α} (ho : k ∈ order) (hk : k ∈ keys) :
    ∃ k' rest, visits keys order = k' :: rest ∧ k' ∈ order := by
  have hmem : k ∈ order.dedup.filter (· ∈ keys) :=
    List.mem_filter.mpr ⟨List.mem_dedup.mpr ho, decide_eq_true hk⟩
  obtain ⟨k', rest, heq⟩ := List.exists_cons_of_ne_nil (List.ne_nil_of_mem hmem)
  have hfirst : k' ∈ order.dedup.filter (· ∈ keys) := by
    rw [heq]
    exact List.mem_cons_self
  refine ⟨k', rest ++ keys.filter (· ∉ order), ?_, ?_⟩
  · rw [visits, heq, List.cons_append]
  · exact List.mem_dedup.mp (List.mem_of_mem_filter hfirst)

theorem visits_singleton {keys : List α} {k : α} (h : k ∈ keys) :
    visits keys [k] = k :: keys.filter (· ∉ [k]) := by
  rw [visits, List.dedup_eq_self.mpr (List.nodup_singleton k)]
  simp [h]

/-- The map without the entries that satisfy `p`, and how many went. -/
def deleteWhere (p : α → β → Bool) (m : AList (fun _ : α => β)) :
    AList (fun _ : α => β) × Nat :=
  m.entries.foldl (fun acc kv => if p kv.1 kv.2 then (acc.1.erase kv.1, acc.2 + 1) else acc)
    (m, 0)

/-- What the visits of a list of entries leave of the value at `k`. -/
theorem lookup_foldl_delete (p : α → β → Bool) (k : α) (l : List (Sigma fun _ : α => β))
    (acc : AList (fun _ : α => β) × Nat) :
    (l.foldl (fun acc kv => if p kv.1 kv.2 then (acc.1.erase kv.1, acc.2 + 1) else acc)
        acc).1.lookup k
      = if l.any (fun kv => decide (kv.1 = k) && p kv.1 kv.2) then none
        else acc.1.lookup k := by
  induction l generalizing acc with
  | nil => rfl
  | cons kv l ih =>
      rw [List.foldl_cons, ih, List.any_cons]
      by_cases hl : l.any (fun kv => decide (kv.1 = k) && p kv.1 kv.2) = true
      · rw [if_pos hl, if_pos (by rw [hl, Bool.or_true])]
      · rw [if_neg hl, Bool.eq_false_iff.mpr hl, Bool.or_false]
        -- Only the visit of `k` itself can take its value away.
        by_cases hp : p kv.1 kv.2 = true
        · rw [if_pos hp, hp, Bool.and_true]
          by_cases hk : kv.1 = k
          · subst hk
            rw [if_pos (by simp)]
            exact AList.lookup_erase kv.1 acc.1
          · rw [if_neg (by simpa using hk)]
            exact AList.lookup_erase_ne (fun h => hk h.symm)
        · rw [if_neg hp, Bool.eq_false_iff.mpr hp, Bool.and_false, if_neg (by simp)]

/-- **The values that stay are those that do not satisfy `p`.** -/
theorem lookup_deleteWhere (p : α → β → Bool) (m : AList (fun _ : α => β)) (k : α) :
    (deleteWhere p m).1.lookup k = (m.lookup k).filter (fun v => !p k v) := by
  have hany : m.entries.any (fun kv => decide (kv.1 = k) && p kv.1 kv.2)
      = (m.lookup k).any (p k) := by
    rw [Bool.eq_iff_iff, List.any_eq_true, Option.any_eq_true]
    constructor
    · rintro ⟨⟨k', v⟩, hmem, hp⟩
      simp only [Bool.and_eq_true, decide_eq_true_eq] at hp
      obtain ⟨rfl, hp⟩ := hp
      exact ⟨v, AList.mem_lookup_iff.mpr hmem, hp⟩
    · rintro ⟨v, hv, hp⟩
      exact ⟨⟨k, v⟩, AList.mem_lookup_iff.mp hv, by simpa using hp⟩
  rw [deleteWhere, lookup_foldl_delete, hany]
  cases m.lookup k with
  | none => rfl
  | some v =>
      show (if p k v = true then none else some v) = Option.filter (fun v => !p k v) (some v)
      rw [Option.filter_some]
      cases p k v <;> rfl

/-- Visits of entries that are all there: what goes from the map comes to the
number. -/
theorem size_foldl_delete (p : α → β → Bool) {l : List (Sigma fun _ : α => β)}
    {acc : AList (fun _ : α => β) × Nat} (hnodup : l.NodupKeys) (hin : ∀ kv ∈ l, kv.1 ∈ acc.1) :
    size (l.foldl (fun acc kv => if p kv.1 kv.2 then (acc.1.erase kv.1, acc.2 + 1) else acc)
          acc).1
        + (l.foldl (fun acc kv => if p kv.1 kv.2 then (acc.1.erase kv.1, acc.2 + 1) else acc)
          acc).2
      = size acc.1 + acc.2 := by
  induction l generalizing acc with
  | nil => rfl
  | cons kv l ih =>
      obtain ⟨hnew, hnodup⟩ := List.nodupKeys_cons.mp hnodup
      rw [List.foldl_cons]
      split
      · rw [ih hnodup fun kv' hkv' => ?_]
        · have hsize := size_erase (hin kv List.mem_cons_self)
          show size (acc.1.erase kv.1) + (acc.2 + 1) = _
          omega
        · refine AList.mem_erase.mpr ⟨fun he => hnew ?_, hin kv' (List.mem_cons_of_mem kv hkv')⟩
          rw [← he]
          exact List.mem_keys_of_mem hkv'
      · exact ih hnodup fun kv' hkv' => hin kv' (List.mem_cons_of_mem kv hkv')

theorem size_deleteWhere (p : α → β → Bool) (m : AList (fun _ : α => β)) :
    size (deleteWhere p m).1 + (deleteWhere p m).2 = size m := by
  have hall : ∀ kv ∈ m.entries, kv.1 ∈ m := fun kv hkv => List.mem_keys_of_mem hkv
  exact size_foldl_delete p m.nodupKeys hall

/-! `for k, v := range m { m[k] = g(v) }` -/

omit [DecidableEq α] in
theorem keys_map_values {γ : Type} (g : β → γ) (l : List (Sigma fun _ : α => β)) :
    (l.map fun kv => (⟨kv.1, g kv.2⟩ : Sigma fun _ : α => γ)).keys = l.keys := by
  simp only [List.keys, List.map_map]
  rfl

omit [DecidableEq α] in
theorem nodupKeys_map_values {γ : Type} (g : β → γ) (m : AList (fun _ : α => β)) :
    (m.entries.map fun kv => (⟨kv.1, g kv.2⟩ : Sigma fun _ : α => γ)).NodupKeys := by
  rw [List.NodupKeys, keys_map_values]
  exact m.nodupKeys

/-- The map with `g` applied to every value. -/
def mapValues {γ : Type} (g : β → γ) (m : AList (fun _ : α => β)) : AList (fun _ : α => γ) :=
  ⟨m.entries.map fun kv => ⟨kv.1, g kv.2⟩, nodupKeys_map_values g m⟩

omit [DecidableEq α] in
theorem keys_mapValues {γ : Type} (g : β → γ) (m : AList (fun _ : α => β)) :
    (mapValues g m).keys = m.keys := keys_map_values g m.entries

theorem dlookup_map_values {γ : Type} (g : β → γ) (l : List (Sigma fun _ : α => β)) (k : α) :
    (l.map fun kv => (⟨kv.1, g kv.2⟩ : Sigma fun _ : α => γ)).dlookup k
      = Option.map (β := γ) g (l.dlookup k) := by
  induction l with
  | nil => rfl
  | cons kv l ih =>
      obtain ⟨k', v⟩ := kv
      rw [List.map_cons]
      by_cases hk : k = k'
      · subst hk
        rw [List.dlookup_cons_eq, List.dlookup_cons_eq]
        rfl
      · rw [List.dlookup_cons_ne _ _ hk, List.dlookup_cons_ne _ _ hk, ih]

theorem lookup_mapValues {γ : Type} (g : β → γ) (m : AList (fun _ : α => β)) (k : α) :
    (mapValues g m).lookup k = (m.lookup k).map g := dlookup_map_values g m.entries k

end Kit
