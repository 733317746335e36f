import Mathlib.Data.List.Basic

/-!
# Feeding a consumer in chunks

A consumer takes a stream piece by piece and at some point has its result.
`feedAll_flatten` is the rule for showing that the RESULT DOES NOT DEPEND ON
THE CUTS: it is enough that two neighbouring pieces can be joined, and only
for streams that are safe in the consumer's present state.
-/

namespace Kit

variable {σ ρ α : Type}

/-- What a consumer answers to a chunk. -/
inductive Fed (σ ρ : Type) where
  | more (s : σ)
  | done (r : ρ)

/-- Feed the chunks one after the other until there is a result. -/
def feedAll (f : σ → List α → Fed σ ρ) : σ → List (List α) → Fed σ ρ
  | s, [] => .more s
  | s, c :: cs =>
      match f s c with
      | .more s' => feedAll f s' cs
      | .done r => .done r

/-- There are at most as many chunks as elements when none is empty. -/
theorem length_le_flatten {chunks : List (List α)} (h : ∀ c ∈ chunks, c ≠ []) :
    chunks.length ≤ chunks.flatten.length := by
  induction chunks with
  | nil => exact Nat.le_refl 0
  | cons c chunks ih =>
      have hc := List.length_pos_of_ne_nil (h c List.mem_cons_self)
      have hrest := ih (fun c' hc' => h c' (List.mem_cons_of_mem _ hc'))
      rw [List.length_cons, List.flatten_cons, List.length_append]
      omega

/-- Joining the chunk `q` to the chunk `p` before it changes nothing. -/
def Joins (f : σ → List α → Fed σ ρ) (safe : σ → List α → Prop) (s : σ)
    (p q : List α) : Prop :=
  match f s p with
  | .more s' => f s (p ++ q) = f s' q ∧ safe s' q
  | .done r => f s (p ++ q) = .done r

theorem Joins.more {f : σ → List α → Fed σ ρ} {safe : σ → List α → Prop} {s s' : σ}
    {p q : List α} (h : Joins f safe s p q) (hs : f s p = .more s') :
    f s (p ++ q) = f s' q ∧ safe s' q := by
  rw [Joins, hs] at h
  exact h

theorem Joins.done {f : σ → List α → Fed σ ρ} {safe : σ → List α → Prop} {s : σ} {r : ρ}
    {p q : List α} (h : Joins f safe s p q) (hs : f s p = .done r) :
    f s (p ++ q) = .done r := by
  rw [Joins, hs] at h
  exact h

/-- **Cuts do not matter** for a stream that is safe to join. -/
theorem feedAll_flatten {f : σ → List α → Fed σ ρ} {safe : σ → List α → Prop}
    (hjoin : ∀ s p q, p ≠ [] → q ≠ [] → safe s (p ++ q) → Joins f safe s p q)
    {chunks : List (List α)} (hne : ∀ c ∈ chunks, c ≠ []) (hnil : chunks ≠ []) {s : σ}
    (hs : safe s chunks.flatten) : feedAll f s chunks = f s chunks.flatten := by
  induction chunks generalizing s with
  | nil => exact absurd rfl hnil
  | cons p rest ih =>
      rw [List.flatten_cons] at hs ⊢
      by_cases hrest : rest = []
      · subst hrest
        rw [List.flatten_nil, List.append_nil, feedAll]
        cases f s p <;> rfl
      · have hq : rest.flatten ≠ [] := by
          obtain ⟨c, cs, rfl⟩ := List.exists_cons_of_ne_nil hrest
          have hc : c ≠ [] := hne c (by simp)
          simp [hc]
        have hj := hjoin s p rest.flatten (hne p (by simp)) hq hs
        rw [feedAll]
        cases hf : f s p with
        | more s' =>
            obtain ⟨heq, hs'⟩ := hj.more hf
            dsimp only
            rw [heq]
            exact ih (fun c hc => hne c (by simp [hc])) hrest hs'
        | done r => exact (hj.done hf).symm

end Kit
