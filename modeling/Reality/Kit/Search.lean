import Mathlib.Data.List.Basic

/-!
# Searching for a run of elements

The first place at which one list occurs in another, found by trying every
place from the left.
-/

namespace Kit

variable {α : Type} {s sub : List α} {i : Nat}

def firstMatch [DecidableEq α] (s sub : List α) : Option Nat :=
  (List.range (s.length + 1 - sub.length)).find? fun i => (s.drop i).take sub.length = sub

/-- A place where it occurs, with none before it, is the one that is found. -/
theorem firstMatch_eq_some [DecidableEq α] (hi : (s.drop i).take sub.length = sub)
    (hmin : ∀ j < i, (s.drop j).take sub.length ≠ sub) (hle : i + sub.length ≤ s.length) :
    firstMatch s sub = some i := by
  rw [firstMatch, List.find?_range_eq_some]
  refine ⟨decide_eq_true hi, List.mem_range.mpr (by omega), fun j hj => ?_⟩
  rw [decide_eq_false (hmin j hj)]
  rfl

/-- A run of one element occurs nowhere that starts with another. -/
theorem take_ne_replicate_of_ne {a b : α} (h : a ≠ b) (l : List α) (n : Nat) :
    (a :: l).take (n + 1) ≠ List.replicate (n + 1) b := by
  intro heq
  rw [List.take_succ_cons, List.replicate_succ] at heq
  exact h (List.cons.inj heq).1

theorem take_replicate_append {b : α} {n m : Nat} (h : n ≤ m) (l : List α) :
    (List.replicate m b ++ l).take n = List.replicate n b := by
  rw [List.take_append_of_le_length (by rw [List.length_replicate]; exact h), List.take_replicate,
    Nat.min_eq_left h]

end Kit
