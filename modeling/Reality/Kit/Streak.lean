import Mathlib.Data.List.Infix

/-!
# Streaks

How many times in a row something comes at the end of a list. Counters that are
meant to count in a row are compared with this.
-/

namespace Kit

variable {α : Type} [DecidableEq α]

/-- How many times in a row `x` comes at the end of `l`. -/
def streak (x : α) (l : List α) : Nat := (l.reverse.takeWhile (· = x)).length

theorem streak_concat (x y : α) (l : List α) :
    streak x (l ++ [y]) = if y = x then streak x l + 1 else 0 := by
  rw [streak, List.reverse_append]
  by_cases h : y = x
  · simp [h, streak]
  · simp [h]

/-- A streak of `n` is `n` copies at the end. -/
theorem replicate_suffix_of_le_streak {x : α} {l : List α} {n : Nat} (h : n ≤ streak x l) :
    List.replicate n x <:+ l := by
  induction l using List.reverseRecOn generalizing n with
  | nil =>
      have hn : n = 0 := Nat.le_zero.mp h
      subst hn
      exact List.nil_suffix
  | append_singleton l y ih =>
      cases n with
      | zero => exact List.nil_suffix
      | succ n =>
          rw [streak_concat] at h
          split at h
          next hy =>
            obtain ⟨l', rfl⟩ := ih (Nat.le_of_succ_le_succ h)
            refine ⟨l', ?_⟩
            rw [hy, List.replicate_succ', List.append_assoc]
          · exact absurd h (Nat.not_succ_le_zero n)

end Kit
