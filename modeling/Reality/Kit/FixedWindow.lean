import Mathlib.Data.Int.Order.Basic
import Mathlib.Tactic.SplitIfs

/-!
# Limits by fixed windows

A limiter that counts calls from the first one on and starts over with the
first call that comes more than a window later. It promises `limit` calls for
each window of ITS OWN. In an interval that somebody else chooses two of these
windows can meet, and never three: their beginnings are more than a window
apart.
-/

namespace Kit

/-- How many calls there were, and when the first of them came. -/
structure FixedWindow where
  count : Nat
  first : Int
  deriving DecidableEq

namespace FixedWindow

/-- One call at `now`: the window it leaves, and whether it is refused. -/
def call (width : Int) (limit : Nat) (w : Option FixedWindow) (now : Int) : FixedWindow × Bool :=
  match w with
  | none => (⟨1, now⟩, false)
  | some w =>
      if now - w.first > width then (⟨1, now⟩, false)
      else (⟨w.count + 1, w.first⟩, w.count + 1 > limit)

/-- How many calls of the interval from `a` to `a + width` a limiter that is now
at `w` can have admitted: of one window, if that began before the interval, and
else of one more. -/
def allowance (width : Int) (limit : Nat) (a : Int) : Option FixedWindow → Nat
  | none => 0
  | some w =>
      if w.first < a then min w.count limit
      else if w.first ≤ a + width then limit + min w.count limit
      else 2 * limit

variable {width a now : Int} {limit n : Nat} {w : Option FixedWindow}

theorem allowance_le (width : Int) (limit : Nat) (a : Int) (w : Option FixedWindow) :
    allowance width limit a w ≤ 2 * limit := by
  cases w with
  | none => exact Nat.zero_le _
  | some w =>
      simp only [allowance]
      split_ifs <;> omega

/-- A window that begins at `now`. -/
theorem allowance_fresh (hlimit : 1 ≤ limit) (hearly : now < a → n = 0)
    (hone : now ≤ a + width → n ≤ limit) (hn : n ≤ 2 * limit) :
    n + (if a ≤ now ∧ now ≤ a + width then 1 else 0)
      ≤ allowance width limit a (some ⟨1, now⟩) := by
  simp only [allowance]
  by_cases hbefore : now < a
  · have hzero := hearly hbefore
    rw [if_neg (fun h => by omega), if_pos hbefore]
    omega
  · rw [if_neg hbefore]
    by_cases hafter : now ≤ a + width
    · have hle := hone hafter
      rw [if_pos ⟨by omega, hafter⟩, if_pos hafter]
      omega
    · rw [if_neg (fun h => hafter h.2), if_neg hafter]
      exact hn

/-- **One call keeps to the allowance**, when the clock does not go back. -/
theorem call_allowance (hlimit : 1 ≤ limit) (hn : n ≤ allowance width limit a w)
    (hearly : now < a → n = 0) (hfirst : ∀ w', w = some w' → w'.first ≤ now) :
    n + (if (call width limit w now).2 = false ∧ a ≤ now ∧ now ≤ a + width then 1 else 0)
      ≤ allowance width limit a (some (call width limit w now).1) := by
  have htwo : n ≤ 2 * limit := Nat.le_trans hn (allowance_le width limit a w)
  cases w with
  | none =>
      have hzero : n = 0 := Nat.le_zero.mp hn
      simpa only [call, true_and] using
        allowance_fresh hlimit hearly (fun _ => by omega) htwo
  | some w =>
      by_cases hover : now - w.first > width
      · -- The window that ends began before the interval, unless the interval is over.
        have hone : now ≤ a + width → n ≤ limit := by
          intro hin
          simp only [allowance] at hn
          rw [if_pos (by omega)] at hn
          omega
        simp only [call, if_pos hover, true_and]
        exact allowance_fresh hlimit hearly hone htwo
      · have hle := hfirst w rfl
        simp only [call, if_neg hover, allowance, decide_eq_false_iff_not, gt_iff_lt] at hn ⊢
        split_ifs at hn ⊢ <;> omega

end FixedWindow

end Kit
