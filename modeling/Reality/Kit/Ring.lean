import Mathlib.Data.Nat.ModEq
import Mathlib.Data.List.OfFn
import Mathlib.Logic.Function.Basic

/-!
# A ring of the last samples

`N` cells, a write index that only grows and is taken modulo `N`, and a count of
the cells in use. The cells in use, read in the order in which they are stored,
are the last `N` samples in SOME order.
-/

namespace Kit

variable {α : Type} {N : Nat} {cells : Fin N → α} {n idx : Nat} {samples : List α}

/-- The ring after `samples`: sample `i` is in cell `i % N` until it is overwritten. -/
structure RingOf (samples : List α) (cells : Fin N → α) (n idx : Nat) : Prop where
  written : idx = samples.length
  used : n = min N samples.length
  cell : ∀ i (h : i < samples.length), samples.length ≤ i + N →
    ∀ c : Fin N, c.val = i % N → cells c = samples.get ⟨i, h⟩

theorem ringOf_nil (cells : Fin N → α) : RingOf [] cells 0 0 :=
  ⟨rfl, (Nat.min_zero N).symm, fun _ h => absurd h (Nat.not_lt_zero _)⟩

variable [NeZero N]

theorem ofNat_ne_of_lt {i len : Nat} (h : i < len) (hlast : len < i + N) :
    Fin.ofNat N i ≠ Fin.ofNat N len := by
  intro heq
  have hmod : i % N = len % N := Fin.val_eq_of_eq heq
  have hdvd : N ∣ len - i := (Nat.modEq_iff_dvd' h.le).mp hmod
  have := Nat.le_of_dvd (by omega) hdvd
  omega

theorem RingOf.push (h : RingOf samples cells n idx) (x : α) :
    RingOf (samples ++ [x]) (Function.update cells (Fin.ofNat N idx) x)
      (if n < N then n + 1 else n) (idx + 1) := by
  obtain ⟨rfl, rfl, hcell⟩ := h
  refine ⟨by simp, ?_, ?_⟩
  · rw [List.length_append, List.length_singleton]
    split <;> omega
  · intro i hi hlast c hc
    rw [List.length_append, List.length_singleton] at hi hlast
    have hci : c = Fin.ofNat N i := Fin.ext hc
    by_cases hnew : i = samples.length
    · subst hnew
      rw [hci, Function.update_self]
      simp
    · have hold : i < samples.length := by omega
      have hne : c ≠ Fin.ofNat N samples.length := by
        rw [hci]
        exact ofNat_ne_of_lt hold (by omega)
      rw [Function.update_of_ne hne, hcell i hold (by omega) c hc]
      simp [List.getElem_append_left hold]

/-- The last sample that was written to cell `j`. -/
theorem exists_last_index {j len : Nat} (hj : j < N) (hlen : j < len) :
    ∃ i < len, len ≤ i + N ∧ i % N = j := by
  have hdiv := Nat.div_add_mod (len - 1 - j) N
  have hrest := Nat.mod_lt (len - 1 - j) (Nat.pos_of_neZero N)
  refine ⟨j + N * ((len - 1 - j) / N), by omega, by omega, ?_⟩
  rw [Nat.add_mul_mod_self_left, Nat.mod_eq_of_lt hj]

/-- **The cells in use hold the last samples**, and nothing else. -/
theorem RingOf.mem_iff (h : RingOf samples cells n idx) (x : α) :
    x ∈ (List.ofFn cells).take n ↔ x ∈ samples.drop (samples.length - N) := by
  obtain ⟨rfl, rfl, hcell⟩ := h
  have hused : ∀ i < samples.length, i % N < min N samples.length := by
    intro i hi
    have hlt := Nat.mod_lt i (Nat.pos_of_neZero N)
    have hle := Nat.mod_le i N
    omega
  constructor
  · intro hx
    obtain ⟨j, hj, rfl⟩ := List.mem_take_iff_getElem.mp hx
    rw [List.length_ofFn] at hj
    have hcells : j < N := by omega
    obtain ⟨i, hi, hlast, hmod⟩ := exists_last_index hcells (by omega : j < samples.length)
    have hvalue := hcell i hi hlast ⟨j, hcells⟩ hmod.symm
    rw [List.mem_drop_iff_getElem]
    refine ⟨i - (samples.length - N), by omega, ?_⟩
    have hindex : samples.length - N + (i - (samples.length - N)) = i := by omega
    simp only [hindex, List.getElem_ofFn, hvalue, List.get_eq_getElem]
  · intro hx
    obtain ⟨d, hd, rfl⟩ := List.mem_drop_iff_getElem.mp hx
    have hi : samples.length - N + d < samples.length := by omega
    have hvalue := hcell _ hi (by omega) ⟨_, Nat.mod_lt _ (Nat.pos_of_neZero N)⟩ rfl
    rw [List.mem_take_iff_getElem]
    refine ⟨(samples.length - N + d) % N, ?_, ?_⟩
    · have := hused _ hi
      rw [List.length_ofFn]
      omega
    · rw [List.getElem_ofFn]
      exact hvalue

end Kit
