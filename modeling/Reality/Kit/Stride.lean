import Mathlib.Data.Int.CardIntervalMod
import Mathlib.Data.Nat.Count
import Mathlib.Data.Nat.ModEq
import Mathlib.Tactic.Ring

/-!
# Strides through the residues

How often `b + t * c`, for `t` from zero up, is a multiple of `d`, when `c` has
no factor in common with `d`: once in every `d` steps. With arithmetic that
wraps at `N`, and few enough steps to wrap at most once, the same holds on
either side of the wrap.
-/

namespace Kit

variable {c d : Nat}

/-- The steps that hit a multiple of `d` are one residue class. -/
theorem exists_stride_class (hc : Nat.Coprime c d) (hd : 1 < d) (b : Nat) :
    ∃ v, ∀ t, (b + t * c) % d = 0 ↔ t ≡ v [MOD d] := by
  obtain ⟨u, hu⟩ := Nat.exists_mul_mod_eq_one_of_coprime hc hd
  -- The class of `-b / c`.
  have hhit : (b + u * (d - b % d) * c) % d = 0 := by
    have hone : c * u ≡ 1 [MOD d] := hu.2.trans (Nat.mod_eq_of_lt hd).symm
    have hb : b + u * (d - b % d) * c ≡ b + 1 * (d - b % d) [MOD d] := by
      have hmul := (hone.mul_right (d - b % d)).add_left b
      rwa [show c * u * (d - b % d) = u * (d - b % d) * c by ring] at hmul
    have hle := (Nat.mod_lt b (by omega : 0 < d)).le
    have hsum : b + 1 * (d - b % d) = d * (b / d + 1) := by
      have hdiv := Nat.div_add_mod b d
      rw [Nat.mul_add]
      omega
    rw [hsum] at hb
    exact Eq.trans hb (Nat.mul_mod_right d _)
  refine ⟨u * (d - b % d), fun t => ?_⟩
  constructor
  · intro ht
    have hsame : b + t * c ≡ b + u * (d - b % d) * c [MOD d] := ht.trans hhit.symm
    exact Nat.ModEq.cancel_right_of_coprime ((Nat.coprime_comm.mp hc)) (hsame.add_left_cancel' b)
  · intro ht
    exact Eq.trans ((ht.mul_right c).add_left b) hhit

/-- **Hits of a stride**: `n` steps hit `n / d` times, or once more. -/
theorem count_stride (hc : Nat.Coprime c d) (hd : 1 < d) (b n : Nat) :
    n / d ≤ Nat.count (fun t => (b + t * c) % d = 0) n ∧
      Nat.count (fun t => (b + t * c) % d = 0) n ≤ n / d + 1 := by
  obtain ⟨v, hv⟩ := exists_stride_class hc hd b
  have hcount : Nat.count (fun t => (b + t * c) % d = 0) n = Nat.count (· ≡ v [MOD d]) n := by
    simp only [hv]
  rw [hcount, Nat.count_modEq_card n (by omega) v]
  split <;> omega

theorem count_congr_of_lt {p q : Nat → Prop} [DecidablePred p] [DecidablePred q] {n : Nat}
    (h : ∀ t < n, p t ↔ q t) : Nat.count p n = Nat.count q n := by
  rw [Nat.count_eq_card_filter_range, Nat.count_eq_card_filter_range]
  exact congrArg Finset.card
    (Finset.filter_congr fun t ht => h t (Finset.mem_range.mp ht))

/-- Where a stride from `a` wraps at `N`. -/
theorem exists_wrap (hc : 0 < c) {a N n : Nat} (ha : a < N) (hn : a + n * c < 2 * N) :
    ∃ k ≤ n, (∀ t < k, a + (t + 1) * c < N) ∧
      ∀ t, k ≤ t → t < n → N ≤ a + (t + 1) * c ∧ a + (t + 1) * c < 2 * N := by
  refine ⟨min n ((N - 1 - a) / c), Nat.min_le_left .., fun t ht => ?_, fun t hle hlt => ⟨?_, ?_⟩⟩
  · have hdiv : t + 1 ≤ (N - 1 - a) / c := by omega
    have hmul := (Nat.le_div_iff_mul_le hc).mp hdiv
    omega
  · have hdiv : ¬ t + 1 ≤ (N - 1 - a) / c := by omega
    rw [Nat.le_div_iff_mul_le hc] at hdiv
    omega
  · have hmul : (t + 1) * c ≤ n * c := Nat.mul_le_mul_right c hlt
    omega

/-- **Hits of a stride that wraps at most once**: at most two more than one in
`d`, and at least one in `2 * d - 1`. -/
theorem count_wrapped_stride (hc : Nat.Coprime c d) (hc0 : 0 < c) (hd : 1 < d) {a N n : Nat}
    (ha : a < N) (hn : a + n * c < 2 * N) :
    Nat.count (fun t => (a + (t + 1) * c) % N % d = 0) n ≤ n / d + 2 ∧
      (2 * d - 1 ≤ n → 0 < Nat.count (fun t => (a + (t + 1) * c) % N % d = 0) n) := by
  obtain ⟨k, hkn, hlow, hhigh⟩ := exists_wrap hc0 ha hn
  have hsplit : Nat.count (fun t => (a + (t + 1) * c) % N % d = 0) n
      = Nat.count (fun t => (a + c + t * c) % d = 0) k
        + Nat.count (fun t => (a + (k + 1) * c - N + t * c) % d = 0) (n - k) := by
    have hadd := Nat.count_add (fun t => (a + (t + 1) * c) % N % d = 0) k (n - k)
    rw [show k + (n - k) = n by omega] at hadd
    rw [hadd]
    congr 1
    · refine count_congr_of_lt fun t ht => ?_
      rw [Nat.mod_eq_of_lt (hlow t ht), show a + (t + 1) * c = a + c + t * c by ring]
    · refine count_congr_of_lt fun t ht => ?_
      obtain ⟨hge, hlt⟩ := hhigh (k + t) (by omega) (by omega)
      have hexp : a + (k + t + 1) * c = a + (k + 1) * c + t * c := by ring
      have hbase : N ≤ a + (k + 1) * c := by
        rcases Nat.eq_zero_or_pos (n - k) with h0 | hpos
        · omega
        · exact (hhigh k (le_refl k) (by omega)).1
      have hmod : (a + (k + t + 1) * c) % N = a + (k + t + 1) * c - N := by
        rw [Nat.mod_eq_sub_mod hge, Nat.mod_eq_of_lt (by omega)]
      rw [hmod, hexp,
        show a + (k + 1) * c + t * c - N = a + (k + 1) * c - N + t * c by omega]
  obtain ⟨hlow1, hup1⟩ := count_stride hc hd (a + c) k
  obtain ⟨hlow2, hup2⟩ := count_stride hc hd (a + (k + 1) * c - N) (n - k)
  have hdivs : k / d + (n - k) / d ≤ n / d :=
    calc k / d + (n - k) / d ≤ (k + (n - k)) / d := Nat.div_add_div_le_add_div
      _ = n / d := by rw [show k + (n - k) = n by omega]
  refine ⟨by omega, fun hlen => ?_⟩
  -- One of the two sides has `d` steps.
  rcases (by omega : d ≤ k ∨ d ≤ n - k) with hk | hk
  · have := Nat.div_pos hk (by omega)
    omega
  · have := Nat.div_pos hk (by omega)
    omega

end Kit
