import Mathlib.Algebra.BigOperators.Group.Finset.Piecewise
import Mathlib.Algebra.BigOperators.Ring.Finset
import Mathlib.Algebra.Order.BigOperators.Group.Finset
import Mathlib.Data.Fintype.BigOperators
import Mathlib.Data.Fintype.Card
import Mathlib.Tactic.Abel
import Reality.Kit.Run

/-!
# Threads over a shared state

Finitely many threads, each with a program counter of its own, take turns on
one shared state. A step of thread `i` reads and writes the shared state and
the counter of `i`, and NOTHING else; the schedule is the sequence of labels.

Two patterns of argument are stated once. A quantity of the shared state and
the weights of all counters BALANCE (`balance_step`): what one thread has done
to the shared state and not yet accounted for is a weight of its counter. And
locks name their OWNER (`Owned`), so that two parties which hold one lock are
the same. What a thread does by itself (`Solo`) ties its program to a
description of the whole call.
-/

namespace Kit

structure Threads (ι σ π : Type) where
  shared : σ
  pc : ι → π

namespace Threads

variable {ι σ π α β M : Type}

/-- Thread `i` takes a step of the program `P` with argument `a`. -/
def step [DecidableEq ι] (P : ι → σ → π → α → Option (σ × π × β)) (s : Threads ι σ π) (i : ι)
    (a : α) : Option (Threads ι σ π × β) :=
  (P i s.shared (s.pc i) a).map fun r => (⟨r.1, Function.update s.pc i r.2.1⟩, r.2.2)

theorem step_eq_some [DecidableEq ι] {P : ι → σ → π → α → Option (σ × π × β)}
    {s s' : Threads ι σ π} {i : ι} {a : α} {b : β} (h : s.step P i a = some (s', b)) :
    ∃ p', P i s.shared (s.pc i) a = some (s'.shared, p', b) ∧
      s'.pc = Function.update s.pc i p' := by
  obtain ⟨⟨sh, p', b'⟩, hr, heq⟩ := Option.map_eq_some_iff.mp h
  cases heq
  exact ⟨p', hr, rfl⟩

/-- What holds of every counter still does, if it does of the one that moved. -/
theorem forall_pc [DecidableEq ι] {Q : π → Prop} {pc pc' : ι → π} {i : ι} {p : π}
    (hpc : pc' = Function.update pc i p) (hmine : Q p) (hothers : ∀ j, j ≠ i → Q (pc j)) (j : ι) :
    Q (pc' j) := by
  rw [hpc]
  exact (Function.forall_update_iff pc (p := fun _ q => Q q)).mpr ⟨hmine, hothers⟩ j

/-! ## One thread by itself -/

/-- Thread `i` takes its steps one after the other, and nobody else does. -/
inductive Solo (P : ι → σ → π → α → Option (σ × π × β)) (i : ι) :
    σ → π → List (α × β) → σ → π → Prop where
  | refl {sh : σ} {p : π} : Solo P i sh p [] sh p
  | step {sh sh₁ sh' : σ} {p p₁ p' : π} {a : α} {b : β} {tr : List (α × β)}
      (h : P i sh p a = some (sh₁, p₁, b)) (hrest : Solo P i sh₁ p₁ tr sh' p') :
      Solo P i sh p ((a, b) :: tr) sh' p'

section Solo

variable {P : ι → σ → π → α → Option (σ × π × β)} {i : ι} {sh sh' sh'' : σ} {p p' p'' : π}
  {tr tr' : List (α × β)}

theorem Solo.trans (h : Solo P i sh p tr sh' p') (h' : Solo P i sh' p' tr' sh'' p'') :
    Solo P i sh p (tr ++ tr') sh'' p'' := by
  induction h with
  | refl => exact h'
  | step hs _ ih => exact .step hs (ih h')

/-- A run of a machine that has its steps goes on with them. -/
theorem Solo.append_run [DecidableEq ι] {κ : Type} (h : Solo P i sh p tr sh' p')
    (M : Machine (Threads ι σ π) κ β) (label : α → κ)
    (hM : ∀ s a, M.step s (label a) = s.step P i a) {s₀ s : Threads ι σ π} {tr₀ : List (κ × β)}
    (hsh : s.shared = sh) (hp : s.pc i = p) (hrun : M.Run s₀ tr₀ s) :
    M.Run s₀ (tr₀ ++ tr.map fun x => (label x.1, x.2)) ⟨sh', Function.update s.pc i p'⟩ := by
  induction h generalizing tr₀ s with
  | refl =>
      subst hsh hp
      rw [List.map_nil, List.append_nil, Function.update_eq_self]
      exact hrun
  | @step sh sh₁ sh' p p₁ p' a b tr hs _ ih =>
      subst hsh hp
      have hstep : M.step s (label a) = some (⟨sh₁, Function.update s.pc i p₁⟩, b) := by
        rw [hM, Threads.step, hs]
        rfl
      have hnext := ih rfl (Function.update_self ..) (hrun.snoc hstep)
      rw [Function.update_idem, List.append_assoc] at hnext
      exact hnext

end Solo

/-! ## Sums over all threads -/

variable [Fintype ι]

/-- The weights of all counters together. -/
def tally [AddCommMonoid M] (w : π → M) (pc : ι → π) : M := ∑ i, w (pc i)

/-- How many threads are where `P` holds. -/
def number (P : π → Bool) (pc : ι → π) : Nat := (Finset.univ.filter fun i => P (pc i)).card

theorem tally_number (P : π → Bool) (pc : ι → π) :
    tally (fun p => if P p then (1 : Int) else 0) pc = number P pc := by
  rw [tally, number, Finset.sum_boole]

/-- One thread moves: its old weight goes and its new weight comes. -/
theorem tally_update [DecidableEq ι] [AddCommMonoid M] (w : π → M) (pc : ι → π) (i : ι) (p : π) :
    tally w (Function.update pc i p) + w (pc i) = tally w pc + w p := by
  have hnew : tally w (Function.update pc i p)
      = w p + ∑ j ∈ Finset.univ \ {i}, w (pc j) := by
    have hcomp : (fun j => w (Function.update pc i p j))
        = Function.update (fun j => w (pc j)) i (w p) := Function.comp_update w pc i p
    rw [tally, hcomp, Finset.sum_update_of_mem (Finset.mem_univ i)]
  have hold : tally w pc = w (pc i) + ∑ j ∈ Finset.univ \ {i}, w (pc j) := by
    rw [tally, ← Finset.sum_update_of_mem (Finset.mem_univ i), Function.update_eq_self]
  rw [hnew, hold]
  abel

/-- **Balance.** When a step changes the quantity `q` and the weight of its own
counter by `d` together, it changes `q` and all weights by `d`. -/
theorem balance_step [DecidableEq ι] [AddCommGroup M] {P : ι → σ → π → α → Option (σ × π × β)}
    {s s' : Threads ι σ π} {i : ι} {a : α} {b : β} (q : σ → M) (w : π → M) {d : M}
    (h : s.step P i a = some (s', b))
    (hlocal : ∀ p', P i s.shared (s.pc i) a = some (s'.shared, p', b) →
      q s'.shared + w p' = q s.shared + w (s.pc i) + d) :
    q s'.shared + tally w s'.pc = q s.shared + tally w s.pc + d := by
  obtain ⟨p', hP, hpc⟩ := step_eq_some h
  have hmove := tally_update w s.pc i p'
  rw [← hpc] at hmove
  calc q s'.shared + tally w s'.pc
      = (q s'.shared + w p') + (tally w s'.pc + w (s.pc i)) - w (s.pc i) - w p' := by abel
    _ = q s.shared + tally w s.pc + d := by rw [hlocal p' hP, hmove]; abel

theorem tally_eq_zero [AddCommMonoid M] {w : π → M} {pc : ι → π} (h : ∀ i, w (pc i) = 0) :
    tally w pc = 0 :=
  Finset.sum_eq_zero fun i _ => h i

theorem number_pos {P : π → Bool} {pc : ι → π} {i : ι} (h : P (pc i) = true) :
    0 < number P pc :=
  Finset.card_pos.mpr ⟨i, Finset.mem_filter.mpr ⟨Finset.mem_univ i, h⟩⟩

/-- One thread moves: it is counted where it was, or where it is. -/
theorem number_update [DecidableEq ι] (P : π → Bool) (pc : ι → π) (i : ι) (p : π) :
    (number P (Function.update pc i p) : Int) + (if P (pc i) then 1 else 0)
      = number P pc + (if P p then 1 else 0) := by
  have h := tally_update (fun p => if P p then (1 : Int) else 0) pc i p
  rw [tally_number, tally_number] at h
  exact h

theorem eq_of_number_le_one {P : π → Bool} {pc : ι → π} (h : number P pc ≤ 1) {i j : ι}
    (hi : P (pc i) = true) (hj : P (pc j) = true) : i = j :=
  Finset.card_le_one.mp h i (Finset.mem_filter.mpr ⟨Finset.mem_univ i, hi⟩) j
    (Finset.mem_filter.mpr ⟨Finset.mem_univ j, hj⟩)

theorem number_eq_zero {P : π → Bool} {pc : ι → π} (h : ∀ i, P (pc i) = false) :
    number P pc = 0 := by
  simp [number, h]

theorem number_mono {P Q : π → Bool} (h : ∀ p, P p = true → Q p = true) (pc : ι → π) :
    number P pc ≤ number Q pc :=
  Finset.card_le_card (Finset.monotone_filter_right _ fun i _ => h (pc i))

theorem number_le_card (P : π → Bool) (pc : ι → π) : number P pc ≤ Fintype.card ι :=
  Finset.card_filter_le _ _

end Threads

/-! ## Locks that name their owner -/

variable {ο κ : Type}

/-- `held` says which lock each party holds; the lock knows it. -/
def Owned (held : ο → Option κ) (locks : κ → Option ο) : Prop :=
  ∀ x k, held x = some k → locks k = some x

theorem Owned.unique {held : ο → Option κ} {locks : κ → Option ο} (h : Owned held locks)
    {x y : ο} {k : κ} (hx : held x = some k) (hy : held y = some k) : x = y :=
  Option.some.inj ((h x k hx).symm.trans (h y k hy))

variable [DecidableEq κ]

/-- What `x` can do about locks in one step: nothing, take a free one while it
holds none, or give back the one it holds. -/
inductive LockMove (x : ο) :
    Option κ → Option κ → (κ → Option ο) → (κ → Option ο) → Prop where
  | keep {l locks} : LockMove x l l locks locks
  | acquire {k locks} (hfree : locks k = none) :
      LockMove x none (some k) locks (Function.update locks k (some x))
  | release {k locks} : LockMove x (some k) none locks (Function.update locks k none)

theorem Owned.move [DecidableEq ο] {held : ο → Option κ} {locks locks' : κ → Option ο} {x : ο}
    {l : Option κ} (h : Owned held locks) (m : LockMove x (held x) l locks locks') :
    Owned (Function.update held x l) locks' := by
  intro y k hy
  generalize hx : held x = before at m
  by_cases hyx : y = x
  · subst hyx
    rw [Function.update_self] at hy
    subst hy
    cases m with
    | keep => exact h y k hx
    | acquire hfree => exact Function.update_self ..
  · rw [Function.update_of_ne hyx] at hy
    have hown := h y k hy
    cases m with
    | keep => exact hown
    | @acquire k' _ hfree =>
        have hne : k ≠ k' := fun he => by rw [he, hfree] at hown; cases hown
        rw [Function.update_of_ne hne]
        exact hown
    | @release k' _ =>
        have hne : k ≠ k' := fun he => hyx (h.unique hy (he ▸ hx))
        rw [Function.update_of_ne hne]
        exact hown

/-- A lock that is given back is given back by its owner. -/
theorem Owned.released {held : ο → Option κ} {locks locks' : κ → Option ο} {x y : ο}
    {l : Option κ} {k : κ} (h : Owned held locks) (m : LockMove x (held x) l locks locks')
    (hy : locks k = some y) (hgone : locks' k ≠ some y) : y = x := by
  generalize hx : held x = before at m
  cases m with
  | keep => exact absurd hy hgone
  | @acquire k' _ hfree =>
      have hne : k ≠ k' := fun he => by rw [he, hfree] at hy; cases hy
      rw [Function.update_of_ne hne] at hgone
      exact absurd hy hgone
  | @release k' _ =>
      by_cases hk : k = k'
      · subst hk
        exact Option.some.inj (hy.symm.trans (h x k hx))
      · rw [Function.update_of_ne hk] at hgone
        exact absurd hy hgone

/-- Every lock that names an owner is held by it. -/
def NamesHolder (held : ο → Option κ) (locks : κ → Option ο) : Prop :=
  ∀ x k, locks k = some x → held x = some k

theorem NamesHolder.move [DecidableEq ο] {held : ο → Option κ} {locks locks' : κ → Option ο}
    {x : ο} {l : Option κ} (h : NamesHolder held locks)
    (m : LockMove x (held x) l locks locks') : NamesHolder (Function.update held x l) locks' := by
  intro y k hy
  generalize hx : held x = before at m
  have hother : ∀ k', locks k' = some y → y ≠ x → Function.update held x l y = some k' := by
    intro k' hk' hyx
    rw [Function.update_of_ne hyx]
    exact h y k' hk'
  cases m with
  | keep =>
      by_cases hyx : y = x
      · subst hyx
        rw [Function.update_self, ← hx]
        exact h y k hy
      · exact hother k hy hyx
  | @acquire k' _ hfree =>
      by_cases hk : k = k'
      · subst hk
        rw [Function.update_self] at hy
        cases hy
        exact Function.update_self ..
      · rw [Function.update_of_ne hk] at hy
        refine hother k hy fun hyx => ?_
        have hheld := h y k hy
        rw [hyx, hx] at hheld
        cases hheld
  | @release k' _ =>
      by_cases hk : k = k'
      · subst hk
        rw [Function.update_self] at hy
        cases hy
      · rw [Function.update_of_ne hk] at hy
        refine hother k hy fun hyx => hk ?_
        have hheld := h y k hy
        rw [hyx, hx] at hheld
        exact (Option.some.inj hheld).symm

end Kit
