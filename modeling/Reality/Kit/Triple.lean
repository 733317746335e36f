import Mathlib.Init

/-!
# Pre- and postconditions of stateful code that can stop

Code with a state of type `σ` that can stop with an `ε` is an `EStateM ε σ`. A
triple says how such code ends, by a value or by a stop, from every state that
meets its precondition. There is one rule for each way to build code, so a triple
of a whole function is put together from those of its parts.
-/

namespace Kit

variable {ε σ α β : Type} {P P' : σ → Prop} {Q Q' : α → σ → Prop} {E E' : ε → σ → Prop}

/-- From a state with `P`, the code `x` returns with `Q` or stops with `E`. -/
def Triple (P : σ → Prop) (x : EStateM ε σ α) (Q : α → σ → Prop) (E : ε → σ → Prop) : Prop :=
  ∀ s, P s → match x s with
    | .ok a s' => Q a s'
    | .error e s' => E e s'

theorem Triple.pure {a : α} (h : ∀ s, P s → Q a s) : Triple P (Pure.pure a) Q E := h

theorem Triple.throw {e : ε} (h : ∀ s, P s → E e s) : Triple P (MonadExcept.throw e) Q E := h

theorem Triple.modify {f : σ → σ} {R : Unit → σ → Prop} (h : ∀ s, P s → R () (f s)) :
    Triple P (modify f) R E := h

theorem Triple.weaken {x : EStateM ε σ α} (h : Triple P x Q E) (hP : ∀ s, P' s → P s)
    (hQ : ∀ a s, Q a s → Q' a s) (hE : ∀ e s, E e s → E' e s) : Triple P' x Q' E' := by
  intro s hs
  have hx := h s (hP s hs)
  cases hr : x s with
  | ok a s' =>
      rw [hr] at hx
      exact hQ a s' hx
  | error e s' =>
      rw [hr] at hx
      exact hE e s' hx

theorem Triple.from {x : EStateM ε σ α} (h : Triple P x Q E) {s₀ : σ} (h₀ : P s₀) :
    Triple (fun s => s = s₀) x Q E := by
  intro s hs
  subst hs
  exact h s h₀

/-- What holds below every smaller bound of a measure. -/
theorem Triple.of_lt {x : EStateM ε σ α} {size : σ → Nat} {k : Nat}
    (h : ∀ j < k, Triple (fun s => size s ≤ j) x Q E) : Triple (fun s => size s < k) x Q E :=
  fun s hs => h (size s) hs s (Nat.le_refl _)

theorem Triple.bind {x : EStateM ε σ α} {f : α → EStateM ε σ β} {R : β → σ → Prop}
    (hx : Triple P x Q E) (hf : ∀ a, Triple (Q a) (f a) R E) : Triple P (x >>= f) R E := by
  intro s hs
  have hq := hx s hs
  show match EStateM.bind x f s with
    | .ok b s' => R b s'
    | .error e s' => E e s'
  rw [EStateM.bind]
  cases hr : x s with
  | ok a s' =>
      rw [hr] at hq
      exact hf a s' hq
  | error e s' =>
      rw [hr] at hq
      exact hq

/-- Code that looks at the state first. -/
theorem Triple.get {f : σ → EStateM ε σ α}
    (h : ∀ s₀, P s₀ → Triple (fun s => s = s₀) (f s₀) Q E) : Triple P (MonadState.get >>= f) Q E :=
  fun s hs => h s hs s rfl

theorem Triple.ite {c : Prop} [Decidable c] {x y : EStateM ε σ α} (hx : c → Triple P x Q E)
    (hy : ¬ c → Triple P y Q E) : Triple P (if c then x else y) Q E := by
  by_cases hc : c
  · rw [if_pos hc]
    exact hx hc
  · rw [if_neg hc]
    exact hy hc

/-! ## How code runs -/

theorem bind_ok {x : EStateM ε σ α} {f : α → EStateM ε σ β} {s s' : σ} {a : α}
    (h : x s = .ok a s') : (x >>= f) s = f a s' := by
  show EStateM.bind x f s = _
  rw [EStateM.bind, h]

theorem bind_error {x : EStateM ε σ α} {f : α → EStateM ε σ β} {s s' : σ} {e : ε}
    (h : x s = .error e s') : (x >>= f) s = .error e s' := by
  show EStateM.bind x f s = _
  rw [EStateM.bind, h]

theorem get_bind {f : σ → EStateM ε σ α} (s : σ) : (MonadState.get >>= f) s = f s s := rfl

end Kit
