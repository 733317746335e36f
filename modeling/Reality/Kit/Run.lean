import Mathlib.Data.List.Basic

/-!
# Runs of a labelled machine

A machine takes a label in a state and either has no such step or moves
to a next state with an output. A `Run` keeps the whole trace of labels
and outputs, oldest first, so that "some earlier step" is a statement
about the trace. Safety properties come from `Run.invariant`; a run that
has some property can be found by executing it (`Run.exists_of_exec`).
-/

namespace Kit

/-- A deterministic labelled machine with outputs. `none` means the label
is not enabled. -/
structure Machine (σ α β : Type) where
  step : σ → α → Option (σ × β)

namespace Machine

variable {σ α β : Type}

/-- `M.Run s₀ tr s`: from `s₀` the machine takes the labels of `tr` with
its outputs and ends in `s`. -/
inductive Run (M : Machine σ α β) (s₀ : σ) : List (α × β) → σ → Prop where
  | nil : Run M s₀ [] s₀
  | snoc {tr : List (α × β)} {s s' : σ} {a : α} {b : β} :
      Run M s₀ tr s → M.step s a = some (s', b) → Run M s₀ (tr ++ [(a, b)]) s'

variable {M : Machine σ α β} {s₀ : σ}

theorem Run.single {s' : σ} {a : α} {b : β} (h : M.step s₀ a = some (s', b)) :
    M.Run s₀ [(a, b)] s' := by
  have hrun := Run.snoc Run.nil h
  exact hrun

theorem Run.trans {s s' : σ} {tr tr' : List (α × β)} (h : M.Run s₀ tr s) (h' : M.Run s tr' s') :
    M.Run s₀ (tr ++ tr') s' := by
  induction h' with
  | nil =>
      rw [List.append_nil]
      exact h
  | snoc _ hstep ih =>
      rw [← List.append_assoc]
      exact ih.snoc hstep

/-- Every step of the trace was taken in a state where it meets `C`, which
may look at the trace so far. -/
inductive Meets (M : Machine σ α β) (C : List (α × β) → σ → α → Prop) (s₀ : σ) :
    List (α × β) → σ → Prop where
  | nil : Meets M C s₀ [] s₀
  | snoc {tr : List (α × β)} {s s' : σ} {a : α} {b : β} :
      Meets M C s₀ tr s → C tr s a → M.step s a = some (s', b) →
      Meets M C s₀ (tr ++ [(a, b)]) s'

theorem Meets.run {C : List (α × β) → σ → α → Prop} {tr : List (α × β)} {s : σ}
    (h : Meets M C s₀ tr s) : Run M s₀ tr s := by
  induction h with
  | nil => exact .nil
  | snoc _ _ hs ih => exact .snoc ih hs

/-- **The invariant rule.** What holds of the start and is kept by every
step that meets `C` holds of every state of such a run. -/
theorem Meets.invariant {C : List (α × β) → σ → α → Prop}
    {I : List (α × β) → σ → Prop} (h0 : I [] s₀)
    (hstep : ∀ tr s a s' b, I tr s → C tr s a → M.step s a = some (s', b) →
      I (tr ++ [(a, b)]) s')
    {tr : List (α × β)} {s : σ} (h : Meets M C s₀ tr s) : I tr s := by
  induction h with
  | nil => exact h0
  | snoc _ hc hs ih => exact hstep _ _ _ _ _ ih hc hs

/-- A run without conditions is one that meets the trivial condition. -/
theorem Run.meets {tr : List (α × β)} {s : σ} (h : Run M s₀ tr s) :
    Meets M (fun _ _ _ => True) s₀ tr s := by
  induction h with
  | nil => exact .nil
  | snoc _ hs ih => exact .snoc ih trivial hs

theorem Run.invariant {I : List (α × β) → σ → Prop} (h0 : I [] s₀)
    (hstep : ∀ tr s a s' b, I tr s → M.step s a = some (s', b) → I (tr ++ [(a, b)]) s')
    {tr : List (α × β)} {s : σ} (h : Run M s₀ tr s) : I tr s :=
  h.meets.invariant h0 (fun _ _ _ _ _ hi _ hs => hstep _ _ _ _ _ hi hs)

/-- Execute a list of labels as long as each passes `check`, collecting the
outputs. -/
def exec (M : Machine σ α β) (check : σ → α → Bool) :
    σ → List α → Option (σ × List (α × β))
  | s, [] => some (s, [])
  | s, a :: as =>
      if check s a then
        match M.step s a with
        | none => none
        | some (s', b) => (M.exec check s' as).map fun r => (r.1, (a, b) :: r.2)
      else none

/-- Checked steps extend a run that meets the condition they are checked for. -/
theorem Meets.append_exec {C : List (α × β) → σ → α → Prop} {check : σ → α → Bool}
    {tr tr' : List (α × β)} {s s' : σ} {as : List α} (h : Meets M C s₀ tr s)
    (hC : ∀ a ∈ as, ∀ tr s, check s a = true → C tr s a)
    (he : M.exec check s as = some (s', tr')) : Meets M C s₀ (tr ++ tr') s' := by
  induction as generalizing s tr tr' with
  | nil =>
      simp only [exec, Option.some.injEq, Prod.mk.injEq] at he
      obtain ⟨rfl, rfl⟩ := he
      simpa using h
  | cons a as ih =>
      rw [exec] at he
      split at he
      next hcheck =>
        cases hs : M.step s a with
        | none => simp [hs] at he
        | some r =>
            obtain ⟨s1, b⟩ := r
            simp only [hs, Option.map_eq_some_iff, Prod.mk.injEq] at he
            obtain ⟨⟨s2, tr2⟩, he, rfl, rfl⟩ := he
            have hfirst := h.snoc (hC a List.mem_cons_self tr s hcheck) hs
            have hrest := ih hfirst (fun a' ha' => hC a' (List.mem_cons_of_mem a ha')) he
            simpa using hrest
      · cases he

/-- A run that meets `C` and has property `P`, found by executing it. -/
theorem Meets.exists_of_exec {C : List (α × β) → σ → α → Prop} (check : σ → α → Bool)
    (as : List α) {P : List (α × β) → σ → Prop} [∀ tr s, Decidable (P tr s)]
    (hC : ∀ a ∈ as, ∀ tr s, check s a = true → C tr s a)
    (h : (M.exec check s₀ as).any (fun r => decide (P r.2 r.1)) = true) :
    ∃ tr s, Meets M C s₀ tr s ∧ P tr s := by
  cases he : M.exec check s₀ as with
  | none =>
      rw [he] at h
      cases h
  | some r =>
      rw [he] at h
      exact ⟨r.2, r.1, Meets.append_exec .nil hC he, of_decide_eq_true h⟩

theorem Run.exists_of_exec (as : List α) {P : List (α × β) → σ → Prop}
    [∀ tr s, Decidable (P tr s)]
    (h : (M.exec (fun _ _ => true) s₀ as).any (fun r => decide (P r.2 r.1)) = true) :
    ∃ tr s, M.Run s₀ tr s ∧ P tr s := by
  have htriv : ∀ a ∈ as, ∀ (_ : List (α × β)) (_ : σ), true = true → (fun _ => True) a :=
    fun _ _ _ _ _ => trivial
  obtain ⟨tr, s, hmeets, hp⟩ := Meets.exists_of_exec (fun _ _ => true) as htriv h
  exact ⟨tr, s, hmeets.run, hp⟩

/-- A run and one that goes on from it, found by executing both. -/
theorem Run.exists_of_exec_exec (as bs : List α)
    {P : List (α × β) → σ → List (α × β) → σ → Prop} [∀ tr s tr' s', Decidable (P tr s tr' s')]
    (h : (M.exec (fun _ _ => true) s₀ as).any (fun r =>
      (M.exec (fun _ _ => true) r.1 bs).any fun r' => decide (P r.2 r.1 r'.2 r'.1)) = true) :
    ∃ tr s tr' s', M.Run s₀ tr s ∧ M.Run s tr' s' ∧ P tr s tr' s' := by
  obtain ⟨tr, s, hrun, hnext⟩ := Run.exists_of_exec as
    (P := fun tr s => (M.exec (fun _ _ => true) s bs).any
      (fun r' => decide (P tr s r'.2 r'.1)) = true) (by simpa using h)
  obtain ⟨tr', s', hrun', hp⟩ := Run.exists_of_exec bs hnext
  exact ⟨tr, s, tr', s', hrun, hrun', hp⟩

end Machine

end Kit
