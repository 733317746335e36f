import Mathlib.Logic.Basic

/-!
# Computations that return

`Except ε` as the outcome of code that can panic. `Returned x` says that it did
not; what is proved about a loop over such code is WHEN it returns: step by
step, in the state each step is taken in (`Along`), or, when the steps do not
depend on the state, element by element.
-/

namespace Kit

variable {ε α β σ : Type}

/-- The computation returns a value. -/
def Returned (x : Except ε α) : Prop := ∃ a, x = .ok a

@[simp] theorem returned_ok (a : α) : Returned (.ok a : Except ε α) := ⟨a, rfl⟩

@[simp] theorem returned_error (e : ε) : ¬ Returned (.error e : Except ε α) := by
  rintro ⟨a, h⟩
  cases h

@[simp] theorem returned_map {x : Except ε α} (f : α → β) :
    Returned (x.map f) ↔ Returned x := by
  cases x <;> simp [Except.map]

theorem map_eq_ok {x : Except ε α} {f : α → β} {b : β} (h : x.map f = .ok b) :
    ∃ a, x = .ok a ∧ f a = b := by
  cases x with
  | error e => cases h
  | ok a => exact ⟨a, rfl, Except.ok.inj h⟩

theorem returned_bind {x : Except ε α} {f : α → Except ε β} :
    Returned (x >>= f) ↔ ∃ a, x = .ok a ∧ Returned (f a) := by
  cases x with
  | error e => simp [bind, Except.bind]
  | ok a => simp [bind, Except.bind]

theorem returned_bind_iff {x : Except ε α} {f : α → Except ε β} (h : ∀ a, Returned (f a)) :
    Returned (x >>= f) ↔ Returned x := by
  rw [returned_bind]
  constructor
  · rintro ⟨a, ha, -⟩
    exact ⟨a, ha⟩
  · rintro ⟨a, ha⟩
    exact ⟨a, ha, h a⟩

/-- Every step of `l`, taken in the state the steps before it led to, is `good`. -/
def Along (f : σ → α → Except ε σ) (good : σ → α → Prop) : σ → List α → Prop
  | _, [] => True
  | s, a :: l => good s a ∧ ∀ s', f s a = .ok s' → Along f good s' l

/-- **Runs that return**: with an invariant under which a step returns exactly when
it is good, a run returns exactly when all its steps are good. -/
theorem returned_foldlM_iff {f : σ → α → Except ε σ} {good : σ → α → Prop} {I : σ → Prop}
    (hI : ∀ s a s', I s → f s a = .ok s' → I s')
    (hgood : ∀ s a, I s → (Returned (f s a) ↔ good s a)) {l : List α} {s : σ} (h : I s) :
    Returned (l.foldlM f s) ↔ Along f good s l := by
  induction l generalizing s with
  | nil => exact iff_of_true ⟨s, rfl⟩ trivial
  | cons a l ih =>
      rw [List.foldlM_cons, returned_bind, Along, ← hgood s a h]
      constructor
      · rintro ⟨s', hs', hl⟩
        refine ⟨⟨s', hs'⟩, fun s'' hs'' => ?_⟩
        cases hs'.symm.trans hs''
        exact (ih (hI s a s' h hs')).mp hl
      · rintro ⟨⟨s', hs'⟩, hl⟩
        exact ⟨s', hs', (ih (hI s a s' h hs')).mpr (hl s' hs')⟩

/-- A run of good steps returns when good steps do, and keep what that rests on. -/
theorem Along.returned {f : σ → α → Except ε σ} {good : σ → α → Prop} {I : σ → Prop}
    (hI : ∀ s a s', I s → good s a → f s a = .ok s' → I s')
    (hgood : ∀ s a, I s → good s a → Returned (f s a)) {l : List α} {s : σ} (h : I s)
    (hl : Along f good s l) : Returned (l.foldlM f s) := by
  induction l generalizing s with
  | nil => exact ⟨s, rfl⟩
  | cons a l ih =>
      obtain ⟨s', hs'⟩ := hgood s a h hl.1
      rw [List.foldlM_cons, returned_bind]
      exact ⟨s', hs', ih (hI s a s' h hl.1 hs') (hl.2 s' hs')⟩

/-- A loop whose steps return or not whatever came before. -/
theorem returned_foldlM_iff_forall {f : σ → α → Except ε σ} {good : α → Prop}
    (hgood : ∀ s a, Returned (f s a) ↔ good a) {l : List α} {s : σ} :
    Returned (l.foldlM f s) ↔ ∀ a ∈ l, good a := by
  induction l generalizing s with
  | nil => exact iff_of_true ⟨s, rfl⟩ (fun a ha => absurd ha List.not_mem_nil)
  | cons a l ih =>
      rw [List.foldlM_cons, returned_bind, List.forall_mem_cons, ← hgood s a]
      constructor
      · rintro ⟨s', hs', hl⟩
        exact ⟨⟨s', hs'⟩, ih.mp hl⟩
      · rintro ⟨⟨s', hs'⟩, hl⟩
        exact ⟨s', hs', ih.mpr hl⟩

theorem returned_foldlM {f : σ → α → Except ε σ} (h : ∀ s a, Returned (f s a)) (l : List α)
    (s : σ) : Returned (l.foldlM f s) :=
  (returned_foldlM_iff_forall fun s a => iff_of_true (h s a) trivial).mpr fun _ _ => trivial

/-- A loop returns, and keeps what each of its steps keeps. -/
theorem foldlM_ok {f : σ → α → Except ε σ} {I : σ → Prop} {l : List α}
    (hstep : ∀ s, ∀ a ∈ l, I s → ∃ s', f s a = .ok s' ∧ I s') {s : σ} (h : I s) :
    ∃ s', l.foldlM f s = .ok s' ∧ I s' := by
  induction l generalizing s with
  | nil => exact ⟨s, rfl, h⟩
  | cons a l ih =>
      obtain ⟨s₁, hs₁, h₁⟩ := hstep s a List.mem_cons_self h
      obtain ⟨s', hs', h'⟩ := ih (fun s a ha => hstep s a (List.mem_cons_of_mem _ ha)) h₁
      refine ⟨s', ?_, h'⟩
      rw [List.foldlM_cons, hs₁]
      exact hs'

/-- When a loop returns, each of its steps has returned in some state. -/
theorem Returned.of_mem_foldlM {f : σ → α → Except ε σ} {l : List α} {s : σ}
    (h : Returned (l.foldlM f s)) {a : α} (ha : a ∈ l) : ∃ s', Returned (f s' a) := by
  induction l generalizing s with
  | nil => cases ha
  | cons b l ih =>
      rw [List.foldlM_cons, returned_bind] at h
      obtain ⟨s₁, hs₁, hl⟩ := h
      rcases List.mem_cons.mp ha with rfl | ha
      · exact ⟨s, s₁, hs₁⟩
      · exact ih hl ha

/-- A loop seen through a projection of its state. -/
theorem foldlM_map {τ : Type} {f : σ → α → Except ε σ} {g : τ → α → Except ε τ} {p : σ → τ}
    (h : ∀ s a, (f s a).map p = g (p s) a) (l : List α) (s : σ) :
    (l.foldlM f s).map p = l.foldlM g (p s) := by
  induction l generalizing s with
  | nil => rfl
  | cons a l ih =>
      rw [List.foldlM_cons, List.foldlM_cons, ← h s a]
      cases hs : f s a with
      | error e => rfl
      | ok s' => exact ih s'

end Kit
