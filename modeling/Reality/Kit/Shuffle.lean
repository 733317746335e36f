import Mathlib.Data.List.Basic

/-!
# Lists up to order, repetition and noise

A reader that only asks which values occur in a list, and skips some values
as noise, cannot tell a list from one with its elements reordered or
repeated, or with noise put in. `Shuffled` is the closure of these moves;
what such a reader sees is `Shuffled.mem_iff`.
-/

namespace Kit

variable {α : Type} {noise : α → Prop} {l l' : List α}

/-- The lists differ by reordering, by repeating and by inserting noise. -/
inductive Shuffled (noise : α → Prop) : List α → List α → Prop
  | reorder {l l' : List α} : l.Perm l' → Shuffled noise l l'
  | again {l : List α} {a : α} : a ∈ l → Shuffled noise l (a :: l)
  | insert {l : List α} {a : α} : noise a → Shuffled noise l (a :: l)
  | symm {l l' : List α} : Shuffled noise l l' → Shuffled noise l' l
  | trans {l l' l'' : List α} : Shuffled noise l l' → Shuffled noise l' l'' → Shuffled noise l l''

theorem Shuffled.mem_iff (h : Shuffled noise l l') {a : α} (ha : ¬ noise a) :
    a ∈ l ↔ a ∈ l' := by
  induction h with
  | reorder hp => exact hp.mem_iff
  | @again l b hb =>
      constructor
      · exact List.mem_cons_of_mem b
      · intro hm
        rcases List.mem_cons.mp hm with rfl | hm
        · exact hb
        · exact hm
  | @insert l b hb =>
      constructor
      · exact List.mem_cons_of_mem b
      · intro hm
        rcases List.mem_cons.mp hm with rfl | hm
        · exact absurd hb ha
        · exact hm
  | symm _ ih => exact ih.symm
  | trans _ _ ih ih' => exact ih.trans ih'

end Kit
