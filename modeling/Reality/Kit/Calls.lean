import Mathlib.Logic.Basic

/-!
# Computations that ask the outside

A program that asks a clock, a random source or a library whose answers are not
modelled gets a possibly DIFFERENT answer each time it asks. Such a computation
counts its questions, and the answer to question `k` is a function of `k`: two
equal questions need not be answered alike.

`Returns` is partial knowledge of the result that holds for all answers to
earlier questions; `Asks` bounds how many questions there are.
-/

namespace Kit

/-- A computation in which the outside has been asked so many times. -/
abbrev Calls (α : Type) := StateM Nat α

namespace Calls

variable {α β : Type}

/-- Ask the outside once. -/
def ask (answer : Nat → α) : Calls α := fun k => (answer k, k + 1)

/-- The result satisfies `P`, however often the outside was asked before. -/
def Returns (m : Calls α) (P : α → Prop) : Prop := ∀ k, P (m k).1

theorem Returns.pure {P : α → Prop} {a : α} (h : P a) : Returns (Pure.pure a) P :=
  fun _ => h

theorem Returns.bind {m : Calls α} {f : α → Calls β} {Q : α → Prop} {P : β → Prop}
    (hm : Returns m Q) (hf : ∀ a, Q a → Returns (f a) P) : Returns (m >>= f) P :=
  fun k => hf _ (hm k) _

theorem Returns.ite {c : Prop} [Decidable c] {m m' : Calls α} {P : α → Prop}
    (h : c → Returns m P) (h' : ¬ c → Returns m' P) : Returns (if c then m else m') P := by
  by_cases hc : c
  · rw [if_pos hc]
    exact h hc
  · rw [if_neg hc]
    exact h' hc

/-- At most `n` questions are asked. -/
def Asks (m : Calls α) (n : Nat) : Prop := ∀ k, (m k).2 ≤ k + n

theorem asks_ask (answer : Nat → α) : Asks (ask answer) 1 := fun _ => Nat.le_refl _

theorem Asks.pure (a : α) : Asks (Pure.pure a) 0 := fun _ => Nat.le_refl _

theorem Asks.bind {m : Calls α} {f : α → Calls β} {n n' : Nat} (hm : Asks m n)
    (hf : ∀ a, Asks (f a) n') : Asks (m >>= f) (n + n') := by
  intro k
  have hfirst := hm k
  have hrest := hf (m k).1 (m k).2
  show (f (m k).1 (m k).2).2 ≤ k + (n + n')
  omega

theorem Asks.ite {c : Prop} [Decidable c] {m m' : Calls α} {n : Nat} (h : Asks m n)
    (h' : Asks m' n) : Asks (if c then m else m') n := by
  split
  · exact h
  · exact h'

theorem Asks.mono {m : Calls α} {n n' : Nat} (h : Asks m n) (hle : n ≤ n') : Asks m n' :=
  fun k => Nat.le_trans (h k) (Nat.add_le_add_left hle k)

end Calls

end Kit
