import Mathlib.Data.List.Basic
import Reality.Kit.Bytes

/-!
# Buffers by address

Go code that copies one slice and shares another is told apart only by WHICH
buffer it writes. Here a slice header is the address of its buffer: `alloc`
hands out a new address, `store` replaces what one buffer holds, and every
other buffer is left as it was.
-/

namespace Kit

/-- The buffers allocated so far; the address of a buffer is its position. -/
abbrev Buffers := List Bytes

namespace Buffers

variable {m : Buffers} {a b : Nat}

def read (m : Buffers) (a : Nat) : Bytes := m.getD a []

def alloc (m : Buffers) (v : Bytes) : Buffers × Nat := (m ++ [v], m.length)

def store (m : Buffers) (a : Nat) (v : Bytes) : Buffers := m.set a v

theorem read_alloc_of_lt (h : b < m.length) (v : Bytes) : (m.alloc v).1.read b = m.read b := by
  simp [alloc, read, List.getElem?_append_left h]

@[simp] theorem length_alloc (m : Buffers) (v : Bytes) : (m.alloc v).1.length = m.length + 1 := by
  simp [alloc]

theorem read_store_self (h : a < m.length) (v : Bytes) : (m.store a v).read a = v := by
  simp [store, read, List.getElem?_set_self h]

theorem read_store_of_ne (h : b ≠ a) (v : Bytes) : (m.store a v).read b = m.read b := by
  simp [store, read, List.getElem?_set_ne h.symm]

/-- Every buffer of `m` is still there, as it was. -/
structure Keeps (m m' : Buffers) : Prop where
  length : m.length ≤ m'.length
  read : ∀ a < m.length, m'.read a = m.read a

/-- Writes to a buffer that came later. -/
theorem Keeps.store {m m' : Buffers} (h : m.Keeps m') (ha : m.length ≤ a) (v : Bytes) :
    m.Keeps (m'.store a v) where
  length := by
    rw [Buffers.store, List.length_set]
    exact h.length
  read := by
    intro b hb
    rw [read_store_of_ne (by omega), h.read b hb]

end Buffers

end Kit
