import Mathlib.Data.List.Basic
import Reality.Kit.Bytes

/-!
# Building length-prefixed bytes

The writing half of `cryptobyte`. A `Builder` collects bytes until something goes
wrong; the one thing that can is a child that is too long for its length prefix.
`Built` is what a builder holds in the end.
-/

namespace Kit

/-- The low `width` bytes of `n`, most significant first. -/
def beBytes (width n : Nat) : Bytes :=
  (List.range width).reverse.map fun i => UInt8.ofNat (n / 256 ^ i)

@[simp] theorem beBytes_length (width n : Nat) : (beBytes width n).length = width := by
  simp [beBytes]

/-- The bytes of a builder, or nothing after an error. -/
abbrev Built := Option Bytes

namespace Built

variable {α : Type}

/-- Parts added one after the other. -/
def parts : List Built → Built
  | [] => some []
  | b :: bs => b.bind fun x => (parts bs).map (x ++ ·)

/-- `AddUint8LengthPrefixed` and its like, for a prefix of `width` bytes. -/
def lengthPrefixed (width : Nat) (child : Built) : Built :=
  child.bind fun b =>
    if b.length < 256 ^ width then some (beBytes width b.length ++ b) else none

theorem lengthPrefixed_some {width : Nat} {b : Bytes} (h : b.length < 256 ^ width) :
    lengthPrefixed width (some b) = some (beBytes width b.length ++ b) := if_pos h

theorem lengthPrefixed_none {width : Nat} {b : Bytes} (h : ¬ b.length < 256 ^ width) :
    lengthPrefixed width (some b) = none := if_neg h

/-- Parts that are all there are there together. -/
theorem parts_of_some {f : α → Built} {g : α → Bytes} {l : List α}
    (h : ∀ a ∈ l, f a = some (g a)) : parts (l.map f) = some (l.map g).flatten := by
  induction l with
  | nil => rfl
  | cons a l ih =>
      have hrest := ih fun b hb => h b (List.mem_cons_of_mem a hb)
      rw [List.map_cons, parts, h a List.mem_cons_self, hrest]
      rfl

/-- One part that is missing spoils the whole. -/
theorem parts_of_none {f : α → Built} {l : List α} {a : α} (ha : a ∈ l) (h : f a = none) :
    parts (l.map f) = none := by
  induction l with
  | nil => exact absurd ha List.not_mem_nil
  | cons b l ih =>
      rw [List.map_cons, parts]
      rcases List.mem_cons.mp ha with rfl | hin
      · rw [h]
        rfl
      · cases f b with
        | none => rfl
        | some x =>
            rw [ih hin]
            rfl

end Built

end Kit
