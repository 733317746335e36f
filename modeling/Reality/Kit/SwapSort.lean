import Mathlib.Data.List.Induction
import Mathlib.Data.List.Sort

/-!
# Insertion sort in place

The loop that sorts a short slice by exchanging neighbours: the element at `i`
is moved down past the greater ones before it, for `i = 1, 2, …`. Each round
leaves what is behind `i` alone and sorts the part up to it. The outcome is
the sorted list, of which the last element is the greatest.
-/

namespace Kit

variable {α : Type} [LinearOrder α]

/-- `for j > 0 && tmp[j-1] > tmp[j] { tmp[j-1], tmp[j] = tmp[j], tmp[j-1]; j-- }` -/
def sink (tmp : List α) : Nat → List α
  | 0 => tmp
  | j + 1 =>
      match tmp[j]?, tmp[j + 1]? with
      | some a, some b => if a > b then sink ((tmp.set j b).set (j + 1) a) j else tmp
      | _, _ => tmp

/-- The rounds `i = 1, …, rounds`. -/
def sinkRounds (tmp : List α) (rounds : Nat) : List α :=
  (List.range rounds).foldl (fun tmp i => sink tmp (i + 1)) tmp

def swapSort (tmp : List α) : List α := sinkRounds tmp (tmp.length - 1)

/-- One exchange, or none. -/
theorem sink_succ (front : List α) (a b : α) (rest : List α) :
    sink (front ++ a :: b :: rest) (front.length + 1)
      = if a > b then sink (front ++ b :: a :: rest) front.length else front ++ a :: b :: rest := by
  rw [sink]
  simp [List.set_append_right]

/-- A round sorts the part up to its element, and leaves the rest. -/
theorem sink_spec (front : List α) (b : α) (rest : List α) (hfront : front.Pairwise (· ≤ ·)) :
    ∃ front', sink (front ++ b :: rest) front.length = front' ++ rest ∧
      front'.Perm (front ++ [b]) ∧ front'.Pairwise (· ≤ ·) := by
  induction front using List.reverseRecOn generalizing rest with
  | nil => exact ⟨[b], by simp [sink], .refl _, List.pairwise_singleton ..⟩
  | append_singleton front a ih =>
      obtain ⟨hsorted, -, hle⟩ := List.pairwise_append.mp hfront
      have hlast : ∀ x ∈ front, x ≤ a := fun x hx => hle x hx a List.mem_cons_self
      rw [List.append_assoc, List.singleton_append, List.length_append, List.length_singleton,
        sink_succ]
      split
      next hgt =>
        obtain ⟨front', heq, hperm, hpair⟩ := ih (a :: rest) hsorted
        refine ⟨front' ++ [a], by rw [heq]; simp, ?_, ?_⟩
        · have hswap : (front ++ [b] ++ [a]).Perm (front ++ [a] ++ [b]) := by
            simpa using (List.Perm.swap a b []).append_left front
          exact (hperm.append_right [a]).trans hswap
        · refine List.pairwise_append.mpr ⟨hpair, List.pairwise_singleton .., ?_⟩
          intro x hx y hy
          rw [List.mem_singleton.mp hy]
          rcases List.mem_append.mp (hperm.mem_iff.mp hx) with hx | hx
          · exact hlast x hx
          · rw [List.mem_singleton.mp hx]
            exact hgt.le
      next hgt =>
        refine ⟨front ++ [a] ++ [b], by simp, .refl _, ?_⟩
        refine List.pairwise_append.mpr ⟨hfront, List.pairwise_singleton .., ?_⟩
        intro x hx y hy
        rw [List.mem_singleton.mp hy]
        have hab : a ≤ b := not_lt.mp hgt
        rcases List.mem_append.mp hx with hx | hx
        · exact (hlast x hx).trans hab
        · rw [List.mem_singleton.mp hx]
          exact hab

/-- After `rounds` rounds the first `rounds + 1` elements are sorted. -/
theorem sinkRounds_spec {tmp : List α} {rounds : Nat} (h : rounds < tmp.length) :
    ∃ front, sinkRounds tmp rounds = front ++ tmp.drop (rounds + 1) ∧
      front.Perm (tmp.take (rounds + 1)) ∧ front.Pairwise (· ≤ ·) := by
  induction rounds with
  | zero =>
      obtain ⟨x, rest, rfl⟩ := List.exists_cons_of_length_pos h
      exact ⟨[x], rfl, .refl _, List.pairwise_singleton ..⟩
  | succ rounds ih =>
      obtain ⟨front, heq, hperm, hpair⟩ := ih (by omega)
      have hlen : front.length = rounds + 1 := by
        rw [hperm.length_eq, List.length_take]
        omega
      rw [sinkRounds, List.range_succ, List.foldl_append, List.foldl_cons, List.foldl_nil]
      change ∃ front, sink (sinkRounds tmp rounds) (rounds + 1) = _ ∧ _
      obtain ⟨front', heq', hperm', hpair'⟩ :=
        sink_spec front (tmp.get ⟨rounds + 1, h⟩) (tmp.drop (rounds + 2)) hpair
      refine ⟨front', ?_, hperm'.trans ?_, hpair'⟩
      · rw [heq, List.drop_eq_getElem_cons h]
        rw [hlen] at heq'
        exact heq'
      · rw [List.take_succ_eq_append_getElem h]
        exact hperm.append_right _

/-- **The loop sorts.** -/
theorem swapSort_eq (tmp : List α) : swapSort tmp = tmp.insertionSort (· ≤ ·) := by
  have hsorted : (swapSort tmp).Perm tmp ∧ (swapSort tmp).Pairwise (· ≤ ·) := by
    cases tmp with
    | nil => exact ⟨.refl _, .nil⟩
    | cons x rest =>
        have hrounds : rest.length < (x :: rest).length := by simp
        obtain ⟨front, heq, hperm, hpair⟩ := sinkRounds_spec hrounds
        have hall : swapSort (x :: rest) = front := by
          rw [swapSort, List.length_cons, Nat.add_sub_cancel, heq]
          simp
        rw [hall]
        exact ⟨by simpa using hperm, hpair⟩
  exact (hsorted.1.trans (List.perm_insertionSort _ tmp).symm).eq_of_pairwise
    (fun _ _ _ _ => le_antisymm) hsorted.2 (List.pairwise_insertionSort _ tmp)

end Kit
