import Mathlib.Data.List.AList

/-!
# Ranging over a map that others change

`sync.Map.Range` is no snapshot. It comes by every key that was there when it
began, by some of the keys that are stored meanwhile, and by none twice; what
it finds under a key is what the map holds when it LOOKS. The callback runs
between two looks, and so does everybody else.
-/

namespace Kit

variable {α β : Type} [DecidableEq α]

/-- A `Range` under way: the keys it owes a look, and those it has looked at. -/
structure RangeLoop (α : Type) where
  todo : List α
  seen : List α := []
  deriving DecidableEq

namespace RangeLoop

def start (m : AList (fun _ : α => β)) : RangeLoop α := { todo := m.keys }

/-- Look at one more key, and what is there. -/
def look (l : RangeLoop α) (m : AList (fun _ : α => β)) (k : α) : Option (RangeLoop α × Option β) :=
  if k ∈ l.seen then none else some ({ l with seen := k :: l.seen }, m.lookup k)

def finished (l : RangeLoop α) : Bool := l.todo.all (· ∈ l.seen)

theorem finished_of_subset {l : RangeLoop α} (h : ∀ k ∈ l.todo, k ∈ l.seen) :
    l.finished = true := List.all_eq_true.mpr fun k hk => decide_eq_true (h k hk)

end RangeLoop

end Kit
