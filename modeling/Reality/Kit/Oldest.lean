import Mathlib.Order.Lattice
import Mathlib.Data.List.Basic

/-!
# The oldest key, with a key for "none yet"

A scan that keeps the oldest key seen so far, where one KEY stands for "nothing
seen yet". As long as that key is not in use, the scan ends at a key of least
time. When it is, the scan forgets what it has seen each time it comes by it
as the oldest, and takes the next key whatever its time. A scan for the first
key (`first`) uses the same key for "none yet".
-/

namespace Kit

section Oldest

variable {κ τ : Type} [DecidableEq κ] [LinearOrder τ] {unset : κ} {c : κ → τ}

/-- One visit: the accumulator is the candidate and its time. -/
def older (unset : κ) (c : κ → τ) (a : κ × τ) (x : κ) : κ × τ :=
  if a.1 = unset ∨ c x < a.2 then (x, c x) else a

def oldest (unset : κ) (c : κ → τ) (a : κ × τ) (visits : List κ) : κ × τ :=
  visits.foldl (older unset c) a

@[simp] theorem oldest_nil (a : κ × τ) : oldest unset c a [] = a := rfl

@[simp] theorem oldest_cons (a : κ × τ) (x : κ) (visits : List κ) :
    oldest unset c a (x :: visits) = oldest unset c (older unset c a x) visits := rfl

theorem oldest_append (a : κ × τ) (l l' : List κ) :
    oldest unset c a (l ++ l') = oldest unset c (oldest unset c a l) l' := List.foldl_append

/-- Only the times of the visited keys matter. -/
theorem oldest_congr {c' : κ → τ} {visits : List κ} (h : ∀ x ∈ visits, c x = c' x) (a : κ × τ) :
    oldest unset c a visits = oldest unset c' a visits := by
  induction visits generalizing a with
  | nil => rfl
  | cons x visits ih =>
      rw [oldest_cons, oldest_cons, older, older, h x List.mem_cons_self]
      exact ih (fun y hy => h y (List.mem_cons_of_mem x hy)) _

theorem older_unset {a : κ × τ} (h : a.1 = unset) (x : κ) : older unset c a x = (x, c x) :=
  if_pos (.inl h)

theorem older_lt {a : κ × τ} {x : κ} (h : c x < a.2) : older unset c a x = (x, c x) :=
  if_pos (.inr h)

/-- A candidate is a key that was visited, with its time. -/
theorem oldest_time {a : κ × τ} (ha : a.1 = unset ∨ a.2 = c a.1) (visits : List κ) :
    (oldest unset c a visits).1 = unset ∨
      (oldest unset c a visits).2 = c (oldest unset c a visits).1 := by
  induction visits generalizing a with
  | nil => exact ha
  | cons x visits ih =>
      refine ih ?_
      unfold older
      split
      · exact .inr rfl
      · exact ha

theorem oldest_mem {a : κ × τ} (visits : List κ) :
    (oldest unset c a visits).1 = a.1 ∨ (oldest unset c a visits).1 ∈ visits := by
  induction visits generalizing a with
  | nil => exact .inl rfl
  | cons x visits ih =>
      rw [oldest_cons]
      rcases ih (a := older unset c a x) with h | h
      · rw [h]
        unfold older
        split
        · exact .inr List.mem_cons_self
        · exact .inl rfl
      · exact .inr (List.mem_cons_of_mem x h)

/-- **What a candidate keeps**: once there is one at or below the bound `b`,
only keys below `b` can take its place. -/
theorem oldest_keeps {P : κ → Prop} {a : κ × τ} {b : τ} {visits : List κ} (hne : a.1 ≠ unset)
    (hle : a.2 ≤ b) (hP : P a.1) (hvisits : ∀ x ∈ visits, c x < b → x ≠ unset ∧ P x) :
    (oldest unset c a visits).1 ≠ unset ∧ (oldest unset c a visits).2 ≤ b ∧
      P (oldest unset c a visits).1 := by
  induction visits generalizing a with
  | nil => exact ⟨hne, hle, hP⟩
  | cons x visits ih =>
      have hrest : ∀ y ∈ visits, c y < b → y ≠ unset ∧ P y :=
        fun y hy => hvisits y (List.mem_cons_of_mem x hy)
      rw [oldest_cons]
      by_cases hlt : c x < a.2
      · have hb : c x < b := lt_of_lt_of_le hlt hle
        obtain ⟨hx, hPx⟩ := hvisits x List.mem_cons_self hb
        rw [older_lt hlt]
        exact ih hx hb.le hPx hrest
      · have hsame : older unset c a x = a := if_neg (not_or.mpr ⟨hne, hlt⟩)
        rw [hsame]
        exact ih hne hle hP hrest

/-- A visited key bounds the time of the candidate, unless the key for "none
yet" is in the way. -/
theorem oldest_le {a : κ × τ} {b : τ} {visits : List κ} {z : κ} (hz : z ∈ visits) (hne : z ≠ unset)
    (hle : c z ≤ b) (hunset : ∀ x ∈ visits, c x < b → x ≠ unset) :
    (oldest unset c a visits).1 ≠ unset ∧ (oldest unset c a visits).2 ≤ b := by
  obtain ⟨before, after, rfl⟩ := List.append_of_mem hz
  rw [oldest_append, oldest_cons]
  generalize oldest unset c a before = a₁
  have hat : (older unset c a₁ z).1 ≠ unset ∧ (older unset c a₁ z).2 ≤ b := by
    unfold older
    split
    · exact ⟨hne, hle⟩
    next hkeep =>
      obtain ⟨hne₁, hlt⟩ := not_or.mp hkeep
      exact ⟨hne₁, (not_lt.mp hlt).trans hle⟩
  have hafter : ∀ x ∈ after, c x < b → x ≠ unset ∧ True :=
    fun x hx hlt => ⟨hunset x (List.mem_append_right _ (List.mem_cons_of_mem z hx)) hlt, trivial⟩
  obtain ⟨hkept, hbound, -⟩ := oldest_keeps (P := fun _ => True) hat.1 hat.2 trivial hafter
  exact ⟨hkept, hbound⟩

/-- **The scan ends at a key of least time** when the key for "none yet" is not in use. -/
theorem oldest_least {a : κ × τ} {visits : List κ} (ha : a.1 = unset) (hne : visits ≠ [])
    (hunset : unset ∉ visits) :
    (oldest unset c a visits).1 ∈ visits ∧
      ∀ z ∈ visits, c (oldest unset c a visits).1 ≤ c z := by
  have hused : ∀ x ∈ visits, x ≠ unset := by
    rintro x hx rfl
    exact hunset hx
  have hle : ∀ z ∈ visits, (oldest unset c a visits).1 ≠ unset ∧
      (oldest unset c a visits).2 ≤ c z :=
    fun z hz => oldest_le hz (hused z hz) le_rfl fun x hx _ => hused x hx
  obtain ⟨z, hz⟩ := List.exists_mem_of_ne_nil _ hne
  have hfound := (hle z hz).1
  have htime := (oldest_time (c := c) (.inl ha) visits).resolve_left hfound
  refine ⟨(oldest_mem visits).resolve_left fun h => hfound (h.trans ha), ?_⟩
  intro z hz
  rw [← htime]
  exact (hle z hz).2

/-- A key that is no younger, visited FIRST, saves the key `k`. -/
theorem oldest_ne_of_first {a : κ × τ} {visits : List κ} {z k : κ} (ha : a.1 = unset)
    (hz : z ≠ unset) (hzk : z ≠ k) (hle : c z ≤ c k)
    (hunset : unset ∈ visits → c k ≤ c unset) : (oldest unset c a (z :: visits)).1 ≠ k := by
  rw [oldest_cons, older_unset ha]
  refine (oldest_keeps (P := (· ≠ k)) (a := (z, c z)) hz hle hzk ?_).2.2
  intro x hx hlt
  constructor
  · rintro rfl
    exact absurd hlt (not_lt.mpr (hunset hx))
  · rintro rfl
    exact lt_irrefl _ hlt

/-- The key for "none yet", visited right after `k` and older than it, saves `k`:
the scan starts over behind it. -/
theorem oldest_ne_of_forgotten {a : κ × τ} {visits : List κ} {k : κ} (ha : a.1 = unset)
    (hlt : c unset < c k) (hrest : visits ≠ []) (hnodup : (k :: unset :: visits).Nodup) :
    (oldest unset c a (k :: unset :: visits)).1 ≠ k := by
  obtain ⟨y, visits, rfl⟩ := List.exists_cons_of_ne_nil hrest
  simp only [List.nodup_cons, List.mem_cons, not_or] at hnodup
  obtain ⟨⟨hkn, hky, hk⟩, ⟨hny, hn⟩, hy⟩ := hnodup
  have hover : older unset c (unset, c unset) y = (y, c y) := older_unset rfl y
  rw [oldest_cons, older_unset ha, oldest_cons, older_lt hlt, oldest_cons, hover]
  refine (oldest_keeps (P := (· ≠ k)) (a := (y, c y)) (Ne.symm hny) le_rfl (Ne.symm hky) ?_).2.2
  intro x hx _
  constructor
  · rintro rfl
    exact hn hx
  · rintro rfl
    exact hk hx

end Oldest

section First

variable {κ : Type} [DecidableEq κ] {unset : κ}

/-- A candidate is kept once there is one. -/
def first (unset a : κ) (visits : List κ) : κ :=
  visits.foldl (fun a x => if a = unset then x else a) a

@[simp] theorem first_nil (a : κ) : first unset a [] = a := rfl

@[simp] theorem first_cons (a x : κ) (visits : List κ) :
    first unset a (x :: visits) = first unset (if a = unset then x else a) visits := rfl

theorem first_of_ne {a : κ} (h : a ≠ unset) (visits : List κ) : first unset a visits = a := by
  induction visits with
  | nil => rfl
  | cons x visits ih => rw [first_cons, if_neg h, ih]

/-- There is a first key when one of them is not the key for "none yet". -/
theorem first_mem {visits : List κ} (hne : visits ≠ []) (hunset : unset ∉ visits) :
    first unset unset visits ∈ visits ∧ first unset unset visits ≠ unset := by
  obtain ⟨x, rest, rfl⟩ := List.exists_cons_of_ne_nil hne
  have hx : x ≠ unset := by
    rintro rfl
    exact hunset List.mem_cons_self
  rw [first_cons, if_pos rfl, first_of_ne hx]
  exact ⟨List.mem_cons_self, hx⟩

end First

end Kit
