import Mathlib.Data.List.Basic
import Mathlib.Tactic.Ring

/-!
# Byte strings

Go strings and slices as lists of bytes. Everything here is about bytes
in general: ASCII literals, big-endian lengths, and fields that a
separator byte delimits (how many separators there are, what stands
after the last one, and the parts a split at all of them gives).
-/

namespace Kit

/-- A byte string: a Go `string` or the contents of a `[]byte`. -/
abbrev Bytes := List UInt8

/-- An ASCII literal as bytes. -/
def str (s : String) : Bytes :=
  s.toList.map fun c => UInt8.ofNat c.toNat

/-- A big-endian 16-bit number. -/
def be16 (hi lo : UInt8) : Nat := hi.toNat * 256 + lo.toNat

theorem be16_lt (hi lo : UInt8) : be16 hi lo < 65536 := by
  have h1 := hi.toNat_lt
  have h2 := lo.toNat_lt
  simp only [be16]
  omega

/-- The index of the last occurrence of `c` (Go `strings.LastIndexByte`,
with `none` for `-1`). -/
def lastIndexByte (s : Bytes) (c : UInt8) : Option Nat :=
  (s.reverse.findIdx? (· == c)).map (s.length - 1 - ·)

/-- The bytes after the last `c`, or all of them when there is none. -/
def lastField (c : UInt8) (s : Bytes) : Bytes :=
  match lastIndexByte s c with
  | some i => s.drop (i + 1)
  | none => s

theorem lastIndexByte_append {a b : Bytes} {c : UInt8} (h : c ∉ b) :
    lastIndexByte (a ++ c :: b) c = some a.length := by
  have hb : b.reverse.findIdx? (· == c) = none := by
    rw [List.findIdx?_eq_none_iff]
    intro x hx
    simp only [List.mem_reverse] at hx
    simp only [beq_eq_false_iff_ne]
    rintro rfl
    exact h hx
  simp only [lastIndexByte, List.reverse_append, List.reverse_cons, List.append_assoc,
    List.findIdx?_append, hb, List.singleton_append, List.findIdx?_cons, beq_self_eq_true,
    List.length_reverse, List.length_append, List.length_cons]
  simp

theorem lastIndexByte_eq_none {s : Bytes} {c : UInt8} (h : c ∉ s) :
    lastIndexByte s c = none := by
  simp only [lastIndexByte, Option.map_eq_none_iff, List.findIdx?_eq_none_iff,
    List.mem_reverse, beq_eq_false_iff_ne]
  rintro x hx rfl
  exact h hx

/-- A string that has the separator splits at its LAST occurrence. -/
theorem split_last {s : Bytes} {c : UInt8} (h : c ∈ s) :
    ∃ a b, s = a ++ c :: b ∧ c ∉ b := by
  induction s with
  | nil => simp at h
  | cons x rest ih =>
      by_cases hr : c ∈ rest
      · obtain ⟨a, b, rfl, hb⟩ := ih hr
        exact ⟨x :: a, b, rfl, hb⟩
      · have hx : x = c := by
          rcases List.mem_cons.mp h with rfl | h'
          · rfl
          · exact absurd h' hr
        exact ⟨[], rest, by rw [hx]; rfl, hr⟩

theorem lastField_append {a b : Bytes} {c : UInt8} (h : c ∉ b) :
    lastField c (a ++ c :: b) = b := by
  simp [lastField, lastIndexByte_append h]

theorem lastField_of_notMem {s : Bytes} {c : UInt8} (h : c ∉ s) :
    lastField c s = s := by
  simp [lastField, lastIndexByte_eq_none h]

/-- Prepending whole fields does not change the last one. -/
theorem lastField_prepend (a b : Bytes) (c : UInt8) :
    lastField c (a ++ c :: b) = lastField c b := by
  by_cases h : c ∈ b
  · obtain ⟨a', b', rfl, hb'⟩ := split_last h
    rw [lastField_append hb',
      show a ++ c :: (a' ++ c :: b') = (a ++ c :: a') ++ c :: b' by simp,
      lastField_append hb']
  · rw [lastField_append h, lastField_of_notMem h]

/-- Splitting at the FIRST separator is unambiguous. -/
theorem append_sep_inj {a a' b b' : Bytes} {c : UInt8} (ha : c ∉ a) (ha' : c ∉ a')
    (h : a ++ c :: b = a' ++ c :: b') : a = a' ∧ b = b' := by
  induction a generalizing a' with
  | nil =>
      cases a' with
      | nil => simpa using h
      | cons x xs =>
          simp only [List.nil_append, List.cons_append, List.cons.injEq] at h
          exact absurd (by simp [h.1]) ha'
  | cons x xs ih =>
      cases a' with
      | nil =>
          simp only [List.nil_append, List.cons_append, List.cons.injEq] at h
          exact absurd (by simp [h.1]) ha
      | cons y ys =>
          simp only [List.cons_append, List.cons.injEq] at h
          obtain ⟨rfl, h⟩ := h
          have hx : c ∉ xs := fun hc => ha (by simp [hc])
          have hy : c ∉ ys := fun hc => ha' (by simp [hc])
          obtain ⟨rfl, rfl⟩ := ih hx hy h
          exact ⟨rfl, rfl⟩

/-- Splitting at the LAST separator is unambiguous. -/
theorem append_sep_inj_right {a a' b b' : Bytes} {c : UInt8} (hb : c ∉ b) (hb' : c ∉ b')
    (h : a ++ c :: b = a' ++ c :: b') : a = a' ∧ b = b' := by
  have hr : b.reverse ++ c :: a.reverse = b'.reverse ++ c :: a'.reverse := by
    have := congrArg List.reverse h
    simpa using this
  obtain ⟨h1, h2⟩ := append_sep_inj (by simpa using hb) (by simpa using hb') hr
  exact ⟨List.reverse_inj.mp h2, List.reverse_inj.mp h1⟩

/-! ## Splitting at every separator -/

@[simp] theorem splitOn_cons_self (c : UInt8) (s : Bytes) :
    (c :: s).splitOn c = [] :: s.splitOn c := by
  simp [List.splitOn, List.splitOnP_cons_eq_if_modifyHead]

theorem splitOn_cons_of_ne {x c : UInt8} (h : x ≠ c) (s : Bytes) :
    (x :: s).splitOn c = (s.splitOn c).modifyHead (x :: ·) := by
  simp [List.splitOn, List.splitOnP_cons_eq_if_modifyHead, h]

theorem splitOn_append_sep (a b : Bytes) (c : UInt8) :
    (a ++ c :: b).splitOn c = a.splitOn c ++ b.splitOn c :=
  List.splitOnP_append_cons a b (beq_self_eq_true c)

@[simp] theorem modifyHead_nil_append (parts : List Bytes) :
    parts.modifyHead ([] ++ ·) = parts := by
  cases parts <;> rfl

/-- One part more than there are separators. -/
theorem length_splitOn (c : UInt8) (s : Bytes) : (s.splitOn c).length = s.count c + 1 := by
  induction s with
  | nil => rfl
  | cons x s ih =>
      by_cases h : x = c
      · subst h
        rw [splitOn_cons_self, List.length_cons, ih, List.count_cons_self]
      · rw [splitOn_cons_of_ne h, List.length_modifyHead, ih, List.count_cons_of_ne h]

theorem notMem_of_mem_splitOn {c : UInt8} {s part : Bytes} (h : part ∈ s.splitOn c) :
    c ∉ part := by
  induction s generalizing part with
  | nil =>
      rw [List.mem_singleton.mp h]
      exact List.not_mem_nil
  | cons x s ih =>
      by_cases hx : x = c
      · subst hx
        rw [splitOn_cons_self] at h
        rcases List.mem_cons.mp h with rfl | h
        · exact List.not_mem_nil
        · exact ih h
      · obtain ⟨first, rest, hs⟩ := List.exists_cons_of_ne_nil (List.splitOn_ne_nil c s)
        rw [splitOn_cons_of_ne hx, hs, List.modifyHead_cons] at h
        rw [hs] at ih
        rcases List.mem_cons.mp h with rfl | h
        · intro hc
          rcases List.mem_cons.mp hc with rfl | hc
          · exact hx rfl
          · exact ih List.mem_cons_self hc
        · exact ih (List.mem_cons_of_mem _ h)

end Kit
