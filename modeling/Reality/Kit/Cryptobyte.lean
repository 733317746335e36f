import Reality.Kit.Bytes

/-!
# Reading length-prefixed bytes

The reading half of `cryptobyte.String`. A `Slice` is a piece of one
message buffer together with the OFFSET at which it starts there, so that
a field read out of a message still says which bytes of the message it
aliases: Go code writes through such fields. `overwrite` is that write
(`copy(dst, src)`), seen from the buffer.
-/

namespace Kit

/-- A sub-slice of a buffer: the bytes and where they start. -/
structure Slice where
  off : Nat
  bytes : Bytes
  deriving DecidableEq, Repr

namespace Slice

/-- The whole of a buffer. -/
def whole (b : Bytes) : Slice := ⟨0, b⟩

def empty (s : Slice) : Bool := s.bytes.isEmpty

/-- `s.ReadBytes(&out, n)`: the first `n` bytes and the rest. -/
def readBytes (s : Slice) (n : Nat) : Option (Slice × Slice) :=
  if s.bytes.length < n then none
  else some (⟨s.off, s.bytes.take n⟩, ⟨s.off + n, s.bytes.drop n⟩)

def skip (s : Slice) (n : Nat) : Option Slice :=
  (s.readBytes n).map (·.2)

def readUint8 (s : Slice) : Option (UInt8 × Slice) :=
  match s.bytes with
  | a :: rest => some (a, ⟨s.off + 1, rest⟩)
  | _ => none

def readUint16 (s : Slice) : Option (UInt16 × Slice) :=
  match s.bytes with
  | a :: b :: rest => some (UInt16.ofNat (be16 a b), ⟨s.off + 2, rest⟩)
  | _ => none

def readUint32 (s : Slice) : Option (UInt32 × Slice) :=
  match s.bytes with
  | a :: b :: c :: d :: rest =>
      some (UInt32.ofNat (be16 a b * 65536 + be16 c d), ⟨s.off + 4, rest⟩)
  | _ => none

def readUint8LengthPrefixed (s : Slice) : Option (Slice × Slice) :=
  match s.readUint8 with
  | some (n, s) => s.readBytes n.toNat
  | none => none

def readUint16LengthPrefixed (s : Slice) : Option (Slice × Slice) :=
  match s.readUint16 with
  | some (n, s) => s.readBytes n.toNat
  | none => none

/-- What a successful read of `n` bytes says about the buffer. -/
theorem readBytes_eq_some {s a r : Slice} {n : Nat} (h : s.readBytes n = some (a, r)) :
    s.bytes = a.bytes ++ r.bytes ∧ a.bytes.length = n ∧ a.off = s.off ∧
      r.off = s.off + n := by
  unfold readBytes at h
  split at h
  · cases h
  · simp only [Option.some.injEq, Prod.mk.injEq] at h
    obtain ⟨rfl, rfl⟩ := h
    exact ⟨(List.take_append_drop n s.bytes).symm, by simp; omega, rfl, rfl⟩

/-- Reading `n` bytes off a buffer that starts with `n` bytes. -/
theorem readBytes_append (o : Nat) (a r : Bytes) :
    (⟨o, a ++ r⟩ : Slice).readBytes a.length = some (⟨o, a⟩, ⟨o + a.length, r⟩) := by
  simp [readBytes]

theorem readUint16_eq_some {s r : Slice} {v : UInt16} (h : s.readUint16 = some (v, r)) :
    ∃ a b, s.bytes = a :: b :: r.bytes ∧ v = UInt16.ofNat (be16 a b) ∧
      r.off = s.off + 2 := by
  unfold readUint16 at h
  split at h
  · rename_i a b rest hb
    simp only [Option.some.injEq, Prod.mk.injEq] at h
    obtain ⟨rfl, rfl⟩ := h
    exact ⟨a, b, hb, rfl, rfl⟩
  · cases h

theorem readUint8_eq_some {s r : Slice} {v : UInt8} (h : s.readUint8 = some (v, r)) :
    s.bytes = v :: r.bytes ∧ r.off = s.off + 1 := by
  unfold readUint8 at h
  split at h
  · rename_i a rest hb
    simp only [Option.some.injEq, Prod.mk.injEq] at h
    obtain ⟨rfl, rfl⟩ := h
    exact ⟨hb, rfl⟩
  · cases h

theorem readUint8LengthPrefixed_eq_some {s d r : Slice}
    (h : s.readUint8LengthPrefixed = some (d, r)) :
    ∃ n, s.bytes = n :: (d.bytes ++ r.bytes) ∧ d.bytes.length = n.toNat ∧
      d.off = s.off + 1 ∧ r.off = s.off + 1 + d.bytes.length := by
  unfold readUint8LengthPrefixed at h
  cases hs : s.readUint8 with
  | none => simp [hs] at h
  | some p =>
      obtain ⟨n, t⟩ := p
      simp only [hs] at h
      obtain ⟨hb, ho⟩ := readUint8_eq_some hs
      obtain ⟨h1, h2, h3, h4⟩ := readBytes_eq_some h
      exact ⟨n, by rw [hb, h1], h2, by rw [h3, ho], by rw [h4, ho, h2]⟩

theorem readUint8LengthPrefixed_append (o : Nat) (n : UInt8) (d r : Bytes)
    (h : d.length = n.toNat) :
    (⟨o, n :: (d ++ r)⟩ : Slice).readUint8LengthPrefixed
      = some (⟨o + 1, d⟩, ⟨o + 1 + d.length, r⟩) := by
  simp only [readUint8LengthPrefixed, readUint8]
  rw [← h, readBytes_append]

theorem toNat_be16 (a b : UInt8) : (UInt16.ofNat (be16 a b)).toNat = be16 a b := by
  rw [UInt16.toNat_ofNat', Nat.mod_eq_of_lt (be16_lt a b)]

theorem readUint16LengthPrefixed_eq_some {s d r : Slice}
    (h : s.readUint16LengthPrefixed = some (d, r)) :
    ∃ a b, s.bytes = a :: b :: (d.bytes ++ r.bytes) ∧ d.bytes.length = be16 a b ∧
      d.off = s.off + 2 ∧ r.off = s.off + 2 + d.bytes.length := by
  unfold readUint16LengthPrefixed at h
  cases hs : s.readUint16 with
  | none => simp [hs] at h
  | some p =>
      obtain ⟨v, t⟩ := p
      simp only [hs] at h
      obtain ⟨a, b, hb, rfl, ho⟩ := readUint16_eq_some hs
      obtain ⟨h1, h2, h3, h4⟩ := readBytes_eq_some h
      rw [toNat_be16] at h2
      refine ⟨a, b, by rw [hb, h1], h2, by rw [h3, ho], ?_⟩
      rw [h4, ho, toNat_be16, h2]

theorem readUint16LengthPrefixed_append (o : Nat) (a b : UInt8) (d r : Bytes)
    (h : d.length = be16 a b) :
    (⟨o, a :: b :: (d ++ r)⟩ : Slice).readUint16LengthPrefixed
      = some (⟨o + 2, d⟩, ⟨o + 2 + d.length, r⟩) := by
  simp only [readUint16LengthPrefixed, readUint16, toNat_be16]
  rw [← h, readBytes_append]

/-! ## Pieces of a buffer -/

/-- `s` is a piece of `buf`, at its offset. -/
def Within (buf : Bytes) (s : Slice) : Prop :=
  ∃ a r, buf = a ++ s.bytes ++ r ∧ a.length = s.off

theorem within_whole (buf : Bytes) : (whole buf).Within buf := ⟨[], [], by simp [whole], rfl⟩

/-- `i` is a place of the buffer that `s` covers. -/
def Covers (s : Slice) (i : Nat) : Prop := s.off ≤ i ∧ i < s.off + s.bytes.length

/-- A piece of a piece. -/
theorem Within.sub {buf x y : Bytes} {s d : Slice} (h : s.Within buf)
    (hb : s.bytes = x ++ d.bytes ++ y) (ho : d.off = s.off + x.length) : d.Within buf := by
  obtain ⟨a, r, hbuf, ha⟩ := h
  refine ⟨a ++ x, y ++ r, ?_, ?_⟩
  · rw [hbuf, hb]
    simp only [List.append_assoc]
  · rw [List.length_append, ha, ho]

theorem Within.skip {buf : Bytes} {s r : Slice} {n : Nat} (h : s.Within buf)
    (hr : s.skip n = some r) : r.Within buf := by
  unfold Slice.skip at hr
  obtain ⟨⟨a, r'⟩, hread, rfl⟩ := Option.map_eq_some_iff.mp hr
  obtain ⟨hb, hlen, -, ho⟩ := readBytes_eq_some hread
  exact h.sub (x := a.bytes) (y := []) (by rw [hb, List.append_nil]) (by rw [ho, hlen])

theorem Within.readUint16 {buf : Bytes} {s r : Slice} {v : UInt16} (h : s.Within buf)
    (hr : s.readUint16 = some (v, r)) : r.Within buf := by
  obtain ⟨a, b, hb, -, ho⟩ := readUint16_eq_some hr
  exact h.sub (x := [a, b]) (y := []) (by rw [hb, List.append_nil]; rfl) ho

theorem Within.readBytes {buf : Bytes} {s d r : Slice} {n : Nat} (h : s.Within buf)
    (hr : s.readBytes n = some (d, r)) : r.Within buf := by
  obtain ⟨hb, hlen, -, ho⟩ := readBytes_eq_some hr
  exact h.sub (x := d.bytes) (y := []) (by rw [hb, List.append_nil]) (by rw [ho, hlen])

theorem Within.readUint8LengthPrefixed {buf : Bytes} {s d r : Slice} (h : s.Within buf)
    (hr : s.readUint8LengthPrefixed = some (d, r)) : d.Within buf := by
  obtain ⟨n, hb, -, ho, -⟩ := readUint8LengthPrefixed_eq_some hr
  exact h.sub (x := [n]) (y := r.bytes) hb ho

/-! ## Lists of items -/

/-- `for !s.Empty() { item }`: read items until the slice is used up. `n`
bounds their number; an item that takes at least a byte needs no more than
the bytes of `s`. -/
def readAll {α : Type} (item : Slice → Option (α × Slice)) : Nat → Slice → Option (List α)
  | 0, s => if s.empty then some [] else none
  | n + 1, s =>
      if s.empty then some []
      else
        match item s with
        | none => none
        | some (v, rest) => (readAll item n rest).map (v :: ·)

/-- An item that must not be empty. -/
def nonEmpty (r : Option (Slice × Slice)) : Option (Bytes × Slice) :=
  match r with
  | some (v, rest) => if v.empty then none else some (v.bytes, rest)
  | none => none

/-- A read that has to use the slice up. -/
def exhausted {α : Type} (r : Option (α × Slice)) : Option α :=
  match r with
  | some (v, rest) => if rest.empty then some v else none
  | none => none

theorem exhausted_eq_some {α : Type} {r : Option (α × Slice)} {v : α}
    (h : exhausted r = some v) : ∃ rest, r = some (v, rest) ∧ rest.bytes = [] := by
  unfold exhausted at h
  split at h
  next rest =>
    split at h
    next he =>
      cases h
      exact ⟨rest, rfl, List.isEmpty_iff.mp he⟩
    · cases h
  · cases h

/-! ## Tagged fields -/

/-- Walk a list of fields, each a 16-bit tag and a 16-bit length-prefixed
body. A tag that occurs twice is refused. `apply` also sees what follows the
field. `n` bounds the number of fields; the bytes of `s` are always enough. -/
def walkTagged {X : Type} (apply : X → UInt16 → Slice → Slice → Option X) :
    Nat → Slice → List UInt16 → X → Option X
  | 0, s, _, x => if s.empty then some x else none
  | n + 1, s, seen, x =>
      if s.empty then some x
      else
        match s.readUint16 with
        | none => none
        | some (tag, s₁) =>
            match s₁.readUint16LengthPrefixed with
            | none => none
            | some (d, rest) =>
                if tag ∈ seen then none
                else
                  match apply x tag d rest with
                  | none => none
                  | some x' => walkTagged apply n rest (tag :: seen) x'

/-- One field of a successful walk. -/
theorem walkTagged_succ_eq_some {X : Type} {apply : X → UInt16 → Slice → Slice → Option X}
    {n : Nat} {s : Slice} {seen : List UInt16} {x y : X}
    (h : walkTagged apply (n + 1) s seen x = some y) :
    s.bytes = [] ∧ x = y ∨
    ∃ a b c e d rest x', s.bytes = a :: b :: c :: e :: (d ++ rest) ∧
      d.length = be16 c e ∧ UInt16.ofNat (be16 a b) ∉ seen ∧
      apply x (UInt16.ofNat (be16 a b)) ⟨s.off + 4, d⟩ ⟨s.off + 4 + d.length, rest⟩
        = some x' ∧
      walkTagged apply n ⟨s.off + 4 + d.length, rest⟩ (UInt16.ofNat (be16 a b) :: seen) x'
        = some y := by
  unfold walkTagged at h
  split at h
  next he =>
    simp only [Option.some.injEq] at h
    exact .inl ⟨List.isEmpty_iff.mp he, h⟩
  · right
    cases h₁ : s.readUint16 with
    | none => simp [h₁] at h
    | some p =>
        obtain ⟨tag, s₁⟩ := p
        obtain ⟨a, b, hs, rfl, ho⟩ := readUint16_eq_some h₁
        simp only [h₁] at h
        cases h₂ : s₁.readUint16LengthPrefixed with
        | none => simp [h₂] at h
        | some p =>
            obtain ⟨⟨od, d⟩, ⟨or, rest⟩⟩ := p
            obtain ⟨c, e, hs₁, hd, hod, hor⟩ := readUint16LengthPrefixed_eq_some h₂
            simp only [h₂] at h
            split at h
            · cases h
            next hseen =>
              have hod' : od = s.off + 4 := by simp only at hod; omega
              have hor' : or = s.off + 4 + d.length := by simp only at hor; omega
              subst hod' hor'
              split at h
              · cases h
              next x' hx =>
                exact ⟨a, b, c, e, d, rest, x', by rw [hs, hs₁], hd, hseen, hx, h⟩

/-- The same field, forwards. -/
theorem walkTagged_succ_of {X : Type} {apply : X → UInt16 → Slice → Slice → Option X}
    {n o : Nat} {a b c e : UInt8} {d rest : Bytes} {seen : List UInt16} {x x' : X}
    (hd : d.length = be16 c e) (hseen : UInt16.ofNat (be16 a b) ∉ seen)
    (hx : apply x (UInt16.ofNat (be16 a b)) ⟨o + 4, d⟩ ⟨o + 4 + d.length, rest⟩
      = some x') :
    walkTagged apply (n + 1) ⟨o, a :: b :: c :: e :: (d ++ rest)⟩ seen x
      = walkTagged apply n ⟨o + 4 + d.length, rest⟩ (UInt16.ofNat (be16 a b) :: seen)
          x' := by
  have h₂ := readUint16LengthPrefixed_append (o + 2) c e d rest hd
  simp only [walkTagged, empty, List.isEmpty_cons, Bool.false_eq_true, if_false,
    readUint16, h₂, if_neg hseen]
  rw [hx]

end Slice

/-- `copy(buf[off:off+room], src)`: as much of `src` as there is room. -/
def overwrite (buf : Bytes) (off room : Nat) (src : Bytes) : Bytes :=
  buf.take off ++ src.take room ++ buf.drop (off + min src.length room)

theorem overwrite_zero (buf : Bytes) (off : Nat) (src : Bytes) :
    overwrite buf off 0 src = buf := by
  simp [overwrite]

theorem overwrite_full {buf src : Bytes} (h : src.length = buf.length) :
    overwrite buf 0 buf.length src = src := by
  rw [overwrite, List.take_zero, List.nil_append, ← h, List.take_length, Nat.zero_add,
    Nat.min_self, h, List.drop_length, List.append_nil]

theorem overwrite_append {a d r : Bytes} (src : Bytes) :
    overwrite (a ++ d ++ r) a.length d.length src
      = a ++ overwrite d 0 d.length src ++ r := by
  have hle : min src.length d.length ≤ d.length := Nat.min_le_right _ _
  simp only [overwrite, List.append_assoc, List.take_append, Nat.sub_self, List.take_zero,
    List.take_length, List.drop_append, Nat.zero_add, List.nil_append]
  have hdrop : a.drop (a.length + min src.length d.length) = [] :=
    List.drop_eq_nil_of_le (by omega)
  rw [hdrop]
  simp [Nat.sub_eq_zero_of_le hle]

theorem overwrite_length {buf : Bytes} {off room : Nat} (src : Bytes)
    (h : off + room ≤ buf.length) : (overwrite buf off room src).length = buf.length := by
  simp only [overwrite, List.length_append, List.length_take, List.length_drop]
  omega

/-- Where the written bytes stand, and where the old ones do. -/
theorem getElem?_overwrite {buf : Bytes} {off room : Nat} (h : off + room ≤ buf.length)
    (src : Bytes) (i : Nat) :
    (overwrite buf off room src)[i]?
      = if off ≤ i ∧ i < off + min src.length room then src[i - off]? else buf[i]? := by
  have hoff : (buf.take off).length = off := by
    rw [List.length_take]
    omega
  have hsrc : (src.take room).length = min src.length room := by
    rw [List.length_take, Nat.min_comm]
  rw [overwrite, List.append_assoc]
  split
  next hin =>
    rw [List.getElem?_append_right (by omega), hoff, List.getElem?_append_left (by omega),
      List.getElem?_take_of_lt (by omega)]
  next hout =>
    rcases Nat.lt_or_ge i off with hi | hi
    · rw [List.getElem?_append_left (by omega), List.getElem?_take_of_lt hi]
    · rw [List.getElem?_append_right (by omega), hoff, List.getElem?_append_right (by omega), hsrc,
        List.getElem?_drop]
      congr 1
      omega

/-- Bytes outside the place that is written keep their values. -/
theorem getElem?_overwrite_of_outside {buf src : Bytes} {off room i : Nat}
    (h : off + room ≤ buf.length) (hsrc : src.length = room) (hi : i < off ∨ off + room ≤ i) :
    (overwrite buf off room src)[i]? = buf[i]? := by
  rw [getElem?_overwrite h, if_neg (by omega)]

/-- The place that is written holds what was written. -/
theorem slot_overwrite {buf src : Bytes} {off room : Nat} (h : off + room ≤ buf.length)
    (hsrc : src.length = room) : ((overwrite buf off room src).drop off).take room = src := by
  have hoff : (buf.take off).length = off := by
    rw [List.length_take]
    omega
  rw [overwrite, hsrc, Nat.min_self, List.take_of_length_le (Nat.le_of_eq hsrc), List.append_assoc,
    List.drop_left' hoff, List.take_left' hsrc]

/-- A place apart from the one that is written keeps its bytes. -/
theorem slot_overwrite_of_apart {buf src : Bytes} {off room o r : Nat}
    (h : off + room ≤ buf.length) (hsrc : src.length = room) (ho : o + r ≤ off ∨ off + room ≤ o) :
    ((overwrite buf off room src).drop o).take r = (buf.drop o).take r := by
  refine List.ext_getElem? fun i => ?_
  by_cases hi : i < r
  · rw [List.getElem?_take_of_lt hi, List.getElem?_take_of_lt hi, List.getElem?_drop,
      List.getElem?_drop, getElem?_overwrite_of_outside h hsrc (by omega)]
  · rw [List.getElem?_take_eq_none (by omega), List.getElem?_take_eq_none (by omega)]

/-- What `d` was overwritten with can be taken back from a copy made before. -/
theorem overwrite_restore (d z : Bytes) :
    overwrite (overwrite d 0 d.length z) 0 d.length (overwrite z 0 z.length d) = d := by
  have hbox : (overwrite z 0 z.length d).length = z.length :=
    overwrite_length d (by omega)
  simp only [overwrite, List.take_zero, List.nil_append, Nat.zero_add] at hbox ⊢
  rw [hbox]
  rcases Nat.le_total z.length d.length with h | h
  · rw [Nat.min_eq_left h, Nat.min_eq_right h, List.drop_length, List.append_nil,
      List.take_of_length_le h, List.drop_left, List.take_take, Nat.min_eq_right h,
      List.take_append_drop]
  · rw [Nat.min_eq_right h, Nat.min_eq_left h, List.drop_length, List.append_nil,
      List.take_of_length_le h, List.take_left, List.drop_take, Nat.sub_self, List.take_zero,
      List.append_nil]

end Kit
