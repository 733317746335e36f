import Reality.Kit.Bytes

/-!
# Counters in bytes

A counter kept as big-endian bytes and incremented in place, from the last
byte on. It has no successor when every byte is `0xff`: the carry runs out.
-/

namespace Kit

/-- The number big-endian bytes stand for. -/
def beNat : Bytes → Nat
  | [] => 0
  | b :: rest => b.toNat * 256 ^ rest.length + beNat rest

/-- Add one; none when the carry runs out. -/
def incBytes : Bytes → Option Bytes
  | [] => none
  | b :: rest =>
      match incBytes rest with
      | some rest => some (b :: rest)
      | none => if b = 0xff then none else some ((b + 1) :: List.replicate rest.length 0)

theorem beNat_replicate_zero (n : Nat) : beNat (List.replicate n 0) = 0 := by
  induction n with
  | zero => rfl
  | succ n ih =>
      rw [List.replicate_succ, beNat, ih]
      simp

/-- **An increment adds one**, and fails only on the last number. -/
theorem incBytes_spec (s : Bytes) :
    match incBytes s with
    | some s' => s'.length = s.length ∧ beNat s' = beNat s + 1
    | none => beNat s + 1 = 256 ^ s.length := by
  induction s with
  | nil => rfl
  | cons b rest ih =>
      rw [incBytes]
      cases hr : incBytes rest with
      | some rest' =>
          rw [hr] at ih
          obtain ⟨hlen, hval⟩ := ih
          refine ⟨by rw [List.length_cons, List.length_cons, hlen], ?_⟩
          rw [beNat, beNat, hlen, hval, Nat.add_assoc]
      | none =>
          rw [hr] at ih
          have hcarry : beNat rest + 1 = 256 ^ rest.length := ih
          dsimp only
          by_cases hff : b = 0xff
          · rw [if_pos hff]
            dsimp only
            rw [hff, beNat, Nat.add_assoc, hcarry, List.length_cons, Nat.pow_succ]
            show 255 * 256 ^ rest.length + 256 ^ rest.length = _
            ring
          · rw [if_neg hff]
            refine ⟨by rw [List.length_cons, List.length_replicate, List.length_cons], ?_⟩
            have hb : (b + 1).toNat = b.toNat + 1 := by
              have hlt := b.toNat_lt
              have hne : b.toNat ≠ 255 := fun h => hff (UInt8.toNat_inj.mp h)
              rw [UInt8.toNat_add]
              show (b.toNat + 1) % 256 = _
              omega
            rw [beNat, beNat, List.length_replicate, beNat_replicate_zero, hb, Nat.add_assoc,
              hcarry]
            ring

end Kit
