import Reality.Auth.Interleaved

/-!
# The entry count of the replay guard

`count` under concurrent calls. Calls that read the gate at the same moment may
all go on to insert, so `count` can pass the limit, by one less than the number
of calls: every call past the gate has a CLAIM, claims are made only below the
limit, and `count` with all claims stays below `maxEntries + n`.
-/

namespace Reality

open Kit Threads

variable {ι : Type}

/-- The shard each party has locked. -/
def heldShard (s : GuardThreads ι) : Option ι → Option (Fin replayShardCount)
  | none => s.shared.gc.holds
  | some i => (s.pc i).holds

theorem heldShard_call [DecidableEq ι] {s s' : GuardThreads ι} {i : ι} {p : MarkPc}
    (hgc : s'.shared.gc = s.shared.gc) (hpc : s'.pc = Function.update s.pc i p) :
    heldShard s' = Function.update (heldShard s) (some i) p.holds := by
  funext o
  cases o with
  | none =>
      rw [Function.update_of_ne (by simp)]
      exact congrArg GcPc.holds hgc
  | some j =>
      by_cases hj : j = i
      · subst hj
        rw [Function.update_self, heldShard, hpc, Function.update_self]
      · rw [Function.update_of_ne (fun h => hj (Option.some.inj h)), heldShard, hpc,
          Function.update_of_ne hj]
        rfl

theorem heldShard_gc [DecidableEq ι] {s s' : GuardThreads ι} (hpc : s'.pc = s.pc) :
    heldShard s' = Function.update (heldShard s) none s'.shared.gc.holds := by
  funext o
  cases o with
  | none => rw [Function.update_self]; rfl
  | some j =>
      rw [Function.update_of_ne (by simp), heldShard, hpc]
      rfl

/-- Who is inside a shard has its lock. -/
def LocksOwned (s : GuardThreads ι) : Prop := Owned (heldShard s) s.shared.locks

/-- A step of either kind, by what it does. -/
theorem guardStep_cases [DecidableEq ι] {s s' : GuardThreads ι} {o : Option ι} {a : GuardAct}
    {v : Option Verdict} (h : guardStep s (o, a) = some (s', v)) :
    (∃ i p', o = some i ∧ markStep i s.shared (s.pc i) a = some (s'.shared, p', v) ∧
      s'.pc = Function.update s.pc i p' ∧ MarkMove i s.shared s'.shared (s.pc i) p') ∨
    (o = none ∧ v = none ∧ gcStep s.shared a = some s'.shared ∧ s'.pc = s.pc ∧
      GcMove s.shared s'.shared) := by
  cases o with
  | some i =>
      obtain ⟨p', hstep, hpc⟩ := step_eq_some h
      exact .inl ⟨i, p', rfl, hstep, hpc, markStep_move hstep⟩
  | none =>
      obtain ⟨sh, hstep, heq⟩ := Option.map_eq_some_iff.mp h
      cases heq
      exact .inr ⟨rfl, rfl, hstep, rfl, gcStep_move hstep⟩

theorem LocksOwned.step [DecidableEq ι] {s s' : GuardThreads ι} {x : Option ι × GuardAct}
    {v : Option Verdict} (hown : LocksOwned s) (h : guardStep s x = some (s', v)) :
    LocksOwned s' := by
  rcases guardStep_cases h with ⟨i, p', -, -, hpc, hmove⟩ | ⟨-, -, -, hpc, hmove⟩
  · rw [LocksOwned, heldShard_call hmove.gc hpc]
    exact hown.move hmove.locks
  · rw [LocksOwned, heldShard_gc hpc]
    exact hown.move hmove.locks

theorem locksOwned_start (window maxEntries now : Int) :
    LocksOwned (guardStart ι window maxEntries now) := by
  intro o j h
  cases o <;> cases h

/-! ## The count -/

variable [Fintype ι]

structure CountInv (s : GuardThreads ι) : Prop where
  owned : LocksOwned s
  settled : s.shared.guard.count - s.shared.guard.total + s.shared.gc.owes
    + tally MarkPc.owes s.pc = 0
  bound : s.shared.guard.count + number MarkPc.pastGate s.pc
    ≤ s.shared.guard.maxEntries - 1 + Fintype.card ι

theorem tally_claim (pc : ι → MarkPc) :
    tally MarkPc.claim pc = number MarkPc.pastGate pc := tally_number MarkPc.pastGate pc

theorem countInv_start (window maxEntries now : Int) :
    CountInv (guardStart ι window maxEntries now) where
  owned := locksOwned_start window maxEntries now
  settled := by
    have hcalls : tally MarkPc.owes (guardStart ι window maxEntries now).pc = 0 :=
      tally_eq_zero fun _ => rfl
    rw [hcalls]
    show 0 - (newReplayGuard window maxEntries now).total + 0 + 0 = 0
    rw [ReplayGuard.total_new]
    rfl
  bound := by
    have hnumber : number MarkPc.pastGate (guardStart ι window maxEntries now).pc = 0 := by
      simp [number, guardStart, MarkPc.pastGate]
    -- The limit is positive whatever the configuration says, and one call may pass the gate.
    have hmax : 1 ≤ (guardStart ι window maxEntries now).shared.guard.maxEntries := by
      show 1 ≤ if maxEntries ≤ 0 then defaultReplayGuardMaxEntries else maxEntries
      split
      · decide
      · omega
    rw [hnumber]
    show (0 : Int) + 0 ≤ _
    omega

variable [DecidableEq ι]

theorem CountInv.step {s s' : GuardThreads ι} {x : Option ι × GuardAct} {v : Option Verdict}
    (hinv : CountInv s) (h : guardStep s x = some (s', v)) : CountInv s' := by
  have hsettled := hinv.settled
  have hbound := hinv.bound
  refine ⟨hinv.owned.step h, ?_, ?_⟩
  · rcases guardStep_cases h with ⟨i, p', -, -, hpc, hmove⟩ | ⟨-, -, -, hpc, hmove⟩
    -- What the step did to `count` and the map is what it did to its own debt.
    · have htally := tally_update MarkPc.owes s.pc i p'
      have hbalance := hmove.balance
      rw [hpc, hmove.gc]
      omega
    · have hbalance := hmove.balance
      rw [hpc]
      omega
  · rcases guardStep_cases h with ⟨i, p', -, -, hpc, hmove⟩ | ⟨-, -, -, hpc, hmove⟩
    · have htally := tally_update MarkPc.claim s.pc i p'
      rw [tally_claim, tally_claim] at htally
      rw [hpc, hmove.maxEntries]
      rcases hmove.gate with ⟨hroom, hcount⟩ | hle
      · -- Found below the limit: then all calls may have a claim.
        have hcard := number_le_card MarkPc.pastGate (Function.update s.pc i p')
        simp only [GuardShared.full, ge_iff_le, decide_eq_false_iff_not] at hroom
        omega
      · omega
    · have hle := hmove.count_le
      rw [hpc, hmove.maxEntries]
      omega

/-- **The count is exact and bounded**: after every interleaving of calls, of
which at most `n` run at a time, and of sweeps, evictions included, `count` is
the number of entries whenever no shard is locked, and never more than
`maxEntries + n - 1`. -/
theorem count_accounted (n : Nat) (window maxEntries now : Int)
    {tr : List ((Option (Fin n) × GuardAct) × Option Verdict)} {s : GuardThreads (Fin n)}
    (hrun : (guardMachine (Fin n)).Run (guardStart (Fin n) window maxEntries now) tr s) :
    ((∀ j, s.shared.locks j = none) → s.shared.guard.count = s.shared.guard.total) ∧
      s.shared.guard.count ≤ s.shared.guard.maxEntries + n - 1 := by
  have hinv : CountInv s := hrun.invariant (I := fun _ s => CountInv s)
    (countInv_start window maxEntries now) fun _ _ _ _ _ hi hs => hi.step hs
  refine ⟨fun hfree => ?_, ?_⟩
  · -- Without a lock nobody is inside a shard, and nothing is owed.
    have hout : ∀ o, heldShard s o = none := by
      intro o
      cases hheld : heldShard s o with
      | none => rfl
      | some j =>
          have hlock := hinv.owned o j hheld
          rw [hfree j] at hlock
          cases hlock
    have hcalls : tally MarkPc.owes s.pc = 0 :=
      tally_eq_zero fun i => MarkPc.owes_eq_zero (hout (some i))
    have hgc := GcPc.owes_eq_zero (hout none)
    have hsettled := hinv.settled
    omega
  · have hbound := hinv.bound
    rw [Fintype.card_fin] at hbound
    omega

/-- Two calls read the gate of an empty guard for one entry, and both insert. -/
def overshoot : List (Option (Fin 2) × GuardAct) :=
  [(some 0, .call [1]), (some 1, .call [2]), (some 0, .go), (some 1, .go),
    (some 0, .go), (some 0, .clock 5 []), (some 0, .go), (some 0, .go), (some 0, .go),
    (some 1, .go), (some 1, .clock 6 []), (some 1, .go), (some 1, .go), (some 1, .go)]

/-- The bound is met. -/
theorem count_accounted_overshoot :
    ∃ tr s, (guardMachine (Fin 2)).Run (guardStart (Fin 2) 90 1 0) tr s ∧
      (∀ j, s.shared.locks j = none) ∧ s.shared.guard.count = 2 ∧
      s.shared.guard.maxEntries = 1 ∧
      (((∀ j, s.shared.locks j = none) → s.shared.guard.count = s.shared.guard.total) ∧
        s.shared.guard.count ≤ s.shared.guard.maxEntries + (2 : Nat) - 1) := by
  obtain ⟨tr, s, hrun, hfree, hcount, hmax⟩ : ∃ tr s,
      (guardMachine (Fin 2)).Run (guardStart (Fin 2) 90 1 0) tr s ∧
      (∀ j, s.shared.locks j = none) ∧ s.shared.guard.count = 2 ∧
      s.shared.guard.maxEntries = 1 := by
    refine Machine.Run.exists_of_exec overshoot ?_
    decide +kernel
  exact ⟨tr, s, hrun, hfree, hcount, hmax, count_accounted 2 90 1 0 hrun⟩

end Reality
