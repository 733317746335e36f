import Reality.Kit.Streak
import Reality.Refresh.Tokens

/-!
# When a target is probed next

`failCount` is meant to count the failures in a row, and the delay is drawn from it. The
counter is written some time after the probe has ended, by a callback that has the token
of its entry; so whenever a timer is armed, the counter and the delay are those of the
probes that have ended.
-/

namespace Reality

open Kit Threads

variable {ι : Type}

/-! ## What a step does to the counter -/

/-- The result of a probe of entry `id` that the step ended. -/
def RefreshEvent.endedResult (id : Nat) : RefreshEvent → Option Bool
  | .ended k _ success => if k = id then some success else none
  | _ => none

/-- How many of the last probes of entry `id` failed in a row. -/
def failuresOf (id : Nat) (tr : RefreshTraceOf ι) : Nat :=
  streak false (tr.filterMap fun x => x.2.endedResult id)

/-- The count after one more probe, if there was one. -/
def countResult (n : Nat) : Option Bool → Nat
  | none => n
  | some true => 0
  | some false => n + 1

theorem failuresOf_concat (id : Nat) (tr : RefreshTraceOf ι)
    (x : (ι × RefreshAct) × RefreshEvent) :
    failuresOf id (tr ++ [x]) = countResult (failuresOf id tr) (x.2.endedResult id) := by
  unfold failuresOf
  rw [List.filterMap_append]
  cases hx : x.2.endedResult id with
  | none => simp [hx, countResult]
  | some success =>
      have hlast : [x].filterMap (fun x => x.2.endedResult id) = [success] := by simp [hx]
      rw [hlast, streak_concat]
      cases success <;> simp [countResult]

/-- The delay fits the number of failures in a row. -/
def FitsFailures (n : Nat) (delay : Int) : Prop :=
  (n = 0 ∧ inRefreshRange delay = true) ∨ (0 < n ∧ delay = backoff n)

/-- What the counter of `k` is to the failures in a row while `p` is its callback: the
result of the last probe may not be in it yet. -/
def Tallies (n failCount : Nat) : RefreshPc → Prop
  | .probed _ success => n = countResult failCount (some success)
  | _ => n = failCount

section Local

variable {i : ι} {sh sh' : RefreshShared ι} {p p' : RefreshPc} {b : RefreshEvent}

/-- A step of somebody who is not the callback of `k` leaves its counter alone, and can
only stop its timer; or it allocates `k`. -/
theorem RefreshMove.uncounted (h : RefreshMove i sh p sh' p' b) {k : Nat}
    (hp : p.callback k = false) :
    b.endedResult k = none ∧
      (((sh'.entries k).failCount = (sh.entries k).failCount ∧
          ((sh'.entries k).timer = (sh.entries k).timer ∨ (sh'.entries k).timer = none)) ∨
        (sh.allocated = k ∧ (sh'.entries k).failCount = 0 ∧
          ∃ delay, inRefreshRange delay = true ∧ (sh'.entries k).timer = some delay)) := by
  cases h with
  | @add dest serverName alpn delay _ hdelay =>
      refine ⟨rfl, ?_⟩
      unfold RefreshShared.addTarget
      split
      · exact .inl ⟨rfl, .inl rfl⟩
      · by_cases hk : k = sh.allocated
        · subst hk
          exact .inr ⟨rfl, by simp [RefreshShared.setEntry], delay, hdelay,
            by simp [RefreshShared.setEntry]⟩
        · exact .inl (by simp [RefreshShared.setEntry, hk])
  | @remove dest id _ _ | @visit dest id _ | @fire id _ =>
      refine ⟨rfl, .inl ?_⟩
      by_cases hk : k = id
      · subst hk
        simp [RefreshShared.stopTimer, RefreshShared.setEntry]
      · simp [RefreshShared.stopTimer, RefreshShared.setEntry, hk]
  | @removed dest id _ | @visited dest id _ =>
      refine ⟨rfl, .inl ?_⟩
      by_cases hk : k = id
      · subst hk
        simp [RefreshShared.close, RefreshShared.setEntry]
      · simp [RefreshShared.close, RefreshShared.setEntry, hk]
  | @finish id old probe =>
      have hne : id ≠ k := by simpa [RefreshPc.callback] using hp
      refine ⟨by simp [RefreshEvent.endedResult, hne], .inl ?_⟩
      simp [RefreshShared.setEntry, hne.symm]
  | @reschedule id success delay _ _ =>
      have hne : id ≠ k := by simpa [RefreshPc.callback] using hp
      refine ⟨rfl, .inl ?_⟩
      unfold RefreshShared.reschedule
      split <;> simp [RefreshShared.setEntry, hne.symm]
  | start _ | stop _ => exact ⟨rfl, .inl (by simp)⟩
  | _ => exact ⟨rfl, .inl ⟨rfl, .inl rfl⟩⟩

/-- A callback that counts right goes on to, and arms the timer with a delay that fits. -/
theorem RefreshMove.counted (h : RefreshMove i sh p sh' p' b) {k n : Nat}
    (hp : p.callback k = true) (htimer : (sh.entries k).timer = none)
    (hn : Tallies n (sh.entries k).failCount p) :
    (p'.callback k = true →
        Tallies (countResult n (b.endedResult k)) (sh'.entries k).failCount p') ∧
      ∀ d, (sh'.entries k).timer = some d →
        (sh'.entries k).failCount = countResult n (b.endedResult k) ∧
          FitsFailures (countResult n (b.endedResult k)) d := by
  cases h with
  | queue _ | probe _ | give _ =>
      rw [htimer]
      exact ⟨fun _ => hn, fun d hd => by cases hd⟩
  | @finish id old probe =>
      have hid : id = k := by simpa [RefreshPc.callback] using hp
      subst hid
      have hn' : n = (sh.entries id).failCount := hn
      rw [timer_finish, htimer]
      refine ⟨fun _ => ?_, fun d hd => by cases hd⟩
      simp [Tallies, RefreshEvent.endedResult, RefreshShared.setEntry, hn']
  | @reschedule id success delay _ hdelay =>
      have hid : id = k := by simpa [RefreshPc.callback] using hp
      subst hid
      have hn' : n = countResult (sh.entries id).failCount (some success) := hn
      constructor
      · intro h
        cases h
      intro d hd
      unfold RefreshShared.reschedule at hd ⊢
      split at hd
      next hdest =>
        rw [if_pos hdest]
        cases success with
        | true =>
            simp only [RefreshShared.setEntry, Function.update_self, if_true] at hd ⊢
            cases hd
            exact ⟨hn'.symm, .inl ⟨hn', hdelay⟩⟩
        | false =>
            simp only [RefreshShared.setEntry, Function.update_self, Bool.false_eq_true,
              if_false] at hd ⊢
            cases hd
            have hsucc : n = (sh.entries id).failCount + 1 := hn'
            refine ⟨hn'.symm, .inr ⟨?_, ?_⟩⟩
            · show 0 < n
              omega
            · show backoff ((sh.entries id).failCount + 1) = backoff n
              rw [hsucc]
      · rw [htimer] at hd
        cases hd
  | _ => cases hp

end Local

/-! ## In every run -/

variable [Fintype ι]

/-- What holds along every run. -/
structure Delayed (tr : RefreshTraceOf ι) (s : RefreshState ι) : Prop where
  steady : Steady s
  armed : ∀ k d, (s.shared.entries k).timer = some d →
    (s.shared.entries k).failCount = failuresOf k tr ∧ FitsFailures (failuresOf k tr) d
  running : ∀ j k, (s.pc j).callback k = true →
    Tallies (failuresOf k tr) (s.shared.entries k).failCount (s.pc j)
  unprobed : ∀ k, s.shared.allocated ≤ k → failuresOf k tr = 0

variable [DecidableEq ι]


theorem Delayed.step {tr : RefreshTraceOf ι} {s s' : RefreshState ι} {i : ι} {a : RefreshAct}
    {b : RefreshEvent} (h : Delayed tr s) (hstep : s.step refreshStep i a = some (s', b)) :
    Delayed (tr ++ [((i, a), b)]) s' := by
  obtain ⟨p', hP, hpc⟩ := step_eq_some hstep
  have m := refreshStep_move hP
  constructor
  · exact h.steady.step hstep
  · intro k d hd
    rw [failuresOf_concat]
    cases hp : (s.pc i).callback k with
    | true => exact (m.counted hp (h.steady.unarmed hp) (h.running i k hp)).2 d hd
    | false =>
        obtain ⟨hnone, ⟨hcount, htimer⟩ | ⟨hk, hcount, delay, hdelay, htimer⟩⟩ := m.uncounted hp
        · rw [hnone, hcount]
          rcases htimer with htimer | htimer
          · rw [htimer] at hd
            exact h.armed k d hd
          · rw [htimer] at hd
            cases hd
        · have hzero := h.unprobed k (Nat.le_of_eq hk)
          rw [htimer] at hd
          cases hd
          rw [hnone, hcount]
          exact ⟨hzero.symm, .inl ⟨hzero, hdelay⟩⟩
  · intro j k hj
    rw [failuresOf_concat]
    revert hj
    apply forall_pc (Q := fun p => p.callback k = true →
      Tallies (countResult (failuresOf k tr) (b.endedResult k)) (s'.shared.entries k).failCount p)
      hpc
    · intro hp'
      cases hp : (s.pc i).callback k with
      | true => exact (m.counted hp (h.steady.unarmed hp) (h.running i k hp)).1 hp'
      | false =>
          -- The timer of `k` fires.
          obtain hbefore | ⟨hfired, harmed⟩ := m.callback hp'
          · rw [hp] at hbefore
            cases hbefore
          obtain ⟨d, hd⟩ := Option.isSome_iff_exists.mp harmed
          obtain ⟨hnone, ⟨hcount, -⟩ | ⟨hk, -⟩⟩ := m.uncounted hp
          · rw [hfired, hnone, hcount]
            exact (h.armed k d hd).1.symm
          · rw [h.steady.fresh k (Nat.le_of_eq hk)] at hd
            cases hd
    · intro j hj hcallback
      -- Then the goroutine that moves is another one.
      have hp : (s.pc i).callback k = false := by
        by_contra hi
        exact hj (h.steady.callback_unique hcallback (by simpa using hi))
      have hlt := h.steady.bounded j k hcallback
      obtain ⟨hnone, ⟨hcount, -⟩ | ⟨hk, -⟩⟩ := m.uncounted hp
      · rw [hnone, hcount]
        exact h.running j k hcallback
      · omega
  · intro k hk
    have hk' := Nat.le_trans m.allocated_le hk
    have hp : (s.pc i).callback k = false := by
      by_contra hi
      have hlt := h.steady.bounded i k (by simpa using hi)
      omega
    rw [failuresOf_concat, (m.uncounted hp).1]
    exact h.unprobed k hk'

theorem Delayed.run {tr : RefreshTraceOf ι} {s : RefreshState ι}
    (hrun : (refreshScheduler ι).Run (newRefreshManager ι) tr s) : Delayed tr s := by
  apply hrun.invariant
  · exact ⟨Steady.new, fun k d h => (by cases h), fun j k h => (by cases h), fun k _ => rfl⟩
  · intro tr s x s' b hinv hstep
    exact hinv.step hstep

theorem backoff_eq (n : Nat) : backoff n = 2 ^ min (n - 1) 3 * minute := by
  have hle : (2 : Int) ^ min (n - 1) 3 ≤ 2 ^ 3 := pow_le_pow_right₀ (by omega) (by omega)
  have hmin : (0 : Int) < minute := by decide
  apply if_neg
  nlinarith

/-- **The delay of a target is that of its last probes.** An armed timer runs for 20 to 30
minutes if the target was not probed or its last probe succeeded, and for 1, 2, 4 or 8
minutes, and 8 from then on, after 1, 2, 3, 4 and more failures in a row: a target that
fails is probed MORE often than one that does not, and the bound of ten minutes on the
backoff is never met. -/
theorem refresh_delay {tr : RefreshTraceOf ι} {s : RefreshState ι}
    (h : (refreshScheduler ι).Run (newRefreshManager ι) tr s) {id : Nat} {d : Int}
    (hd : (s.shared.entries id).timer = some d) :
    (failuresOf id tr = 0 → 20 * minute ≤ d ∧ d < 30 * minute) ∧
      (0 < failuresOf id tr → d = 2 ^ min (failuresOf id tr - 1) 3 * minute) := by
  obtain ⟨hzero, hrange⟩ | ⟨hpos, hbackoff⟩ := ((Delayed.run h).armed id d hd).2
  · constructor
    · intro _
      have hbounds := Bool.and_eq_true_iff.mp hrange
      exact ⟨of_decide_eq_true hbounds.1, of_decide_eq_true hbounds.2⟩
    · intro hpos
      omega
  · constructor
    · intro hzero
      omega
    · intro _
      rw [hbackoff, backoff_eq]

/-- A target whose first probe fails is probed again in a minute. -/
theorem refresh_delay_failed :
    ∃ tr s, (refreshScheduler Bool).Run (newRefreshManager Bool) tr s ∧
      failuresOf 0 tr = 1 ∧ (s.shared.entries 0).timer = some minute := by
  have hexec : ∃ tr s, (refreshScheduler Bool).Run (newRefreshManager Bool) tr s ∧
      failuresOf 0 tr = 1 ∧ (s.shared.entries 0).timer.isSome :=
    Machine.Run.exists_of_exec (sampleRefresh ++ sampleProbes.take 3) (by decide +kernel)
  obtain ⟨tr, s, h, hone, hsome⟩ := hexec
  obtain ⟨d, hd⟩ := Option.isSome_iff_exists.mp hsome
  have hdelay := (refresh_delay h hd).2 (by omega)
  rw [hone] at hdelay
  refine ⟨tr, s, h, hone, ?_⟩
  rw [hd, hdelay]
  rfl

end Reality
