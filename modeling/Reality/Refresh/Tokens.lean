import Reality.Kit.Streak
import Reality.Refresh.Moves

/-!
# One token for every target

What holds of the refresh scheduler in every interleaving. The mutex knows its owner,
and what is registered under a dest is an open entry of that dest. An entry has at
most one TOKEN, its armed timer or its running callback, and a registered entry has
exactly one until somebody removes it. So the fields `probeTarget` works on need no
lock, a registered target is never forgotten, and a target that was removed is probed
at most once more.
-/

namespace Reality

open Kit Threads

variable {ι : Type} [Fintype ι]

/-! ## The invariant -/

/-- The tokens of entry `k`. -/
def tokens (k : Nat) (s : RefreshState ι) : Int :=
  s.shared.armed k + number (RefreshPc.callback k) s.pc

/-- What holds of every state the scheduler reaches. -/
structure Steady (s : RefreshState ι) : Prop where
  calm : ∀ j, s.pc j ≠ .panicked
  owned : Owned (fun j => (s.pc j).locks) s.shared.lock
  registered : Registered s.shared
  removing : ∀ j t, (s.pc j).removes = some t → s.shared.targets.lookup t.1 = some t.2
  bounded : ∀ j k, (s.pc j).callback k = true → k < s.shared.allocated
  fresh : ∀ k, s.shared.allocated ≤ k → (s.shared.entries k).timer = none
  closed : ∀ k, (s.shared.entries k).stopped = true → k < s.shared.allocated
  /-- What a probe has read is what is there. -/
  held : ∀ j id old, s.pc j = .probing id old → (s.shared.entries id).entry = old
  watched : (number RefreshPc.watches s.pc : Int) + s.shared.spawned.length = s.shared.wg
  sending : number RefreshPc.holdsSem s.pc = s.shared.sem
  limited : s.shared.sem ≤ maxProbes
  one : ∀ k, tokens k s ≤ 1
  kept : ∀ dest k, s.shared.targets.lookup dest = some k →
    (∀ j, (s.pc j).removes ≠ some (dest, k)) → tokens k s = 1

namespace Steady

variable {s s' : RefreshState ι} {i : ι} {p' : RefreshPc} {b : RefreshEvent}

theorem new : Steady (newRefreshManager ι) where
  calm := fun j h => by cases h
  owned := fun j k h => by cases h
  registered := fun dest id h => by simp [newRefreshManager] at h
  removing := fun j t h => by cases h
  bounded := fun j k h => by cases h
  fresh := fun k h => rfl
  closed := fun k h => by cases h
  held := fun j id old h => by cases h
  watched := by
    rw [number_eq_zero fun _ => rfl]
    rfl
  sending := number_eq_zero fun _ => rfl
  limited := Nat.zero_le _
  one := fun k => by
    rw [tokens, number_eq_zero fun _ => rfl]
    simp [newRefreshManager, RefreshShared.armed]
  kept := fun dest k h => by simp [newRefreshManager] at h

theorem callbacks_le (h : Steady s) (k : Nat) : number (RefreshPc.callback k) s.pc ≤ 1 := by
  have hone := h.one k
  unfold tokens RefreshShared.armed at hone
  split at hone <;> omega

theorem callback_unique (h : Steady s) {j j' : ι} {k : Nat}
    (hj : (s.pc j).callback k = true) (hj' : (s.pc j').callback k = true) : j = j' :=
  eq_of_number_le_one (h.callbacks_le k) hj hj'

theorem unarmed (h : Steady s) {j : ι} {k : Nat} (hj : (s.pc j).callback k = true) :
    (s.shared.entries k).timer = none := by
  have hone := h.one k
  have hpos := number_pos (P := RefreshPc.callback k) hj
  unfold tokens RefreshShared.armed at hone
  split at hone
  · omega
  next harmed => simpa using harmed

theorem local_one (h : Steady s) (i : ι) (k : Nat) :
    s.shared.armed k + (s.pc i).carries k ≤ 1 := by
  have hone := h.one k
  unfold tokens at hone
  unfold RefreshPc.carries
  split
  next hcallback =>
    have hpos := number_pos (P := RefreshPc.callback k) hcallback
    omega
  · omega

theorem dests (h : Steady s) (j : ι) {id : Nat} {old : RefreshEntry}
    (hj : s.pc j = .probing id old) : old.dest = (s.shared.entries id).entry.dest := by
  rw [h.held j id old hj]

theorem locks_unique (h : Steady s) {j j' : ι} (hj : (s.pc j).locks = some ())
    (hj' : (s.pc j').locks = some ()) : j = j' :=
  h.owned.unique hj hj'

/-- The map does not change under somebody who takes a target out of it. -/
theorem targets_of_removes (h : Steady s) (m : RefreshMove i s.shared (s.pc i) s'.shared p' b)
    {j : ι} (hj : j ≠ i) {t : Bytes × Nat} (ht : (s.pc j).removes = some t) :
    s'.shared.targets = s.shared.targets := by
  have hlocks := RefreshPc.locks_of_removes ht
  have hmu : s.shared.mu = some j := h.owned j () hlocks
  obtain hsame | hfree | hmine := m.targets
  · exact hsame
  · rw [hmu] at hfree
    cases hfree
  · exact absurd (h.locks_unique hlocks hmine) hj

/-- A registered entry that nobody removes after the step was there before it, and
nobody removed it, or it is new. -/
theorem kept_before (h : Steady s) (m : RefreshMove i s.shared (s.pc i) s'.shared p' b)
    {dest : Bytes} {k : Nat} (hlookup : s'.shared.targets.lookup dest = some k) :
    (s.shared.targets.lookup dest = some k ∧ (s.pc i).removes ≠ some (dest, k)) ∨
      (k = s.shared.allocated ∧ s'.shared.armed k + p'.carries k = 1) := by
  generalize hp : s.pc i = p at m
  have hremoves := h.removing i
  rw [hp] at hremoves
  generalize s'.shared = sh' at m hlookup
  cases m with
  | clear _ => simp [RefreshShared.clear] at hlookup
  | @add d serverName alpn delay _ _ =>
      unfold RefreshShared.addTarget at hlookup
      split at hlookup
      · exact .inl ⟨hlookup, by simp [RefreshPc.removes]⟩
      · by_cases hd : dest = d
        · subst hd
          rw [AList.lookup_insert] at hlookup
          cases hlookup
          have hmade := timer_addTarget s.shared dest serverName alpn delay s.shared.allocated
          rw [if_pos ⟨by assumption, rfl⟩] at hmade
          exact .inr ⟨rfl, by simp [RefreshShared.armed, hmade, RefreshPc.carries,
            RefreshPc.callback]⟩
        · rw [AList.lookup_insert_ne hd] at hlookup
          exact .inl ⟨hlookup, by simp [RefreshPc.removes]⟩
  | @removed d id _ | @visited d id _ =>
      simp only [RefreshShared.close] at hlookup
      have hd : dest ≠ d := by
        intro hd
        rw [hd, AList.lookup_erase] at hlookup
        cases hlookup
      rw [AList.lookup_erase_ne hd] at hlookup
      exact .inl ⟨hlookup, by simp [RefreshPc.removes, Ne.symm hd]⟩
  | start _ | stop _ =>
      simp at hlookup
      exact .inl ⟨hlookup, by simp [RefreshPc.removes]⟩
  | @reschedule id success delay _ _ =>
      rw [reschedule_targets] at hlookup
      exact .inl ⟨hlookup, by simp [RefreshPc.removes]⟩
  | removedTwice hclosed | visitedTwice hclosed =>
      rw [(h.registered _ _ (hremoves _ rfl)).2.2] at hclosed
      cases hclosed
  | _ => exact .inl ⟨hlookup, by simp [RefreshPc.removes]⟩

/-- An entry that is not allocated has no token. -/
theorem local_allocated (h : Steady s) (j : ι) :
    s.shared.armed s.shared.allocated + (s.pc j).carries s.shared.allocated = 0 := by
  have hnot : ¬(s.pc j).callback s.shared.allocated = true :=
    fun hj => Nat.lt_irrefl _ (h.bounded j _ hj)
  simp [RefreshShared.armed, h.fresh _ (Nat.le_refl _), RefreshPc.carries, hnot]

theorem tokens_allocated (h : Steady s) : tokens s.shared.allocated s = 0 := by
  have hnone : number (RefreshPc.callback s.shared.allocated) s.pc = 0 := by
    apply number_eq_zero
    intro j
    by_contra hj
    exact Nat.lt_irrefl _ (h.bounded j s.shared.allocated (by simpa using hj))
  simp [tokens, hnone, RefreshShared.armed, h.fresh _ (Nat.le_refl _)]

theorem calm_step (h : Steady s) (m : RefreshMove i s.shared (s.pc i) s'.shared p' b) :
    p' ≠ .panicked := by
  apply m.calm h.registered (h.removing i)
  intro hwatches
  have hpos := number_pos (P := RefreshPc.watches) hwatches
  have hwatched := h.watched
  omega

theorem closed_step (h : Steady s) (m : RefreshMove i s.shared (s.pc i) s'.shared p' b) (k : Nat)
    (hk : (s'.shared.entries k).stopped = true) : k < s'.shared.allocated := by
  apply Nat.lt_of_lt_of_le _ m.allocated_le
  obtain hbefore | ⟨dest, hdest⟩ := m.stopped hk
  · exact h.closed k hbefore
  · exact (h.registered dest k (h.removing i _ hdest)).1

variable [DecidableEq ι]

/-- The tokens after a step, from what the step does to its own. -/
theorem tokens_move (hpc : s'.pc = Function.update s.pc i p') (k : Nat) :
    tokens k s' - tokens k s
      = (s'.shared.armed k + p'.carries k) - (s.shared.armed k + (s.pc i).carries k) := by
  have hnumber := number_update (RefreshPc.callback k) s.pc i p'
  rw [← hpc] at hnumber
  unfold tokens RefreshPc.carries
  omega

theorem one_step (h : Steady s) (m : RefreshMove i s.shared (s.pc i) s'.shared p' b)
    (hpc : s'.pc = Function.update s.pc i p') (k : Nat) : tokens k s' ≤ 1 := by
  have hmove := tokens_move hpc k
  have hone := h.one k
  cases m.token h.registered (h.local_one i k) with
  | kept heq => omega
  | lost hle _ => omega
  | made hk heq =>
      have hzero := h.tokens_allocated
      have hnone := h.local_allocated i
      rw [← hk] at hzero hnone
      omega

theorem kept_step (h : Steady s) (m : RefreshMove i s.shared (s.pc i) s'.shared p' b)
    (hpc : s'.pc = Function.update s.pc i p') {dest : Bytes} {k : Nat}
    (hlookup : s'.shared.targets.lookup dest = some k)
    (hfree : ∀ j, (s'.pc j).removes ≠ some (dest, k)) : tokens k s' = 1 := by
  have hmove := tokens_move hpc k
  have hmine : p'.removes ≠ some (dest, k) := by
    have hi := hfree i
    rw [hpc, Function.update_self] at hi
    exact hi
  obtain ⟨hold, hnot⟩ | ⟨hk, hmade⟩ := h.kept_before m hlookup
  · -- Nobody removed it before the step.
    have hbefore : tokens k s = 1 := by
      apply h.kept dest k hold
      intro j
      by_cases hj : j = i
      · rw [hj]
        exact hnot
      · have hsame := hfree j
        rw [hpc, Function.update_of_ne hj] at hsame
        exact hsame
    cases m.token h.registered (h.local_one i k) with
    | kept heq => omega
    | lost _ hgone => exact absurd (hgone dest hold) hmine
    | made hk _ =>
        have hzero := h.tokens_allocated
        rw [← hk] at hzero
        omega
  · have hzero := h.tokens_allocated
    have hnone := h.local_allocated i
    rw [← hk] at hzero hnone
    omega

theorem removing_step (h : Steady s) (m : RefreshMove i s.shared (s.pc i) s'.shared p' b)
    (hpc : s'.pc = Function.update s.pc i p') (j : ι) (t : Bytes × Nat)
    (ht : (s'.pc j).removes = some t) : s'.shared.targets.lookup t.1 = some t.2 := by
  revert ht
  apply forall_pc (Q := fun p => p.removes = some t → s'.shared.targets.lookup t.1 = some t.2) hpc
  · intro ht
    generalize s.pc i = p at m
    generalize s'.shared = sh' at m ⊢
    cases m with
    | remove _ hid | visit hid =>
        cases ht
        exact hid
    | _ => cases ht
  · intro j hj ht
    rw [h.targets_of_removes m hj ht]
    exact h.removing j t ht

theorem bounded_step (h : Steady s) (m : RefreshMove i s.shared (s.pc i) s'.shared p' b)
    (hpc : s'.pc = Function.update s.pc i p') (j : ι) (k : Nat)
    (hk : (s'.pc j).callback k = true) : k < s'.shared.allocated := by
  apply Nat.lt_of_lt_of_le _ m.allocated_le
  revert hk
  apply forall_pc (Q := fun p => p.callback k = true → k < s.shared.allocated) hpc
  · intro hk
    obtain hbefore | ⟨-, harmed⟩ := m.callback hk
    · exact h.bounded i k hbefore
    · by_contra hge
      rw [h.fresh k (by omega)] at harmed
      cases harmed
  · intro j _ hk
    exact h.bounded j k hk

theorem held_step (h : Steady s) (m : RefreshMove i s.shared (s.pc i) s'.shared p' b)
    (hpc : s'.pc = Function.update s.pc i p') (j : ι) (id : Nat) (old : RefreshEntry)
    (hj : s'.pc j = .probing id old) : (s'.shared.entries id).entry = old := by
  revert hj
  apply forall_pc (Q := fun p => p = .probing id old → (s'.shared.entries id).entry = old) hpc
  · intro hp
    subst hp
    generalize s.pc i = p at m
    generalize s'.shared = sh' at m ⊢
    cases m with
    | probe _ => rfl
  · intro j hj hp
    have hcallback : (s.pc j).callback id = true := by simp [hp, RefreshPc.callback]
    obtain ⟨-, hsame⟩ | ⟨old', probe, hold', -, -⟩ := m.entry (h.bounded j id hcallback)
    · rw [hsame]
      exact h.held j id old hp
    · -- Two goroutines would be the callback of one entry.
      have hmine : (s.pc i).callback id = true := by simp [hold', RefreshPc.callback]
      exact absurd (h.callback_unique hcallback hmine) hj

/-- **The step lemma.** -/
theorem step {a : RefreshAct} (h : Steady s) (hstep : s.step refreshStep i a = some (s', b)) :
    Steady s' := by
  obtain ⟨p', hP, hpc⟩ := step_eq_some hstep
  have m := refreshStep_move hP
  have hcalm := h.calm_step m
  have hdests : ∀ id old, s.pc i = .probing id old →
      old.dest = (s.shared.entries id).entry.dest := fun id old => h.dests i
  constructor
  · exact forall_pc (Q := (· ≠ .panicked)) hpc hcalm fun j _ => h.calm j
  · have hheld : (fun j => (s'.pc j).locks)
        = Function.update (fun j => (s.pc j).locks) i p'.locks := by
      rw [hpc]
      exact Function.comp_update RefreshPc.locks s.pc i p'
    rw [hheld]
    exact h.owned.move (m.lock hcalm)
  · exact m.registered h.registered (h.removing i) hdests
  · exact h.removing_step m hpc
  · exact h.bounded_step m hpc
  · intro k hk
    exact m.fresh h.fresh (h.bounded i) hk
  · exact h.closed_step m
  · exact h.held_step m hpc
  · have hnumber := number_update RefreshPc.watches s.pc i p'
    have hlocal := m.watchers hcalm
    have hold := h.watched
    rw [← hpc] at hnumber
    omega
  · have hnumber := number_update RefreshPc.holdsSem s.pc i p'
    have hlocal := m.semaphore
    have hold := h.sending
    rw [← hpc] at hnumber
    omega
  · exact m.sem_le h.limited
  · exact h.one_step m hpc
  · intro dest k
    exact h.kept_step m hpc

/-- **The run lemma.** -/
theorem run {tr : List ((ι × RefreshAct) × RefreshEvent)}
    (hrun : (refreshScheduler ι).Run (newRefreshManager ι) tr s) : Steady s :=
  hrun.invariant (I := fun _ s => Steady s) new fun _ _ _ _ _ hinv hstep => hinv.step hstep

end Steady

/-! ## Probes of one target come one after the other -/

variable [DecidableEq ι] {s s' : RefreshState ι}

/-- One goroutine adds a target; the other is its callback, up to its probe. -/
def sampleRefresh : List (Bool × RefreshAct) :=
  [(false, .addTarget (str "d:443") (str "a.io") (str "h2") (21 * minute)), (true, .fire 0),
    (true, .go)]

/-- Two probes of it, one that fails and one that does not. -/
def sampleProbes : List (Bool × RefreshAct) :=
  [(true, .go), (true, .finish ⟨none, none, 0⟩), (true, .reschedule (25 * minute)), (true, .go),
    (true, .fire 0), (true, .go), (true, .go), (true, .finish ⟨none, some sameResult, 0⟩)]

/-- **A registered target is waiting for its next probe or being probed.** Unless somebody
who has the mutex is taking it out of the map, its timer is armed and nobody is its
callback, or its timer is not armed and exactly one goroutine is. -/
theorem target_never_forgotten {tr : RefreshTraceOf ι}
    (h : (refreshScheduler ι).Run (newRefreshManager ι) tr s) {dest : Bytes} {id : Nat}
    (hid : s.shared.targets.lookup dest = some id)
    (hfree : ∀ j, (s.pc j).removes ≠ some (dest, id)) :
    ((s.shared.entries id).timer.isSome ∧ ∀ j, (s.pc j).callback id = false) ∨
      ((s.shared.entries id).timer = none ∧ ∃! j, (s.pc j).callback id = true) := by
  have hsteady := Steady.run h
  have hone := hsteady.kept dest id hid hfree
  by_cases hcallback : ∃ j, (s.pc j).callback id = true
  · obtain ⟨j, hj⟩ := hcallback
    exact .inr ⟨hsteady.unarmed hj, j, hj, fun j' hj' => hsteady.callback_unique hj' hj⟩
  · have hnot : ∀ j, (s.pc j).callback id = false := by simpa using hcallback
    have hzero := number_eq_zero hnot
    rw [tokens, hzero, RefreshShared.armed] at hone
    split at hone
    next harmed => exact .inl ⟨harmed, hnot⟩
    · simp at hone

theorem target_never_forgotten_queued :
    ∃ tr s, (refreshScheduler Bool).Run (newRefreshManager Bool) tr s ∧
      s.shared.targets.lookup (str "d:443") = some 0 ∧
      (s.shared.entries 0).timer = none ∧ ∃! j, (s.pc j).callback 0 = true := by
  have hexec : ∃ tr s, (refreshScheduler Bool).Run (newRefreshManager Bool) tr s ∧
      s.shared.targets.lookup (str "d:443") = some 0 ∧
      (∀ j, (s.pc j).removes ≠ some (str "d:443", 0)) ∧ (s.shared.entries 0).timer = none :=
    Machine.Run.exists_of_exec sampleRefresh (by decide +kernel)
  obtain ⟨tr, s, h, hid, hfree, hnone⟩ := hexec
  refine ⟨tr, s, h, hid, hnone, ?_⟩
  obtain ⟨harmed, -⟩ | ⟨-, hcallback⟩ := target_never_forgotten h hid hfree
  · rw [hnone] at harmed
    cases harmed
  · exact hcallback

/-! ## A target that was removed -/

theorem Steady.stopped_step {i : ι} {a : RefreshAct} {b : RefreshEvent} (h : Steady s)
    (hstep : s.step refreshStep i a = some (s', b)) {id : Nat}
    (hid : (s.shared.entries id).stopped = true) : (s'.shared.entries id).stopped = true := by
  obtain ⟨p', hP, -⟩ := step_eq_some hstep
  have hages := (refreshStep_move hP).ages (h.closed id hid) fun k old => h.dests i
  exact hages.stopped hid

/-- **A stopped entry is probed at most once more.** Once `stopCh` of the entry is closed,
whatever goes on, at most one probe of it still begins: that of a callback which was past
its test and waited for `sem`. -/
theorem removed_probed_once {tr tr' : RefreshTraceOf ι}
    (h : (refreshScheduler ι).Run (newRefreshManager ι) tr s) {id : Nat}
    (hid : (s.shared.entries id).stopped = true) (h' : (refreshScheduler ι).Run s tr' s') :
    (tr'.map Prod.snd).count (.probe id) ≤ 1 := by
  have hsteady := Steady.run h
  have hwaits : number (RefreshPc.waits id) s.pc ≤ 1 := by
    have hle := number_mono (P := RefreshPc.waits id) (Q := RefreshPc.callback id)
      (fun p hp => RefreshPc.callback_of_waits hp) s.pc
    have hone := hsteady.callbacks_le id
    omega
  have hinv := h'.invariant
    (I := fun tr' s' => Steady s' ∧ (s'.shared.entries id).stopped = true ∧
      (tr'.map Prod.snd).count (.probe id) + number (RefreshPc.waits id) s'.pc ≤ 1)
    ⟨hsteady, hid, by simpa using hwaits⟩ ?_
  · omega
  · intro tr₁ s₁ x s₂ b hinv hstep
    obtain ⟨hst, hclosed, hcount⟩ := hinv
    refine ⟨hst.step hstep, hst.stopped_step hstep hclosed, ?_⟩
    obtain ⟨p', hP, hpc⟩ := step_eq_some hstep
    have hlocal := (refreshStep_move hP).waits hclosed
    have hnumber := number_update (RefreshPc.waits id) s₁.pc x.1 p'
    rw [← hpc] at hnumber
    rw [List.map_append, List.count_append, List.map_singleton, List.count_singleton]
    by_cases hb : b = .probe id
    · simp only [hb, if_true, beq_self_eq_true] at hlocal ⊢
      omega
    · have hb' : (b == .probe id) = false := by simpa using hb
      simp only [hb, hb', if_false, Bool.false_eq_true] at hlocal ⊢
      omega

/-- The callback waits for `sem` while the target is removed. -/
theorem removed_probed_once_late :
    ∃ tr s tr' s', (refreshScheduler Bool).Run (newRefreshManager Bool) tr s ∧
      (refreshScheduler Bool).Run s tr' s' ∧ (s.shared.entries 0).stopped = true ∧
      (tr'.map Prod.snd).count (.probe 0) = 1 := by
  have hexec : ∃ tr s tr' s', (refreshScheduler Bool).Run (newRefreshManager Bool) tr s ∧
      (refreshScheduler Bool).Run s tr' s' ∧ (s.shared.entries 0).stopped = true ∧
      0 < (tr'.map Prod.snd).count (.probe 0) :=
    Machine.Run.exists_of_exec_exec
      (sampleRefresh ++ [(false, .removeTarget (str "d:443")), (false, .go)]) [(true, .go)]
      (by decide +kernel)
  obtain ⟨tr, s, tr', s', h, h', hid, hpos⟩ := hexec
  exact ⟨tr, s, tr', s', h, h', hid, Nat.le_antisymm (removed_probed_once h hid h') hpos⟩

end Reality
