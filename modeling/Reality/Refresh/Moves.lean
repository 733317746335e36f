import Reality.Refresh.Scheduler

/-!
# What the steps of the refresh scheduler keep

One lemma for each thing a goroutine of the scheduler can do to what it shares: to the
mutex, to the map of targets, to an entry and its timer, to `wg` and to `sem`. Nothing
here is about more than one goroutine.
-/

namespace Reality

open Kit Threads

variable {ι : Type} {i : ι} {sh sh' : RefreshShared ι} {p p' : RefreshPc} {b : RefreshEvent}

/-! ## The mutex -/

namespace RefreshPc

/-- It holds the mutex. -/
def locks : RefreshPc → Option Unit
  | .removing _ _ | .sweeping | .sweepingOne _ _ => some ()
  | _ => none

/-- The target it is taking out of the map. -/
def removes : RefreshPc → Option (Bytes × Nat)
  | .removing dest id | .sweepingOne dest id => some (dest, id)
  | _ => none

/-- It is the callback of entry `id`, and did not arm the timer again. -/
def callback (id : Nat) : RefreshPc → Bool
  | .fired k | .queued k | .probing k _ | .probed k _ => k = id
  | _ => false

/-- It is past the test of `stopCh`, and did not begin its probe. -/
def waits (id : Nat) : RefreshPc → Bool
  | .queued k => k = id
  | _ => false

/-- It is between its send to `sem` and its receive. -/
def holdsSem : RefreshPc → Bool
  | .probing _ _ | .probed _ _ | .leaving => true
  | _ => false

/-- It is the goroutine of a `Start`, and `wg` counts it. -/
def watches : RefreshPc → Bool
  | .watching _ | .sweeping | .sweepingOne _ _ | .swept => true
  | _ => false

theorem locks_of_removes {p : RefreshPc} {t : Bytes × Nat} (h : p.removes = some t) :
    p.locks = some () := by
  cases p with
  | removing | sweepingOne => rfl
  | _ => cases h

theorem callback_of_waits {p : RefreshPc} {id : Nat} (h : p.waits id = true) :
    p.callback id = true := by
  cases p with
  | queued k => exact h
  | _ => cases h

end RefreshPc

@[simp] theorem addTarget_mu (s : RefreshShared ι) (dest serverName alpn : Bytes) (delay : Int) :
    (s.addTarget dest serverName alpn delay).mu = s.mu := by
  unfold RefreshShared.addTarget
  split <;> rfl

@[simp] theorem reschedule_mu (s : RefreshShared ι) (id : Nat) (success : Bool) (delay : Int) :
    (s.reschedule id success delay).mu = s.mu := by
  unfold RefreshShared.reschedule
  split <;> rfl

@[simp] theorem start_mu (s : RefreshShared ι) : s.start.mu = s.mu := by
  unfold RefreshShared.start
  split <;> rfl

@[simp] theorem stop_mu (s : RefreshShared ι) : s.stop.mu = s.mu := by
  unfold RefreshShared.stop
  split <;> rfl

/-- The mutex as a lock that names its owner. -/
def RefreshShared.lock (s : RefreshShared ι) : Unit → Option ι := fun _ => s.mu

theorem lock_taken (h : sh.mu = none) (h' : sh'.mu = some i) :
    LockMove i none (some ()) sh.lock sh'.lock := by
  have heq : sh'.lock = Function.update sh.lock () (some i) := by
    funext u
    simp [RefreshShared.lock, h']
  rw [heq]
  exact .acquire h

theorem lock_given (h' : sh'.mu = none) : LockMove i (some ()) none sh.lock sh'.lock := by
  have heq : sh'.lock = Function.update sh.lock () none := by
    funext u
    simp [RefreshShared.lock, h']
  rw [heq]
  exact .release

theorem lock_kept (h : sh'.mu = sh.mu) (l : Option Unit) : LockMove i l l sh.lock sh'.lock := by
  have heq : sh'.lock = sh.lock := by
    funext u
    exact h
  rw [heq]
  exact .keep

theorem RefreshMove.lock (h : RefreshMove i sh p sh' p' b) (hcalm : p' ≠ .panicked) :
    LockMove i p.locks p'.locks sh.lock sh'.lock := by
  cases h with
  | remove hmu _ | wake hmu => exact lock_taken hmu rfl
  | removed _ | sweep => exact lock_given rfl
  | removedTwice _ | visitedTwice _ => exact absurd rfl hcalm
  | _ => exact lock_kept (by simp [RefreshShared.clear, RefreshShared.stopTimer,
      RefreshShared.setEntry, RefreshShared.close]) _

/-! ## The map of targets -/

/-- An entry under its dest is allocated, is an entry of that dest, and is open. -/
def Registered (s : RefreshShared ι) : Prop :=
  ∀ dest id, s.targets.lookup dest = some id →
    id < s.allocated ∧ (s.entries id).entry.dest = dest ∧ (s.entries id).stopped = false

theorem entryAfter_dest (v : ProbeVerdict) (entry : RefreshEntry) (result : ProbeResult) :
    (v.entryAfter entry result).dest = entry.dest := by
  cases v <;> simp [ProbeVerdict.entryAfter, (noteChange_same entry result).2.1]

/-- A probe does not change whom the entry is for. -/
theorem afterProbe_dest (entry : RefreshEntry) (probe : TimedProbe) :
    (afterProbe entry probe).1.dest = entry.dest := by
  unfold afterProbe
  split
  · rfl
  · exact entryAfter_dest _ _ _

/-- What `Registered` asks of an entry does not change. -/
structure SameTarget (e e' : ScheduledEntry) : Prop where
  dest : e'.entry.dest = e.entry.dest
  stopped : e'.stopped = e.stopped

theorem Registered.setEntry (h : Registered sh) {id : Nat} {e : ScheduledEntry}
    (he : SameTarget (sh.entries id) e) : Registered (sh.setEntry id e) := by
  intro dest k hk
  obtain ⟨hlt, hdest, hopen⟩ := h dest k hk
  by_cases hki : k = id
  · subst hki
    simp [RefreshShared.setEntry, he.dest, he.stopped, hlt, hdest, hopen]
  · simp [RefreshShared.setEntry, Function.update_of_ne hki, hlt, hdest, hopen]

theorem Registered.stopTimer {s : RefreshShared ι} (h : Registered s) (id : Nat) :
    Registered (s.stopTimer id) :=
  h.setEntry (e := { s.entries id with timer := none }) ⟨rfl, rfl⟩

theorem Registered.addTarget (h : Registered sh) (dest serverName alpn : Bytes) (delay : Int) :
    Registered (sh.addTarget dest serverName alpn delay) := by
  unfold RefreshShared.addTarget
  split
  · exact h
  intro d k hk
  by_cases hd : d = dest
  · subst hd
    rw [AList.lookup_insert] at hk
    cases hk
    simp [RefreshShared.setEntry, newRefreshEntry]
  · rw [AList.lookup_insert_ne hd] at hk
    obtain ⟨hlt, hdest, hopen⟩ := h d k hk
    -- The new entry is none of those that are there.
    have hk : k ≠ sh.allocated := by omega
    exact ⟨Nat.lt_succ_of_lt hlt, by simp [RefreshShared.setEntry, Function.update_of_ne hk, hdest],
      by simp [RefreshShared.setEntry, Function.update_of_ne hk, hopen]⟩

theorem Registered.close {s : RefreshShared ι} (h : Registered s) {dest : Bytes} {id : Nat}
    (hid : s.targets.lookup dest = some id) : Registered (s.close dest id) := by
  intro d k hk
  by_cases hd : d = dest
  · subst hd
    have hnone : (s.targets.erase d).lookup d = none := AList.lookup_erase d s.targets
    simp only [RefreshShared.close] at hk
    rw [hnone] at hk
    cases hk
  · simp only [RefreshShared.close] at hk
    rw [AList.lookup_erase_ne hd] at hk
    obtain ⟨hlt, hdest, hopen⟩ := h d k hk
    have hki : k ≠ id := by
      intro he
      subst he
      exact hd (hdest.symm.trans (h dest k hid).2.1)
    exact ⟨hlt,
      by simp [RefreshShared.close, RefreshShared.setEntry, Function.update_of_ne hki, hdest],
      by simp [RefreshShared.close, RefreshShared.setEntry, Function.update_of_ne hki, hopen]⟩

/-! ## What a step does to entries -/

@[simp] theorem stop_entries (s : RefreshShared ι) : s.stop.entries = s.entries := by
  unfold RefreshShared.stop
  split <;> rfl

@[simp] theorem stop_targets (s : RefreshShared ι) : s.stop.targets = s.targets := by
  unfold RefreshShared.stop
  split <;> rfl

@[simp] theorem stop_allocated (s : RefreshShared ι) : s.stop.allocated = s.allocated := by
  unfold RefreshShared.stop
  split <;> rfl

@[simp] theorem start_entries (s : RefreshShared ι) : s.start.entries = s.entries := by
  unfold RefreshShared.start
  split <;> rfl

@[simp] theorem start_targets (s : RefreshShared ι) : s.start.targets = s.targets := by
  unfold RefreshShared.start
  split <;> rfl

@[simp] theorem start_allocated (s : RefreshShared ι) : s.start.allocated = s.allocated := by
  unfold RefreshShared.start
  split <;> rfl

@[simp] theorem reschedule_targets (s : RefreshShared ι) (id : Nat) (success : Bool)
    (delay : Int) : (s.reschedule id success delay).targets = s.targets := by
  unfold RefreshShared.reschedule
  split <;> rfl

@[simp] theorem reschedule_allocated (s : RefreshShared ι) (id : Nat) (success : Bool)
    (delay : Int) : (s.reschedule id success delay).allocated = s.allocated := by
  unfold RefreshShared.reschedule
  split <;> rfl

theorem reschedule_sameTarget (s : RefreshShared ι) (id : Nat) (success : Bool) (delay : Int)
    (k : Nat) : SameTarget (s.entries k) ((s.reschedule id success delay).entries k) := by
  unfold RefreshShared.reschedule
  split
  · by_cases hk : k = id
    · subst hk
      cases success <;> constructor <;> simp [RefreshShared.setEntry]
    · constructor <;> simp [RefreshShared.setEntry, Function.update_of_ne hk]
  · exact ⟨rfl, rfl⟩

/-- How an entry that is there can change: its dest stays, and once stopped it is
stopped for good. -/
structure Ages (e e' : ScheduledEntry) : Prop where
  dest : e'.entry.dest = e.entry.dest
  stopped : e.stopped = true → e'.stopped = true

theorem ages_refl (e : ScheduledEntry) : Ages e e := ⟨rfl, id⟩

theorem ages_setEntry {id : Nat} {e : ScheduledEntry} (he : Ages (sh.entries id) e) (k : Nat) :
    Ages (sh.entries k) ((sh.setEntry id e).entries k) := by
  by_cases hk : k = id
  · subst hk
    simpa [RefreshShared.setEntry] using he
  · simpa [RefreshShared.setEntry, Function.update_of_ne hk] using ages_refl (sh.entries k)

theorem ages_stopTimer (s : RefreshShared ι) (id k : Nat) :
    Ages (s.entries k) ((s.stopTimer id).entries k) :=
  ages_setEntry (e := { s.entries id with timer := none }) ⟨rfl, fun h => h⟩ k

theorem ages_close (s : RefreshShared ι) (dest : Bytes) (id k : Nat) :
    Ages (s.entries k) ((s.close dest id).entries k) :=
  ages_setEntry (e := { s.entries id with stopped := true }) ⟨rfl, fun _ => rfl⟩ k

theorem RefreshMove.ages (h : RefreshMove i sh p sh' p' b) {k : Nat} (hk : k < sh.allocated)
    (hdest : ∀ id old, p = .probing id old → old.dest = (sh.entries id).entry.dest) :
    Ages (sh.entries k) (sh'.entries k) := by
  cases h with
  | add _ _ =>
      unfold RefreshShared.addTarget
      split
      · exact ages_refl _
      · have hne : k ≠ sh.allocated := by omega
        simpa [RefreshShared.setEntry, Function.update_of_ne hne] using ages_refl (sh.entries k)
  | remove _ _ => exact ages_stopTimer { sh with mu := some i } _ k
  | visit _ | fire _ => exact ages_stopTimer sh _ k
  | removed _ => exact ages_close { sh with mu := none } _ _ k
  | visited _ => exact ages_close sh _ _ k
  | @finish id old probe =>
      have hsame := (afterProbe_dest old probe).trans (hdest id old rfl)
      exact ages_setEntry (e := { sh.entries id with entry := (afterProbe old probe).1 })
        ⟨hsame, fun hs => hs⟩ k
  | @reschedule id success delay _ _ =>
      have hsame := reschedule_sameTarget sh id success delay k
      exact ⟨hsame.dest, fun hs => hsame.stopped.trans hs⟩
  | start _ => simpa using ages_refl (sh.entries k)
  | stop _ => simpa using ages_refl (sh.entries k)
  | _ => exact ages_refl _

/-- The map changes only in the hands of somebody who may change it. -/
theorem RefreshMove.targets (h : RefreshMove i sh p sh' p' b) :
    sh'.targets = sh.targets ∨ sh.mu = none ∨ p.locks = some () := by
  cases h with
  | clear hmu | add hmu _ => exact .inr (.inl hmu)
  | removed _ | visited _ => exact .inr (.inr rfl)
  | start _ | stop _ | reschedule _ _ => exact .inl (by simp)
  | _ => exact .inl rfl

theorem RefreshMove.registered (h : RefreshMove i sh p sh' p' b) (hreg : Registered sh)
    (hremoves : ∀ t, p.removes = some t → sh.targets.lookup t.1 = some t.2)
    (hdest : ∀ id old, p = .probing id old → old.dest = (sh.entries id).entry.dest) :
    Registered sh' := by
  cases h with
  | start _ =>
      intro dest id hid
      simpa using hreg dest id (by simpa using hid)
  | stop _ =>
      intro dest id hid
      simpa using hreg dest id (by simpa using hid)
  | clear _ =>
      intro dest id hid
      simp [RefreshShared.clear] at hid
  | add _ _ => exact hreg.addTarget _ _ _ _
  | remove _ _ | visit _ | fire _ => exact Registered.stopTimer hreg _
  | removed _ | visited _ => exact Registered.close hreg (hremoves _ rfl)
  | @finish id old probe =>
      have hsame := (afterProbe_dest old probe).trans (hdest id old rfl)
      exact hreg.setEntry (e := { sh.entries id with entry := (afterProbe old probe).1 })
        ⟨hsame, rfl⟩
  | @reschedule id success delay _ _ =>
      intro dest k hk
      rw [reschedule_targets] at hk
      obtain ⟨hlt, hkdest, hopen⟩ := hreg dest k hk
      have hsame := reschedule_sameTarget sh id success delay k
      exact ⟨by simpa using hlt, hsame.dest.trans hkdest, hsame.stopped.trans hopen⟩
  | _ => exact hreg

/-! ## Goroutines and timers that are there -/

theorem RefreshMove.allocated_le (h : RefreshMove i sh p sh' p' b) :
    sh.allocated ≤ sh'.allocated := by
  cases h with
  | add _ _ =>
      unfold RefreshShared.addTarget
      split
      · exact Nat.le_refl _
      · exact Nat.le_succ _
  | start _ | stop _ | reschedule _ _ => simp
  | _ => exact Nat.le_refl _

/-- A callback comes from a timer that was armed. -/
theorem RefreshMove.callback (h : RefreshMove i sh p sh' p' b) {k : Nat}
    (hk : p'.callback k = true) :
    p.callback k = true ∨ (p' = .fired k ∧ (sh.entries k).timer.isSome) := by
  cases h with
  | @fire id harmed =>
      have hid : id = k := by simpa [RefreshPc.callback] using hk
      subst hid
      exact .inr ⟨rfl, harmed⟩
  | queue _ | probe _ | finish => exact .inl hk
  | _ => cases hk

theorem timer_stopTimer (s : RefreshShared ι) (id k : Nat) :
    ((s.stopTimer id).entries k).timer = if k = id then none else (s.entries k).timer := by
  by_cases hk : k = id
  · subst hk
    simp [RefreshShared.stopTimer, RefreshShared.setEntry]
  · simp [RefreshShared.stopTimer, RefreshShared.setEntry, hk]

theorem timer_close (s : RefreshShared ι) (dest : Bytes) (id k : Nat) :
    ((s.close dest id).entries k).timer = (s.entries k).timer := by
  by_cases hk : k = id
  · subst hk
    simp [RefreshShared.close, RefreshShared.setEntry]
  · simp [RefreshShared.close, RefreshShared.setEntry, Function.update_of_ne hk]

theorem timer_finish (s : RefreshShared ι) (id : Nat) (e : RefreshEntry) (k : Nat) :
    ((s.setEntry id { s.entries id with entry := e }).entries k).timer
      = (s.entries k).timer := by
  by_cases hk : k = id
  · subst hk
    simp [RefreshShared.setEntry]
  · simp [RefreshShared.setEntry, Function.update_of_ne hk]

theorem timer_addTarget (s : RefreshShared ι) (dest serverName alpn : Bytes) (delay : Int)
    (k : Nat) :
    ((s.addTarget dest serverName alpn delay).entries k).timer
      = if dest ∉ s.targets ∧ k = s.allocated then some delay else (s.entries k).timer := by
  unfold RefreshShared.addTarget
  by_cases hd : dest ∈ s.targets
  · simp [hd]
  · by_cases hk : k = s.allocated
    · subst hk
      simp [hd, RefreshShared.setEntry]
    · simp [hd, hk, RefreshShared.setEntry]

/-- The delay a callback arms its timer with. -/
def nextDelay (failCount : Nat) (success : Bool) (delay : Int) : Int :=
  if success then delay else backoff (failCount + 1)

theorem timer_reschedule (s : RefreshShared ι) (id : Nat) (success : Bool) (delay : Int)
    (k : Nat) :
    ((s.reschedule id success delay).entries k).timer
      = if (s.entries id).entry.dest ∈ s.targets ∧ k = id
        then some (nextDelay (s.entries id).failCount success delay)
        else (s.entries k).timer := by
  unfold RefreshShared.reschedule
  by_cases hd : (s.entries id).entry.dest ∈ s.targets
  · by_cases hk : k = id
    · subst hk
      cases success <;> simp [hd, RefreshShared.setEntry, nextDelay]
    · simp [hd, hk, RefreshShared.setEntry]
  · simp [hd]

/-- `wg` and the goroutines it counts move together. -/
theorem RefreshMove.watchers (h : RefreshMove i sh p sh' p' b) (hcalm : p' ≠ .panicked) :
    (sh'.spawned.length - sh'.wg : Int) + (if p'.watches then 1 else 0)
      = (sh.spawned.length - sh.wg : Int) + (if p.watches then 1 else 0) := by
  cases h with
  | start _ =>
      unfold RefreshShared.start
      split
      · rfl
      · simp [RefreshPc.watches]
  | stop _ =>
      unfold RefreshShared.stop
      split <;> rfl
  | add _ _ =>
      unfold RefreshShared.addTarget
      split <;> rfl
  | reschedule _ _ =>
      unfold RefreshShared.reschedule
      split <;> rfl
  | watch hctx =>
      have hlen := List.length_erase_of_mem hctx
      have hpos := List.length_pos_of_mem hctx
      simp only [RefreshPc.watches, if_true, Bool.false_eq_true, if_false]
      omega
  | done hwg =>
      simp only [RefreshPc.watches, if_true, Bool.false_eq_true, if_false]
      omega
  | removedTwice _ | visitedTwice _ | negative _ => exact absurd rfl hcalm
  | _ => rfl

/-- `sem` holds a token for each callback between its send and its receive. -/
theorem RefreshMove.semaphore (h : RefreshMove i sh p sh' p' b) :
    -(sh'.sem : Int) + (if p'.holdsSem then 1 else 0)
      = -(sh.sem : Int) + (if p.holdsSem then 1 else 0) := by
  cases h with
  | start _ =>
      unfold RefreshShared.start
      split <;> rfl
  | stop _ =>
      unfold RefreshShared.stop
      split <;> rfl
  | add _ _ =>
      unfold RefreshShared.addTarget
      split <;> rfl
  | reschedule _ _ =>
      unfold RefreshShared.reschedule
      split <;> rfl
  | probe _ =>
      simp only [RefreshPc.holdsSem, if_true, Bool.false_eq_true, if_false]
      omega
  | leave hsem =>
      simp only [RefreshPc.holdsSem, if_true, Bool.false_eq_true, if_false]
      omega
  | _ => rfl

theorem RefreshMove.sem_le (h : RefreshMove i sh p sh' p' b) (hle : sh.sem ≤ maxProbes) :
    sh'.sem ≤ maxProbes := by
  cases h with
  | start _ =>
      unfold RefreshShared.start
      split <;> exact hle
  | stop _ =>
      unfold RefreshShared.stop
      split <;> exact hle
  | add _ _ =>
      unfold RefreshShared.addTarget
      split <;> exact hle
  | reschedule _ _ =>
      unfold RefreshShared.reschedule
      split <;> exact hle
  | probe hsem => exact hsem
  | leave _ => exact Nat.le_trans (Nat.sub_le _ _) hle
  | _ => exact hle

theorem RefreshMove.calm (h : RefreshMove i sh p sh' p' b) (hreg : Registered sh)
    (hremoves : ∀ t, p.removes = some t → sh.targets.lookup t.1 = some t.2)
    (hwg : p.watches = true → 0 < sh.wg) : p' ≠ .panicked := by
  intro hp
  cases h with
  | removedTwice hclosed | visitedTwice hclosed =>
      have hopen := (hreg _ _ (hremoves _ rfl)).2.2
      rw [hclosed] at hopen
      cases hopen
  | negative h0 =>
      have hpos := hwg rfl
      omega
  | _ => cases hp

theorem RefreshMove.fresh (h : RefreshMove i sh p sh' p' b)
    (hfresh : ∀ k, sh.allocated ≤ k → (sh.entries k).timer = none)
    (hbounded : ∀ k, p.callback k = true → k < sh.allocated) {k : Nat}
    (hk : sh'.allocated ≤ k) : (sh'.entries k).timer = none := by
  have hk' : sh.allocated ≤ k := Nat.le_trans h.allocated_le hk
  have hold := hfresh k hk'
  cases h with
  | start _ | stop _ => simpa using hold
  | @add dest serverName alpn delay _ _ =>
      rw [timer_addTarget, if_neg, hold]
      rintro ⟨hd, rfl⟩
      simp [RefreshShared.addTarget, hd] at hk
  | remove _ _ | visit _ | fire _ =>
      rw [timer_stopTimer]
      split
      · rfl
      · exact hold
  | removed _ | visited _ =>
      rw [timer_close]
      exact hold
  | finish =>
      rw [timer_finish]
      exact hold
  | @reschedule id success delay _ _ =>
      have hid := hbounded id (by simp [RefreshPc.callback])
      rw [timer_reschedule, if_neg, hold]
      rintro ⟨-, rfl⟩
      omega
  | _ => exact hold

/-- An entry is stopped by whoever takes it out of the map. -/
theorem RefreshMove.stopped (h : RefreshMove i sh p sh' p' b) {k : Nat}
    (hk : (sh'.entries k).stopped = true) :
    (sh.entries k).stopped = true ∨ ∃ dest, p.removes = some (dest, k) := by
  cases h with
  | @add dest serverName alpn delay _ _ =>
      unfold RefreshShared.addTarget at hk
      split at hk
      · exact .inl hk
      · by_cases hne : k = sh.allocated
        · simp [RefreshShared.setEntry, hne] at hk
        · simp [RefreshShared.setEntry, hne] at hk
          exact .inl hk
  | @remove dest id _ _ | @visit dest id _ | @fire id _ =>
      by_cases hne : k = id
      · subst hne
        simp [RefreshShared.stopTimer, RefreshShared.setEntry] at hk
        exact .inl hk
      · simp [RefreshShared.stopTimer, RefreshShared.setEntry, hne] at hk
        exact .inl hk
  | @removed dest id _ | @visited dest id _ =>
      by_cases hne : k = id
      · subst hne
        exact .inr ⟨dest, rfl⟩
      · simp [RefreshShared.close, RefreshShared.setEntry, hne] at hk
        exact .inl hk
  | @finish id old probe =>
      by_cases hne : k = id
      · subst hne
        simp [RefreshShared.setEntry] at hk
        exact .inl hk
      · simp [RefreshShared.setEntry, hne] at hk
        exact .inl hk
  | @reschedule id success delay _ _ =>
      rw [(reschedule_sameTarget sh id success delay k).stopped] at hk
      exact .inl hk
  | start _ | stop _ =>
      simp at hk
      exact .inl hk
  | _ => exact .inl hk

/-- The probe of entry `id` that the step ended. -/
def RefreshEvent.endedProbe (id : Nat) : RefreshEvent → Option TimedProbe
  | .ended k found _ => if k = id then some found else none
  | _ => none

/-- What `probeTarget` works on is written at the end of `probeTarget`. -/
theorem RefreshMove.entry (h : RefreshMove i sh p sh' p' b) {k : Nat} (hk : k < sh.allocated) :
    (b.endedProbe k = none ∧ (sh'.entries k).entry = (sh.entries k).entry) ∨
      ∃ old probe, p = .probing k old ∧ b.endedProbe k = some probe ∧
        (sh'.entries k).entry = (afterProbe old probe).1 := by
  cases h with
  | @finish id old probe =>
      by_cases hne : k = id
      · subst hne
        exact .inr ⟨old, probe, rfl, by simp [RefreshEvent.endedProbe],
          by simp [RefreshShared.setEntry]⟩
      · have hne' : id ≠ k := fun h => hne h.symm
        exact .inl ⟨by simp [RefreshEvent.endedProbe, hne'], by simp [RefreshShared.setEntry, hne]⟩
  | @add dest serverName alpn delay _ _ =>
      unfold RefreshShared.addTarget
      split
      · exact .inl ⟨rfl, rfl⟩
      · have hne : k ≠ sh.allocated := by omega
        exact .inl ⟨rfl, by simp [RefreshShared.setEntry, hne]⟩
  | @remove dest id _ _ | @visit dest id _ | @fire id _ =>
      by_cases hne : k = id
      · subst hne
        exact .inl ⟨rfl, by simp [RefreshShared.stopTimer, RefreshShared.setEntry]⟩
      · exact .inl ⟨rfl, by simp [RefreshShared.stopTimer, RefreshShared.setEntry, hne]⟩
  | @removed dest id _ | @visited dest id _ =>
      by_cases hne : k = id
      · subst hne
        exact .inl ⟨rfl, by simp [RefreshShared.close, RefreshShared.setEntry]⟩
      · exact .inl ⟨rfl, by simp [RefreshShared.close, RefreshShared.setEntry, hne]⟩
  | @reschedule id success delay _ _ =>
      unfold RefreshShared.reschedule
      split
      · by_cases hne : k = id
        · subst hne
          cases success <;> exact .inl ⟨rfl, by simp [RefreshShared.setEntry]⟩
        · exact .inl ⟨rfl, by simp [RefreshShared.setEntry, hne]⟩
      · exact .inl ⟨rfl, rfl⟩
  | start _ | stop _ => exact .inl ⟨rfl, by simp⟩
  | _ => exact .inl ⟨rfl, rfl⟩

/-- A step that begins a probe of a stopped entry takes a callback past the test; no step
puts one there. -/
theorem RefreshMove.waits (h : RefreshMove i sh p sh' p' b) {id : Nat}
    (hid : (sh.entries id).stopped = true) :
    (if b = .probe id then 1 else 0 : Int) + (if p'.waits id then 1 else 0)
      ≤ if p.waits id then 1 else 0 := by
  cases h with
  | @queue k hopen =>
      have hne : k ≠ id := by
        intro he
        rw [he, hid] at hopen
        cases hopen
      simp [RefreshPc.waits, hne]
  | @probe k hsem =>
      by_cases hk : k = id
      · simp [RefreshPc.waits, hk]
      · simp [RefreshPc.waits, hk]
  | _ => simp [RefreshPc.waits]

abbrev RefreshTraceOf (ι : Type) : Type := List ((ι × RefreshAct) × RefreshEvent)

/-- The token of `k`, where it is the armed timer. -/
def RefreshShared.armed (s : RefreshShared ι) (k : Nat) : Int :=
  if (s.entries k).timer.isSome then 1 else 0

/-- The token of `k`, where it is a callback. -/
def RefreshPc.carries (k : Nat) (p : RefreshPc) : Int := if p.callback k then 1 else 0

/-- What a step does to the token of `k`: it keeps it, loses it, which does not happen to
an entry that is registered unless the step begins to remove it, or makes it. -/
inductive TokenMove (k : Nat) (sh sh' : RefreshShared ι) (p p' : RefreshPc) : Prop where
  | kept (heq : sh'.armed k + p'.carries k = sh.armed k + p.carries k)
  | lost (hle : sh'.armed k + p'.carries k ≤ sh.armed k + p.carries k)
      (hgone : ∀ dest, sh.targets.lookup dest = some k → p'.removes = some (dest, k))
  | made (hk : k = sh.allocated) (heq : sh'.armed k + p'.carries k = 1)

theorem armed_stopTimer_le (s : RefreshShared ι) (id k : Nat) :
    (s.stopTimer id).armed k ≤ s.armed k := by
  unfold RefreshShared.armed
  rw [timer_stopTimer]
  by_cases hk : k = id
  · simp only [hk, if_true, Option.isSome_none, Bool.false_eq_true, if_false]
    split <;> omega
  · simp [hk]

theorem Registered.dest_unique (h : Registered sh) {dest dest' : Bytes} {k : Nat}
    (hk : sh.targets.lookup dest = some k) (hk' : sh.targets.lookup dest' = some k) :
    dest = dest' :=
  (h dest k hk).2.1.symm.trans (h dest' k hk').2.1

theorem armed_of_timer {s s' : RefreshShared ι} {k : Nat}
    (h : (s'.entries k).timer = (s.entries k).timer) : s'.armed k = s.armed k := by
  unfold RefreshShared.armed
  rw [h]

/-- To begin to remove `id` takes the token that is its timer. -/
theorem TokenMove.stopTimer (hreg : Registered sh) {dest : Bytes} {id k : Nat}
    (hid : sh.targets.lookup dest = some id) (hentries : sh'.entries = (sh.stopTimer id).entries)
    (h0 : p.callback k = false) (h0' : p'.callback k = false)
    (hp' : p'.removes = some (dest, id)) : TokenMove k sh sh' p p' := by
  have harmed : sh'.armed k = (sh.stopTimer id).armed k := armed_of_timer (by rw [hentries])
  by_cases hk : k = id
  · subst hk
    apply TokenMove.lost
    · simpa [RefreshPc.carries, h0, h0', harmed] using armed_stopTimer_le sh k k
    · intro dest' hdest'
      rw [hp', hreg.dest_unique hid hdest']
  · apply TokenMove.kept
    have htimer := timer_stopTimer sh id k
    rw [if_neg hk] at htimer
    rw [harmed, armed_of_timer htimer]
    simp [RefreshPc.carries, h0, h0']

theorem TokenMove.add {s : RefreshShared ι} {dest serverName alpn : Bytes} {delay : Int}
    (k : Nat) : TokenMove k s (s.addTarget dest serverName alpn delay) .idle .idle := by
  by_cases hk : dest ∉ s.targets ∧ k = s.allocated
  · apply TokenMove.made hk.2
    unfold RefreshShared.armed
    rw [timer_addTarget, if_pos hk]
    rfl
  · have htimer := timer_addTarget s dest serverName alpn delay k
    rw [if_neg hk] at htimer
    exact .kept (congrArg (· + 0) (armed_of_timer htimer))

/-- The callback arms the timer again, or nobody has the target any more. -/
theorem TokenMove.reschedule (hreg : Registered sh) {id k : Nat} {success : Bool} {delay : Int}
    (hone : sh.armed k + (RefreshPc.probed id success).carries k ≤ 1) :
    TokenMove k sh (sh.reschedule id success delay) (.probed id success) .leaving := by
  have htimer := timer_reschedule sh id success delay k
  by_cases hk : k = id
  · subst hk
    have hcarries : (RefreshPc.probed k success).carries k = 1 := by
      simp [RefreshPc.carries, RefreshPc.callback]
    by_cases hdest : (sh.entries k).entry.dest ∈ sh.targets
    · apply TokenMove.kept
      rw [if_pos ⟨hdest, rfl⟩] at htimer
      rw [hcarries] at hone ⊢
      have hnone : sh.armed k = 0 := by
        unfold RefreshShared.armed at hone ⊢
        split at hone
        · omega
        next harmed => exact if_neg harmed
      rw [hnone]
      simp [RefreshShared.armed, htimer, RefreshPc.carries, RefreshPc.callback]
    · apply TokenMove.lost
      · rw [if_neg fun h => hdest h.1] at htimer
        rw [armed_of_timer htimer, hcarries]
        simp [RefreshPc.carries, RefreshPc.callback]
      · intro dest hlookup
        rw [(hreg dest k hlookup).2.1] at hdest
        exact absurd (AList.lookup_isSome.mp (by rw [hlookup]; rfl)) hdest
  · rw [if_neg fun h => hk h.2] at htimer
    apply TokenMove.kept
    rw [armed_of_timer htimer]
    have hne : id ≠ k := fun h => hk h.symm
    simp [RefreshPc.carries, RefreshPc.callback, hne]

theorem RefreshMove.token (h : RefreshMove i sh p sh' p' b) (hreg : Registered sh) {k : Nat}
    (hone : sh.armed k + p.carries k ≤ 1) : TokenMove k sh sh' p p' := by
  cases h with
  | start _ | stop _ => exact .kept (congrArg (· + 0) (armed_of_timer (by simp)))
  | add _ _ => exact .add k
  | remove _ hid | visit hid => exact TokenMove.stopTimer hreg hid rfl rfl rfl rfl
  | removed _ | visited _ =>
      exact .kept (congrArg (· + 0) (armed_of_timer (timer_close ..)))
  | @fire id harmed =>
      apply TokenMove.kept
      by_cases hk : k = id
      · subst hk
        have htimer := timer_stopTimer sh k k
        rw [if_pos rfl] at htimer
        simp [RefreshShared.armed, htimer, harmed, RefreshPc.carries, RefreshPc.callback]
      · have htimer := timer_stopTimer sh id k
        rw [if_neg hk] at htimer
        have hne : id ≠ k := fun h => hk h.symm
        rw [armed_of_timer htimer]
        simp [RefreshPc.carries, RefreshPc.callback, hne]
  | @give id hclosed =>
      by_cases hk : id = k
      · subst hk
        apply TokenMove.lost
        · simp [RefreshPc.carries, RefreshPc.callback]
        · intro dest hlookup
          rw [(hreg dest id hlookup).2.2] at hclosed
          cases hclosed
      · apply TokenMove.kept
        simp [RefreshPc.carries, RefreshPc.callback, hk]
  | @finish id old probe =>
      apply TokenMove.kept
      rw [armed_of_timer (timer_finish ..)]
      rfl
  | reschedule _ _ => exact TokenMove.reschedule hreg hone
  | _ => exact .kept rfl

end Reality
