import Mathlib.Data.List.AList
import Reality.Cache.Refresh
import Reality.Kit.Threads

/-!
# The scheduler of the background refresh

`RefreshManager` (refresh_manager.go): targets are added and removed, the manager is
started and stopped, and each target has a timer whose callback probes the target and
arms the timer again. All of these run on goroutines of their own.

The map of targets and the flags are read and written under the mutex, so a critical
section is one step; it is more than one where somebody who does not hold the mutex
could look in, which a callback does when it asks whether `stopCh` is closed. Nothing
protects the fields of an entry that `probeTarget` works on. They are safe because TWO
CALLBACKS OF ONE ENTRY NEVER OVERLAP: an entry has one token, which is its armed timer
or its running callback.
-/

namespace Reality

open Kit Threads

/-! ## Entries -/

def refreshMin : Int := 20 * minute

def refreshMax : Int := 30 * minute

/-- The capacity of `sem`. -/
def maxProbes : Nat := 8

/-- The delay after the `failCount`-th failure in a row. -/
def backoff (failCount : Nat) : Int :=
  let d := 2 ^ min (failCount - 1) 3 * minute
  if d > 10 * minute then 10 * minute else d

/-- What of a `refreshEntry` the scheduler uses, beside what `probeTarget` uses. -/
structure ScheduledEntry where
  entry : RefreshEntry
  failCount : Nat := 0
  /-- The delay its timer is armed with. -/
  timer : Option Int := none
  /-- `stopCh` is closed. -/
  stopped : Bool := false

/-- The entry `probeTarget` leaves behind. -/
def ProbeVerdict.entryAfter (v : ProbeVerdict) (entry : RefreshEntry) (result : ProbeResult) :
    RefreshEntry :=
  match v with
  | .failed | .quick => entry
  | .uncached | .unchanged => { entry with stableCount := 0 }
  | .pending => entry.noteChange result
  | .rejected | .swapped => { entry.noteChange result with stableCount := 0 }

/-- What a call of `probeTarget` meets: what `GetProfile` finds, what the target answers, and
when. -/
structure TimedProbe where
  cached : Option RealityProfile
  outcome : Option ProbeResult
  now : Int
  deriving DecidableEq

/-- What `probeTarget` leaves of the entry, and what it returns. -/
def afterProbe (entry : RefreshEntry) (probe : TimedProbe) : RefreshEntry × Bool :=
  match probe.outcome with
  | none => (entry, false)
  | some result =>
      let v := probeVerdict probe.cached entry result probe.now
      (v.entryAfter entry result, v ≠ .rejected)

/-- What `probeTarget` does to the entry. -/
theorem afterProbe_of_probeTarget {m m' : CacheManager} {entry entry' : RefreshEntry}
    {outcome : Option ProbeResult} {now : Int}
    (h : probeTarget m entry outcome now = .ok (m', entry')) :
    entry' = (afterProbe entry ⟨cachedFor m entry now, outcome, now⟩).1 := by
  cases outcome with
  | none =>
      cases h
      rfl
  | some result =>
      cases hget : m.getProfile entry.cacheKey now with
      | error e =>
          simp only [probeTarget, hget] at h
          cases h
      | ok r =>
          obtain ⟨m₁, cached, stale⟩ := r
          rw [probeTarget_of_result hget] at h
          simp only [afterProbe, cachedFor, hget]
          cases hv : probeVerdict cached entry result now <;> rw [hv] at h <;> cases h <;> rfl

/-! ## What the goroutines share -/

/-- Entries and contexts are numbered as they are allocated. -/
structure RefreshShared (ι : Type) where
  mu : Option ι := none
  entries : Nat → ScheduledEntry := fun _ => { entry := newRefreshEntry [] [] [] }
  allocated : Nat := 0
  targets : AList (fun _ : Bytes => Nat) := ∅
  started : Bool := false
  cancel : Option Nat := none
  contexts : Nat := 0
  cancelled : List Nat := []
  /-- The contexts whose goroutine has been started and did not run yet. -/
  spawned : List Nat := []
  wg : Nat := 0
  sem : Nat := 0

namespace RefreshShared

variable {ι : Type}

/-- `Start` -/
def start (s : RefreshShared ι) : RefreshShared ι :=
  if s.started then s
  else
    { s with
      started := true, cancel := some s.contexts, contexts := s.contexts + 1, wg := s.wg + 1
      spawned := s.contexts :: s.spawned }

/-- `Stop`, before it waits. -/
def stop (s : RefreshShared ι) : RefreshShared ι :=
  match s.cancel with
  | none => s
  | some ctx => { s with cancelled := ctx :: s.cancelled, cancel := none }

/-- `Stop`, after it waited. The map is replaced, whatever is in it. -/
def clear (s : RefreshShared ι) : RefreshShared ι := { s with targets := ∅, started := false }

def setEntry (s : RefreshShared ι) (id : Nat) (e : ScheduledEntry) : RefreshShared ι :=
  { s with entries := Function.update s.entries id e }

/-- `AddTarget`; `delay` is the random interval. -/
def addTarget (s : RefreshShared ι) (dest serverName alpn : Bytes) (delay : Int) :
    RefreshShared ι :=
  if dest ∈ s.targets then s
  else
    { s.setEntry s.allocated
        { entry := newRefreshEntry dest serverName alpn, timer := some delay } with
      allocated := s.allocated + 1, targets := s.targets.insert dest s.allocated }

/-- `entry.timer.Stop()` -/
def stopTimer (s : RefreshShared ι) (id : Nat) : RefreshShared ι :=
  s.setEntry id { s.entries id with timer := none }

/-- `close(entry.stopCh)` and `delete(m.targets, key)` -/
def close (s : RefreshShared ι) (dest : Bytes) (id : Nat) : RefreshShared ι :=
  { s.setEntry id { s.entries id with stopped := true } with targets := s.targets.erase dest }

/-- The end of `probeAndReschedule`. The test is by dest, and finds any entry of it. -/
def reschedule (s : RefreshShared ι) (id : Nat) (success : Bool) (delay : Int) :
    RefreshShared ι :=
  if (s.entries id).entry.dest ∈ s.targets then
    s.setEntry id
      (if success then { s.entries id with failCount := 0, timer := some delay }
      else
        { s.entries id with
          failCount := (s.entries id).failCount + 1
          timer := some (backoff ((s.entries id).failCount + 1)) })
  else s

end RefreshShared

/-! ## The goroutines -/

/-- Where a goroutine is. -/
inductive RefreshPc where
  | idle
  /-- `Stop`, at `wg.Wait()`. -/
  | stopWaiting
  | stopClearing
  /-- `RemoveTarget`, with the mutex, the timer stopped. -/
  | removing (dest : Bytes) (id : Nat)
  /-- The goroutine of `Start`, at `<-ctx.Done()`. -/
  | watching (ctx : Nat)
  /-- In its loop over the targets, with the mutex. -/
  | sweeping
  | sweepingOne (dest : Bytes) (id : Nat)
  | swept
  /-- The callback of a timer, before it looks at `stopCh`. -/
  | fired (id : Nat)
  | queued (id : Nat)
  /-- In `probeTarget`, which began with `old`. -/
  | probing (id : Nat) (old : RefreshEntry)
  | probed (id : Nat) (success : Bool)
  /-- At the deferred receive from `sem`. -/
  | leaving
  /-- A channel was closed that was closed, or `wg` became negative. -/
  | panicked
  deriving DecidableEq

inductive RefreshAct where
  | start
  | stop
  | addTarget (dest serverName alpn : Bytes) (delay : Int)
  | removeTarget (dest : Bytes)
  | watch (ctx : Nat)
  | visit (dest : Bytes)
  | fire (id : Nat)
  | finish (probe : TimedProbe)
  | reschedule (delay : Int)
  | go

/-- What a step shows: a probe begins, a probe has ended. -/
inductive RefreshEvent where
  | probe (id : Nat)
  | ended (id : Nat) (probe : TimedProbe) (success : Bool)
  | quiet
  deriving DecidableEq

variable {ι : Type}

/-- A random interval. -/
def inRefreshRange (delay : Int) : Bool := refreshMin ≤ delay && delay < refreshMax

/-- One step of goroutine `i`. -/
def refreshStep (i : ι) (s : RefreshShared ι) :
    RefreshPc → RefreshAct → Option (RefreshShared ι × RefreshPc × RefreshEvent)
  | .idle, .start => if s.mu.isSome then none else some (s.start, .idle, .quiet)
  | .idle, .stop => if s.mu.isSome then none else some (s.stop, .stopWaiting, .quiet)
  | .stopWaiting, .go => if s.wg = 0 then some (s, .stopClearing, .quiet) else none
  | .stopClearing, .go => if s.mu.isSome then none else some (s.clear, .idle, .quiet)
  | .idle, .addTarget dest serverName alpn delay =>
      if s.mu.isSome || !inRefreshRange delay then none
      else some (s.addTarget dest serverName alpn delay, .idle, .quiet)
  | .idle, .removeTarget dest =>
      if s.mu.isSome then none
      else
        match s.targets.lookup dest with
        | none => some (s, .idle, .quiet)
        | some id => some ({ s with mu := some i }.stopTimer id, .removing dest id, .quiet)
  | .removing dest id, .go =>
      if (s.entries id).stopped then some (s, .panicked, .quiet)
      else some ({ s with mu := none }.close dest id, .idle, .quiet)
  | .idle, .watch ctx =>
      if ctx ∈ s.spawned then
        some ({ s with spawned := s.spawned.erase ctx }, .watching ctx, .quiet)
      else none
  | .watching ctx, .go =>
      if s.mu.isSome || ctx ∉ s.cancelled then none
      else some ({ s with mu := some i }, .sweeping, .quiet)
  -- The map is visited in any order.
  | .sweeping, .visit dest =>
      match s.targets.lookup dest with
      | none => none
      | some id => some (s.stopTimer id, .sweepingOne dest id, .quiet)
  | .sweepingOne dest id, .go =>
      if (s.entries id).stopped then some (s, .panicked, .quiet)
      else some (s.close dest id, .sweeping, .quiet)
  | .sweeping, .go =>
      if s.targets.keys.isEmpty then some ({ s with mu := none }, .swept, .quiet) else none
  | .swept, .go =>
      if s.wg = 0 then some (s, .panicked, .quiet)
      else some ({ s with wg := s.wg - 1 }, .idle, .quiet)
  | .idle, .fire id =>
      if (s.entries id).timer.isSome then some (s.stopTimer id, .fired id, .quiet) else none
  | .fired id, .go => some (s, if (s.entries id).stopped then .idle else .queued id, .quiet)
  | .queued id, .go =>
      if s.sem < maxProbes then
        some ({ s with sem := s.sem + 1 }, .probing id (s.entries id).entry, .probe id)
      else none
  -- What is written was computed from what was read at the start.
  | .probing id old, .finish probe =>
      let r := afterProbe old probe
      some (s.setEntry id { s.entries id with entry := r.1 }, .probed id r.2, .ended id probe r.2)
  | .probed id success, .reschedule delay =>
      if s.mu.isSome || !inRefreshRange delay then none
      else some (s.reschedule id success delay, .leaving, .quiet)
  | .leaving, .go => if s.sem = 0 then none else some ({ s with sem := s.sem - 1 }, .idle, .quiet)
  | _, _ => none

abbrev RefreshState (ι : Type) : Type := Threads ι (RefreshShared ι) RefreshPc

/-- The goroutines `ι`, in any order. -/
def refreshScheduler (ι : Type) [DecidableEq ι] :
    Machine (RefreshState ι) (ι × RefreshAct) RefreshEvent :=
  ⟨fun s x => s.step refreshStep x.1 x.2⟩

/-- `GetRefreshManager`, the first time. -/
def newRefreshManager (ι : Type) : RefreshState ι := ⟨{}, fun _ => .idle⟩

/-! ## What a step can do -/

/-- The steps of goroutine `i`, with the tests they passed. -/
inductive RefreshMove (i : ι) (s : RefreshShared ι) :
    RefreshPc → RefreshShared ι → RefreshPc → RefreshEvent → Prop where
  | start (hmu : s.mu = none) : RefreshMove i s .idle s.start .idle .quiet
  | stop (hmu : s.mu = none) : RefreshMove i s .idle s.stop .stopWaiting .quiet
  | wait : RefreshMove i s .stopWaiting s .stopClearing .quiet
  | clear (hmu : s.mu = none) : RefreshMove i s .stopClearing s.clear .idle .quiet
  | add {dest serverName alpn : Bytes} {delay : Int} (hmu : s.mu = none)
      (hdelay : inRefreshRange delay = true) :
      RefreshMove i s .idle (s.addTarget dest serverName alpn delay) .idle .quiet
  | absent : RefreshMove i s .idle s .idle .quiet
  | remove {dest : Bytes} {id : Nat} (hmu : s.mu = none) (hid : s.targets.lookup dest = some id) :
      RefreshMove i s .idle ({ s with mu := some i }.stopTimer id) (.removing dest id) .quiet
  | removed {dest : Bytes} {id : Nat} (hopen : (s.entries id).stopped = false) :
      RefreshMove i s (.removing dest id) ({ s with mu := none }.close dest id) .idle .quiet
  | removedTwice {dest : Bytes} {id : Nat} (hclosed : (s.entries id).stopped = true) :
      RefreshMove i s (.removing dest id) s .panicked .quiet
  | watch {ctx : Nat} (hctx : ctx ∈ s.spawned) :
      RefreshMove i s .idle { s with spawned := s.spawned.erase ctx } (.watching ctx) .quiet
  | wake {ctx : Nat} (hmu : s.mu = none) :
      RefreshMove i s (.watching ctx) { s with mu := some i } .sweeping .quiet
  | visit {dest : Bytes} {id : Nat} (hid : s.targets.lookup dest = some id) :
      RefreshMove i s .sweeping (s.stopTimer id) (.sweepingOne dest id) .quiet
  | visited {dest : Bytes} {id : Nat} (hopen : (s.entries id).stopped = false) :
      RefreshMove i s (.sweepingOne dest id) (s.close dest id) .sweeping .quiet
  | visitedTwice {dest : Bytes} {id : Nat} (hclosed : (s.entries id).stopped = true) :
      RefreshMove i s (.sweepingOne dest id) s .panicked .quiet
  | sweep : RefreshMove i s .sweeping { s with mu := none } .swept .quiet
  | done (hwg : s.wg ≠ 0) : RefreshMove i s .swept { s with wg := s.wg - 1 } .idle .quiet
  | negative (hwg : s.wg = 0) : RefreshMove i s .swept s .panicked .quiet
  | fire {id : Nat} (harmed : (s.entries id).timer.isSome) :
      RefreshMove i s .idle (s.stopTimer id) (.fired id) .quiet
  | give {id : Nat} (hclosed : (s.entries id).stopped = true) :
      RefreshMove i s (.fired id) s .idle .quiet
  | queue {id : Nat} (hopen : (s.entries id).stopped = false) :
      RefreshMove i s (.fired id) s (.queued id) .quiet
  | probe {id : Nat} (hsem : s.sem < maxProbes) :
      RefreshMove i s (.queued id) { s with sem := s.sem + 1 } (.probing id (s.entries id).entry)
        (.probe id)
  | finish {id : Nat} {old : RefreshEntry} {probe : TimedProbe} :
      RefreshMove i s (.probing id old)
        (s.setEntry id { s.entries id with entry := (afterProbe old probe).1 })
        (.probed id (afterProbe old probe).2) (.ended id probe (afterProbe old probe).2)
  | reschedule {id : Nat} {success : Bool} {delay : Int} (hmu : s.mu = none)
      (hdelay : inRefreshRange delay = true) :
      RefreshMove i s (.probed id success) (s.reschedule id success delay) .leaving .quiet
  | leave (hsem : s.sem ≠ 0) :
      RefreshMove i s .leaving { s with sem := s.sem - 1 } .idle .quiet

section Steps

variable {i : ι} {s s' : RefreshShared ι} {p p' : RefreshPc} {a : RefreshAct} {b : RefreshEvent}

theorem free_of_inRefreshRange {mu : Option ι} {delay : Int}
    (h : ¬ (mu.isSome || !inRefreshRange delay) = true) :
    mu = none ∧ inRefreshRange delay = true := by
  simpa using h

theorem idleStep_move (h : refreshStep i s .idle a = some (s', p', b)) :
    RefreshMove i s .idle s' p' b := by
  cases a with
  | start =>
      obtain ⟨hmu, heq⟩ := Option.ite_none_left_eq_some.mp h
      cases heq
      exact .start (by simpa using hmu)
  | stop =>
      obtain ⟨hmu, heq⟩ := Option.ite_none_left_eq_some.mp h
      cases heq
      exact .stop (by simpa using hmu)
  | addTarget dest serverName alpn delay =>
      obtain ⟨hfree, heq⟩ := Option.ite_none_left_eq_some.mp h
      obtain ⟨hmu, hdelay⟩ := free_of_inRefreshRange hfree
      cases heq
      exact .add hmu hdelay
  | removeTarget dest =>
      obtain ⟨hmu, heq⟩ := Option.ite_none_left_eq_some.mp h
      cases hid : s.targets.lookup dest with
      | none =>
          rw [hid] at heq
          cases heq
          exact .absent
      | some id =>
          rw [hid] at heq
          cases heq
          exact .remove (by simpa using hmu) hid
  | watch ctx =>
      obtain ⟨hctx, heq⟩ := Option.ite_none_right_eq_some.mp h
      cases heq
      exact .watch hctx
  | fire id =>
      obtain ⟨harmed, heq⟩ := Option.ite_none_right_eq_some.mp h
      cases heq
      exact .fire harmed
  | _ => cases h

theorem stopWaitingStep_move (h : refreshStep i s .stopWaiting a = some (s', p', b)) :
    RefreshMove i s .stopWaiting s' p' b := by
  cases a with
  | go =>
      obtain ⟨-, heq⟩ := Option.ite_none_right_eq_some.mp h
      cases heq
      exact .wait
  | _ => cases h

theorem stopClearingStep_move (h : refreshStep i s .stopClearing a = some (s', p', b)) :
    RefreshMove i s .stopClearing s' p' b := by
  cases a with
  | go =>
      obtain ⟨hmu, heq⟩ := Option.ite_none_left_eq_some.mp h
      cases heq
      exact .clear (by simpa using hmu)
  | _ => cases h

theorem removingStep_move {dest : Bytes} {id : Nat}
    (h : refreshStep i s (.removing dest id) a = some (s', p', b)) :
    RefreshMove i s (.removing dest id) s' p' b := by
  cases a with
  | go =>
      unfold refreshStep at h
      dsimp only at h
      split at h
      next hclosed =>
        cases h
        exact .removedTwice hclosed
      next hopen =>
        cases h
        exact .removed (by simpa using hopen)
  | _ => cases h

theorem watchingStep_move {ctx : Nat}
    (h : refreshStep i s (.watching ctx) a = some (s', p', b)) :
    RefreshMove i s (.watching ctx) s' p' b := by
  cases a with
  | go =>
      obtain ⟨hfree, heq⟩ := Option.ite_none_left_eq_some.mp h
      rw [Bool.or_eq_true, not_or] at hfree
      cases heq
      exact .wake (by simpa using hfree.1)
  | _ => cases h

theorem sweepingStep_move (h : refreshStep i s .sweeping a = some (s', p', b)) :
    RefreshMove i s .sweeping s' p' b := by
  cases a with
  | visit dest =>
      unfold refreshStep at h
      dsimp only at h
      split at h
      · cases h
      next id hid =>
        cases h
        exact .visit hid
  | go =>
      obtain ⟨-, heq⟩ := Option.ite_none_right_eq_some.mp h
      cases heq
      exact .sweep
  | _ => cases h

theorem sweepingOneStep_move {dest : Bytes} {id : Nat}
    (h : refreshStep i s (.sweepingOne dest id) a = some (s', p', b)) :
    RefreshMove i s (.sweepingOne dest id) s' p' b := by
  cases a with
  | go =>
      unfold refreshStep at h
      dsimp only at h
      split at h
      next hclosed =>
        cases h
        exact .visitedTwice hclosed
      next hopen =>
        cases h
        exact .visited (by simpa using hopen)
  | _ => cases h

theorem sweptStep_move (h : refreshStep i s .swept a = some (s', p', b)) :
    RefreshMove i s .swept s' p' b := by
  cases a with
  | go =>
      unfold refreshStep at h
      dsimp only at h
      split at h
      next hwg =>
        cases h
        exact .negative hwg
      next hwg =>
        cases h
        exact .done hwg
  | _ => cases h

theorem firedStep_move {id : Nat} (h : refreshStep i s (.fired id) a = some (s', p', b)) :
    RefreshMove i s (.fired id) s' p' b := by
  cases a with
  | go =>
      cases h
      split
      next hclosed => exact .give hclosed
      next hopen => exact .queue (by simpa using hopen)
  | _ => cases h

theorem queuedStep_move {id : Nat} (h : refreshStep i s (.queued id) a = some (s', p', b)) :
    RefreshMove i s (.queued id) s' p' b := by
  cases a with
  | go =>
      obtain ⟨hsem, heq⟩ := Option.ite_none_right_eq_some.mp h
      cases heq
      exact .probe hsem
  | _ => cases h

theorem probingStep_move {id : Nat} {old : RefreshEntry}
    (h : refreshStep i s (.probing id old) a = some (s', p', b)) :
    RefreshMove i s (.probing id old) s' p' b := by
  cases a with
  | finish probe =>
      cases h
      exact .finish
  | _ => cases h

theorem probedStep_move {id : Nat} {success : Bool}
    (h : refreshStep i s (.probed id success) a = some (s', p', b)) :
    RefreshMove i s (.probed id success) s' p' b := by
  cases a with
  | reschedule delay =>
      obtain ⟨hfree, heq⟩ := Option.ite_none_left_eq_some.mp h
      obtain ⟨hmu, hdelay⟩ := free_of_inRefreshRange hfree
      cases heq
      exact .reschedule hmu hdelay
  | _ => cases h

theorem leavingStep_move (h : refreshStep i s .leaving a = some (s', p', b)) :
    RefreshMove i s .leaving s' p' b := by
  cases a with
  | go =>
      obtain ⟨hsem, heq⟩ := Option.ite_none_left_eq_some.mp h
      cases heq
      exact .leave hsem
  | _ => cases h

/-- **One step of a goroutine**, wherever it is. -/
theorem refreshStep_move (h : refreshStep i s p a = some (s', p', b)) :
    RefreshMove i s p s' p' b := by
  cases p with
  | idle => exact idleStep_move h
  | stopWaiting => exact stopWaitingStep_move h
  | stopClearing => exact stopClearingStep_move h
  | removing => exact removingStep_move h
  | watching => exact watchingStep_move h
  | sweeping => exact sweepingStep_move h
  | sweepingOne => exact sweepingOneStep_move h
  | swept => exact sweptStep_move h
  | fired => exact firedStep_move h
  | queued => exact queuedStep_move h
  | probing => exact probingStep_move h
  | probed => exact probedStep_move h
  | leaving => exact leavingStep_move h
  | panicked => cases h

end Steps

end Reality
