import Reality.Cache.Amortize
import Reality.Kit.Assoc
import Reality.Kit.Run
import Reality.Kit.SyncMap
import Reality.Kit.Threads

/-!
# Concurrent calls of the cache

The methods of the cache manager as programs that take turns. A step is one
operation on the map, one atomic addition, or one critical section of an entry
lock. Entries live in a heap, so that a call which has loaded an entry goes on
with THAT entry, whatever the map holds by then; `CompareAndDelete` compares
pointers. Only the sweep of `GetProfile` holds an entry lock over several
steps.

What a call still has to do after its next step is part of its program counter
(`next`). So the source text of a method can be read off one term, as in
`.delete key (.count (-1) (.unlock r .idle))` for the sweep.
-/

namespace Reality

open Kit
open CacheManager (EvictScan)

/-- A `*ProfileEntry`: an index into the heap. -/
abbrev Ref := Nat

structure CacheShared where
  heap : List ProfileEntry := []
  entries : AList (fun _ : Bytes => Ref) := ∅
  /-- Entries whose lock is held from one step to the next. -/
  locked : List Ref := []
  profileEntries : Int := 0
  dirty : Int := 0
  maxProfiles : Int := 1000
  baseTTL : Int := profileTTL

namespace CacheShared

/-- Allocate an entry and store the pointer to it. -/
def store (s : CacheShared) (key : Bytes) (e : ProfileEntry) : CacheShared :=
  { s with heap := s.heap ++ [e], entries := s.entries.insert key s.heap.length }

/-- Write through a pointer. -/
def write (s : CacheShared) (r : Ref) (e : ProfileEntry) : CacheShared :=
  { s with heap := s.heap.set r e }

def delete (s : CacheShared) (key : Bytes) : CacheShared :=
  { s with entries := s.entries.erase key }

end CacheShared

/-- What a call does under the lock of the entry it has loaded. -/
inductive EntryUse where
  | observe (obs : RealityProfile)
  | negative
  | quarantine
  | get

/-- Where a call is. -/
inductive CachePc where
  | idle
  /-- `entries.Load(key)` -/
  | load (key : Bytes) (use : EntryUse)
  /-- The entry at `r` was loaded, and its critical section is next. -/
  | hit (key : Bytes) (r : Ref) (use : EntryUse)
  /-- `InvalidateProfile`: its load, and its `CompareAndDelete`. -/
  | find (key : Bytes)
  | compareAndDelete (key : Bytes) (r : Ref)
  /-- `MarkNegative` and `Quarantine` of a key that was absent: make an entry. -/
  | negativeNew (key : Bytes)
  | quarantineNew (key : Bytes)
  | loadOrStore (key : Bytes) (e : ProfileEntry)
  | store (key : Bytes) (e : ProfileEntry) (next : CachePc)
  | delete (key : Bytes) (next : CachePc)
  /-- `stats.ProfileEntries.Add(n)` -/
  | count (n : Int) (next : CachePc)
  /-- `MarkDirty()` -/
  | mark (next : CachePc)
  | unlock (r : Ref) (next : CachePc)
  /-- `evictIfFull`: the load of the counter. -/
  | gate
  | scan (l : RangeLoop Bytes) (acc : EvictScan)
  /-- The callback, before it locks the entry to read the state. -/
  | visit (l : RangeLoop Bytes) (acc : EvictScan) (key : Bytes) (r : Ref)
  /-- `oldestKey == "" || entry.Profile.CapturedAt.Before(oldestTime)`, unlocked. -/
  | compare (l : RangeLoop Bytes) (acc : EvictScan) (key : Bytes) (r : Ref)
  | note (l : RangeLoop Bytes) (acc : EvictScan) (key : Bytes) (r : Ref)
  /-- The `Range` of `InvalidateAll`. -/
  | all (l : RangeLoop Bytes)

inductive ConcurrentCall where
  | storeProfile (key : Bytes) (profile : RealityProfile)
  | storeObservation (key : Bytes) (obs : RealityProfile)
  | hotSwapProfile (key : Bytes) (profile : RealityProfile)
  | markNegative (key : Bytes)
  | quarantine (key : Bytes)
  | getProfile (key : Bytes)
  | invalidateProfile (key : Bytes)
  | invalidateAll

/-- The scheduler's choices: a new call, a step, a step that reads the clock, or
the key a `Range` looks at next. -/
inductive CacheAct where
  | call (c : ConcurrentCall)
  | go
  | clock (now : Int)
  | look (key : Bytes)

/-- A call up to its first operation on shared data. -/
def ConcurrentCall.start (s : CacheShared) : ConcurrentCall → CachePc
  | .storeProfile key p => .loadOrStore key (freshEntry p s.baseTTL)
  | .storeObservation key obs =>
      if !validateRecordLens obs.recordLens then .idle
      else .load key (.observe (normalizeObs obs))
  | .hotSwapProfile key p => .store key (freshEntry p s.baseTTL) (.mark .idle)
  | .markNegative key => .load key .negative
  | .quarantine key => .load key .quarantine
  | .getProfile key => .load key .get
  | .invalidateProfile key => .find key
  | .invalidateAll => .all (RangeLoop.start s.entries)

/-- The call goes on without an entry. -/
def EntryUse.missed (key : Bytes) (baseTTL : Int) : EntryUse → CachePc
  | .observe obs => .loadOrStore key (freshEntry (stampNew obs) baseTTL)
  | .negative => .negativeNew key
  | .quarantine => .quarantineNew key
  | .get => .idle

/-- `GetProfile` under the entry lock. A nil profile panics, and so ends the
call; the deferred unlock runs either way. -/
def getLocked (s : CacheShared) (key : Bytes) (r : Ref) (e : ProfileEntry) (now : Int) :
    CacheShared × CachePc :=
  match e.state with
  | .valid =>
      match e.profile with
      | none => (s, .idle)
      | some p =>
          -- The TTL is the entry's own, not the manager's.
          if timeSub now p.capturedAt < e.ttl then (s, .idle)
          else (s.write r (e.setState .stale), .idle)
  | .negative =>
      if now < e.nextRetry then (s, .idle)
      else
        -- The deferred `Unlock` runs after the delete and the count.
        ({ s with locked := r :: s.locked },
          .delete key (.count (-1) (.unlock r .idle)))
  | _ => (s, .idle)

/-- The critical section of a call that has loaded an entry. -/
def useLocked (s : CacheShared) (key : Bytes) (r : Ref) (e : ProfileEntry) (now : Int) :
    EntryUse → CacheShared × CachePc
  | .observe obs =>
      -- An ignored observation leaves the entry and the counter alone.
      let o := e.observe obs s.baseTTL now
      if o.2 = .ignored then (s, .idle) else (s.write r o.1, .mark .idle)
  | .negative => (s.write r (e.markNegative now), .idle)
  | .quarantine =>
      (s.write r { e.quarantine now with failCount := maxL2FailWindow }, .mark .idle)
  | .get => getLocked s key r e now

/-- The callback of the eviction scan, up to where it has read the state. -/
def visitState (l : RangeLoop Bytes) (acc : EvictScan) (key : Bytes) (r : Ref) :
    ProfileState → CachePc
  | .negative => .scan l (if acc.negativeKey = [] then { acc with negativeKey := key } else acc)
  | .stale => .scan l (if acc.staleKey = [] then { acc with staleKey := key } else acc)
  | _ => .compare l acc key r

/-- One step of a call. -/
def cachePcStep (s : CacheShared) : CachePc → CacheAct → Option (CacheShared × CachePc)
  | .idle, .call c => some (s, c.start s)
  | .load key use, .go =>
      match s.entries.lookup key with
      | some r => some (s, .hit key r use)
      | none => some (s, use.missed key s.baseTTL)
  | .find key, .go =>
      match s.entries.lookup key with
      | some r => some (s, .compareAndDelete key r)
      | none => some (s, .idle)
  | .compareAndDelete key r, .go =>
      if s.entries.lookup key = some r then
        some (s.delete key, .count (-1) (.mark .idle))
      else some (s, .idle)
  -- Blocked while a sweep holds the entry, even one that is no longer in the map.
  | .hit key r use, .clock now =>
      if r ∈ s.locked then none
      else s.heap[r]?.map fun e => useLocked s key r e now use
  | .negativeNew key, .clock now =>
      some (s, .store key
        { state := .negative, atomicState := .negative, failCount := 1,
          nextRetry := now + minute, ttl := s.baseTTL } (.count 1 .idle))
  | .quarantineNew key, .clock now =>
      some (s, .store key
        { state := .quarantined, atomicState := .quarantined, failCount := maxL2FailWindow,
          nextRetry := now + quarantineCooldown, ttl := s.baseTTL } (.count 1 (.mark .idle)))
  | .loadOrStore key e, .go =>
      if key ∈ s.entries then some (s, .idle)
      else some (s.store key e, .count 1 (.mark .gate))
  | .store key e next, .go => some (s.store key e, next)
  | .delete key next, .go => some (s.delete key, next)
  | .count n next, .go => some ({ s with profileEntries := s.profileEntries + n }, next)
  | .mark next, .go => some ({ s with dirty := s.dirty + 1 }, next)
  | .unlock r next, .go => some ({ s with locked := s.locked.erase r }, next)
  | .gate, .go =>
      if s.profileEntries ≤ s.maxProfiles then some (s, .idle)
      else some (s, .scan (RangeLoop.start s.entries) {})
  | .scan l acc, .look key =>
      (l.look s.entries key).map fun found =>
        (s, match found.2 with
          | some r => .visit found.1 acc key r
          | none => .scan found.1 acc)
  | .scan l acc, .go =>
      if !l.finished then none
      else if acc.evictKey ≠ [] then some (s, .delete acc.evictKey (.count (-1) .idle))
      else some (s, .idle)
  | .visit l acc key r, .go =>
      if r ∈ s.locked then none
      else s.heap[r]?.map fun e => (s, visitState l acc key r e.state)
  | .compare l acc key r, .go =>
      -- `||` does not look at the profile when there is no oldest key yet.
      if acc.oldestKey = [] then some (s, .note l acc key r)
      else
        s.heap[r]?.map fun e =>
          match e.profile with
          | none => (s, .idle)
          | some p => (s, if p.capturedAt < acc.oldestTime then .note l acc key r else .scan l acc)
  | .note l acc key r, .go =>
      s.heap[r]?.map fun e =>
        match e.profile with
        | none => (s, .idle)
        | some p => (s, .scan l { acc with oldestKey := key, oldestTime := p.capturedAt })
  | .all l, .look key =>
      (l.look s.entries key).map fun found =>
        (s, match found.2 with
          | some _ => .delete key (.count (-1) (.all found.1))
          | none => .all found.1)
  | .all l, .go => if l.finished then some (s, .mark .idle) else none
  | _, _ => none

section CacheThreads

variable {ι : Type} [DecidableEq ι]

abbrev CacheThreads (ι : Type) : Type := Threads ι CacheShared CachePc

def cacheProgram (_ : ι) (s : CacheShared) (p : CachePc) (a : CacheAct) :
    Option (CacheShared × CachePc × Unit) :=
  (cachePcStep s p a).map fun r => (r.1, r.2, ())

/-- The calls of the threads `ι`, each making one call after the other. -/
def concurrentMachine (ι : Type) [DecidableEq ι] :
    Machine (CacheThreads ι) (ι × CacheAct) Unit :=
  ⟨fun s x => s.step cacheProgram x.1 x.2⟩

/-- An empty cache, and nobody calling. -/
def cacheThreadsStart (ι : Type) : CacheThreads ι := ⟨{}, fun _ => .idle⟩

end CacheThreads

end Reality
