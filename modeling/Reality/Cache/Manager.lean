import Reality.CacheKey
import Reality.Kit.Ranging

/-!
# The cache manager

`CacheManager` (cache_manager.go): a map from keys to entries, each entry a
profile with its state, its failure count and its times. Every operation
here is one critical section of the source and takes the clock reading it
makes as `now`. Operations that follow a pointer the source does not check
return `Except Panic`: a nil dereference is an outcome of the model, not a
precondition.

Counters that no decision reads (hit and probe statistics) are left out.
`profileEntries` stays, because the capacity gate compares IT and not the
size of the map, and so do the two counters of the dirty epoch.
-/

namespace Reality

open Kit

inductive ProfileState where
  | valid
  | stale
  | negative
  | suspect
  | quarantined
  deriving DecidableEq, Repr

inductive Panic where
  | nilDeref
  deriving DecidableEq, Repr

structure ProfileEntry where
  profile : Option RealityProfile := none
  state : ProfileState
  atomicState : ProfileState
  failCount : Nat := 0
  nextRetry : Int := zeroTime
  ttl : Int
  stabilityScore : Nat := 0
  deriving DecidableEq

/-- Every state change of the source writes both copies. -/
def ProfileEntry.setState (e : ProfileEntry) (s : ProfileState) : ProfileEntry :=
  { e with state := s, atomicState := s }

@[simp] theorem ProfileEntry.setState_state (e : ProfileEntry) (s : ProfileState) :
    (e.setState s).state = s := rfl

@[simp] theorem ProfileEntry.setState_atomicState (e : ProfileEntry) (s : ProfileState) :
    (e.setState s).atomicState = s := rfl

@[simp] theorem ProfileEntry.setState_profile (e : ProfileEntry) (s : ProfileState) :
    (e.setState s).profile = e.profile := rfl

@[simp] theorem ProfileEntry.setState_ttl (e : ProfileEntry) (s : ProfileState) :
    (e.setState s).ttl = e.ttl := rfl

@[simp] theorem ProfileEntry.setState_nextRetry (e : ProfileEntry) (s : ProfileState) :
    (e.setState s).nextRetry = e.nextRetry := rfl

@[simp] theorem ProfileEntry.setState_failCount (e : ProfileEntry) (s : ProfileState) :
    (e.setState s).failCount = e.failCount := rfl

def maxTTLMultiplier : Nat := 2

def ProfileEntry.markStale (e : ProfileEntry) (baseTTL : Int) : ProfileEntry :=
  if e.state = .valid || e.state = .stale then
    let e := e.setState .stale
    -- The score is incremented first, so the multiplier is at its bound from the first mark on.
    if e.stabilityScore < 4 then
      let score := e.stabilityScore + 1
      { e with
        stabilityScore := score, ttl := baseTTL * (min (1 + score) maxTTLMultiplier : Nat) }
    else e
  else e

@[simp] theorem ProfileEntry.markStale_profile (e : ProfileEntry) (baseTTL : Int) :
    (e.markStale baseTTL).profile = e.profile := by
  unfold ProfileEntry.markStale
  split
  · dsimp only
    split <;> rfl
  · rfl

/-- `time.Duration(1<<min(FailCount-1, 4)) * time.Minute`, capped at thirty
minutes. -/
def negativeBackoff (failCount : Nat) : Int :=
  min ((2 ^ min (failCount - 1) 4 : Nat) * minute) (30 * minute)

def ProfileEntry.markNegative (e : ProfileEntry) (now : Int) : ProfileEntry :=
  { e.setState .negative with
    failCount := e.failCount + 1, stabilityScore := 0,
    nextRetry := now + negativeBackoff (e.failCount + 1) }

/-- A new valid entry. -/
def freshEntry (p : RealityProfile) (ttl : Int) : ProfileEntry :=
  { profile := some p, state := .valid, atomicState := .valid, ttl := ttl }

structure CacheManager where
  entries : AList (fun _ : Bytes => ProfileEntry) := ∅
  profileEntries : Int := 0
  dirty : Int := 0
  persisted : Int := 0
  maxProfiles : Int := 1000
  baseTTL : Int := profileTTL

/-- `NewCacheManager` -/
def newCacheManager : CacheManager := {}

namespace CacheManager

/-! ## The map -/

def load (m : CacheManager) (key : Bytes) : Option ProfileEntry := m.entries.lookup key

/-- Store an entry, or write through the pointer the map holds. -/
def put (m : CacheManager) (key : Bytes) (e : ProfileEntry) : CacheManager :=
  { m with entries := m.entries.insert key e }

def delete (m : CacheManager) (key : Bytes) : CacheManager :=
  { m with entries := m.entries.erase key }

def markDirty (m : CacheManager) : CacheManager := { m with dirty := m.dirty + 1 }

/-- `stats.ProfileEntries.Add` -/
def addEntries (m : CacheManager) (n : Int) : CacheManager :=
  { m with profileEntries := m.profileEntries + n }

theorem load_put (m : CacheManager) (key k : Bytes) (e : ProfileEntry) :
    (m.put key e).load k = if k = key then some e else m.load k := by
  by_cases h : k = key
  · subst h
    rw [if_pos rfl]
    exact AList.lookup_insert m.entries
  · rw [if_neg h]
    exact AList.lookup_insert_ne h

theorem load_delete (m : CacheManager) (key k : Bytes) :
    (m.delete key).load k = if k = key then none else m.load k := by
  by_cases h : k = key
  · subst h
    rw [if_pos rfl]
    exact AList.lookup_erase k m.entries
  · rw [if_neg h]
    exact AList.lookup_erase_ne h

@[simp] theorem load_put_self (m : CacheManager) (key : Bytes) (e : ProfileEntry) :
    (m.put key e).load key = some e := by
  rw [load_put, if_pos rfl]

theorem load_put_ne (m : CacheManager) {key k : Bytes} (h : k ≠ key) (e : ProfileEntry) :
    (m.put key e).load k = m.load k := by
  rw [load_put, if_neg h]

@[simp] theorem load_markDirty (m : CacheManager) (k : Bytes) :
    m.markDirty.load k = m.load k := rfl

@[simp] theorem load_addEntries (m : CacheManager) (n : Int) (k : Bytes) :
    (m.addEntries n).load k = m.load k := rfl

@[simp] theorem baseTTL_put (m : CacheManager) (key : Bytes) (e : ProfileEntry) :
    (m.put key e).baseTTL = m.baseTTL := rfl

@[simp] theorem load_newCacheManager (k : Bytes) : newCacheManager.load k = none :=
  AList.lookup_empty k

/-! ## Eviction -/

/-- The accumulators of the scan; the empty key stands for "none yet". -/
structure EvictScan where
  negativeKey : Bytes := []
  staleKey : Bytes := []
  oldestKey : Bytes := []
  oldestTime : Int := zeroTime

/-- One call of the `Range` callback. The default branch follows
`entry.Profile` on both sides of its `||`. -/
def evictVisit (m : CacheManager) (acc : EvictScan) (key : Bytes) :
    Except Panic EvictScan :=
  match m.load key with
  | none => .ok acc
  | some e =>
      match e.state with
      | .negative =>
          .ok (if acc.negativeKey = [] then { acc with negativeKey := key } else acc)
      | .stale => .ok (if acc.staleKey = [] then { acc with staleKey := key } else acc)
      -- Valid, suspect and QUARANTINED entries compete by age, and only they are followed.
      | _ =>
          match e.profile with
          | none => .error .nilDeref
          | some p =>
              if acc.oldestKey = [] || p.capturedAt < acc.oldestTime then
                .ok { acc with oldestKey := key, oldestTime := p.capturedAt }
              else .ok acc

/-- `sync.Map.Range` visits the keys in some order. -/
def visitOrder (m : CacheManager) (order : List Bytes) : List Bytes :=
  visits m.entries.keys order

def EvictScan.evictKey (acc : EvictScan) : Bytes :=
  if acc.negativeKey ≠ [] then acc.negativeKey
  else if acc.staleKey ≠ [] then acc.staleKey
  else acc.oldestKey

def evictIfFull (m : CacheManager) (order : List Bytes) : Except Panic CacheManager :=
  if m.profileEntries ≤ m.maxProfiles then .ok m
  else do
    let acc ← (m.visitOrder order).foldlM m.evictVisit {}
    -- Eviction does not mark the cache dirty, and it removes one entry, however many are over.
    if acc.evictKey ≠ [] then .ok ((m.delete acc.evictKey).addEntries (-1)) else .ok m

/-- Eviction changes nothing, or removes one key. -/
theorem evictIfFull_cases {m m' : CacheManager} {order : List Bytes}
    (h : m.evictIfFull order = .ok m') :
    m' = m ∨ m.maxProfiles < m.profileEntries ∧
      ∃ k, m' = (m.delete k).addEntries (-1) := by
  unfold evictIfFull at h
  split at h
  · exact .inl (Except.ok.inj h).symm
  next hfull =>
    cases hs : (m.visitOrder order).foldlM m.evictVisit {} with
    | error p => rw [hs] at h; cases h
    | ok acc =>
        rw [hs] at h
        change (if acc.evictKey ≠ [] then _ else _) = _ at h
        split at h
        · exact .inr ⟨by omega, acc.evictKey, (Except.ok.inj h).symm⟩
        · exact .inl (Except.ok.inj h).symm

/-- What eviction leaves at a key: the entry that was there, or nothing. -/
theorem load_evictIfFull {m m' : CacheManager} {order : List Bytes}
    (h : m.evictIfFull order = .ok m') (k : Bytes) :
    m'.load k = m.load k ∨ m'.load k = none ∧ m.maxProfiles < m.profileEntries := by
  obtain rfl | ⟨hfull, key, rfl⟩ := evictIfFull_cases h
  · exact .inl rfl
  · rw [load_addEntries, load_delete]
    split
    · exact .inr ⟨rfl, hfull⟩
    · exact .inl rfl

/-! ## Storing, swapping, invalidating -/

/-- The cache when a new entry is in, and eviction has not run. -/
def inserted (m : CacheManager) (key : Bytes) (e : ProfileEntry) : CacheManager :=
  ((m.put key e).addEntries 1).markDirty

@[simp] theorem load_inserted (m : CacheManager) (key k : Bytes) (e : ProfileEntry) :
    (m.inserted key e).load k = if k = key then some e else m.load k := load_put m key k e

/-- The tail of every insertion: count, mark dirty, evict. -/
def insertNew (m : CacheManager) (key : Bytes) (e : ProfileEntry) (order : List Bytes) :
    Except Panic CacheManager :=
  (m.inserted key e).evictIfFull order

/-- `StoreProfile`: an existing entry is kept. -/
def storeProfile (m : CacheManager) (key : Bytes) (profile : RealityProfile)
    (order : List Bytes) : Except Panic (CacheManager × Bool) :=
  match m.load key with
  | some _ => .ok (m, false)
  | none => do
      let m' ← m.insertNew key (freshEntry profile m.baseTTL) order
      .ok (m', true)

def hotSwapProfile (m : CacheManager) (key : Bytes) (newProfile : RealityProfile) :
    CacheManager :=
  (m.put key (freshEntry newProfile m.baseTTL)).markDirty

def invalidateProfile (m : CacheManager) (key : Bytes) : CacheManager :=
  match m.load key with
  | none => m
  | some _ => ((m.delete key).addEntries (-1)).markDirty

/-! ## Reading -/

/-- `GetProfile` returns the profile and whether it is stale; it moves an
expired entry to stale and drops a negative one whose backoff is over. -/
def getProfile (m : CacheManager) (key : Bytes) (now : Int) :
    Except Panic (CacheManager × Option RealityProfile × Bool) :=
  match m.load key with
  | none => .ok (m, none, false)
  | some e =>
      match e.state with
      | .valid =>
          match e.profile with
          | none => .error .nilDeref
          | some p =>
              if timeSub now p.capturedAt < e.ttl then .ok (m, some p, false)
              else .ok (m.put key (e.setState .stale), some p, true)
      | .stale => .ok (m, e.profile, true)
      | .negative =>
          if now < e.nextRetry then .ok (m, none, false)
          -- The sweep deletes by key.
          else .ok ((m.delete key).addEntries (-1), none, false)
      | _ => .ok (m, none, false)

/-! ## Stale and negative marks -/

def markStale (m : CacheManager) (key : Bytes) : CacheManager :=
  match m.load key with
  | none => m
  | some e => m.put key (e.markStale m.baseTTL)

def markNegative (m : CacheManager) (key : Bytes) (now : Int) : CacheManager :=
  match m.load key with
  | none =>
      (m.put key
        { state := .negative, atomicState := .negative, failCount := 1,
          nextRetry := now + minute, ttl := m.baseTTL }).addEntries 1
  | some e => m.put key (e.markNegative now)

end CacheManager

end Reality
