import Reality.Cache.Ops
import Reality.Kit.Checked

/-!
# The other readers of the cache

The lookups of cache_manager.go and amortize_cache.go that the handshake path
does not make: `GetOrProbeForHandshake`, `FindFullCachedProfile`,
`FindCachedProfileByDest` and `SnapshotProfiles`. None of them writes.

Each follows `entry.Profile` where the source does (`deref`), behind the tests
the source makes first. Two of them test the POINTER, one the state being
valid or stale, and one only the state not being negative. `CacheCall` puts
them together with the operations that write.
-/

namespace Reality

open Kit

/-- Follow `entry.Profile`. -/
def ProfileEntry.deref (e : ProfileEntry) : Except Panic RealityProfile :=
  match e.profile with
  | none => .error .nilDeref
  | some p => .ok p

@[simp] theorem ProfileEntry.returned_deref (e : ProfileEntry) :
    Returned e.deref ↔ e.profile ≠ none := by
  unfold deref
  cases e.profile <;> simp

/-- The guard of both searches by dest. -/
def ProfileEntry.unusable (e : ProfileEntry) : Bool :=
  e.state = .negative || e.state = .quarantined || e.profile.isNone

theorem ProfileEntry.profile_of_usable {e : ProfileEntry} (h : ¬ e.unusable = true) :
    e.profile ≠ none := by
  intro hp
  simp [unusable, hp] at h

/-- The arguments of `FindCachedProfileByDest`. -/
structure DestQuery where
  dest : Bytes
  serverName : Bytes
  cipherSuite : UInt16
  alpn : Bytes
  tlsVersion : UInt16

namespace CacheManager

/-- `GetOrProbeForHandshake`; `probed` is what the probe of the slow path comes to. -/
def getOrProbeForHandshake (m : CacheManager) (key : Bytes) (now : Int)
    (probed : Option RealityProfile) : Except Panic (Option RealityProfile) :=
  match m.load key with
  | none => .ok probed
  | some e =>
      if e.state = .valid || e.state = .stale then
        e.deref.map fun p => if timeSub now p.capturedAt < e.ttl then some p else probed
      else .ok probed

/-- `FindFullCachedProfile`, at the legacy key; the dest is not looked at. -/
def findFullCachedProfile (m : CacheManager) (_dest serverName : Bytes)
    (cipherSuites : List UInt16) (alpn : Bytes) (now : Int) :
    Except Panic (Option RealityProfile) :=
  match m.load (cacheKey serverName alpn versionTLS13) with
  | none => .ok none
  | some e =>
      if e.state ≠ .negative then
        e.deref.map fun p =>
          if timeSub now p.capturedAt < e.ttl && validateRecordLens p.recordLens &&
            cipherSuites.contains p.cipherSuite then some p else none
      else .ok none

def findLensAtKey (m : CacheManager) (key : Bytes) (q : DestQuery) (now : Int) :
    Except Panic (Option (RecordLens × UInt16)) :=
  match m.load key with
  | none => .ok none
  | some e =>
      if e.unusable then .ok none
      else
        e.deref.map fun p =>
          if timeSub now p.capturedAt < e.ttl && p.cipherSuite = q.cipherSuite &&
            (q.tlsVersion = 0 || p.tlsVersion = 0 || p.tlsVersion = q.tlsVersion) &&
            validateRecordLens p.recordLens then
            if q.dest ≠ [] && p.dest ≠ [] && p.dest ≠ q.dest then none
            else some (p.recordLens, p.tlsVersion)
          else none

/-- One call of the `Range` callback of `FindCachedProfileByDest`. -/
def lensVisit (m : CacheManager) (q : DestQuery) (now : Int) (key : Bytes) :
    Except Panic (Option (RecordLens × UInt16)) :=
  match parseCacheKeyV2 key, m.load key with
  | some (dest, serverName, alpn, ver, _), some e =>
      if dest ≠ q.dest || serverName ≠ q.serverName || alpn ≠ q.alpn then .ok none
      else if ver ≠ 0 && q.tlsVersion ≠ 0 && ver ≠ q.tlsVersion then .ok none
      else if e.unusable then .ok none
      else
        e.deref.map fun p =>
          if timeSub now p.capturedAt ≥ e.ttl then none
          else if p.cipherSuite ≠ q.cipherSuite then none
          else if !validateRecordLens p.recordLens then none
          else some (p.recordLens, p.tlsVersion)
  | _, _ => .ok none

/-- A `Range` that goes on until an entry answered. -/
def lensScan (m : CacheManager) (q : DestQuery) (now : Int)
    (found : Option (RecordLens × UInt16)) (key : Bytes) :
    Except Panic (Option (RecordLens × UInt16)) :=
  match found with
  | some r => .ok (some r)
  | none => m.lensVisit q now key

/-- `FindCachedProfileByDest`: the legacy key, then all keys of the dest. -/
def findCachedProfileByDest (m : CacheManager) (q : DestQuery) (now : Int)
    (order : List Bytes) : Except Panic (Option (RecordLens × UInt16)) :=
  match m.findLensAtKey (cacheKey q.serverName q.alpn q.tlsVersion) q now with
  | .error e => .error e
  | .ok (some r) => .ok (some r)
  | .ok none =>
      if q.dest = [] then .ok none else (m.visitOrder order).foldlM (m.lensScan q now) none

/-- One call of the `Range` callback of `SnapshotProfiles`. -/
def snapshotVisit (m : CacheManager) (now : Int) (snap : List (Bytes × RealityProfile))
    (key : Bytes) : Except Panic (List (Bytes × RealityProfile)) :=
  match m.load key with
  | none => .ok snap
  | some e =>
      if e.state = .negative || e.profile.isNone then .ok snap
      else
        e.deref.map fun p =>
          if timeSub now p.capturedAt > e.ttl then snap else snap ++ [(key, p)]

def snapshotProfiles (m : CacheManager) (now : Int) (order : List Bytes) :
    Except Panic (List (Bytes × RealityProfile)) :=
  (m.visitOrder order).foldlM (m.snapshotVisit now) []

end CacheManager

/-! ## All calls -/

/-- A call of the manager, whether it writes or not. -/
inductive CacheCall where
  | op (op : CacheOp)
  | getOrProbeForHandshake (key : Bytes) (now : Int) (probed : Option RealityProfile)
  | findFullCachedProfile (dest serverName : Bytes) (cipherSuites : List UInt16) (alpn : Bytes)
      (now : Int)
  | findCachedProfileByDest (q : DestQuery) (now : Int) (order : List Bytes)
  | snapshotProfiles (now : Int) (order : List Bytes)

open CacheManager in
/-- The cache after a call. Unlike in `cacheStep`, NOTHING recovers from a panic. -/
def CacheManager.call (m : CacheManager) : CacheCall → Except Panic CacheManager
  | .op (.storeObservation key obs now order) => (m.storeObservation key obs now order).map (·.1)
  | .op (.lookup q now) => .ok (m.lookupAmortize q now).1
  | .op (.getProfile key now) => (m.getProfile key now).map (·.1)
  | .op (.quarantine key now) => .ok (m.quarantine key now).1
  | .op (.noteHandshakeFailure key path now) => .ok (m.noteHandshakeFailure key path now)
  | .op (.markNegative key now) => .ok (m.markNegative key now)
  | .op (.markStale key) => .ok (m.markStale key)
  | .op (.invalidateProfile key) => .ok (m.invalidateProfile key)
  | .op (.storeProfile key p order) => (m.storeProfile key p order).map (·.1)
  | .op (.hotSwapProfile key p) => .ok (m.hotSwapProfile key p)
  | .op (.evictIfFull order) => m.evictIfFull order
  | .getOrProbeForHandshake key now probed =>
      (m.getOrProbeForHandshake key now probed).map fun _ => m
  | .findFullCachedProfile dest serverName cipherSuites alpn now =>
      (m.findFullCachedProfile dest serverName cipherSuites alpn now).map fun _ => m
  | .findCachedProfileByDest q now order => (m.findCachedProfileByDest q now order).map fun _ => m
  | .snapshotProfiles now order => (m.snapshotProfiles now order).map fun _ => m

/-- A call that returns is a step of the cache, or leaves it alone. -/
theorem CacheManager.call_ok {m m' : CacheManager} {c : CacheCall} (h : m.call c = .ok m') :
    (∃ op out, c = .op op ∧ cacheStep m op = some (m', out)) ∨ m' = m := by
  cases c with
  | op op =>
      left
      refine ⟨op, ?_⟩
      cases op with
      | storeObservation key obs now order =>
          obtain ⟨r, hr, rfl⟩ := map_eq_ok h
          exact ⟨_, rfl, by rw [cacheStep, storeRecovered, hr]⟩
      | getProfile key now =>
          obtain ⟨r, hr, rfl⟩ := map_eq_ok h
          exact ⟨_, rfl, by rw [cacheStep, hr]⟩
      | storeProfile key p order =>
          obtain ⟨r, hr, rfl⟩ := map_eq_ok h
          exact ⟨_, rfl, by rw [cacheStep, hr]⟩
      | evictIfFull order =>
          have hr : m.evictIfFull order = .ok m' := h
          exact ⟨_, rfl, by rw [cacheStep, hr]⟩
      | _ =>
          cases h
          exact ⟨_, rfl, rfl⟩
  | _ =>
      obtain ⟨r, -, rfl⟩ := map_eq_ok h
      exact .inr rfl

end Reality
