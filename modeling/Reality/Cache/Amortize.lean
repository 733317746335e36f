import Reality.Cache.Manager

/-!
# Amortization: lookup, evidence, quarantine

The amortize side of the cache (amortize.go, amortize_cache.go): which path
a lookup selects, how observations are merged into an entry, and how
handshake failures quarantine a key.
-/

namespace Reality

open Kit

/-- `AmortizeMode`; the type is a Go `int`, so other values exist. -/
inductive AmortizeMode where
  | default
  | l0
  | l1
  | l2
  | auto
  | other (n : Int)
  deriving DecidableEq, Repr

inductive AmortizePath where
  | l0
  | l1
  | l2
  deriving DecidableEq, Repr

def defaultAmortizeMode : AmortizeMode := .l2

def resolveAmortizeMode : AmortizeMode → AmortizeMode
  | .default => defaultAmortizeMode
  | .l0 => .l0
  | .l1 => .l1
  | .l2 => .l2
  | .auto => .auto
  | .other _ => defaultAmortizeMode

theorem resolveAmortizeMode_cases (mode : AmortizeMode) :
    resolveAmortizeMode mode = .l0 ∨ resolveAmortizeMode mode = .l1 ∨
      resolveAmortizeMode mode = .l2 ∨ resolveAmortizeMode mode = .auto := by
  cases mode <;> simp [resolveAmortizeMode, defaultAmortizeMode]

def minL2Evidence : Nat := 2

def maxL2FailWindow : Nat := 2

def maxL2ProfileAge : Int := 10 * minute

def quarantineCooldown : Int := 5 * minute

/-! ## Eligibility -/

/-- `profileL2Eligible`. The evidence gate reads `LiveEvidence` and falls
back to `Evidence` when that is NOT POSITIVE. -/
def profileL2Eligible (p : RealityProfile) (now : Int) : Bool :=
  if p.source = sourceProbe then false
  else
    let live := if p.liveEvidence ≤ 0 then p.evidence else p.liveEvidence
    if live < minL2Evidence then false
    else if p.acceptsHRR then false
    else if p.keyShareGroup = 0 || p.cipherSuite = 0 then false
    else if p.serverHelloTemplate = [] then false
    else if !validateRecordLens p.recordLens || p.recordLens 0 = 0 then false
    else if p.shapeHash = 0 then false
    else if p.capturedAt = zeroTime || timeSub now p.capturedAt > maxL2ProfileAge then false
    else true

/-- The gates, as one record. -/
structure L2Eligible (p : RealityProfile) (now : Int) : Prop where
  source : p.source ≠ sourceProbe
  live : (minL2Evidence : Int) ≤ if p.liveEvidence ≤ 0 then p.evidence else p.liveEvidence
  hrr : p.acceptsHRR = false
  group : p.keyShareGroup ≠ 0
  suite : p.cipherSuite ≠ 0
  template : p.serverHelloTemplate ≠ []
  lens : validateRecordLens p.recordLens = true
  r0 : p.recordLens 0 ≠ 0
  shape : p.shapeHash ≠ 0
  captured : p.capturedAt ≠ zeroTime
  age : timeSub now p.capturedAt ≤ maxL2ProfileAge

theorem profileL2Eligible_iff {p : RealityProfile} {now : Int} :
    profileL2Eligible p now = true ↔ L2Eligible p now := by
  constructor
  · intro h
    simp only [profileL2Eligible, Bool.if_false_left, Bool.and_eq_true, Bool.not_eq_true',
      decide_eq_false_iff_not, Bool.or_eq_false_iff, not_lt, Bool.not_eq_false',
      Bool.decide_eq_true, and_true, gt_iff_lt] at h
    obtain ⟨h1, h2, h3, ⟨h4, h5⟩, h6, ⟨h7, h8⟩, h9, h10, h11⟩ := h
    exact ⟨h1, h2, h3, h4, h5, h6, h7, h8, h9, h10, h11⟩
  · intro h
    simp only [profileL2Eligible, if_neg h.source, if_neg (not_lt.mpr h.live), h.hrr,
      h.group, h.suite, h.template, h.lens, h.r0, h.shape, h.captured,
      not_lt.mpr h.age]
    simp

def clientPolicyCompatible (p : RealityProfile) (liveCipher : UInt16)
    (liveGroup : CurveID) : Bool :=
  if liveCipher ≠ 0 && p.cipherSuite ≠ liveCipher then false
  else if liveGroup ≠ 0 && p.keyShareGroup ≠ liveGroup then false
  else true

/-! ## Lookup -/

/-- The arguments of `lookupAmortize`. -/
structure Query where
  mode : AmortizeMode
  dest : Bytes
  serverName : Bytes
  alpn : Bytes
  tlsVersion : UInt16 := versionTLS13
  chClass : Bytes
  softChClass : Bytes := []
  liveCipher : UInt16 := 0
  liveGroup : CurveID := 0
  deriving DecidableEq

def Query.exactKey (q : Query) : Bytes :=
  cacheKeyV2 q.dest q.serverName q.alpn q.tlsVersion q.chClass

def Query.softKey (q : Query) : Bytes :=
  cacheKeyV2 q.dest q.serverName q.alpn q.tlsVersion q.softChClass

def Query.legacyKey (q : Query) : Bytes := cacheKey q.serverName q.alpn q.tlsVersion

structure LookupResult where
  profile : Option RealityProfile := none
  path : AmortizePath := .l0
  key : Bytes := []
  stale : Bool := false
  deriving DecidableEq

/-- Whether an entry may go zero-dial when it answers under `key`. -/
def l2Allowed (mode : AmortizeMode) (q : Query) (now : Int) (key : Bytes)
    (suspect stale : Bool) (p : RealityProfile) : Bool :=
  !suspect && !stale && !isLegacyCacheKey key && !isSoftCacheKey key &&
    profileL2Eligible p now && (mode = .l2 || mode = .auto) &&
    clientPolicyCompatible p q.liveCipher q.liveGroup

/-- Whether a profile contradicts what the live ServerHello showed. -/
def l1Conflict (q : Query) (p : RealityProfile) : Bool :=
  (q.liveCipher ≠ 0 && p.cipherSuite ≠ 0 && p.cipherSuite ≠ q.liveCipher) ||
    (q.liveGroup ≠ 0 && p.keyShareGroup ≠ 0 && p.keyShareGroup ≠ q.liveGroup) ||
    (p.tlsVersion ≠ 0 && q.tlsVersion ≠ 0 && p.tlsVersion ≠ q.tlsVersion)

namespace CacheManager

/-- The `probe` closure: `mode` is the RESOLVED mode. An expired valid entry
becomes stale even when the probe goes on to answer nothing. -/
def probe (m : CacheManager) (mode : AmortizeMode) (q : Query) (now : Int) (key : Bytes) :
    CacheManager × Option LookupResult :=
  match m.load key with
  | none => (m, none)
  | some e =>
      if e.atomicState = .negative || e.atomicState = .quarantined then (m, none)
      else if e.state = .negative || e.state = .quarantined then (m, none)
      else
        match e.profile with
        | none => (m, none)
        | some p =>
            if !validateRecordLens p.recordLens then (m, none)
            else
              let suspect : Bool := e.state = .suspect
              let expired : Bool := timeSub now p.capturedAt ≥ e.ttl
              let m' := if expired && e.state = .valid then m.put key (e.setState .stale) else m
              let stale : Bool := e.state = .stale || expired
              if l2Allowed mode q now key suspect stale p then
                (m', some { profile := some p, path := .l2, key := key, stale := false })
              else if mode = .l1 || mode = .auto || mode = .l2 then
                if l1Conflict q p then (m', none)
                else (m', some { profile := some p, path := .l1, key := key, stale := stale })
              else (m', none)

/-- `lookupAmortize`: exact class, soft class, legacy key. -/
def lookupAmortize (m : CacheManager) (q : Query) (now : Int) :
    CacheManager × LookupResult :=
  let mode := resolveAmortizeMode q.mode
  if mode = .l0 then (m, {})
  else
    let r₁ := if q.chClass ≠ [] then m.probe mode q now q.exactKey else (m, none)
    match r₁.2 with
    | some res => (r₁.1, res)
    | none =>
        let r₂ :=
          if q.softChClass ≠ [] && q.softChClass ≠ q.chClass then
            r₁.1.probe mode q now q.softKey
          else (r₁.1, none)
        match r₂.2 with
        | some res => (r₂.1, res)
        | none =>
            let r₃ := r₂.1.probe mode q now q.legacyKey
            match r₃.2 with
            | some res => (r₃.1, res)
            | none => (r₃.1, {})

/-! ## Observations -/

end CacheManager

def isProbe (obs : RealityProfile) : Bool := obs.source = sourceProbe

/-- What `StoreObservation` does to the observation it is handed. -/
def normalizeObs (obs : RealityProfile) : RealityProfile :=
  let obs :=
    if obs.recordMode = 0 then { obs with recordMode := inferRecordMode obs.recordLens }
    else obs
  if isProbe obs then { obs with liveEvidence := 0 } else obs

def profilesMatch (a b : RealityProfile) : Bool :=
  let am := if a.recordMode = 0 then inferRecordMode a.recordLens else a.recordMode
  let bm := if b.recordMode = 0 then inferRecordMode b.recordLens else b.recordMode
  if a.cipherSuite ≠ b.cipherSuite then false
  else if a.keyShareGroup ≠ 0 && b.keyShareGroup ≠ 0 && a.keyShareGroup ≠ b.keyShareGroup
  then false
  else if a.acceptsHRR ≠ b.acceptsHRR then false
  else if am ≠ bm then false
  else if !(List.range 6).all (fun i => a.recordLens (Fin.ofNat 7 i) =
    b.recordLens (Fin.ofNat 7 i)) then false
  else if a.shapeHash ≠ 0 && b.shapeHash ≠ 0 && a.shapeHash ≠ b.shapeHash then false
  else true

/-- Evidence of an observation that starts a ladder over. -/
def stampFirst (obs : RealityProfile) : RealityProfile :=
  if isProbe obs then { obs with evidence := 0, liveEvidence := 0, source := sourceProbe }
  else { obs with evidence := 1, liveEvidence := 1, source := sourceLive }

/-- Evidence of the candidate a suspect entry is swapped to. -/
def stampSwap (obs : RealityProfile) : RealityProfile :=
  if isProbe obs then { obs with evidence := 0, liveEvidence := 0, source := sourceProbe }
  else
    { obs with
      evidence := if obs.evidence < 1 then 1 else obs.evidence
      liveEvidence := if obs.liveEvidence < 1 then 1 else obs.liveEvidence
      source := sourceLive }

/-- Evidence of an observation that creates its entry. -/
def stampNew (obs : RealityProfile) : RealityProfile :=
  if isProbe obs then { obs with evidence := 0, liveEvidence := 0, source := sourceProbe }
  else
    let evidence := if obs.evidence < 1 then 1 else obs.evidence
    { obs with
      source := if obs.source = [] then sourceLive else obs.source
      evidence := evidence
      liveEvidence := if obs.liveEvidence < 1 then evidence else obs.liveEvidence }

/-- A matching observation: shape and times from `obs`, template and
certificate meta only when it has them, evidence only when it is live. -/
def mergeObs (cur obs : RealityProfile) : RealityProfile :=
  { cur with
    recordLens := obs.recordLens
    fingerprint := obs.fingerprint
    cipherSuite := obs.cipherSuite
    alpn := obs.alpn
    tlsVersion := obs.tlsVersion
    recordCount := obs.recordCount
    capturedAt := obs.capturedAt
    dest := obs.dest
    serverName := obs.serverName
    chClass := obs.chClass
    keyShareGroup := obs.keyShareGroup
    acceptsHRR := obs.acceptsHRR
    shapeHash := obs.shapeHash
    serverHelloTemplate :=
      if obs.serverHelloTemplate.length > 0 then obs.serverHelloTemplate
      else cur.serverHelloTemplate
    certMeta := if obs.certMeta.isSome then obs.certMeta else cur.certMeta
    source :=
      if isProbe obs then (if cur.source = [] then sourceProbe else cur.source)
      else sourceLive
    evidence := if isProbe obs then cur.evidence else cur.evidence + 1
    liveEvidence := if isProbe obs then cur.liveEvidence else cur.liveEvidence + 1
    stability :=
      if isProbe obs then cur.stability
      else if cur.stability < 10 then cur.stability + 1 else cur.stability
    recordMode := obs.recordMode }

/-- The branch `StoreObservation` took. -/
inductive StoreOutcome where
  | ignored
  | calibrated
  | merged
  | swapped
  | confirming
  | suspected
  | created
  deriving DecidableEq, Repr

/-- What an observation does to the entry that is there. -/
def ProfileEntry.observe (e : ProfileEntry) (obs : RealityProfile) (baseTTL now : Int) :
    ProfileEntry × StoreOutcome :=
  if e.state = .quarantined then
    if now < e.nextRetry then (e, .ignored)
    else
      let cp := stampFirst obs
      let cp := if cp.stability < 1 then { cp with stability := 1 } else cp
      ({ e.setState .valid with
          profile := some cp, failCount := 0, nextRetry := zeroTime, ttl := baseTTL },
        .calibrated)
  else if e.profile.any (profilesMatch · obs) then
    ({ e.setState .valid with
        profile := e.profile.map (mergeObs · obs), ttl := baseTTL, failCount := 0 }, .merged)
  -- The source tests the same match once more for a suspect entry.
  else if e.state = .suspect && e.profile.any (profilesMatch · obs) then
    let e := { e with failCount := e.failCount + 1 }
    if e.failCount ≥ 2 then
      ({ e.setState .valid with
          profile := some (stampSwap obs), failCount := 0, ttl := baseTTL }, .swapped)
    else (e, .confirming)
  else
    ({ e.setState .suspect with profile := some (stampFirst obs), failCount := 1 },
      .suspected)

namespace CacheManager

/-- `StoreObservation` of a non-nil observation. -/
def storeObservation (m : CacheManager) (key : Bytes) (obs : RealityProfile) (now : Int)
    (order : List Bytes) : Except Panic (CacheManager × StoreOutcome) :=
  if !validateRecordLens obs.recordLens then .ok (m, .ignored)
  else
    let obs := normalizeObs obs
    match m.load key with
    | some e =>
        let r := e.observe obs m.baseTTL now
        if r.2 = .ignored then .ok (m, .ignored)
        else .ok ((m.put key r.1).markDirty, r.2)
    | none => do
        let m' ← m.insertNew key (freshEntry (stampNew obs) m.baseTTL) order
        .ok (m', .created)

/-! ## Quarantine -/

end CacheManager

/-- Enter quarantine. `Evidence` is dropped; `LiveEvidence` is NOT. -/
def ProfileEntry.quarantine (e : ProfileEntry) (now : Int) : ProfileEntry :=
  { e.setState .quarantined with
    nextRetry := now + quarantineCooldown
    profile := e.profile.map fun p => { p with evidence := 0 } }

namespace CacheManager

/-- `Quarantine`; the flag says whether the entry was created. -/
def quarantine (m : CacheManager) (key : Bytes) (now : Int) : CacheManager × Bool :=
  match m.load key with
  | none =>
      (((m.put key
        { state := .quarantined, atomicState := .quarantined,
          failCount := maxL2FailWindow, nextRetry := now + quarantineCooldown,
          ttl := m.baseTTL }).addEntries 1).markDirty, true)
  | some e =>
      ((m.put key { e.quarantine now with failCount := maxL2FailWindow }).markDirty, false)

def noteHandshakeFailure (m : CacheManager) (key : Bytes) (path : AmortizePath)
    (now : Int) : CacheManager :=
  if key = [] then m
  else if path ≠ .l1 && path ≠ .l2 then m
  else
    match m.load key with
    | none => m
    | some e =>
        let e := { e with failCount := e.failCount + 1 }
        if e.failCount ≥ maxL2FailWindow then (m.put key (e.quarantine now)).markDirty
        else if e.state = .valid then (m.put key (e.setState .suspect)).markDirty
        else (m.put key e).markDirty

end CacheManager

end Reality
