import Reality.Cache.Amortize

/-!
# What a lookup answers

One inversion lemma for `probe` and one for `lookupAmortize`, from which the
properties of lookups follow without unfolding either again; then the
question under WHICH KEY a zero-dial answer can be found.

The code tells exact, soft and legacy keys apart by counting `|` in the
finished string. The ALPN inside that string is the client's, and a legacy
key whose ALPN carries two of them passes for a V2 key.
-/

namespace Reality

open Kit

/-- A valid entry that the lock-free precheck does not reject. -/
def ProfileEntry.Ageable (e : ProfileEntry) : Prop :=
  e.state = .valid ∧ e.atomicState ≠ .negative ∧ e.atomicState ≠ .quarantined

/-- What a probe that answers `r` under `key` has seen: entry `e`, profile `p`. -/
structure Answered (mode : AmortizeMode) (q : Query) (now : Int) (key : Bytes)
    (e : ProfileEntry) (p : RealityProfile) (r : LookupResult) : Prop where
  holds : e.profile = some p
  atomicNeg : e.atomicState ≠ .negative
  atomicQuar : e.atomicState ≠ .quarantined
  stateNeg : e.state ≠ .negative
  stateQuar : e.state ≠ .quarantined
  lens : validateRecordLens p.recordLens = true
  profile : r.profile = some p
  key_eq : r.key = key
  path : r.path = .l2 ∧ e.state ≠ .suspect ∧ e.state ≠ .stale ∧
      isLegacyCacheKey key = false ∧ isSoftCacheKey key = false ∧
      profileL2Eligible p now = true ∧ (mode = .l2 ∨ mode = .auto) ∧
      clientPolicyCompatible p q.liveCipher q.liveGroup = true ∨
    r.path = .l1 ∧ l1Conflict q p = false

namespace CacheManager

variable {m m' : CacheManager} {mode : AmortizeMode} {q : Query} {now : Int} {key : Bytes}
variable {r : LookupResult}

theorem l2Allowed_eq_true {suspect stale : Bool} {p : RealityProfile}
    (h : l2Allowed mode q now key suspect stale p = true) :
    suspect = false ∧ stale = false ∧ isLegacyCacheKey key = false ∧
      isSoftCacheKey key = false ∧ profileL2Eligible p now = true ∧
      (mode = .l2 ∨ mode = .auto) ∧
      clientPolicyCompatible p q.liveCipher q.liveGroup = true := by
  simp only [l2Allowed, Bool.and_eq_true, Bool.not_eq_true', Bool.or_eq_true,
    decide_eq_true_eq] at h
  obtain ⟨⟨⟨⟨⟨⟨h1, h2⟩, h3⟩, h4⟩, h5⟩, h6⟩, h7⟩ := h
  exact ⟨h1, h2, h3, h4, h5, h6, h7⟩

theorem probe_some (h : (m.probe mode q now key).2 = some r) :
    ∃ e p, m.load key = some e ∧ Answered mode q now key e p r := by
  unfold probe at h
  cases hl : m.load key with
  | none => rw [hl] at h; cases h
  | some e =>
      rw [hl] at h
      dsimp only at h
      -- The checks in the order of the source: atomic state, state, profile, lengths, path.
      split at h
      · cases h
      next hatomic =>
        split at h
        · cases h
        next hstate =>
          simp only [Bool.or_eq_true, decide_eq_true_eq, not_or] at hatomic hstate
          cases hp : e.profile with
          | none => rw [hp] at h; cases h
          | some p =>
              rw [hp] at h
              dsimp only at h
              split at h
              · cases h
              next hlens =>
                have hlens : validateRecordLens p.recordLens = true := by simpa using hlens
                split at h
                next hl2 =>
                  obtain ⟨h1, h2, h3, h4, h5, h6, h7⟩ := l2Allowed_eq_true hl2
                  simp only [Bool.or_eq_false_iff, decide_eq_false_iff_not] at h1 h2
                  cases h
                  exact ⟨e, p, rfl, hp, hatomic.1, hatomic.2, hstate.1, hstate.2, hlens,
                    rfl, rfl, .inl ⟨rfl, h1, h2.1, h3, h4, h5, h6, h7⟩⟩
                · split at h
                  · split at h
                    · cases h
                    next hconf =>
                      cases h
                      exact ⟨e, p, rfl, hp, hatomic.1, hatomic.2, hstate.1, hstate.2, hlens,
                        rfl, rfl, .inr ⟨rfl, by simpa using hconf⟩⟩
                  · cases h

/-- A probe leaves the cache alone or ages the one entry it looked at. -/
theorem probe_fst (m : CacheManager) (mode : AmortizeMode) (q : Query) (now : Int)
    (key : Bytes) :
    (m.probe mode q now key).1 = m ∨
      ∃ e, m.load key = some e ∧ e.Ageable ∧
        (m.probe mode q now key).1 = m.put key (e.setState .stale) := by
  unfold probe
  cases hl : m.load key with
  | none => exact .inl rfl
  | some e =>
      dsimp only
      split
      · exact .inl rfl
      next hatomic =>
        simp only [Bool.or_eq_true, decide_eq_true_eq, not_or] at hatomic
        split
        · exact .inl rfl
        · cases hp : e.profile with
          | none => exact .inl rfl
          | some p =>
              dsimp only
              split
              · exact .inl rfl
              · -- Every remaining exit carries the same, possibly aged, cache.
                by_cases hexp : (decide (timeSub now p.capturedAt ≥ e.ttl) &&
                    decide (e.state = .valid)) = true
                · refine .inr ⟨e, rfl, ?_, ?_⟩
                  · simp only [Bool.and_eq_true, decide_eq_true_eq] at hexp
                    exact ⟨hexp.2, hatomic⟩
                  · rw [if_pos hexp]
                    split
                    · rfl
                    · split
                      · split <;> rfl
                      · rfl
                · left
                  rw [if_neg hexp]
                  split
                  · rfl
                  · split
                    · split <;> rfl
                    · rfl

/-- `m'` is `m` with some valid entries turned stale. -/
def Aged (m m' : CacheManager) : Prop :=
  (∀ k, m'.load k = m.load k ∨
    ∃ e, m.load k = some e ∧ e.Ageable ∧ m'.load k = some (e.setState .stale)) ∧
  m'.profileEntries = m.profileEntries ∧ m'.maxProfiles = m.maxProfiles ∧
  m'.baseTTL = m.baseTTL

theorem Aged.refl (m : CacheManager) : Aged m m :=
  ⟨fun _ => .inl rfl, rfl, rfl, rfl⟩

theorem Aged.trans {m₁ m₂ m₃ : CacheManager} (h : Aged m₁ m₂) (h' : Aged m₂ m₃) :
    Aged m₁ m₃ := by
  refine ⟨fun k => ?_, h'.2.1.trans h.2.1, h'.2.2.1.trans h.2.2.1, h'.2.2.2.trans h.2.2.2⟩
  rcases h.1 k with h1 | ⟨e, he, hv, hs⟩ <;> rcases h'.1 k with h2 | ⟨e', he', hv', hs'⟩
  · exact .inl (h2.trans h1)
  · exact .inr ⟨e', h1 ▸ he', hv', hs'⟩
  · exact .inr ⟨e, he, hv, h2.trans hs⟩
  -- An entry ages once: stale is not ageable.
  · rw [hs] at he'
    cases he'
    cases hv'.1

theorem probe_aged (m : CacheManager) (mode : AmortizeMode) (q : Query) (now : Int)
    (key : Bytes) : Aged m (m.probe mode q now key).1 := by
  rcases probe_fst m mode q now key with h | ⟨e, he, hv, h⟩
  · rw [h]
    exact Aged.refl m
  · rw [h]
    refine ⟨fun k => ?_, rfl, rfl, rfl⟩
    rw [load_put]
    split
    next hk => exact .inr ⟨e, hk ▸ he, hv, rfl⟩
    · exact .inl rfl

/-- What every probe keeps, a lookup keeps. -/
theorem lookupAmortize_keeps {P : CacheManager → Prop} {q : Query} {now : Int}
    (hstep : ∀ m mode key, P m → P (m.probe mode q now key).1) {m : CacheManager} (h : P m) :
    P (m.lookupAmortize q now).1 := by
  unfold lookupAmortize
  dsimp only
  split
  · exact h
  · generalize hr₁ : (if q.chClass ≠ [] then
        m.probe (resolveAmortizeMode q.mode) q now q.exactKey else (m, none)) = r₁
    have h₁ : P r₁.1 := by
      subst hr₁
      split
      · exact hstep _ _ _ h
      · exact h
    cases r₁.2 with
    | some res => exact h₁
    | none =>
        dsimp only
        generalize hr₂ : (if (q.softChClass ≠ [] && q.softChClass ≠ q.chClass) = true then
          r₁.1.probe (resolveAmortizeMode q.mode) q now q.softKey else (r₁.1, none)) = r₂
        have h₂ : P r₂.1 := by
          subst hr₂
          split
          · exact hstep _ _ _ h₁
          · exact h₁
        cases r₂.2 with
        | some res => exact h₂
        | none =>
            have h₃ := hstep r₂.1 (resolveAmortizeMode q.mode) q.legacyKey h₂
            dsimp only
            generalize r₂.1.probe (resolveAmortizeMode q.mode) q now q.legacyKey = r₃ at h₃ ⊢
            cases r₃.2 with
            | some res => exact h₃
            | none => exact h₃

/-- The keys a lookup tries. -/
def Tries (q : Query) (key : Bytes) : Prop :=
  key = q.exactKey ∧ q.chClass ≠ [] ∨
  key = q.softKey ∧ q.softChClass ≠ [] ∧ q.softChClass ≠ q.chClass ∨
  key = q.legacyKey

/-- **Inversion of a lookup**: it answers nothing, or some probe of one of
its keys answered, in a cache that differs from the first only in age. -/
theorem lookupAmortize_cases (m : CacheManager) (q : Query) (now : Int) :
    Aged m (m.lookupAmortize q now).1 ∧
    ((m.lookupAmortize q now).2 = {} ∨
      ∃ m₁ key, Aged m m₁ ∧ Tries q key ∧
        (m₁.probe (resolveAmortizeMode q.mode) q now key).2
          = some (m.lookupAmortize q now).2) := by
  unfold lookupAmortize
  dsimp only
  split
  · exact ⟨Aged.refl m, .inl rfl⟩
  · generalize hr₁ : (if q.chClass ≠ [] then
        m.probe (resolveAmortizeMode q.mode) q now q.exactKey else (m, none)) = r₁
    have ha₁ : Aged m r₁.1 := by
      subst hr₁
      split
      · exact probe_aged ..
      · exact Aged.refl m
    cases h₁ : r₁.2 with
    | some res =>
        -- The exact key answered, and nothing was looked at before it.
        refine ⟨ha₁, .inr ⟨m, q.exactKey, Aged.refl m, ?_⟩⟩
        subst hr₁
        split at h₁
        next hc => exact ⟨.inl ⟨rfl, hc⟩, h₁⟩
        · cases h₁
    | none =>
        dsimp only
        generalize hr₂ : (if (q.softChClass ≠ [] && q.softChClass ≠ q.chClass) = true then
          r₁.1.probe (resolveAmortizeMode q.mode) q now q.softKey else (r₁.1, none)) = r₂
        have ha₂ : Aged m r₂.1 := by
          subst hr₂
          split
          · exact ha₁.trans (probe_aged ..)
          · exact ha₁
        cases h₂ : r₂.2 with
        | some res =>
            refine ⟨ha₂, .inr ⟨r₁.1, q.softKey, ha₁, ?_⟩⟩
            subst hr₂
            split at h₂
            next hc =>
              simp only [Bool.and_eq_true, decide_eq_true_eq] at hc
              exact ⟨.inr (.inl ⟨rfl, hc⟩), h₂⟩
            · cases h₂
        | none =>
            dsimp only
            cases h₃ : (r₂.1.probe (resolveAmortizeMode q.mode) q now q.legacyKey).2 with
            | some res =>
                exact ⟨ha₂.trans (probe_aged ..), .inr ⟨r₂.1, q.legacyKey, ha₂,
                  .inr (.inr rfl), h₃⟩⟩
            | none => exact ⟨ha₂.trans (probe_aged ..), .inl rfl⟩

theorem lookupAmortize_aged (m : CacheManager) (q : Query) (now : Int) :
    Aged m (m.lookupAmortize q now).1 := (lookupAmortize_cases m q now).1

/-- The answer of a lookup, seen in the cache it started from. -/
theorem lookupAmortize_answered (h : (m.lookupAmortize q now).2 = r)
    (hp : r.path ≠ .l0) :
    ∃ key e p, Tries q key ∧ m.load key = some e ∧
      Answered (resolveAmortizeMode q.mode) q now key e p r := by
  rcases (lookupAmortize_cases m q now).2 with h0 | ⟨m₁, key, ha, hk, hpr⟩
  · rw [h] at h0
    subst h0
    exact absurd rfl hp
  · rw [h] at hpr
    obtain ⟨e', p, he', hans⟩ := probe_some hpr
    rcases ha.1 key with hsame | ⟨e, he, hv, hs⟩
    · exact ⟨key, e', p, hk, hsame ▸ he', hans⟩
    · -- An entry aged by an earlier probe still serves its profile at L1.
      rw [hs] at he'
      cases he'
      refine ⟨key, e, p, hk, he, ?_⟩
      have hpath := hans.path.resolve_left (fun h => h.2.2.1 rfl)
      exact ⟨hans.holds, hv.2.1, hv.2.2, by simp [hv.1], by simp [hv.1], hans.lens,
        hans.profile, hans.key_eq, .inr hpath⟩

/-- A zero-dial answer is an eligible profile. -/
theorem lookupAmortize_eligible {p : RealityProfile} (h : (m.lookupAmortize q now).2 = r)
    (hl2 : r.path = .l2) (hp : r.profile = some p) : L2Eligible p now := by
  obtain ⟨key, e, p', -, -, hans⟩ := lookupAmortize_answered h (by rw [hl2]; decide)
  cases hp.symm.trans hans.profile
  rcases hans.path with ⟨-, -, -, -, -, helig, -⟩ | ⟨hl1, -⟩
  · exact profileL2Eligible_iff.mp helig
  · rw [hl2] at hl1
    cases hl1

/-! ## Which key can go zero-dial -/

/-- Modes under which a lookup may answer L2. -/
def zeroDialMode (mode : AmortizeMode) : Prop :=
  resolveAmortizeMode mode = .l2 ∨ resolveAmortizeMode mode = .auto

/-- The arguments under which only the exact key can be zero-dialed: the
legacy key is recognised as legacy, and the soft key as soft or not tried. -/
def OnlyExactL2 (q : Query) : Prop :=
  ¬ zeroDialMode q.mode ∨
    q.alpn.count sep < 2 ∧
      (q.softChClass = q.chClass ∨ str "s:" <+: lastField sep q.softChClass)

/-- A profile through every zero-dial gate, agreeing with the live values. -/
def readyProfile (q : Query) : RealityProfile :=
  { recordLens := ![127, 6, 41, 900, 281, 58, 0]
    cipherSuite := if q.liveCipher = 0 then 0x1301 else q.liveCipher
    keyShareGroup := if q.liveGroup = 0 then 29 else q.liveGroup
    shapeHash := 1
    serverHelloTemplate := [2]
    capturedAt := 0
    evidence := 2
    liveEvidence := 2
    source := sourceLive }

/-- A cache that holds the ready profile under one key. -/
def readyCache (q : Query) (key : Bytes) : CacheManager :=
  newCacheManager.put key (freshEntry (readyProfile q) profileTTL)

theorem profileL2Eligible_readyProfile (q : Query) :
    profileL2Eligible (readyProfile q) 0 = true := by
  rw [profileL2Eligible_iff]
  refine ⟨by simp only [readyProfile]; decide, by simp [readyProfile, minL2Evidence],
    rfl, ?_, ?_, by simp [readyProfile], ?_, by simp [readyProfile],
    by simp [readyProfile], by simp only [readyProfile]; decide,
    by simp only [readyProfile]; decide⟩
  · simp only [readyProfile]
    split
    · decide
    · assumption
  · simp only [readyProfile]
    split
    · decide
    · assumption
  · simp only [readyProfile]
    decide

theorem clientPolicyCompatible_readyProfile (q : Query) :
    clientPolicyCompatible (readyProfile q) q.liveCipher q.liveGroup = true := by
  simp only [clientPolicyCompatible, readyProfile]
  by_cases h1 : q.liveCipher = 0 <;> by_cases h2 : q.liveGroup = 0 <;> simp [h1, h2]

theorem probe_readyCache_ne {q : Query} {key k : Bytes} (h : k ≠ key)
    (mode : AmortizeMode) (now : Int) :
    (readyCache q key).probe mode q now k = (readyCache q key, none) := by
  have hl : (readyCache q key).load k = none := by
    rw [readyCache, load_put_ne _ h, load_newCacheManager]
  simp only [probe, hl]

theorem probe_readyCache {q : Query} {key : Bytes} {mode : AmortizeMode}
    (hm : mode = .l2 ∨ mode = .auto) (hleg : isLegacyCacheKey key = false)
    (hsoft : isSoftCacheKey key = false) :
    ((readyCache q key).probe mode q 0 key).2
      = some { profile := some (readyProfile q), path := .l2, key := key } := by
  have hl : (readyCache q key).load key = some (freshEntry (readyProfile q) profileTTL) :=
    load_put_self ..
  have hlens : validateRecordLens (readyProfile q).recordLens = true :=
    (profileL2Eligible_iff.mp (profileL2Eligible_readyProfile q)).lens
  have hexp : ¬ timeSub 0 (readyProfile q).capturedAt ≥ profileTTL := by
    simp only [readyProfile]
    decide
  have hallow : l2Allowed mode q 0 key false false (readyProfile q) = true := by
    simp [l2Allowed, hleg, hsoft, profileL2Eligible_readyProfile,
      clientPolicyCompatible_readyProfile, hm]
  simp [probe, hl, freshEntry, hlens, hexp, hallow]

/-- A key tried after the exact one answers L2 when nothing stops it. -/
theorem lookupAmortize_readyCache {q : Query} {key : Bytes}
    (hm : zeroDialMode q.mode) (hne : q.exactKey ≠ key)
    (hkey : key = q.softKey ∧ q.softChClass ≠ [] ∧ q.softChClass ≠ q.chClass ∨
      key = q.legacyKey)
    (hleg : isLegacyCacheKey key = false) (hsoft : isSoftCacheKey key = false) :
    ((readyCache q key).lookupAmortize q 0).2
      = { profile := some (readyProfile q), path := .l2, key := key } := by
  have hl0 : resolveAmortizeMode q.mode ≠ .l0 := by
    intro h
    rw [zeroDialMode, h] at hm
    cases hm <;> contradiction
  have h₁ : (if q.chClass ≠ [] then
      (readyCache q key).probe (resolveAmortizeMode q.mode) q 0 q.exactKey
      else (readyCache q key, none)) = (readyCache q key, none) := by
    rw [probe_readyCache_ne hne, ite_self]
  have hprobe := probe_readyCache hm hleg hsoft (q := q)
  simp only [lookupAmortize, if_neg hl0, h₁]
  rcases hkey with ⟨rfl, hs, hc⟩ | rfl
  · have hif : (decide (q.softChClass ≠ []) && decide (q.softChClass ≠ q.chClass)) = true := by
      simp [hs, hc]
    simp only [if_pos hif, hprobe]
  · have hsl : q.softKey ≠ q.legacyKey :=
      (cacheKey_ne_cacheKeyV2 _ _ _ _ _).symm
    rw [probe_readyCache_ne hsl, ite_self]
    simp only [hprobe]

theorem classField_of_soft {c : Bytes} (h : str "s:" <+: c) : classField c = c := by
  rw [classField, if_neg]
  rintro rfl
  simp [str] at h

/-- A soft class and a different class give different V2 keys. -/
theorem exactKey_ne_softKey {q : Query} (hs : str "s:" <+: q.softChClass)
    (hne : q.softChClass ≠ q.chClass) : q.exactKey ≠ q.softKey := by
  intro h
  have hc : classField q.chClass = classField q.softChClass := by
    simpa [Query.exactKey, Query.softKey, cacheKeyV2_eq] using h
  rw [classField_of_soft hs, classField] at hc
  split at hc
  · rw [← hc] at hs
    revert hs
    decide
  · exact hne hc.symm

/-- Where only the exact key goes zero-dial, it is the one that answered. -/
theorem lookupAmortize_exact (hsn : sep ∉ q.serverName) (hsoft : str "s:" <+: q.softChClass)
    (hcond : OnlyExactL2 q) (h : (m.lookupAmortize q now).2 = r) (hl2 : r.path = .l2) :
    ∃ e p, m.load q.exactKey = some e ∧
      Answered (resolveAmortizeMode q.mode) q now q.exactKey e p r := by
  obtain ⟨key, e, p, htry, he, hans⟩ := lookupAmortize_answered h (by rw [hl2]; decide)
  rcases hans.path with ⟨-, -, -, hleg, hsk, -, hmode, -⟩ | ⟨hl1, -⟩
  · obtain ⟨hcount, hcls⟩ := hcond.resolve_left (fun hn => hn hmode)
    rcases htry with ⟨rfl, -⟩ | ⟨rfl, -, hdiff⟩ | rfl
    · exact ⟨e, p, he, hans⟩
    · rw [Query.softKey, isSoftCacheKey_cacheKeyV2, classField_of_soft hsoft] at hsk
      exact absurd (hcls.resolve_left hdiff) (by simpa using hsk)
    · rw [Query.legacyKey, isLegacyCacheKey_cacheKey hsn] at hleg
      exact absurd hcount (by simpa using hleg)
  · rw [hl2] at hl1
    cases hl1

/-- **Which key goes zero-dial**: over all cache states, a lookup answers L2
only from the exact key EXACTLY WHEN its ALPN has at most one separator and
its soft class is recognised (or the mode never goes zero-dial). -/
theorem l2_only_exact_iff (q : Query) (hsn : sep ∉ q.serverName)
    (hsoft : str "s:" <+: q.softChClass) :
    (∀ (m : CacheManager) (now : Int), (m.lookupAmortize q now).2.path = .l2 →
      (m.lookupAmortize q now).2.key = q.exactKey) ↔ OnlyExactL2 q := by
  have hfield := classField_of_soft hsoft
  have hs0 : q.softChClass ≠ [] := by
    intro h
    rw [h] at hsoft
    simp [str] at hsoft
  constructor
  · intro h
    by_cases hm : zeroDialMode q.mode
    · right
      constructor
      · -- Two separators in the ALPN hide the legacy key.
        by_contra hcount
        have hleg : isLegacyCacheKey q.legacyKey = false := by
          rw [Query.legacyKey, isLegacyCacheKey_cacheKey hsn]
          simpa using hcount
        have hne : q.exactKey ≠ q.legacyKey := (cacheKey_ne_cacheKeyV2 _ _ _ _ _).symm
        have hres := lookupAmortize_readyCache hm hne (.inr rfl) hleg
          (isSoftCacheKey_cacheKey ..)
        have := h (readyCache q q.legacyKey) 0 (by rw [hres])
        rw [hres] at this
        exact hne this.symm
      · -- A separator inside the soft class hides its "s:".
        by_contra hcls
        simp only [not_or] at hcls
        have hne := exactKey_ne_softKey hsoft hcls.1
        have hsk : isSoftCacheKey q.softKey = false := by
          rw [Query.softKey, isSoftCacheKey_cacheKeyV2, hfield]
          simpa using hcls.2
        have hres := lookupAmortize_readyCache hm hne (.inl ⟨rfl, hs0, hcls.1⟩)
          (isLegacyCacheKey_cacheKeyV2 ..) hsk
        have := h (readyCache q q.softKey) 0 (by rw [hres])
        rw [hres] at this
        exact hne this.symm
    · exact .inl hm
  · intro hcond m now hpath
    obtain ⟨e, p, -, hans⟩ := lookupAmortize_exact hsn hsoft hcond rfl hpath
    exact hans.key_eq

/-- The query of a browser that offers the ALPN `||`. -/
def pipeQuery : Query :=
  { mode := .l2, dest := str "d:443", serverName := str "a.io", alpn := str "||"
    chClass := str "1f", softChClass := str "s:1f" }

/-- A cache holding only the legacy key of that query answers it at L2. -/
theorem legacy_key_goes_zero_dial :
    ((readyCache pipeQuery pipeQuery.legacyKey).lookupAmortize pipeQuery 0).2.path = .l2 ∧
      ((readyCache pipeQuery pipeQuery.legacyKey).lookupAmortize pipeQuery 0).2.key
        ≠ pipeQuery.exactKey := by
  decide

theorem l2_only_exact_iff_plain :
    sep ∉ str "a.io" ∧ str "s:" <+: str "s:1f" ∧
      ((∀ (m : CacheManager) (now : Int),
          (m.lookupAmortize { pipeQuery with alpn := str "h2" } now).2.path = .l2 →
          (m.lookupAmortize { pipeQuery with alpn := str "h2" } now).2.key
            = { pipeQuery with alpn := str "h2" }.exactKey) ↔
        OnlyExactL2 { pipeQuery with alpn := str "h2" }) :=
  ⟨by decide, by decide,
    l2_only_exact_iff { pipeQuery with alpn := str "h2" } (by decide) (by decide)⟩

end CacheManager

end Reality
