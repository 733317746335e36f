import Reality.Cache.Coherence

/-!
# A probe that confirms

A background probe has cipher suite and record lengths, and neither group nor
shape hash nor template. `profilesMatch` takes what is absent for a match. The
merge takes it for a VALUE: group and shape hash become zero, and only the template
has a test for its absence. Both are gates of the zero-dial path, so a probe that
confirms a profile takes it off that path, until the next live observation.
-/

namespace Reality

open Kit

theorem ProbedObs.source {obs : RealityProfile} (h : ProbedObs obs) : obs.source = sourceProbe := by
  cases h with
  | raw => rfl
  | reprobe =>
      unfold reprobeProfile
      dsimp only
      split <;> rfl

theorem ProbedObs.template {obs : RealityProfile} (h : ProbedObs obs) :
    obs.serverHelloTemplate = [] := by
  cases h with
  | raw => rfl
  | reprobe =>
      unfold reprobeProfile
      dsimp only
      split <;> rfl

/-- Matching looks at the record mode as the normalization fills it in. -/
theorem profilesMatch_normalizeObs (p obs : RealityProfile) :
    profilesMatch p (normalizeObs obs) = profilesMatch p obs := by
  unfold normalizeObs
  dsimp only
  by_cases hmode : obs.recordMode = 0
  · rw [if_pos hmode]
    split <;> simp only [profilesMatch, hmode, if_true, ite_self]
  · rw [if_neg hmode]
    split <;> rfl

theorem profilesMatch_suite {a b : RealityProfile} (h : profilesMatch a b = true) :
    a.cipherSuite = b.cipherSuite := by
  simp only [profilesMatch, Bool.if_false_left, Bool.and_eq_true, Bool.not_eq_true',
    decide_eq_false_iff_not, ne_eq, not_not] at h
  exact h.1

/-- The profile `p'` is `p` after a probe that confirmed it. -/
structure Confirmed (p p' : RealityProfile) : Prop where
  suite : p'.cipherSuite = p.cipherSuite
  template : p'.serverHelloTemplate = p.serverHelloTemplate
  evidence : p'.evidence = p.evidence
  liveEvidence : p'.liveEvidence = p.liveEvidence
  group : p'.keyShareGroup = 0

theorem mergeObs_confirmed {p obs : RealityProfile} (hobs : ProbedObs obs)
    (hmatch : profilesMatch p obs = true) : Confirmed p (mergeObs p (normalizeObs obs)) := by
  have hprobe : isProbe (normalizeObs obs) = true := by
    unfold normalizeObs isProbe
    dsimp only
    split <;> split <;> exact decide_eq_true hobs.source
  have hfields : (normalizeObs obs).cipherSuite = obs.cipherSuite ∧
      (normalizeObs obs).serverHelloTemplate = obs.serverHelloTemplate ∧
      (normalizeObs obs).keyShareGroup = obs.keyShareGroup := by
    unfold normalizeObs
    dsimp only
    split <;> split <;> exact ⟨rfl, rfl, rfl⟩
  obtain ⟨hsuite, htemplate, hgroup⟩ := hfields
  constructor
  · exact hsuite.trans (profilesMatch_suite hmatch).symm
  · simp only [mergeObs, htemplate, hobs.template]
    rfl
  · simp only [mergeObs, hprobe, if_true]
  · simp only [mergeObs, hprobe, if_true]
  · exact hgroup.trans hobs.group

namespace CacheManager

variable {m : CacheManager} {q : Query} {now : Int} {k : Bytes}

/-- The entry behind a zero-dial answer. -/
theorem lookupAmortize_l2 (hl2 : (m.lookupAmortize q now).2.path = .l2)
    (hkey : (m.lookupAmortize q now).2.key = k) :
    ∃ e p, m.load k = some e ∧ e.profile = some p ∧ e.state ≠ .quarantined ∧
      (m.lookupAmortize q now).2.profile = some p ∧ p.keyShareGroup ≠ 0 := by
  obtain ⟨key, e, p, -, hl, hans⟩ := lookupAmortize_answered rfl (by rw [hl2]; decide)
  have hk : key = k := hans.key_eq.symm.trans hkey
  subst hk
  have helig := lookupAmortize_eligible rfl hl2 hans.profile
  exact ⟨e, p, hl, hans.holds, hans.stateQuar, hans.profile, helig.group⟩

end CacheManager

open CacheManager in
/-- **A probe that confirms a zero-dial key demotes it.** Whatever the cache: the
observation is merged, suite, template and evidence stay, and from then on no lookup
goes zero-dial on that key. -/
theorem confirming_probe_demotes {m : CacheManager} {q : Query} {now t : Int} {k : Bytes}
    {p obs : RealityProfile} {order : List Bytes}
    (hl2 : (m.lookupAmortize q now).2.path = .l2) (hkey : (m.lookupAmortize q now).2.key = k)
    (hp : (m.lookupAmortize q now).2.profile = some p) (hobs : ProbedObs obs)
    (hmatch : profilesMatch p obs = true) (hlens : validateRecordLens obs.recordLens = true) :
    ∃ m' e' p', m.storeObservation k obs t order = .ok (m', .merged) ∧
      m'.load k = some e' ∧ e'.profile = some p' ∧ Confirmed p p' ∧
      ∀ q' now', ¬ ((m'.lookupAmortize q' now').2.path = .l2 ∧
        (m'.lookupAmortize q' now').2.key = k) := by
  obtain ⟨e, p₀, hl, hprofile, hquar, hp₀, -⟩ := lookupAmortize_l2 hl2 hkey
  cases hp.symm.trans hp₀
  have hmatch' : e.profile.any (profilesMatch · (normalizeObs obs)) = true := by
    rw [hprofile, Option.any_some, profilesMatch_normalizeObs]
    exact hmatch
  have hobserve : e.observe (normalizeObs obs) m.baseTTL t =
      ({ e.setState .valid with
        profile := e.profile.map (mergeObs · (normalizeObs obs)), ttl := m.baseTTL,
        failCount := 0 }, .merged) := by
    rw [ProfileEntry.observe, if_neg hquar, if_pos hmatch']
  have hstore : m.storeObservation k obs t order
      = .ok ((m.put k (e.observe (normalizeObs obs) m.baseTTL t).1).markDirty, .merged) := by
    simp only [storeObservation, hlens, hl, hobserve]
    rfl
  have hconf := mergeObs_confirmed hobs hmatch
  refine ⟨_, (e.observe (normalizeObs obs) m.baseTTL t).1, mergeObs p (normalizeObs obs), hstore,
    load_put_self .., ?_, hconf, ?_⟩
  · rw [hobserve, hprofile]
    rfl
  · rintro q' now' ⟨hl2', hkey'⟩
    obtain ⟨e', p', hl', hprofile', -, -, hgroup⟩ := lookupAmortize_l2 hl2' hkey'
    -- The only entry at `k` is the merged one, and its group is zero.
    rw [load_markDirty, load_put_self, hobserve, hprofile] at hl'
    cases hl'
    cases hprofile'
    exact hgroup hconf.group

/-- The cache after two live observations of the sample flight. -/
def zeroDialCache : CacheManager :=
  ((newCacheManager.storeRecovered capturedQuery.exactKey capturedObs 0 []).1.storeRecovered
    capturedQuery.exactKey capturedObs 0 []).1

/-- A probe that saw the same suite and lengths. -/
def confirmingProbe : RealityProfile :=
  probeProfile (str "d:443") (str "a.io") 2 ⟨0x1301, ![95, 6, 6, 6, 6, 6, 0], 6, none⟩ 0

theorem confirming_probe_demotes_captured :
    (zeroDialCache.lookupAmortize capturedQuery 0).2.path = .l2 ∧
      ∃ p m' e' p', (zeroDialCache.lookupAmortize capturedQuery 0).2.profile = some p ∧
        zeroDialCache.storeObservation capturedQuery.exactKey confirmingProbe 0 []
          = .ok (m', .merged) ∧
        m'.load capturedQuery.exactKey = some e' ∧ e'.profile = some p' ∧ Confirmed p p' ∧
        ∀ q' now', ¬ ((m'.lookupAmortize q' now').2.path = .l2 ∧
          (m'.lookupAmortize q' now').2.key = capturedQuery.exactKey) := by
  have hl2 : (zeroDialCache.lookupAmortize capturedQuery 0).2.path = .l2 := by decide +kernel
  have hmatch : ((zeroDialCache.lookupAmortize capturedQuery 0).2.profile.any
      (profilesMatch · confirmingProbe)) = true := by decide +kernel
  refine ⟨hl2, ?_⟩
  cases hp : (zeroDialCache.lookupAmortize capturedQuery 0).2.profile with
  | none => rw [hp] at hmatch; cases hmatch
  | some p =>
      rw [hp] at hmatch
      have hdemotes : ∃ m' e' p',
          zeroDialCache.storeObservation capturedQuery.exactKey confirmingProbe 0 []
            = .ok (m', .merged) ∧
          m'.load capturedQuery.exactKey = some e' ∧ e'.profile = some p' ∧ Confirmed p p' ∧
          ∀ q' now', ¬ ((m'.lookupAmortize q' now').2.path = .l2 ∧
            (m'.lookupAmortize q' now').2.key = capturedQuery.exactKey) :=
        confirming_probe_demotes hl2 (by decide +kernel) hp (.raw _ _ _ _ _) hmatch
          (by decide +kernel)
      obtain ⟨m', e', p', h⟩ := hdemotes
      exact ⟨p, m', e', p', rfl, h⟩

/-- **One matching probe, and the key answers L1**, with the evidence it had. -/
theorem zero_dial_lost_by_probe :
    let before := (zeroDialCache.lookupAmortize capturedQuery 0).2
    let stored := zeroDialCache.storeRecovered capturedQuery.exactKey confirmingProbe 0 []
    let after := (stored.1.lookupAmortize capturedQuery 0).2
    before.path = .l2 ∧ before.key = capturedQuery.exactKey ∧
      before.profile.any (profilesMatch · confirmingProbe) = true ∧
      validateRecordLens confirmingProbe.recordLens = true ∧ stored.2 = .merged ∧
      after.path = .l1 ∧ after.key = capturedQuery.exactKey ∧
      after.profile.any (fun p => p.liveEvidence = 2 && p.keyShareGroup = 0) = true := by
  decide +kernel

end Reality
