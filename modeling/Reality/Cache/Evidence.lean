import Reality.Cache.Ops
import Reality.Probe

/-!
# Evidence for going zero-dial

An entry keeps two counters, `Evidence` and `LiveEvidence`, and eligibility
reads the second but FALLS BACK to the first when the second is not
positive. This module ties them to what was really observed: the number of
live observations accepted at a key since its profile was last started over
(`liveSince`), a function of the trace of operations.

The fallback is harmless as long as `LiveEvidence` is that number. `load`
lets a negative persisted value through, and then one live observation is
enough.
-/

namespace Reality

open Kit

/-! ## Counting live observations in a trace -/

/-- How one operation changes the count at `k`. -/
def liveStep (k : Bytes) (n : Nat) : CacheOp × CacheOut → Nat
  | (.storeObservation key obs _ _, .stored o) =>
      if key = k then
        match o with
        | .ignored => n
        | .confirming => n
        | .merged => if isProbe obs then n else n + 1
        -- the observation creates the entry or replaces its profile
        | _ => if isProbe obs then 0 else 1
      else n
  | (.storeProfile key _ _, .created b) => if key = k && b then 0 else n
  | (.quarantine key _, .created b) => if key = k && b then 0 else n
  | (.markNegative key _, .created b) => if key = k && b then 0 else n
  | (.hotSwapProfile key _, _) => if key = k then 0 else n
  | _ => n

/-- Live observations accepted at `k` since the entry was last created or its
profile last replaced, the creating or replacing one included. -/
def liveSince (k : Bytes) (tr : List (CacheOp × CacheOut)) : Nat :=
  tr.foldl (liveStep k) 0

theorem liveSince_append (k : Bytes) (tr : List (CacheOp × CacheOut)) (op : CacheOp)
    (out : CacheOut) :
    liveSince k (tr ++ [(op, out)]) = liveStep k (liveSince k tr) (op, out) := by
  simp [liveSince]

theorem not_created {key k : Bytes} {b : Bool} (h : key = k → b = false) :
    ¬ (decide (key = k) && b) = true := by
  intro hb
  simp only [Bool.and_eq_true, decide_eq_true_eq] at hb
  rw [h hb.1] at hb
  exact Bool.false_ne_true hb.2

theorem liveStep_untouched {k : Bytes} {op : CacheOp} {out : CacheOut}
    (h : Untouched k op out) (n : Nat) : liveStep k n (op, out) = n := by
  cases op with
  | storeObservation key obs now order =>
      cases out with
      | stored o =>
          by_cases hk : key = k
          · rw [h hk]
            simp [liveStep]
          · simp [liveStep, hk]
      | _ => rfl
  | storeProfile key p order =>
      cases out with
      | created b => exact if_neg (not_created h)
      | _ => rfl
  | quarantine key now =>
      cases out with
      | created b => exact if_neg (not_created h)
      | _ => rfl
  | markNegative key now =>
      cases out with
      | created b => exact if_neg (not_created h)
      | _ => rfl
  | hotSwapProfile key p => exact if_neg h
  | _ => rfl

/-! ## Who writes profiles -/

/-- A probe observation, as `probeTargetRaw` makes them. -/
structure ProbeObs (obs : RealityProfile) : Prop where
  probe : isProbe obs = true
  group : obs.keyShareGroup = 0
  shape : obs.shapeHash = 0
  template : obs.serverHelloTemplate = []

/-- A live observation, as `buildObservationProfile` makes them. -/
structure LiveObs (obs : RealityProfile) : Prop where
  live : isProbe obs = false
  evidence : obs.evidence = 1
  liveEvidence : obs.liveEvidence = 1

/-- The writers: live and probe observations, `load`, `probeTarget`. -/
def EvidenceOp : CacheOp → Prop
  | .storeObservation _ obs _ _ => LiveObs obs ∨ ProbeObs obs
  | .storeProfile key p _ => ∃ e : PersistProfileEntry, p = restoreProfile key e
  | .hotSwapProfile _ p =>
      ∃ (entry : RefreshEntry) (result : ProbeResult) (now : Int),
        p = refreshProfile entry result now
  | _ => True

/-- The same writers, restoring only counts that could have been counted. -/
def CountedEvidenceOp : CacheOp → Prop
  | .storeProfile key p _ =>
      ∃ e : PersistProfileEntry, 0 ≤ e.liveEvidence ∧ p = restoreProfile key e
  | op => EvidenceOp op

/-! ## The invariant -/

/-- `LiveEvidence` is the count, and a profile without live observations has
no key share group. -/
structure Counted (n : Nat) (p : RealityProfile) : Prop where
  liveEvidence : p.liveEvidence = n
  group : n = 0 → p.keyShareGroup = 0

theorem isProbe_normalizeObs (obs : RealityProfile) :
    isProbe (normalizeObs obs) = isProbe obs := by
  unfold normalizeObs
  dsimp only
  split <;> split <;> rfl

theorem normalizeObs_keyShareGroup (obs : RealityProfile) :
    (normalizeObs obs).keyShareGroup = obs.keyShareGroup := by
  unfold normalizeObs
  dsimp only
  split <;> split <;> rfl

theorem normalizeObs_evidence (obs : RealityProfile) :
    (normalizeObs obs).evidence = obs.evidence := by
  unfold normalizeObs
  dsimp only
  split <;> split <;> rfl

theorem normalizeObs_liveEvidence {obs : RealityProfile} (h : isProbe obs = false) :
    (normalizeObs obs).liveEvidence = obs.liveEvidence := by
  unfold normalizeObs
  dsimp only
  split
  · rw [if_neg]
    exact fun h' => absurd (h.symm.trans h') (by decide)
  · rw [if_neg]
    simp [h]

theorem normalizeObs_liveEvidence_probe {obs : RealityProfile} (h : isProbe obs = true) :
    (normalizeObs obs).liveEvidence = 0 := by
  simp only [isProbe, decide_eq_true_eq] at h
  unfold normalizeObs isProbe
  dsimp only
  split <;> simp [h]

/-- The profile an observation starts has the evidence of that observation. -/
theorem startsFrom_counted {o : StoreOutcome} {obs p : RealityProfile}
    (h : startsFrom o (normalizeObs obs) p) (hobs : LiveObs obs ∨ ProbeObs obs) :
    Counted (if isProbe obs then 0 else 1) p := by
  rcases hobs with hobs | hobs
  · have hp : isProbe (normalizeObs obs) = false := by
      rw [isProbe_normalizeObs, hobs.live]
    have hev : (normalizeObs obs).evidence = 1 := by
      rw [normalizeObs_evidence, hobs.evidence]
    have hlive : (normalizeObs obs).liveEvidence = 1 := by
      rw [normalizeObs_liveEvidence hobs.live, hobs.liveEvidence]
    rw [hobs.live]
    refine ⟨?_, by simp⟩
    rcases h with ⟨-, rfl | rfl⟩ | ⟨-, rfl⟩
    · simp [stampFirst, hp]
    · simp [stampFirst, hp]
    · simp [stampNew, hp, hlive]
  · have hp : isProbe (normalizeObs obs) = true := by
      rw [isProbe_normalizeObs, hobs.probe]
    have hg : (normalizeObs obs).keyShareGroup = 0 := by
      rw [normalizeObs_keyShareGroup, hobs.group]
    rw [hobs.probe]
    rcases h with ⟨-, rfl | rfl⟩ | ⟨-, rfl⟩
    · exact ⟨by simp [stampFirst, hp], fun _ => by simp [stampFirst, hp, hg]⟩
    · exact ⟨by simp [stampFirst, hp], fun _ => by simp [stampFirst, hp, hg]⟩
    · exact ⟨by simp [stampNew, hp], fun _ => by simp [stampNew, hp, hg]⟩

/-- A merge counts a live observation and takes its group. -/
theorem mergeObs_counted {n : Nat} {obs p : RealityProfile} (h : Counted n p)
    (hobs : LiveObs obs ∨ ProbeObs obs) :
    Counted (if isProbe obs then n else n + 1) (mergeObs p (normalizeObs obs)) := by
  rcases hobs with hobs | hobs
  · rw [hobs.live]
    refine ⟨?_, by simp⟩
    simp [mergeObs, isProbe_normalizeObs, hobs.live, h.liveEvidence]
  · rw [hobs.probe]
    refine ⟨?_, fun _ => ?_⟩
    · simp [mergeObs, isProbe_normalizeObs, hobs.probe, h.liveEvidence]
    · simp [mergeObs, normalizeObs_keyShareGroup, hobs.group]

theorem restoreProfile_counted (key : Bytes) {e : PersistProfileEntry}
    (h : 0 ≤ e.liveEvidence) : Counted 0 (restoreProfile key e) := by
  refine ⟨?_, fun _ => rfl⟩
  simp only [restoreProfile]
  split
  · rfl
  · simp only [Nat.cast_zero]
    omega

/-- Every step of the writers keeps the count. -/
theorem profileStep_counted {k : Bytes} {tr : List (CacheOp × CacheOut)} {op : CacheOp}
    {out : CacheOut} {x : Option RealityProfile} {p : RealityProfile}
    (hx : ∀ q, x = some q → Counted (liveSince k tr) q) (hop : CountedEvidenceOp op)
    (h : ProfileStep k op out x p) : Counted (liveSince k (tr ++ [(op, out)])) p := by
  rw [liveSince_append]
  cases h with
  | kept hu =>
      rw [liveStep_untouched hu]
      exact hx _ rfl
  | dropped hu =>
      rw [liveStep_untouched hu]
      exact ⟨(hx _ rfl).liveEvidence, (hx _ rfl).group⟩
  | @merged obs now order q hl hm =>
      have := mergeObs_counted (hx _ rfl) hop
      simpa [liveStep] using this
  | @started obs now order o x p hl hs =>
      have hcount := startsFrom_counted hs hop
      rcases hs with ⟨rfl | rfl, -⟩ | ⟨rfl, -⟩
      · simpa [liveStep] using hcount
      · simpa [liveStep] using hcount
      · simpa [liveStep] using hcount
  | restored =>
      obtain ⟨e, he, rfl⟩ := hop
      simpa [liveStep] using restoreProfile_counted k he
  | swapped =>
      obtain ⟨entry, result, now, rfl⟩ := hop
      simp only [liveStep, if_true]
      exact ⟨rfl, fun _ => rfl⟩

/-- **Zero-dial needs live evidence**: in every run of those operations that
restores no negative count, a lookup that answers L2 from a key has at least
`MinL2Evidence` live observations behind it since the profile there was last
started over. -/
theorem l2_has_live_evidence {tr : List (CacheOp × CacheOut)} {m m' : CacheManager}
    (h : cacheMachine.Meets (fun _ _ op => CountedEvidenceOp op) newCacheManager tr m)
    {q : Query} {now : Int} {r : LookupResult}
    (hs : cacheMachine.step m (.lookup q now) = some (m', .found r)) (hl2 : r.path = .l2) :
    minL2Evidence ≤ liveSince r.key tr := by
  have hr : (m.lookupAmortize q now).2 = r := by
    simp only [cacheMachine, cacheStep, Option.some.injEq, Prod.mk.injEq,
      CacheOut.found.injEq] at hs
    exact hs.2
  obtain ⟨key, e, p, -, he, hans⟩ :=
    CacheManager.lookupAmortize_answered hr (by rw [hl2]; decide)
  rw [hans.key_eq]
  have hcount : Counted (liveSince key tr) p :=
    CacheManager.profile_invariant (k := key)
      (P := fun tr p => Counted (liveSince key tr) p)
      (fun e p he => by simp at he)
      (fun tr s op out x p' hx hc hstep => profileStep_counted hx hc hstep)
      h e p he hans.holds
  rcases hans.path with ⟨-, -, -, -, -, helig, -, -⟩ | ⟨hl1, -⟩
  · have hel := profileL2Eligible_iff.mp helig
    have hlive := hel.live
    have hpos : ¬ p.liveEvidence ≤ 0 := by
      intro hle
      have : liveSince key tr = 0 := by
        have := hcount.liveEvidence
        omega
      exact hel.group (hcount.group this)
    rw [if_neg hpos, hcount.liveEvidence] at hlive
    exact_mod_cast hlive
  · rw [hl2] at hl1
    cases hl1

/-! ## A restored negative count -/

/-- A query and the live observation of its key. -/
def sampleQuery : Query :=
  { mode := .l2, dest := str "d:443", serverName := str "a.io", alpn := str "h2"
    chClass := str "1f", softChClass := str "s:1f" }

def sampleLive : RealityProfile :=
  { recordLens := ![127, 6, 41, 900, 281, 58, 0], cipherSuite := 0x1301
    keyShareGroup := 29, shapeHash := 7, serverHelloTemplate := [2], capturedAt := 0
    evidence := 1, liveEvidence := 1, source := sourceLive }

def sampleStore : CacheOp := .storeObservation sampleQuery.exactKey sampleLive 0 []

/-- A file entry that claims five observations, minus one of them live. -/
def negativeEntry : PersistProfileEntry :=
  { recordLens := ![127, 6, 41, 900, 281, 58, 0], cipherSuite := 0x1301
    evidence := 5, liveEvidence := -1 }

def negativeRestore : CacheOp :=
  .storeProfile sampleQuery.exactKey (restoreProfile sampleQuery.exactKey negativeEntry) []

/-- After that restore ONE live observation opens the zero-dial path. -/
theorem negative_evidence_goes_zero_dial :
    ∃ tr m m' r, cacheMachine.Meets (fun _ _ op => EvidenceOp op) newCacheManager tr m ∧
      cacheMachine.step m (.lookup sampleQuery 0) = some (m', .found r) ∧
      r.path = .l2 ∧ liveSince r.key tr < minL2Evidence := by
  refine ⟨_, _, _, _, .snoc (a := sampleStore) (.snoc (a := negativeRestore) .nil
    ⟨negativeEntry, rfl⟩ rfl) (.inl ⟨by decide, rfl, rfl⟩) rfl, rfl, ?_, ?_⟩
  · decide
  · decide

/-- Two live observations from an empty cache do. -/
theorem l2_has_live_evidence_twice :
    ∃ tr m m' r,
      cacheMachine.Meets (fun _ _ op => CountedEvidenceOp op) newCacheManager tr m ∧
      cacheMachine.step m (.lookup sampleQuery 0) = some (m', .found r) ∧
      r.path = .l2 ∧ minL2Evidence ≤ liveSince r.key tr := by
  have hlive : LiveObs sampleLive := ⟨by decide, rfl, rfl⟩
  have hrun : cacheMachine.Meets (fun _ _ op => CountedEvidenceOp op) newCacheManager _ _ :=
    .snoc (a := sampleStore) (.snoc (a := sampleStore) .nil (.inl hlive) rfl) (.inl hlive) rfl
  exact ⟨_, _, _, _, hrun, rfl, by decide, l2_has_live_evidence hrun rfl (by decide)⟩

end Reality
