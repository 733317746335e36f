import Reality.Cache.Ops

/-!
# Where cached profiles come from

Many properties of a cached profile speak only of its CONTENT: lengths,
suite, group, template and the names it was observed under. The cache changes
none of these on its own; it stores what it is given, with evidence counters
and a source of its own. So such a property holds everywhere in a run as soon
as every profile that is WRITTEN has it (`holds_of_run`).
-/

namespace Reality

open Kit

/-- Two profiles that differ at most in evidence, source and bookkeeping. -/
structure SameContent (p q : RealityProfile) : Prop where
  lens : q.recordLens = p.recordLens
  suite : q.cipherSuite = p.cipherSuite
  group : q.keyShareGroup = p.keyShareGroup
  template : q.serverHelloTemplate = p.serverHelloTemplate
  dest : q.dest = p.dest
  serverName : q.serverName = p.serverName
  alpn : q.alpn = p.alpn
  chClass : q.chClass = p.chClass

theorem normalizeObs_sameContent (obs : RealityProfile) :
    SameContent obs (normalizeObs obs) := by
  unfold normalizeObs
  dsimp only
  split <;> split <;> exact ⟨rfl, rfl, rfl, rfl, rfl, rfl, rfl, rfl⟩

theorem stampFirst_sameContent (obs : RealityProfile) : SameContent obs (stampFirst obs) := by
  unfold stampFirst
  split <;> exact ⟨rfl, rfl, rfl, rfl, rfl, rfl, rfl, rfl⟩

theorem stampNew_sameContent (obs : RealityProfile) : SameContent obs (stampNew obs) := by
  unfold stampNew
  split <;> exact ⟨rfl, rfl, rfl, rfl, rfl, rfl, rfl, rfl⟩

/-- A property of the profile at a key that depends on its content and that a
merge takes over from the observation. -/
structure Stable (P : Bytes → RealityProfile → Prop) : Prop where
  content : ∀ {k p q}, P k p → SameContent p q → P k q
  merge : ∀ {k cur obs}, P k obs → P k (mergeObs cur obs)

/-- The profile an operation hands to the cache, with its key. -/
def CacheOp.writes : CacheOp → Option (Bytes × RealityProfile)
  | .storeObservation key obs _ _ => some (key, obs)
  | .storeProfile key p _ => some (key, p)
  | .hotSwapProfile key p => some (key, p)
  | _ => none

variable {P : Bytes → RealityProfile → Prop}

theorem Stable.startsFrom (hP : Stable P) {k : Bytes} {o : StoreOutcome}
    {obs p : RealityProfile} (h : Reality.startsFrom o obs p) (hobs : P k obs) : P k p := by
  have hfirst := hP.content hobs (stampFirst_sameContent obs)
  rcases h with ⟨-, rfl | rfl⟩ | ⟨-, rfl⟩
  · exact hfirst
  · exact hP.content hfirst ⟨rfl, rfl, rfl, rfl, rfl, rfl, rfl, rfl⟩
  · exact hP.content hobs (stampNew_sameContent obs)

/-- One step keeps a stable property of the profile at `k`. -/
theorem Stable.profileStep (hP : Stable P) {k : Bytes} {op : CacheOp} {out : CacheOut}
    {x : Option RealityProfile} {p : RealityProfile} (hx : ∀ q, x = some q → P k q)
    (hw : ∀ key q, op.writes = some (key, q) → P key q) (h : ProfileStep k op out x p) :
    P k p := by
  cases h with
  | kept _ => exact hx _ rfl
  | dropped _ => exact hP.content (hx _ rfl) ⟨rfl, rfl, rfl, rfl, rfl, rfl, rfl, rfl⟩
  | @merged obs now order q hl hm =>
      exact hP.merge (hP.content (hw k obs rfl) (normalizeObs_sameContent obs))
  | @started obs now order o x p hl hs =>
      exact hP.startsFrom hs (hP.content (hw k obs rfl) (normalizeObs_sameContent obs))
  | restored => exact hw k p rfl
  | swapped => exact hw k p rfl

theorem normalizeObs_source (obs : RealityProfile) : (normalizeObs obs).source = obs.source := by
  unfold normalizeObs
  dsimp only
  split <;> split <;> rfl

/-- A profile that starts a ladder is from a probe exactly if its observation
is. -/
theorem startsFrom_source {o : StoreOutcome} {obs p : RealityProfile}
    (h : Reality.startsFrom o obs p) (hp : p.source ≠ sourceProbe) :
    obs.source ≠ sourceProbe := by
  intro hobs
  have hprobe : isProbe obs = true := by simp [isProbe, hobs]
  refine hp ?_
  rcases h with ⟨-, rfl | rfl⟩ | ⟨-, rfl⟩
  · rw [stampFirst, if_pos hprobe]
  · dsimp only
    rw [stampFirst, if_pos hprobe]
  · rw [stampNew, if_pos hprobe]

theorem mergeObs_source {cur obs : RealityProfile} (h : (mergeObs cur obs).source ≠ sourceProbe) :
    cur.source ≠ sourceProbe ∨ obs.source ≠ sourceProbe := by
  by_cases hobs : obs.source = sourceProbe
  · have hprobe : isProbe obs = true := by simp [isProbe, hobs]
    dsimp only [mergeObs] at h
    rw [if_pos hprobe] at h
    split at h
    · exact absurd rfl h
    · exact .inl h
  · exact .inr hobs

/-- No operation turns what a probe saw into a live profile: one was there
before, or one was written. -/
theorem ProfileStep.source {k : Bytes} {op : CacheOp} {out : CacheOut}
    {x : Option RealityProfile} {p : RealityProfile} (h : ProfileStep k op out x p)
    (hp : p.source ≠ sourceProbe) :
    (∃ q, x = some q ∧ q.source ≠ sourceProbe) ∨
      ∃ q, op.writes = some (k, q) ∧ q.source ≠ sourceProbe := by
  cases h with
  | kept _ => exact .inl ⟨p, rfl, hp⟩
  | dropped _ => exact .inl ⟨_, rfl, hp⟩
  | @merged obs now order q hl hm =>
      rcases mergeObs_source hp with hcur | hobs
      · exact .inl ⟨q, rfl, hcur⟩
      · rw [normalizeObs_source] at hobs
        exact .inr ⟨obs, rfl, hobs⟩
  | @started obs now order o x p hl hs =>
      have hobs := startsFrom_source hs hp
      rw [normalizeObs_source] at hobs
      exact .inr ⟨obs, rfl, hobs⟩
  | restored => exact .inr ⟨p, rfl, hp⟩
  | swapped => exact .inr ⟨p, rfl, hp⟩

/-! ## Entries -/

/-- `R` holds of every cached profile at its key. -/
def CacheManager.Entries (R : Bytes → RealityProfile → Prop) (m : CacheManager) : Prop :=
  ∀ k e p, m.load k = some e → e.profile = some p → R k p

/-- What every change of a cached profile brings about, an operation does. -/
theorem CacheManager.Entries.step {R R' : Bytes → RealityProfile → Prop} {m m' : CacheManager}
    {op : CacheOp} {out : CacheOut} (hm : m.Entries R)
    (hR : ∀ k x p, (∀ q, x = some q → R k q) → ProfileStep k op out x p → R' k p)
    (h : cacheStep m op = some (m', out)) : m'.Entries R' := by
  intro k e p he hp
  have hentry := CacheManager.cacheStep_entry h k
  rw [he] at hentry
  refine hR k _ p ?_ (hentry.profileStep hp)
  intro q hq
  obtain ⟨e₀, he₀, hq⟩ := Option.bind_eq_some_iff.mp hq
  exact hm k e₀ q he₀ hq

theorem CacheManager.Entries.run {R : Bytes → RealityProfile → Prop} {m m' : CacheManager}
    {tr : List (CacheOp × CacheOut)} (hm : m.Entries R) (h : cacheMachine.Run m tr m')
    (hR : ∀ y ∈ tr, ∀ k x p, (∀ q, x = some q → R k q) → ProfileStep k y.1 y.2 x p → R k p) :
    m'.Entries R := by
  induction h with
  | nil => exact hm
  | snoc _ hs ih =>
      have hm₁ := ih fun y hy => hR y (List.mem_append_left _ hy)
      exact hm₁.step (hR _ (List.mem_append_right _ (List.mem_singleton_self _))) hs

/-- `P` holds of all that is cached and of all that lookups handed out. -/
structure Holds (P : Bytes → RealityProfile → Prop) (tr : List (CacheOp × CacheOut))
    (m : CacheManager) : Prop where
  entries : ∀ k e p, m.load k = some e → e.profile = some p → P k p
  handedOut : ∀ q now r p, (CacheOp.lookup q now, CacheOut.found r) ∈ tr → r.path ≠ .l0 →
    r.profile = some p → P r.key p

/-- What a lookup answers has `P` at the key that answered. -/
theorem Holds.answer {tr : List (CacheOp × CacheOut)} {m : CacheManager} (h : Holds P tr m)
    {q : Query} {now : Int} {r : LookupResult} {p : RealityProfile}
    (hr : (m.lookupAmortize q now).2 = r) (hpath : r.path ≠ .l0) (hp : r.profile = some p) :
    P r.key p := by
  obtain ⟨key, e, p', -, he, hans⟩ := CacheManager.lookupAmortize_answered hr hpath
  cases hp.symm.trans hans.profile
  rw [hans.key_eq]
  exact h.entries key e p he hans.holds

theorem Holds.step (hP : Stable P) {tr : List (CacheOp × CacheOut)} {m m' : CacheManager}
    {op : CacheOp} {out : CacheOut} (hinv : Holds P tr m)
    (hw : ∀ key q, op.writes = some (key, q) → P key q)
    (h : cacheStep m op = some (m', out)) : Holds P (tr ++ [(op, out)]) m' := by
  refine ⟨?_, ?_⟩
  · have hentries : m.Entries P := hinv.entries
    exact hentries.step (fun k x p hx hs => hP.profileStep hx hw hs) h
  · intro q now r p hmem hpath hp
    rcases List.mem_append.mp hmem with hmem | hmem
    · exact hinv.handedOut q now r p hmem hpath hp
    · simp only [List.mem_singleton, Prod.mk.injEq] at hmem
      obtain ⟨rfl, rfl⟩ := hmem
      simp only [cacheStep, Option.some.injEq, Prod.mk.injEq, CacheOut.found.injEq] at h
      exact hinv.answer h.2 hpath hp

/-- **The rule for content**: if all that is written has a stable property, so
has all that is cached and handed out. -/
theorem holds_of_run (hP : Stable P)
    {C : List (CacheOp × CacheOut) → CacheManager → CacheOp → Prop}
    (hw : ∀ tr m op, Holds P tr m → C tr m op →
      ∀ key q, op.writes = some (key, q) → P key q)
    {tr : List (CacheOp × CacheOut)} {m : CacheManager}
    (h : cacheMachine.Meets C newCacheManager tr m) : Holds P tr m := by
  refine h.invariant (I := Holds P) ⟨?_, ?_⟩ ?_
  · intro k e p he
    simp at he
  · intro q now r p hmem
    cases hmem
  · intro tr m op m' out hinv hc hs
    exact hinv.step hP (hw tr m op hinv hc) hs

end Reality
