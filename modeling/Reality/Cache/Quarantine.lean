import Reality.Cache.Evidence

/-!
# Quarantine and its cooldown

`Quarantine` promises that a key is unusable until the cooldown elapses and
that zero-dial comes back only after the evidence has been rebuilt. Whether
it keeps that depends on the operations that follow: quarantine is one value
of a state field, and `MarkNegative` OVERWRITES it. From the negative state a
matching observation makes the entry valid at once, with the live evidence
it had before.

`quarantine_holds` is the promise, for runs that do not do this to a
quarantined key and do not evict it.
-/

namespace Reality

open Kit

/-! ## Times and accepted observations -/

/-- The clock reading of an operation, if it makes one. -/
def CacheOp.time : CacheOp → Option Int
  | .storeObservation _ _ now _ => some now
  | .lookup _ now => some now
  | .getProfile _ now => some now
  | .quarantine _ now => some now
  | .noteHandshakeFailure _ _ now => some now
  | .markNegative _ now => some now
  | _ => none

/-- The last clock reading of a trace that starts at `t`. -/
def lastTime (t : Int) (tr : List (CacheOp × CacheOut)) : Int :=
  tr.foldl (fun c x => x.1.time.getD c) t

theorem lastTime_append (t : Int) (tr : List (CacheOp × CacheOut)) (op : CacheOp)
    (out : CacheOut) :
    lastTime t (tr ++ [(op, out)]) = op.time.getD (lastTime t tr) := by
  simp [lastTime]

/-- A live observation accepted at `k` no earlier than `since`. -/
def acceptsLive (k : Bytes) (since : Int) : CacheOp × CacheOut → Bool
  | (.storeObservation key obs now _, .stored o) =>
      key = k && o ≠ .ignored && !isProbe obs && since ≤ now
  | _ => false

/-- How many there are in a trace. -/
def liveAccepted (k : Bytes) (since : Int) (tr : List (CacheOp × CacheOut)) : Nat :=
  tr.countP (acceptsLive k since)

theorem liveAccepted_append (k : Bytes) (since : Int) (tr : List (CacheOp × CacheOut))
    (x : CacheOp × CacheOut) :
    liveAccepted k since (tr ++ [x])
      = liveAccepted k since tr + if acceptsLive k since x then 1 else 0 := by
  simp [liveAccepted, List.countP_append, List.countP_cons]

/-! ## The runs -/

/-- The operations that may follow a quarantine. -/
def CacheOp.isCooldownOp : CacheOp → Bool
  | .storeObservation .. | .noteHandshakeFailure .. | .markNegative .. | .markStale ..
  | .getProfile .. | .lookup .. => true
  | _ => false

/-- One of those operations, at a time not before the previous one. -/
structure CooldownStep (t : Int) (tr : List (CacheOp × CacheOut)) (op : CacheOp) : Prop where
  kind : op.isCooldownOp = true
  clock : ∀ now, op.time = some now → lastTime t tr ≤ now

def QuarantinedAt (m : CacheManager) (k : Bytes) : Prop :=
  ∃ e, m.load k = some e ∧ e.state = .quarantined

/-- What a step must not do for the quarantine of `k` to hold: mark the
quarantined key negative or evict it. Observations carry the evidence of one
observation. -/
structure KeepsQuarantine (k : Bytes) (m : CacheManager) (op : CacheOp) : Prop where
  notNegative : QuarantinedAt m k → ∀ now, op ≠ .markNegative k now
  room : QuarantinedAt m k → op.mayEvict = true → m.profileEntries < m.maxProfiles
  single : ∀ obs now order, op = .storeObservation k obs now order →
    obs.evidence ≤ 1 ∧ obs.liveEvidence ≤ 1

/-- `m'` is the cache after `k` was quarantined at `t`, by `Quarantine` or by
one failure too many. -/
def QuarantinedBy (m : CacheManager) (k : Bytes) (t : Int) (m' : CacheManager) : Prop :=
  m' = (m.quarantine k t).1 ∨
    ∃ path e, m' = m.noteHandshakeFailure k path t ∧ k ≠ [] ∧ path ≠ .l0 ∧
      m.load k = some e ∧ maxL2FailWindow ≤ e.failCount + 1

/-! ## The invariant -/

/-- Still in quarantine, and for the whole cooldown. -/
structure Held (since : Int) (e : ProfileEntry) : Prop where
  state : e.state = .quarantined
  atomicState : e.atomicState = .quarantined
  nextRetry : since ≤ e.nextRetry

/-- No more evidence than `n` accepted live observations. -/
structure Rebuilt (n : Nat) (p : RealityProfile) : Prop where
  evidence : p.evidence ≤ n
  liveEvidence : p.liveEvidence ≤ n

/-- Either the entry is held, or the cooldown is over and the evidence at `k`
is no more than was accepted since. -/
def QuarantineInv (k : Bytes) (t : Int) (tr : List (CacheOp × CacheOut))
    (m : CacheManager) : Prop :=
  (∃ e, m.load k = some e ∧ Held (t + quarantineCooldown) e) ∨
    t + quarantineCooldown ≤ lastTime t tr ∧
      ∀ e p, m.load k = some e → e.profile = some p →
        Rebuilt (liveAccepted k (t + quarantineCooldown) tr) p

theorem quarantinedBy_held {m m' : CacheManager} {k : Bytes} {t : Int}
    (h : QuarantinedBy m k t m') :
    ∃ e, m'.load k = some e ∧ Held (t + quarantineCooldown) e := by
  rcases h with rfl | ⟨path, e, rfl, hk, hpath, he, hf⟩
  · unfold CacheManager.quarantine
    cases hm : m.load k with
    | none => exact ⟨_, CacheManager.load_put_self .., rfl, rfl, le_refl _⟩
    | some e => exact ⟨_, CacheManager.load_put_self .., rfl, rfl, le_refl _⟩
  · have hpath' : ¬ (decide (path ≠ .l1) && decide (path ≠ .l2)) = true := by
      cases path with
      | l0 => exact absurd rfl hpath
      | l1 => decide
      | l2 => decide
    simp only [CacheManager.noteHandshakeFailure, if_neg hk, hpath', he, ge_iff_le, if_pos hf]
    exact ⟨_, CacheManager.load_put_self .., rfl, rfl, le_refl _⟩

theorem stampFirst_evidence (obs : RealityProfile) :
    (stampFirst obs).evidence = (if isProbe obs then 0 else 1) ∧
      (stampFirst obs).liveEvidence = (if isProbe obs then 0 else 1) := by
  unfold stampFirst
  split <;> simp

theorem stampNew_evidence {obs : RealityProfile} (he : obs.evidence ≤ 1)
    (hl : obs.liveEvidence ≤ 1) :
    (stampNew obs).evidence ≤ (if isProbe obs then 0 else 1) ∧
      (stampNew obs).liveEvidence ≤ (if isProbe obs then 0 else 1) := by
  unfold stampNew
  split
  · simp
  · simp only
    constructor
    · split <;> omega
    · split
      · split <;> omega
      · exact hl

theorem normalizeObs_liveEvidence_le {obs : RealityProfile} (h : obs.liveEvidence ≤ 1) :
    (normalizeObs obs).liveEvidence ≤ 1 := by
  by_cases hp : isProbe obs = true
  · rw [normalizeObs_liveEvidence_probe hp]
    exact zero_le_one
  · rw [normalizeObs_liveEvidence (by simpa using hp)]
    exact h

theorem Rebuilt.mono {n n' : Nat} {p : RealityProfile} (h : Rebuilt n p) (hn : n ≤ n') :
    Rebuilt n' p := by
  have he := h.evidence
  have hl := h.liveEvidence
  exact ⟨by omega, by omega⟩

/-- What a started profile holds is covered by the observation that started it. -/
theorem startsFrom_rebuilt {o : StoreOutcome} {obs p : RealityProfile} (n : Nat)
    (h : startsFrom o (normalizeObs obs) p) (he : obs.evidence ≤ 1)
    (hl : obs.liveEvidence ≤ 1) :
    Rebuilt (n + if isProbe obs then 0 else 1) p := by
  have hfirst := stampFirst_evidence (normalizeObs obs)
  have he' : (normalizeObs obs).evidence ≤ 1 := by
    rw [normalizeObs_evidence]
    exact he
  have hnew := stampNew_evidence he' (normalizeObs_liveEvidence_le hl)
  rw [isProbe_normalizeObs] at hfirst hnew
  rcases h with ⟨-, rfl | rfl⟩ | ⟨-, rfl⟩
  · constructor
    · rw [hfirst.1]; split <;> simp
    · rw [hfirst.2]; split <;> simp
  · constructor
    · dsimp only; rw [hfirst.1]; split <;> simp
    · dsimp only; rw [hfirst.2]; split <;> simp
  · constructor
    · refine hnew.1.trans ?_
      split <;> simp
    · refine hnew.2.trans ?_
      split <;> simp

theorem mergeObs_rebuilt {obs p : RealityProfile} {n : Nat} (h : Rebuilt n p) :
    Rebuilt (n + if isProbe obs then 0 else 1) (mergeObs p (normalizeObs obs)) := by
  have he := h.evidence
  have hl := h.liveEvidence
  constructor
  · simp only [mergeObs, isProbe_normalizeObs]
    split
    · simpa using he
    · push_cast
      omega
  · simp only [mergeObs, isProbe_normalizeObs]
    split
    · simpa using hl
    · push_cast
      omega

/-! ## One step -/

theorem ProfileEntry.markStale_quarantined {e : ProfileEntry} (h : e.state = .quarantined)
    (ttl : Int) : e.markStale ttl = e := by
  simp [ProfileEntry.markStale, h]

/-- An accepted observation counts when it is live. -/
theorem liveAccepted_stored {k : Bytes} {since now : Int} {order : List Bytes}
    {obs : RealityProfile} {o : StoreOutcome} (ho : o ≠ .ignored) (ht : since ≤ now)
    (tr : List (CacheOp × CacheOut)) :
    liveAccepted k since (tr ++ [(.storeObservation k obs now order, .stored o)])
      = liveAccepted k since tr + if isProbe obs then 0 else 1 := by
  rw [liveAccepted_append]
  by_cases hp : isProbe obs = true <;> simp [acceptsLive, ho, ht, hp]

theorem liveAccepted_le_append (k : Bytes) (since : Int) (tr : List (CacheOp × CacheOut))
    (x : CacheOp × CacheOut) :
    liveAccepted k since tr ≤ liveAccepted k since (tr ++ [x]) := by
  rw [liveAccepted_append]
  omega

section Step

variable {k : Bytes} {t : Int} {tr : List (CacheOp × CacheOut)} {m m' : CacheManager}
variable {op : CacheOp} {out : CacheOut}

/-- The clock does not run backwards. -/
theorem lastTime_le (hc : CooldownStep t tr op) :
    lastTime t tr ≤ lastTime t (tr ++ [(op, out)]) := by
  rw [lastTime_append]
  cases h : op.time with
  | none => exact le_refl _
  | some now => exact hc.clock now h

/-- A held entry stays held until an observation after the cooldown. -/
theorem held_step (hc : CooldownStep t tr op) (hk : KeepsQuarantine k m op)
    (ht : t ≤ lastTime t tr) (hs : cacheMachine.step m op = some (m', out)) {e : ProfileEntry}
    (he : m.load k = some e) (hh : Held (t + quarantineCooldown) e) :
    QuarantineInv k t (tr ++ [(op, out)]) m' := by
  have hentry := CacheManager.cacheStep_entry hs k
  have hquar : QuarantinedAt m k := ⟨e, he, hh.state⟩
  rw [he] at hentry
  generalize hy : m'.load k = y at hentry
  cases hentry with
  | same h => exact .inl ⟨e, hy, hh⟩
  | evicted hev hf =>
      have := hk.room hquar hev
      omega
  | invalidated => exact absurd hc.kind Bool.false_ne_true
  | swept hneg _ =>
      rw [hh.state] at hneg
      cases hneg
  | agedByLookup hv =>
      have := hv.1
      rw [hh.state] at this
      cases this
  | agedByGet hv =>
      rw [hh.state] at hv
      cases hv
  | @observed obs now order e' hl ho =>
      -- The first observation let through starts the calibration ladder.
      rcases e.observe_cases (normalizeObs obs) m.baseTTL now with
        ⟨-, -, h⟩ | ⟨-, hnow, h2, -, h1⟩ | ⟨hne, -⟩ | ⟨hne, -⟩
      · rw [h] at ho
        exact absurd rfl ho
      · have hsince : t + quarantineCooldown ≤ now := hh.nextRetry.trans hnow
        refine .inr ⟨by rw [lastTime_append]; exact hsince, ?_⟩
        intro e₁ p he₁ hp
        rw [hy, Option.some.injEq] at he₁
        subst he₁
        rw [liveAccepted_stored ho hsince, h2] at *
        obtain ⟨hev, hlive⟩ := hk.single obs now order rfl
        refine startsFrom_rebuilt _ (.inl ⟨.inl rfl, ?_⟩) hev hlive (o := .calibrated)
        rcases h1 with h1 | h1
        · rw [h1] at hp
          exact .inl (Option.some.inj hp).symm
        · rw [h1] at hp
          exact .inr (Option.some.inj hp).symm
      · exact absurd hh.state hne
      · exact absurd hh.state hne
  | swapped => exact absurd hc.kind Bool.false_ne_true
  | quarantined => exact absurd hc.kind Bool.false_ne_true
  | @failedOut _ path now hf =>
      refine .inl ⟨_, hy, rfl, rfl, ?_⟩
      have : lastTime t tr ≤ now := hc.clock now rfl
      show t + quarantineCooldown ≤ now + quarantineCooldown
      omega
  | failedSuspect hv =>
      rw [hh.state] at hv
      cases hv
  | failed _ => exact .inl ⟨_, hy, hh.state, hh.atomicState, hh.nextRetry⟩
  | @negative _ now => exact absurd rfl (hk.notNegative hquar now)
  | staleMark =>
      rw [ProfileEntry.markStale_quarantined hh.state] at hy
      exact .inl ⟨e, hy, hh⟩

/-- After the cooldown the evidence never outruns the accepted observations. -/
theorem rebuilt_step (hc : CooldownStep t tr op) (hk : KeepsQuarantine k m op)
    (hs : cacheMachine.step m op = some (m', out))
    (ht : t + quarantineCooldown ≤ lastTime t tr)
    (hr : ∀ e p, m.load k = some e → e.profile = some p →
      Rebuilt (liveAccepted k (t + quarantineCooldown) tr) p) :
    QuarantineInv k t (tr ++ [(op, out)]) m' := by
  refine .inr ⟨ht.trans (lastTime_le hc), ?_⟩
  intro e p he hp
  have hentry := CacheManager.cacheStep_entry hs k
  rw [he] at hentry
  have hx : ∀ q, (m.load k).bind (·.profile) = some q →
      Rebuilt (liveAccepted k (t + quarantineCooldown) tr) q := by
    intro q hq
    obtain ⟨e₀, he₀, hq⟩ := Option.bind_eq_some_iff.mp hq
    exact hr e₀ q he₀ hq
  have hstep := hentry.profileStep hp
  generalize (m.load k).bind (·.profile) = x at hstep hx
  cases hstep with
  | kept _ => exact (hx p rfl).mono (liveAccepted_le_append ..)
  | @dropped _ _ q _ =>
      have hq := (hx q rfl).mono
        (liveAccepted_le_append k (t + quarantineCooldown) tr (op, out))
      exact ⟨by simp, hq.liveEvidence⟩
  | @merged obs now order q hl hm =>
      have hnow : t + quarantineCooldown ≤ now := ht.trans (hc.clock now rfl)
      rw [liveAccepted_stored (by decide) hnow]
      exact mergeObs_rebuilt (hx q rfl)
  | @started obs now order o x p hl hst =>
      have hnow : t + quarantineCooldown ≤ now := ht.trans (hc.clock now rfl)
      have ho : o ≠ .ignored := by
        rcases hst with ⟨rfl | rfl, -⟩ | ⟨rfl, -⟩ <;> decide
      rw [liveAccepted_stored ho hnow]
      obtain ⟨hev, hlive⟩ := hk.single obs now order rfl
      exact startsFrom_rebuilt _ hst hev hlive
  | restored => exact absurd hc.kind Bool.false_ne_true
  | swapped => exact absurd hc.kind Bool.false_ne_true

end Step

/-! ## Whole runs -/

/-- **Quarantine holds**: after `k` is quarantined at `t`, in every run of
observations, failures, marks, reads and lookups at non-decreasing times that
neither marks the quarantined key negative nor evicts it, no lookup before
`t + QuarantineCooldown` is answered from `k`, and none is answered L2 from
`k` before `MinL2Evidence` live observations were accepted there after the
cooldown. -/
theorem quarantine_holds {m₀ m₁ m m' : CacheManager} {k : Bytes} {t : Int}
    (hq : QuarantinedBy m₀ k t m₁) {tr : List (CacheOp × CacheOut)}
    (h : cacheMachine.Meets
      (fun tr m op => CooldownStep t tr op ∧ KeepsQuarantine k m op) m₁ tr m)
    {q : Query} {now : Int} {r : LookupResult} (hnow : lastTime t tr ≤ now)
    (hs : cacheMachine.step m (.lookup q now) = some (m', .found r)) (hkey : r.key = k) :
    (now < t + quarantineCooldown → r.path = .l0) ∧
      (r.path = .l2 → minL2Evidence ≤ liveAccepted k (t + quarantineCooldown) tr) := by
  have hinv : t ≤ lastTime t tr ∧ QuarantineInv k t tr m := by
    refine h.invariant (I := fun tr m => t ≤ lastTime t tr ∧ QuarantineInv k t tr m)
      ⟨le_refl t, .inl (quarantinedBy_held hq)⟩ ?_
    rintro tr s op s' out ⟨ht, hinv⟩ ⟨hc, hk⟩ hs
    refine ⟨ht.trans (lastTime_le hc), ?_⟩
    rcases hinv with ⟨e, he, hh⟩ | ⟨hover, hr⟩
    · exact held_step hc hk ht hs he hh
    · exact rebuilt_step hc hk hs hover hr
  have hres : (m.lookupAmortize q now).2 = r := by
    simp only [cacheMachine, cacheStep, Option.some.injEq, Prod.mk.injEq,
      CacheOut.found.injEq] at hs
    exact hs.2
  by_cases hl0 : r.path = .l0
  · exact ⟨fun _ => hl0, fun hl2 => by rw [hl0] at hl2; cases hl2⟩
  · obtain ⟨key, e, p, -, he, hans⟩ := CacheManager.lookupAmortize_answered hres hl0
    have hkk : key = k := hans.key_eq.symm.trans hkey
    subst hkk
    rcases hinv.2 with ⟨e', he', hh⟩ | ⟨hover, hr⟩
    · rw [he, Option.some.injEq] at he'
      subst he'
      exact absurd hh.state hans.stateQuar
    · refine ⟨fun hlt => by omega, fun hl2 => ?_⟩
      rcases hans.path with ⟨-, -, -, -, -, helig, -, -⟩ | ⟨hl1, -⟩
      · have hlive := (profileL2Eligible_iff.mp helig).live
        have hreb := hr e p he hans.holds
        have hev := hreb.evidence
        have hle := hreb.liveEvidence
        have : (minL2Evidence : Int) ≤ liveAccepted key (t + quarantineCooldown) tr := by
          split at hlive <;> omega
        exact_mod_cast this
      · rw [hl2] at hl1
        cases hl1

/-! ## A mark that lifts the quarantine -/

/-- A key with two live observations. -/
def provenCache : CacheManager :=
  newCacheManager.put sampleQuery.exactKey
    (freshEntry { sampleLive with evidence := 2, liveEvidence := 2 } profileTTL)

def observeAt (now : Int) : CacheOp :=
  .storeObservation sampleQuery.exactKey { sampleLive with capturedAt := now } now []

/-- One failed refresh and one observation later the key is zero-dialed
again, two minutes into its quarantine. -/
theorem negative_mark_lifts_quarantine :
    ∃ m₁ tr m m' r, QuarantinedBy provenCache sampleQuery.exactKey 0 m₁ ∧
      cacheMachine.Meets (fun tr _ op => CooldownStep 0 tr op) m₁ tr m ∧
      lastTime 0 tr ≤ 2 * minute ∧
      cacheMachine.step m (.lookup sampleQuery (2 * minute)) = some (m', .found r) ∧
      r.key = sampleQuery.exactKey ∧ 2 * minute < 0 + quarantineCooldown ∧
      r.path = .l2 := by
  refine ⟨_, _, _, _, _, .inl rfl,
    .snoc (a := observeAt (2 * minute)) (.snoc (a := .markNegative sampleQuery.exactKey minute)
      .nil ⟨rfl, ?_⟩ rfl) ⟨rfl, ?_⟩ rfl, ?_, rfl, ?_, ?_, ?_⟩
  · intro now h
    cases h
    decide
  · intro now h
    cases h
    decide
  all_goals decide

/-- A quarantined key that is calibrated twice after its cooldown. -/
theorem quarantine_holds_calibrated :
    ∃ m₁ tr m m' r, QuarantinedBy provenCache sampleQuery.exactKey 0 m₁ ∧
      cacheMachine.Meets (fun tr m op => CooldownStep 0 tr op ∧
        KeepsQuarantine sampleQuery.exactKey m op) m₁ tr m ∧
      lastTime 0 tr ≤ 6 * minute ∧
      cacheMachine.step m (.lookup sampleQuery (6 * minute)) = some (m', .found r) ∧
      r.key = sampleQuery.exactKey ∧
      (6 * minute < 0 + quarantineCooldown → r.path = .l0) ∧
      (r.path = .l2 →
        minL2Evidence ≤ liveAccepted sampleQuery.exactKey (0 + quarantineCooldown) tr) := by
  have hkeep : ∀ (m : CacheManager) (now : Int), m.profileEntries < m.maxProfiles →
      KeepsQuarantine sampleQuery.exactKey m (observeAt now) := by
    intro m now hroom
    refine ⟨fun _ _ => nofun, fun _ _ => hroom, ?_⟩
    intro obs now' order h
    cases h
    exact ⟨le_refl _, le_refl _⟩
  have hrun : cacheMachine.Meets (fun tr m op => CooldownStep 0 tr op ∧
      KeepsQuarantine sampleQuery.exactKey m op)
      (provenCache.quarantine sampleQuery.exactKey 0).1 _ _ :=
    .snoc (a := observeAt (6 * minute)) (.snoc (a := observeAt (5 * minute)) .nil
      ⟨⟨rfl, fun now h => by cases h; decide⟩, hkeep _ _ (by decide)⟩ rfl)
      ⟨⟨rfl, fun now h => by cases h; decide⟩, hkeep _ _ (by decide)⟩ rfl
  exact ⟨_, _, _, _, _, .inl rfl, hrun, by decide, rfl, by decide,
    quarantine_holds (.inl rfl) hrun (by decide) rfl (by decide)⟩

end Reality
