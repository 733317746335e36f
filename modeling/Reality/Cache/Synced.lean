import Reality.Cache.Marked

/-!
# The lock-free precheck

Every entry has its state twice: `State`, under the lock of the entry, and
`atomicState`, which a lookup reads before it takes the lock. The source writes
the two by hand wherever it changes the state. Here: all of these places write
both, so the copies agree after any calls, and the precheck turns away exactly
what the check under the lock would.
-/

namespace Reality

open Kit

/-- The two copies of the state agree. -/
def ProfileEntry.Synced (e : ProfileEntry) : Prop := e.atomicState = e.state

namespace ProfileEntry

variable {e : ProfileEntry}

theorem Synced.markStale (h : e.Synced) (baseTTL : Int) : (e.markStale baseTTL).Synced := by
  unfold ProfileEntry.markStale
  split
  · dsimp only
    split <;> rfl
  · exact h

theorem freshEntry_synced (p : RealityProfile) (ttl : Int) : (freshEntry p ttl).Synced := rfl

/-- An observation that is not turned away sets the state. -/
theorem Synced.observe (h : e.Synced) (obs : RealityProfile) (ttl now : Int) :
    (e.observe obs ttl now).1.Synced := by
  unfold ProfileEntry.observe
  split
  · split
    · exact h
    · rfl
  split
  · rfl
  split
  · dsimp only
    split
    · rfl
    · exact h
  · rfl

end ProfileEntry

namespace CacheManager

/-- The closure of `lookupAmortize` without the lock-free precheck. -/
def probeLocked (m : CacheManager) (mode : AmortizeMode) (q : Query) (now : Int) (key : Bytes) :
    CacheManager × Option LookupResult :=
  match m.load key with
  | none => (m, none)
  | some e =>
      if e.state = .negative || e.state = .quarantined then (m, none)
      else
        match e.profile with
        | none => (m, none)
        | some p =>
            if !validateRecordLens p.recordLens then (m, none)
            else
              let suspect : Bool := e.state = .suspect
              let expired : Bool := timeSub now p.capturedAt ≥ e.ttl
              let m' := if expired && e.state = .valid then m.put key (e.setState .stale) else m
              let stale : Bool := e.state = .stale || expired
              if l2Allowed mode q now key suspect stale p then
                (m', some { profile := some p, path := .l2, key := key, stale := false })
              else if mode = .l1 || mode = .auto || mode = .l2 then
                if l1Conflict q p then (m', none)
                else (m', some { profile := some p, path := .l1, key := key, stale := stale })
              else (m', none)

/-- `lookupAmortize` without the lock-free precheck. -/
def lookupAmortizeLocked (m : CacheManager) (q : Query) (now : Int) :
    CacheManager × LookupResult :=
  let mode := resolveAmortizeMode q.mode
  if mode = .l0 then (m, {})
  else
    let r₁ := if q.chClass ≠ [] then m.probeLocked mode q now q.exactKey else (m, none)
    match r₁.2 with
    | some res => (r₁.1, res)
    | none =>
        let r₂ :=
          if q.softChClass ≠ [] && q.softChClass ≠ q.chClass then
            r₁.1.probeLocked mode q now q.softKey
          else (r₁.1, none)
        match r₂.2 with
        | some res => (r₂.1, res)
        | none =>
            let r₃ := r₂.1.probeLocked mode q now q.legacyKey
            match r₃.2 with
            | some res => (r₃.1, res)
            | none => (r₃.1, {})

/-! ## Every call keeps the copies together -/

/-- The copies agree in every entry. -/
def Synced (m : CacheManager) : Prop := ∀ k e, m.load k = some e → e.Synced

variable {m m' : CacheManager} {key : Bytes} {e : ProfileEntry}

theorem Synced.empty (h : m.entries = ∅) : m.Synced := by
  intro k e hl
  rw [load, h] at hl
  cases hl

theorem Synced.put (h : m.Synced) (he : e.Synced) : (m.put key e).Synced := by
  intro k e' hl
  rw [load_put] at hl
  split at hl
  · cases hl
    exact he
  · exact h k e' hl

theorem Synced.delete (h : m.Synced) (key : Bytes) : (m.delete key).Synced := by
  intro k e hl
  rw [load_delete] at hl
  split at hl
  · cases hl
  · exact h k e hl

theorem Synced.foldl {f : CacheManager → Bytes → CacheManager}
    (hf : ∀ m k, m.Synced → (f m k).Synced) (keys : List Bytes) (h : m.Synced) :
    (keys.foldl f m).Synced := by
  induction keys generalizing m with
  | nil => exact h
  | cons k keys ih => exact ih (hf m k h)

theorem Synced.insertNew {order : List Bytes} (h : m.Synced) (he : e.Synced)
    (hok : m.insertNew key e order = .ok m') : m'.Synced := by
  have hin : (m.inserted key e).Synced := h.put he
  rcases evictIfFull_cases hok with rfl | ⟨-, k, rfl⟩
  · exact hin
  · exact hin.delete k

theorem Synced.storeProfile (h : m.Synced) (key : Bytes) (p : RealityProfile)
    (order : List Bytes) : ((CacheMethod.storeProfile key p order).after m).Synced := by
  simp only [CacheMethod.after]
  cases hs : m.storeProfile key p order with
  | error _ => exact h.put rfl
  | ok r =>
      obtain ⟨m', b⟩ := r
      rcases storeProfile_ok hs with ⟨-, rfl⟩ | ⟨-, -, hin⟩
      · exact h
      · exact h.insertNew (ProfileEntry.freshEntry_synced ..) hin

theorem Synced.storeRecovered (h : m.Synced) (key : Bytes) (obs : RealityProfile) (t : Int)
    (order : List Bytes) : (m.storeRecovered key obs t order).1.Synced := by
  unfold CacheManager.storeRecovered
  cases hs : m.storeObservation key obs t order with
  | error _ => exact h.put rfl
  | ok r =>
      obtain ⟨m', o⟩ := r
      rcases storeObservation_ok hs with ⟨-, rfl⟩ | ⟨-, ⟨e, hl, -, -, rfl⟩ | ⟨-, -, hin⟩⟩
      · exact h
      · exact h.put ((h key e hl).observe _ _ _)
      · exact h.insertNew (ProfileEntry.freshEntry_synced ..) hin

theorem Synced.markStale (h : m.Synced) (key : Bytes) : (m.markStale key).Synced := by
  unfold CacheManager.markStale
  cases hl : m.load key with
  | none => exact h
  | some e => exact h.put ((h key e hl).markStale _)

theorem Synced.markNegative (h : m.Synced) (key : Bytes) (t : Int) :
    (m.markNegative key t).Synced := by
  unfold CacheManager.markNegative
  cases m.load key <;> exact h.put rfl

theorem Synced.quarantine (h : m.Synced) (key : Bytes) (t : Int) :
    (m.quarantine key t).1.Synced := by
  unfold CacheManager.quarantine
  cases m.load key <;> exact h.put rfl

theorem Synced.noteHandshakeFailure (h : m.Synced) (key : Bytes) (path : AmortizePath) (t : Int) :
    (m.noteHandshakeFailure key path t).Synced := by
  unfold CacheManager.noteHandshakeFailure
  split
  · exact h
  split
  · exact h
  cases hl : m.load key with
  | none => exact h
  | some e =>
      dsimp only
      split
      · exact h.put rfl
      split
      · exact h.put rfl
      · -- Only the count changes.
        exact h.put (e := { e with failCount := e.failCount + 1 }) (h key e hl)

theorem Synced.getProfile (h : m.Synced) (key : Bytes) (t : Int) :
    ((CacheMethod.getProfile key t).after m).Synced := by
  simp only [CacheMethod.after]
  cases hg : m.getProfile key t with
  | error _ => exact h
  | ok r =>
      obtain ⟨m', p, stale⟩ := r
      rcases getProfile_ok hg with rfl | ⟨e, -, -, rfl⟩ | ⟨e, -, -, -, rfl⟩
      · exact h
      · exact h.put rfl
      · exact h.delete key

theorem Synced.probe (h : m.Synced) (mode : AmortizeMode) (q : Query) (now : Int) (key : Bytes) :
    (m.probe mode q now key).1.Synced := by
  rcases probe_fst m mode q now key with heq | ⟨e, -, -, heq⟩
  · rw [heq]
    exact h
  · rw [heq]
    exact h.put rfl

theorem Synced.invalidateProfile (h : m.Synced) (key : Bytes) :
    (m.invalidateProfile key).Synced := by
  unfold CacheManager.invalidateProfile
  cases m.load key with
  | none => exact h
  | some e => exact h.delete key

end CacheManager

open CacheManager in
/-- One call. -/
theorem CacheMethod.after_synced {m : CacheManager} (h : m.Synced) (c : CacheMethod) :
    (c.after m).Synced := by
  cases c with
  | storeProfile key p order => exact h.storeProfile key p order
  | storeObservation key obs t order => exact h.storeRecovered key obs t order
  | hotSwapProfile key p => exact h.put rfl
  | markStale key => exact h.markStale key
  | markNegative key t => exact h.markNegative key t
  | quarantine key t => exact h.quarantine key t
  | noteHandshakeFailure key path t => exact h.noteHandshakeFailure key path t
  | getProfile key t => exact h.getProfile key t
  | lookupAmortize q t =>
      exact lookupAmortize_keeps (P := Synced) (fun _ mode key h => h.probe mode q t key) h
  | invalidateProfile key => exact h.invalidateProfile key
  | invalidateKey key => exact h.invalidateProfile key
  | invalidateAndReprobe dest serverName alpn order =>
      exact Synced.foldl (fun _ k h => h.invalidateProfile k) _ (h.invalidateProfile _)
  | invalidateAll order =>
      exact Synced.foldl (f := fun m k => (m.delete k).addEntries (-1))
        (fun _ k h => h.delete k) (m.visitOrder order) h
  | reset order => exact Synced.foldl (fun _ k h => h.delete k) (m.visitOrder order) h
  | markDirty => exact h
  | clearDirty => exact h
  | persistSnapshot snap => exact h
  | read => exact h

/-! ## The lookup with and without the precheck -/

namespace CacheManager

variable {m : CacheManager}

theorem probe_eq_probeLocked (h : m.Synced) (mode : AmortizeMode) (q : Query) (now : Int)
    (key : Bytes) : m.probe mode q now key = m.probeLocked mode q now key := by
  unfold CacheManager.probe probeLocked
  cases hl : m.load key with
  | none => rfl
  | some e =>
      have he : e.atomicState = e.state := h key e hl
      dsimp only
      rw [he]
      -- What is left of the precheck is the check under the lock, twice.
      by_cases hout : (decide (e.state = .negative) || decide (e.state = .quarantined)) = true
      · rw [if_pos hout, if_pos hout]
      · exact (if_neg hout).trans rfl

theorem lookupAmortize_eq_locked (h : m.Synced) (q : Query) (now : Int) :
    m.lookupAmortize q now = m.lookupAmortizeLocked q now := by
  unfold lookupAmortize lookupAmortizeLocked
  dsimp only
  split
  · rfl
  · rw [← probe_eq_probeLocked h]
    generalize hr₁ : (if q.chClass ≠ [] then
      m.probe (resolveAmortizeMode q.mode) q now q.exactKey else (m, none)) = r₁
    have h₁ : r₁.1.Synced := by
      subst hr₁
      split
      · exact h.probe _ _ _ _
      · exact h
    cases r₁.2 with
    | some res => rfl
    | none =>
        dsimp only
        rw [← probe_eq_probeLocked h₁]
        generalize hr₂ : (if (q.softChClass ≠ [] && q.softChClass ≠ q.chClass) = true then
          r₁.1.probe (resolveAmortizeMode q.mode) q now q.softKey else (r₁.1, none)) = r₂
        have h₂ : r₂.1.Synced := by
          subst hr₂
          split
          · exact h₁.probe _ _ _ _
          · exact h₁
        cases r₂.2 with
        | some res => rfl
        | none =>
            exact probe_eq_probeLocked h₂ (resolveAmortizeMode q.mode) q now q.legacyKey ▸ rfl

end CacheManager

/-- **After any calls the copies agree, and the precheck makes no difference**: not
to what a lookup answers, and not to what it leaves. -/
theorem precheck_transparent {m₀ m : CacheManager} {tr : List (CacheMethod × Unit)}
    (hempty : m₀.entries = ∅) (hrun : methodMachine.Run m₀ tr m) :
    (∀ k e, m.load k = some e → e.atomicState = e.state) ∧
      ∀ q now, m.lookupAmortize q now = m.lookupAmortizeLocked q now := by
  have hsynced : m.Synced := by
    refine hrun.invariant (I := fun _ m => m.Synced) (CacheManager.Synced.empty hempty) ?_
    intro tr m c m' u h hstep
    cases hstep
    exact CacheMethod.after_synced h c
  exact ⟨hsynced, CacheManager.lookupAmortize_eq_locked hsynced⟩

/-- Through suspect and quarantined, with a second key marked negative. -/
theorem precheck_transparent_quarantined :
    ∃ tr m, methodMachine.Run newCacheManager tr m ∧
      ((m.load (str "a")).any (fun e => e.state = .quarantined) ∧
        (m.load (str "b")).any (fun e => e.state = .negative)) ∧
      (∀ k e, m.load k = some e → e.atomicState = e.state) ∧
      ∀ q now, m.lookupAmortize q now = m.lookupAmortizeLocked q now := by
  obtain ⟨tr, m, hrun, hstates⟩ : ∃ tr m, methodMachine.Run newCacheManager tr m ∧
      ((m.load (str "a")).any (fun e => e.state = .quarantined) ∧
        (m.load (str "b")).any (fun e => e.state = .negative)) :=
    Machine.Run.exists_of_exec
      [.storeProfile (str "a") {} [], .noteHandshakeFailure (str "a") .l1 5,
        .markNegative (str "b") 6, .noteHandshakeFailure (str "a") .l2 7] (by decide +kernel)
  exact ⟨tr, m, hrun, hstates, precheck_transparent rfl hrun⟩

end Reality
