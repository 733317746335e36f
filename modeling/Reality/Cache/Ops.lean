import Reality.Cache.Lookup
import Reality.Kit.Run
import Reality.Persist

/-!
# Runs of cache operations

The operations of the cache as the labels of a machine, and ONE lemma that
says what a step can do to the entry at a key (`cacheStep_entry`). Every
invariant about entries is derived from that lemma; no later proof unfolds
an operation again.
-/

namespace Reality

open Kit

inductive CacheOp where
  | storeObservation (key : Bytes) (obs : RealityProfile) (now : Int) (order : List Bytes)
  | lookup (q : Query) (now : Int)
  | getProfile (key : Bytes) (now : Int)
  | quarantine (key : Bytes) (now : Int)
  | noteHandshakeFailure (key : Bytes) (path : AmortizePath) (now : Int)
  | markNegative (key : Bytes) (now : Int)
  | markStale (key : Bytes)
  | invalidateProfile (key : Bytes)
  | storeProfile (key : Bytes) (profile : RealityProfile) (order : List Bytes)
  | hotSwapProfile (key : Bytes) (profile : RealityProfile)
  | evictIfFull (order : List Bytes)

inductive CacheOut where
  | unit
  | stored (o : StoreOutcome)
  | created (b : Bool)
  | found (r : LookupResult)
  | profile (p : Option RealityProfile) (stale : Bool)

/-- `StoreObservation` as its callers see it. It can panic while it evicts,
when the new entry is in already; accept loop, event bus and `DoProbe` recover
and go on. -/
def CacheManager.storeRecovered (m : CacheManager) (key : Bytes) (obs : RealityProfile)
    (now : Int) (order : List Bytes) : CacheManager × StoreOutcome :=
  match m.storeObservation key obs now order with
  | .ok r => r
  | .error _ =>
      (m.inserted key (freshEntry (stampNew (normalizeObs obs)) m.baseTTL), .created)

open CacheManager in
/-- One operation. A panic nobody recovers ends the process: there is no next
state. -/
def cacheStep (m : CacheManager) : CacheOp → Option (CacheManager × CacheOut)
  | .storeObservation key obs now order =>
      some ((m.storeRecovered key obs now order).1,
        .stored (m.storeRecovered key obs now order).2)
  | .lookup q now => some ((m.lookupAmortize q now).1, .found (m.lookupAmortize q now).2)
  | .getProfile key now =>
      match m.getProfile key now with
      | .ok (m', p, stale) => some (m', .profile p stale)
      | .error _ => none
  | .quarantine key now => some ((m.quarantine key now).1, .created (m.quarantine key now).2)
  | .noteHandshakeFailure key path now => some (m.noteHandshakeFailure key path now, .unit)
  | .markNegative key now => some (m.markNegative key now, .created (m.load key).isNone)
  | .markStale key => some (m.markStale key, .unit)
  | .invalidateProfile key => some (m.invalidateProfile key, .unit)
  | .storeProfile key p order =>
      match m.storeProfile key p order with
      | .ok (m', b) => some (m', .created b)
      | .error _ => none
  | .hotSwapProfile key p => some (m.hotSwapProfile key p, .unit)
  | .evictIfFull order =>
      match m.evictIfFull order with
      | .ok m' => some (m', .unit)
      | .error _ => none

def cacheMachine : Machine CacheManager CacheOp CacheOut := ⟨cacheStep⟩

/-- An insertion or explicit eviction, which may remove any key. -/
def CacheOp.mayEvict : CacheOp → Bool
  | .storeObservation .. | .storeProfile .. | .evictIfFull .. => true
  | _ => false

/-- The operation neither created the entry at `k` nor wrote a new profile
there. -/
def Untouched (k : Bytes) : CacheOp → CacheOut → Prop
  | .storeObservation key _ _ _, .stored o => key = k → o = .ignored
  | .storeProfile key _ _, .created b => key = k → b = false
  | .quarantine key _, .created b => key = k → b = false
  | .markNegative key _, .created b => key = k → b = false
  | .hotSwapProfile key _, _ => key ≠ k
  | _, _ => True

/-- What one operation can do to the entry at `k`. `full` is the capacity
condition under which entries are evicted. -/
inductive EntryStep (ttl : Int) (full : Prop) (k : Bytes) :
    CacheOp → CacheOut → Option ProfileEntry → Option ProfileEntry → Prop where
  | same {op out x} (h : Untouched k op out) : EntryStep ttl full k op out x x
  | evicted {op out x} (h : op.mayEvict = true) (hf : full) : EntryStep ttl full k op out x none
  | invalidated {x} : EntryStep ttl full k (.invalidateProfile k) .unit x none
  | swept {e now out} (hs : e.state = .negative) (ht : e.nextRetry ≤ now) :
      EntryStep ttl full k (.getProfile k now) out (some e) none
  | agedByLookup {q now r e} (h : e.Ageable) :
      EntryStep ttl full k (.lookup q now) (.found r) (some e) (some (e.setState .stale))
  | agedByGet {now out e} (h : e.state = .valid) :
      EntryStep ttl full k (.getProfile k now) out (some e) (some (e.setState .stale))
  | observed {obs now order e} (hl : validateRecordLens obs.recordLens = true)
      (ho : (e.observe (normalizeObs obs) ttl now).2 ≠ .ignored) :
      EntryStep ttl full k (.storeObservation k obs now order)
        (.stored (e.observe (normalizeObs obs) ttl now).2) (some e)
        (some (e.observe (normalizeObs obs) ttl now).1)
  | created {obs now order} (hl : validateRecordLens obs.recordLens = true) :
      EntryStep ttl full k (.storeObservation k obs now order) (.stored .created) none
        (some (freshEntry (stampNew (normalizeObs obs)) ttl))
  | restored {p order} :
      EntryStep ttl full k (.storeProfile k p order) (.created true) none
        (some (freshEntry p ttl))
  | swapped {p x} :
      EntryStep ttl full k (.hotSwapProfile k p) .unit x (some (freshEntry p ttl))
  | quarantined {e now} :
      EntryStep ttl full k (.quarantine k now) (.created false) (some e)
        (some { e.quarantine now with failCount := maxL2FailWindow })
  | quarantinedNew {now} :
      EntryStep ttl full k (.quarantine k now) (.created true) none
        (some
          { state := .quarantined, atomicState := .quarantined,
            failCount := maxL2FailWindow, nextRetry := now + quarantineCooldown,
            ttl := ttl })
  | failedOut {e path now} (h : maxL2FailWindow ≤ e.failCount + 1) :
      EntryStep ttl full k (.noteHandshakeFailure k path now) .unit (some e)
        (some ({ e with failCount := e.failCount + 1 }.quarantine now))
  | failedSuspect {e path now} (h : e.state = .valid) :
      EntryStep ttl full k (.noteHandshakeFailure k path now) .unit (some e)
        (some ({ e with failCount := e.failCount + 1 }.setState .suspect))
  | failed {e path now} (h : e.state ≠ .valid) :
      EntryStep ttl full k (.noteHandshakeFailure k path now) .unit (some e)
        (some { e with failCount := e.failCount + 1 })
  | negative {e now} :
      EntryStep ttl full k (.markNegative k now) (.created false) (some e)
        (some (e.markNegative now))
  | negativeNew {now} :
      EntryStep ttl full k (.markNegative k now) (.created true) none
        (some
          { state := .negative, atomicState := .negative, failCount := 1,
            nextRetry := now + minute, ttl := ttl })
  | staleMark {e} :
      EntryStep ttl full k (.markStale k) .unit (some e) (some (e.markStale ttl))

/-! ## The same step, seen from the profile -/

/-- The observation an outcome starts a new profile from. -/
def startsFrom (o : StoreOutcome) (obs p : RealityProfile) : Prop :=
  (o = .calibrated ∨ o = .suspected) ∧
      (p = stampFirst obs ∨ p = { stampFirst obs with stability := 1 }) ∨
    o = .created ∧ p = stampNew obs

/-- Where the profile at `k` comes from after one operation. -/
inductive ProfileStep (k : Bytes) :
    CacheOp → CacheOut → Option RealityProfile → RealityProfile → Prop where
  | kept {op out p} (h : Untouched k op out) : ProfileStep k op out (some p) p
  | dropped {op out p} (h : Untouched k op out) :
      ProfileStep k op out (some p) { p with evidence := 0 }
  | merged {obs now order p} (hl : validateRecordLens obs.recordLens = true)
      (hm : profilesMatch p (normalizeObs obs) = true) :
      ProfileStep k (.storeObservation k obs now order) (.stored .merged) (some p)
        (mergeObs p (normalizeObs obs))
  | started {obs now order o x p} (hl : validateRecordLens obs.recordLens = true)
      (h : startsFrom o (normalizeObs obs) p) :
      ProfileStep k (.storeObservation k obs now order) (.stored o) x p
  | restored {p order x} : ProfileStep k (.storeProfile k p order) (.created true) x p
  | swapped {p x} : ProfileStep k (.hotSwapProfile k p) .unit x p

/-- What an observation does to an entry: it is turned away, starts the
profile over, or is merged. The swap branch of the source is never reached. -/
theorem ProfileEntry.observe_cases (e : ProfileEntry) (obs : RealityProfile)
    (ttl now : Int) :
    (e.state = .quarantined ∧ now < e.nextRetry ∧ e.observe obs ttl now = (e, .ignored)) ∨
    (e.state = .quarantined ∧ e.nextRetry ≤ now ∧
      (e.observe obs ttl now).2 = .calibrated ∧
      (e.observe obs ttl now).1.state = .valid ∧
      ((e.observe obs ttl now).1.profile = some (stampFirst obs) ∨
        (e.observe obs ttl now).1.profile = some { stampFirst obs with stability := 1 })) ∨
    (e.state ≠ .quarantined ∧ (e.observe obs ttl now).2 = .merged ∧
      (e.observe obs ttl now).1.state = .valid ∧
      ∃ p, e.profile = some p ∧ profilesMatch p obs = true ∧
        (e.observe obs ttl now).1.profile = some (mergeObs p obs)) ∨
    (e.state ≠ .quarantined ∧ (e.observe obs ttl now).2 = .suspected ∧
      (e.observe obs ttl now).1.state = .suspect ∧
      (e.observe obs ttl now).1.profile = some (stampFirst obs)) := by
  unfold ProfileEntry.observe
  split
  next hq =>
    split
    next ht => exact .inl ⟨hq, ht, rfl⟩
    next ht =>
      refine .inr (.inl ⟨hq, by omega, rfl, rfl, ?_⟩)
      dsimp only
      split
      · exact .inr rfl
      · exact .inl rfl
  next hq =>
    split
    next hm =>
      refine .inr (.inr (.inl ⟨hq, rfl, rfl, ?_⟩))
      cases hp : e.profile with
      | none => rw [hp] at hm; cases hm
      | some p =>
          rw [hp] at hm
          exact ⟨p, rfl, hm, rfl⟩
    next hm =>
      have hm' : ¬ (decide (e.state = .suspect) && e.profile.any (profilesMatch · obs))
          = true := by
        simp [hm]
      rw [if_neg hm']
      exact .inr (.inr (.inr ⟨hq, rfl, rfl, rfl⟩))

/-- A step that leaves an entry with a profile says where it comes from. -/
theorem EntryStep.profileStep {ttl : Int} {full : Prop} {k : Bytes} {op : CacheOp}
    {out : CacheOut} {x : Option ProfileEntry} {e : ProfileEntry} {p : RealityProfile}
    (h : EntryStep ttl full k op out x (some e)) (hp : e.profile = some p) :
    ProfileStep k op out (x.bind (·.profile)) p := by
  cases h with
  | same h =>
      simp only [Option.bind_some, hp]
      exact .kept h
  | agedByLookup h =>
      rw [ProfileEntry.setState_profile] at hp
      simp only [Option.bind_some, hp]
      exact .kept trivial
  | agedByGet h =>
      rw [ProfileEntry.setState_profile] at hp
      simp only [Option.bind_some, hp]
      exact .kept trivial
  | @observed obs now order e₀ hl ho =>
      rcases e₀.observe_cases (normalizeObs obs) ttl now with
        ⟨-, -, h⟩ | ⟨-, -, h2, -, h1⟩ | ⟨-, h2, -, q, hq, hm, h1⟩ | ⟨-, h2, -, h1⟩
      · rw [h] at ho
        exact absurd rfl ho
      · rw [h2]
        refine .started hl (.inl ⟨.inl rfl, ?_⟩)
        rcases h1 with h1 | h1
        · rw [h1] at hp
          exact .inl (Option.some.inj hp).symm
        · rw [h1] at hp
          exact .inr (Option.some.inj hp).symm
      · rw [h1] at hp
        cases hp
        rw [h2]
        simp only [Option.bind_some, hq]
        exact .merged hl hm
      · rw [h2]
        rw [h1] at hp
        exact .started hl (.inl ⟨.inr rfl, .inl (Option.some.inj hp).symm⟩)
  | created hl =>
      refine .started hl (.inr ⟨rfl, ?_⟩)
      exact (Option.some.inj hp).symm
  | restored =>
      cases hp
      exact .restored
  | swapped =>
      cases hp
      exact .swapped
  | @quarantined e₀ now =>
      simp only [ProfileEntry.quarantine, Option.map_eq_some_iff] at hp
      obtain ⟨q, hq, rfl⟩ := hp
      simp only [Option.bind_some, hq]
      exact .dropped (fun _ => rfl)
  | quarantinedNew => cases hp
  | @failedOut e₀ path now hf =>
      simp only [ProfileEntry.quarantine, Option.map_eq_some_iff] at hp
      obtain ⟨q, hq, rfl⟩ := hp
      simp only [Option.bind_some, hq]
      exact .dropped trivial
  | @failedSuspect e₀ path now hv =>
      have hp : e₀.profile = some p := hp
      simp only [Option.bind_some, hp]
      exact .kept trivial
  | @failed e₀ path now hv =>
      simp only [Option.bind_some]
      rw [hp]
      exact .kept trivial
  | @negative e₀ now =>
      simp only [ProfileEntry.markNegative, ProfileEntry.setState_profile] at hp
      simp only [Option.bind_some, hp]
      exact .kept (fun _ => rfl)
  | negativeNew => cases hp
  | @staleMark e₀ =>
      rw [ProfileEntry.markStale_profile] at hp
      simp only [Option.bind_some, hp]
      exact .kept trivial

namespace CacheManager

variable {m m' : CacheManager} {key k : Bytes}

/-- An insertion leaves the new entry, the old ones, or (by eviction) less. -/
theorem load_insertNew {e : ProfileEntry} {order : List Bytes}
    (h : m.insertNew key e order = .ok m') (k : Bytes) :
    m'.load k = (if k = key then some e else m.load k) ∨
      m'.load k = none ∧ m.maxProfiles ≤ m.profileEntries := by
  rcases load_evictIfFull h k with h | ⟨h, hf⟩
  · rw [load_inserted] at h
    exact .inl h
  · refine .inr ⟨h, ?_⟩
    have hf : m.maxProfiles < m.profileEntries + 1 := hf
    omega

theorem storeObservation_ok {obs : RealityProfile} {now : Int} {order : List Bytes}
    {o : StoreOutcome} (h : m.storeObservation key obs now order = .ok (m', o)) :
    (o = .ignored ∧ m' = m) ∨
    validateRecordLens obs.recordLens = true ∧
      ((∃ e, m.load key = some e ∧
          o = (e.observe (normalizeObs obs) m.baseTTL now).2 ∧ o ≠ .ignored ∧
          m' = (m.put key (e.observe (normalizeObs obs) m.baseTTL now).1).markDirty) ∨
        (m.load key = none ∧ o = .created ∧
          m.insertNew key (freshEntry (stampNew (normalizeObs obs)) m.baseTTL) order
            = .ok m')) := by
  unfold storeObservation at h
  split at h
  · cases h
    exact .inl ⟨rfl, rfl⟩
  next hl =>
    have hl : validateRecordLens obs.recordLens = true := by simpa using hl
    cases hm : m.load key with
    | some e =>
        rw [hm] at h
        dsimp only at h
        split at h
        · cases h
          exact .inl ⟨rfl, rfl⟩
        next hne =>
          cases h
          exact .inr ⟨hl, .inl ⟨e, rfl, rfl, hne, rfl⟩⟩
    | none =>
        rw [hm] at h
        dsimp only at h
        cases hi : m.insertNew key (freshEntry (stampNew (normalizeObs obs)) m.baseTTL)
            order with
        | error p => rw [hi] at h; cases h
        | ok m₁ =>
            rw [hi] at h
            cases h
            exact .inr ⟨hl, .inr ⟨rfl, rfl, rfl⟩⟩

/-- It panics only behind an insertion. -/
theorem storeObservation_error {obs : RealityProfile} {now : Int} {order : List Bytes}
    {e : Panic} (h : m.storeObservation key obs now order = .error e) :
    validateRecordLens obs.recordLens = true ∧ m.load key = none := by
  unfold storeObservation at h
  split at h
  · cases h
  next hl =>
    refine ⟨by simpa using hl, ?_⟩
    cases hm : m.load key with
    | none => rfl
    | some e =>
        rw [hm] at h
        dsimp only at h
        split at h <;> cases h

theorem storeProfile_ok {p : RealityProfile} {order : List Bytes} {b : Bool}
    (h : m.storeProfile key p order = .ok (m', b)) :
    (b = false ∧ m' = m) ∨
      (b = true ∧ m.load key = none ∧
        m.insertNew key (freshEntry p m.baseTTL) order = .ok m') := by
  unfold storeProfile at h
  cases hm : m.load key with
  | some e =>
      rw [hm] at h
      cases h
      exact .inl ⟨rfl, rfl⟩
  | none =>
      rw [hm] at h
      cases hi : m.insertNew key (freshEntry p m.baseTTL) order with
      | error q => dsimp only at h; rw [hi] at h; cases h
      | ok m₁ =>
          dsimp only at h
          rw [hi] at h
          cases h
          exact .inr ⟨rfl, rfl, rfl⟩

theorem getProfile_ok {now : Int} {p : Option RealityProfile} {stale : Bool}
    (h : m.getProfile key now = .ok (m', p, stale)) :
    m' = m ∨
    (∃ e, m.load key = some e ∧ e.state = .valid ∧ m' = m.put key (e.setState .stale)) ∨
    (∃ e, m.load key = some e ∧ e.state = .negative ∧ e.nextRetry ≤ now ∧
      m' = (m.delete key).addEntries (-1)) := by
  unfold getProfile at h
  cases hm : m.load key with
  | none =>
      rw [hm] at h
      cases h
      exact .inl rfl
  | some e =>
      rw [hm] at h
      dsimp only at h
      cases hs : e.state with
      | valid =>
          rw [hs] at h
          dsimp only at h
          cases hp : e.profile with
          | none => rw [hp] at h; cases h
          | some q =>
              rw [hp] at h
              dsimp only at h
              split at h
              · cases h
                exact .inl rfl
              · cases h
                exact .inr (.inl ⟨e, rfl, hs, rfl⟩)
      | negative =>
          rw [hs] at h
          dsimp only at h
          split at h
          · cases h
            exact .inl rfl
          next ht =>
            cases h
            exact .inr (.inr ⟨e, rfl, hs, by omega, rfl⟩)
      | stale => rw [hs] at h; cases h; exact .inl rfl
      | suspect => rw [hs] at h; cases h; exact .inl rfl
      | quarantined => rw [hs] at h; cases h; exact .inl rfl

/-! Operations that write one entry are told apart by what they do to it. -/

section OneKey

variable {ttl : Int} {full : Prop} {op : CacheOp} {out : CacheOut} {x : Option ProfileEntry}

theorem entryStep_put {e : ProfileEntry} (hx : m.load key = x)
    (hat : EntryStep ttl full key op out x (some e)) (hne : k ≠ key → Untouched k op out) :
    EntryStep ttl full k op out (m.load k) ((m.put key e).load k) := by
  rw [load_put]
  split
  next hk =>
    subst hk
    rw [hx]
    exact hat
  next hk => exact .same (hne hk)

theorem entryStep_delete (hx : m.load key = x) (hat : EntryStep ttl full key op out x none)
    (hne : k ≠ key → Untouched k op out) :
    EntryStep ttl full k op out (m.load k) ((m.delete key).load k) := by
  rw [load_delete]
  split
  next hk =>
    subst hk
    rw [hx]
    exact hat
  next hk => exact .same (hne hk)

/-- An insertion may also evict. -/
theorem entryStep_insertNew {e : ProfileEntry} {order : List Bytes} (hx : m.load key = none)
    (hi : m.insertNew key e order = .ok m') (hevict : op.mayEvict = true)
    (hat : EntryStep ttl (m.maxProfiles ≤ m.profileEntries) key op out none (some e))
    (hne : k ≠ key → Untouched k op out) :
    EntryStep ttl (m.maxProfiles ≤ m.profileEntries) k op out (m.load k) (m'.load k) := by
  rcases load_insertNew hi k with hk | ⟨hk, hf⟩
  · rw [hk, ← load_put]
    exact entryStep_put hx hat hne
  · rw [hk]
    exact .evicted hevict hf

end OneKey

theorem storeRecovered_entry (obs : RealityProfile) (now : Int) (order : List Bytes) :
    EntryStep m.baseTTL (m.maxProfiles ≤ m.profileEntries) k
      (.storeObservation key obs now order) (.stored (m.storeRecovered key obs now order).2)
      (m.load k) ((m.storeRecovered key obs now order).1.load k) := by
  have hother : ∀ o, k ≠ key → Untouched k (.storeObservation key obs now order) (.stored o) :=
    fun o hk hk' => absurd hk'.symm hk
  unfold storeRecovered
  split
  next r hs =>
    obtain ⟨m₁, o⟩ := r
    rcases storeObservation_ok hs with ⟨rfl, rfl⟩ | ⟨hl, ⟨e, he, rfl, hne, rfl⟩ | ⟨hn, rfl, hi⟩⟩
    · exact .same (fun _ => rfl)
    · exact entryStep_put he (.observed hl hne) (hother _)
    · exact entryStep_insertNew hn hi rfl (.created hl) (hother _)
  next e he =>
    obtain ⟨hl, hn⟩ := storeObservation_error he
    exact entryStep_put hn (.created hl) (hother _)

theorem getProfile_entry {now : Int} {p : Option RealityProfile} {stale : Bool} {ttl : Int}
    {full : Prop} (h : m.getProfile key now = .ok (m', p, stale)) :
    EntryStep ttl full k (.getProfile key now) (.profile p stale) (m.load k) (m'.load k) := by
  rcases getProfile_ok h with rfl | ⟨e, he, hv, rfl⟩ | ⟨e, he, hs, ht, rfl⟩
  · exact .same trivial
  · exact entryStep_put he (.agedByGet hv) fun _ => trivial
  · exact entryStep_delete he (.swept hs ht) fun _ => trivial

theorem quarantine_entry (now : Int) {full : Prop} :
    EntryStep m.baseTTL full k (.quarantine key now) (.created (m.quarantine key now).2)
      (m.load k) ((m.quarantine key now).1.load k) := by
  have hother : ∀ b, k ≠ key → Untouched k (.quarantine key now) (.created b) :=
    fun b hk hk' => absurd hk'.symm hk
  unfold quarantine
  cases hm : m.load key with
  | none => exact entryStep_put hm .quarantinedNew (hother _)
  | some e => exact entryStep_put hm .quarantined (hother _)

theorem noteHandshakeFailure_entry (path : AmortizePath) (now : Int) {ttl : Int} {full : Prop} :
    EntryStep ttl full k (.noteHandshakeFailure key path now) .unit (m.load k)
      ((m.noteHandshakeFailure key path now).load k) := by
  unfold noteHandshakeFailure
  split
  · exact .same trivial
  split
  · exact .same trivial
  cases hm : m.load key with
  | none => exact .same trivial
  | some e =>
      dsimp only
      split
      next hf => exact entryStep_put hm (.failedOut hf) fun _ => trivial
      · split
        next hv => exact entryStep_put hm (.failedSuspect hv) fun _ => trivial
        next hv => exact entryStep_put hm (.failed hv) fun _ => trivial

theorem markNegative_entry (now : Int) {full : Prop} :
    EntryStep m.baseTTL full k (.markNegative key now) (.created (m.load key).isNone)
      (m.load k) ((m.markNegative key now).load k) := by
  have hother : ∀ b, k ≠ key → Untouched k (.markNegative key now) (.created b) :=
    fun b hk hk' => absurd hk'.symm hk
  unfold markNegative
  cases hm : m.load key with
  | none => exact entryStep_put hm .negativeNew (hother _)
  | some e => exact entryStep_put hm .negative (hother _)

theorem storeProfile_entry {p : RealityProfile} {order : List Bytes} {b : Bool}
    (h : m.storeProfile key p order = .ok (m', b)) :
    EntryStep m.baseTTL (m.maxProfiles ≤ m.profileEntries) k (.storeProfile key p order)
      (.created b) (m.load k) (m'.load k) := by
  rcases storeProfile_ok h with ⟨rfl, rfl⟩ | ⟨rfl, hn, hi⟩
  · exact .same (fun _ => rfl)
  · exact entryStep_insertNew hn hi rfl .restored fun hk hk' => absurd hk'.symm hk

/-- **One step at one key**: everything an operation can do to the entry at
`k`, with the outcome it reports. -/
theorem cacheStep_entry {op : CacheOp} {out : CacheOut} (h : cacheStep m op = some (m', out))
    (k : Bytes) :
    EntryStep m.baseTTL (m.maxProfiles ≤ m.profileEntries) k op out (m.load k)
      (m'.load k) := by
  cases op with
  | storeObservation key obs now order =>
      cases h
      exact storeRecovered_entry obs now order
  | lookup q now =>
      cases h
      rcases (lookupAmortize_aged m q now).1 k with hk | ⟨e, he, hv, hk⟩
      · rw [hk]
        exact .same trivial
      · rw [hk, he]
        exact .agedByLookup hv
  | getProfile key now =>
      simp only [cacheStep] at h
      split at h
      next m₁ p stale hg =>
        cases h
        exact getProfile_entry hg
      · cases h
  | quarantine key now =>
      cases h
      exact quarantine_entry now
  | noteHandshakeFailure key path now =>
      cases h
      exact noteHandshakeFailure_entry path now
  | markNegative key now =>
      cases h
      exact markNegative_entry now
  | markStale key =>
      cases h
      unfold markStale
      cases hm : m.load key with
      | none => exact .same trivial
      | some e => exact entryStep_put hm .staleMark fun _ => trivial
  | invalidateProfile key =>
      cases h
      unfold invalidateProfile
      cases hm : m.load key with
      | none => exact .same trivial
      | some e => exact entryStep_delete hm .invalidated fun _ => trivial
  | storeProfile key p order =>
      simp only [cacheStep] at h
      split at h
      next m₁ b hs =>
        cases h
        exact storeProfile_entry hs
      · cases h
  | hotSwapProfile key p =>
      cases h
      exact entryStep_put rfl .swapped Ne.symm
  | evictIfFull order =>
      simp only [cacheStep] at h
      split at h
      next m₁ hs =>
        cases h
        rcases load_evictIfFull hs k with hk | ⟨hk, hf⟩
        · rw [hk]
          exact .same trivial
        · rw [hk]
          exact .evicted rfl (by omega)
      · cases h

/-- **The invariant rule for profiles.** A property of the profile at `k`
(and the trace so far) that every profile step keeps holds along the run. -/
theorem profile_invariant {C : List (CacheOp × CacheOut) → CacheManager → CacheOp → Prop}
    {k : Bytes} {P : List (CacheOp × CacheOut) → RealityProfile → Prop} {m₀ : CacheManager}
    (h0 : ∀ e p, m₀.load k = some e → e.profile = some p → P [] p)
    (hstep : ∀ tr s op out x p', (∀ p, x = some p → P tr p) → C tr s op →
      ProfileStep k op out x p' → P (tr ++ [(op, out)]) p')
    {tr : List (CacheOp × CacheOut)} (h : cacheMachine.Meets C m₀ tr m) :
    ∀ e p, m.load k = some e → e.profile = some p → P tr p := by
  refine h.invariant (I := fun tr m => ∀ e p, m.load k = some e → e.profile = some p →
    P tr p) h0 ?_
  intro tr s op s' out hinv hc hs e p he hp
  have hentry := cacheStep_entry hs k
  rw [he] at hentry
  refine hstep tr s op out _ p ?_ hc (hentry.profileStep hp)
  intro q hq
  obtain ⟨e₀, he₀, hq⟩ := Option.bind_eq_some_iff.mp hq
  exact hinv e₀ q he₀ hq

end CacheManager

end Reality
