import Reality.Cache.Readers

/-!
# Entries without a profile

`MarkNegative` and `Quarantine` make an entry for a key that has none, and that
entry has no profile. It is negative or quarantined, and stays so until an
observation fills it in: nothing turns an entry valid, stale or suspect that
has no profile.

Most readers test the pointer or ask for one of those three states. Two do not.
`FindFullCachedProfile` only asks that the state is not NEGATIVE, and the scan of
`evictIfFull` follows the profile of every entry that is neither negative nor
STALE. Both forget the fifth state, so a call panics exactly when one of them
comes by a quarantined entry without a profile.
-/

namespace Reality

open Kit

/-- Only negative and quarantined entries are without a profile. -/
def ProfileEntry.Accounted (e : ProfileEntry) : Prop :=
  e.profile = none → e.state = .negative ∨ e.state = .quarantined

/-- Quarantined before anything was observed. -/
def ProfileEntry.Hollow (e : ProfileEntry) : Prop := e.state = .quarantined ∧ e.profile = none

namespace ProfileEntry

variable {e : ProfileEntry}

theorem Accounted.profile_ne_none (h : e.Accounted) (hneg : e.state ≠ .negative)
    (hquar : e.state ≠ .quarantined) : e.profile ≠ none := by
  intro hp
  rcases h hp with hs | hs
  · exact hneg hs
  · exact hquar hs

theorem Accounted.of_profile {p : RealityProfile} (h : e.profile = some p) : e.Accounted := by
  intro hp
  rw [h] at hp
  cases hp

theorem Accounted.of_valid (h : e.Accounted) (hs : e.state = .valid) {e' : ProfileEntry}
    (hp : e'.profile = e.profile) : e'.Accounted := by
  intro hnone
  have hne := h.profile_ne_none (by rw [hs]; decide) (by rw [hs]; decide)
  exact absurd (hp.symm.trans hnone) hne

theorem Accounted.markStale (h : e.Accounted) (ttl : Int) : (e.markStale ttl).Accounted := by
  intro hnone
  rw [markStale_profile] at hnone
  -- The mark reaches valid and stale entries only, and those have a profile.
  have hsame : e.markStale ttl = e := by
    unfold ProfileEntry.markStale
    rw [if_neg]
    rcases h hnone with hs | hs <;> simp [hs]
  rw [hsame]
  exact h hnone

/-- An observation that is not turned away fills the entry in. -/
theorem observe_profile {obs : RealityProfile} {ttl now : Int}
    (ho : (e.observe obs ttl now).2 ≠ .ignored) :
    ∃ p, (e.observe obs ttl now).1.profile = some p := by
  rcases e.observe_cases obs ttl now with
    ⟨-, -, h⟩ | ⟨-, -, -, -, h | h⟩ | ⟨-, -, -, p, -, -, h⟩ | ⟨-, -, -, h⟩
  · rw [h] at ho
    exact absurd rfl ho
  all_goals exact ⟨_, h⟩

theorem Accounted.followed_iff (h : e.Accounted) :
    (e.state = .negative ∨ e.state = .stale ∨ e.profile ≠ none) ↔ ¬ e.Hollow := by
  constructor
  · rintro (hs | hs | hp) ⟨hquar, hnone⟩
    · rw [hs] at hquar
      cases hquar
    · rw [hs] at hquar
      cases hquar
    · exact hp hnone
  · intro hno
    by_cases hp : e.profile = none
    · rcases h hp with hs | hs
      · exact .inl hs
      · exact absurd ⟨hs, hp⟩ hno
    · exact .inr (.inr hp)

end ProfileEntry

/-- What one operation leaves at a key is accounted for when what it found was. -/
theorem EntryStep.accounted {ttl : Int} {full : Prop} {k : Bytes} {op : CacheOp}
    {out : CacheOut} {x : Option ProfileEntry} {e : ProfileEntry}
    (h : EntryStep ttl full k op out x (some e)) (hx : ∀ e', x = some e' → e'.Accounted) :
    e.Accounted := by
  cases h with
  | same => exact hx e rfl
  | agedByLookup hage => exact (hx _ rfl).of_valid hage.1 rfl
  | agedByGet hv => exact (hx _ rfl).of_valid hv rfl
  | observed hl ho =>
      obtain ⟨p, hp⟩ := ProfileEntry.observe_profile ho
      exact .of_profile hp
  | created => exact .of_profile rfl
  | restored => exact .of_profile rfl
  | swapped => exact .of_profile rfl
  | quarantined => exact fun _ => .inr rfl
  | quarantinedNew => exact fun _ => .inr rfl
  | failedOut => exact fun _ => .inr rfl
  | failedSuspect hv => exact (hx _ rfl).of_valid hv rfl
  | @failed e₀ =>
      have h₀ : e₀.Accounted := hx e₀ rfl
      exact h₀
  | negative => exact fun _ => .inl rfl
  | negativeNew => exact fun _ => .inl rfl
  | staleMark => exact (hx _ rfl).markStale ttl

namespace CacheManager

variable {m m' : CacheManager}

/-- All entries are accounted for. -/
def Accounted (m : CacheManager) : Prop := ∀ k e, m.load k = some e → e.Accounted

/-- There is a hollow entry. -/
def HasHollow (m : CacheManager) : Prop := ∃ k e, m.load k = some e ∧ e.Hollow

theorem accounted_newCacheManager : newCacheManager.Accounted := by
  intro k e h
  simp at h

theorem Accounted.call (h : m.Accounted) {c : CacheCall} (hc : m.call c = .ok m') :
    m'.Accounted := by
  rcases call_ok hc with ⟨op, out, -, hstep⟩ | rfl
  · intro k e he
    have hentry := cacheStep_entry hstep k
    rw [he] at hentry
    exact hentry.accounted fun e' he' => h k e' he'
  · exact h

/-! ## Which calls return -/

theorem mem_visitOrder {order : List Bytes} {k : Bytes} :
    k ∈ m.visitOrder order ↔ ∃ e, m.load k = some e := by
  rw [visitOrder, mem_visits, ← AList.mem_keys, ← AList.lookup_isSome, Option.isSome_iff_exists]
  rfl

theorem visitOrder_nodup (m : CacheManager) (order : List Bytes) :
    (m.visitOrder order).Nodup :=
  nodup_visits m.entries.keys_nodup order

/-- The callback of the eviction scan follows every profile but those of negative
and stale entries. -/
theorem returned_evictVisit (acc : EvictScan) (k : Bytes) :
    Returned (m.evictVisit acc k) ↔
      ∀ e, m.load k = some e → e.state = .negative ∨ e.state = .stale ∨ e.profile ≠ none := by
  unfold evictVisit
  cases m.load k with
  | none => simp
  | some e =>
      simp only [Option.some.injEq, forall_eq']
      cases hs : e.state with
      | negative => simp
      | stale => simp
      | _ =>
          cases e.profile with
          | none => simp
          | some p =>
              dsimp only
              split <;> simp

/-- The scan returns when there is nothing hollow to come by. -/
theorem returned_evictScan (h : m.Accounted) (order : List Bytes) (acc : EvictScan) :
    Returned ((m.visitOrder order).foldlM m.evictVisit acc) ↔ ¬ m.HasHollow := by
  rw [returned_foldlM_iff_forall fun acc k => returned_evictVisit acc k]
  constructor
  · rintro hall ⟨k, e, he, hhollow⟩
    exact (h k e he).followed_iff.mp (hall k (mem_visitOrder.mpr ⟨e, he⟩) e he) hhollow
  · intro hno k _ e he
    exact (h k e he).followed_iff.mpr fun hhollow => hno ⟨k, e, he, hhollow⟩

theorem returned_evictIfFull (h : m.Accounted) (order : List Bytes) :
    Returned (m.evictIfFull order) ↔ ¬ (m.maxProfiles < m.profileEntries ∧ m.HasHollow) := by
  unfold evictIfFull
  by_cases hfull : m.profileEntries ≤ m.maxProfiles
  · rw [if_pos hfull]
    refine iff_of_true (returned_ok m) ?_
    rintro ⟨hlt, -⟩
    omega
  · have hlt : m.maxProfiles < m.profileEntries := by omega
    simp only [hlt, true_and, ← returned_evictScan h order {}]
    rw [if_neg hfull]
    refine returned_bind_iff fun acc => ?_
    split <;> exact returned_ok _

/-- A new entry with a profile is in the way of no scan. -/
theorem returned_insertNew (h : m.Accounted) {key : Bytes} (hkey : m.load key = none)
    (p : RealityProfile) (order : List Bytes) :
    Returned (m.insertNew key (freshEntry p m.baseTTL) order) ↔
      ¬ (m.maxProfiles ≤ m.profileEntries ∧ m.HasHollow) := by
  have hacc : (m.inserted key (freshEntry p m.baseTTL)).Accounted := by
    intro k e he
    rw [load_inserted] at he
    split at he
    · cases he
      exact .of_profile rfl
    · exact h k e he
  have hhollow : (m.inserted key (freshEntry p m.baseTTL)).HasHollow ↔ m.HasHollow := by
    constructor
    · rintro ⟨k, e, he, hh⟩
      rw [load_inserted] at he
      split at he
      · cases he
        cases hh.2
      · exact ⟨k, e, he, hh⟩
    · rintro ⟨k, e, he, hh⟩
      refine ⟨k, e, ?_, hh⟩
      rw [load_inserted, if_neg, he]
      -- The key was new, so the hollow entry is at another one.
      rintro rfl
      rw [hkey] at he
      cases he
  have hcount : (m.inserted key (freshEntry p m.baseTTL)).maxProfiles <
      (m.inserted key (freshEntry p m.baseTTL)).profileEntries ↔
        m.maxProfiles ≤ m.profileEntries := Int.lt_add_one_iff
  rw [insertNew, returned_evictIfFull hacc, hhollow, hcount]

theorem returned_storeProfile (h : m.Accounted) (key : Bytes) (p : RealityProfile)
    (order : List Bytes) :
    Returned (m.storeProfile key p order) ↔
      ¬ (m.load key = none ∧ m.maxProfiles ≤ m.profileEntries ∧ m.HasHollow) := by
  unfold storeProfile
  cases hl : m.load key with
  | some e => simp
  | none =>
      simp only [true_and, ← returned_insertNew h hl p order]
      exact returned_bind_iff fun m' => returned_ok _

theorem returned_storeObservation (h : m.Accounted) (key : Bytes) (obs : RealityProfile)
    (now : Int) (order : List Bytes) :
    Returned (m.storeObservation key obs now order) ↔
      ¬ (validateRecordLens obs.recordLens = true ∧ m.load key = none ∧
        m.maxProfiles ≤ m.profileEntries ∧ m.HasHollow) := by
  unfold storeObservation
  cases hlens : validateRecordLens obs.recordLens with
  | false => simp
  | true =>
      simp only [Bool.not_true, Bool.false_eq_true, if_false]
      cases hl : m.load key with
      | some e =>
          refine iff_of_true ?_ (by simp)
          dsimp only
          split <;> exact returned_ok _
      | none =>
          simp only [true_and, ← returned_insertNew h hl (stampNew (normalizeObs obs)) order]
          exact returned_bind_iff fun m' => returned_ok _

theorem returned_getProfile (h : m.Accounted) (key : Bytes) (now : Int) :
    Returned (m.getProfile key now) := by
  unfold getProfile
  cases hl : m.load key with
  | none => exact returned_ok _
  | some e =>
      dsimp only
      cases hs : e.state with
      | valid =>
          cases hp : e.profile with
          | none =>
              exact absurd hp ((h key e hl).profile_ne_none (by rw [hs]; decide)
                (by rw [hs]; decide))
          | some p =>
              dsimp only
              split <;> exact returned_ok _
      | negative =>
          dsimp only
          split <;> exact returned_ok _
      | _ => exact returned_ok _

theorem returned_getOrProbeForHandshake (h : m.Accounted) (key : Bytes) (now : Int)
    (probed : Option RealityProfile) :
    Returned (m.getOrProbeForHandshake key now probed) := by
  unfold getOrProbeForHandshake
  cases hl : m.load key with
  | none => exact returned_ok _
  | some e =>
      dsimp only
      split
      next hs =>
        rw [returned_map, ProfileEntry.returned_deref]
        simp only [Bool.or_eq_true, decide_eq_true_eq] at hs
        refine (h key e hl).profile_ne_none ?_ ?_ <;>
          rcases hs with hs | hs <;> rw [hs] <;> decide
      · exact returned_ok _

theorem returned_findFullCachedProfile (h : m.Accounted) (dest serverName : Bytes)
    (cipherSuites : List UInt16) (alpn : Bytes) (now : Int) :
    Returned (m.findFullCachedProfile dest serverName cipherSuites alpn now) ↔
      ¬ ∃ e, m.load (cacheKey serverName alpn versionTLS13) = some e ∧ e.Hollow := by
  unfold findFullCachedProfile
  cases hl : m.load (cacheKey serverName alpn versionTLS13) with
  | none => simp
  | some e =>
      have hacc := h _ e hl
      simp only [Option.some.injEq, exists_eq_left']
      split
      next hs =>
        rw [returned_map, ProfileEntry.returned_deref]
        constructor
        · rintro hp ⟨-, hnone⟩
          exact hp hnone
        · intro hno hnone
          exact hno ⟨(hacc hnone).resolve_left hs, hnone⟩
      next hs =>
        have hs : e.state = .negative := not_not.mp hs
        refine iff_of_true (returned_ok _) ?_
        rintro ⟨hquar, -⟩
        rw [hs] at hquar
        cases hquar

/-! The two readers that test the pointer return in any cache. -/

theorem returned_findLensAtKey (m : CacheManager) (key : Bytes) (q : DestQuery) (now : Int) :
    Returned (m.findLensAtKey key q now) := by
  unfold findLensAtKey
  cases m.load key with
  | none => exact returned_ok _
  | some e =>
      dsimp only
      split
      · exact returned_ok _
      next hu =>
        rw [returned_map, ProfileEntry.returned_deref]
        exact ProfileEntry.profile_of_usable hu

theorem returned_lensScan (m : CacheManager) (q : DestQuery) (now : Int)
    (found : Option (RecordLens × UInt16)) (key : Bytes) :
    Returned (m.lensScan q now found key) := by
  unfold lensScan
  cases found with
  | some r => exact returned_ok _
  | none =>
      dsimp only
      unfold lensVisit
      split
      · split
        · exact returned_ok _
        · split
          · exact returned_ok _
          · split
            · exact returned_ok _
            next hu =>
              rw [returned_map, ProfileEntry.returned_deref]
              exact ProfileEntry.profile_of_usable hu
      · exact returned_ok _

theorem returned_findCachedProfileByDest (m : CacheManager) (q : DestQuery) (now : Int)
    (order : List Bytes) : Returned (m.findCachedProfileByDest q now order) := by
  unfold findCachedProfileByDest
  obtain ⟨r, hr⟩ := m.returned_findLensAtKey (cacheKey q.serverName q.alpn q.tlsVersion) q now
  rw [hr]
  cases r with
  | some r => exact returned_ok _
  | none =>
      dsimp only
      split
      · exact returned_ok _
      · exact returned_foldlM (m.returned_lensScan q now) _ _

theorem returned_snapshotVisit (m : CacheManager) (now : Int)
    (snap : List (Bytes × RealityProfile)) (key : Bytes) :
    Returned (m.snapshotVisit now snap key) := by
  unfold snapshotVisit
  cases m.load key with
  | none => exact returned_ok _
  | some e =>
      dsimp only
      split
      · exact returned_ok _
      next hs =>
        rw [returned_map, ProfileEntry.returned_deref]
        intro hp
        simp [hp] at hs

/-! ## Whole runs -/

/-- The calls that come by a hollow entry and do not expect it: a store of a new
key when the cache is full, and the search for a full profile. -/
def Danger (m : CacheManager) : CacheCall → Prop
  | .op (.storeObservation key obs _ _) =>
      validateRecordLens obs.recordLens = true ∧ m.load key = none ∧
        m.maxProfiles ≤ m.profileEntries ∧ m.HasHollow
  | .op (.storeProfile key _ _) =>
      m.load key = none ∧ m.maxProfiles ≤ m.profileEntries ∧ m.HasHollow
  | .op (.evictIfFull _) => m.maxProfiles < m.profileEntries ∧ m.HasHollow
  | .findFullCachedProfile _ serverName _ alpn _ =>
      ∃ e, m.load (cacheKey serverName alpn versionTLS13) = some e ∧ e.Hollow
  | _ => False

/-- **One call**: it panics exactly when it is dangerous. -/
theorem returned_call (h : m.Accounted) (c : CacheCall) : Returned (m.call c) ↔ ¬ m.Danger c := by
  cases c with
  | op op =>
      cases op with
      | storeObservation key obs now order =>
          exact (returned_map _).trans (returned_storeObservation h key obs now order)
      | storeProfile key p order =>
          exact (returned_map _).trans (returned_storeProfile h key p order)
      | evictIfFull order => exact returned_evictIfFull h order
      | getProfile key now =>
          exact iff_of_true ((returned_map _).mpr (returned_getProfile h key now)) id
      | _ => exact iff_of_true (returned_ok _) id
  | getOrProbeForHandshake key now probed =>
      exact iff_of_true
        ((returned_map _).mpr (returned_getOrProbeForHandshake h key now probed)) id
  | findFullCachedProfile dest serverName cipherSuites alpn now =>
      exact (returned_map _).trans
        (returned_findFullCachedProfile h dest serverName cipherSuites alpn now)
  | findCachedProfileByDest q now order =>
      exact iff_of_true ((returned_map _).mpr (m.returned_findCachedProfileByDest q now order)) id
  | snapshotProfiles now order =>
      exact iff_of_true
        ((returned_map _).mpr (returned_foldlM (m.returned_snapshotVisit now) _ _)) id

end CacheManager

/-- **Runs without a nil dereference**: a sequence of calls of a new manager follows no
nil profile exactly when no call of it comes by a hollow entry unprepared. -/
theorem no_nil_deref_iff (calls : List CacheCall) :
    Returned (calls.foldlM CacheManager.call newCacheManager) ↔
      Along CacheManager.call (fun m c => ¬ m.Danger c) newCacheManager calls :=
  returned_foldlM_iff (I := CacheManager.Accounted) (fun _ _ _ h hc => h.call hc)
    (fun _ c h => CacheManager.returned_call h c) CacheManager.accounted_newCacheManager

/-! ## Where hollow entries come from -/

/-- An operation leaves a hollow entry only where one was, or where it quarantines
a key that has no profile. -/
theorem EntryStep.hollow {ttl : Int} {full : Prop} {k : Bytes} {op : CacheOp} {out : CacheOut}
    {x : Option ProfileEntry} {e : ProfileEntry} (h : EntryStep ttl full k op out x (some e))
    (hhollow : e.Hollow) :
    (∃ e', x = some e' ∧ e'.Hollow) ∨
      x.bind (·.profile) = none ∧
        ((∃ now, op = .quarantine k now) ∨
          x ≠ none ∧ ∃ path now, op = .noteHandshakeFailure k path now) := by
  obtain ⟨hstate, hnone⟩ := hhollow
  cases h with
  | same => exact .inl ⟨e, rfl, hstate, hnone⟩
  | agedByLookup => cases hstate
  | agedByGet => cases hstate
  | observed hl ho =>
      obtain ⟨p, hp⟩ := ProfileEntry.observe_profile ho
      rw [hp] at hnone
      cases hnone
  | created => cases hnone
  | restored => cases hnone
  | swapped => cases hnone
  | @quarantined e₀ now =>
      have hprofile : e₀.profile = none := by simpa [ProfileEntry.quarantine] using hnone
      exact .inr ⟨hprofile, .inl ⟨_, rfl⟩⟩
  | quarantinedNew => exact .inr ⟨rfl, .inl ⟨_, rfl⟩⟩
  | @failedOut e₀ path now =>
      have hprofile : e₀.profile = none := by simpa [ProfileEntry.quarantine] using hnone
      exact .inr ⟨hprofile, .inr ⟨by simp, _, _, rfl⟩⟩
  | failedSuspect => cases hstate
  | @failed e₀ => exact .inl ⟨e₀, rfl, hstate, hnone⟩
  | negative => cases hstate
  | negativeNew => cases hstate
  | @staleMark e₀ =>
      rw [ProfileEntry.markStale_profile] at hnone
      refine .inl ⟨e₀, rfl, ?_, hnone⟩
      unfold ProfileEntry.markStale at hstate
      split at hstate
      · dsimp only at hstate
        split at hstate <;> cases hstate
      · exact hstate

/-- Only entries that have a profile are quarantined, directly or by a failure. -/
def CacheManager.Careful (m : CacheManager) : CacheCall → Prop
  | .op (.quarantine key _) => (m.load key).bind (·.profile) ≠ none
  | .op (.noteHandshakeFailure key _ _) => ∀ e, m.load key = some e → e.profile ≠ none
  | _ => True

theorem CacheManager.not_hasHollow_call {m m' : CacheManager} {c : CacheCall}
    (h : ¬ m.HasHollow) (hcare : m.Careful c) (hc : m.call c = .ok m') : ¬ m'.HasHollow := by
  rintro ⟨k, e, he, hhollow⟩
  rcases call_ok hc with ⟨op, out, rfl, hstep⟩ | rfl
  · have hentry := cacheStep_entry hstep k
    rw [he] at hentry
    rcases hentry.hollow hhollow with
      ⟨e', he', hh⟩ | ⟨hnone, ⟨now, rfl⟩ | ⟨hsome, path, now, rfl⟩⟩
    · exact h ⟨k, e', he', hh⟩
    · exact hcare hnone
    · obtain ⟨e', he'⟩ := Option.ne_none_iff_exists'.mp hsome
      rw [he'] at hnone
      exact hcare e' he' hnone
  · exact h ⟨k, e, he, hhollow⟩

theorem CacheManager.not_danger {m : CacheManager} (h : ¬ m.HasHollow) (c : CacheCall) :
    ¬ m.Danger c := by
  unfold Danger
  split
  · exact fun hd => h hd.2.2.2
  · exact fun hd => h hd.2.2
  · exact fun hd => h hd.2
  · rintro ⟨e, he, hh⟩
    exact h ⟨_, e, he, hh⟩
  · exact id

/-- **Careful callers**: a sequence of calls that quarantines only what has a profile
follows no nil profile. -/
theorem returned_of_careful {calls : List CacheCall}
    (h : Along CacheManager.call CacheManager.Careful newCacheManager calls) :
    Returned (calls.foldlM CacheManager.call newCacheManager) := by
  refine h.returned (I := fun m => m.Accounted ∧ ¬ m.HasHollow) ?_ ?_
    ⟨CacheManager.accounted_newCacheManager, ?_⟩
  · intro m c m' hm hcare hc
    exact ⟨hm.1.call hc, CacheManager.not_hasHollow_call hm.2 hcare hc⟩
  · intro m c hm _
    exact (CacheManager.returned_call hm.1 c).mpr (CacheManager.not_danger hm.2 c)
  · rintro ⟨k, e, he, -⟩
    simp at he

/-! ## A quarantine of an unknown key -/

/-- Quarantine the legacy key of a name, and look for a full profile of that name. -/
def hollowCalls : List CacheCall :=
  [.op (.quarantine (cacheKey (str "a.io") (str "h2") versionTLS13) 0),
    .findFullCachedProfile (str "d:443") (str "a.io") [0x1301] (str "h2") 0]

theorem hollow_calls_panic :
    ¬ Returned (hollowCalls.foldlM CacheManager.call newCacheManager) := by
  have hpanic : ((hollowCalls.foldlM CacheManager.call newCacheManager).map
      fun _ => ()) = .error .nilDeref := by decide +kernel
  rw [← returned_map fun _ => (), hpanic]
  exact returned_error _

end Reality
