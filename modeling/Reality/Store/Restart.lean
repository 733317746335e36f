import Reality.Cache.Chain
import Reality.Cache.Evidence
import Reality.Store.Load

/-!
# Blocks across a restart

A negative or quarantined entry keeps its key from being served until
`NextRetry`. The block is lost on the way through the file in two ways. The
snapshot leaves out NEGATIVE entries but takes quarantined ones, the file has no
place for a state, and `load` stores what it finds as valid. And `MarkNegative`
does not mark the cache dirty, so that the `Save` behind it may write nothing
and leave the older file, which still has the profile.

So what decides is not the state of the entry but what there is to restore at
its key (`restorableAfter`), and the theorem says exactly when a lookup can get
it: the profile is complete, some query fits it, and some order of the load
keeps it in the cache.
-/

namespace Reality

open Kit

open CacheManager (Tries)

/-! ## What a restored profile can do -/

/-- The operation stored a profile at `k`. -/
def StoredAt (k : Bytes) : CacheOp → CacheOut → Prop
  | .storeObservation key _ _ _, .stored o => key = k ∧ o ≠ .ignored
  | .storeProfile key _ _, .created b => key = k ∧ b = true
  | .hotSwapProfile key _, _ => key = k
  | _, _ => False

/-- Some query tries `k` and has a TLS version the profile does not contradict. -/
def Servable (k : Bytes) (p : RealityProfile) : Prop :=
  ∃ q : Query, Tries q k ∧ (p.tlsVersion = 0 ∨ q.tlsVersion = 0 ∨ p.tlsVersion = q.tlsVersion)

/-- No lookup can get the profile at `k`: it is of the kind that comes out of a
file, which never goes zero-dial, and it is incomplete or fits no query. -/
def Barred (k : Bytes) (m : CacheManager) : Prop :=
  ∀ e p, m.load k = some e → e.profile = some p →
    p.keyShareGroup = 0 ∧ ¬ (validateRecordLens p.recordLens = true ∧ Servable k p)

section Barred

variable {k : Bytes} {m m' : CacheManager} {q : Query} {now : Int}

/-- The profile at `k` is the one that was there, but perhaps for its evidence. -/
theorem profile_of_not_storedAt {op : CacheOp} {out : CacheOut} {x : Option RealityProfile}
    {p : RealityProfile} (h : ProfileStep k op out x p) (hno : ¬ StoredAt k op out) :
    ∃ p₀, x = some p₀ ∧ p.keyShareGroup = p₀.keyShareGroup ∧ p.recordLens = p₀.recordLens ∧
      p.tlsVersion = p₀.tlsVersion := by
  cases h with
  | kept => exact ⟨p, rfl, rfl, rfl, rfl⟩
  | @dropped _ _ p₀ => exact ⟨p₀, rfl, rfl, rfl, rfl⟩
  | merged => exact absurd ⟨rfl, by decide⟩ hno
  | started hl hstart =>
      refine absurd ⟨rfl, ?_⟩ hno
      rcases hstart with ⟨rfl | rfl, -⟩ | ⟨rfl, -⟩ <;> decide
  | restored => exact absurd ⟨rfl, rfl⟩ hno
  | swapped => exact absurd rfl hno

theorem Barred.step {op : CacheOp} {out : CacheOut} (h : Barred k m)
    (hs : cacheStep m op = some (m', out)) (hno : ¬ StoredAt k op out) : Barred k m' := by
  intro e p he hp
  have hentry := CacheManager.cacheStep_entry hs k
  rw [he] at hentry
  obtain ⟨p₀, hbind, hgroup, hlens, htls⟩ := profile_of_not_storedAt (hentry.profileStep hp) hno
  obtain ⟨e₀, he₀, hp₀⟩ := Option.bind_eq_some_iff.mp hbind
  have hold := h e₀ p₀ he₀ hp₀
  rw [hgroup, hlens, Servable, htls]
  exact hold

/-- **A whole run** of operations that store nothing at `k`. -/
theorem Barred.run {tr : List (CacheOp × CacheOut)} (h : Barred k m)
    (hrun : cacheMachine.Run m tr m') (hno : ∀ s ∈ tr, ¬ StoredAt k s.1 s.2) : Barred k m' := by
  induction hrun with
  | nil => exact h
  | snoc _ hs ih =>
      refine (ih fun s hsmem => hno s (List.mem_append_left _ hsmem)).step hs ?_
      exact hno _ (List.mem_append_right _ List.mem_cons_self)

theorem Barred.lookup (h : Barred k m) (hpath : (m.lookupAmortize q now).2.path ≠ .l0) :
    (m.lookupAmortize q now).2.key ≠ k := by
  intro hkey
  obtain ⟨key, e, p, htries, he, hans⟩ := CacheManager.lookupAmortize_answered rfl hpath
  obtain rfl : key = k := hans.key_eq.symm.trans hkey
  obtain ⟨hgroup, hbar⟩ := h e p he hans.holds
  rcases hans.path with ⟨-, -, -, -, -, helig, -⟩ | ⟨-, hconf⟩
  -- Zero-dial needs the group, which no restored profile has.
  · exact (profileL2Eligible_iff.mp helig).group hgroup
  · refine hbar ⟨hans.lens, q, htries, ?_⟩
    simp only [l1Conflict, Bool.or_eq_false_iff, Bool.and_eq_false_iff, decide_eq_false_iff_not,
      not_not] at hconf
    exact or_assoc.mp hconf.2

end Barred

section Served

variable {k : Bytes} {p : RealityProfile} {m : CacheManager}

theorem Servable.ne_nil (h : Servable k p) : k ≠ [] := by
  obtain ⟨q, hk | hk | hk, -⟩ := h
  · simp [hk.1, Query.exactKey, cacheKeyV2_eq]
  · simp [hk.1, Query.softKey, cacheKeyV2_eq]
  · simp [hk, Query.legacyKey, cacheKey_eq]

/-- A query that tries `k` FIRST, before the live values are known. -/
theorem Servable.first_query (h : Servable k p) :
    ∃ q : Query, q.mode = .l1 ∧ q.keys.head? = some k ∧ l1Conflict q p = false := by
  obtain ⟨q, htries, htls⟩ := h
  have hconf : ∀ q' : Query, q'.liveCipher = 0 → q'.liveGroup = 0 →
      q'.tlsVersion = q.tlsVersion → l1Conflict q' p = false := by
    intro q' hcipher hgroup hversion
    simp only [l1Conflict, hcipher, hgroup, hversion, ne_eq, not_true_eq_false, decide_false,
      Bool.false_and, Bool.false_or, Bool.and_eq_false_iff, decide_eq_false_iff_not, not_not]
    exact or_assoc.mpr htls
  rcases htries with ⟨rfl, hclass⟩ | ⟨rfl, hsoft, -⟩ | rfl
  · refine ⟨{ q with mode := .l1, liveCipher := 0, liveGroup := 0 }, rfl, ?_, hconf _ rfl rfl rfl⟩
    rw [Query.keys, if_pos hclass]
    rfl
  · -- The soft key is the exact key of the query that has the soft class for its class.
    refine ⟨{ q with mode := .l1, chClass := q.softChClass, liveCipher := 0, liveGroup := 0 },
      rfl, ?_, hconf _ rfl rfl rfl⟩
    rw [Query.keys, if_pos hsoft]
    rfl
  · exact ⟨{ q with
      mode := .l1, chClass := [], softChClass := [], liveCipher := 0, liveGroup := 0 },
      rfl, rfl, hconf _ rfl rfl rfl⟩

/-- A valid entry with a complete profile is served to it. -/
theorem Servable.lookup (h : Servable k p) {ttl : Int} (hm : m.load k = some (freshEntry p ttl))
    (hlens : validateRecordLens p.recordLens = true) (now : Int) :
    ∃ q, (m.lookupAmortize q now).2.path ≠ .l0 ∧ (m.lookupAmortize q now).2.key = k := by
  obtain ⟨q, hmode, hhead, hconf⟩ := h.first_query
  obtain ⟨rest, hkeys⟩ := List.head?_eq_some_iff.mp hhead
  have hans : m.answers q now k = true := by
    simp [CacheManager.answers, hm, ProfileEntry.answers, ProfileEntry.rejected, freshEntry, hlens,
      hconf]
  have hfirst : m.firstAnswer q now = some k := by
    rw [CacheManager.firstAnswer, if_neg (by rw [hmode]; decide), hkeys, List.find?_cons, hans]
  refine ⟨q, ?_⟩
  rcases CacheManager.lookupAmortize_first m q now with ⟨-, hnone⟩ | ⟨hpath, hkey⟩
  · rw [hfirst] at hnone
    cases hnone
  · rw [hfirst] at hkey
    exact ⟨hpath, (Option.some.inj hkey).symm⟩

end Served

/-! ## What a file brings back -/

/-- After a load of `file` into an empty cache, no lookup answers from `k` until
something is stored there. -/
def StaysOut (file : Option ProfileFile) (k : Bytes) (now : Int) : Prop :=
  ∀ fileOrder orders m, load file now fileOrder orders newCacheManager = .ok m →
    ∀ tr m', cacheMachine.Run m tr m' → (∀ s ∈ tr, ¬ StoredAt k s.1 s.2) →
      ∀ q now', (m'.lookupAmortize q now').2.path ≠ .l0 → (m'.lookupAmortize q now').2.key ≠ k

/-- There is a complete profile to restore at `k`, some query fits it, and some
order of the load keeps it. -/
def Reappears (found : Bytes → Option RealityProfile) (k : Bytes) : Prop :=
  ∃ p, found k = some p ∧ validateRecordLens p.recordLens = true ∧ Servable k p ∧
    (Shielded found k ∨ ¬ Crowded found k)

section StaysOut

variable {file : Option ProfileFile} {k : Bytes} {now : Int}

/-- The group is not persisted. -/
theorem restorable_group {p : RealityProfile} (h : restorable file now k = some p) :
    p.keyShareGroup = 0 := by
  obtain ⟨f, -, h⟩ := Option.bind_eq_some_iff.mp h
  split at h
  · cases h
  · obtain ⟨e, -, h⟩ := Option.bind_eq_some_iff.mp h
    unfold accepted at h
    dsimp only at h
    split at h
    · cases h
    · cases h
      rfl

theorem barred_of_load {fileOrder : List Bytes} {orders : Bytes → List Bytes} {m : CacheManager}
    (hno : ¬ Reappears (restorable file now) k)
    (h : load file now fileOrder orders newCacheManager = .ok m) : Barred k m := by
  obtain ⟨m₁, hm₁, hl⟩ := load_loaded file now fileOrder orders
  rw [h] at hm₁
  cases hm₁
  intro e p he hp
  obtain ⟨p', hp', rfl⟩ := hl.fresh k e he
  cases hp
  refine ⟨restorable_group hp', ?_⟩
  rintro ⟨hlens, hserv⟩
  -- What is complete and fits a query has been crowded out, so it is not there.
  have hout : ¬ (Shielded (restorable file now) k ∨ ¬ Crowded (restorable file now) k) :=
    fun hin => hno ⟨p, hp', hlens, hserv, hin⟩
  obtain ⟨hsh, hcrowd⟩ := not_or.mp hout
  rw [load_drops hserv.ne_nil hsh (not_not.mp hcrowd) h] at he
  cases he

/-- **What a file brings back**, exactly. -/
theorem staysOut_iff : StaysOut file k now ↔ ¬ Reappears (restorable file now) k := by
  constructor
  -- An order that keeps the profile, and a query that gets it at once.
  · rintro hstays ⟨p, hp, hlens, hserv, hin⟩
    obtain ⟨fileOrder, orders, m, hm, hk⟩ := load_keeps hserv.ne_nil hp hin
    obtain ⟨q, hpath, hkey⟩ := hserv.lookup hk hlens now
    have hnone : ∀ s ∈ ([] : List (CacheOp × CacheOut)), ¬ StoredAt k s.1 s.2 := by simp
    exact hstays fileOrder orders m hm [] m .nil hnone q now hpath hkey
  · intro hno fileOrder orders m hm tr m' hrun htr q now' hpath
    exact ((barred_of_load hno hm).run hrun htr).lookup hpath

end StaysOut

/-! ## Save, restart, load -/

/-- A lookup turns the entry at `k` away, and will until its `NextRetry`. -/
def CacheManager.BlockedAt (m : CacheManager) (k : Bytes) (now : Int) : Prop :=
  ∃ e, m.load k = some e ∧ (e.state = .negative ∨ e.state = .quarantined) ∧ now < e.nextRetry

/-- `Save` gets as far as a new file. -/
def saveWrites (enabled : Bool) (io : SaveSteps) (m : CacheManager) : Bool :=
  enabled && m.isDirty && (io.written && io.rename)

/-- What there is to restore at a key at `t'` when `Save` ran at `t`: what the
cache showed then, or what the file had before. -/
def restorableAfter (enabled : Bool) (io : SaveSteps) (m : CacheManager) (d : Disk) (t t' : Int)
    (k : Bytes) : Option RealityProfile :=
  if saveWrites enabled io m then
    (m.visible t k).bind fun p => accepted profileFileCurrentVersion t' k (persistProfile p)
  else restorable d.file t' k

section Save

variable {enabled : Bool} {io : SaveSteps} {savedAt t t' : Int} {order : List Bytes}
  {m : CacheManager} {d : Disk}

theorem save_file {s : List (Bytes × RealityProfile)} (hs : m.snapshotProfiles t order = .ok s) :
    (save enabled io savedAt t order m d).2.file =
      if saveWrites enabled io m then some (profileFile savedAt s) else d.file := by
  by_cases hrun : enabled = true ∧ m.isDirty = true
  · obtain ⟨rfl, hd⟩ := hrun
    rw [save_writes hd hs, Disk.replaceFile_file, saveWrites, hd]
    rfl
  · have hskip : saveWrites enabled io m = false := by
      rw [saveWrites, Bool.and_eq_false_iff]
      exact .inl (by simpa using hrun)
    rw [save_skips hrun, hskip]
    rfl

theorem restorable_save (k : Bytes) :
    restorable (save enabled io savedAt t order m d).2.file t' k
      = restorableAfter enabled io m d t t' k := by
  obtain ⟨s, hs⟩ : ∃ s, m.snapshotProfiles t order = .ok s := ⟨_, m.snapshotProfiles_eq t order⟩
  rw [save_file hs, restorableAfter]
  split
  -- What `Save` writes is of the current version, which `load` takes.
  · have hversion : ¬ (profileFile savedAt s).version > profileFileCurrentVersion :=
      lt_irrefl profileFileCurrentVersion
    rw [restorable, Option.bind_some, if_neg hversion, lookup_profileFile,
      CacheManager.lookup_snapshotProfiles hs, Option.bind_map]
    rfl
  · rfl

end Save

/-- **A block survives a restart exactly when there is nothing at its key that a
lookup could get.** -/
theorem block_survives_restart_iff (enabled : Bool) (io : SaveSteps) (savedAt t t' : Int)
    (order : List Bytes) (m : CacheManager) (d : Disk) (k : Bytes) :
    (m.BlockedAt k t → m.BlockedAt k t' →
        StaysOut (save enabled io savedAt t order m d).2.file k t') ↔
      ¬ (m.BlockedAt k t ∧ m.BlockedAt k t' ∧
        Reappears (restorableAfter enabled io m d t t') k) := by
  have hfound : restorable (save enabled io savedAt t order m d).2.file t'
      = restorableAfter enabled io m d t t' := funext restorable_save
  rw [staysOut_iff, hfound]
  constructor
  · rintro hout ⟨hblocked, hblocked', hback⟩
    exact hout hblocked hblocked' hback
  · intro hnot hblocked hblocked' hback
    exact hnot ⟨hblocked, hblocked', hback⟩

/-- The answer of the first lookup after a `Save` at `t` and a restart at `t'`. -/
def lookupAfterRestart (m : CacheManager) (d : Disk) (t t' : Int) (q : Query) :
    Except Panic LookupResult :=
  (load (save true {} t t [] m d).2.file t' [] (fun _ => []) newCacheManager).map
    fun m => (m.lookupAmortize q t').2

/-- One observation, and then a quarantine; or a `Save`, and then a negative mark.
Half a minute later both keys are served. -/
theorem blocks_lost_on_restart :
    ∃ (k : Bytes) (t t' : Int) (m₀ m₁ m₂ : CacheManager) (d : Disk) (r₁ r₂ : LookupResult),
      k = sampleQuery.exactKey ∧ t = minute ∧ t' = minute + 30 * second ∧
      m₀ = (newCacheManager.storeRecovered k sampleLive 0 []).1 ∧
      (m₁ = (m₀.quarantine k t).1 ∧ m₁.BlockedAt k t ∧ m₁.BlockedAt k t' ∧
        lookupAfterRestart m₁ {} t t' sampleQuery = .ok r₁ ∧ r₁.path = .l1 ∧ r₁.key = k) ∧
      (m₂ = (save true {} 0 0 [] m₀ {}).1.markNegative k t ∧ d = (save true {} 0 0 [] m₀ {}).2 ∧
        m₂.BlockedAt k t ∧ m₂.BlockedAt k t' ∧
        lookupAfterRestart m₂ d t t' sampleQuery = .ok r₂ ∧ r₂.path = .l1 ∧ r₂.key = k) := by
  refine ⟨_, _, _, _, _, _, _, _, _, rfl, rfl, rfl, rfl,
    ⟨rfl, ⟨_, rfl, .inr rfl, ?_⟩, ⟨_, rfl, .inr rfl, ?_⟩, rfl, ?_, ?_⟩,
    ⟨rfl, rfl, ⟨_, rfl, .inl rfl, ?_⟩, ⟨_, rfl, .inl rfl, ?_⟩, rfl, ?_, ?_⟩⟩ <;> decide +kernel

end Reality
