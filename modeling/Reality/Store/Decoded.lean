import Reality.Cache.NilProfile
import Reality.Store.Load

/-!
# Files from outside

`profiles.json` may have been written by somebody else. What the decoder makes of
it is a `ProfileFile` whose map has pointers for values, and JSON has a `null` for
a pointer. `migrateProfileFile` skips such a value. The loop of `load` behind it
does not: its first use of the entry is `entry.CapturedAt`.

The files `Save` writes have no null in them. For these the loop here is the one of
`Store.Load`.
-/

namespace Reality

open Kit

/-- A `ProfileFile` as `json.Unmarshal` can leave it. -/
structure DecodedFile where
  version : Int
  savedAt : Int
  profiles : AList (fun _ : Bytes => Option PersistProfileEntry)

/-- A file without nulls. -/
def ProfileFile.decoded (f : ProfileFile) : DecodedFile :=
  { version := f.version, savedAt := f.savedAt, profiles := mapValues some f.profiles }

/-- The record mode of files before version 2. -/
def PersistProfileEntry.fillMode (e : PersistProfileEntry) : PersistProfileEntry :=
  if e.recordMode = 0 then { e with recordMode := inferRecordMode e.recordLens } else e

/-- Each of the two loops over the version runs once at most. -/
def migrateProfileFile (f : DecodedFile) : DecodedFile :=
  let f :=
    if f.version < 2 then
      { f with version := 2, profiles := mapValues (Option.map (·.fillMode)) f.profiles }
    else f
  if f.version < 3 then { f with version := 3 } else f

/-- A cache, and what was handed to `StoreProfile` so far. -/
abbrev Loading : Type := CacheManager × List (Bytes × RealityProfile)

/-- One round of the loop of `load`. -/
def DecodedFile.round (f : DecodedFile) (now : Int) (orders : Bytes → List Bytes) (s : Loading)
    (key : Bytes) : Except Panic Loading :=
  match f.profiles.lookup key with
  | none => .ok s
  | some none => .error .nilDeref
  | some (some e) =>
      if timeSub now e.capturedAt > profileTTL then .ok s
      else do
        let r ← s.1.storeProfile key (restoreProfile key e) (orders key)
        .ok (r.1, s.2 ++ [(key, restoreProfile key e)])

/-- What `load` goes through: the file, migrated when it is an older one. -/
def DecodedFile.migrated (f : DecodedFile) : DecodedFile :=
  if f.version < profileFileCurrentVersion then migrateProfileFile f else f

/-- `load` of a file that was decoded. -/
def loadDecoded (f : DecodedFile) (now : Int) (fileOrder : List Bytes)
    (orders : Bytes → List Bytes) (m : CacheManager) : Except Panic Loading :=
  if f.version > profileFileCurrentVersion then .ok (m, [])
  else
    (visits f.migrated.profiles.keys fileOrder).foldlM (f.migrated.round now orders) (m, [])

/-! ## The migration -/

section Migration

variable {f : DecodedFile} {key : Bytes}

theorem migrateProfileEntry_eq (version : Int) (e : PersistProfileEntry) :
    migrateProfileEntry version e = if version < 2 then e.fillMode else e := by
  unfold migrateProfileEntry PersistProfileEntry.fillMode
  by_cases hv : version < 2 <;> by_cases hm : e.recordMode = 0 <;> simp [hv, hm]

theorem profiles_migrated (f : DecodedFile) :
    f.migrated.profiles =
      if f.version < 2 then mapValues (Option.map (·.fillMode)) f.profiles else f.profiles := by
  unfold DecodedFile.migrated migrateProfileFile
  by_cases h2 : f.version < 2
  · have h3 : f.version < profileFileCurrentVersion := by
      unfold profileFileCurrentVersion
      omega
    simp only [if_pos h2, if_pos h3]
    split <;> rfl
  · simp only [if_neg h2]
    split
    · split <;> rfl
    · rfl

theorem keys_migrated (f : DecodedFile) : f.migrated.profiles.keys = f.profiles.keys := by
  rw [profiles_migrated]
  split
  · exact keys_mapValues ..
  · rfl

theorem lookup_migrated (f : DecodedFile) (key : Bytes) :
    f.migrated.profiles.lookup key =
      (f.profiles.lookup key).map (Option.map (migrateProfileEntry f.version)) := by
  have hentry : migrateProfileEntry f.version
      = fun e => if f.version < 2 then e.fillMode else e := by
    funext e
    exact migrateProfileEntry_eq f.version e
  rw [profiles_migrated, hentry]
  by_cases h2 : f.version < 2
  · simp only [if_pos h2, lookup_mapValues]
  · simp only [if_neg h2]
    cases f.profiles.lookup key with
    | none => rfl
    | some value => cases value <;> rfl

/-- **One round**, told by the file as it was decoded. -/
theorem round_migrated (f : DecodedFile) (now : Int) (orders : Bytes → List Bytes) (s : Loading)
    (key : Bytes) :
    f.migrated.round now orders s key =
      match f.profiles.lookup key with
      | none => .ok s
      | some none => .error .nilDeref
      | some (some e) =>
          match accepted f.version now key e with
          | none => .ok s
          | some p =>
              (s.1.storeProfile key p (orders key)).map fun r => (r.1, s.2 ++ [(key, p)]) := by
  rw [DecodedFile.round, lookup_migrated]
  cases f.profiles.lookup key with
  | none => rfl
  | some value =>
      cases value with
      | none => rfl
      | some e =>
          simp only [Option.map_some, accepted]
          split
          · rfl
          · dsimp only
            cases s.1.storeProfile key (restoreProfile key (migrateProfileEntry f.version e))
              (orders key) <;> rfl

end Migration

/-! ## Files without nulls -/

theorem lookup_decoded (f : ProfileFile) (key : Bytes) :
    f.decoded.profiles.lookup key = (f.profiles.lookup key).map some := lookup_mapValues ..

/-- **On a file without nulls this is the `load` of `Store.Load`.** -/
theorem loadDecoded_decoded (f : ProfileFile) (now : Int) (fileOrder : List Bytes)
    (orders : Bytes → List Bytes) (m : CacheManager) :
    (loadDecoded f.decoded now fileOrder orders m).map Prod.fst
      = load (some f) now fileOrder orders m := by
  have hkeys : f.decoded.migrated.profiles.keys = f.profiles.keys :=
    (keys_migrated f.decoded).trans (keys_mapValues ..)
  have hround : ∀ s key, (f.decoded.migrated.round now orders s key).map Prod.fst
      = f.loadKey now orders s.1 key := by
    intro s key
    rw [round_migrated, lookup_decoded, ProfileFile.loadKey]
    cases f.profiles.lookup key with
    | none => rfl
    | some e =>
        simp only [Option.map_some, loadEntry_eq]
        have hversion : f.decoded.version = f.version := rfl
        rw [hversion]
        cases accepted f.version now key e with
        | none => rfl
        | some p =>
            dsimp only
            cases s.1.storeProfile key p (orders key) <;> rfl
  unfold loadDecoded load
  rw [hkeys]
  dsimp only
  split
  · rw [if_pos ‹_›]
    rfl
  · rw [if_neg ‹_›]
    exact foldlM_map hround _ (m, [])

/-! ## What a load hands on -/

/-- The profile behind a key is made of the file's entry: not past the TTL, without live
evidence, with a source, and with the mode of the entry or the one its lengths have. -/
def RestoredFrom (f : DecodedFile) (now : Int) (kp : Bytes × RealityProfile) : Prop :=
  ∃ e, f.profiles.lookup kp.1 = some (some e) ∧
    timeSub now kp.2.capturedAt ≤ profileTTL ∧ kp.2.liveEvidence ≤ 0 ∧ kp.2.source ≠ [] ∧
    kp.2.recordMode
      = if e.recordMode = 0 then inferRecordMode kp.2.recordLens else e.recordMode

theorem accepted_restored {f : DecodedFile} {now : Int} {key : Bytes} {e : PersistProfileEntry}
    {p : RealityProfile} (hl : f.profiles.lookup key = some (some e))
    (h : accepted f.version now key e = some p) : RestoredFrom f now (key, p) := by
  have hfields : (migrateProfileEntry f.version e).recordLens = e.recordLens ∧
      ((migrateProfileEntry f.version e).recordMode = e.recordMode ∨
        e.recordMode = 0 ∧
          (migrateProfileEntry f.version e).recordMode = inferRecordMode e.recordLens) := by
    unfold migrateProfileEntry
    split
    next hold =>
      simp only [Bool.and_eq_true, decide_eq_true_eq] at hold
      exact ⟨rfl, .inr ⟨hold.2, rfl⟩⟩
    · exact ⟨rfl, .inl rfl⟩
  obtain ⟨hlens, hmode⟩ := hfields
  simp only [accepted] at h
  split at h
  · cases h
  next hage =>
    cases h
    have hyoung : timeSub now (migrateProfileEntry f.version e).capturedAt ≤ profileTTL :=
      not_lt.mp hage
    refine ⟨e, hl, hyoung, ?_, ?_, ?_⟩
    · simp only [restoreProfile]
      split <;> omega
    · simp only [restoreProfile]
      split
      · decide
      next hsource => exact hsource
    · simp only [restoreProfile, hlens]
      -- A mode the migration filled in is the one the loop would have inferred.
      rcases hmode with hmode | ⟨hzero, hmode⟩
      · rw [hmode]
      · rw [hmode, if_pos hzero]
        split <;> rfl

namespace CacheManager

variable {m : CacheManager}

theorem followable_newCacheManager : newCacheManager.Followable := by
  intro k e h
  simp at h

theorem Followable.evictIfFull (h : m.Followable) (order : List Bytes) :
    Returned (m.evictIfFull order) := by
  unfold CacheManager.evictIfFull
  split
  · exact returned_ok m
  · obtain ⟨acc, hscan⟩ : Returned ((m.visitOrder order).foldlM m.evictVisit {}) :=
      (returned_foldlM_iff_forall fun acc k => returned_evictVisit acc k).mpr fun k _ => h k
    rw [hscan]
    change Returned (if acc.evictKey ≠ [] then _ else _)
    split <;> exact returned_ok _

theorem Followable.storeProfile (h : m.Followable) (key : Bytes) (p : RealityProfile)
    (order : List Bytes) :
    ∃ r, m.storeProfile key p order = .ok r ∧ r.1.Followable := by
  unfold CacheManager.storeProfile
  cases hl : m.load key with
  | some e => exact ⟨(m, false), rfl, h⟩
  | none =>
      have hin : (m.inserted key (freshEntry p m.baseTTL)).Followable := by
        intro k e he
        rw [load_inserted] at he
        split at he
        · cases he
          exact .inr (.inr nofun)
        · exact h k e he
      obtain ⟨m', hm'⟩ := hin.evictIfFull order
      refine ⟨(m', true), ?_, ?_⟩
      · dsimp only
        rw [insertNew, hm']
        rfl
      · intro k e he
        rcases load_evictIfFull hm' k with hk | ⟨hk, -⟩
        · exact hin k e (hk ▸ he)
        · rw [hk] at he
          cases he

end CacheManager

/-- The loop so far: no later eviction panics, and what was handed on is in order. -/
structure LoadingOk (f : DecodedFile) (now : Int) (s : Loading) : Prop where
  followable : s.1.Followable
  restored : ∀ kp ∈ s.2, RestoredFrom f now kp

theorem LoadingOk.round {f : DecodedFile} {now : Int} {s : Loading} (h : LoadingOk f now s)
    {key : Bytes} (hnull : f.profiles.lookup key ≠ some none) (orders : Bytes → List Bytes) :
    ∃ s', f.migrated.round now orders s key = .ok s' ∧ LoadingOk f now s' := by
  rw [round_migrated]
  cases hl : f.profiles.lookup key with
  | none => exact ⟨s, rfl, h⟩
  | some value =>
      cases value with
      | none => exact absurd hl hnull
      | some e =>
          dsimp only
          cases ha : accepted f.version now key e with
          | none => exact ⟨s, rfl, h⟩
          | some p =>
              obtain ⟨r, hstore, hfollow⟩ := h.followable.storeProfile key p (orders key)
              have hrestored : ∀ kp ∈ s.2 ++ [(key, p)], RestoredFrom f now kp := by
                intro kp hkp
                rcases List.mem_append.mp hkp with hkp | hkp
                · exact h.restored kp hkp
                · rw [List.mem_singleton.mp hkp]
                  exact accepted_restored hl ha
              refine ⟨(r.1, s.2 ++ [(key, p)]), ?_, ⟨hfollow, hrestored⟩⟩
              simp only [hstore, Except.map]

/-- **A load survives a file exactly when there is no null in it**, and then everything it
hands to `StoreProfile` is in order. -/
theorem load_survives_iff {f : DecodedFile} (hversion : f.version ≤ profileFileCurrentVersion)
    {m : CacheManager} (hm : m.Followable) (now : Int) (fileOrder : List Bytes)
    (orders : Bytes → List Bytes) :
    (∃ m' stored, loadDecoded f now fileOrder orders m = .ok (m', stored) ∧
        ∀ kp ∈ stored, RestoredFrom f now kp) ↔
      ∀ key, f.profiles.lookup key ≠ some none := by
  rw [loadDecoded, if_neg (not_lt.mpr hversion), keys_migrated]
  constructor
  · rintro ⟨m', stored, hload, -⟩ key hnull
    have hvisited : key ∈ visits f.profiles.keys fileOrder := by
      rw [mem_visits, ← AList.mem_keys, ← AList.lookup_isSome, hnull]
      rfl
    obtain ⟨s, hround⟩ := Returned.of_mem_foldlM ⟨_, hload⟩ hvisited
    rw [round_migrated, hnull] at hround
    exact returned_error _ hround
  · intro hnone
    have hstart : LoadingOk f now (m, []) := ⟨hm, fun kp hkp => absurd hkp List.not_mem_nil⟩
    obtain ⟨⟨m', stored⟩, hload, hok⟩ :=
      foldlM_ok (l := visits f.profiles.keys fileOrder)
        (fun s key _ hs => LoadingOk.round hs (hnone key) orders) hstart
    exact ⟨m', stored, hload, hok.restored⟩

/-- A file of the first version: one entry without a mode, one past the TTL. -/
def sampleOldFile : DecodedFile :=
  { version := 1, savedAt := 0
    profiles :=
      [⟨str "a.io|h2|0304",
          some { recordLens := ![95, 6, 700, 0, 0, 0, 0], capturedAt := 5, liveEvidence := 9 }⟩,
        ⟨str "old", some { capturedAt := -2 * profileTTL, liveEvidence := -1 }⟩].toAList }

theorem load_survives_old_file :
    ∃ m' stored, loadDecoded sampleOldFile 10 [] (fun _ => []) newCacheManager = .ok (m', stored) ∧
      stored.map (fun kp => kp.1) = [str "a.io|h2|0304"] ∧
      ∀ kp ∈ stored, RestoredFrom sampleOldFile 10 kp := by
  have hnone : ∀ key, sampleOldFile.profiles.lookup key ≠ some none := by
    intro key hnull
    have hall : sampleOldFile.profiles.entries.all (fun kv => kv.2.isSome) = true := by decide
    have hsome := List.all_eq_true.mp hall _ (AList.mem_lookup_iff.mp hnull)
    cases hsome
  obtain ⟨m', stored, hload, hrestored⟩ :=
    (load_survives_iff (by decide) CacheManager.followable_newCacheManager 10 []
      (fun _ => [])).mpr hnone
  refine ⟨m', stored, hload, ?_, hrestored⟩
  have hkeys : (loadDecoded sampleOldFile 10 [] (fun _ => []) newCacheManager).map
      (fun s => s.2.map fun kp => kp.1) = .ok [str "a.io|h2|0304"] := by
    decide +kernel
  rw [hload] at hkeys
  exact Except.ok.inj hkeys

/-- **A null in the file ends the process** that loads it. -/
theorem load_panics_on_null :
    loadDecoded { version := 3, savedAt := 0, profiles := [⟨str "k", none⟩].toAList } 10 []
      (fun _ => []) newCacheManager = .error .nilDeref := rfl

end Reality
