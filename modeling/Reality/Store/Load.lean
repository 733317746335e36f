import Reality.Cache.Victim
import Reality.Kit.Ranging
import Reality.Store.Save

/-!
# Loading the file

`PersistentProfileStore.load` (profile_persist.go): every entry of the file that
is not past the TTL goes through `StoreProfile`, in the order in which Go's map
happens to be visited. It comes out VALID, whatever the state of the entry it
was saved from.

Each round may evict, and all entries being valid, the scan is the search for
the oldest key (`Kit.Oldest`). A file with more entries than the cache has room
for drops some, and which ones depends on the order of the rounds and on the
order of the visits in each scan. What matters for a key is whether SOME order
keeps it.
-/

namespace Reality

open Kit

open CacheManager (EvictScan)

/-! ## The loop -/

def ProfileFile.loadKey (f : ProfileFile) (now : Int) (orders : Bytes → List Bytes)
    (m : CacheManager) (key : Bytes) : Except Panic CacheManager :=
  match f.profiles.lookup key with
  | none => .ok m
  | some e => loadEntry m f.version key e now (orders key)

/-- `load` of a file that could be read and decoded, or of none. `orders` has for
each key the order in which the eviction behind its insertion visits the cache. -/
def load (file : Option ProfileFile) (now : Int) (fileOrder : List Bytes)
    (orders : Bytes → List Bytes) (m : CacheManager) : Except Panic CacheManager :=
  match file with
  | none => .ok m
  | some f =>
      -- Files from an unknown future version are left alone.
      if f.version > profileFileCurrentVersion then .ok m
      else (visits f.profiles.keys fileOrder).foldlM (f.loadKey now orders) m

/-- The profile a round makes of an entry, unless it is past the TTL. -/
def accepted (version now : Int) (key : Bytes) (e : PersistProfileEntry) :
    Option RealityProfile :=
  let e := migrateProfileEntry version e
  if timeSub now e.capturedAt > profileTTL then none else some (restoreProfile key e)

/-- The profile a file holds for a key. -/
def restorable (file : Option ProfileFile) (now : Int) (key : Bytes) : Option RealityProfile :=
  file.bind fun f =>
    if f.version > profileFileCurrentVersion then none
    else (f.profiles.lookup key).bind (accepted f.version now key)

/-- The keys `load` goes through. -/
def loadOrder (file : Option ProfileFile) (fileOrder : List Bytes) : List Bytes :=
  match file with
  | none => []
  | some f => if f.version > profileFileCurrentVersion then [] else visits f.profiles.keys fileOrder

/-- A round, told by what there is to restore at its key. -/
def CacheManager.refill (found : Bytes → Option RealityProfile) (orders : Bytes → List Bytes)
    (m : CacheManager) (key : Bytes) : Except Panic CacheManager :=
  match found key with
  | none => .ok m
  | some p => (m.storeProfile key p (orders key)).map Prod.fst

theorem loadEntry_eq (m : CacheManager) (version now : Int) (key : Bytes)
    (e : PersistProfileEntry) (order : List Bytes) :
    loadEntry m version key e now order =
      match accepted version now key e with
      | none => .ok m
      | some p => (m.storeProfile key p order).map Prod.fst := by
  unfold loadEntry accepted
  dsimp only
  split
  · rfl
  · dsimp only
    cases m.storeProfile key (restoreProfile key (migrateProfileEntry version e)) order <;> rfl

theorem load_eq_refill (file : Option ProfileFile) (now : Int) (fileOrder : List Bytes)
    (orders : Bytes → List Bytes) (m : CacheManager) :
    load file now fileOrder orders m =
      (loadOrder file fileOrder).foldlM (CacheManager.refill (restorable file now) orders) m := by
  cases file with
  | none => rfl
  | some f =>
      unfold load loadOrder
      dsimp only
      split
      · rfl
      next hver =>
        have hround : f.loadKey now orders
            = CacheManager.refill (restorable (some f) now) orders := by
          funext m key
          rw [ProfileFile.loadKey, CacheManager.refill, restorable, Option.bind_some, if_neg hver]
          cases f.profiles.lookup key with
          | none => rfl
          | some e => exact loadEntry_eq ..
        rw [hround]

/-- What can be restored is visited. -/
theorem mem_loadOrder {file : Option ProfileFile} {now : Int} {k : Bytes} {p : RealityProfile}
    (h : restorable file now k = some p) (fileOrder : List Bytes) :
    k ∈ loadOrder file fileOrder := by
  cases file with
  | none => cases h
  | some f =>
      rw [restorable, Option.bind_some] at h
      split at h
      · cases h
      next hver =>
        obtain ⟨e, he, -⟩ := Option.bind_eq_some_iff.mp h
        rw [loadOrder, if_neg hver, mem_visits, ← AList.mem_keys,
          ← AList.lookup_isSome, he]
        rfl

/-! ## The cache while it is filled -/

/-- The time the file has for a key. -/
def captureTime (found : Bytes → Option RealityProfile) (k : Bytes) : Int :=
  ((found k).map (·.capturedAt)).getD zeroTime

/-- A cache that holds nothing but what was found, all of it valid and counted. -/
structure Loaded (found : Bytes → Option RealityProfile) (m : CacheManager) : Prop where
  fresh : ∀ k e, m.load k = some e → ∃ p, found k = some p ∧ e = freshEntry p profileTTL
  counted : m.profileEntries = size m.entries
  capacity : m.maxProfiles = newCacheManager.maxProfiles
  ttl : m.baseTTL = profileTTL

/-- The key an eviction removes, the empty one for none. -/
def victim (found : Bytes → Option RealityProfile) (m : CacheManager) (order : List Bytes) :
    Bytes := (oldest [] (captureTime found) ([], zeroTime) (m.visitOrder order)).1

section Loaded

variable {found : Bytes → Option RealityProfile} {m m' : CacheManager} {key k : Bytes}
  {order : List Bytes}

theorem loaded_newCacheManager (found : Bytes → Option RealityProfile) :
    Loaded found newCacheManager := ⟨by simp, rfl, rfl, rfl⟩

theorem Loaded.isSome (h : Loaded found m) (hk : k ∈ m.entries) : (found k).isSome = true := by
  obtain ⟨e, he⟩ := CacheManager.mem_entries.mp hk
  obtain ⟨p, hp, -⟩ := h.fresh k e he
  rw [hp]
  rfl

theorem Loaded.load_eq (h : Loaded found m) (hk : k ∈ m.entries) {p : RealityProfile}
    (hp : found k = some p) : m.load k = some (freshEntry p profileTTL) := by
  obtain ⟨e, he⟩ := CacheManager.mem_entries.mp hk
  obtain ⟨p', hp', rfl⟩ := h.fresh k e he
  rw [hp] at hp'
  cases hp'
  exact he

/-- An entry is valid, and its time is the one in the file. -/
theorem Loaded.at_key (h : Loaded found m) (hk : k ∈ m.entries) :
    m.stateAt k = some .valid ∧ m.capturedAt k = captureTime found k := by
  obtain ⟨e, he⟩ := CacheManager.mem_entries.mp hk
  obtain ⟨p, hp, rfl⟩ := h.fresh k e he
  refine ⟨CacheManager.stateAt_eq he, ?_⟩
  rw [CacheManager.capturedAt_eq he rfl, captureTime, hp]
  rfl

theorem Loaded.followable (h : Loaded found m) : m.Followable := by
  intro k e he
  obtain ⟨p, -, rfl⟩ := h.fresh k e he
  exact .inr (.inr (Option.some_ne_none p))

/-- Over valid entries, the scan for a victim is the search for the oldest key. -/
theorem Loaded.evictScan (h : Loaded found m) {keys : List Bytes}
    (hkeys : ∀ k ∈ keys, k ∈ m.entries) (a : Bytes × Int) :
    keys.foldlM m.evictVisit { oldestKey := a.1, oldestTime := a.2 } =
      .ok { oldestKey := (oldest [] (captureTime found) a keys).1
            oldestTime := (oldest [] (captureTime found) a keys).2 } := by
  have hnone : ∀ s, s ≠ .valid → m.inState s keys = [] := by
    intro s hs
    refine List.filter_eq_nil_iff.mpr fun k hk => ?_
    simp [(h.at_key (hkeys k hk)).1, Ne.symm hs]
  have hall : m.contenders keys = keys := by
    refine List.filter_eq_self.mpr fun k hk => ?_
    simp [(h.at_key (hkeys k hk)).1]
  have htimes : oldest [] m.capturedAt a keys = oldest [] (captureTime found) a keys :=
    oldest_congr (fun k hk => (h.at_key (hkeys k hk)).2) a
  rw [CacheManager.evictScan_eq h.followable hkeys, CacheManager.scanned, hnone _ (by simp),
    hnone _ (by simp), hall, htimes]
  rfl

theorem mem_entries_of_mem_visitOrder (hk : k ∈ m.visitOrder order) : k ∈ m.entries :=
  CacheManager.mem_entries.mpr (CacheManager.mem_visitOrder.mp hk)

theorem mem_visitOrder_of_mem_entries (hk : k ∈ m.entries) (order : List Bytes) :
    k ∈ m.visitOrder order := CacheManager.mem_visitOrder.mpr (CacheManager.mem_entries.mp hk)

theorem victim_mem (hv : victim found m order ≠ []) : victim found m order ∈ m.entries :=
  mem_entries_of_mem_visitOrder ((oldest_mem (m.visitOrder order)).resolve_left hv)

/-- What an eviction does: nothing while there is room, and then it removes the
victim, if there is one. -/
theorem Loaded.evictIfFull (h : Loaded found m) (order : List Bytes) :
    m.evictIfFull order =
      .ok (if size m.entries ≤ 1000 ∨ victim found m order = [] then m
        else (m.delete (victim found m order)).addEntries (-1)) := by
  have hcap : m.maxProfiles = 1000 := h.capacity
  have hcounted := h.counted
  by_cases hroom : size m.entries ≤ 1000
  · rw [if_pos (.inl hroom), CacheManager.evictIfFull, if_pos (by omega)]
  · rw [CacheManager.evictIfFull, if_neg (by omega)]
    have hscan : (m.visitOrder order).foldlM m.evictVisit {} = _ :=
      h.evictScan (fun k hk => mem_entries_of_mem_visitOrder hk) ([], zeroTime)
    rw [hscan]
    show (if victim found m order ≠ [] then _ else _) = _
    by_cases hv : victim found m order = []
    · rw [if_neg (not_not.mpr hv), if_pos (.inr hv)]
    · rw [if_pos hv, if_neg (not_or.mpr ⟨hroom, hv⟩)]
      rfl

theorem Loaded.delete (h : Loaded found m) (hk : k ∈ m.entries) :
    Loaded found ((m.delete k).addEntries (-1)) := by
  have hsize : size (m.delete k).entries + 1 = size m.entries := size_erase hk
  have hcounted := h.counted
  refine ⟨?_, ?_, h.capacity, h.ttl⟩
  · intro k' e he
    rw [CacheManager.load_addEntries, CacheManager.load_delete] at he
    split at he
    · cases he
    · exact h.fresh k' e he
  · show m.profileEntries + -1 = (size (m.delete k).entries : Int)
    omega

theorem Loaded.inserted (h : Loaded found m) (hnew : key ∉ m.entries) {p : RealityProfile}
    (hp : found key = some p) : Loaded found (m.inserted key (freshEntry p m.baseTTL)) := by
  have hsize : size (m.put key (freshEntry p m.baseTTL)).entries = size m.entries + 1 :=
    size_insert_new hnew _
  have hcounted := h.counted
  refine ⟨?_, ?_, h.capacity, h.ttl⟩
  · intro k e he
    rw [CacheManager.load_inserted] at he
    split at he
    next hk =>
      subst hk
      cases he
      exact ⟨p, hp, by rw [h.ttl]⟩
    · exact h.fresh k e he
  · show m.profileEntries + 1 = (size (m.put key (freshEntry p m.baseTTL)).entries : Int)
    omega

/-- `m'` is what eviction leaves of `m₁`. -/
inductive Evicted (found : Bytes → Option RealityProfile) (m₁ : CacheManager)
    (order : List Bytes) : CacheManager → Prop where
  | room (h : size m₁.entries ≤ 1000) : Evicted found m₁ order m₁
  | spared (h : 1000 < size m₁.entries) (hv : victim found m₁ order = []) :
      Evicted found m₁ order m₁
  | removed (h : 1000 < size m₁.entries) (hv : victim found m₁ order ≠ []) :
      Evicted found m₁ order ((m₁.delete (victim found m₁ order)).addEntries (-1))

/-- What a round does to a cache that is being filled: nothing, if there is
nothing to restore or the key is there, and else an insertion and an eviction. -/
inductive Round (found : Bytes → Option RealityProfile) (order : List Bytes) (key : Bytes)
    (m : CacheManager) : CacheManager → Prop where
  | idle (h : (found key).isSome = true → key ∈ m.entries) : Round found order key m m
  | stored {m₁ m' : CacheManager} (hl : Loaded found m₁) (hnew : key ∉ m.entries)
      (hmem : ∀ k, k ∈ m₁.entries ↔ k = key ∨ k ∈ m.entries)
      (hsize : size m₁.entries = size m.entries + 1) (hev : Evicted found m₁ order m') :
      Round found order key m m'

theorem Loaded.evicted (h : Loaded found m) (order : List Bytes) :
    ∃ m', m.evictIfFull order = .ok m' ∧ Loaded found m' ∧ Evicted found m order m' := by
  refine ⟨_, h.evictIfFull order, ?_⟩
  by_cases hroom : size m.entries ≤ 1000
  · rw [if_pos (.inl hroom)]
    exact ⟨h, .room hroom⟩
  · by_cases hv : victim found m order = []
    · rw [if_pos (.inr hv)]
      exact ⟨h, .spared (not_le.mp hroom) hv⟩
    · rw [if_neg (not_or.mpr ⟨hroom, hv⟩)]
      exact ⟨h.delete (victim_mem hv), .removed (not_le.mp hroom) hv⟩

/-- **One round**: it returns, and keeps the cache loaded. -/
theorem Loaded.round (h : Loaded found m) (orders : Bytes → List Bytes) (key : Bytes) :
    ∃ m', m.refill found orders key = .ok m' ∧ Loaded found m' ∧
      Round found (orders key) key m m' := by
  unfold CacheManager.refill
  cases hp : found key with
  | none => exact ⟨m, rfl, h, .idle (by simp [hp])⟩
  | some p =>
      by_cases hin : key ∈ m.entries
      · obtain ⟨e, he⟩ := CacheManager.mem_entries.mp hin
        refine ⟨m, ?_, h, .idle fun _ => hin⟩
        simp only [CacheManager.storeProfile, he]
        rfl
      · have h₁ := h.inserted hin hp
        obtain ⟨m', hev, hl', hev'⟩ := h₁.evicted (orders key)
        refine ⟨m', ?_, hl', .stored h₁ hin ?_ (size_insert_new hin _) hev'⟩
        · simp only [CacheManager.storeProfile, CacheManager.notMem_entries.mp hin,
            CacheManager.insertNew, hev]
          rfl
        · exact fun k => AList.mem_insert _

/-- **A whole load**: it returns, and what every round keeps holds at its end. The
invariant may speak of the keys that are still to come. -/
theorem Loaded.run {I : List Bytes → CacheManager → Prop} (orders : Bytes → List Bytes)
    (hstep : ∀ key rest m m', I (key :: rest) m → Round found (orders key) key m m' → I rest m')
    {keys : List Bytes} (h : Loaded found m) (hI : I keys m) :
    ∃ m', keys.foldlM (CacheManager.refill found orders) m = .ok m' ∧ Loaded found m' ∧
      I [] m' := by
  induction keys generalizing m with
  | nil => exact ⟨m, rfl, h, hI⟩
  | cons key keys ih =>
      obtain ⟨m₁, hround, h₁, hr⟩ := h.round orders key
      obtain ⟨m', hrun, h', hI'⟩ := ih h₁ (hstep key keys m m₁ hI hr)
      refine ⟨m', ?_, h', hI'⟩
      rw [List.foldlM_cons, hround]
      exact hrun

theorem mem_removed {v : Bytes} :
    k ∈ ((m.delete v).addEntries (-1)).entries ↔ k ≠ v ∧ k ∈ m.entries := AList.mem_erase

theorem size_removed (hv : victim found m order ≠ []) :
    size ((m.delete (victim found m order)).addEntries (-1)).entries + 1 = size m.entries :=
  size_erase (victim_mem hv)

end Loaded

/-! ## Which keys stay -/

/-- A key the eviction takes only after `k`: it is younger, or the empty key. -/
def Outranks (found : Bytes → Option RealityProfile) (k x : Bytes) : Prop :=
  x ≠ k ∧ (found x).isSome = true ∧ (x = [] ∨ captureTime found k < captureTime found x)

instance (found : Bytes → Option RealityProfile) (k x : Bytes) : Decidable (Outranks found k x) :=
  inferInstanceAs (Decidable (_ ∧ _ ∧ _))

/-- The keys that outrank `k` fill the cache. -/
def Crowded (found : Bytes → Option RealityProfile) (k : Bytes) : Prop :=
  ∃ l : List Bytes, l.Nodup ∧ 1000 ≤ l.length ∧ ∀ x ∈ l, Outranks found k x

/-- The empty key is there and older: the scan takes it for "none yet". -/
def Shielded (found : Bytes → Option RealityProfile) (k : Bytes) : Prop :=
  (found []).isSome = true ∧ captureTime found [] < captureTime found k

section Dropped

variable {found : Bytes → Option RealityProfile} {m m' : CacheManager} {key k x z : Bytes}
  {order rest : List Bytes}

/-- What does not outrank `k` is a key with a name, and no younger than `k`. -/
theorem not_outranks (hk : k ≠ []) (hx : (found x).isSome = true) (h : ¬ Outranks found k x) :
    x ≠ [] ∧ captureTime found x ≤ captureTime found k := by
  by_cases hxk : x = k
  · subst hxk
    exact ⟨hk, le_rfl⟩
  · constructor
    · intro hnil
      exact h ⟨hxk, hx, .inl hnil⟩
    · by_contra hlt
      exact h ⟨hxk, hx, .inr (not_le.mp hlt)⟩

/-- As long as there is another key, eviction takes none that outranks `k`. -/
theorem Loaded.victim_not_outranks (h : Loaded found m) (hk : k ≠ []) (hsh : ¬ Shielded found k)
    (hz : z ∈ m.entries) (hno : ¬ Outranks found k z) (order : List Bytes) :
    victim found m order ≠ [] ∧ ¬ Outranks found k (victim found m order) := by
  obtain ⟨hzn, hzle⟩ := not_outranks hk (h.isSome hz) hno
  have hempty : ∀ x ∈ m.visitOrder order, captureTime found x < captureTime found k → x ≠ [] := by
    rintro x hx hlt rfl
    exact hsh ⟨h.isSome (mem_entries_of_mem_visitOrder hx), hlt⟩
  obtain ⟨hne, hle⟩ := oldest_le (a := ([], zeroTime)) (mem_visitOrder_of_mem_entries hz order) hzn
    hzle hempty
  refine ⟨hne, ?_⟩
  rintro ⟨-, -, hnil | hlt⟩
  · exact hne hnil
  · have htime := (oldest_time (c := captureTime found) (a := ([], zeroTime)) (.inl rfl)
      (m.visitOrder order)).resolve_left hne
    rw [htime] at hle
    exact absurd hlt (not_lt.mpr hle)

/-- While the cache fills up, the keys that outrank `k` are in it or still to
come; once it is full, either that goes on, or they are all there is. -/
inductive Ahead (found : Bytes → Option RealityProfile) (k : Bytes) (rest : List Bytes)
    (m : CacheManager) : Prop where
  | filling (hsize : size m.entries ≤ 1000)
      (hin : ∀ x, Outranks found k x → x ∈ m.entries ∨ x ∈ rest)
  | full (hsize : 1000 ≤ size m.entries) (hall : ∀ x ∈ m.entries, Outranks found k x)

/-- The same with one key more, before the eviction. -/
inductive AheadInserted (found : Bytes → Option RealityProfile) (k key : Bytes) (rest : List Bytes)
    (m₁ : CacheManager) : Prop where
  | filling (hsize : size m₁.entries ≤ 1001)
      (hin : ∀ x, Outranks found k x → x ∈ m₁.entries ∨ x ∈ rest)
  | full (hsize : 1000 < size m₁.entries)
      (hall : ∀ x ∈ m₁.entries, x = key ∨ Outranks found k x)

theorem Ahead.inserted {m₁ : CacheManager} (h : Ahead found k (key :: rest) m)
    (hmem : ∀ x, x ∈ m₁.entries ↔ x = key ∨ x ∈ m.entries)
    (hsize₁ : size m₁.entries = size m.entries + 1) : AheadInserted found k key rest m₁ := by
  cases h with
  | filling hsize hin =>
      refine .filling (by omega) fun x hx => ?_
      rcases hin x hx with hm | hm
      · exact .inl ((hmem x).mpr (.inr hm))
      · rcases List.mem_cons.mp hm with rfl | hm
        · exact .inl ((hmem x).mpr (.inl rfl))
        · exact .inr hm
  | full hsize hall =>
      refine .full (by omega) fun x hx => ?_
      exact ((hmem x).mp hx).imp_right (hall x)

/-- Eviction takes a key that does not outrank `k`, as long as there is one. -/
theorem AheadInserted.evicted {m₁ : CacheManager} (hk : k ≠ []) (hsh : ¬ Shielded found k)
    (hl : Loaded found m₁) (h : AheadInserted found k key rest m₁)
    (hev : Evicted found m₁ order m') : Ahead found k rest m' := by
  -- Once only keys that outrank `k` are left, it does not matter which one goes.
  by_cases hall₁ : ∀ x ∈ m₁.entries, Outranks found k x
  · cases hev with
    | room hroom =>
        cases h with
        | filling _ hin => exact .filling hroom hin
        | full hsize _ => omega
    | spared hfull _ => exact .full hfull.le hall₁
    | removed hfull hv =>
        have hsize := size_removed hv
        exact .full (by omega) fun x hx => hall₁ x (mem_removed.mp hx).2
  · simp only [not_forall, exists_prop] at hall₁
    obtain ⟨z, hz, hno⟩ := hall₁
    obtain ⟨hv, hvno⟩ := hl.victim_not_outranks hk hsh hz hno order
    cases hev with
    | room hroom =>
        cases h with
        | filling _ hin => exact .filling hroom hin
        | full hsize _ => omega
    | spared _ hnil => exact absurd hnil hv
    | removed hfull _ =>
        have hsize := size_removed hv
        cases h with
        | filling hle hin =>
            refine .filling (by omega) fun x hx => ?_
            refine (hin x hx).imp_left fun hm => mem_removed.mpr ⟨?_, hm⟩
            rintro rfl
            exact hvno hx
        | full hlt hall =>
            -- The new key is the only one that may not outrank `k`, so it is the victim.
            have hvkey := (hall _ (victim_mem hv)).resolve_right hvno
            refine .full (by omega) fun x hx => ?_
            obtain ⟨hne, hm⟩ := mem_removed.mp hx
            refine (hall x hm).resolve_left ?_
            rintro rfl
            exact hne hvkey.symm

theorem Ahead.round (hk : k ≠ []) (hsh : ¬ Shielded found k) (h : Ahead found k (key :: rest) m)
    (hr : Round found order key m m') : Ahead found k rest m' := by
  cases hr with
  | idle hidle =>
      cases h with
      | full hsize hall => exact .full hsize hall
      | filling hsize hin =>
          refine .filling hsize fun x hx => ?_
          rcases hin x hx with hm | hm
          · exact .inl hm
          · rcases List.mem_cons.mp hm with rfl | hm
            · exact .inl (hidle hx.2.1)
            · exact .inr hm
  | stored hl hnew hmem hsize₁ hev => exact (h.inserted hmem hsize₁).evicted hk hsh hl hev

/-- At the end there is no room for `k`. -/
theorem Ahead.dropped (h : Ahead found k [] m) (hcrowd : Crowded found k) : k ∉ m.entries := by
  intro hm
  cases h with
  | full _ hall => exact (hall k hm).1 rfl
  | filling hsize hin =>
      obtain ⟨l, hnodup, hlen, hl⟩ := hcrowd
      -- `k` and the keys that crowd it are more than there is room for.
      have hsub : k :: l ⊆ m.entries.keys := by
        intro x hx
        rcases List.mem_cons.mp hx with rfl | hx
        · exact hm
        · exact (hin x (hl x hx)).resolve_right List.not_mem_nil
      have hkl : (k :: l).Nodup := List.nodup_cons.mpr ⟨fun hkl => (hl k hkl).1 rfl, hnodup⟩
      have hle := (List.subperm_of_subset hkl hsub).length_le
      have hkeys : m.entries.keys.length ≤ 1000 := hsize
      rw [List.length_cons] at hle
      omega

end Dropped

/-- **No order keeps a key that is crowded out.** -/
theorem load_drops {file : Option ProfileFile} {now : Int} {k : Bytes} {fileOrder : List Bytes}
    {orders : Bytes → List Bytes} {m : CacheManager} (hk : k ≠ [])
    (hsh : ¬ Shielded (restorable file now) k) (hcrowd : Crowded (restorable file now) k)
    (h : load file now fileOrder orders newCacheManager = .ok m) : m.load k = none := by
  have hstart : Ahead (restorable file now) k (loadOrder file fileOrder) newCacheManager := by
    refine .filling (by decide) fun x hx => .inr ?_
    obtain ⟨p, hp⟩ := Option.isSome_iff_exists.mp hx.2.1
    exact mem_loadOrder hp fileOrder
  obtain ⟨m', hrun, -, hend⟩ := Loaded.run (I := Ahead (restorable file now) k) orders
    (fun key rest m m' hI hr => hI.round hk hsh hr) (loaded_newCacheManager _) hstart
  rw [load_eq_refill, hrun] at h
  cases h
  exact CacheManager.notMem_entries.mp (hend.dropped hcrowd)

section Kept

variable {found : Bytes → Option RealityProfile} {m m' : CacheManager} {key k x : Bytes}
  {order rest : List Bytes}

/-- What is there before the eviction, and is not the victim, is there after the
round. -/
theorem Round.mem_of (hr : Round found order key m m') (hx : (found x).isSome = true)
    (h : x = key ∨ x ∈ m.entries)
    (hne : ∀ m₁, Loaded found m₁ → 1000 < size m₁.entries →
      (∀ y, y = key ∨ y ∈ m.entries → y ∈ m₁.entries) → victim found m₁ order ≠ [] →
      victim found m₁ order ≠ x) : x ∈ m'.entries := by
  cases hr with
  | idle hidle =>
      rcases h with rfl | h
      · exact hidle hx
      · exact h
  | @stored m₁ _ hl hnew hmem hsize hev =>
      have hin : x ∈ m₁.entries := (hmem x).mpr h
      cases hev with
      | room => exact hin
      | spared => exact hin
      | removed hfull hv =>
          have hxv := hne m₁ hl hfull (fun y => (hmem y).mpr) hv
          exact mem_removed.mpr ⟨Ne.symm hxv, hin⟩

/-- A key that no eviction takes stays, once it has been stored. -/
theorem Round.stays (hr : Round found order key m m') (hk : (found k).isSome = true)
    (h : k ∈ m.entries ∨ k ∈ key :: rest)
    (hne : ∀ m₁, Loaded found m₁ → 1000 < size m₁.entries → k ∈ m₁.entries →
      (∀ y, y = key ∨ y ∈ m.entries → y ∈ m₁.entries) → victim found m₁ order ≠ k) :
    k ∈ m'.entries ∨ k ∈ rest := by
  by_cases hin : k = key ∨ k ∈ m.entries
  · exact .inl (hr.mem_of hk hin fun m₁ hl hfull hsub _ => hne m₁ hl hfull (hsub k hin) hsub)
  · obtain ⟨hkey, hm⟩ := not_or.mp hin
    exact .inr ((List.mem_cons.mp (h.resolve_left hm)).resolve_left hkey)

/-- In a full cache that the keys above `k` do not fill, there is a key below it. -/
theorem exists_below (hcrowd : ¬ Crowded found k) (hfull : 1000 < size m.entries) :
    ∃ z ∈ m.entries, z ≠ k ∧ ¬ Outranks found k z := by
  by_contra hall
  refine hcrowd ⟨m.entries.keys.erase k, m.entries.keys_nodup.erase k, ?_, ?_⟩
  · have hlen : 1000 < m.entries.keys.length := hfull
    rw [List.length_erase]
    split <;> omega
  · intro x hx
    obtain ⟨hxk, hxm⟩ := (m.entries.keys_nodup.mem_erase_iff).mp hx
    by_contra hno
    exact hall ⟨x, hxm, hxk, hno⟩

/-- Visiting the keys below `k` first saves it. -/
theorem Loaded.victim_ne_of_below (h : Loaded found m) (hk : k ≠ []) (hsh : ¬ Shielded found k)
    (hcrowd : ¬ Crowded found k) (hfull : 1000 < size m.entries) {below : List Bytes}
    (hbelow : ∀ x, x ∈ below ↔ x ≠ k ∧ (found x).isSome = true ∧ ¬ Outranks found k x) :
    victim found m below ≠ k := by
  obtain ⟨z, hz, hzk, hno⟩ := exists_below hcrowd hfull
  obtain ⟨y, ys, hys, hy⟩ := visits_eq_cons ((hbelow z).mpr ⟨hzk, h.isSome hz, hno⟩) hz
  obtain ⟨hyk, hyf, hyno⟩ := (hbelow y).mp hy
  obtain ⟨hyn, hyle⟩ := not_outranks hk hyf hyno
  rw [victim, CacheManager.visitOrder, hys]
  refine oldest_ne_of_first rfl hyn hyk hyle fun hnil => ?_
  by_contra hlt
  have hvisited : [] ∈ m.visitOrder below := by
    rw [CacheManager.visitOrder, hys]
    exact List.mem_cons_of_mem y hnil
  exact hsh ⟨h.isSome (mem_entries_of_mem_visitOrder hvisited), not_le.mp hlt⟩

/-- Visiting `k` and then the older empty key saves it. -/
theorem Loaded.victim_ne_of_shielded (hk : k ≠ []) (hsh : Shielded found k)
    (hfull : 1000 < size m.entries) (hkin : k ∈ m.entries) (hnil : [] ∈ m.entries) :
    victim found m [k, []] ≠ k := by
  have hvisits : m.visitOrder [k, []] = k :: [] :: m.entries.keys.filter (· ∉ [k, []]) := by
    -- The order starts with the two keys, both of which are in the map.
    have hdedup : [k, []].dedup = [k, []] := List.dedup_eq_self.mpr (by simp [hk])
    have hkk : k ∈ m.entries.keys := hkin
    have hnn : [] ∈ m.entries.keys := hnil
    rw [CacheManager.visitOrder, visits, hdedup]
    simp [hkk, hnn]
  have hnodup := m.visitOrder_nodup [k, []]
  rw [victim, hvisits]
  rw [hvisits] at hnodup
  refine oldest_ne_of_forgotten rfl hsh.2 ?_ hnodup
  intro hrest
  have hsub : m.entries.keys ⊆ [k, []] := by
    intro x hx
    have hmem : x ∈ m.visitOrder [k, []] := mem_visitOrder_of_mem_entries hx _
    rwa [hvisits, hrest] at hmem
  have hle := (List.subperm_of_subset m.entries.keys_nodup hsub).length_le
  have hlen : 1000 < m.entries.keys.length := hfull
  have htwo : [k, []].length = 2 := rfl
  omega

end Kept

/-- A file order that starts with a key of the file. -/
theorem loadOrder_first {file : Option ProfileFile} {now : Int} {k : Bytes} {p : RealityProfile}
    (h : restorable file now k = some p) : ∃ rest, loadOrder file [k] = k :: rest := by
  have hmem := mem_loadOrder h [k]
  cases file with
  | none => cases h
  | some f =>
      unfold loadOrder at hmem ⊢
      dsimp only at hmem ⊢
      split
      next hver => rw [if_pos hver] at hmem; cases hmem
      next hver =>
        rw [if_neg hver] at hmem
        exact ⟨_, visits_singleton (mem_visits.mp hmem)⟩

section Keeps

variable {file : Option ProfileFile} {now : Int} {k : Bytes} {p : RealityProfile}

/-- With the empty key loaded first, it is there at every eviction. -/
theorem load_keeps_shielded (hk : k ≠ []) (hp : restorable file now k = some p)
    (hsh : Shielded (restorable file now) k) :
    ∃ fileOrder orders m, load file now fileOrder orders newCacheManager = .ok m ∧
      m.load k = some (freshEntry p profileTTL) := by
  have hkf : (restorable file now k).isSome = true := by rw [hp]; rfl
  obtain ⟨p₀, hp₀⟩ := Option.isSome_iff_exists.mp hsh.1
  obtain ⟨rest₀, hrest₀⟩ := loadOrder_first hp₀
  have hstep : ∀ key rest (m m' : CacheManager),
      ([] ∈ m.entries ∨ (key :: rest).head? = some []) ∧ (k ∈ m.entries ∨ k ∈ key :: rest) →
      Round (restorable file now) [k, []] key m m' →
      ([] ∈ m'.entries ∨ rest.head? = some []) ∧ (k ∈ m'.entries ∨ k ∈ rest) := by
    rintro key rest m m' ⟨hempty, hcoming⟩ hr
    have hnil : [] = key ∨ [] ∈ m.entries := by
      rcases hempty with hm | hm
      · exact .inr hm
      · exact .inl (Option.some.inj hm).symm
    refine ⟨.inl (hr.mem_of hsh.1 hnil fun _ _ _ _ hv => hv), hr.stays hkf hcoming ?_⟩
    intro m₁ _ hfull hkin hsub
    exact Loaded.victim_ne_of_shielded hk hsh hfull hkin (hsub [] hnil)
  have hstart : ([] ∈ newCacheManager.entries ∨ (loadOrder file [[]]).head? = some []) ∧
      (k ∈ newCacheManager.entries ∨ k ∈ loadOrder file [[]]) :=
    ⟨.inr (by rw [hrest₀]; rfl), .inr (mem_loadOrder hp [[]])⟩
  obtain ⟨m, hrun, hl, -, hend⟩ := Loaded.run
    (I := fun rest m => ([] ∈ m.entries ∨ rest.head? = some []) ∧ (k ∈ m.entries ∨ k ∈ rest))
    (fun _ => [k, []]) hstep (loaded_newCacheManager _) hstart
  refine ⟨[[]], _, m, (load_eq_refill ..).trans hrun, ?_⟩
  exact hl.load_eq (hend.resolve_right List.not_mem_nil) hp

/-- With the keys below `k` visited first, there is one of them at every eviction. -/
theorem load_keeps_uncrowded (hk : k ≠ []) (hp : restorable file now k = some p)
    (hsh : ¬ Shielded (restorable file now) k) (hcrowd : ¬ Crowded (restorable file now) k) :
    ∃ fileOrder orders m, load file now fileOrder orders newCacheManager = .ok m ∧
      m.load k = some (freshEntry p profileTTL) := by
  have hkf : (restorable file now k).isSome = true := by rw [hp]; rfl
  obtain ⟨below, hbelow⟩ : ∃ below : List Bytes, ∀ x, x ∈ below ↔
      x ≠ k ∧ (restorable file now x).isSome = true ∧ ¬ Outranks (restorable file now) k x := by
    refine ⟨(loadOrder file []).filter fun x => x ≠ k ∧ (restorable file now x).isSome = true ∧
      ¬ Outranks (restorable file now) k x, fun x => ?_⟩
    rw [List.mem_filter, decide_eq_true_eq, and_iff_right_iff_imp]
    rintro ⟨-, hx, -⟩
    obtain ⟨q, hq⟩ := Option.isSome_iff_exists.mp hx
    exact mem_loadOrder hq []
  have hstep : ∀ key rest (m m' : CacheManager), k ∈ m.entries ∨ k ∈ key :: rest →
      Round (restorable file now) below key m m' → k ∈ m'.entries ∨ k ∈ rest := by
    intro key rest m m' hcoming hr
    refine hr.stays hkf hcoming ?_
    intro m₁ hl hfull _ _
    exact hl.victim_ne_of_below hk hsh hcrowd hfull hbelow
  obtain ⟨m, hrun, hl, hend⟩ := Loaded.run (I := fun rest m => k ∈ m.entries ∨ k ∈ rest)
    (fun _ => below) hstep (loaded_newCacheManager _) (.inr (mem_loadOrder hp []))
  refine ⟨[], _, m, (load_eq_refill ..).trans hrun, ?_⟩
  exact hl.load_eq (hend.resolve_right List.not_mem_nil) hp

/-- **Some order keeps a key** that is shielded or not crowded out. -/
theorem load_keeps (hk : k ≠ []) (hp : restorable file now k = some p)
    (h : Shielded (restorable file now) k ∨ ¬ Crowded (restorable file now) k) :
    ∃ fileOrder orders m, load file now fileOrder orders newCacheManager = .ok m ∧
      m.load k = some (freshEntry p profileTTL) := by
  by_cases hsh : Shielded (restorable file now) k
  · exact load_keeps_shielded hk hp hsh
  · exact load_keeps_uncrowded hk hp hsh (h.resolve_left hsh)

end Keeps

/-- Whatever the order, a load returns, and what it puts into the cache was in the
file. -/
theorem load_loaded (file : Option ProfileFile) (now : Int) (fileOrder : List Bytes)
    (orders : Bytes → List Bytes) :
    ∃ m, load file now fileOrder orders newCacheManager = .ok m ∧
      Loaded (restorable file now) m := by
  obtain ⟨m, hrun, hl, -⟩ := Loaded.run (I := fun _ _ => True) orders
    (fun _ _ _ _ _ _ => trivial) (loaded_newCacheManager (restorable file now)) trivial
  exact ⟨m, (load_eq_refill ..).trans hrun, hl⟩

end Reality
