import Reality.Cache.Capacity
import Reality.Kit.Oldest

/-!
# The victim of an eviction

`evictIfFull` (cache_manager.go) goes once over an unordered map, with three
candidates at a time and the empty key for "none yet". The scan is three scans
in one: for the first negative key, for the first stale key, and for the oldest
of the others (`Kit.first`, `Kit.oldest`). So what is removed is, in any order
of the visits, an entry of the least valuable kind there is.
-/

namespace Reality

open Kit

namespace CacheManager

variable {m : CacheManager} {keys : List Bytes}

/-! ## The three scans -/

def stateAt (m : CacheManager) (k : Bytes) : Option ProfileState := (m.load k).map (·.state)

def capturedAt (m : CacheManager) (k : Bytes) : Int :=
  (((m.load k).bind (·.profile)).map (·.capturedAt)).getD zeroTime

/-- The keys in state `s`, in the order of the visits. -/
def inState (m : CacheManager) (s : ProfileState) (keys : List Bytes) : List Bytes :=
  keys.filter fun k => m.stateAt k = some s

/-- The keys that compete by age. -/
def contenders (m : CacheManager) (keys : List Bytes) : List Bytes :=
  keys.filter fun k => m.stateAt k ≠ some .negative ∧ m.stateAt k ≠ some .stale

/-- No scan of the eviction comes by a profile that is not there. -/
def Followable (m : CacheManager) : Prop :=
  ∀ k e, m.load k = some e → e.state = .negative ∨ e.state = .stale ∨ e.profile ≠ none

/-- The scan of `keys` that starts with the candidates of `acc`. -/
def scanned (m : CacheManager) (acc : EvictScan) (keys : List Bytes) : EvictScan where
  negativeKey := first [] acc.negativeKey (m.inState .negative keys)
  staleKey := first [] acc.staleKey (m.inState .stale keys)
  oldestKey := (oldest [] m.capturedAt (acc.oldestKey, acc.oldestTime) (m.contenders keys)).1
  oldestTime := (oldest [] m.capturedAt (acc.oldestKey, acc.oldestTime) (m.contenders keys)).2

theorem stateAt_eq {k : Bytes} {e : ProfileEntry} (h : m.load k = some e) :
    m.stateAt k = some e.state := by
  rw [stateAt, h]
  rfl

theorem capturedAt_eq {k : Bytes} {e : ProfileEntry} {p : RealityProfile} (h : m.load k = some e)
    (hp : e.profile = some p) : m.capturedAt k = p.capturedAt := by
  rw [capturedAt, h, Option.bind_some, hp]
  rfl

/-- One visit moves the candidate of its own kind. -/
theorem evictVisit_eq (hfol : m.Followable) {k : Bytes} (hk : k ∈ m.entries) (acc : EvictScan) :
    m.evictVisit acc k = .ok (m.scanned acc [k]) := by
  obtain ⟨e, he⟩ := mem_entries.mp hk
  have hstate := stateAt_eq he
  have hprofile := hfol k e he
  unfold evictVisit
  rw [he]
  dsimp only
  cases hs : e.state with
  | negative =>
      rw [hs] at hstate
      by_cases hnone : acc.negativeKey = [] <;> simp [scanned, inState, contenders, hstate, hnone]
  | stale =>
      rw [hs] at hstate
      by_cases hnone : acc.staleKey = [] <;> simp [scanned, inState, contenders, hstate, hnone]
  | _ =>
      rw [hs] at hstate hprofile
      obtain ⟨p, hp⟩ : ∃ p, e.profile = some p := by
        simpa [Option.ne_none_iff_exists'] using hprofile
      by_cases holder : acc.oldestKey = [] ∨ p.capturedAt < acc.oldestTime <;>
        simp [scanned, inState, contenders, hstate, hp, older, capturedAt_eq he hp, holder]

theorem scanned_cons (acc : EvictScan) (k : Bytes) (keys : List Bytes) :
    m.scanned acc (k :: keys) = m.scanned (m.scanned acc [k]) keys := by
  have hsplit : k :: keys = [k] ++ keys := rfl
  rw [hsplit]
  simp only [scanned, inState, contenders, List.filter_append, oldest_append, first,
    List.foldl_append]

/-- The whole scan. -/
theorem evictScan_eq (hfol : m.Followable) (hkeys : ∀ k ∈ keys, k ∈ m.entries)
    (acc : EvictScan) : keys.foldlM m.evictVisit acc = .ok (m.scanned acc keys) := by
  induction keys generalizing acc with
  | nil => rfl
  | cons k keys ih =>
      rw [List.foldlM_cons, evictVisit_eq hfol (hkeys k List.mem_cons_self),
        scanned_cons acc k keys]
      exact ih (fun k' hk' => hkeys k' (List.mem_cons_of_mem k hk')) _

/-! ## What is removed -/

/-- The entry `e` is one that has to go first: a negative one if there is any, else
a stale one if there is any, else one that was captured first. -/
def GoesFirst (m : CacheManager) (e : ProfileEntry) : Prop :=
  e.state = .negative ∨
    (∀ k' e', m.load k' = some e' → e'.state ≠ .negative) ∧
      (e.state = .stale ∨
        (∀ k' e', m.load k' = some e' → e'.state ≠ .stale) ∧
          ∃ p, e.profile = some p ∧ ∀ k' e', m.load k' = some e' →
            ∃ p', e'.profile = some p' ∧ p.capturedAt ≤ p'.capturedAt)

variable {order : List Bytes}

theorem mem_inState {s : ProfileState} {k : Bytes} :
    k ∈ m.inState s (m.visitOrder order) ↔ ∃ e, m.load k = some e ∧ e.state = s := by
  rw [inState, List.mem_filter, mem_visitOrder, decide_eq_true_eq]
  constructor
  · rintro ⟨⟨e, he⟩, hs⟩
    rw [stateAt_eq he] at hs
    exact ⟨e, he, Option.some.inj hs⟩
  · rintro ⟨e, he, rfl⟩
    exact ⟨⟨e, he⟩, stateAt_eq he⟩

theorem inState_eq_nil {s : ProfileState} (h : m.inState s (m.visitOrder order) = []) :
    ∀ k e, m.load k = some e → e.state ≠ s := by
  intro k e he hs
  have hmem : k ∈ m.inState s (m.visitOrder order) := mem_inState.mpr ⟨e, he, hs⟩
  rw [h] at hmem
  exact absurd hmem List.not_mem_nil

/-- The candidate of a state, when an entry has it. -/
theorem first_inState {s : ProfileState} (hempty : [] ∉ m.entries)
    (h : m.inState s (m.visitOrder order) ≠ []) :
    first [] [] (m.inState s (m.visitOrder order)) ≠ [] ∧
      ∃ e, m.load (first [] [] (m.inState s (m.visitOrder order))) = some e ∧ e.state = s := by
  obtain ⟨hmem, hne⟩ := first_mem h fun hnil => by
    obtain ⟨e, he, -⟩ := mem_inState.mp hnil
    exact hempty (mem_entries.mpr ⟨e, he⟩)
  exact ⟨hne, mem_inState.mp hmem⟩

/-- The oldest key, when all entries compete by age. -/
theorem oldest_contenders (hfol : m.Followable) (hempty : [] ∉ m.entries)
    (hsome : m.visitOrder order ≠ []) (hneg : ∀ k e, m.load k = some e → e.state ≠ .negative)
    (hstale : ∀ k e, m.load k = some e → e.state ≠ .stale) :
    ∃ k e p, (m.scanned {} (m.visitOrder order)).oldestKey = k ∧ k ≠ [] ∧ m.load k = some e ∧
      e.profile = some p ∧ ∀ k' e', m.load k' = some e' →
        ∃ p', e'.profile = some p' ∧ p.capturedAt ≤ p'.capturedAt := by
  have hall : m.contenders (m.visitOrder order) = m.visitOrder order := by
    refine List.filter_eq_self.mpr fun k hk => ?_
    obtain ⟨e, he⟩ := mem_visitOrder.mp hk
    simp [stateAt_eq he, hneg k e he, hstale k e he]
  have hprofile : ∀ k e, m.load k = some e → ∃ p, e.profile = some p := by
    intro k e he
    rcases hfol k e he with h | h | h
    · exact absurd h (hneg k e he)
    · exact absurd h (hstale k e he)
    · exact Option.ne_none_iff_exists'.mp h
  have hnil : [] ∉ m.visitOrder order :=
    fun hk => hempty (mem_entries.mpr (mem_visitOrder.mp hk))
  have hkey : (m.scanned {} (m.visitOrder order)).oldestKey
      = (oldest [] m.capturedAt ([], zeroTime) (m.visitOrder order)).1 := by
    simp only [scanned, hall]
  obtain ⟨hmem, hleast⟩ := oldest_least (c := m.capturedAt) (a := ([], zeroTime)) rfl hsome hnil
  obtain ⟨e, he⟩ := mem_visitOrder.mp hmem
  obtain ⟨p, hp⟩ := hprofile _ e he
  refine ⟨_, e, p, hkey, fun h => hnil (h ▸ hmem), he, hp, fun k' e' he' => ?_⟩
  obtain ⟨p', hp'⟩ := hprofile k' e' he'
  have hle := hleast k' (mem_visitOrder.mpr ⟨e', he'⟩)
  rw [capturedAt_eq he hp, capturedAt_eq he' hp'] at hle
  exact ⟨p', hp', hle⟩

/-- The key the scan ends with. -/
theorem scanned_evictKey (hfol : m.Followable) (hempty : [] ∉ m.entries)
    (hsome : m.visitOrder order ≠ []) :
    ∃ k e, (m.scanned {} (m.visitOrder order)).evictKey = k ∧ k ≠ [] ∧ m.load k = some e ∧
      m.GoesFirst e := by
  unfold EvictScan.evictKey
  by_cases hneg : m.inState .negative (m.visitOrder order) = []
  · have hnone := inState_eq_nil hneg
    have hkey : (m.scanned {} (m.visitOrder order)).negativeKey = [] := by simp [scanned, hneg]
    rw [if_neg (not_not.mpr hkey)]
    by_cases hstale : m.inState .stale (m.visitOrder order) = []
    · have hnone' := inState_eq_nil hstale
      have hkey' : (m.scanned {} (m.visitOrder order)).staleKey = [] := by simp [scanned, hstale]
      rw [if_neg (not_not.mpr hkey')]
      obtain ⟨k, e, p, hk, hne, he, hp, hle⟩ := oldest_contenders hfol hempty hsome hnone hnone'
      exact ⟨k, e, hk, hne, he, .inr ⟨hnone, .inr ⟨hnone', p, hp, hle⟩⟩⟩
    · obtain ⟨hne, e, he, hs⟩ := first_inState hempty hstale
      exact ⟨_, e, if_pos hne, hne, he, .inr ⟨hnone, .inl hs⟩⟩
  · obtain ⟨hne, e, he, hs⟩ := first_inState hempty hneg
    exact ⟨_, e, if_pos hne, hne, he, .inl hs⟩

end CacheManager

open CacheManager in
/-- **One entry goes, and it is one that goes first**, in every order of the visits.
The capacity is the constant of `newCacheManager`; were it negative, an empty
cache would be over it. -/
theorem evictIfFull_removes_first {m : CacheManager}
    (hcounted : m.profileEntries = size m.entries)
    (hprofile : ∀ k e, m.load k = some e → e.state ∈ [.valid, .suspect, .quarantined] →
      e.profile ≠ none)
    (hempty : [] ∉ m.entries) (hcapacity : 0 ≤ m.maxProfiles) (order : List Bytes) :
    (m.profileEntries ≤ m.maxProfiles → m.evictIfFull order = .ok m) ∧
      (m.maxProfiles < m.profileEntries → ∃ k e m', m.load k = some e ∧ m.GoesFirst e ∧
        m.evictIfFull order = .ok m' ∧ m'.profileEntries = m.profileEntries - 1 ∧
        size m'.entries + 1 = size m.entries ∧ m'.load k = none ∧
        ∀ k' ≠ k, m'.load k' = m.load k') := by
  refine ⟨fun hle => by rw [evictIfFull, if_pos hle], fun hfull => ?_⟩
  have hkeys : ∀ k ∈ m.visitOrder order, k ∈ m.entries :=
    fun k hk => mem_entries.mpr (mem_visitOrder.mp hk)
  have hsome : m.visitOrder order ≠ [] := by
    have hpos : 0 < m.entries.keys.length := by
      have hlen : (m.entries.keys.length : Int) = m.profileEntries := hcounted.symm
      omega
    obtain ⟨k, hk⟩ := List.exists_mem_of_length_pos hpos
    exact List.ne_nil_of_mem (mem_visitOrder.mpr (mem_entries.mp hk))
  have hfol : m.Followable := by
    intro k e he
    have hp := hprofile k e he
    cases hs : e.state with
    | negative => exact .inl rfl
    | stale => exact .inr (.inl rfl)
    | _ => exact .inr (.inr (hp (by simp [hs])))
  obtain ⟨k, e, hkey, hne, he, hfirst⟩ := scanned_evictKey hfol hempty hsome
  have hrun : m.evictIfFull order = .ok ((m.delete k).addEntries (-1)) := by
    rw [evictIfFull, if_neg (not_le.mpr hfull), evictScan_eq hfol hkeys]
    show (if _ ≠ [] then _ else _) = _
    rw [hkey, if_pos hne]
  refine ⟨k, e, _, he, hfirst, hrun, rfl, size_erase (mem_entries.mpr ⟨e, he⟩), ?_, ?_⟩
  · rw [load_addEntries, load_delete, if_pos rfl]
  · intro k' hk'
    rw [load_addEntries, load_delete, if_neg hk']

/-- A valid and a stale entry in a cache that has room for one. -/
def overfull : CacheManager :=
  { ((newCacheManager.put [1] (freshEntry {} 0)).put [2] ((freshEntry {} 0).setState .stale)) with
    profileEntries := 2, maxProfiles := 1 }

theorem load_overfull (k : Bytes) : overfull.load k =
    if k = [2] then some ((freshEntry {} 0).setState .stale)
    else if k = [1] then some (freshEntry {} 0) else none := by
  show (CacheManager.put _ _ _).load k = _
  rw [CacheManager.load_put, CacheManager.load_put, CacheManager.load_newCacheManager]

theorem evictIfFull_removes_first_stale : ∃ k e m', overfull.load k = some e ∧
    overfull.GoesFirst e ∧ overfull.evictIfFull [[1]] = .ok m' ∧ m'.profileEntries = 2 - 1 ∧
    size m'.entries + 1 = 2 ∧ m'.load k = none ∧ ∀ k' ≠ k, m'.load k' = overfull.load k' := by
  refine (evictIfFull_removes_first (m := overfull) (by decide) ?_ (by decide) (by decide)
    [[1]]).2 (by decide)
  intro k e he _
  rw [load_overfull] at he
  split at he
  · cases he
    simp [freshEntry]
  · split at he
    · cases he
      simp [freshEntry]
    · cases he

end Reality
