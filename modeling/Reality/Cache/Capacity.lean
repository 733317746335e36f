import Reality.Cache.NilProfile
import Reality.Kit.Assoc

/-!
# The capacity of the cache

`evictIfFull` (cache_manager.go) runs behind the insertions of `StoreProfile`
and `StoreObservation`, and removes ONE entry. It decides by `profileEntries`,
not by the map. So the bound on the map needs the counter to be exact, every
insertion to be followed by an eviction that finds a victim, and no insertion
that is not followed by one.

`HotSwapProfile` of an absent key inserts and neither counts nor evicts;
`MarkNegative` and `Quarantine` of an absent key insert, count, and do not
evict.
-/

namespace Reality

open Kit

namespace CacheManager

variable {m m' : CacheManager} {key k : Bytes}

/-! ## The victim of an eviction -/

theorem mem_entries : k ∈ m.entries ↔ ∃ e, m.load k = some e := by
  rw [← AList.lookup_isSome, Option.isSome_iff_exists]
  rfl

theorem notMem_entries : k ∉ m.entries ↔ m.load k = none := by
  rw [← AList.lookup_eq_none]
  rfl

/-- The keys the scan has noted are keys of the map. -/
structure Noted (m : CacheManager) (acc : EvictScan) : Prop where
  negative : acc.negativeKey = [] ∨ acc.negativeKey ∈ m.entries
  stale : acc.staleKey = [] ∨ acc.staleKey ∈ m.entries
  oldest : acc.oldestKey = [] ∨ acc.oldestKey ∈ m.entries

theorem noted_start (m : CacheManager) : Noted m {} := ⟨.inl rfl, .inl rfl, .inl rfl⟩

theorem Noted.evictKey {acc : EvictScan} (h : Noted m acc) (hne : acc.evictKey ≠ []) :
    acc.evictKey ∈ m.entries := by
  unfold EvictScan.evictKey at hne ⊢
  split
  next hneg => exact h.negative.resolve_left hneg
  next hneg =>
    rw [if_neg hneg] at hne
    split
    next hstale => exact h.stale.resolve_left hstale
    next hstale =>
      rw [if_neg hstale] at hne
      exact h.oldest.resolve_left hne

/-- A visit of a key that is not empty leaves a candidate. -/
theorem evictVisit_noted {acc acc' : EvictScan} (h : Noted m acc) (hk : key ≠ [])
    (hmem : key ∈ m.entries) (hv : m.evictVisit acc key = .ok acc') :
    Noted m acc' ∧ acc'.evictKey ≠ [] := by
  obtain ⟨e, he⟩ := mem_entries.mp hmem
  unfold evictVisit at hv
  rw [he] at hv
  dsimp only at hv
  cases hs : e.state with
  | negative =>
      rw [hs] at hv
      cases hv
      by_cases hn : acc.negativeKey = []
      · rw [if_pos hn]
        exact ⟨⟨.inr hmem, h.stale, h.oldest⟩, by simp [EvictScan.evictKey, hk]⟩
      · rw [if_neg hn]
        exact ⟨h, by simp [EvictScan.evictKey, hn]⟩
  | stale =>
      rw [hs] at hv
      cases hv
      by_cases hn : acc.staleKey = []
      · rw [if_pos hn]
        refine ⟨⟨h.negative, .inr hmem, h.oldest⟩, ?_⟩
        by_cases hneg : acc.negativeKey = [] <;> simp [EvictScan.evictKey, hneg, hk]
      · rw [if_neg hn]
        refine ⟨h, ?_⟩
        by_cases hneg : acc.negativeKey = [] <;> simp [EvictScan.evictKey, hneg, hn]
  | _ =>
      rw [hs] at hv
      dsimp only at hv
      cases hp : e.profile with
      | none => rw [hp] at hv; cases hv
      | some p =>
          rw [hp] at hv
          dsimp only at hv
          split at hv
          · cases hv
            refine ⟨⟨h.negative, h.stale, .inr hmem⟩, ?_⟩
            by_cases hneg : acc.negativeKey = [] <;> by_cases hst : acc.staleKey = [] <;>
              simp [EvictScan.evictKey, hneg, hst, hk]
          -- Not noted because an older key is: that one has a name.
          next hold =>
            cases hv
            simp only [Bool.or_eq_true, decide_eq_true_eq, not_or] at hold
            refine ⟨h, ?_⟩
            by_cases hneg : acc.negativeKey = [] <;> by_cases hst : acc.staleKey = [] <;>
              simp [EvictScan.evictKey, hneg, hst, hold.1]

/-- The whole scan, when the empty key is not in use. -/
theorem evictScan_noted {keys : List Bytes} {acc acc' : EvictScan} (h : Noted m acc)
    (hkeys : ∀ k ∈ keys, k ≠ [] ∧ k ∈ m.entries) (hne : keys ≠ [] ∨ acc.evictKey ≠ [])
    (hscan : keys.foldlM m.evictVisit acc = .ok acc') : Noted m acc' ∧ acc'.evictKey ≠ [] := by
  induction keys generalizing acc with
  | nil =>
      cases hscan
      exact ⟨h, hne.resolve_left (fun hnil => hnil rfl)⟩
  | cons k keys ih =>
      rw [List.foldlM_cons] at hscan
      cases hv : m.evictVisit acc k with
      | error p => rw [hv] at hscan; cases hscan
      | ok acc₁ =>
          rw [hv] at hscan
          obtain ⟨hk, hmem⟩ := hkeys k List.mem_cons_self
          obtain ⟨h₁, hne₁⟩ := evictVisit_noted h hk hmem hv
          exact ih h₁ (fun k' hk' => hkeys k' (List.mem_cons_of_mem k hk')) (.inr hne₁) hscan

/-! ## Counter and map -/

/-- The counter is the size of the map, and within the capacity. -/
structure Bounded (m : CacheManager) : Prop where
  counted : m.profileEntries = size m.entries
  le : (size m.entries : Int) ≤ m.maxProfiles
  capacity : m.maxProfiles = newCacheManager.maxProfiles

theorem bounded_newCacheManager : Bounded newCacheManager := ⟨rfl, by decide, rfl⟩

theorem Bounded.put_existing (h : Bounded m) (hk : key ∈ m.entries) (e : ProfileEntry) :
    Bounded (m.put key e) := by
  have hsize : size (m.put key e).entries = size m.entries := size_insert hk e
  exact ⟨h.counted.trans (by rw [hsize]), by rw [hsize]; exact h.le, h.capacity⟩

theorem Bounded.put_new (h : Bounded m) (hk : key ∉ m.entries)
    (hroom : (size m.entries : Int) < m.maxProfiles) (e : ProfileEntry) :
    Bounded ((m.put key e).addEntries 1) := by
  have hsize : size (m.put key e).entries = size m.entries + 1 := size_insert_new hk e
  have hcounted := h.counted
  refine ⟨?_, ?_, h.capacity⟩
  · show m.profileEntries + 1 = (size (m.put key e).entries : Int)
    omega
  · show (size (m.put key e).entries : Int) ≤ m.maxProfiles
    omega

theorem Bounded.delete_existing (h : Bounded m) (hk : key ∈ m.entries) :
    Bounded ((m.delete key).addEntries (-1)) := by
  have hsize : size (m.delete key).entries + 1 = size m.entries := size_erase hk
  have hcounted := h.counted
  have hle := h.le
  refine ⟨?_, ?_, h.capacity⟩
  · show m.profileEntries + -1 = (size (m.delete key).entries : Int)
    omega
  · show (size (m.delete key).entries : Int) ≤ m.maxProfiles
    omega

theorem Bounded.markDirty (h : Bounded m) : Bounded m.markDirty := ⟨h.counted, h.le, h.capacity⟩

/-- Before the insertion of `key` there is room, or what an eviction takes to
find a victim: no hollow entry that its scan would trip over, and no empty key,
which it takes for "none yet". -/
def HasRoom (m : CacheManager) (key : Bytes) : Prop :=
  (size m.entries : Int) < m.maxProfiles ∨ (¬ m.HasHollow ∧ key ≠ [] ∧ [] ∉ m.entries)

theorem evictIfFull_idle (h : Bounded m) (order : List Bytes) : m.evictIfFull order = .ok m := by
  have hle : m.profileEntries ≤ m.maxProfiles := h.counted ▸ h.le
  rw [evictIfFull, if_pos hle]

/-- An eviction that finds its victim. -/
theorem evictIfFull_full {order : List Bytes} (hfull : m.maxProfiles < m.profileEntries)
    (hempty : [] ∉ m.entries) (hsome : key ∈ m.entries) (h : m.evictIfFull order = .ok m') :
    ∃ k ∈ m.entries, m' = (m.delete k).addEntries (-1) := by
  rw [evictIfFull, if_neg (not_le.mpr hfull)] at h
  cases hscan : (m.visitOrder order).foldlM m.evictVisit {} with
  | error p => rw [hscan] at h; cases h
  | ok acc =>
      rw [hscan] at h
      have hkeys : ∀ k ∈ m.visitOrder order, k ≠ [] ∧ k ∈ m.entries := by
        intro k hk
        have hmem := mem_entries.mpr (mem_visitOrder.mp hk)
        refine ⟨?_, hmem⟩
        rintro rfl
        exact hempty hmem
      have hnonempty : m.visitOrder order ≠ [] :=
        List.ne_nil_of_mem (mem_visitOrder.mpr (mem_entries.mp hsome))
      obtain ⟨hnoted, hne⟩ := evictScan_noted (noted_start m) hkeys (.inl hnonempty) hscan
      change (if acc.evictKey ≠ [] then _ else _) = _ at h
      rw [if_pos hne] at h
      exact ⟨acc.evictKey, hnoted.evictKey hne, (Except.ok.inj h).symm⟩

/-- **An insertion that has room keeps the bound**, and returns. -/
theorem Bounded.insertNew (h : Bounded m) (hacc : m.Accounted) (hk : m.load key = none)
    (hroom : m.HasRoom key) (p : RealityProfile) (order : List Bytes) :
    ∃ m', m.insertNew key (freshEntry p m.baseTTL) order = .ok m' ∧ Bounded m' := by
  by_cases hlt : (size m.entries : Int) < m.maxProfiles
  · have hin : Bounded (m.inserted key (freshEntry p m.baseTTL)) :=
      (h.put_new (notMem_entries.mpr hk) hlt _).markDirty
    exact ⟨_, evictIfFull_idle hin order, hin⟩
  · obtain ⟨hhollow, hkey, hempty⟩ := hroom.resolve_left hlt
    obtain ⟨m', hm'⟩ := (returned_insertNew hacc hk p order).mpr fun hbad => hhollow hbad.2
    refine ⟨m', hm', ?_⟩
    have hsize : size (m.put key (freshEntry p m.baseTTL)).entries = size m.entries + 1 :=
      size_insert_new (notMem_entries.mpr hk) _
    have hcounted := h.counted
    have hle := h.le
    -- The map is at capacity, so the insertion is one too many and the eviction runs.
    have hfull : (m.inserted key (freshEntry p m.baseTTL)).maxProfiles
        < (m.inserted key (freshEntry p m.baseTTL)).profileEntries := by
      show m.maxProfiles < m.profileEntries + 1
      omega
    have hempty' : [] ∉ (m.inserted key (freshEntry p m.baseTTL)).entries := by
      rw [notMem_entries, load_inserted, if_neg (Ne.symm hkey)]
      exact notMem_entries.mp hempty
    have hmem : key ∈ (m.inserted key (freshEntry p m.baseTTL)).entries := by
      rw [mem_entries, load_inserted, if_pos rfl]
      exact ⟨_, rfl⟩
    obtain ⟨k, hk', rfl⟩ := evictIfFull_full hfull hempty' hmem hm'
    have herase : size ((m.inserted key (freshEntry p m.baseTTL)).delete k).entries + 1
        = size (m.put key (freshEntry p m.baseTTL)).entries := size_erase hk'
    refine ⟨?_, ?_, h.capacity⟩
    · show m.profileEntries + 1 + -1
        = (size ((m.inserted key (freshEntry p m.baseTTL)).delete k).entries : Int)
      omega
    · show (size ((m.inserted key (freshEntry p m.baseTTL)).delete k).entries : Int)
        ≤ m.maxProfiles
      omega

end CacheManager

/-! ## Runs of operations -/

open CacheManager in
/-- What an operation has to find, for the bound to survive it. -/
def KeepsCapacity (m : CacheManager) : CacheOp → Prop
  | .storeProfile key _ _ => key ∈ m.entries ∨ m.HasRoom key
  | .storeObservation key obs _ _ =>
      validateRecordLens obs.recordLens = true → key ∈ m.entries ∨ m.HasRoom key
  -- `HotSwapProfile` stores without counting.
  | .hotSwapProfile key _ => key ∈ m.entries
  -- These two count what they create, but never evict.
  | .markNegative key _ | .quarantine key _ =>
      key ∈ m.entries ∨ (size m.entries : Int) < m.maxProfiles
  | _ => True

namespace CacheManager

variable {m m' : CacheManager} {key : Bytes}

theorem Bounded.storeProfile (h : Bounded m) (hacc : m.Accounted) {p : RealityProfile}
    {order : List Bytes} {b : Bool} (hc : key ∈ m.entries ∨ m.HasRoom key)
    (hs : m.storeProfile key p order = .ok (m', b)) : Bounded m' := by
  rcases storeProfile_ok hs with ⟨-, rfl⟩ | ⟨-, hk, hin⟩
  · exact h
  · have hroom := hc.resolve_left (notMem_entries.mpr hk)
    obtain ⟨m₁, hm₁, hb⟩ := h.insertNew hacc hk hroom p order
    rw [hin] at hm₁
    cases hm₁
    exact hb

theorem Bounded.storeRecovered (h : Bounded m) (hacc : m.Accounted) {obs : RealityProfile}
    (hc : validateRecordLens obs.recordLens = true → key ∈ m.entries ∨ m.HasRoom key)
    (now : Int) (order : List Bytes) : Bounded (m.storeRecovered key obs now order).1 := by
  unfold CacheManager.storeRecovered
  cases hs : m.storeObservation key obs now order with
  | error e =>
      -- With room there is no panic.
      obtain ⟨hl, hk⟩ := storeObservation_error hs
      have hroom := (hc hl).resolve_left (notMem_entries.mpr hk)
      obtain ⟨m₁, hm₁, -⟩ := h.insertNew hacc hk hroom (stampNew (normalizeObs obs)) order
      simp only [storeObservation, hl, hk, hm₁, Bool.not_true, Bool.false_eq_true, if_false] at hs
      cases hs
  | ok r =>
      obtain ⟨m', o⟩ := r
      rcases storeObservation_ok hs with ⟨-, rfl⟩ | ⟨hl, ⟨e, he, -, -, rfl⟩ | ⟨hk, -, hin⟩⟩
      · exact h
      · exact (h.put_existing (mem_entries.mpr ⟨e, he⟩) _).markDirty
      · have hroom := (hc hl).resolve_left (notMem_entries.mpr hk)
        obtain ⟨m₁, hm₁, hb⟩ := h.insertNew hacc hk hroom _ order
        rw [hin] at hm₁
        cases hm₁
        exact hb

theorem Bounded.getProfile (h : Bounded m) {now : Int} {p : Option RealityProfile} {stale : Bool}
    (hs : m.getProfile key now = .ok (m', p, stale)) : Bounded m' := by
  rcases getProfile_ok hs with rfl | ⟨e, he, -, rfl⟩ | ⟨e, he, -, -, rfl⟩
  · exact h
  · exact h.put_existing (mem_entries.mpr ⟨e, he⟩) _
  · exact h.delete_existing (mem_entries.mpr ⟨e, he⟩)

theorem Bounded.lookupAmortize (h : Bounded m) (q : Query) (now : Int) :
    Bounded (m.lookupAmortize q now).1 := by
  refine lookupAmortize_keeps (P := Bounded) ?_ h
  intro m₁ mode k h₁
  rcases probe_fst m₁ mode q now k with heq | ⟨e, he, -, heq⟩
  · rw [heq]
    exact h₁
  · rw [heq]
    exact h₁.put_existing (mem_entries.mpr ⟨e, he⟩) _

theorem Bounded.quarantine (h : Bounded m)
    (hc : key ∈ m.entries ∨ (size m.entries : Int) < m.maxProfiles) (now : Int) :
    Bounded (m.quarantine key now).1 := by
  unfold CacheManager.quarantine
  cases hk : m.load key with
  | none =>
      have hnew := notMem_entries.mpr hk
      exact (h.put_new hnew (hc.resolve_left hnew) _).markDirty
  | some e => exact (h.put_existing (mem_entries.mpr ⟨e, hk⟩) _).markDirty

theorem Bounded.markNegative (h : Bounded m)
    (hc : key ∈ m.entries ∨ (size m.entries : Int) < m.maxProfiles) (now : Int) :
    Bounded (m.markNegative key now) := by
  unfold CacheManager.markNegative
  cases hk : m.load key with
  | none =>
      have hnew := notMem_entries.mpr hk
      exact h.put_new hnew (hc.resolve_left hnew) _
  | some e => exact h.put_existing (mem_entries.mpr ⟨e, hk⟩) _

theorem Bounded.noteHandshakeFailure (h : Bounded m) (path : AmortizePath) (now : Int) :
    Bounded (m.noteHandshakeFailure key path now) := by
  unfold CacheManager.noteHandshakeFailure
  split
  · exact h
  split
  · exact h
  cases hk : m.load key with
  | none => exact h
  | some e =>
      have hput := fun e' => (h.put_existing (mem_entries.mpr ⟨e, hk⟩) e').markDirty
      dsimp only
      split
      · exact hput _
      split <;> exact hput _

theorem Bounded.markStale (h : Bounded m) : Bounded (m.markStale key) := by
  unfold CacheManager.markStale
  cases hk : m.load key with
  | none => exact h
  | some e => exact h.put_existing (mem_entries.mpr ⟨e, hk⟩) _

theorem Bounded.invalidateProfile (h : Bounded m) : Bounded (m.invalidateProfile key) := by
  unfold CacheManager.invalidateProfile
  cases hk : m.load key with
  | none => exact h
  | some e => exact (h.delete_existing (mem_entries.mpr ⟨e, hk⟩)).markDirty

theorem Bounded.step (h : Bounded m) (hacc : m.Accounted) {op : CacheOp} {out : CacheOut}
    (hc : KeepsCapacity m op) (hs : cacheStep m op = some (m', out)) : Bounded m' := by
  cases op with
  | storeObservation key obs now order =>
      cases hs
      exact h.storeRecovered hacc hc now order
  | lookup q now =>
      cases hs
      exact h.lookupAmortize q now
  | getProfile key now =>
      simp only [cacheStep] at hs
      split at hs
      next heq =>
        cases hs
        exact h.getProfile heq
      · cases hs
  | quarantine key now =>
      cases hs
      exact h.quarantine hc now
  | noteHandshakeFailure key path now =>
      cases hs
      exact h.noteHandshakeFailure path now
  | markNegative key now =>
      cases hs
      exact h.markNegative hc now
  | markStale key =>
      cases hs
      exact h.markStale
  | invalidateProfile key =>
      cases hs
      exact h.invalidateProfile
  | storeProfile key p order =>
      simp only [cacheStep] at hs
      split at hs
      next heq =>
        cases hs
        exact h.storeProfile hacc hc heq
      · cases hs
  | hotSwapProfile key p =>
      cases hs
      exact (h.put_existing hc _).markDirty
  | evictIfFull order =>
      simp only [cacheStep, evictIfFull_idle h order, Option.some.injEq, Prod.mk.injEq] at hs
      rw [← hs.1]
      exact h

end CacheManager

theorem CacheManager.bounded_run {tr : List (CacheOp × CacheOut)} {m : CacheManager}
    (h : cacheMachine.Meets (fun _ m op => KeepsCapacity m op) newCacheManager tr m) :
    m.Bounded ∧ m.Accounted := by
  refine h.invariant (I := fun _ m => m.Bounded ∧ m.Accounted)
    ⟨CacheManager.bounded_newCacheManager, CacheManager.accounted_newCacheManager⟩ ?_
  intro tr m op m' out hi hc hs
  refine ⟨hi.1.step hi.2 hc hs, ?_⟩
  intro k e he
  have hentry := CacheManager.cacheStep_entry hs k
  rw [he] at hentry
  exact hentry.accounted fun e' he' => hi.2 k e' he'

/-- **The bound on the map, over whole runs**: from an empty cache, as long as
every operation finds what `KeepsCapacity` asks for, there are never more than
`maxProfiles` entries. -/
theorem entries_within_capacity {tr : List (CacheOp × CacheOut)} {m : CacheManager}
    (h : cacheMachine.Meets (fun _ m op => KeepsCapacity m op) newCacheManager tr m) :
    (size m.entries : Int) ≤ m.maxProfiles ∧ m.maxProfiles = newCacheManager.maxProfiles := by
  obtain ⟨hbounded, -⟩ := CacheManager.bounded_run h
  exact ⟨hbounded.le, hbounded.capacity⟩

/-! ## A full cache -/

/-- `n` negative entries, under keys of one to `n` bytes. -/
structure CacheManager.Filled (n : Nat) (m : CacheManager) : Prop where
  size_eq : size m.entries = n
  entry : ∀ k e, m.load k = some e → k ≠ [] ∧ k.length ≤ n ∧ e.state = .negative

namespace CacheManager.Filled

variable {m : CacheManager} {n : Nat} {key : Bytes}

theorem absent (h : m.Filled n) (hlen : n < key.length) : m.load key = none := by
  cases hl : m.load key with
  | none => rfl
  | some e =>
      have hle := (h.entry key e hl).2.1
      omega

theorem markNegative (h : m.Filled n) (hlen : key.length = n + 1) (now : Int) :
    (m.markNegative key now).Filled (n + 1) := by
  have hnew : m.load key = none := h.absent (by omega)
  rw [CacheManager.markNegative, hnew]
  constructor
  · exact (size_insert_new (notMem_entries.mpr hnew) _).trans (congrArg (· + 1) h.size_eq)
  · intro k e he
    rw [load_addEntries, load_put] at he
    split at he
    next hk =>
      cases he
      subst hk
      exact ⟨List.ne_nil_of_length_pos (by omega), hlen.le, rfl⟩
    next =>
      obtain ⟨hne, hle, hneg⟩ := h.entry k e he
      exact ⟨hne, by omega, hneg⟩

/-- Where `evictIfFull` has a victim. -/
theorem hasRoom (h : m.Filled n) (hkey : key ≠ []) : m.HasRoom key := by
  refine .inr ⟨?_, hkey, ?_⟩
  · rintro ⟨k, e, he, hquarantined, -⟩
    rw [(h.entry k e he).2.2] at hquarantined
    cases hquarantined
  · intro hmem
    obtain ⟨e, he⟩ := mem_entries.mp hmem
    exact (h.entry [] e he).1 rfl

end CacheManager.Filled

theorem exists_filled {n : Nat} (hn : n ≤ 1000) : ∃ tr m,
    cacheMachine.Meets (fun _ m op => KeepsCapacity m op) newCacheManager tr m ∧ m.Filled n := by
  induction n with
  | zero =>
      refine ⟨[], newCacheManager, .nil, rfl, ?_⟩
      intro k e he
      rw [CacheManager.load_newCacheManager] at he
      cases he
  | succ n ih =>
      obtain ⟨tr, m, hrun, hfilled⟩ := ih (by omega)
      have hcap : m.maxProfiles = 1000 := (CacheManager.bounded_run hrun).1.capacity
      have hkeeps : KeepsCapacity m (.markNegative (List.replicate (n + 1) 0) 0) := by
        right
        rw [hfilled.size_eq, hcap]
        omega
      exact ⟨_, _, hrun.snoc hkeeps rfl, hfilled.markNegative List.length_replicate 0⟩

/-- A cache of 1000 entries takes one more and evicts. -/
theorem entries_within_capacity_full :
    ∃ tr m key out m', cacheMachine.Meets (fun _ m op => KeepsCapacity m op) newCacheManager tr m ∧
      size m.entries = 1000 ∧ m.load key = none ∧
      cacheMachine.Meets (fun _ m op => KeepsCapacity m op) newCacheManager
        (tr ++ [(.storeProfile key {} [], out)]) m' ∧
      (m.inserted key (freshEntry {} m.baseTTL)).evictIfFull [] = .ok m' ∧
      ((size m'.entries : Int) ≤ m'.maxProfiles ∧
        m'.maxProfiles = newCacheManager.maxProfiles) := by
  obtain ⟨tr, m, hrun, hfilled⟩ := exists_filled (n := 1000) le_rfl
  obtain ⟨hbounded, hacc⟩ := CacheManager.bounded_run hrun
  generalize hkey : List.replicate 1001 (0 : UInt8) = key
  have hlen : key.length = 1001 := by rw [← hkey, List.length_replicate]
  have hnew : m.load key = none := hfilled.absent (by omega)
  have hroom : m.HasRoom key := hfilled.hasRoom (List.ne_nil_of_length_pos (by omega))
  obtain ⟨m', hm', -⟩ := hbounded.insertNew hacc hnew hroom {} []
  have hstore : m.storeProfile key {} [] = .ok (m', true) := by
    rw [CacheManager.storeProfile, hnew]
    dsimp only
    rw [hm']
    rfl
  have hkeeps : KeepsCapacity m (.storeProfile key {} []) := .inr hroom
  have hstep : cacheMachine.step m (.storeProfile key {} []) = some (m', .created true) := by
    show cacheStep m (.storeProfile key {} []) = _
    rw [cacheStep, hstore]
  have hrun' := hrun.snoc hkeeps hstep
  exact ⟨tr, m, key, _, m', hrun, hfilled.size_eq, hnew, hrun', hm',
    entries_within_capacity hrun'⟩

/-- Swaps of `n` keys that are not there. -/
theorem exists_swaps (n : Nat) : ∃ tr m, cacheMachine.Run newCacheManager tr m ∧
    size m.entries = n ∧ m.maxProfiles = 1000 ∧ ∀ k ∈ m.entries, k.length < n := by
  induction n with
  | zero =>
      refine ⟨[], newCacheManager, .nil, rfl, rfl, ?_⟩
      intro k hk
      exact absurd hk (AList.notMem_empty k)
  | succ n ih =>
      obtain ⟨tr, m, hrun, hsize, hcap, hlen⟩ := ih
      -- A key that is longer than every key so far.
      have hnew : List.replicate n (0 : UInt8) ∉ m.entries := by
        intro hk
        have := hlen _ hk
        simp at this
      have hstep : cacheMachine.step m (.hotSwapProfile (List.replicate n 0) {})
          = some (m.hotSwapProfile (List.replicate n 0) {}, .unit) := rfl
      refine ⟨_, _, hrun.snoc hstep, ?_, hcap, ?_⟩
      · have hgrown := size_insert_new hnew (freshEntry {} m.baseTTL)
        exact hgrown.trans (congrArg (· + 1) hsize)
      · intro k hk
        rcases AList.mem_insert m.entries |>.mp hk with rfl | hk
        · simp
        · exact (hlen k hk).trans (Nat.lt_succ_self n)

/-- 1001 swaps of absent keys. -/
theorem swaps_exceed_capacity : ∃ tr m, cacheMachine.Run newCacheManager tr m ∧
    m.maxProfiles < (size m.entries : Int) := by
  obtain ⟨tr, m, hrun, hsize, hcap, -⟩ := exists_swaps 1001
  refine ⟨tr, m, hrun, ?_⟩
  rw [hcap, hsize]
  decide

end Reality
