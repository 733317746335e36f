import Reality.Cache.Concurrent
import Reality.Cache.Marked

/-!
# A cache call that is left alone

The steps of a call over the heap and the method of the cache manager are two
descriptions of one piece of source. `Represents` says that heap and map
together hold what the manager holds: no entry is shared by two keys. A call
that nobody disturbs takes a state that represents `m` to one that represents
what the method leaves of `m`, and that for every order in which its loops may
visit the keys, panics included.
-/

namespace Reality

open Kit Threads
open CacheManager (EvictScan)

/-- Heap and map hold what the manager holds, and no lock is held. -/
structure Represents (s : CacheShared) (m : CacheManager) : Prop where
  load : ∀ k, m.load k = (s.entries.lookup k).bind fun r => s.heap[r]?
  bound : ∀ k r, s.entries.lookup k = some r → r < s.heap.length
  unshared : ∀ k k' r, s.entries.lookup k = some r → s.entries.lookup k' = some r → k = k'
  profileEntries : s.profileEntries = m.profileEntries
  dirty : s.dirty = m.dirty
  maxProfiles : s.maxProfiles = m.maxProfiles
  baseTTL : s.baseTTL = m.baseTTL
  unlocked : s.locked = []

namespace Represents

variable {s : CacheShared} {m : CacheManager} {key k : Bytes} {r : Ref} {e : ProfileEntry}

theorem start : Represents {} newCacheManager where
  load := fun k => by simp
  bound := fun k r h => by simp at h
  unshared := fun k k' r h => by simp at h
  profileEntries := rfl
  dirty := rfl
  maxProfiles := rfl
  baseTTL := rfl
  unlocked := rfl

/-- A key of the map has its entry in the heap. -/
theorem lookup_of_load (h : Represents s m) (he : m.load key = some e) :
    ∃ r, s.entries.lookup key = some r ∧ s.heap[r]? = some e := by
  rw [h.load] at he
  exact Option.bind_eq_some_iff.mp he

theorem lookup_of_load_none (h : Represents s m) (he : m.load key = none) :
    s.entries.lookup key = none := by
  cases hl : s.entries.lookup key with
  | none => rfl
  | some r =>
      have hlt := h.bound key r hl
      rw [h.load, hl, Option.bind_some, List.getElem?_eq_getElem hlt] at he
      cases he

/-- A new entry, stored under a key. -/
theorem store (h : Represents s m) (key : Bytes) (e : ProfileEntry) :
    Represents (s.store key e) (m.put key e) := by
  have hother : ∀ k r, k ≠ key → (s.store key e).entries.lookup k = some r →
      s.entries.lookup k = some r := by
    intro k r hk hr
    rwa [CacheShared.store, AList.lookup_insert_ne hk] at hr
  have hself : (s.store key e).entries.lookup key = some s.heap.length := AList.lookup_insert _
  refine ⟨?_, ?_, ?_, h.profileEntries, h.dirty, h.maxProfiles, h.baseTTL, h.unlocked⟩
  · intro k
    by_cases hk : k = key
    · subst hk
      rw [CacheManager.load_put_self, hself]
      simp [CacheShared.store]
    · rw [CacheManager.load_put_ne m hk, h.load]
      have hsame : (s.store key e).entries.lookup k = s.entries.lookup k :=
        AList.lookup_insert_ne hk
      rw [hsame]
      cases hl : s.entries.lookup k with
      | none => rfl
      | some r => simp [CacheShared.store, List.getElem?_append_left (h.bound k r hl)]
  · intro k r hr
    show r < (s.heap ++ [e]).length
    rw [List.length_append, List.length_singleton]
    by_cases hk : k = key
    · subst hk
      cases hself.symm.trans hr
      exact Nat.lt_succ_self _
    · exact Nat.lt_succ_of_lt (h.bound k r (hother k r hk hr))
  · intro k k' r hr hr'
    by_cases hk : k = key <;> by_cases hk' : k' = key
    · rw [hk, hk']
    -- The new entry is at an address no other key can have.
    · subst hk
      cases hself.symm.trans hr
      exact absurd (h.bound k' _ (hother k' _ hk' hr')) (lt_irrefl _)
    · subst hk'
      cases hself.symm.trans hr'
      exact absurd (h.bound k _ (hother k _ hk hr)) (lt_irrefl _)
    · exact h.unshared k k' r (hother k r hk hr) (hother k' r hk' hr')

/-- A write through the pointer the map holds. -/
theorem write (h : Represents s m) (hr : s.entries.lookup key = some r) (e : ProfileEntry) :
    Represents (s.write r e) (m.put key e) := by
  have hlt := h.bound key r hr
  refine ⟨?_, ?_, h.unshared, h.profileEntries, h.dirty, h.maxProfiles, h.baseTTL, h.unlocked⟩
  · intro k
    show _ = (s.entries.lookup k).bind fun r' => (s.heap.set r e)[r']?
    by_cases hk : k = key
    · subst hk
      rw [CacheManager.load_put_self, hr]
      simp [hlt]
    · rw [CacheManager.load_put_ne m hk, h.load]
      cases hl : s.entries.lookup k with
      | none => rfl
      | some r' =>
          -- Another key has another entry, and does not see the write.
          have hne : r ≠ r' := by
            rintro rfl
            exact hk (h.unshared k key r hl hr)
          simp [List.getElem?_set_ne hne]
  · intro k r' hr'
    show r' < (s.heap.set r e).length
    rw [List.length_set]
    exact h.bound k r' hr'

theorem delete (h : Represents s m) (key : Bytes) : Represents (s.delete key) (m.delete key) := by
  have hother : ∀ k r, (s.delete key).entries.lookup k = some r →
      k ≠ key ∧ s.entries.lookup k = some r := by
    intro k r hr
    have hk : k ≠ key := by
      rintro rfl
      rw [CacheShared.delete, AList.lookup_erase] at hr
      cases hr
    exact ⟨hk, by rwa [CacheShared.delete, AList.lookup_erase_ne hk] at hr⟩
  refine ⟨?_, ?_, ?_, h.profileEntries, h.dirty, h.maxProfiles, h.baseTTL, h.unlocked⟩
  · intro k
    rw [CacheManager.load_delete]
    by_cases hk : k = key
    · subst hk
      rw [if_pos rfl, CacheShared.delete, AList.lookup_erase]
      rfl
    · rw [if_neg hk, CacheShared.delete, AList.lookup_erase_ne hk]
      exact h.load k
  · exact fun k r hr => h.bound k r (hother k r hr).2
  · exact fun k k' r hr hr' => h.unshared k k' r (hother k r hr).2 (hother k' r hr').2

theorem count (h : Represents s m) (n : Int) :
    Represents { s with profileEntries := s.profileEntries + n } (m.addEntries n) :=
  ⟨h.load, h.bound, h.unshared, congrArg (· + n) h.profileEntries, h.dirty, h.maxProfiles,
    h.baseTTL, h.unlocked⟩

theorem mark (h : Represents s m) : Represents { s with dirty := s.dirty + 1 } m.markDirty :=
  ⟨h.load, h.bound, h.unshared, h.profileEntries, congrArg (· + 1) h.dirty, h.maxProfiles,
    h.baseTTL, h.unlocked⟩

end Represents

/-! ## Runs of one call -/

section Calls

variable {ι : Type} {i : ι} {s s' s'' : CacheShared} {p p' p'' : CachePc}

/-- Steps of one call by itself. -/
def CacheGoes (i : ι) (s : CacheShared) (p : CachePc) (s' : CacheShared) (p' : CachePc) : Prop :=
  ∃ tr, Solo cacheProgram i s p tr s' p'

theorem CacheGoes.refl : CacheGoes i s p s p := ⟨[], .refl⟩

theorem CacheGoes.one {a : CacheAct} (h : cachePcStep s p a = some (s', p')) :
    CacheGoes i s p s' p' := by
  have hstep : cacheProgram i s p a = some (s', p', ()) := by
    rw [cacheProgram, h]
    rfl
  exact ⟨_, .step hstep .refl⟩

theorem CacheGoes.trans (h : CacheGoes i s p s' p') (h' : CacheGoes i s' p' s'' p'') :
    CacheGoes i s p s'' p'' := by
  obtain ⟨tr, hsolo⟩ := h
  obtain ⟨tr', hsolo'⟩ := h'
  exact ⟨tr ++ tr', hsolo.trans hsolo'⟩

/-- The call ends, and leaves what `m` is. -/
def Leaves (i : ι) (s : CacheShared) (p : CachePc) (m : CacheManager) : Prop :=
  ∃ s', CacheGoes i s p s' .idle ∧ Represents s' m

variable {m : CacheManager} {key : Bytes} {r : Ref} {e : ProfileEntry} {next : CachePc}

theorem Leaves.idle (h : Represents s m) : Leaves i s .idle m := ⟨s, .refl, h⟩

theorem CacheGoes.leaves (h : CacheGoes i s p s' p') (h' : Leaves i s' p' m) : Leaves i s p m := by
  obtain ⟨s'', hgoes, hrep⟩ := h'
  exact ⟨s'', h.trans hgoes, hrep⟩

theorem Leaves.mark (h : Leaves i { s with dirty := s.dirty + 1 } next m) :
    Leaves i s (.mark next) m := CacheGoes.leaves (.one (a := .go) rfl) h

theorem Leaves.count {n : Int}
    (h : Leaves i { s with profileEntries := s.profileEntries + n } next m) :
    Leaves i s (.count n next) m := CacheGoes.leaves (.one (a := .go) rfl) h

theorem Leaves.store (h : Leaves i (s.store key e) next m) : Leaves i s (.store key e next) m :=
  CacheGoes.leaves (.one (a := .go) rfl) h

theorem Leaves.delete (h : Leaves i (s.delete key) next m) : Leaves i s (.delete key next) m :=
  CacheGoes.leaves (.one (a := .go) rfl) h

/-! ## Eviction -/

/-- The default branch of the callback, which follows the profile unlocked. -/
theorem goes_compare (he : s.heap[r]? = some e) (l : RangeLoop Bytes) (acc : EvictScan)
    (key : Bytes) :
    CacheGoes i s (.compare l acc key r) s
      (match e.profile with
        | none => .idle
        | some p =>
            .scan l (if acc.oldestKey = [] || p.capturedAt < acc.oldestTime then
              { acc with oldestKey := key, oldestTime := p.capturedAt } else acc)) := by
  have hnote : CacheGoes i s (.note l acc key r) s
      (match e.profile with
        | none => .idle
        | some p => .scan l { acc with oldestKey := key, oldestTime := p.capturedAt }) := by
    refine .one (a := .go) ?_
    cases hp : e.profile <;> simp [cachePcStep, he, hp]
  by_cases hempty : acc.oldestKey = []
  · have hfirst : CacheGoes i s (.compare l acc key r) s (.note l acc key r) :=
      .one (a := .go) (if_pos hempty)
    refine hfirst.trans ?_
    simpa [hempty] using hnote
  · cases hp : e.profile with
    | none =>
        refine .one (a := .go) ?_
        simp [cachePcStep, hempty, he, hp]
    | some p =>
        have hcompare : CacheGoes i s (.compare l acc key r) s
            (if p.capturedAt < acc.oldestTime then .note l acc key r else .scan l acc) := by
          refine .one (a := .go) ?_
          simp [cachePcStep, hempty, he, hp]
        refine hcompare.trans ?_
        rw [hp] at hnote
        by_cases hlt : p.capturedAt < acc.oldestTime
        · simpa [hlt] using hnote
        · simpa [hlt, hempty] using CacheGoes.refl

/-- One visit of the scan, by the outcome of `evictVisit`. -/
theorem goes_visit (h : Represents s m) (hkey : key ∈ s.entries) {l : RangeLoop Bytes}
    (hseen : key ∉ l.seen) (acc : EvictScan) :
    CacheGoes i s (.scan l acc) s
      (match m.evictVisit acc key with
        | .ok acc' => .scan { l with seen := key :: l.seen } acc'
        | .error _ => .idle) := by
  obtain ⟨r, hr⟩ := Option.isSome_iff_exists.mp (AList.lookup_isSome.mpr hkey)
  have hlt := h.bound key r hr
  obtain ⟨e, he⟩ : ∃ e, s.heap[r]? = some e := ⟨_, List.getElem?_eq_getElem hlt⟩
  have hload : m.load key = some e := by rw [h.load, hr, Option.bind_some, he]
  have hlook : CacheGoes i s (.scan l acc) s
      (.visit { l with seen := key :: l.seen } acc key r) := by
    refine .one (a := .look key) ?_
    simp [cachePcStep, RangeLoop.look, hseen, hr]
  have hvisit : CacheGoes i s (.visit { l with seen := key :: l.seen } acc key r) s
      (visitState { l with seen := key :: l.seen } acc key r e.state) := by
    refine .one (a := .go) ?_
    simp [cachePcStep, h.unlocked, he]
  refine (hlook.trans hvisit).trans ?_
  have hcompare := goes_compare (i := i) he { l with seen := key :: l.seen } acc key
  unfold CacheManager.evictVisit
  rw [hload]
  dsimp only
  -- Only the default branch goes on to the unlocked comparison.
  cases e.state with
  | negative => exact .refl
  | stale => exact .refl
  | _ =>
      cases hp : e.profile with
      | none =>
          rw [hp] at hcompare
          exact hcompare
      | some p =>
          rw [hp] at hcompare
          dsimp only at hcompare ⊢
          by_cases hold : (decide (acc.oldestKey = []) ||
              decide (p.capturedAt < acc.oldestTime)) = true
          · rw [if_pos hold] at hcompare ⊢
            exact hcompare
          · rw [if_neg hold] at hcompare ⊢
            exact hcompare

theorem mem_entries_iff (h : Represents s m) : key ∈ s.entries ↔ ∃ e, m.load key = some e := by
  rw [← AList.lookup_isSome, Option.isSome_iff_exists]
  constructor
  · rintro ⟨r, hr⟩
    rw [h.load, hr, Option.bind_some, List.getElem?_eq_getElem (h.bound key r hr)]
    exact ⟨_, rfl⟩
  · rintro ⟨e, he⟩
    obtain ⟨r, hr, -⟩ := h.lookup_of_load he
    exact ⟨r, hr⟩

/-- The whole scan. -/
theorem goes_scan (h : Represents s m) {keys : List Bytes} (hkeys : ∀ k ∈ keys, k ∈ s.entries)
    (hnodup : keys.Nodup) {l : RangeLoop Bytes} (hseen : ∀ k ∈ keys, k ∉ l.seen)
    (acc : EvictScan) :
    CacheGoes i s (.scan l acc) s
      (match keys.foldlM m.evictVisit acc with
        | .ok acc' => .scan { l with seen := keys.reverse ++ l.seen } acc'
        | .error _ => .idle) := by
  induction keys generalizing l acc with
  | nil => exact .refl
  | cons k keys ih =>
      obtain ⟨hk, hnodup⟩ := List.nodup_cons.mp hnodup
      have hvisit := goes_visit (i := i) h (hkeys k List.mem_cons_self)
        (hseen k List.mem_cons_self) acc
      rw [List.foldlM_cons]
      cases hv : m.evictVisit acc k with
      | error e =>
          rw [hv] at hvisit
          exact hvisit
      | ok acc₁ =>
          rw [hv] at hvisit
          refine hvisit.trans ?_
          have hrest := ih (fun k' hk' => hkeys k' (List.mem_cons_of_mem k hk')) hnodup
            (l := { l with seen := k :: l.seen }) (fun k' hk' hmem => ?_) acc₁
          · rw [List.reverse_cons, List.append_assoc]
            exact hrest
          · rcases List.mem_cons.mp hmem with rfl | hmem
            · exact hk hk'
            · exact hseen k' (List.mem_cons_of_mem k hk') hmem

/-- **Eviction by itself**; a panic leaves the cache as it was. -/
theorem leaves_gate (h : Represents s m) (order : List Bytes) :
    Leaves i s .gate
      (match m.evictIfFull order with
        | .ok m' => m'
        | .error _ => m) := by
  by_cases hroom : m.profileEntries ≤ m.maxProfiles
  · have hev : m.evictIfFull order = .ok m := by rw [CacheManager.evictIfFull, if_pos hroom]
    rw [hev]
    refine CacheGoes.leaves (.one (a := .go) ?_) (.idle h)
    simp [cachePcStep, h.profileEntries, h.maxProfiles, hroom]
  · have hgate : CacheGoes i s .gate s (.scan (RangeLoop.start s.entries) {}) := by
      refine .one (a := .go) ?_
      simp [cachePcStep, h.profileEntries, h.maxProfiles, hroom]
    have hkeys : ∀ k ∈ m.visitOrder order, k ∈ s.entries :=
      fun k hk => (mem_entries_iff h).mpr (CacheManager.mem_visitOrder.mp hk)
    have hscan := goes_scan (i := i) h hkeys (m.visitOrder_nodup order)
      (l := RangeLoop.start s.entries) (fun _ _ => List.not_mem_nil) {}
    refine (hgate.trans hscan).leaves ?_
    cases hfold : (m.visitOrder order).foldlM m.evictVisit {} with
    | error e =>
        have hev : m.evictIfFull order = .error e := by
          rw [CacheManager.evictIfFull, if_neg hroom, hfold]
          rfl
        rw [hev]
        exact .idle h
    | ok acc =>
        have hev : m.evictIfFull order = if acc.evictKey ≠ [] then
            .ok ((m.delete acc.evictKey).addEntries (-1)) else .ok m := by
          rw [CacheManager.evictIfFull, if_neg hroom, hfold]
          rfl
        -- `visitOrder` lists every key, so the `Range` owes no more looks.
        have hfinished : RangeLoop.finished
            ⟨s.entries.keys, (m.visitOrder order).reverse⟩ = true := by
          refine RangeLoop.finished_of_subset fun k hk => List.mem_reverse.mpr ?_
          exact CacheManager.mem_visitOrder.mpr ((mem_entries_iff h).mp hk)
        rw [hev]
        by_cases hkey : acc.evictKey = []
        · rw [if_neg (not_not.mpr hkey)]
          refine CacheGoes.leaves (.one (a := .go) ?_) (.idle h)
          simp [cachePcStep, RangeLoop.start, hfinished, hkey]
        · rw [if_pos hkey]
          have hend : CacheGoes i s
              (.scan ⟨s.entries.keys, (m.visitOrder order).reverse ++ []⟩ acc) s
              (.delete acc.evictKey (.count (-1) .idle)) := by
            refine .one (a := .go) ?_
            simp [cachePcStep, hfinished, hkey]
          exact hend.leaves (.delete (.count (.idle ((h.delete acc.evictKey).count (-1)))))

/-! ## The calls -/

/-- An insertion by itself. -/
theorem leaves_loadOrStore (h : Represents s m) (hnew : m.load key = none) (e : ProfileEntry)
    (order : List Bytes) :
    Leaves i s (.loadOrStore key e)
      (match m.insertNew key e order with
        | .ok m' => m'
        | .error _ => m.inserted key e) := by
  have hout : key ∉ s.entries := AList.lookup_eq_none.mp (h.lookup_of_load_none hnew)
  have hstore : CacheGoes i s (.loadOrStore key e) (s.store key e) (.count 1 (.mark .gate)) :=
    .one (a := .go) (if_neg hout)
  have hrep : Represents _ (m.inserted key e) := ((h.store key e).count 1).mark
  exact hstore.leaves (.count (.mark (leaves_gate hrep order)))

theorem leaves_storeProfile (h : Represents s m) (key : Bytes) (profile : RealityProfile)
    (order : List Bytes) :
    Leaves i s (.loadOrStore key (freshEntry profile s.baseTTL))
      ((CacheMethod.storeProfile key profile order).after m) := by
  rw [h.baseTTL]
  cases hload : m.load key with
  | some e =>
      have hin : key ∈ s.entries := (mem_entries_iff h).mpr ⟨e, hload⟩
      have hkept : (CacheMethod.storeProfile key profile order).after m = m := by
        simp only [CacheMethod.after, CacheManager.storeProfile, hload]
      rw [hkept]
      exact CacheGoes.leaves (.one (a := .go) (if_pos hin)) (.idle h)
  | none =>
      have hinsert := leaves_loadOrStore (i := i) h hload (freshEntry profile m.baseTTL) order
      simp only [CacheMethod.after, CacheManager.storeProfile, hload]
      cases hev : m.insertNew key (freshEntry profile m.baseTTL) order with
      | ok m' =>
          rw [hev] at hinsert
          exact hinsert
      | error e =>
          rw [hev] at hinsert
          exact hinsert

/-- The load of an entry that is there, and its critical section. -/
theorem goes_hit (h : Represents s m) (hload : m.load key = some e) (use : EntryUse) (now : Int) :
    ∃ r, s.entries.lookup key = some r ∧
      CacheGoes i s (.load key use) (useLocked s key r e now use).1
        (useLocked s key r e now use).2 := by
  obtain ⟨r, hr, he⟩ := h.lookup_of_load hload
  have hfind : CacheGoes i s (.load key use) s (.hit key r use) := by
    refine .one (a := .go) ?_
    simp [cachePcStep, hr]
  have hlock : CacheGoes i s (.hit key r use) (useLocked s key r e now use).1
      (useLocked s key r e now use).2 := by
    refine .one (a := .clock now) ?_
    simp [cachePcStep, h.unlocked, he]
  exact ⟨r, hr, hfind.trans hlock⟩

theorem goes_miss (h : Represents s m) (hload : m.load key = none) (use : EntryUse) :
    CacheGoes i s (.load key use) s (use.missed key m.baseTTL) := by
  refine .one (a := .go) ?_
  simp [cachePcStep, h.lookup_of_load_none hload, h.baseTTL]

theorem leaves_storeObservation (h : Represents s m) (key : Bytes) (obs : RealityProfile)
    (now : Int) (order : List Bytes) :
    Leaves i s ((ConcurrentCall.storeObservation key obs).start s)
      ((CacheMethod.storeObservation key obs now order).after m) := by
  simp only [ConcurrentCall.start, CacheMethod.after, CacheManager.storeRecovered,
    CacheManager.storeObservation]
  cases hlens : validateRecordLens obs.recordLens with
  | false => exact .idle h
  | true =>
      simp only [Bool.not_true, Bool.false_eq_true, if_false]
      cases hload : m.load key with
      | some e =>
          obtain ⟨r, hr, hhit⟩ := goes_hit (i := i) h hload (.observe (normalizeObs obs)) now
          refine hhit.leaves ?_
          simp only [useLocked, h.baseTTL]
          split
          · exact .idle h
          · exact .mark (.idle (h.write hr _).mark)
      | none =>
          refine (goes_miss h hload (.observe (normalizeObs obs))).leaves ?_
          generalize hfresh : freshEntry (stampNew (normalizeObs obs)) m.baseTTL = e
          have hinsert := leaves_loadOrStore (i := i) h hload e order
          simp only [EntryUse.missed, hfresh]
          cases hev : m.insertNew key e order with
          | ok m' =>
              rw [hev] at hinsert
              exact hinsert
          | error e =>
              rw [hev] at hinsert
              exact hinsert

theorem leaves_markNegative (h : Represents s m) (key : Bytes) (now : Int) :
    Leaves i s (.load key .negative) (m.markNegative key now) := by
  unfold CacheManager.markNegative
  cases hload : m.load key with
  | some e =>
      obtain ⟨r, hr, hhit⟩ := goes_hit (i := i) h hload .negative now
      exact hhit.leaves (.idle (h.write hr _))
  | none =>
      -- The entry is made outside the map, and then stored over whatever is there.
      have hmake := CacheGoes.one (i := i) (s := s) (p := .negativeNew key) (a := .clock now) rfl
      rw [h.baseTTL] at hmake
      refine ((goes_miss h hload .negative).trans hmake).leaves (.store (.count (.idle ?_)))
      exact (h.store key _).count 1

theorem leaves_quarantine (h : Represents s m) (key : Bytes) (now : Int) :
    Leaves i s (.load key .quarantine) (m.quarantine key now).1 := by
  unfold CacheManager.quarantine
  cases hload : m.load key with
  | some e =>
      obtain ⟨r, hr, hhit⟩ := goes_hit (i := i) h hload .quarantine now
      exact hhit.leaves (.mark (.idle (h.write hr _).mark))
  | none =>
      have hmake := CacheGoes.one (i := i) (s := s) (p := .quarantineNew key) (a := .clock now) rfl
      rw [h.baseTTL] at hmake
      refine ((goes_miss h hload .quarantine).trans hmake).leaves (.store (.count (.mark ?_)))
      exact .idle ((h.store key _).count 1).mark

/-- The sweep holds the lock of the entry while it deletes and counts. -/
theorem leaves_sweep (h : Represents s m) (key : Bytes) (r : Ref) :
    Leaves i { s with locked := r :: s.locked } (.delete key (.count (-1) (.unlock r .idle)))
      ((m.delete key).addEntries (-1)) := by
  have hrep := (h.delete key).count (-1)
  -- The lock that is given back is the one that was taken: the list is as before.
  have hunlock : CacheGoes i
      { (s.delete key) with locked := r :: s.locked, profileEntries := s.profileEntries + -1 }
      (.unlock r .idle)
      { (s.delete key) with profileEntries := s.profileEntries + -1 } .idle := by
    refine .one (a := .go) ?_
    simp [cachePcStep, CacheShared.delete]
  exact .delete (.count (hunlock.leaves (.idle hrep)))

theorem leaves_getProfile (h : Represents s m) (key : Bytes) (now : Int) :
    Leaves i s (.load key .get) ((CacheMethod.getProfile key now).after m) := by
  simp only [CacheMethod.after, CacheManager.getProfile]
  cases hload : m.load key with
  | none => exact (goes_miss h hload .get).leaves (.idle h)
  | some e =>
      obtain ⟨r, hr, hhit⟩ := goes_hit (i := i) h hload .get now
      refine hhit.leaves ?_
      simp only [useLocked, getLocked]
      cases hstate : e.state with
      | valid =>
          cases hp : e.profile with
          | none => exact .idle h
          | some p =>
              by_cases hfresh : timeSub now p.capturedAt < e.ttl
              · simp only [hfresh, if_true]
                exact .idle h
              · simp only [hfresh, if_false]
                exact .idle (h.write hr _)
      | negative =>
          by_cases hwait : now < e.nextRetry
          · simp only [hwait, if_true]
            exact .idle h
          · simp only [hwait, if_false]
            exact leaves_sweep h key r
      | _ => exact .idle h

theorem leaves_invalidateProfile (h : Represents s m) (key : Bytes) :
    Leaves i s (.find key) (m.invalidateProfile key) := by
  unfold CacheManager.invalidateProfile
  cases hload : m.load key with
  | none =>
      refine CacheGoes.leaves (.one (a := .go) ?_) (.idle h)
      simp [cachePcStep, h.lookup_of_load_none hload]
  | some e =>
      obtain ⟨r, hr, he⟩ := h.lookup_of_load hload
      have hfind : CacheGoes i s (.find key) s (.compareAndDelete key r) := by
        refine .one (a := .go) ?_
        simp [cachePcStep, hr]
      have hdelete : CacheGoes i s (.compareAndDelete key r) (s.delete key)
          (.count (-1) (.mark .idle)) := .one (a := .go) (if_pos hr)
      refine (hfind.trans hdelete).leaves (.count (.mark (.idle ?_)))
      exact ((h.delete key).count (-1)).mark

/-- The loop of `InvalidateAll`: the keys not yet visited are still there. -/
theorem goes_all (h : Represents s m) {keys : List Bytes} (hkeys : ∀ k ∈ keys, k ∈ s.entries)
    (hnodup : keys.Nodup) {l : RangeLoop Bytes} (hseen : ∀ k ∈ keys, k ∉ l.seen) :
    ∃ s', CacheGoes i s (.all l) s' (.all { l with seen := keys.reverse ++ l.seen }) ∧
      Represents s' (keys.foldl (fun m k => (m.delete k).addEntries (-1)) m) := by
  induction keys generalizing s m l with
  | nil => exact ⟨s, .refl, h⟩
  | cons k keys ih =>
      obtain ⟨hk, hnodup⟩ := List.nodup_cons.mp hnodup
      obtain ⟨r, hr⟩ := Option.isSome_iff_exists.mp
        (AList.lookup_isSome.mpr (hkeys k List.mem_cons_self))
      have hnew : k ∉ l.seen := hseen k List.mem_cons_self
      have hlook : CacheGoes i s (.all l) s
          (.delete k (.count (-1) (.all { l with seen := k :: l.seen }))) := by
        refine .one (a := .look k) ?_
        simp [cachePcStep, RangeLoop.look, hnew, hr]
      have hdelete := CacheGoes.one (i := i) (s := s) (a := .go)
        (p := .delete k (.count (-1) (.all { l with seen := k :: l.seen }))) rfl
      have hcount := CacheGoes.one (i := i) (s := s.delete k) (a := .go)
        (p := .count (-1) (.all { l with seen := k :: l.seen })) rfl
      -- A deletion takes its own key and no other.
      have hleft : ∀ k' ∈ keys, k' ∈ (s.delete k).entries := by
        intro k' hk'
        have hne : k' ≠ k := fun heq => hk (heq ▸ hk')
        exact AList.mem_erase.mpr ⟨hne, hkeys k' (List.mem_cons_of_mem k hk')⟩
      obtain ⟨s', hrest, hrep⟩ := ih ((h.delete k).count (-1)) hleft hnodup
        (l := { l with seen := k :: l.seen }) (fun k' hk' hmem => by
          rcases List.mem_cons.mp hmem with rfl | hmem
          · exact hk hk'
          · exact hseen k' (List.mem_cons_of_mem k hk') hmem)
      refine ⟨s', ((hlook.trans hdelete).trans hcount).trans ?_, hrep⟩
      rw [List.reverse_cons, List.append_assoc]
      exact hrest

theorem leaves_invalidateAll (h : Represents s m) (order : List Bytes) :
    Leaves i s (.all (RangeLoop.start s.entries)) (m.invalidateAll order) := by
  have hkeys : ∀ k ∈ m.visitOrder order, k ∈ s.entries :=
    fun k hk => (mem_entries_iff h).mpr (CacheManager.mem_visitOrder.mp hk)
  obtain ⟨s', hall, hrep⟩ := goes_all (i := i) h hkeys (m.visitOrder_nodup order)
    (l := RangeLoop.start s.entries) (fun _ _ => List.not_mem_nil)
  have hfinished : RangeLoop.finished
      ⟨s.entries.keys, (m.visitOrder order).reverse ++ []⟩ = true := by
    refine RangeLoop.finished_of_subset fun k hk => ?_
    rw [List.append_nil, List.mem_reverse]
    exact CacheManager.mem_visitOrder.mpr ((mem_entries_iff h).mp hk)
  have hend : CacheGoes i s' (.all ⟨s.entries.keys, (m.visitOrder order).reverse ++ []⟩) s'
      (.mark .idle) := .one (a := .go) (if_pos hfinished)
  exact (hall.trans hend).leaves (.mark (.idle hrep.mark))

/-- The method a call is a call of, when it reads the clock at `now` and its
loops visit the keys in `order`. -/
def ConcurrentCall.method (now : Int) (order : List Bytes) : ConcurrentCall → CacheMethod
  | .storeProfile key p => .storeProfile key p order
  | .storeObservation key obs => .storeObservation key obs now order
  | .hotSwapProfile key p => .hotSwapProfile key p
  | .markNegative key => .markNegative key now
  | .quarantine key => .quarantine key now
  | .getProfile key => .getProfile key now
  | .invalidateProfile key => .invalidateProfile key
  | .invalidateAll => .invalidateAll order

/-- **A call by itself does what the method does.** -/
theorem leaves_call (h : Represents s m) (c : ConcurrentCall) (now : Int) (order : List Bytes) :
    Leaves i s .idle ((c.method now order).after m) := by
  refine CacheGoes.leaves (.one (a := .call c) rfl) ?_
  cases c with
  | storeProfile key p => exact leaves_storeProfile h key p order
  | storeObservation key obs => exact leaves_storeObservation h key obs now order
  | hotSwapProfile key p =>
      refine .store (.mark (.idle ?_))
      rw [h.baseTTL]
      exact (h.store key _).mark
  | markNegative key => exact leaves_markNegative h key now
  | quarantine key => exact leaves_quarantine h key now
  | getProfile key => exact leaves_getProfile h key now
  | invalidateProfile key => exact leaves_invalidateProfile h key
  | invalidateAll => exact leaves_invalidateAll h order

end Calls

/-! ## Runs of the machine -/

section Runs

variable {ι : Type} [DecidableEq ι] {s : CacheThreads ι} {m : CacheManager}

theorem call_run {i : ι} (hidle : s.pc i = .idle) (h : Represents s.shared m)
    (c : ConcurrentCall) (now : Int) (order : List Bytes) :
    ∃ tr s', (concurrentMachine ι).Run s tr s' ∧ (∀ x ∈ tr, x.1.1 = i) ∧ s'.pc = s.pc ∧
      Represents s'.shared ((c.method now order).after m) := by
  obtain ⟨sh', ⟨tr, hsolo⟩, hrep⟩ := leaves_call (i := i) h c now order
  have hrun := hsolo.append_run (concurrentMachine ι) (fun a => (i, a)) (fun _ _ => rfl) rfl hidle
    .nil
  rw [← hidle, Function.update_eq_self, List.nil_append] at hrun
  refine ⟨_, _, hrun, ?_, rfl, hrep⟩
  intro x hx
  obtain ⟨y, -, rfl⟩ := List.mem_map.mp hx
  rfl

/-- **Serial runs.** Calls that are made one after the other, each by any
thread, are a run of the machine, and leave what the methods leave. -/
theorem calls_run (hidle : ∀ i, s.pc i = .idle) (h : Represents s.shared m)
    (calls : List (ι × ConcurrentCall × Int × List Bytes)) :
    ∃ tr s', (concurrentMachine ι).Run s tr s' ∧ s'.pc = s.pc ∧
      Represents s'.shared
        (calls.foldl (fun m x => (x.2.1.method x.2.2.1 x.2.2.2).after m) m) := by
  induction calls generalizing s m with
  | nil => exact ⟨[], s, .nil, rfl, h⟩
  | cons x calls ih =>
      obtain ⟨i, c, now, order⟩ := x
      obtain ⟨tr₁, s₁, hrun₁, -, hpc₁, hrep₁⟩ := call_run (hidle i) h c now order
      obtain ⟨tr₂, s₂, hrun₂, hpc₂, hrep₂⟩ := ih (fun j => hpc₁ ▸ hidle j) hrep₁
      exact ⟨tr₁ ++ tr₂, s₂, hrun₁.trans hrun₂, hpc₂.trans hpc₁, hrep₂⟩

/-- Whatever the methods can make of a new cache, the machine can. -/
theorem calls_run_start (calls : List (ι × ConcurrentCall × Int × List Bytes)) :
    ∃ tr s', (concurrentMachine ι).Run (cacheThreadsStart ι) tr s' ∧ (∀ i, s'.pc i = .idle) ∧
      Represents s'.shared
        (calls.foldl (fun m x => (x.2.1.method x.2.2.1 x.2.2.2).after m) newCacheManager) := by
  obtain ⟨tr, s', hrun, hpc, hrep⟩ :=
    calls_run (s := cacheThreadsStart ι) (fun _ => rfl) Represents.start calls
  exact ⟨tr, s', hrun, fun i => by rw [hpc]; rfl, hrep⟩

end Runs

end Reality
