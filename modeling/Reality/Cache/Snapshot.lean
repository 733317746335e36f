import Reality.Cache.NilProfile

/-!
# What a snapshot shows

`SnapshotProfiles` (cache_manager.go) copies the profiles that are worth a
place in the file: the entry is not negative, has a profile, and the profile is
not past its TTL. `visible` is that filter on one entry, and what an operation
does to the snapshot is what it does to `visible`.

`MarkDirty` is called by hand at the end of the operations that change the
cache. Nearly all of them do. `MarkNegative` takes an entry OUT of the snapshot
and does not, and `MarkStale` changes a TTL the filter reads and does not.
-/

namespace Reality

open Kit

/-! ## The filter -/

/-- The profile `SnapshotProfiles` copies from an entry, if it copies one. -/
def ProfileEntry.visible (e : ProfileEntry) (now : Int) : Option RealityProfile :=
  if e.state = .negative then none
  else e.profile.filter fun p => timeSub now p.capturedAt ≤ e.ttl

theorem ProfileEntry.visible_negative {e : ProfileEntry} (h : e.state = .negative) (now : Int) :
    e.visible now = none := by
  rw [visible, if_pos h]

theorem ProfileEntry.visible_hollow {e : ProfileEntry} (h : e.profile = none) (now : Int) :
    e.visible now = none := by
  rw [visible, h]
  split <;> rfl

theorem ProfileEntry.visible_of_profile {e : ProfileEntry} {p : RealityProfile}
    (hs : e.state ≠ .negative) (hp : e.profile = some p) (now : Int) :
    e.visible now = if timeSub now p.capturedAt ≤ e.ttl then some p else none := by
  rw [visible, if_neg hs, hp, Option.filter_some]
  simp only [decide_eq_true_eq]

/-- The filter reads the state only to tell whether it is negative. -/
theorem ProfileEntry.visible_congr {e e' : ProfileEntry}
    (hs : e'.state = .negative ↔ e.state = .negative) (hp : e'.profile = e.profile)
    (ht : e'.ttl = e.ttl) (now : Int) : e'.visible now = e.visible now := by
  unfold visible
  rw [hp, ht]
  simp only [hs]

namespace CacheManager

variable {m m' : CacheManager} {key k : Bytes} {now : Int}

/-- The profile the snapshot has for a key. -/
def visible (m : CacheManager) (now : Int) (k : Bytes) : Option RealityProfile :=
  (m.load k).bind (·.visible now)

theorem snapshotVisit_eq (m : CacheManager) (now : Int) (snap : List (Bytes × RealityProfile))
    (k : Bytes) :
    m.snapshotVisit now snap k = .ok (snap ++ ((m.visible now k).map (k, ·)).toList) := by
  unfold snapshotVisit visible
  cases m.load k with
  | none => simp
  | some e =>
      by_cases hneg : e.state = .negative
      · simp [hneg, e.visible_negative hneg]
      · cases hp : e.profile with
        | none => simp [hp, e.visible_hollow hp]
        | some p =>
            simp only [hneg, hp, decide_false, Option.isNone_some, Bool.or_self, Bool.false_eq_true,
              if_false, ProfileEntry.deref, Except.map, Option.bind_some,
              e.visible_of_profile hneg hp, gt_iff_lt, ← not_le]
            split <;> simp_all

/-- The snapshot is the visible profiles, in the order of the visits. -/
theorem snapshotProfiles_eq (m : CacheManager) (now : Int) (order : List Bytes) :
    m.snapshotProfiles now order
      = .ok ((m.visitOrder order).filterMap fun k => (m.visible now k).map (k, ·)) := by
  have hfold : ∀ (keys : List Bytes) (snap : List (Bytes × RealityProfile)),
      keys.foldlM (m.snapshotVisit now) snap
        = .ok (snap ++ keys.filterMap fun k => (m.visible now k).map (k, ·)) := by
    intro keys
    induction keys with
    | nil => intro snap; simp [pure, Except.pure]
    | cons k keys ih =>
        intro snap
        rw [List.foldlM_cons, snapshotVisit_eq]
        show keys.foldlM (m.snapshotVisit now) _ = _
        rw [ih]
        cases hv : m.visible now k <;> simp [hv]
  rw [snapshotProfiles, hfold, List.nil_append]

theorem visible_of_load_none (h : m.load k = none) (now : Int) : m.visible now k = none := by
  rw [visible, h]
  rfl

/-- A list of pairs made from keys by one function answers for its keys. -/
theorem lookup_filterMap (f : Bytes → Option RealityProfile) (keys : List Bytes) (k : Bytes) :
    (keys.filterMap fun k => (f k).map (k, ·)).lookup k = if k ∈ keys then f k else none := by
  induction keys with
  | nil => rfl
  | cons k' keys ih =>
      by_cases hk : k = k'
      · subst hk
        cases hf : f k with
        | none => simp [hf, ih]
        | some p => simp [hf]
      · cases hf : f k' with
        | none => simp [hf, ih, hk]
        | some p =>
            have hbeq : (k == k') = false := by simpa using hk
            simp [hf, ih, hk, List.lookup_cons, hbeq]

/-- **What the snapshot holds**, whatever the order of the visits. -/
theorem lookup_snapshotProfiles {order : List Bytes} {s : List (Bytes × RealityProfile)}
    (h : m.snapshotProfiles now order = .ok s) (k : Bytes) : s.lookup k = m.visible now k := by
  rw [snapshotProfiles_eq] at h
  cases h
  rw [lookup_filterMap]
  split
  · rfl
  next hk =>
    refine (visible_of_load_none ?_ now).symm
    rw [mem_visitOrder] at hk
    cases hl : m.load k with
    | none => rfl
    | some e => exact absurd ⟨e, hl⟩ hk

/-- The snapshots of two caches, taken at one time, differ at some key. -/
def SnapshotsDiffer (now : Int) (m m' : CacheManager) : Prop :=
  ∃ order order' s s' k, m.snapshotProfiles now order = .ok s ∧
    m'.snapshotProfiles now order' = .ok s' ∧ s.lookup k ≠ s'.lookup k

theorem snapshotsDiffer_iff :
    SnapshotsDiffer now m m' ↔ ∃ k, m.visible now k ≠ m'.visible now k := by
  constructor
  · rintro ⟨order, order', s, s', k, hs, hs', hne⟩
    rw [lookup_snapshotProfiles hs, lookup_snapshotProfiles hs'] at hne
    exact ⟨k, hne⟩
  · rintro ⟨k, hne⟩
    have hs := snapshotProfiles_eq m now []
    have hs' := snapshotProfiles_eq m' now []
    refine ⟨[], [], _, _, k, hs, hs', ?_⟩
    rwa [lookup_snapshotProfiles hs, lookup_snapshotProfiles hs']

end CacheManager

end Reality
