import Reality.Cache.Snapshot

/-!
# Changes the dirty counter knows of

Every method of the cache manager (cache_manager.go, amortize_cache.go), and
whether it counts what it does to the snapshot. `Tracked` is what the code is
meant to keep: the counter never falls, and while it stands still nothing a
snapshot shows has changed. It composes, so a method that calls others has it
from theirs.

The `dirty` counter is compared with `persisted` to decide whether a `Save`
writes at all. A change that is not counted stays out of the file until some
OTHER change is.
-/

namespace Reality

open Kit

namespace CacheManager

/-! ## The remaining methods -/

/-- `IsDirty` -/
def isDirty (m : CacheManager) : Bool := m.persisted < m.dirty

/-- `PersistSnapshot` -/
def persistSnapshot (m : CacheManager) (snap : Int) : CacheManager := { m with persisted := snap }

/-- `ClearDirty` -/
def clearDirty (m : CacheManager) : CacheManager := { m with persisted := m.dirty }

/-- `InvalidateAll`: the callback deletes the key it is called with. -/
def invalidateAll (m : CacheManager) (order : List Bytes) : CacheManager :=
  ((m.visitOrder order).foldl (fun m k => (m.delete k).addEntries (-1)) m).markDirty

/-- Whether `InvalidateAndReprobe` collects a key. -/
def reprobeMatches (dest serverName alpn key : Bytes) : Bool :=
  match parseCacheKeyV2 key with
  | some (d, sn, a, _, _) => (dest = [] || d = dest) && sn = serverName && a = alpn
  | none => (parseCacheKey key).1 = serverName && (parseCacheKey key).2.1 = alpn

/-- `InvalidateAndReprobe`: the legacy key, then every key that was collected.
What the probe finds is not stored. -/
def invalidateAndReprobe (m : CacheManager) (dest serverName alpn : Bytes)
    (order : List Bytes) : CacheManager :=
  let m := m.invalidateProfile (cacheKey serverName alpn versionTLS13)
  ((m.visitOrder order).filter (reprobeMatches dest serverName alpn)).foldl invalidateProfile m

/-- `Reset` -/
def reset (m : CacheManager) (order : List Bytes) : CacheManager :=
  { (m.visitOrder order).foldl delete m with profileEntries := 0 }.clearDirty

end CacheManager

/-- A call of a method of the manager. `read` stands for every method that only
looks; `evictIfFull` is no method of its own, the insertions call it. -/
inductive CacheMethod where
  | storeProfile (key : Bytes) (profile : RealityProfile) (order : List Bytes)
  | storeObservation (key : Bytes) (obs : RealityProfile) (t : Int) (order : List Bytes)
  | hotSwapProfile (key : Bytes) (profile : RealityProfile)
  | markStale (key : Bytes)
  | markNegative (key : Bytes) (t : Int)
  | quarantine (key : Bytes) (t : Int)
  | noteHandshakeFailure (key : Bytes) (path : AmortizePath) (t : Int)
  | getProfile (key : Bytes) (t : Int)
  | lookupAmortize (q : Query) (t : Int)
  | invalidateProfile (key : Bytes)
  | invalidateKey (key : Bytes)
  | invalidateAndReprobe (dest serverName alpn : Bytes) (order : List Bytes)
  | invalidateAll (order : List Bytes)
  | reset (order : List Bytes)
  | markDirty
  | clearDirty
  | persistSnapshot (snap : Int)
  | read

/-- The cache a call leaves, whether it returns or panics. -/
def CacheMethod.after (m : CacheManager) : CacheMethod → CacheManager
  | .storeProfile key p order =>
      match m.storeProfile key p order with
      | .ok r => r.1
      | .error _ => m.inserted key (freshEntry p m.baseTTL)
  | .storeObservation key obs t order => (m.storeRecovered key obs t order).1
  | .hotSwapProfile key p => m.hotSwapProfile key p
  | .markStale key => m.markStale key
  | .markNegative key t => m.markNegative key t
  | .quarantine key t => (m.quarantine key t).1
  | .noteHandshakeFailure key path t => m.noteHandshakeFailure key path t
  | .getProfile key t =>
      match m.getProfile key t with
      | .ok r => r.1
      | .error _ => m
  | .lookupAmortize q t => (m.lookupAmortize q t).1
  | .invalidateProfile key | .invalidateKey key => m.invalidateProfile key
  | .invalidateAndReprobe dest serverName alpn order =>
      m.invalidateAndReprobe dest serverName alpn order
  | .invalidateAll order => m.invalidateAll order
  | .reset order => m.reset order
  | .markDirty => m.markDirty
  | .clearDirty => m.clearDirty
  | .persistSnapshot snap => m.persistSnapshot snap
  | .read => m

namespace CacheManager

variable {m m' m₁ m₂ m₃ : CacheManager} {key k : Bytes} {now : Int}

/-! ## Changes that are counted -/

/-- From `m` to `m'` nothing a snapshot shows at `now` changed unless the
counter moved. -/
structure Tracked (now : Int) (m m' : CacheManager) : Prop where
  dirty_le : m.dirty ≤ m'.dirty
  same : m'.dirty = m.dirty → ∀ k, m'.visible now k = m.visible now k
  persisted : m'.persisted = m.persisted

theorem Tracked.refl (m : CacheManager) : Tracked now m m := ⟨le_refl _, fun _ _ => rfl, rfl⟩

theorem Tracked.trans (h : Tracked now m₁ m₂) (h' : Tracked now m₂ m₃) : Tracked now m₁ m₃ := by
  refine ⟨h.dirty_le.trans h'.dirty_le, ?_, h'.persisted.trans h.persisted⟩
  intro heq k
  have hle := h.dirty_le
  have hle' := h'.dirty_le
  -- A counter that ends where it began did not move in between.
  rw [h'.same (by omega) k, h.same (by omega) k]

/-- A change with its mark. -/
theorem Tracked.marked (hd : m'.dirty = m.dirty + 1) (hp : m'.persisted = m.persisted) :
    Tracked now m m' :=
  ⟨by omega, fun heq => by omega, hp⟩

/-- A change nobody can see. -/
theorem Tracked.unseen (hd : m'.dirty = m.dirty) (hp : m'.persisted = m.persisted)
    (hv : ∀ k, m'.visible now k = m.visible now k) : Tracked now m m' :=
  ⟨by omega, fun _ => hv, hp⟩

/-- What is tracked and differs has been counted. -/
theorem Tracked.counts (h : Tracked now m m') (hne : SnapshotsDiffer now m m') :
    m.dirty < m'.dirty := by
  obtain ⟨k, hk⟩ := snapshotsDiffer_iff.mp hne
  have hle := h.dirty_le
  by_contra hlt
  exact hk (h.same (by omega) k).symm

theorem Tracked.foldl {f : CacheManager → Bytes → CacheManager}
    (hf : ∀ m k, Tracked now m (f m k)) (keys : List Bytes) (m : CacheManager) :
    Tracked now m (keys.foldl f m) := by
  induction keys generalizing m with
  | nil => exact Tracked.refl m
  | cons k keys ih => exact (hf m k).trans (ih (f m k))

theorem visible_put (m : CacheManager) (key k : Bytes) (e : ProfileEntry) (now : Int) :
    (m.put key e).visible now k = if k = key then e.visible now else m.visible now k := by
  unfold visible
  rw [load_put]
  split <;> rfl

theorem visible_delete (m : CacheManager) (key k : Bytes) (now : Int) :
    (m.delete key).visible now k = if k = key then none else m.visible now k := by
  unfold visible
  rw [load_delete]
  split <;> rfl

theorem visible_put_same {e e' : ProfileEntry} (hl : m.load key = some e)
    (hv : e'.visible now = e.visible now) (k : Bytes) :
    (m.put key e').visible now k = m.visible now k := by
  rw [visible_put]
  split
  next hk =>
    subst hk
    rw [visible, hl, hv]
    rfl
  · rfl

/-! ## Method by method -/

theorem insertNew_tracked {e : ProfileEntry} {order : List Bytes}
    (h : m.insertNew key e order = .ok m') : Tracked now m m' := by
  have hin : Tracked now m (m.inserted key e) := Tracked.marked rfl rfl
  -- What the eviction takes with it is covered by the mark of the insertion.
  rcases evictIfFull_cases h with rfl | ⟨-, k, rfl⟩
  · exact hin
  · exact Tracked.marked rfl rfl

theorem storeProfile_tracked (m : CacheManager) (key : Bytes) (p : RealityProfile)
    (order : List Bytes) : Tracked now m ((CacheMethod.storeProfile key p order).after m) := by
  show Tracked now m (match m.storeProfile key p order with | .ok r => r.1 | .error _ => _)
  cases h : m.storeProfile key p order with
  | error e => exact Tracked.marked rfl rfl
  | ok r =>
      obtain ⟨m', b⟩ := r
      rcases storeProfile_ok h with ⟨-, rfl⟩ | ⟨-, -, hin⟩
      · exact Tracked.refl _
      · exact insertNew_tracked hin

theorem storeRecovered_tracked (m : CacheManager) (key : Bytes) (obs : RealityProfile) (t : Int)
    (order : List Bytes) : Tracked now m (m.storeRecovered key obs t order).1 := by
  unfold storeRecovered
  cases h : m.storeObservation key obs t order with
  | error e => exact Tracked.marked rfl rfl
  | ok r =>
      obtain ⟨m', o⟩ := r
      rcases storeObservation_ok h with ⟨-, rfl⟩ | ⟨-, ⟨e, -, -, -, rfl⟩ | ⟨-, -, hin⟩⟩
      · exact Tracked.refl _
      · exact Tracked.marked rfl rfl
      · exact insertNew_tracked hin

theorem quarantine_tracked (m : CacheManager) (key : Bytes) (t : Int) :
    Tracked now m (m.quarantine key t).1 := by
  unfold quarantine
  cases m.load key <;> exact Tracked.marked rfl rfl

theorem noteHandshakeFailure_tracked (m : CacheManager) (key : Bytes) (path : AmortizePath)
    (t : Int) : Tracked now m (m.noteHandshakeFailure key path t) := by
  unfold noteHandshakeFailure
  split
  · exact Tracked.refl m
  split
  · exact Tracked.refl m
  cases m.load key with
  | none => exact Tracked.refl m
  | some e =>
      dsimp only
      split
      · exact Tracked.marked rfl rfl
      split <;> exact Tracked.marked rfl rfl

/-- Ageing an entry does not hide it: the filter looks at the TTL, not at the
state that was derived from it. -/
theorem stale_tracked {e : ProfileEntry} (hl : m.load key = some e) (hv : e.state = .valid) :
    Tracked now m (m.put key (e.setState .stale)) := by
  have hs : (e.setState .stale).state = .negative ↔ e.state = .negative := by simp [hv]
  exact Tracked.unseen rfl rfl fun k =>
    visible_put_same hl (ProfileEntry.visible_congr hs rfl rfl now) k

theorem getProfile_tracked (m : CacheManager) (key : Bytes) (t : Int) :
    Tracked now m ((CacheMethod.getProfile key t).after m) := by
  show Tracked now m (match m.getProfile key t with | .ok r => r.1 | .error _ => m)
  cases h : m.getProfile key t with
  | error e => exact Tracked.refl m
  | ok r =>
      obtain ⟨m', p, stale⟩ := r
      rcases getProfile_ok h with rfl | ⟨e, hl, hv, rfl⟩ | ⟨e, hl, hneg, -, rfl⟩
      · exact Tracked.refl _
      · exact stale_tracked hl hv
      · -- The sweep deletes an entry that no snapshot shows.
        refine Tracked.unseen rfl rfl fun k => ?_
        refine (visible_delete m key k now).trans ?_
        split
        next hk =>
          subst hk
          rw [visible, hl]
          exact (e.visible_negative hneg now).symm
        · rfl

theorem lookupAmortize_tracked (m : CacheManager) (q : Query) (t : Int) :
    Tracked now m (m.lookupAmortize q t).1 := by
  refine lookupAmortize_keeps (P := Tracked now m) ?_ (Tracked.refl m)
  intro m₁ mode key h
  rcases probe_fst m₁ mode q t key with heq | ⟨e, hl, hv, heq⟩
  · rw [heq]
    exact h
  · rw [heq]
    exact h.trans (stale_tracked hl hv.1)

theorem invalidateProfile_tracked (m : CacheManager) (key : Bytes) :
    Tracked now m (m.invalidateProfile key) := by
  unfold invalidateProfile
  cases m.load key with
  | none => exact Tracked.refl m
  | some e => exact Tracked.marked rfl rfl

theorem invalidateAndReprobe_tracked (m : CacheManager) (dest serverName alpn : Bytes)
    (order : List Bytes) : Tracked now m (m.invalidateAndReprobe dest serverName alpn order) :=
  (invalidateProfile_tracked m _).trans (Tracked.foldl invalidateProfile_tracked _ _)

theorem foldl_field {β : Type} {f : CacheManager → Bytes → CacheManager} {g : CacheManager → β}
    (hf : ∀ m k, g (f m k) = g m) (keys : List Bytes) (m : CacheManager) :
    g (keys.foldl f m) = g m := by
  induction keys generalizing m with
  | nil => rfl
  | cons k keys ih => rw [List.foldl_cons, ih, hf]

theorem invalidateAll_tracked (m : CacheManager) (order : List Bytes) :
    Tracked now m (m.invalidateAll order) := by
  have hd := foldl_field (f := fun m k => (m.delete k).addEntries (-1)) (g := dirty)
    (fun _ _ => rfl) (m.visitOrder order) m
  have hp := foldl_field (f := fun m k => (m.delete k).addEntries (-1)) (g := persisted)
    (fun _ _ => rfl) (m.visitOrder order) m
  exact Tracked.marked (congrArg (· + 1) hd) hp

/-! ## The methods that do not mark -/

/-- After `MarkNegative` the entry is out of the snapshot. -/
theorem visible_markNegative (m : CacheManager) (key k : Bytes) (t now : Int) :
    (m.markNegative key t).visible now k = if k = key then none else m.visible now k := by
  unfold markNegative
  cases m.load key with
  | none =>
      refine (visible_put m key k _ now).trans ?_
      split
      · exact ProfileEntry.visible_negative rfl now
      · rfl
  | some e =>
      refine (visible_put m key k _ now).trans ?_
      split
      · exact ProfileEntry.visible_negative rfl now
      · rfl

theorem dirty_markNegative (m : CacheManager) (key : Bytes) (t : Int) :
    (m.markNegative key t).dirty = m.dirty := by
  unfold markNegative
  cases m.load key <;> rfl

theorem dirty_markStale (m : CacheManager) (key : Bytes) :
    (m.markStale key).dirty = m.dirty := by
  unfold markStale
  cases m.load key <;> rfl

end CacheManager

/-- The TTL `MarkStale` gives: any score of at least one reaches the cap. -/
theorem ProfileEntry.markStale_ttl (e : ProfileEntry) (baseTTL : Int) :
    (e.markStale baseTTL).ttl =
      if (e.state = .valid ∨ e.state = .stale) ∧ e.stabilityScore < 4 then baseTTL * 2
      else e.ttl := by
  unfold markStale
  simp only [Bool.or_eq_true, decide_eq_true_eq]
  by_cases hs : e.state = .valid ∨ e.state = .stale
  · rw [if_pos hs]
    show ProfileEntry.ttl (if e.stabilityScore < 4 then _ else _) = _
    by_cases hc : e.stabilityScore < 4
    · rw [if_pos hc, if_pos ⟨hs, hc⟩]
      have hcap : min (1 + (e.stabilityScore + 1)) maxTTLMultiplier = 2 := by
        unfold maxTTLMultiplier
        omega
      show baseTTL * (min (1 + (e.stabilityScore + 1)) maxTTLMultiplier : Nat) = _
      rw [hcap]
      rfl
    · rw [if_neg hc, if_neg fun h => hc h.2]
      rfl
  · rw [if_neg hs, if_neg fun h => hs h.1]

theorem ProfileEntry.markStale_negative (e : ProfileEntry) (baseTTL : Int) :
    (e.markStale baseTTL).state = .negative ↔ e.state = .negative := by
  unfold markStale
  simp only [Bool.or_eq_true, decide_eq_true_eq]
  by_cases hs : e.state = .valid ∨ e.state = .stale
  · rw [if_pos hs]
    have hne : e.state ≠ .negative := by rcases hs with h | h <;> simp [h]
    split <;> simp [hne]
  · rw [if_neg hs]

/-- A mark that carries the profile over the line at which the filter drops it. -/
def ProfileEntry.StaleMoves (e : ProfileEntry) (baseTTL now : Int) : Prop :=
  (e.state = .valid ∨ e.state = .stale) ∧ e.stabilityScore < 4 ∧
    ∃ p, e.profile = some p ∧
      (timeSub now p.capturedAt ≤ e.ttl ↔ ¬ timeSub now p.capturedAt ≤ baseTTL * 2)

theorem ProfileEntry.visible_markStale_ne_iff (e : ProfileEntry) (baseTTL now : Int) :
    (e.markStale baseTTL).visible now ≠ e.visible now ↔ e.StaleMoves baseTTL now := by
  by_cases hc : (e.state = .valid ∨ e.state = .stale) ∧ e.stabilityScore < 4
  · have hne : e.state ≠ .negative := by rcases hc.1 with h | h <;> simp [h]
    have hne' : (e.markStale baseTTL).state ≠ .negative :=
      fun h => hne ((e.markStale_negative baseTTL).mp h)
    cases hp : e.profile with
    | none =>
        rw [e.visible_hollow hp, ProfileEntry.visible_hollow (by rw [markStale_profile, hp])]
        simp [StaleMoves, hp]
    | some p =>
        rw [e.visible_of_profile hne hp,
          ProfileEntry.visible_of_profile hne' (by rw [markStale_profile, hp]),
          markStale_ttl, if_pos hc]
        by_cases h1 : timeSub now p.capturedAt ≤ e.ttl <;>
          by_cases h2 : timeSub now p.capturedAt ≤ baseTTL * 2 <;>
          simp [StaleMoves, hc, hp, h1, h2, not_le.mp]
  · -- The TTL stays, and the filter reads nothing else that changed.
    have hsame : (e.markStale baseTTL).visible now = e.visible now := by
      refine ProfileEntry.visible_congr (e.markStale_negative baseTTL) ?_ ?_ now
      · rw [markStale_profile]
      · rw [markStale_ttl, if_neg hc]
    constructor
    · intro h
      exact absurd hsame h
    · rintro ⟨h1, h2, -⟩
      exact absurd ⟨h1, h2⟩ hc

namespace CacheManager

theorem load_foldl_delete (keys : List Bytes) (m : CacheManager) (k : Bytes) :
    (keys.foldl delete m).load k = if k ∈ keys then none else m.load k := by
  induction keys generalizing m with
  | nil => simp
  | cons k' keys ih =>
      rw [List.foldl_cons, ih, load_delete]
      by_cases hk : k = k' <;> by_cases hks : k ∈ keys <;> simp [hk, hks]

theorem load_reset (m : CacheManager) (order : List Bytes) (k : Bytes) :
    (m.reset order).load k = none := by
  show (List.foldl delete m _).load k = none
  rw [load_foldl_delete]
  split
  · rfl
  next hk =>
    cases hl : m.load k with
    | none => rfl
    | some e => exact absurd (mem_visitOrder.mpr ⟨e, hl⟩) hk

theorem dirty_reset (m : CacheManager) (order : List Bytes) : (m.reset order).dirty = m.dirty :=
  foldl_field (f := delete) (g := dirty) (fun _ _ => rfl) (m.visitOrder order) m

end CacheManager

/-- The calls that change the snapshot and leave the counter as it is: a
negative mark on an entry the snapshot shows, a stale mark that moves the
expiry over the present, and `Reset` of a cache that shows something. -/
def CacheMethod.Unmarked (m : CacheManager) (now : Int) : CacheMethod → Prop
  | .markNegative key _ => ∃ p, m.visible now key = some p
  | .markStale key => ∃ e, m.load key = some e ∧ e.StaleMoves m.baseTTL now
  | .reset _ => ∃ k p, m.visible now k = some p
  | _ => False

/-- The calls that write the watermark `persisted`. -/
def CacheMethod.movesWatermark : CacheMethod → Bool
  | .reset _ | .clearDirty | .persistSnapshot _ => true
  | _ => false

namespace CacheManager

theorem markNegative_tracked {t : Int} (h : m.visible now key = none) :
    Tracked now m (m.markNegative key t) := by
  refine Tracked.unseen (dirty_markNegative m key t) ?_ fun k => ?_
  · unfold markNegative
    cases m.load key <;> rfl
  · rw [visible_markNegative]
    split
    next hk => rw [hk, h]
    · rfl

theorem markStale_tracked (h : ¬ ∃ e, m.load key = some e ∧ e.StaleMoves m.baseTTL now) :
    Tracked now m (m.markStale key) := by
  unfold markStale
  cases hl : m.load key with
  | none => exact Tracked.refl m
  | some e =>
      refine Tracked.unseen rfl rfl fun k => visible_put_same hl ?_ k
      by_contra hne
      exact h ⟨e, hl, (e.visible_markStale_ne_iff m.baseTTL now).mp hne⟩

end CacheManager

open CacheManager in
/-- A call that is not one of these counts what it changes. -/
theorem CacheMethod.tracked {m : CacheManager} {now : Int} {c : CacheMethod}
    (hc : ¬ c.Unmarked m now) (hw : c.movesWatermark = false) : Tracked now m (c.after m) := by
  cases c with
  | storeProfile key p order => exact storeProfile_tracked m key p order
  | storeObservation key obs t order => exact storeRecovered_tracked m key obs t order
  | hotSwapProfile key p => exact Tracked.marked rfl rfl
  | markStale key => exact markStale_tracked hc
  | markNegative key t =>
      refine markNegative_tracked ?_
      cases hv : m.visible now key with
      | none => rfl
      | some p => exact absurd ⟨p, hv⟩ hc
  | quarantine key t => exact quarantine_tracked m key t
  | noteHandshakeFailure key path t => exact noteHandshakeFailure_tracked m key path t
  | getProfile key t => exact getProfile_tracked m key t
  | lookupAmortize q t => exact lookupAmortize_tracked m q t
  | invalidateProfile key => exact invalidateProfile_tracked m key
  | invalidateKey key => exact invalidateProfile_tracked m key
  | invalidateAndReprobe dest serverName alpn order =>
      exact invalidateAndReprobe_tracked m dest serverName alpn order
  | invalidateAll order => exact invalidateAll_tracked m order
  | reset order => cases hw
  | markDirty => exact Tracked.marked rfl rfl
  | clearDirty => cases hw
  | persistSnapshot snap => cases hw
  | read => exact Tracked.refl m

open CacheManager in
theorem CacheMethod.Unmarked.differs {m : CacheManager} {now : Int} {c : CacheMethod}
    (h : c.Unmarked m now) : SnapshotsDiffer now m (c.after m) ∧ (c.after m).dirty = m.dirty := by
  cases c with
  | markNegative key t =>
      obtain ⟨p, hp⟩ := h
      refine ⟨snapshotsDiffer_iff.mpr ⟨key, ?_⟩, dirty_markNegative m key t⟩
      show m.visible now key ≠ (m.markNegative key t).visible now key
      rw [visible_markNegative, if_pos rfl, hp]
      exact Option.some_ne_none p
  | markStale key =>
      obtain ⟨e, hl, hmoves⟩ := h
      refine ⟨snapshotsDiffer_iff.mpr ⟨key, ?_⟩, dirty_markStale m key⟩
      show m.visible now key ≠ (m.markStale key).visible now key
      rw [CacheManager.markStale, hl, visible_put, if_pos rfl, CacheManager.visible, hl]
      exact ((e.visible_markStale_ne_iff m.baseTTL now).mpr hmoves).symm
  | reset order =>
      obtain ⟨k, p, hp⟩ := h
      refine ⟨snapshotsDiffer_iff.mpr ⟨k, ?_⟩, dirty_reset m order⟩
      show m.visible now k ≠ (m.reset order).visible now k
      rw [visible_of_load_none (load_reset m order k), hp]
      exact Option.some_ne_none p
  | _ => cases h

open CacheManager in
/-- **A call that changes the snapshot moves the dirty counter, but for the
calls listed in `Unmarked`.** -/
theorem snapshot_change_marked_iff (m : CacheManager) (now : Int) (c : CacheMethod) :
    (SnapshotsDiffer now m (c.after m) → m.dirty < (c.after m).dirty) ↔ ¬ c.Unmarked m now := by
  constructor
  · intro h hc
    obtain ⟨hdiff, hdirty⟩ := hc.differs
    exact absurd (h hdiff) (by omega)
  · intro hc hdiff
    by_cases hw : c.movesWatermark = true
    · -- Reset apart, these leave the entries alone; a reset of nothing visible shows nothing.
      obtain ⟨k, hk⟩ := snapshotsDiffer_iff.mp hdiff
      cases c with
      | clearDirty => exact absurd rfl hk
      | persistSnapshot snap => exact absurd rfl hk
      | reset order =>
          have hnone : (m.reset order).visible now k = none :=
            visible_of_load_none (load_reset m order k) now
          cases hv : m.visible now k with
          | none => exact absurd (hv.trans hnone.symm) hk
          | some p => exact absurd ⟨k, p, hv⟩ hc
      | _ => cases hw
    · exact (CacheMethod.tracked hc (by simpa using hw)).counts hdiff

/-- A fresh profile is stored and saved; one failed probe later the snapshot is
empty and nothing is dirty. -/
theorem failed_probe_unmarked :
    ∃ (m : CacheManager) (s : List (Bytes × RealityProfile)),
      m = (newCacheManager.hotSwapProfile (str "a") { capturedAt := 5 }).clearDirty ∧
      m.snapshotProfiles 10 [] = .ok s ∧ s.lookup (str "a") = some { capturedAt := 5 } ∧
      (m.markNegative (str "a") 10).snapshotProfiles 10 [] = .ok [] ∧
      (m.markNegative (str "a") 10).dirty = m.dirty ∧
      (m.markNegative (str "a") 10).isDirty = false := by
  refine ⟨_, [(str "a", { capturedAt := 5 })], rfl, ?_, ?_, ?_, ?_, ?_⟩ <;> decide +kernel

/-! ## Runs of calls -/

/-- Calls one after the other. -/
def methodMachine : Machine CacheManager CacheMethod Unit := ⟨fun m c => some (c.after m, ())⟩

open CacheManager in
/-- While nothing is dirty, the snapshot is the one it was when the watermark
was last set. -/
theorem clean_run_keeps_snapshot {m₀ m : CacheManager} {now : Int}
    {tr : List (CacheMethod × Unit)} (hsaved : m₀.persisted = m₀.dirty)
    (hrun : methodMachine.Meets
      (fun _ m c => ¬ c.Unmarked m now ∧ c.movesWatermark = false) m₀ tr m)
    (hdiff : SnapshotsDiffer now m₀ m) : m.isDirty = true := by
  have htracked : Tracked now m₀ m := by
    refine hrun.invariant (I := fun _ m => Tracked now m₀ m) (Tracked.refl m₀) ?_
    intro tr m c m' u hi hc hs
    cases hs
    exact hi.trans (CacheMethod.tracked hc.1 hc.2)
  have hlt := htracked.counts hdiff
  rw [isDirty, htracked.persisted, hsaved]
  exact decide_eq_true hlt

end Reality
