import Reality.Kit.SyncMap
import Reality.Store.Save

/-!
# Saves among mutations

`Save` (profile_persist.go) taken apart: the check for dirtiness OUTSIDE the
store's mutex, the watermark, the reads of the snapshot one entry at a time,
the file, and the watermark made persistent. Other threads change entries and
mark the cache dirty between any two of these steps. A mutation is a change of
an entry and, later, a mark by the same thread; what lies between the two, and
whether a change is marked at all, is left open, so that every method of the
cache is an instance.

The argument is an ORDER of events. A mark that the watermark counts came
before the watermark was read, its change came before the mark, and every read
of the snapshot comes after. So when the persistent watermark has caught up
with the counter, no marked change is later than the read that put its key into
the file.
-/

namespace Reality

open Kit

/-! ## The machine -/

/-- Where the `Save` that holds the mutex is. -/
inductive SaverPc where
  | idle
  | locked
  /-- `snapDirty` is read. -/
  | marked (w : Int)
  /-- `SnapshotProfiles`, which filters by the clock as it was at its start. -/
  | ranging (w now : Int) (l : RangeLoop Bytes) (snap : List (Bytes × RealityProfile))
  | writing (w now : Int) (snap : List (Bytes × RealityProfile))
  | renamed (w : Int)

/-- A file this process has written, with the clock reading its snapshot was
filtered by. -/
structure SavedFile where
  file : ProfileFile
  takenAt : Int

structure EpochState where
  cache : CacheManager := newCacheManager
  /-- Calls of `Save` that found the cache dirty and wait for the mutex. -/
  waiting : Nat := 0
  saver : SaverPc := .idle
  saved : Option SavedFile := none

inductive EpochAct (ι : Type) where
  | put (i : ι) (key : Bytes) (e : ProfileEntry)
  | delete (i : ι) (key : Bytes)
  | mark (i : ι)
  | check
  | lock
  | watermark
  | snapshot (now : Int)
  | read (key : Bytes)
  | endRange
  | replace (savedAt : Int)
  | persist
  deriving DecidableEq

variable {ι : Type}

/-- What one visit adds to a snapshot. -/
def addVisible (now : Int) (snap : List (Bytes × RealityProfile)) (key : Bytes)
    (found : Option ProfileEntry) : List (Bytes × RealityProfile) :=
  snap ++ ((found.bind (·.visible now)).map (key, ·)).toList

def epochStep (s : EpochState) : EpochAct ι → Option EpochState
  | .put _ key e => some { s with cache := s.cache.put key e }
  | .delete _ key => some { s with cache := s.cache.delete key }
  | .mark _ => some { s with cache := s.cache.markDirty }
  -- `IsDirty()` is read before the mutex is taken.
  | .check => some (if s.cache.isDirty then { s with waiting := s.waiting + 1 } else s)
  | .lock =>
      match s.saver with
      | .idle =>
          if 0 < s.waiting then
            some { s with waiting := s.waiting - 1, saver := .locked }
          else none
      | _ => none
  | .watermark =>
      match s.saver with
      | .locked => some { s with saver := .marked s.cache.dirty }
      | _ => none
  | .snapshot now =>
      match s.saver with
      | .marked w => some { s with saver := .ranging w now (RangeLoop.start s.cache.entries) [] }
      | _ => none
  | .read key =>
      match s.saver with
      | .ranging w now l snap =>
          (l.look s.cache.entries key).map fun found =>
            { s with saver := .ranging w now found.1 (addVisible now snap key found.2) }
      | _ => none
  | .endRange =>
      match s.saver with
      | .ranging w now l snap =>
          if l.finished then some { s with saver := .writing w now snap } else none
      | _ => none
  | .replace savedAt =>
      match s.saver with
      | .writing w now snap =>
          some { s with saver := .renamed w, saved := some ⟨profileFile savedAt snap, now⟩ }
      | _ => none
  | .persist =>
      match s.saver with
      | .renamed w => some { s with cache := s.cache.persistSnapshot w, saver := .idle }
      | _ => none

/-- Mutations of threads `ι` and saves, in any order. -/
def epochMachine (ι : Type) : Machine EpochState (EpochAct ι) Unit :=
  ⟨fun s a => (epochStep s a).map fun s' => (s', ())⟩

/-- A trace of the machine. -/
abbrev EpochTrace (ι : Type) : Type := List (EpochAct ι × Unit)

/-- The thread that marks. -/
def EpochAct.marker : EpochAct ι → Option ι
  | .mark i => some i
  | _ => none

/-- `MarkDirty` steps so far. -/
def marks (tr : EpochTrace ι) : Nat := tr.countP fun x => x.1.marker.isSome

/-- `v` is what a snapshot at `now` shows of `k` at some point of the run `tr`
that is not before `tr₀`. -/
def SeenSince (tr₀ tr : EpochTrace ι) (now : Int) (k : Bytes) (v : Option RealityProfile) : Prop :=
  ∃ tr₁ s₁, tr₀ <+: tr₁ ∧ tr₁ <+: tr ∧ (epochMachine ι).Run {} tr₁ s₁ ∧
    v = s₁.cache.visible now k

section Seen

variable {tr₀ tr₀' tr tr' : EpochTrace ι} {now : Int} {k : Bytes} {v : Option RealityProfile}

theorem SeenSince.later (h : SeenSince tr₀ tr now k v) (ht : tr <+: tr') :
    SeenSince tr₀ tr' now k v := by
  obtain ⟨tr₁, s₁, h0, h1, hrun, hv⟩ := h
  exact ⟨tr₁, s₁, h0, h1.trans ht, hrun, hv⟩

theorem SeenSince.earlier (h : SeenSince tr₀ tr now k v) (ht : tr₀' <+: tr₀) :
    SeenSince tr₀' tr now k v := by
  obtain ⟨tr₁, s₁, h0, h1, hrun, hv⟩ := h
  exact ⟨tr₁, s₁, ht.trans h0, h1, hrun, hv⟩

/-- What is read now. -/
theorem SeenSince.current {s : EpochState} (h0 : tr₀ <+: tr) (hrun : (epochMachine ι).Run {} tr s) :
    SeenSince tr₀ tr now k (s.cache.visible now k) :=
  ⟨tr, s, h0, List.prefix_rfl, hrun, rfl⟩

end Seen

/-- The file shows, for every key, something seen since `tr₀`, by a clock that a snapshot
has read. -/
structure FileSince (tr₀ tr : EpochTrace ι) (f : SavedFile) : Prop where
  clock : (.snapshot f.takenAt, ()) ∈ tr
  shows (k : Bytes) : ∃ v, SeenSince tr₀ tr f.takenAt k v ∧
    f.file.profiles.lookup k = v.map persistProfile

theorem FileSince.later {tr₀ tr tr' : EpochTrace ι} {f : SavedFile} (h : FileSince tr₀ tr f)
    (ht : tr <+: tr') : FileSince tr₀ tr' f := by
  refine ⟨ht.subset h.clock, fun k => ?_⟩
  obtain ⟨v, hv, hlookup⟩ := h.shows k
  exact ⟨v, hv.later ht, hlookup⟩

theorem FileSince.earlier {tr₀ tr₀' tr : EpochTrace ι} {f : SavedFile} (h : FileSince tr₀ tr f)
    (ht : tr₀' <+: tr₀) : FileSince tr₀' tr f := by
  refine ⟨h.clock, fun k => ?_⟩
  obtain ⟨v, hv, hlookup⟩ := h.shows k
  exact ⟨v, hv.earlier ht, hlookup⟩

/-! ## The invariant -/

/-- `tr₀` is the run up to where the persistent watermark was read: the
watermark counts its marks, and the file was read after it. -/
structure Settled (tr₀ tr : EpochTrace ι) (s : EpochState) : Prop where
  le : tr₀ <+: tr
  persisted : s.cache.persisted = marks tr₀
  file : 0 < marks tr₀ → ∃ f, s.saved = some f ∧ FileSince tr₀ tr f

/-- The `Save` under way read its watermark at the end of some `trw`, not before
`tr₀`, and everything it has collected since. -/
inductive Collecting (tr₀ tr : EpochTrace ι) (saved : Option SavedFile) : SaverPc → Prop where
  | idle : Collecting tr₀ tr saved .idle
  | locked : Collecting tr₀ tr saved .locked
  | marked {trw : EpochTrace ι} {w : Int} (h0 : tr₀ <+: trw) (h1 : trw <+: tr)
      (hw : w = marks trw) : Collecting tr₀ tr saved (.marked w)
  | ranging {trw : EpochTrace ι} {w now : Int} {l : RangeLoop Bytes}
      {snap : List (Bytes × RealityProfile)} (h0 : tr₀ <+: trw) (h1 : trw <+: tr)
      (hw : w = marks trw) (hclock : (.snapshot now, ()) ∈ tr)
      (hseen : ∀ k, k ∈ l.seen ∨ k ∉ l.todo → SeenSince trw tr now k (snap.lookup k))
      (hnew : ∀ k, k ∉ l.seen → snap.lookup k = none) :
      Collecting tr₀ tr saved (.ranging w now l snap)
  | writing {trw : EpochTrace ι} {w now : Int} {snap : List (Bytes × RealityProfile)}
      (h0 : tr₀ <+: trw) (h1 : trw <+: tr) (hw : w = marks trw)
      (hclock : (.snapshot now, ()) ∈ tr)
      (hseen : ∀ k, SeenSince trw tr now k (snap.lookup k)) :
      Collecting tr₀ tr saved (.writing w now snap)
  | renamed {trw : EpochTrace ι} {w : Int} {f : SavedFile} (h0 : tr₀ <+: trw) (h1 : trw <+: tr)
      (hw : w = marks trw) (hf : saved = some f) (hfile : FileSince trw tr f) :
      Collecting tr₀ tr saved (.renamed w)

structure EpochInv (tr : EpochTrace ι) (s : EpochState) : Prop where
  run : (epochMachine ι).Run {} tr s
  dirty : s.cache.dirty = marks tr
  settled : ∃ tr₀, Settled tr₀ tr s ∧ Collecting tr₀ tr s.saved s.saver

section Invariant

variable {tr₀ tr tr' : EpochTrace ι} {s s' : EpochState}

theorem Settled.later (h : Settled tr₀ tr s) (ht : tr <+: tr')
    (hp : s'.cache.persisted = s.cache.persisted) (hs : s'.saved = s.saved) :
    Settled tr₀ tr' s' := by
  refine ⟨h.le.trans ht, hp.trans h.persisted, ?_⟩
  intro hpos
  obtain ⟨f, hf, hfile⟩ := h.file hpos
  exact ⟨f, hs.trans hf, hfile.later ht⟩

theorem Collecting.later {saved : Option SavedFile} {p : SaverPc}
    (h : Collecting tr₀ tr saved p) (ht : tr <+: tr') : Collecting tr₀ tr' saved p := by
  cases h with
  | idle => exact .idle
  | locked => exact .locked
  | marked h0 h1 hw => exact .marked h0 (h1.trans ht) hw
  | ranging h0 h1 hw hclock hseen hnew =>
      exact .ranging h0 (h1.trans ht) hw (ht.subset hclock) (fun k hk => (hseen k hk).later ht) hnew
  | writing h0 h1 hw hclock hseen =>
      exact .writing h0 (h1.trans ht) hw (ht.subset hclock) fun k => (hseen k).later ht
  | renamed h0 h1 hw hf hfile => exact .renamed h0 (h1.trans ht) hw hf (hfile.later ht)

theorem marks_append (tr : EpochTrace ι) (a : EpochAct ι) (u : Unit) :
    marks (tr ++ [(a, u)]) = marks tr + if a.marker.isSome then 1 else 0 := by
  rw [marks, List.countP_append, List.countP_singleton]
  rfl

theorem marks_le (h : tr₀ <+: tr) : marks tr₀ ≤ marks tr := h.sublist.countP_le

theorem lookup_addVisible (now : Int) (snap : List (Bytes × RealityProfile)) (key k : Bytes)
    (found : Option ProfileEntry) :
    (addVisible now snap key found).lookup k =
      (snap.lookup k).or (if k = key then found.bind (·.visible now) else none) := by
  rw [addVisible, List.lookup_append]
  cases found.bind (·.visible now) with
  | none => simp
  | some p =>
      by_cases hk : k = key
      · subst hk
        simp
      · have hbeq : (k == key) = false := by simpa using hk
        simp [List.lookup_cons, hbeq, hk]

/-- A step that only somebody else notices. -/
theorem EpochInv.frame {a : EpochAct ι} {u : Unit} (h : EpochInv tr s)
    (hstep : (epochMachine ι).step s a = some (s', u)) (hm : a.marker = none)
    (hd : s'.cache.dirty = s.cache.dirty) (hp : s'.cache.persisted = s.cache.persisted)
    (hs : s'.saved = s.saved) (hpc : s'.saver = s.saver) : EpochInv (tr ++ [(a, u)]) s' := by
  obtain ⟨tr₀, hset, hcol⟩ := h.settled
  refine ⟨h.run.snoc hstep, ?_, tr₀, hset.later (List.prefix_append _ _) hp hs, ?_⟩
  · rw [hd, h.dirty, marks_append, hm]
    rfl
  · rw [hs, hpc]
    exact hcol.later (List.prefix_append _ _)

/-- A step of the `Save` under way that leaves the cache and the file alone. -/
theorem EpochInv.advance {a : EpochAct ι} {u : Unit} {p : SaverPc} (h : EpochInv tr s)
    (hstep : (epochMachine ι).step s a = some (s', u)) (hm : a.marker = none)
    (hs' : s' = { s with saver := p })
    (hcol : ∀ tr₀, Settled tr₀ tr s → Collecting tr₀ tr s.saved s.saver →
      Collecting tr₀ (tr ++ [(a, u)]) s.saved p) : EpochInv (tr ++ [(a, u)]) s' := by
  subst hs'
  obtain ⟨tr₀, hset, hcol₀⟩ := h.settled
  refine ⟨h.run.snoc hstep, ?_, tr₀, ?_, hcol tr₀ hset hcol₀⟩
  · rw [marks_append, hm]
    exact h.dirty
  · exact hset.later (List.prefix_append _ _) rfl rfl

theorem epochMachine_step {a : EpochAct ι} {u : Unit}
    (h : (epochMachine ι).step s a = some (s', u)) : epochStep s a = some s' := by
  obtain ⟨s₁, hs₁, heq⟩ := Option.map_eq_some_iff.mp h
  cases heq
  exact hs₁

/-- The watermark is read: everything seen from here on is seen after it. -/
theorem EpochInv.watermark {u : Unit} (h : EpochInv tr s)
    (hstep : (epochMachine ι).step s .watermark = some (s', u)) :
    EpochInv (tr ++ [(.watermark, u)]) s' := by
  have hs := epochMachine_step hstep
  simp only [epochStep] at hs
  split at hs
  · refine h.advance hstep rfl (Option.some.inj hs).symm fun tr₀ hset _ => ?_
    exact .marked hset.le (List.prefix_append _ _) h.dirty
  · cases hs

/-- The `Range` begins. A key that is not in the map has been seen absent. -/
theorem EpochInv.snapshot {now : Int} {u : Unit} (h : EpochInv tr s)
    (hstep : (epochMachine ι).step s (.snapshot now) = some (s', u)) :
    EpochInv (tr ++ [(.snapshot now, u)]) s' := by
  have hs := epochMachine_step hstep
  simp only [epochStep] at hs
  split at hs
  next w hpc =>
    refine h.advance hstep rfl (Option.some.inj hs).symm fun tr₀ hset hcol => ?_
    rw [hpc] at hcol
    cases hcol with
    | marked h0 h1 hw =>
        refine .ranging h0 (h1.trans (List.prefix_append _ _)) hw List.mem_concat_self ?_
          fun _ _ => rfl
        intro k hk
        have habsent : s.cache.load k = none :=
          AList.lookup_eq_none.mpr (hk.resolve_left List.not_mem_nil)
        have hseen : SeenSince _ tr now k (s.cache.visible now k) := .current h1 h.run
        rw [CacheManager.visible_of_load_none habsent] at hseen
        exact hseen.later (List.prefix_append _ _)
  · cases hs

/-- One read of the snapshot. -/
theorem EpochInv.read {key : Bytes} {u : Unit} (h : EpochInv tr s)
    (hstep : (epochMachine ι).step s (.read key) = some (s', u)) :
    EpochInv (tr ++ [(.read key, u)]) s' := by
  have hs := epochMachine_step hstep
  simp only [epochStep] at hs
  split at hs
  next w now l snap hpc =>
    obtain ⟨⟨l', found⟩, hlook, heq⟩ := Option.map_eq_some_iff.mp hs
    unfold RangeLoop.look at hlook
    split at hlook
    · cases hlook
    next hkey =>
      cases hlook
      refine h.advance hstep rfl heq.symm fun tr₀ hset hcol => ?_
      rw [hpc] at hcol
      cases hcol with
      | ranging h0 h1 hw hclock hseen hnew =>
          refine .ranging h0 (h1.trans (List.prefix_append _ _)) hw
            (List.mem_append_left _ hclock) ?_ ?_
          · intro k hk
            rw [lookup_addVisible]
            by_cases hkk : k = key
            · subst hkk
              -- It has not been looked at before, so this look is what the snapshot shows of it.
              rw [if_pos rfl, hnew k hkey, Option.none_or]
              exact (SeenSince.current h1 h.run).later (List.prefix_append _ _)
            · rw [if_neg hkk, Option.or_none]
              refine (hseen k ?_).later (List.prefix_append _ _)
              exact hk.imp_left fun hmem => (List.mem_cons.mp hmem).resolve_left hkk
          · intro k hk
            have hne : k ≠ key := fun he => hk (he ▸ List.mem_cons_self)
            rw [lookup_addVisible, if_neg hne, Option.or_none]
            exact hnew k fun hmem => hk (List.mem_cons_of_mem key hmem)
  · cases hs

/-- The `Range` ends when it has come by every key it owed a look. -/
theorem EpochInv.endRange {u : Unit} (h : EpochInv tr s)
    (hstep : (epochMachine ι).step s .endRange = some (s', u)) :
    EpochInv (tr ++ [(.endRange, u)]) s' := by
  have hs := epochMachine_step hstep
  simp only [epochStep] at hs
  split at hs
  next w now l snap hpc =>
    split at hs
    next hfin =>
      refine h.advance hstep rfl (Option.some.inj hs).symm fun tr₀ hset hcol => ?_
      rw [hpc] at hcol
      cases hcol with
      | ranging h0 h1 hw hclock hseen hnew =>
          refine .writing h0 (h1.trans (List.prefix_append _ _)) hw
            (List.mem_append_left _ hclock) fun k => ?_
          refine (hseen k ?_).later (List.prefix_append _ _)
          by_cases hk : k ∈ l.todo
          · refine .inl ?_
            simpa using List.all_eq_true.mp hfin k hk
          · exact .inr hk
    · cases hs
  · cases hs

/-- The new file: seen since its own watermark, and so since the old one. -/
theorem EpochInv.replace {savedAt : Int} {u : Unit} (h : EpochInv tr s)
    (hstep : (epochMachine ι).step s (.replace savedAt) = some (s', u)) :
    EpochInv (tr ++ [(.replace savedAt, u)]) s' := by
  have hs := epochMachine_step hstep
  simp only [epochStep] at hs
  split at hs
  next w now snap hpc =>
    cases hs
    obtain ⟨tr₀, hset, hcol⟩ := h.settled
    rw [hpc] at hcol
    cases hcol with
    | @writing trw _ _ _ h0 h1 hw hclock hseen =>
        have hfile : FileSince trw (tr ++ [(.replace savedAt, u)])
            ⟨profileFile savedAt snap, now⟩ := by
          refine ⟨List.mem_append_left _ hclock, fun k => ?_⟩
          exact ⟨snap.lookup k, (hseen k).later (List.prefix_append _ _),
            lookup_profileFile savedAt snap k⟩
        refine ⟨h.run.snoc hstep, ?_, tr₀, ⟨?_, hset.persisted, ?_⟩, ?_⟩
        · rw [marks_append]
          exact h.dirty
        · exact hset.le.trans (List.prefix_append _ _)
        · exact fun _ => ⟨_, rfl, hfile.earlier h0⟩
        · exact .renamed h0 (h1.trans (List.prefix_append _ _)) hw rfl hfile
  · cases hs

/-- The watermark of this `Save` becomes the persistent one. -/
theorem EpochInv.persist {u : Unit} (h : EpochInv tr s)
    (hstep : (epochMachine ι).step s .persist = some (s', u)) :
    EpochInv (tr ++ [(.persist, u)]) s' := by
  have hs := epochMachine_step hstep
  simp only [epochStep] at hs
  split at hs
  next w hpc =>
    cases hs
    obtain ⟨tr₀, hset, hcol⟩ := h.settled
    rw [hpc] at hcol
    cases hcol with
    | @renamed trw _ f h0 h1 hw hf hfile =>
        -- The point of the settled watermark moves on from `tr₀` to `trw`.
        refine ⟨h.run.snoc hstep, ?_, trw, ⟨h1.trans (List.prefix_append _ _), hw, ?_⟩, .idle⟩
        · rw [marks_append]
          exact h.dirty
        · exact fun _ => ⟨f, hf, hfile.later (List.prefix_append _ _)⟩
  · cases hs

/-- **Every step keeps the invariant**: mutations, and each step of `Save`. -/
theorem EpochInv.step {a : EpochAct ι} {u : Unit} (h : EpochInv tr s)
    (hstep : (epochMachine ι).step s a = some (s', u)) : EpochInv (tr ++ [(a, u)]) s' := by
  cases a with
  | put i key e =>
      cases hstep
      exact h.frame rfl rfl rfl rfl rfl rfl
  | delete i key =>
      cases hstep
      exact h.frame rfl rfl rfl rfl rfl rfl
  | mark i =>
      cases hstep
      -- Both watermarks lie in the past, and the past has no new marks.
      obtain ⟨tr₀, hset, hcol⟩ := h.settled
      refine ⟨h.run.snoc rfl, ?_, tr₀, hset.later (List.prefix_append _ _) rfl rfl,
        hcol.later (List.prefix_append _ _)⟩
      rw [marks_append]
      have hdirty := h.dirty
      show s.cache.dirty + 1 = ((marks tr + 1 : Nat) : Int)
      omega
  | check =>
      have hs := epochMachine_step hstep
      simp only [epochStep, Option.some.injEq] at hs
      have hsame : s'.cache = s.cache ∧ s'.saved = s.saved ∧ s'.saver = s.saver := by
        rw [← hs]
        split <;> exact ⟨rfl, rfl, rfl⟩
      obtain ⟨hcache, hsaved, hpc⟩ := hsame
      exact h.frame hstep rfl (by rw [hcache]) (by rw [hcache]) hsaved hpc
  | lock =>
      have hs := epochMachine_step hstep
      simp only [epochStep] at hs
      split at hs
      next hpc =>
        split at hs
        · cases hs
          obtain ⟨tr₀, hset, -⟩ := h.settled
          refine ⟨h.run.snoc hstep, ?_, tr₀, hset.later (List.prefix_append _ _) rfl rfl, .locked⟩
          rw [marks_append]
          exact h.dirty
        · cases hs
      · cases hs
  | watermark => exact h.watermark hstep
  | snapshot now => exact h.snapshot hstep
  | read key => exact h.read hstep
  | endRange => exact h.endRange hstep
  | replace savedAt => exact h.replace hstep
  | persist => exact h.persist hstep

theorem epochInv_start : EpochInv ([] : EpochTrace ι) {} :=
  ⟨.nil, rfl, [], ⟨List.prefix_rfl, rfl, fun h => absurd h (Nat.lt_irrefl 0)⟩, .idle⟩

theorem epochInv_run (hrun : (epochMachine ι).Run {} tr s) : EpochInv tr s :=
  hrun.invariant (I := fun tr s => EpochInv tr s) epochInv_start fun _ _ _ _ _ hi hs => hi.step hs

end Invariant

/-! ## A clean cache -/

/-- The reads of a `Range` that nobody disturbs. -/
theorem reads_run (s : EpochState) (w now : Int) (todo : List Bytes) {keys : List Bytes}
    (hnodup : keys.Nodup) {seen : List Bytes} (hnew : ∀ k ∈ keys, k ∉ seen)
    {snap : List (Bytes × RealityProfile)} {s₀ : EpochState} {tr : EpochTrace ι}
    (hrun : (epochMachine ι).Run s₀ tr { s with saver := .ranging w now ⟨todo, seen⟩ snap }) :
    ∃ tr', (epochMachine ι).Run s₀ tr'
      { s with
        saver := .ranging w now ⟨todo, keys.reverse ++ seen⟩
          (snap ++ keys.filterMap fun k => (s.cache.visible now k).map (k, ·)) } := by
  induction keys generalizing seen snap tr with
  | nil => exact ⟨tr, by simpa using hrun⟩
  | cons k keys ih =>
      obtain ⟨hk, hnodup⟩ := List.nodup_cons.mp hnodup
      have hread : (epochMachine ι).step { s with saver := .ranging w now ⟨todo, seen⟩ snap }
          (.read k) = some ({ s with
            saver := .ranging w now ⟨todo, k :: seen⟩
              (addVisible now snap k (s.cache.load k)) }, ()) := by
        simp [epochMachine, epochStep, RangeLoop.look, hnew k List.mem_cons_self,
          CacheManager.load]
      have hrest : ∀ k' ∈ keys, k' ∉ k :: seen := by
        intro k' hk' hmem
        rcases List.mem_cons.mp hmem with rfl | hmem
        · exact hk hk'
        · exact hnew k' (List.mem_cons_of_mem k hk') hmem
      obtain ⟨tr', hrun'⟩ := ih hnodup hrest (hrun.snoc hread)
      refine ⟨tr', ?_⟩
      have hsnap : addVisible now snap k (s.cache.load k)
            ++ keys.filterMap (fun k => (s.cache.visible now k).map (k, ·))
          = snap ++ (k :: keys).filterMap fun k => (s.cache.visible now k).map (k, ·) := by
        rw [addVisible, List.append_assoc, List.filterMap_cons]
        show snap ++ (((s.cache.visible now k).map (k, ·)).toList ++ _) = _
        cases s.cache.visible now k <;> rfl
      rw [hsnap] at hrun'
      simpa using hrun'

/-- **Without others in between, the steps of `Save` are `save`.** -/
theorem save_alone (s : EpochState) (hidle : s.saver = .idle) (hdirty : s.cache.isDirty = true)
    (savedAt now : Int) (order : List Bytes) (d : Disk) :
    ∃ (tr : EpochTrace ι) (s' : EpochState), (epochMachine ι).Run s tr s' ∧ s'.saver = .idle ∧
      s'.cache = (save true {} savedAt now order s.cache d).1 ∧
      s'.saved.map (·.file) = (save true {} savedAt now order s.cache d).2.file := by
  have hcheck : (epochMachine ι).step s .check
      = some ({ s with waiting := s.waiting + 1 }, ()) := by
    simp [epochMachine, epochStep, hdirty]
  have hlock : (epochMachine ι).step { s with waiting := s.waiting + 1 } .lock
      = some ({ s with saver := .locked }, ()) := by
    simp [epochMachine, epochStep, hidle]
  have hmark : (epochMachine ι).step { s with saver := .locked } .watermark
      = some ({ s with saver := .marked s.cache.dirty }, ()) := rfl
  have hsnap : (epochMachine ι).step { s with saver := .marked s.cache.dirty } (.snapshot now)
      = some ({ s with
          saver := .ranging s.cache.dirty now ⟨s.cache.entries.keys, []⟩ [] }, ()) := rfl
  obtain ⟨tr, hrun⟩ := reads_run s s.cache.dirty now s.cache.entries.keys
    (s.cache.visitOrder_nodup order) (fun k _ => (List.not_mem_nil : k ∉ []))
    ((((Machine.Run.single hcheck).snoc hlock).snoc hmark).snoc hsnap)
  rw [List.nil_append, List.append_nil] at hrun
  generalize hread : (s.cache.visitOrder order).filterMap
    (fun k => (s.cache.visible now k).map (k, ·)) = snap at hrun
  have hfinished : RangeLoop.finished
      ⟨s.cache.entries.keys, (s.cache.visitOrder order).reverse⟩ = true := by
    refine RangeLoop.finished_of_subset fun k hk => List.mem_reverse.mpr ?_
    have hload : ∃ e, s.cache.load k = some e :=
      Option.isSome_iff_exists.mp (AList.lookup_isSome.mpr hk)
    exact CacheManager.mem_visitOrder.mpr hload
  have hend : (epochMachine ι).step { s with
        saver := .ranging s.cache.dirty now
          ⟨s.cache.entries.keys, (s.cache.visitOrder order).reverse⟩ snap } .endRange
      = some ({ s with saver := .writing s.cache.dirty now snap }, ()) := by
    simp [epochMachine, epochStep, hfinished]
  have hreplace : (epochMachine ι).step { s with saver := .writing s.cache.dirty now snap }
        (.replace savedAt)
      = some ({ s with
          saver := .renamed s.cache.dirty
          saved := some ⟨profileFile savedAt snap, now⟩ }, ()) := rfl
  have hpersist : (epochMachine ι).step { s with
        saver := .renamed s.cache.dirty
        saved := some ⟨profileFile savedAt snap, now⟩ } .persist
      = some ({ s with
          cache := s.cache.persistSnapshot s.cache.dirty
          saver := .idle
          saved := some ⟨profileFile savedAt snap, now⟩ }, ()) := rfl
  refine ⟨_, _, ((hrun.snoc hend).snoc hreplace).snoc hpersist, rfl, ?_, ?_⟩
  · rw [save_writes hdirty (s.cache.snapshotProfiles_eq now order)]
    rfl
  · rw [save_writes hdirty (s.cache.snapshotProfiles_eq now order), hread]
    rfl

end Reality
