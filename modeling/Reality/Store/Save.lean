import Reality.Cache.Marked

/-!
# Saving the cache

`PersistentProfileStore.Save` (profile_persist.go): the snapshot in its on-disk
form, written to a temporary file, synced, and renamed over `profiles.json`.
The answers of the filesystem are data (`SaveSteps`), so that every choice of
failing steps is a case of one definition.

`Save` checks the error of each step before the rename and returns. The error
of the RENAME it does not look at: it goes on and moves the watermark, as if
the new content had become the file.
-/

namespace Reality

open Kit

/-! ## The file -/

/-- `profileFileCurrentVersion` -/
def profileFileCurrentVersion : Int := 3

def persistCertMetaFrom (c : DestCertMeta) : PersistCertMeta :=
  { cn := c.cn, dnsNames := c.dnsNames, organization := c.organization
    notBefore := if c.notBefore ≠ zeroTime then unixSeconds c.notBefore else 0
    notAfter := if c.notAfter ≠ zeroTime then unixSeconds c.notAfter else 0
    chainDepth := c.chainDepth, chainLens := c.chainLens, leafLen := c.leafLen
    issuerCN := c.issuerCN, issuerOrg := c.issuerOrg, issuerCountry := c.issuerCountry
    intermediateNames := c.intermediateNames }

/-- The on-disk form of a profile. The STATE of its entry has no place in it. -/
def persistProfile (p : RealityProfile) : PersistProfileEntry :=
  { recordLens := p.recordLens
    fingerprint := p.fingerprint
    cipherSuite := p.cipherSuite
    alpn := p.alpn
    tlsVersion := p.tlsVersion
    recordCount := p.recordCount
    capturedAt := unixNano p.capturedAt
    recordMode := p.recordMode
    liveEvidence := p.liveEvidence
    evidence := p.evidence
    chClassVer := p.chClassVer
    source := p.source
    dest := p.dest
    serverName := p.serverName
    certMeta := p.certMeta.map persistCertMetaFrom }

/-- `ProfileFile`; a JSON file decodes to what was encoded. -/
structure ProfileFile where
  version : Int
  savedAt : Int
  profiles : AList (fun _ : Bytes => PersistProfileEntry)
  deriving DecidableEq

/-- The file `Save` makes of a snapshot. -/
def profileFile (savedAt : Int) (snapshot : List (Bytes × RealityProfile)) : ProfileFile :=
  { version := profileFileCurrentVersion
    savedAt := savedAt
    profiles := (snapshot.map fun kp => ⟨kp.1, persistProfile kp.2⟩).toAList }

theorem dlookup_map_persist (snapshot : List (Bytes × RealityProfile)) (k : Bytes) :
    (snapshot.map fun kp => (⟨kp.1, persistProfile kp.2⟩ : Sigma fun _ : Bytes => _)).dlookup k
      = (snapshot.lookup k).map persistProfile := by
  induction snapshot with
  | nil => rfl
  | cons kp snapshot ih =>
      obtain ⟨k', p⟩ := kp
      rw [List.map_cons]
      by_cases hk : k = k'
      · subst hk
        rw [List.dlookup_cons_eq, List.lookup_cons_self]
        rfl
      · have hbeq : (k == k') = false := by simpa using hk
        rw [List.dlookup_cons_ne _ _ hk, ih, List.lookup_cons, hbeq]

theorem lookup_profileFile (savedAt : Int) (snapshot : List (Bytes × RealityProfile)) (k : Bytes) :
    (profileFile savedAt snapshot).profiles.lookup k = (snapshot.lookup k).map persistProfile := by
  rw [← dlookup_map_persist]
  exact AList.lookup_to_alist _

/-! ## The disk -/

/-- A temporary file: cut off in the middle of the write, or complete. -/
inductive TempFile where
  | torn
  | whole (f : ProfileFile)
  deriving DecidableEq

/-- `profiles.json` and `profiles.json.tmp`. -/
structure Disk where
  file : Option ProfileFile := none
  temp : Option TempFile := none
  deriving DecidableEq

/-- Which steps of one `Save` succeed. -/
structure SaveSteps where
  marshal : Bool := true
  create : Bool := true
  write : Bool := true
  sync : Bool := true
  remove : Bool := true
  rename : Bool := true

/-- A step of the temp-file protocol fails. -/
def SaveSteps.failed (io : SaveSteps) : Bool := !(io.create && io.write && io.sync && io.rename)

def Disk.removeTemp (d : Disk) (io : SaveSteps) : Disk :=
  if io.remove then { d with temp := none } else d

/-- From `json.Marshal` to `os.Rename`; the flag says whether `Save` goes on
behind it. -/
def Disk.replaceFile (d : Disk) (io : SaveSteps) (f : ProfileFile) : Disk × Bool :=
  if !io.marshal then (d, false)
  else if !io.create then (d, false)
  else if !io.write then ({ d with temp := some .torn }.removeTemp io, false)
  else if !io.sync then ({ d with temp := some (.whole f) }.removeTemp io, false)
  -- The error of `os.Rename` is dropped.
  else if io.rename then ({ file := some f, temp := none }, true)
  else ({ d with temp := some (.whole f) }, true)

/-- The rename is reached. -/
def SaveSteps.written (io : SaveSteps) : Bool := io.marshal && io.create && io.write && io.sync

@[simp] theorem Disk.removeTemp_file (d : Disk) (io : SaveSteps) :
    (d.removeTemp io).file = d.file := by
  unfold removeTemp
  split <;> rfl

theorem Disk.replaceFile_file (d : Disk) (io : SaveSteps) (f : ProfileFile) :
    (d.replaceFile io f).1.file = if io.written && io.rename then some f else d.file := by
  obtain ⟨marshal, create, write, sync, remove, rename⟩ := io
  unfold replaceFile SaveSteps.written
  cases marshal <;> cases create <;> cases write <;> cases sync <;> cases rename <;> simp

theorem Disk.replaceFile_flag (d : Disk) (io : SaveSteps) (f : ProfileFile) :
    (d.replaceFile io f).2 = io.written := by
  obtain ⟨marshal, create, write, sync, remove, rename⟩ := io
  unfold replaceFile SaveSteps.written
  cases marshal <;> cases create <;> cases write <;> cases sync <;> cases rename <;> rfl

/-! ## Save -/

/-- `Save`: `savedAt` and `now` are its two readings of the clock, `order` the
order in which the snapshot visits the keys. -/
def save (enabled : Bool) (io : SaveSteps) (savedAt now : Int) (order : List Bytes)
    (m : CacheManager) (d : Disk) : CacheManager × Disk :=
  if !enabled then (m, d)
  else if !m.isDirty then (m, d)
  else
    let snapDirty := m.dirty
    match m.snapshotProfiles now order with
    | .error _ => (m, d)
    | .ok snapshot =>
        let r := d.replaceFile io (profileFile savedAt snapshot)
        if r.2 then (m.persistSnapshot snapDirty, r.1) else (m, r.1)

section Save

variable {enabled : Bool} {io : SaveSteps} {savedAt now : Int} {order : List Bytes}
  {m : CacheManager} {d : Disk}

/-- A `Save` that has nothing to do. -/
theorem save_skips (h : ¬ (enabled = true ∧ m.isDirty = true)) :
    save enabled io savedAt now order m d = (m, d) := by
  unfold save
  cases enabled with
  | false => rfl
  | true => simp [show m.isDirty = false by simpa using h]

/-- A `Save` that has something to write. -/
theorem save_writes {s : List (Bytes × RealityProfile)} (hd : m.isDirty = true)
    (hs : m.snapshotProfiles now order = .ok s) :
    save true io savedAt now order m d =
      (if io.written then m.persistSnapshot m.dirty else m,
        (d.replaceFile io (profileFile savedAt s)).1) := by
  unfold save
  simp only [hd, hs, Bool.not_true, Bool.false_eq_true, if_false, Disk.replaceFile_flag]
  split <;> rfl

end Save

/-- What a `Save` in which a step failed has to leave behind: the old file, the
old watermark, and so a cache whose next undisturbed `Save` writes it out. -/
structure KeepsPending (m : CacheManager) (d : Disk) (r : CacheManager × Disk) : Prop where
  file : r.2.file = d.file
  persisted : r.1.persisted = m.persisted
  dirty : m.isDirty = true → r.1.isDirty = true
  retries : m.isDirty = true → ∀ savedAt now order s, r.1.snapshotProfiles now order = .ok s →
    (save true {} savedAt now order r.1 r.2).2.file = some (profileFile savedAt s)

theorem keepsPending_of_same {m : CacheManager} {d d' : Disk} (h : d'.file = d.file) :
    KeepsPending m d (m, d') := by
  refine ⟨h, rfl, id, ?_⟩
  intro hd savedAt now order s hs
  rw [save_writes hd hs, Disk.replaceFile_file]
  rfl

/-- **A failed step leaves the changes pending, but for a failed rename.** -/
theorem failed_save_keeps_pending_iff (enabled : Bool) (io : SaveSteps) (savedAt now : Int)
    (order : List Bytes) (m : CacheManager) (d : Disk) :
    (io.failed = true → KeepsPending m d (save enabled io savedAt now order m d)) ↔
      ¬ (enabled = true ∧ m.isDirty = true ∧ io.written = true ∧ io.rename = false) := by
  by_cases hrun : enabled = true ∧ m.isDirty = true
  · obtain ⟨rfl, hd⟩ := hrun
    rw [save_writes hd (m.snapshotProfiles_eq now order)]
    cases hw : io.written with
    | false =>
        have hfile := d.replaceFile_file io
        simp only [hw, Bool.false_and, Bool.false_eq_true, if_false] at hfile
        simp only [Bool.false_eq_true, if_false, false_and, and_false, not_false_eq_true,
          iff_true]
        exact fun _ => keepsPending_of_same (hfile _)
    | true =>
        cases hr : io.rename with
        | false =>
            -- The watermark has moved over changes that are in no file.
            have hlt : m.persisted < m.dirty := of_decide_eq_true hd
            simp only [if_true, and_true, hd, not_true_eq_false, iff_false]
            intro h
            have hfailed : io.failed = true := by simp [SaveSteps.failed, hr]
            have hpersisted : m.dirty = m.persisted := (h hfailed).persisted
            omega
        | true =>
            have hok : io.failed = false := by
              simp only [SaveSteps.written, Bool.and_eq_true] at hw
              simp [SaveSteps.failed, hw, hr]
            simp [hok]
  · rw [save_skips hrun]
    constructor
    · rintro - ⟨he, hd, -⟩
      exact hrun ⟨he, hd⟩
    · exact fun _ _ => keepsPending_of_same rfl

/-- One profile, never saved; the rename fails. The file is still missing, and
nothing is dirty any more. -/
theorem failed_rename_drops_changes :
    ∃ m : CacheManager, m = newCacheManager.hotSwapProfile (str "a") { capturedAt := 5 } ∧
      m.isDirty = true ∧
      (save true { rename := false } 9 10 [] m {}).2.file = none ∧
      (save true { rename := false } 9 10 [] m {}).1.isDirty = false := by
  refine ⟨_, rfl, ?_, ?_, ?_⟩ <;> decide +kernel

/-- **A `Save` in which nothing failed** writes what the snapshot shows, and
until the next change that is counted, the file agrees with the cache. -/
theorem saved_file_agrees {io : SaveSteps} {savedAt now : Int} {order : List Bytes}
    {m : CacheManager} {d : Disk} (hd : m.isDirty = true) (hm : io.marshal = true)
    (hok : io.failed = false) {m' : CacheManager} {tr : List (CacheMethod × Unit)}
    (hrun : methodMachine.Meets (fun _ m c => ¬ c.Unmarked m now ∧ c.movesWatermark = false)
      (save true io savedAt now order m d).1 tr m') :
    ∃ f, (save true io savedAt now order m d).2.file = some f ∧
      ((∃ k, f.profiles.lookup k ≠ (m'.visible now k).map persistProfile) →
        m'.isDirty = true) := by
  simp only [SaveSteps.failed, Bool.not_eq_false', Bool.and_eq_true] at hok
  obtain ⟨⟨⟨hc, hw⟩, hs⟩, hr⟩ := hok
  have hwritten : io.written = true := by simp [SaveSteps.written, hm, hc, hw, hs]
  have hsnap := m.snapshotProfiles_eq now order
  rw [save_writes hd hsnap, hwritten] at hrun ⊢
  refine ⟨_, by rw [Disk.replaceFile_file, hwritten, hr]; rfl, ?_⟩
  rintro ⟨k, hk⟩
  refine clean_run_keeps_snapshot rfl hrun (CacheManager.snapshotsDiffer_iff.mpr ⟨k, ?_⟩)
  intro heq
  refine hk ?_
  rw [lookup_profileFile, CacheManager.lookup_snapshotProfiles hsnap, ← heq]
  rfl

end Reality
