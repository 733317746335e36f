import Reality.Cache.Coherence
import Reality.Server.Complete
import Reality.Server.Parsers

/-!
# Complete length vectors

A profile arms a handshake with its length vector, and every encrypted record
of the flight needs its slot. The vector is complete when it comes from a
capture or probe that really saw R0..R5.

Nothing checks that. The probe parser accepts a TRUNCATED capture and
`ValidateRecordLens` lets empty slots through, so a profile with the lengths of
three records is stored, found and used. The theorem holds for runs whose
probes saw the whole flight, and whose captures were not stopped by the read
limit.
-/

namespace Reality

open Kit

/-- R0..R5 are known, or R2 stands for the coalesced rest. -/
def CompleteLens (lens : RecordLens) : Prop := SixFilled lens ∨ lens 2 > 512

/-! ## What a probe saw -/

/-- The parser fills the slots of the records that are there. -/
theorem parseRecords_six {n i : Nat} {s : Bytes} {lens lens' : RecordLens}
    {suite suite' : UInt16} {k : Nat} (hn : n + i = 7)
    (hlens : ∀ j < i, lens (slot j) ≠ 0) (hs : holdsRecords (6 - i) i s = true)
    (h : parseRecords n i s lens suite = some (lens', suite', k)) : SixFilled lens' := by
  induction n generalizing i s lens suite with
  | zero =>
      cases h
      exact fun j hj => hlens j (by omega)
  | succ n ih =>
      have hpos := recordLenAt_ge s
      have hnext : ∀ j < i + 1,
          Function.update lens (slot i) (recordLenAt s : Int) (slot j) ≠ 0 := by
        intro j hj
        by_cases hji : j = i
        · rw [hji, Function.update_self]
          omega
        · rw [Function.update_of_ne (fun he => hji (Capture.slot_inj (by omega) (by omega) he))]
          exact hlens j (by omega)
      -- R0..R5 are whole, so a record that is not can only be R6.
      have hwhole : i < 6 → headOf i s = .full ∧
          holdsRecords (6 - (i + 1)) (i + 1) (s.drop (recordLenAt s)) = true := by
        intro h6
        rw [show 6 - i = 6 - (i + 1) + 1 by omega] at hs
        exact holdsRecords_succ.mp hs
      have hticket : headOf i s ≠ .full → SixFilled lens := by
        intro hne j hj
        refine hlens j ?_
        by_contra hji
        exact hne (hwhole (by omega)).1
      cases hhead : headOf i s with
      | short =>
          rw [parseRecords_short hhead] at h
          cases h
          exact hticket (by rw [hhead]; decide)
      | bad =>
          rw [parseRecords_bad hhead] at h
          cases h
      | part =>
          rw [parseRecords_part hhead] at h
          cases h
          exact hticket (by rw [hhead]; decide)
      | full =>
          have hrest : holdsRecords (6 - (i + 1)) (i + 1) (s.drop (recordLenAt s)) = true := by
            by_cases h6 : i < 6
            · exact (hwhole h6).2
            · rw [show 6 - (i + 1) = 0 by omega]
              rfl
          rw [parseRecords_full hhead] at h
          split at h
          · obtain ⟨hello, -, h⟩ := Option.bind_eq_some_iff.mp h
            exact ih (by omega) hnext hrest h
          · exact ih (by omega) hnext hrest h

theorem probeResult_six {data : Bytes} {certMeta : Option DestCertMeta} {result : ProbeResult}
    (hs : holdsFlight data = true) (h : probeResult data certMeta = some result) :
    SixFilled result.recordLens := by
  obtain ⟨⟨lens, suite⟩, hparse, rfl⟩ := Option.map_eq_some_iff.mp h
  unfold parseRecordLens at hparse
  split at hparse
  · cases hparse
  next lens' suite' k hrecords =>
    split at hparse
    · cases hparse
      exact parseRecords_six (i := 0) rfl (fun j hj => by omega) hs hrecords
    · cases hparse

/-! ## The writers -/

/-- A live observation: the capture succeeded on reads that meet `R`. On path
L1 it copied the answer of a lookup. -/
inductive LiveCapture (R : List Read → Prop) (tr : List (CacheOp × CacheOut)) :
    RealityProfile → Prop where
  | mk {env : CaptureEnv} {reads : List Read} (hreads : R reads)
      (herr : (captureTargetRecords env reads).1.err = none)
      (hasked : ∀ res, (captureTargetRecords env reads).1.path = .l1 →
        (captureTargetRecords env reads).1.asked = some res →
        ∃ q now, (CacheOp.lookup q now, CacheOut.found res) ∈ tr)
      (dest serverName : Bytes) (vers : UInt16) (chClass alpn : Bytes)
      (certMeta : Option DestCertMeta) (now : Int) :
      LiveCapture R tr (buildObservationProfile dest serverName
        (captureTargetRecords env reads).1.hello vers (captureTargetRecords env reads).1.usedLen
        chClass alpn (captureTargetRecords env reads).1.template sourceLive certMeta now)

/-- A profile that `probeTargetRaw`, a reprobe or the refresh made of bytes
that meet `D`. -/
inductive ProbedLens (D : Bytes → Prop) : RealityProfile → Prop where
  | mk {data : Bytes} {result : ProbeResult} {p : RealityProfile}
      {certMeta : Option DestCertMeta} (hdata : D data)
      (hr : probeResult data certMeta = some result)
      (hp : (∃ dest serverName i now, p = probeProfile dest serverName i result now) ∨
        (∃ dest serverName alpn chClass now,
          p = reprobeProfile dest serverName alpn chClass result now) ∨
        ∃ entry now, p = refreshProfile entry result now) : ProbedLens D p

/-- Profiles enter the cache from captures whose reads meet `R` and from
probes whose bytes meet `D`. What a lookup handed out may be stored again. -/
def LensWriter (R : List Read → Prop) (D : Bytes → Prop) (tr : List (CacheOp × CacheOut))
    (op : CacheOp) : Prop :=
  ∀ key p, op.writes = some (key, p) → LiveCapture R tr p ∨ ProbedLens D p ∨
    ∃ q now r, (CacheOp.lookup q now, CacheOut.found r) ∈ tr ∧ r.path ≠ .l0 ∧
      r.profile = some p

theorem ProbedLens.six {p : RealityProfile} (h : ProbedLens (holdsFlight · = true) p) :
    SixFilled p.recordLens := by
  obtain ⟨hdata, hr, hp⟩ := h
  have hsix := probeResult_six hdata hr
  rcases hp with ⟨dest, sn, i, now, rfl⟩ | ⟨dest, sn, alpn, chClass, now, rfl⟩ | ⟨entry, now, rfl⟩
  · exact hsix
  · unfold reprobeProfile
    dsimp only
    split <;> exact hsix
  · exact hsix

/-- A capture on path L1 has what the cache answered with. -/
theorem capture_six {env : CaptureEnv} {reads : List Read} (hreads : WithinReads reads)
    (herr : (captureTargetRecords env reads).1.err = none)
    (hasked : ∀ res p, (captureTargetRecords env reads).1.path = .l1 →
      (captureTargetRecords env reads).1.asked = some res → res.path = .l1 →
      res.profile = some p → SixFilled p.recordLens) :
    SixFilled (captureTargetRecords env reads).1.usedLen := by
  rcases captureTargetRecords_path env reads with h0 | ⟨res, p, hc⟩
  · exact captureTargetRecords_complete hreads herr (by rw [h0]; decide)
  · obtain ⟨n, hn, hlens⟩ := hc.lens
    rw [hlens]
    exact (hasked res p hc.path hc.asked hc.answered hc.profile).update (k := 0) (by decide)
      (fun _ => hn)

/-- The writers of a run keep all six slots filled. -/
theorem six_of_run {tr : List (CacheOp × CacheOut)} {m : CacheManager}
    (h : cacheMachine.Meets (fun tr _ op => LensWriter WithinReads (holdsFlight · = true) tr op)
      newCacheManager tr m) :
    Holds (fun _ p => SixFilled p.recordLens) tr m := by
  refine holds_of_run ⟨fun hp hs => by rw [hs.lens]; exact hp, fun hobs => hobs⟩ ?_ h
  intro tr m op hinv hop key p hw
  rcases hop key p hw with hlive | hprobe | ⟨q, now, r, hmem, hpath, hr⟩
  · obtain ⟨hreads, herr, hasked, _, _, _, _, _, _, _⟩ := hlive
    refine capture_six hreads herr ?_
    intro res p hl1 hres hpath hp
    obtain ⟨q, now, hmem⟩ := hasked res hl1 hres
    exact hinv.handedOut q now res p hmem (by rw [hpath]; decide) hp
  · exact hprobe.six
  · exact hinv.handedOut q now r p hmem hpath hr

/-- **Lookups hand out complete vectors.** In every run whose probes saw the
whole flight and whose captures met the read limit, a profile that is returned
for L1 or L2 has all six lengths, and no handshake that is armed by a capture
(alone or with this answer) or by the zero-dial path with this profile fails
because `encrypt` finds an empty slot. -/
theorem lookups_complete {tr : List (CacheOp × CacheOut)} {m m' : CacheManager}
    (h : cacheMachine.Meets (fun tr _ op => LensWriter WithinReads (holdsFlight · = true) tr op)
      newCacheManager tr m)
    {q : Query} {now : Int} {r : LookupResult} {p : RealityProfile}
    (hs : cacheMachine.step m (.lookup q now) = some (m', .found r)) (hpath : r.path ≠ .l0)
    (hp : r.profile = some p) :
    CompleteLens p.recordLens ∧
      ∀ (overhead : Nat) (f : Flight) (e : EncryptError),
        (∀ (env : CaptureEnv) (reads : List Read), WithinReads reads →
          (captureTargetRecords env reads).1.err = none →
          ((captureTargetRecords env reads).1.path = .l1 →
            (captureTargetRecords env reads).1.asked = some r) →
          (captureTargetRecords env reads).1.arm.sendFlight overhead f = .error e →
          ¬ e.EmptySlot) ∧
        ∀ hello : ServerHelloMsg,
          HalfConn.sendFlight overhead ⟨l2Lens p hello, none⟩ f = .error e → ¬ e.EmptySlot := by
  have hr : (m.lookupAmortize q now).2 = r := by
    simp only [cacheMachine, cacheStep, Option.some.injEq, Prod.mk.injEq,
      CacheOut.found.injEq] at hs
    exact hs.2
  have hsix : SixFilled p.recordLens := (six_of_run h).answer hr hpath hp
  refine ⟨.inl hsix, fun overhead f e => ⟨?_, ?_⟩⟩
  · intro env reads hreads herr hasked he
    have hcap := capture_six hreads herr (by
      intro res p' hl1 hres _ hp'
      cases (hasked hl1).symm.trans hres
      cases hp.symm.trans hp'
      exact hsix)
    exact HalfConn.sendFlight_filled (fun i _ => captureTargetRecords_fits env reads i)
      hcap.flightFilled (CaptureResult.arm_buf _) f he
  · intro hello he
    obtain ⟨key, e', p', -, -, hans⟩ := CacheManager.lookupAmortize_answered hr hpath
    cases hp.symm.trans hans.profile
    have hlens : ∀ i, i ≠ 0 → l2Lens p hello i = p.recordLens i := by
      intro i hi
      unfold l2Lens
      split
      · exact Function.update_of_ne hi _ _
      · rfl
    refine HalfConn.sendFlight_filled ?_ ?_ (.inl rfl) f he
    · intro i hi
      exact (hlens i hi).trans_le (validateRecordLens_le hans.lens i)
    · intro i h2 h5
      exact (hlens i (by rintro rfl; exact absurd h2 (by decide))).trans_ne
        (hsix.flightFilled i h2 h5)

/-! ## A truncated probe -/

/-- What a probe captured that was cut off behind R2. -/
def truncatedData : Bytes := sampleStart ++ appDataRecord (List.replicate 100 0)

def truncatedObs : RealityProfile :=
  { recordLens := ![95, 6, 105, 0, 0, 0, 0], fingerprint := 15166325862381922157
    cipherSuite := 0x1301, alpn := str "h2", tlsVersion := versionTLS13, recordCount := 3
    capturedAt := 0, dest := str "d:443", serverName := str "a.io", chClass := str "1f"
    source := sourceProbe, chClassVer := chClassVersion }

def sampleMessages : Flight where
  encryptedExtensions := [8, 0, 0, 2, 0, 0]
  certificateRequest := none
  certificate := [11, 0, 0, 0]
  certificateVerify := [15, 0, 0, 0]
  finished := [20, 0, 0, 0]
  isExtensions := rfl
  isRequest := by simp
  isCertificate := rfl
  isVerify := rfl
  isFinished := rfl

theorem truncatedObs_probed : ProbedLens (fun _ => True) truncatedObs := by
  have hres : (probeResult truncatedData none).any (fun r =>
      r.cipherSuite = 0x1301 && r.recordLens = ![95, 6, 105, 0, 0, 0, 0] &&
        r.recordCount = 3 && r.certMeta = none) = true := by
    decide +kernel
  cases hr : probeResult truncatedData none with
  | none =>
      rw [hr] at hres
      cases hres
  | some result =>
      obtain ⟨suite, lens, count, certMeta⟩ := result
      rw [hr] at hres
      simp only [Option.any_some, Bool.and_eq_true, decide_eq_true_eq] at hres
      obtain ⟨⟨⟨rfl, rfl⟩, rfl⟩, rfl⟩ := hres
      exact .mk trivial hr
        (.inr (.inl ⟨str "d:443", str "a.io", str "h2", str "1f", 0, by decide +kernel⟩))

/-- The reprobe of a truncated capture is stored, answers the next handshake
on path L1, and that handshake fails at the empty slot of its Certificate. -/
theorem truncated_probe_aborts :
    ∃ tr m m' r p, cacheMachine.Meets (fun tr _ op =>
        LensWriter (fun _ => True) (fun _ => True) tr op) newCacheManager tr m ∧
      cacheMachine.step m (.lookup capturedQuery 0) = some (m', .found r) ∧
      r.path = .l1 ∧ r.profile = some p ∧ ¬ CompleteLens p.recordLens ∧
      ∃ reads e, (captureTargetRecords ⟨.auto, fun _ _ => r⟩ reads).1.err = none ∧
        (captureTargetRecords ⟨.auto, fun _ _ => r⟩ reads).1.path = .l1 ∧
        (captureTargetRecords ⟨.auto, fun _ _ => r⟩ reads).1.arm.sendFlight 16 sampleMessages
          = .error e ∧ e.EmptySlot := by
  have hrun : cacheMachine.Meets (fun tr _ op =>
      LensWriter (fun _ => True) (fun _ => True) tr op) newCacheManager _ _ :=
    .snoc (a := .storeObservation capturedQuery.exactKey truncatedObs 0 []) .nil
      (fun key p hw => by cases hw; exact .inr (.inl truncatedObs_probed)) rfl
  refine ⟨_, _, _, _, _, hrun, rfl, by decide +kernel, rfl, ?_, [⟨sampleFlight, none⟩],
    .padding 11 (some 0) (-26), by decide +kernel, by decide +kernel, by decide +kernel, rfl⟩
  rintro (hsix | hbig)
  · exact hsix 3 (by decide) (by decide +kernel)
  · exact absurd hbig (by decide +kernel)

/-- A live capture of the sample flight satisfies the condition. -/
theorem lookups_complete_captured :
    ∃ tr m m' r p, cacheMachine.Meets (fun tr _ op =>
        LensWriter WithinReads (holdsFlight · = true) tr op) newCacheManager tr m ∧
      cacheMachine.step m (.lookup capturedQuery 0) = some (m', .found r) ∧
      r.profile = some p ∧ CompleteLens p.recordLens := by
  have hcap : LiveCapture WithinReads [] capturedObs := by
    rw [capturedObs_built]
    unfold sampleCapture
    have hreads : WithinReads [⟨sampleFlight, none⟩] := .inl (by decide)
    exact .mk hreads (by decide +kernel) (fun res hl1 => absurd hl1 (by decide +kernel))
      _ _ _ _ _ _ _
  have hrun : cacheMachine.Meets (fun tr _ op =>
      LensWriter WithinReads (holdsFlight · = true) tr op) newCacheManager _ _ :=
    .snoc (a := capturedStore) .nil (fun key p hw => by cases hw; exact .inl hcap) rfl
  refine ⟨_, _, _, _, _, hrun, rfl, rfl, ?_⟩
  exact (@lookups_complete _ _ _ hrun capturedQuery 0 _ _ rfl (by decide +kernel) rfl).1

end Reality
