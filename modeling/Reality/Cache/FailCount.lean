import Reality.Cache.Ops

/-!
# What the failure count counts

`FailCount` has four writers. `NoteHandshakeFailure` counts failed handshakes with
it and quarantines at two; `MarkNegative` counts failed probes with it, for its
backoff; `StoreObservation` puts a one there for a mismatch that is pending, and a
zero for an observation that matches.

So the threshold is one of handshakes only as long as the other two find a failure
counted already: from zero, a mismatch or a failed probe does half of the work of a
quarantine.
-/

namespace Reality

open Kit

/-- The calls on one key. -/
inductive KeyOp where
  | storeObservation (obs : RealityProfile) (now : Int) (order : List Bytes)
  | markNegative (now : Int)
  | markStale
  | getProfile (now : Int)
  | noteHandshakeFailure (path : AmortizePath) (now : Int)

def KeyOp.toOp (k : Bytes) : KeyOp → CacheOp
  | .storeObservation obs now order => .storeObservation k obs now order
  | .markNegative now => .markNegative k now
  | .markStale => .markStale k
  | .getProfile now => .getProfile k now
  | .noteHandshakeFailure path now => .noteHandshakeFailure k path now

/-- What a call means for the failures noted at its key. -/
inductive FailEvent where
  | matched
  | created
  | noted
  | other
  deriving DecidableEq

def failEvent (k : Bytes) (m : CacheManager) : KeyOp → CacheOut → FailEvent
  | .storeObservation .., .stored .merged => .matched
  | .storeObservation .., .stored .created => .created
  | .markNegative _, .created true => .created
  | .noteHandshakeFailure path _, _ =>
      -- The three tests in front of the count.
      if k ≠ [] && (path = .l1 || path = .l2) && (m.load k).isSome then .noted else .other
  | _, _ => .other

/-- Calls on `k`, one after the other. -/
def keyMachine (k : Bytes) : Machine CacheManager KeyOp FailEvent where
  step m x := (cacheStep m (x.toOp k)).map fun r => (r.1, failEvent k m x r.2)

/-- The handshake failures noted since the last matching observation or since the
entry was created. -/
def notedSince (tr : List (KeyOp × FailEvent)) : Nat :=
  tr.foldl (fun n x =>
    match x.2 with
    | .matched | .created => 0
    | .noted => n + 1
    | .other => n) 0

/-- How many failures have to be noted before `k` is quarantined. -/
def failuresLeft (m : CacheManager) (k : Bytes) : Nat :=
  match m.load k with
  | none => maxL2FailWindow
  | some e => max 1 (maxL2FailWindow - e.failCount)

/-- The call is a `NoteHandshakeFailure` that moves the entry at `k` to Quarantined. -/
def Quarantines (k : Bytes) (m : CacheManager) (x : KeyOp) (m' : CacheManager) : Prop :=
  (∃ path now, x = .noteHandshakeFailure path now) ∧
    (∀ e, m.load k = some e → e.state ≠ .quarantined) ∧
    ∃ e, m'.load k = some e ∧ e.state = .quarantined

/-- There is an entry with a failure counted. -/
def FailNoted (m : CacheManager) (k : Bytes) : Prop := ∃ e, m.load k = some e ∧ 1 ≤ e.failCount

/-- A mismatching observation or a failed probe finds a failure counted. -/
def FindsCounted (k : Bytes) (_ : List (KeyOp × FailEvent)) (m : CacheManager) : KeyOp → Prop
  | .storeObservation obs now order =>
      (m.storeRecovered k obs now order).2 = .suspected → FailNoted m k
  | .markNegative _ => FailNoted m k
  | _ => True

/-! ## What one call does to the count -/

theorem ProfileEntry.observe_failCount {e : ProfileEntry} {obs : RealityProfile} {ttl now : Int}
    (hin : (e.observe obs ttl now).2 ≠ .ignored) :
    (e.observe obs ttl now).1.failCount
      = if (e.observe obs ttl now).2 = .suspected then 1 else 0 := by
  unfold ProfileEntry.observe at hin ⊢
  split
  next hq =>
    rw [if_pos hq] at hin
    split
    next ht => exact absurd rfl (if_pos ht ▸ hin)
    · rfl
  · split
    · rfl
    next hm =>
      have hm' : ¬ (decide (e.state = .suspect) && e.profile.any (profilesMatch · obs))
          = true := by
        simp [hm]
      rw [if_neg hm']
      rfl

theorem ProfileEntry.markStale_failCount (e : ProfileEntry) (baseTTL : Int) :
    (e.markStale baseTTL).failCount = e.failCount := by
  unfold ProfileEntry.markStale
  split
  · dsimp only
    split <;> rfl
  · rfl

section Step

variable {k : Bytes} {m m' : CacheManager} {x : KeyOp} {ev : FailEvent}

theorem keyStep_eq (h : (keyMachine k).step m x = some (m', ev)) :
    ∃ out, cacheStep m (x.toOp k) = some (m', out) ∧ ev = failEvent k m x out := by
  simp only [keyMachine, Option.map_eq_some_iff, Prod.mk.injEq] at h
  obtain ⟨r, hr, rfl, rfl⟩ := h
  exact ⟨r.2, hr, rfl⟩

/-- A noted failure raises the count by one; one that is not noted changes nothing. -/
theorem noteHandshakeFailure_count (path : AmortizePath) (now : Int) :
    (failEvent k m (.noteHandshakeFailure path now) .unit = .noted ∧
      ∃ e e', m.load k = some e ∧ (m.noteHandshakeFailure k path now).load k = some e' ∧
        e'.failCount = e.failCount + 1 ∧
        (e.state ≠ .quarantined →
          (e'.state = .quarantined ↔ maxL2FailWindow ≤ e'.failCount))) ∨
    (failEvent k m (.noteHandshakeFailure path now) .unit = .other ∧
      m.noteHandshakeFailure k path now = m) := by
  simp only [failEvent, CacheManager.noteHandshakeFailure]
  by_cases hk : k = []
  · exact .inr ⟨by simp [hk], by simp [hk]⟩
  by_cases hpath : path = .l1 ∨ path = .l2
  · have hpath' : ¬ (decide (path ≠ .l1) && decide (path ≠ .l2)) = true := by
      rcases hpath with rfl | rfl <;> decide
    rw [if_neg hk, if_neg hpath']
    cases hl : m.load k with
    | none => exact .inr ⟨by simp, rfl⟩
    | some e =>
        refine .inl ⟨by simp [hk, hpath], e, ?_⟩
        dsimp only
        split
        next hf => exact ⟨_, rfl, CacheManager.load_put_self .., rfl, fun _ => iff_of_true rfl hf⟩
        next hf =>
          split
          · exact ⟨_, rfl, CacheManager.load_put_self .., rfl, fun _ => iff_of_false nofun hf⟩
          · exact ⟨_, rfl, CacheManager.load_put_self .., rfl, fun h => iff_of_false h hf⟩
  · obtain ⟨hl1, hl2⟩ := not_or.mp hpath
    exact .inr ⟨by simp [hl1, hl2], by simp [hl1, hl2]⟩

/-- A call other than `NoteHandshakeFailure` leaves a zero at `k`, unless a failure was
counted there before. -/
theorem keyStep_count (hfinds : FindsCounted k [] m x)
    (hstep : (keyMachine k).step m x = some (m', ev))
    (hnote : ∀ path now, x ≠ .noteHandshakeFailure path now) {e' : ProfileEntry}
    (hl' : m'.load k = some e') : e'.failCount = 0 ∨ FailNoted m k ∧ ev = .other := by
  obtain ⟨out, hout, rfl⟩ := keyStep_eq hstep
  have hentry := CacheManager.cacheStep_entry hout k
  have hkept : ∀ e, m.load k = some e → e.failCount = e'.failCount →
      failEvent k m x out = .other →
      e'.failCount = 0 ∨ FailNoted m k ∧ failEvent k m x out = .other := by
    intro e hl hcount hev
    rcases Nat.eq_zero_or_pos e'.failCount with hzero | hpos
    · exact .inl hzero
    · exact .inr ⟨⟨e, hl, hcount ▸ hpos⟩, hev⟩
  rw [hl'] at hentry
  cases x with
  | noteHandshakeFailure path now => exact absurd rfl (hnote path now)
  | storeObservation obs now order =>
      cases hout
      generalize hx : m.load k = old at hentry
      generalize ho : (m.storeRecovered k obs now order).2 = o at hentry hkept hfinds ⊢
      cases hentry with
      | same hsame =>
          refine hkept e' hx rfl ?_
          rw [hsame rfl]
          rfl
      | @observed _ _ _ e _ hin =>
          rw [ProfileEntry.observe_failCount hin]
          split
          next hsus =>
            refine .inr ⟨hfinds (ho.trans hsus), ?_⟩
            rw [hsus]
            rfl
          · exact .inl rfl
      | created => exact .inl rfl
  | markNegative now =>
      cases hout
      refine .inr ⟨hfinds, ?_⟩
      obtain ⟨e, hl, -⟩ := hfinds
      rw [hl]
      rfl
  | markStale =>
      cases hout
      generalize hx : m.load k = old at hentry
      cases hentry with
      | same => exact hkept e' hx rfl rfl
      | @staleMark e => exact hkept e hx (e.markStale_failCount _).symm rfl
  | getProfile now =>
      generalize hx : m.load k = old at hentry
      cases hentry with
      | same => exact hkept e' hx rfl rfl
      | @agedByGet _ _ e => exact hkept e hx rfl rfl

end Step

/-! ## Runs -/

section Runs

variable {k : Bytes} {m m' : CacheManager} {x : KeyOp} {ev : FailEvent}
variable {tr : List (KeyOp × FailEvent)}

theorem notedSince_concat (tr : List (KeyOp × FailEvent)) (x : KeyOp) (ev : FailEvent) :
    notedSince (tr ++ [(x, ev)]) =
      match ev with
      | .matched | .created => 0
      | .noted => notedSince tr + 1
      | .other => notedSince tr := by
  rw [notedSince, List.foldl_append]
  rfl

/-- What is counted was noted. -/
def CountNoted (k : Bytes) (tr : List (KeyOp × FailEvent)) (m : CacheManager) : Prop :=
  FailNoted m k → 1 ≤ notedSince tr

theorem CountNoted.step (h : CountNoted k tr m) (hfinds : FindsCounted k tr m x)
    (hstep : (keyMachine k).step m x = some (m', ev)) : CountNoted k (tr ++ [(x, ev)]) m' := by
  rintro ⟨e', hl', hpos⟩
  rw [notedSince_concat]
  by_cases hnote : ∃ path now, x = .noteHandshakeFailure path now
  · obtain ⟨path, now, rfl⟩ := hnote
    obtain ⟨out, hout, rfl⟩ := keyStep_eq hstep
    cases hout
    rcases noteHandshakeFailure_count (k := k) (m := m) path now with
      ⟨hev, -⟩ | ⟨hev, hsame⟩
    · rw [hev]
      exact Nat.succ_pos _
    · rw [hev]
      rw [hsame] at hl'
      exact h ⟨e', hl', hpos⟩
  · have hnote' : ∀ path now, x ≠ .noteHandshakeFailure path now :=
      fun path now hx => hnote ⟨path, now, hx⟩
    rcases keyStep_count hfinds hstep hnote' hl' with hzero | ⟨hcounted, rfl⟩
    · omega
    · exact h hcounted

theorem failuresLeft_le (m : CacheManager) (k : Bytes) : failuresLeft m k ≤ maxL2FailWindow := by
  unfold failuresLeft
  cases m.load k with
  | none => exact Nat.le_refl _
  | some e => simp [maxL2FailWindow]

theorem failuresLeft_mono (hfinds : FindsCounted k tr m x)
    (hstep : (keyMachine k).step m x = some (m', ev))
    (hnote : ∀ path now, x ≠ .noteHandshakeFailure path now) :
    failuresLeft m k ≤ failuresLeft m' k := by
  cases hl' : m'.load k with
  | none =>
      have hall : failuresLeft m' k = maxL2FailWindow := by simp only [failuresLeft, hl']
      exact hall ▸ failuresLeft_le m k
  | some e' =>
      rcases keyStep_count hfinds hstep hnote hl' with hzero | ⟨⟨e, hl, hpos⟩, -⟩
      · have hall : failuresLeft m' k = maxL2FailWindow := by
          simp [failuresLeft, hl', hzero, maxL2FailWindow]
        exact hall ▸ failuresLeft_le m k
      · -- One failure was left, and there is no less.
        simp only [failuresLeft, hl, hl', maxL2FailWindow]
        omega

/-- **Handshakes quarantine a key, and nothing else brings it closer**, if mismatching
observations and failed probes come only where a failure is counted. -/
theorem quarantine_counts_handshakes {m₀ : CacheManager} (hnew : m₀.load k = none)
    (hrun : (keyMachine k).Meets (FindsCounted k) m₀ tr m) (hfinds : FindsCounted k tr m x)
    (hstep : (keyMachine k).step m x = some (m', ev)) :
    (Quarantines k m x m' → maxL2FailWindow ≤ notedSince (tr ++ [(x, ev)])) ∧
      ((∀ path now, x ≠ .noteHandshakeFailure path now) →
        failuresLeft m k ≤ failuresLeft m' k) := by
  refine ⟨?_, failuresLeft_mono hfinds hstep⟩
  rintro ⟨⟨path, now, rfl⟩, hbefore, e₁, hl₁, hafter⟩
  have hcount : CountNoted k tr m := by
    refine hrun.invariant (I := CountNoted k) ?_ fun _ _ _ _ _ hi hc hs => hi.step hc hs
    rintro ⟨e, hl, -⟩
    rw [hnew] at hl
    cases hl
  obtain ⟨out, hout, rfl⟩ := keyStep_eq hstep
  cases hout
  rcases noteHandshakeFailure_count (k := k) (m := m) path now with
    ⟨hev, e, e', hl, hl', hplus, htwo⟩ | ⟨-, hsame⟩
  · rw [hl'] at hl₁
    cases hl₁
    have hle := (htwo (hbefore e hl)).mp hafter
    -- One of the two is this one, the other was counted and so noted before.
    have hone : 1 ≤ notedSince tr := by
      refine hcount ⟨e, hl, ?_⟩
      simp only [maxL2FailWindow] at hle
      omega
    rw [notedSince_concat, hev]
    exact Nat.succ_le_succ hone
  · rw [hsame] at hl₁
    exact absurd hafter (hbefore e₁ hl₁)

end Runs

/-- The check of `FindsCounted` along an execution. -/
def findsCountedCheck (k : Bytes) (m : CacheManager) : KeyOp → Bool
  | .storeObservation obs now order =>
      (m.storeRecovered k obs now order).2 ≠ .suspected || (m.load k).any (1 ≤ ·.failCount)
  | .markNegative _ => (m.load k).any (1 ≤ ·.failCount)
  | _ => true

theorem findsCounted_of_check {k : Bytes} {tr : List (KeyOp × FailEvent)} {m : CacheManager}
    {x : KeyOp} (h : findsCountedCheck k m x = true) : FindsCounted k tr m x := by
  have hcounted : (m.load k).any (1 ≤ ·.failCount) = true → FailNoted m k := by
    intro hany
    simpa [FailNoted, Option.any_eq_true] using hany
  cases x with
  | storeObservation obs now order =>
      intro hsus
      simp only [findsCountedCheck, hsus] at h
      exact hcounted (by simpa using h)
  | markNegative now => exact hcounted h
  | _ => trivial

theorem quarantines_of_check {k : Bytes} {m m' : CacheManager} (path : AmortizePath) (now : Int)
    (hbefore : (m.load k).all (fun e => e.state ≠ .quarantined) = true)
    (hafter : (m'.load k).any (fun e => e.state = .quarantined) = true) :
    Quarantines k m (.noteHandshakeFailure path now) m' := by
  refine ⟨⟨path, now, rfl⟩, ?_, ?_⟩
  · intro e hl
    rw [hl] at hbefore
    simpa using hbefore
  · simpa [Option.any_eq_true] using hafter

def sampleSeen : RealityProfile :=
  { recordLens := ![127, 6, 41, 900, 281, 58, 0], cipherSuite := 0x1301, capturedAt := 0
    source := sourceLive }

/-- The same target with another cipher suite. -/
def sampleDiffering : RealityProfile := { sampleSeen with cipherSuite := 0x1302 }

/-- Two failures, with a mismatching observation between them. -/
theorem quarantine_counts_handshakes_two :
    ∃ tr m m' ev, (keyMachine (str "a")).Meets (FindsCounted (str "a")) newCacheManager tr m ∧
      (keyMachine (str "a")).step m (.noteHandshakeFailure .l2 4) = some (m', ev) ∧
      Quarantines (str "a") m (.noteHandshakeFailure .l2 4) m' ∧
      maxL2FailWindow ≤ notedSince (tr ++ [(.noteHandshakeFailure .l2 4, ev)]) := by
  obtain ⟨tr, m, hrun, hbefore, hafter⟩ : ∃ tr m,
      (keyMachine (str "a")).Meets (FindsCounted (str "a")) newCacheManager tr m ∧
      (m.load (str "a")).all (fun e => e.state ≠ .quarantined) = true ∧
      ((m.noteHandshakeFailure (str "a") .l2 4).load (str "a")).any
        (fun e => e.state = .quarantined) = true :=
    Machine.Meets.exists_of_exec (findsCountedCheck (str "a"))
      [.storeObservation sampleSeen 0 [], .noteHandshakeFailure .l1 1,
        .storeObservation sampleDiffering 2 [], .getProfile 3]
      (fun _ _ _ _ h => findsCounted_of_check h) (by decide +kernel)
  have hquar := quarantines_of_check .l2 4 hbefore hafter
  exact ⟨tr, m, _, _, hrun, rfl, hquar,
    (quarantine_counts_handshakes (x := .noteHandshakeFailure .l2 4) rfl hrun trivial rfl).1 hquar⟩

/-- **One failed handshake quarantines**, behind an observation that mismatches. -/
theorem quarantine_after_one_handshake :
    ∃ tr m m', (keyMachine (str "a")).Run newCacheManager tr m ∧
      (keyMachine (str "a")).step m (.noteHandshakeFailure .l1 2) = some (m', .noted) ∧
      Quarantines (str "a") m (.noteHandshakeFailure .l1 2) m' ∧
      notedSince (tr ++ [(.noteHandshakeFailure .l1 2, .noted)]) = 1 := by
  obtain ⟨tr, m, hrun, hbefore, hafter, hnoted, hnone⟩ : ∃ tr m,
      (keyMachine (str "a")).Run newCacheManager tr m ∧
      (m.load (str "a")).all (fun e => e.state ≠ .quarantined) = true ∧
      ((m.noteHandshakeFailure (str "a") .l1 2).load (str "a")).any
        (fun e => e.state = .quarantined) = true ∧
      failEvent (str "a") m (.noteHandshakeFailure .l1 2) .unit = .noted ∧ notedSince tr = 0 :=
    Machine.Run.exists_of_exec
      [.storeObservation sampleSeen 0 [], .storeObservation sampleDiffering 1 []]
      (by decide +kernel)
  refine ⟨tr, m, _, hrun, ?_, quarantines_of_check .l1 2 hbefore hafter, ?_⟩
  · simp only [keyMachine, KeyOp.toOp, cacheStep, Option.map_some, hnoted]
  · rw [notedSince_concat, hnone]

end Reality
