import Reality.Cache.Ops
import Reality.Probe

/-!
# The background refresh of a target

`probeTarget` (refresh_manager.go) probes a target and compares the result with
the cached profile in two phases. Phase A looks at cipher suite, R1 and R2 and
ends the probe when they agree; phase B compares everything. A difference is
debounced: two probes in a row have to agree on it before `HotSwapProfile`.

The counter of the debouncing is reset where phase B finds no difference. Phase A
returns before that, so an agreement it finds is no break in the row.
-/

namespace Reality

open Kit

/-- Phase A concludes that nothing changed. -/
def quickUnchanged (p : RealityProfile) (result : ProbeResult) : Bool :=
  p.cipherSuite = result.cipherSuite &&
    result.recordLens 1 = p.recordLens 1 && result.recordLens 2 = p.recordLens 2

/-- Phase B concludes that nothing changed. -/
def fullUnchanged (p : RealityProfile) (result : ProbeResult) : Bool :=
  p.cipherSuite = result.cipherSuite && recordLensMatch p.recordLens result.recordLens

/-- How a call of `probeTarget` ends. -/
inductive ProbeVerdict where
  | failed
  | uncached
  | quick
  | unchanged
  | pending
  | rejected
  | swapped
  deriving DecidableEq

/-- The end of a probe with a result, from what `GetProfile` returned. -/
def probeVerdict (cached : Option RealityProfile) (entry : RefreshEntry) (result : ProbeResult)
    (now : Int) : ProbeVerdict :=
  match cached with
  | none => .uncached
  | some p =>
      if p.isExpired now then .uncached
      else if quickUnchanged p result then .quick
      else if fullUnchanged p result then .unchanged
      else if (entry.noteChange result).stableCount < 2 then .pending
      else if validateRecordLens result.recordLens then .swapped
      else .rejected

/-- What the end of a probe does to the cache and to the entry. Only `swapped` calls
`HotSwapProfile`. -/
def ProbeVerdict.act (v : ProbeVerdict) (m : CacheManager) (entry : RefreshEntry)
    (result : ProbeResult) (now : Int) : CacheManager × RefreshEntry :=
  match v with
  | .failed => (m.markNegative entry.cacheKey now, entry)
  | .uncached | .unchanged => (m.markStale entry.cacheKey, { entry with stableCount := 0 })
  | .quick => (m.markStale entry.cacheKey, entry)
  | .pending => (m, entry.noteChange result)
  | .rejected =>
      (m.markNegative entry.cacheKey now, { entry.noteChange result with stableCount := 0 })
  | .swapped =>
      (m.hotSwapProfile entry.cacheKey (refreshProfile entry result now),
        { entry.noteChange result with stableCount := 0 })

/-- What a probe found cached, and how it ended. -/
structure ProbeOut where
  cached : Option RealityProfile
  verdict : ProbeVerdict
  deriving DecidableEq

/-- The profile `probeTarget` compares with. -/
def cachedFor (m : CacheManager) (entry : RefreshEntry) (now : Int) : Option RealityProfile :=
  match m.getProfile entry.cacheKey now with
  | .ok (_, p, _) => p
  | .error _ => none

def probeOut (m : CacheManager) (entry : RefreshEntry) (outcome : Option ProbeResult)
    (now : Int) : ProbeOut :=
  match outcome with
  | none => ⟨none, .failed⟩
  | some result =>
      ⟨cachedFor m entry now, probeVerdict (cachedFor m entry now) entry result now⟩

/-- Probes of one entry, each with its outcome (a result or an error) and its time. -/
def refreshMachine : Machine (CacheManager × RefreshEntry) (Option ProbeResult × Int) ProbeOut where
  step s x :=
    match probeTarget s.1 s.2 x.1 x.2 with
    | .ok s' => some (s', probeOut s.1 s.2 x.1 x.2)
    | .error _ => none

/-! ## The two phases -/

section Phases

variable {m m' : CacheManager} {entry : RefreshEntry} {p : RealityProfile} {result : ProbeResult}
variable {cached : Option RealityProfile} {stale : Bool} {now : Int}

/-- Counting a change leaves the target as it is. -/
theorem noteChange_same (entry : RefreshEntry) (result : ProbeResult) :
    (entry.noteChange result).cacheKey = entry.cacheKey ∧
      (entry.noteChange result).dest = entry.dest ∧
      (entry.noteChange result).serverName = entry.serverName ∧
      (entry.noteChange result).alpn = entry.alpn := by
  unfold RefreshEntry.noteChange
  split <;> exact ⟨rfl, rfl, rfl, rfl⟩

@[simp] theorem noteChange_cacheKey (entry : RefreshEntry) (result : ProbeResult) :
    (entry.noteChange result).cacheKey = entry.cacheKey := (noteChange_same entry result).1

@[simp] theorem noteChange_alpn (entry : RefreshEntry) (result : ProbeResult) :
    (entry.noteChange result).alpn = entry.alpn := (noteChange_same entry result).2.2.2

theorem fullUnchanged_eq_false :
    fullUnchanged p result = false ↔
      p.cipherSuite ≠ result.cipherSuite ∨
        recordLensMatch p.recordLens result.recordLens = false := by
  rw [fullUnchanged, Bool.and_eq_false_iff, decide_eq_false_iff_not]

/-- **`probeTarget` on a result** is its verdict, acted on. -/
theorem probeTarget_of_result (hget : m.getProfile entry.cacheKey now = .ok (m', cached, stale)) :
    probeTarget m entry (some result) now
      = .ok ((probeVerdict cached entry result now).act m' entry result now) := by
  simp only [probeTarget, hget, bind, Except.bind]
  cases cached with
  | none => rfl
  | some p =>
      have hquick : (decide (p.cipherSuite = result.cipherSuite) &&
          decide (result.recordLens 1 = p.recordLens 1) &&
          decide (result.recordLens 2 = p.recordLens 2)) = quickUnchanged p result := rfl
      have hfull : (decide (p.cipherSuite ≠ result.cipherSuite) ||
          !recordLensMatch p.recordLens result.recordLens) = !fullUnchanged p result := by
        rw [fullUnchanged, Bool.not_and, decide_not]
      simp only [hquick, hfull, probeVerdict]
      by_cases hexp : p.isExpired now = true
      · simp [hexp, ProbeVerdict.act]
      by_cases hq : quickUnchanged p result = true
      · simp [hexp, hq, ProbeVerdict.act]
      by_cases hf : fullUnchanged p result = true
      · simp [hexp, hq, hf, ProbeVerdict.act]
      by_cases hcount : (entry.noteChange result).stableCount < 2
      · simp [hexp, hq, hf, hcount, ProbeVerdict.act, not_le.mpr hcount]
      by_cases hlens : validateRecordLens result.recordLens = true
      · simp [hexp, hq, hf, hcount, hlens, ProbeVerdict.act, not_lt.mp hcount, refreshProfile]
      · simp [hexp, hq, hf, hcount, hlens, ProbeVerdict.act, not_lt.mp hcount]

/-- The lengths phase A does not look at: R0 and R3..R5 agree, R6 up to the tolerance. -/
def RestUnchanged (p : RealityProfile) (result : ProbeResult) : Prop :=
  (∀ i : Fin 7, i.val = 0 ∨ (3 ≤ i.val ∧ i.val ≤ 5) → p.recordLens i = result.recordLens i) ∧
    (p.recordLens 6 - result.recordLens 6).natAbs ≤ 64

theorem recordLensMatch_iff {a b : RecordLens} :
    recordLensMatch a b = true ↔
      (∀ i : Fin 7, i.val ≤ 5 → a i = b i) ∧ (a 6 - b 6).natAbs ≤ 64 := by
  simp only [recordLensMatch, Bool.and_eq_true, List.all_eq_true, List.mem_range,
    decide_eq_true_eq]
  refine and_congr ⟨?_, ?_⟩ Iff.rfl
  · intro h i hi
    have hlen := h i.val (by omega)
    rwa [Fin.ofNat_val_eq_self] at hlen
  · intro h i hi
    refine h (Fin.ofNat 7 i) ?_
    rw [Fin.val_ofNat]
    omega

/-- **What phase A waves through is unchanged for phase B exactly when the lengths
it does not look at are.** The probe ends there, with the entry as it was. -/
theorem quick_check_agrees_iff
    (hget : m.getProfile entry.cacheKey now = .ok (m', some p, stale))
    (hfresh : p.isExpired now = false) (hquick : quickUnchanged p result = true) :
    probeTarget m entry (some result) now = .ok (m'.markStale entry.cacheKey, entry) ∧
      (fullUnchanged p result = true ↔ RestUnchanged p result) := by
  constructor
  · rw [probeTarget_of_result hget]
    simp [probeVerdict, hfresh, hquick, ProbeVerdict.act]
  · simp only [quickUnchanged, Bool.and_eq_true, decide_eq_true_eq] at hquick
    obtain ⟨⟨hsuite, h1⟩, h2⟩ := hquick
    simp only [fullUnchanged, hsuite, decide_true, Bool.true_and, recordLensMatch_iff,
      RestUnchanged]
    refine and_congr ⟨?_, ?_⟩ Iff.rfl
    · intro h i hi
      exact h i (by omega)
    · intro h i hi
      -- R1 and R2 are what phase A compared.
      by_cases hi1 : i = 1
      · rw [hi1, h1]
      by_cases hi2 : i = 2
      · rw [hi2, h2]
      · have hv1 : i.val ≠ 1 := fun hv => hi1 (Fin.ext hv)
        have hv2 : i.val ≠ 2 := fun hv => hi2 (Fin.ext hv)
        exact h i (by omega)

end Phases

/-! A target with a cached profile, and what its probes bring. -/

def sampleTarget : RefreshEntry := newRefreshEntry (str "d:443") (str "a.io") (str "h2")

def sampleCached : RealityProfile :=
  { recordLens := ![127, 6, 41, 900, 281, 58, 0], cipherSuite := 0x1301, capturedAt := 0 }

def sampleRefreshed : CacheManager :=
  newCacheManager.hotSwapProfile sampleTarget.cacheKey sampleCached

def sameResult : ProbeResult :=
  { cipherSuite := 0x1301, recordLens := ![127, 6, 41, 900, 281, 58, 0], recordCount := 6 }

/-- A new certificate: R3 has grown. -/
def rotatedResult : ProbeResult :=
  { sameResult with recordLens := ![127, 6, 41, 1300, 281, 58, 0] }

/-- Another cipher suite. -/
def changedResult : ProbeResult := { sameResult with cipherSuite := 0x1302 }

theorem quick_check_agrees_same :
    quickUnchanged sampleCached sameResult = true ∧
      probeTarget sampleRefreshed sampleTarget (some sameResult) 5
        = .ok (sampleRefreshed.markStale sampleTarget.cacheKey, sampleTarget) ∧
      (fullUnchanged sampleCached sameResult = true ↔ RestUnchanged sampleCached sameResult) := by
  have hget : sampleRefreshed.getProfile sampleTarget.cacheKey 5
      = .ok (sampleRefreshed, some sampleCached, false) := rfl
  exact ⟨rfl, quick_check_agrees_iff hget rfl rfl⟩

/-- **A rotated certificate passes the quick check**: R3 differs, phase B would see it,
and the probe ends with the profile kept and nothing noted. -/
theorem rotation_hidden_by_quick_check :
    sampleRefreshed.getProfile sampleTarget.cacheKey 5
        = .ok (sampleRefreshed, some sampleCached, false) ∧
      sampleCached.isExpired 5 = false ∧
      quickUnchanged sampleCached rotatedResult = true ∧
      fullUnchanged sampleCached rotatedResult = false ∧
      sampleCached.recordLens 3 ≠ rotatedResult.recordLens 3 ∧
      probeTarget sampleRefreshed sampleTarget (some rotatedResult) 5
        = .ok (sampleRefreshed.markStale sampleTarget.cacheKey, sampleTarget) :=
  ⟨rfl, rfl, rfl, rfl, by decide, rfl⟩

/-! ## The debouncing -/

section Debouncing

variable {m m' : CacheManager} {entry : RefreshEntry} {p : RealityProfile} {result : ProbeResult}
variable {key : Bytes} {stale : Bool} {now : Int}

/-- A profile that `GetProfile` returns stands in an entry that is not negative, and
stays there. -/
theorem getProfile_some (h : m.getProfile key now = .ok (m', some p, stale)) :
    (∃ e, m.load key = some e ∧ e.profile = some p ∧ e.state ≠ .negative) ∧
      ∃ e, m'.load key = some e ∧ e.profile = some p := by
  have hfound : ∃ e, m.load key = some e ∧ e.profile = some p ∧ e.state ≠ .negative := by
    unfold CacheManager.getProfile at h
    cases hl : m.load key with
    | none => rw [hl] at h; cases h
    | some e =>
        refine ⟨e, rfl, ?_⟩
        rw [hl] at h
        dsimp only at h
        cases hs : e.state with
        | valid =>
            rw [hs] at h
            dsimp only at h
            cases hp : e.profile with
            | none => rw [hp] at h; cases h
            | some q =>
                rw [hp] at h
                dsimp only at h
                split at h <;> cases h <;> exact ⟨rfl, by decide⟩
        | stale =>
            rw [hs] at h
            simp only [Except.ok.injEq, Prod.mk.injEq] at h
            exact ⟨h.2.1, by decide⟩
        | negative =>
            rw [hs] at h
            dsimp only at h
            split at h <;> cases h
        | suspect => rw [hs] at h; cases h
        | quarantined => rw [hs] at h; cases h
  refine ⟨hfound, ?_⟩
  obtain ⟨e, hl, hp, hneg⟩ := hfound
  rcases CacheManager.getProfile_ok h with rfl | ⟨e', hl', -, rfl⟩ | ⟨e', hl', hneg', -, -⟩
  · exact ⟨e, hl, hp⟩
  · rw [hl] at hl'
    cases hl'
    exact ⟨_, CacheManager.load_put_self .., hp⟩
  · rw [hl] at hl'
    cases hl'
    exact absurd hneg' hneg

theorem load_markNegative (m : CacheManager) (key : Bytes) (now : Int) :
    ∃ e, (m.markNegative key now).load key = some e ∧ e.state = .negative := by
  unfold CacheManager.markNegative
  cases m.load key with
  | none => exact ⟨_, CacheManager.load_put_self .., rfl⟩
  | some e => exact ⟨_, CacheManager.load_put_self .., rfl⟩

/-- **Inversion of a probe.** -/
theorem refreshStep_cases {s s' : CacheManager × RefreshEntry} {outcome : Option ProbeResult}
    {out : ProbeOut} (h : refreshMachine.step s (outcome, now) = some (s', out)) :
    (outcome = none ∧ s' = (s.1.markNegative s.2.cacheKey now, s.2) ∧ out = ⟨none, .failed⟩) ∨
    ∃ result m' cached stale, outcome = some result ∧
      s.1.getProfile s.2.cacheKey now = .ok (m', cached, stale) ∧
      out = ⟨cached, probeVerdict cached s.2 result now⟩ ∧
      s' = (probeVerdict cached s.2 result now).act m' s.2 result now := by
  cases outcome with
  | none =>
      cases h
      exact .inl ⟨rfl, rfl, rfl⟩
  | some result =>
      refine .inr ⟨result, ?_⟩
      simp only [refreshMachine] at h
      cases hget : s.1.getProfile s.2.cacheKey now with
      | error e =>
          have hpanic : probeTarget s.1 s.2 (some result) now = .error e := by
            simp only [probeTarget, hget]
            rfl
          rw [hpanic] at h
          cases h
      | ok r =>
          obtain ⟨m', cached, stale⟩ := r
          rw [probeTarget_of_result hget] at h
          have hcached : cachedFor s.1 s.2 now = cached := by
            simp only [cachedFor, hget]
          simp only [probeOut, hcached, Option.some.injEq, Prod.mk.injEq] at h
          exact ⟨m', cached, stale, rfl, rfl, h.2.symm, h.1.symm⟩

/-- A difference, counted for the first time or once more. -/
theorem probeVerdict_changed {cached : Option RealityProfile}
    (h : probeVerdict cached entry result now = .pending ∨
      probeVerdict cached entry result now = .swapped) :
    ∃ p, cached = some p ∧ fullUnchanged p result = false ∧
      (probeVerdict cached entry result now = .pending ↔
        (entry.noteChange result).stableCount < 2) := by
  unfold probeVerdict at h ⊢
  cases cached with
  | none => simp at h
  | some p =>
      refine ⟨p, rfl, ?_⟩
      dsimp only at h ⊢
      by_cases hexp : p.isExpired now = true
      · simp [hexp] at h
      by_cases hq : quickUnchanged p result = true
      · simp [hexp, hq] at h
      by_cases hf : fullUnchanged p result = true
      · simp [hexp, hq, hf] at h
      refine ⟨by simpa using hf, ?_⟩
      rw [if_neg hexp, if_neg hq, if_neg hf]
      constructor
      · intro hpend
        by_contra hcount
        rw [if_neg hcount] at hpend
        split at hpend <;> cases hpend
      · intro hcount
        rw [if_pos hcount]

theorem noteChange_last (entry : RefreshEntry) (result : ProbeResult) :
    (entry.noteChange result).lastProbeCipherSuite = result.cipherSuite ∧
      (entry.noteChange result).lastProbeLens = result.recordLens := by
  unfold RefreshEntry.noteChange
  split
  next h =>
    simp only [Bool.and_eq_true, decide_eq_true_eq] at h
    exact h
  · exact ⟨rfl, rfl⟩

/-- Only a result like the last one is counted twice. -/
theorem noteChange_twice (hcount : entry.stableCount ≤ 1)
    (h : 2 ≤ (entry.noteChange result).stableCount) :
    entry.stableCount = 1 ∧ entry.lastProbeCipherSuite = result.cipherSuite ∧
      entry.lastProbeLens = result.recordLens := by
  unfold RefreshEntry.noteChange at h
  split at h
  next hsame =>
    simp only [Bool.and_eq_true, decide_eq_true_eq] at hsame
    dsimp only at h
    exact ⟨by omega, hsame⟩
  · dsimp only at h
    omega

abbrev RefreshTrace : Type := List ((Option ProbeResult × Int) × ProbeOut)

/-- The last probe of the trace found a difference from `p`, the one the entry notes. -/
def EndsPending (tr : RefreshTrace) (entry : RefreshEntry) (p : RealityProfile) : Prop :=
  ∃ tr₀ r t, tr = tr₀ ++ [((some r, t), ⟨some p, .pending⟩)] ∧
    r.cipherSuite = entry.lastProbeCipherSuite ∧ r.recordLens = entry.lastProbeLens

/-- What a count of one stands for: the last probe, as long as no probe has failed
since. A failed probe leaves the count, but the negative entry it also leaves makes
the next result an uncached one. -/
structure Counting (tr : RefreshTrace) (s : CacheManager × RefreshEntry) : Prop where
  bound : s.2.stableCount ≤ 1
  noted : s.2.stableCount = 1 → ∃ e, s.1.load s.2.cacheKey = some e ∧
    (e.state = .negative ∨ ∃ p, e.profile = some p ∧ EndsPending tr s.2 p)

theorem Counting.reset {tr : RefreshTrace} {s : CacheManager × RefreshEntry}
    (h : s.2.stableCount = 0) : Counting tr s :=
  ⟨by omega, fun h1 => absurd h1 (by omega)⟩

/-- A probe that phase A ends finds no change pending. -/
def QuickFindsNone (_ : RefreshTrace) (s : CacheManager × RefreshEntry)
    (x : Option ProbeResult × Int) : Prop :=
  (probeOut s.1 s.2 x.1 x.2).verdict = .quick → s.2.stableCount = 0

theorem Counting.step {tr : RefreshTrace} {s s' : CacheManager × RefreshEntry}
    {x : Option ProbeResult × Int} {out : ProbeOut} (h : Counting tr s)
    (hquick : QuickFindsNone tr s x) (hstep : refreshMachine.step s x = some (s', out)) :
    Counting (tr ++ [(x, out)]) s' := by
  obtain ⟨outcome, now⟩ := x
  rcases refreshStep_cases hstep with
    ⟨rfl, rfl, rfl⟩ | ⟨result, m', cached, stale, rfl, hget, rfl, rfl⟩
  · refine ⟨h.bound, fun _ => ?_⟩
    obtain ⟨e, hl, hneg⟩ := load_markNegative s.1 s.2.cacheKey now
    exact ⟨e, hl, .inl hneg⟩
  · have hcached : cachedFor s.1 s.2 now = cached := by
      simp only [cachedFor, hget]
    simp only [QuickFindsNone, probeOut, hcached] at hquick
    cases hv : probeVerdict cached s.2 result now with
    | failed => exact absurd hv (by unfold probeVerdict; grind)
    | uncached => exact .reset rfl
    | unchanged => exact .reset rfl
    | rejected => exact .reset rfl
    | swapped => exact .reset rfl
    | quick => exact .reset (hquick hv)
    | pending =>
        obtain ⟨p, rfl, -, hcount⟩ := probeVerdict_changed (.inl hv)
        obtain ⟨-, e, hl, hp⟩ := getProfile_some hget
        have hlast := noteChange_last s.2 result
        refine ⟨?_, fun _ => ⟨e, ?_,
          .inr ⟨p, hp, tr, result, now, rfl, hlast.1.symm, hlast.2.symm⟩⟩⟩
        · have hlt := hcount.mp hv
          exact Nat.le_of_lt_succ hlt
        · exact (congrArg m'.load (noteChange_cacheKey s.2 result)).trans hl

/-- **A swap is confirmed by the probe just before it**, if no probe that phase A ended
came while a change was pending. -/
theorem swap_confirmed {m₀ : CacheManager} {entry₀ : RefreshEntry} {tr : RefreshTrace}
    {s s' : CacheManager × RefreshEntry} {outcome : Option ProbeResult} {out : ProbeOut}
    (hstart : entry₀.stableCount = 0)
    (hrun : refreshMachine.Meets QuickFindsNone (m₀, entry₀) tr s)
    (hstep : refreshMachine.step s (outcome, now) = some (s', out))
    (hswap : out.verdict = .swapped) :
    ∃ tr₀ r r' t p, outcome = some r ∧ out.cached = some p ∧
      tr = tr₀ ++ [((some r', t), ⟨some p, .pending⟩)] ∧
      (r'.cipherSuite = r.cipherSuite ∧ r'.recordLens = r.recordLens) ∧
      (p.cipherSuite ≠ r.cipherSuite ∨ recordLensMatch p.recordLens r.recordLens = false) ∧
      (p.cipherSuite ≠ r'.cipherSuite ∨ recordLensMatch p.recordLens r'.recordLens = false) := by
  have hcounting : Counting tr s :=
    hrun.invariant (I := Counting) (.reset hstart) fun _ _ _ _ _ hi hc hs => hi.step hc hs
  rcases refreshStep_cases hstep with
    ⟨-, -, rfl⟩ | ⟨r, m', cached, stale, rfl, hget, rfl, -⟩
  · cases hswap
  · obtain ⟨p, rfl, hdiff, hcount⟩ := probeVerdict_changed (.inr hswap)
    have htwo : 2 ≤ (s.2.noteChange r).stableCount := by
      by_contra hlt
      rw [hcount.mpr (by omega)] at hswap
      cases hswap
    obtain ⟨hone, hsuite, hlens⟩ := noteChange_twice hcounting.bound htwo
    obtain ⟨e, hl, hcase⟩ := hcounting.noted hone
    -- The entry is the one the profile was read from, so it is not negative.
    obtain ⟨⟨e', hl', hp', hneg⟩, -⟩ := getProfile_some hget
    rw [hl] at hl'
    cases hl'
    rcases hcase with hnegative | ⟨p', hp, tr₀, r', t, rfl, hsuite', hlens'⟩
    · exact absurd hnegative hneg
    · rw [hp] at hp'
      cases hp'
      have hsame : r'.cipherSuite = r.cipherSuite ∧ r'.recordLens = r.recordLens :=
        ⟨hsuite'.trans hsuite, hlens'.trans hlens⟩
      have hr := fullUnchanged_eq_false.mp hdiff
      refine ⟨tr₀, r, r', t, p, rfl, rfl, rfl, hsame, hr, ?_⟩
      rw [hsame.1, hsame.2]
      exact hr

end Debouncing

/-- The check of `QuickFindsNone` along an execution. -/
def quickFindsNoneCheck (s : CacheManager × RefreshEntry) (x : Option ProbeResult × Int) : Bool :=
  (probeOut s.1 s.2 x.1 x.2).verdict ≠ .quick || s.2.stableCount = 0

theorem quickFindsNone_of_check {tr : RefreshTrace} {s : CacheManager × RefreshEntry}
    {x : Option ProbeResult × Int} (h : quickFindsNoneCheck s x = true) :
    QuickFindsNone tr s x := by
  intro hq
  simpa [quickFindsNoneCheck, hq] using h

/-- A probe without news, then a change, and the change once more. -/
theorem swap_confirmed_twice :
    ∃ tr s s' out,
      refreshMachine.Meets QuickFindsNone (sampleRefreshed, sampleTarget) tr s ∧
      refreshMachine.step s (some changedResult, 4) = some (s', out) ∧ out.verdict = .swapped ∧
      ∃ tr₀ r r' t p, some changedResult = some r ∧ out.cached = some p ∧
        tr = tr₀ ++ [((some r', t), ⟨some p, .pending⟩)] ∧
        (r'.cipherSuite = r.cipherSuite ∧ r'.recordLens = r.recordLens) ∧
        (p.cipherSuite ≠ r.cipherSuite ∨ recordLensMatch p.recordLens r.recordLens = false) ∧
        (p.cipherSuite ≠ r'.cipherSuite ∨
          recordLensMatch p.recordLens r'.recordLens = false) := by
  obtain ⟨tr, s, hrun, hswap⟩ : ∃ tr s,
      refreshMachine.Meets QuickFindsNone (sampleRefreshed, sampleTarget) tr s ∧
      (refreshMachine.step s (some changedResult, 4)).any
        (fun r => r.2.verdict = .swapped) = true :=
    Machine.Meets.exists_of_exec quickFindsNoneCheck
      [(some sameResult, 1), (some changedResult, 3)]
      (fun _ _ _ _ h => quickFindsNone_of_check h) (by decide +kernel)
  cases hstep : refreshMachine.step s (some changedResult, 4) with
  | none => rw [hstep] at hswap; cases hswap
  | some r =>
      rw [hstep] at hswap
      have hverdict : r.2.verdict = .swapped := by simpa using hswap
      exact ⟨tr, s, r.1, r.2, hrun, hstep, hverdict, swap_confirmed rfl hrun hstep hverdict⟩

/-- **A swap that the probe before it contradicts**: the change, a probe without it
that phase A ends, and the change again. -/
theorem swap_after_agreement :
    ∃ tr s, refreshMachine.Run (sampleRefreshed, sampleTarget) tr s ∧
      tr.map (fun x => (x.1.1, x.2.verdict))
        = [(some changedResult, .pending), (some sameResult, .quick),
          (some changedResult, .swapped)] := by
  refine Machine.Run.exists_of_exec
    [(some changedResult, 1), (some sameResult, 2), (some changedResult, 3)] ?_
  decide +kernel

end Reality
