import Reality.Cache.Chain
import Reality.Cache.Coherence
import Reality.Server.System

/-!
# Which entry a failed handshake is charged to

`Server` looks the cache up TWICE: before the dial, when cipher suite and group
are not known, and after the live ServerHello, when they are. Each lookup stops
at the first of the exact, soft and legacy entries that answers. The lengths a
handshake on path L1 is armed with come from the second; the key that
`NoteHandshakeFailure` is told when the handshake fails is the FIRST one's.

The two agree when nothing has been written in between and the entry the first
lookup stopped at has the suite and group the target selected. A target that
changes its suite moves the second lookup on to the soft or the legacy key, and
every failure there counts against the exact one.
-/

namespace Reality

open Kit

/-- A capture on path L1 has seen a ServerHello and asked the cache with what
it selects. -/
theorem captureTargetRecords_asked (env : CaptureEnv) (reads : List Read) :
    (captureTargetRecords env reads).1.path = .l0 ∨
      ∃ hello, (captureTargetRecords env reads).1.hello = some hello ∧
        (env.look hello.cipherSuite hello.serverShare.group).path = .l1 ∧
        (captureTargetRecords env reads).1.asked =
          some (env.look hello.cipherSuite hello.serverShare.group) := by
  refine Capture.readLoop_all (P := fun v => v.path = .l0)
    (Q := fun v => v.path = .l0 ∨ ∃ hello, v.hello = some hello ∧
      (env.look hello.cipherSuite hello.serverShare.group).path = .l1 ∧
      v.asked = some (env.look hello.cipherSuite hello.serverShare.group)) ?_ ?_
    (fun _ => .inl) rfl
  · intro i c v hi _ hc hr
    cases hr <;> exact hc
  · intro i c v hi _ hc hr
    cases hr with
    | @answered n hello lens h0 hempty hpos hn hlen hm hv hl1 =>
        obtain ⟨p, -, hl, -, -⟩ := Capture.l1Lens_eq_some hl1
        exact .inr ⟨hello, rfl, hl, rfl⟩
    | same => exact .inl hc
    | length => exact .inl hc
    | hello => exact .inl hc

theorem System.setSession_self (s : System) (id : Nat) (x : Option Session) :
    (s.setSession id x).sessions id = x := Function.update_self ..

/-- A failure leaves every entry but the one it is charged to as it is. -/
theorem CacheManager.noteHandshakeFailure_load_ne {m : CacheManager} {key k : Bytes}
    (hk : k ≠ key) (path : AmortizePath) (now : Int) :
    (m.noteHandshakeFailure key path now).load k = m.load k := by
  have hstep : cacheStep m (.noteHandshakeFailure key path now) =
      some (m.noteHandshakeFailure key path now, .unit) := rfl
  have hentry := cacheStep_entry hstep k
  generalize (m.noteHandshakeFailure key path now).load k = y, m.load k = x at *
  cases hentry with
  | same => rfl
  | evicted h => cases h
  | failedOut => exact absurd rfl hk
  | failedSuspect => exact absurd rfl hk
  | failed => exact absurd rfl hk

/-! ## A handshake that fails after the cache answered -/

/-- A handshake of `req` on connection `id` whose capture took R1..R6 from the
cache and which then failed. Other goroutines may run between its steps: only
the connection itself is left alone. -/
structure FailedHandshake where
  id : Nat
  req : Request
  /-- Before path selection. -/
  start : System
  acceptedAt : Int
  accepted : System × SysOut
  accept_eq : start.accept id req acceptedAt = some accepted
  /-- Before the capture. -/
  dialed : System
  dialed_eq : dialed.sessions id = accepted.1.sessions id
  reads : List Read
  capturedAt : Int
  captured : System × SysOut
  capture_eq : dialed.capture id reads capturedAt = some captured
  res : CaptureResult
  res_eq : captured.2.captured = some (req, res)
  fromCache : res.path = .l1
  /-- Before the failure. -/
  armed : System
  armed_eq : armed.sessions id = captured.1.sessions id
  certMeta : Option DestCertMeta
  failedAt : Int
  order : List Bytes
  failed : System × SysOut
  finish_eq : armed.finish id false certMeta failedAt order = some failed

namespace FailedHandshake

variable (h : FailedHandshake)

/-- The key `NoteHandshakeFailure` is told. -/
def chargedKey : Bytes := ((h.armed.sessions h.id).map (·.profileKey)).getD []

/-- The key of the entry whose lengths the handshake was armed with. -/
def usedKey : Bytes := (h.res.asked.map (·.key)).getD []

/-- The arguments of the second lookup. -/
def liveQuery : Query :=
  h.req.query ((h.res.hello.map (·.cipherSuite)).getD 0)
    ((h.res.hello.map (·.serverShare.group)).getD 0)

/-- The failure is charged to the entry whose lengths were used, and to no
other. -/
structure ChargesUsed : Prop where
  key : h.chargedKey = h.usedKey
  others : ∀ k, h.failed.1.cache.load k ≠ h.armed.cache.load k → k = h.usedKey

/-- The key the first lookup stopped at: the exact one when nothing answered. -/
def selectedKey : Bytes :=
  (h.start.cache.firstAnswer (h.req.query 0 0) h.acceptedAt).getD h.req.exactKey

/-- The lookup the path was selected with. -/
def preLookup : LookupResult := (h.start.cache.lookupAmortize (h.req.query 0 0) h.acceptedAt).2

theorem accepted_spec :
    h.accepted.1.cache = (h.start.cache.lookupAmortize (h.req.query 0 0) h.acceptedAt).1 ∧
      ∃ stage, h.accepted.1.sessions h.id = some
        ⟨h.req, if h.preLookup.key = [] then h.req.exactKey else h.preLookup.key, stage⟩ := by
  have heq := h.accept_eq
  unfold System.accept at heq
  split at heq
  · cases heq
  · rw [← Option.some.inj heq]
    exact ⟨rfl, _, System.setSession_self ..⟩

theorem preLookup_key :
    (if h.preLookup.key = [] then h.req.exactKey else h.preLookup.key) = h.selectedKey := by
  unfold selectedKey
  rcases CacheManager.lookupAmortize_first h.start.cache (h.req.query 0 0) h.acceptedAt with
    ⟨h0, hnone⟩ | ⟨-, hsome⟩
  · have hkey : h.preLookup.key = [] := by rw [preLookup, h0]
    rw [hnone, if_pos hkey]
    rfl
  · have hkey : h.preLookup.key ≠ [] := CacheManager.ne_nil_of_firstAnswer hsome
    rw [hsome, if_neg hkey]
    rfl

/-- What the second lookup answered with. -/
def liveLookup : LookupResult := (h.dialed.cache.lookupAmortize h.liveQuery h.capturedAt).2

theorem dialed_session {req : Request} {key : Bytes} {stage : Stage}
    (hs : h.dialed.sessions h.id = some ⟨req, key, stage⟩) :
    req = h.req ∧ key = h.selectedKey := by
  obtain ⟨-, stage', hacc⟩ := h.accepted_spec
  rw [h.dialed_eq, hacc, h.preLookup_key] at hs
  cases hs
  exact ⟨rfl, rfl⟩

/-- The capture, as `System.capture` makes it. -/
theorem capture_spec :
    h.res = (captureTargetRecords ⟨h.req.mode, fun suite group =>
        (h.dialed.cache.lookupAmortize (h.req.query suite group) h.capturedAt).2⟩ h.reads).1 ∧
      ∀ x, h.captured.1.sessions h.id = some x → x = ⟨h.req, h.selectedKey, .observed h.res⟩ := by
  have heq := h.capture_eq
  have hres := h.res_eq
  unfold System.capture at heq
  split at heq
  next req key hs =>
    obtain ⟨rfl, rfl⟩ := h.dialed_session hs
    rw [← Option.some.inj heq] at hres ⊢
    have hres : _ = h.res := (Prod.ext_iff.mp (Option.some.inj hres)).2
    refine ⟨hres.symm, ?_⟩
    intro x hx
    rw [← hres]
    rw [System.setSession_self] at hx
    -- A capture that failed leaves no session behind.
    split at hx
    · cases hx
    · exact (Option.some.inj hx).symm
  · cases heq

/-- The lengths are those the second lookup answered with. -/
theorem liveLookup_spec : h.liveLookup.path = .l1 ∧ h.res.asked = some h.liveLookup := by
  have hpath := h.fromCache
  obtain ⟨hres, -⟩ := h.capture_spec
  unfold liveLookup liveQuery
  generalize h.res = res at *
  subst hres
  rcases captureTargetRecords_asked ⟨h.req.mode, fun suite group =>
      (h.dialed.cache.lookupAmortize (h.req.query suite group) h.capturedAt).2⟩ h.reads with
    hl0 | ⟨hello, hhello, hl1, hasked⟩
  · rw [hl0] at hpath
    cases hpath
  · rw [hasked, hhello]
    exact ⟨hl1, rfl⟩

theorem armed_session : h.armed.sessions h.id = some ⟨h.req, h.selectedKey, .observed h.res⟩ := by
  have heq := h.finish_eq
  unfold System.finish at heq
  split at heq
  next req key res hs =>
    have hx : h.captured.1.sessions h.id = some ⟨req, key, .observed res⟩ :=
      h.armed_eq.symm.trans hs
    rw [hs, h.capture_spec.2 _ hx]
  · cases heq

/-- What `finish` does to the cache when the handshake fails. -/
theorem failed_cache :
    h.failed.1.cache = h.armed.cache.noteHandshakeFailure h.chargedKey .l1 h.failedAt := by
  have heq := h.finish_eq
  unfold System.finish at heq
  rw [h.armed_session] at heq
  simp only [Bool.false_eq_true, if_false, Option.some.injEq] at heq
  rw [← heq, chargedKey, h.armed_session, h.fromCache]
  rfl

theorem chargedKey_eq : h.chargedKey = h.selectedKey := by
  rw [chargedKey, h.armed_session]
  rfl

theorem usedKey_eq : h.usedKey = h.liveLookup.key := by
  rw [usedKey, h.liveLookup_spec.2]
  rfl

/-- The entry whose lengths were used is the first that serves the live values. -/
theorem usedKey_first :
    h.liveQuery.keys.find? (h.dialed.cache.serves h.liveQuery) = some h.usedKey := by
  rw [h.usedKey_eq]
  exact CacheManager.find?_serves h.liveLookup_spec.1

theorem chargesUsed_iff_key : h.ChargesUsed ↔ h.usedKey = h.selectedKey := by
  constructor
  · intro hc
    rw [← hc.key, h.chargedKey_eq]
  · intro hkey
    have hcharged : h.chargedKey = h.usedKey := h.chargedKey_eq.trans hkey.symm
    refine ⟨hcharged, ?_⟩
    intro k hk
    by_contra hne
    rw [h.failed_cache, hcharged] at hk
    exact hk (CacheManager.noteHandshakeFailure_load_ne hne _ _)

/-- **Charging the used entry**: a failure is charged to the entry whose lengths
were used exactly when that entry, the first at the capture to serve the suite
and group of the live ServerHello, is the one the first lookup had stopped at. -/
theorem chargesUsed_iff :
    h.ChargesUsed ↔
      h.liveQuery.keys.find? (h.dialed.cache.serves h.liveQuery) = some h.selectedKey := by
  rw [h.usedKey_first, Option.some.injEq]
  exact h.chargesUsed_iff_key

/-- **Undisturbed handshakes**: when nobody wrote to the cache in between, what is
asked of the entry the first lookup stopped at is that it does not contradict the
live ServerHello. -/
theorem chargesUsed_iff_of_undisturbed (hsame : h.dialed.cache = h.accepted.1.cache) :
    h.ChargesUsed ↔
      ∀ k, h.start.cache.firstAnswer (h.req.query 0 0) h.acceptedAt = some k →
        h.start.cache.serves h.liveQuery k = true := by
  have haged : CacheManager.Aged h.start.cache h.dialed.cache := by
    rw [hsame, h.accepted_spec.1]
    exact CacheManager.lookupAmortize_aged ..
  have hstop :
      h.start.cache.firstAnswer (h.req.query 0 0) h.acceptedAt = some h.liveLookup.key ↔
        ∀ k, h.start.cache.firstAnswer (h.req.query 0 0) h.acceptedAt = some k →
          h.start.cache.serves h.liveQuery k = true :=
    CacheManager.firstAnswer_unknown_iff haged h.liveLookup_spec.1
  rw [h.chargesUsed_iff_key, ← hstop, selectedKey, h.usedKey_eq]
  cases hf : h.start.cache.firstAnswer (h.req.query 0 0) h.acceptedAt with
  | none =>
      -- The used entry would have answered the first lookup as well.
      rw [hf] at hstop
      exact absurd (hstop.mpr fun k hk => by cases hk) (by simp)
  | some k => rw [Option.getD_some, Option.some.injEq, eq_comm]

end FailedHandshake

/-! ## A target that changed its suite -/

/-- A request of the sample ClientHello. -/
def rotatedRequest : Request := { dest := str "d:443", ch := sampleClientHello }

/-- An undisturbed handshake of that request over the sample flight, which the
client does not finish. -/
def FailedHandshake.undisturbed (start : System) : Option FailedHandshake :=
  match ha : start.accept 0 rotatedRequest 0 with
  | none => none
  | some accepted =>
      match hc : accepted.1.capture 0 [⟨sampleFlight, none⟩] 0 with
      | none => none
      | some captured =>
          match hr : captured.2.captured with
          | none => none
          | some (req, res) =>
              match hf : captured.1.finish 0 false none 0 [] with
              | none => none
              | some failed =>
                  if h : req = rotatedRequest ∧ res.path = .l1 then
                    some
                      { id := 0, req := rotatedRequest, start := start, acceptedAt := 0
                        accepted := accepted, accept_eq := ha
                        dialed := accepted.1, dialed_eq := rfl
                        reads := [⟨sampleFlight, none⟩], capturedAt := 0
                        captured := captured, capture_eq := hc
                        res := res, res_eq := by rw [hr, h.1], fromCache := h.2
                        armed := captured.1, armed_eq := rfl
                        certMeta := none, failedAt := 0, order := []
                        failed := failed, finish_eq := hf }
                  else none

/-- A cache whose exact entry was captured under `suite`; the soft entry has the
suite the target selects now, 0x1301. -/
def rotatedStart (suite : UInt16) : System :=
  { cache :=
      ((newCacheManager.storeRecovered rotatedRequest.exactKey
          { capturedObs with cipherSuite := suite } 0 []).1.storeRecovered
        rotatedRequest.softKey capturedObs 0 []).1 }

/-- The exact entry is charged, and turns suspect, for lengths that came from
the soft one. -/
theorem rotatedFailure_charged :
    ∃ h, FailedHandshake.undisturbed (rotatedStart 0x1302) = some h ∧
      h.usedKey = rotatedRequest.softKey ∧ h.chargedKey = rotatedRequest.exactKey ∧
      (h.failed.1.cache.load rotatedRequest.exactKey).any
        (fun e => e.failCount = 1 && e.state = .suspect) = true ∧
      ¬ h.ChargesUsed := by
  have hrun : (FailedHandshake.undisturbed (rotatedStart 0x1302)).any (fun h =>
      h.usedKey = rotatedRequest.softKey && h.chargedKey = rotatedRequest.exactKey &&
        (h.failed.1.cache.load rotatedRequest.exactKey).any
          (fun e => e.failCount = 1 && e.state = .suspect)) = true := by
    decide +kernel
  obtain ⟨h, hh, hall⟩ := (Option.any_eq_true _ _).mp hrun
  simp only [Bool.and_eq_true, decide_eq_true_eq] at hall
  obtain ⟨⟨hused, hcharged⟩, hentry⟩ := hall
  have hne : rotatedRequest.exactKey ≠ rotatedRequest.softKey := by decide +kernel
  refine ⟨h, hh, hused, hcharged, by simpa using hentry, fun hc => hne ?_⟩
  rw [← hcharged, ← hused, hc.key]

/-- Where the suites agree, the entry that was used is the one that is charged. -/
theorem steadyFailure_charged :
    ∃ h, FailedHandshake.undisturbed (rotatedStart 0x1301) = some h ∧ h.ChargesUsed := by
  have hrun : (FailedHandshake.undisturbed (rotatedStart 0x1301)).any (fun h =>
      h.liveQuery.keys.find? (h.dialed.cache.serves h.liveQuery) = some h.selectedKey) = true := by
    decide +kernel
  obtain ⟨h, hh, hfirst⟩ := (Option.any_eq_true _ _).mp hrun
  exact ⟨h, hh, h.chargesUsed_iff.mpr (of_decide_eq_true hfirst)⟩

end Reality
