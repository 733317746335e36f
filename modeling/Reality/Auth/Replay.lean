import Reality.Auth.Authenticate

/-!
# Replayed ClientHellos

Whether one ClientHello can authenticate TWICE. Two windows have to fit: the
time check lets a hello pass while the clock is within `W` of the time `T`
sealed in it, on either side, and the guard refuses it for `W` after it was
marked. A hello marked at `m ≥ T` is refused until `m + W`, which is past
`T + W`, where the time check takes over. A hello from a client whose clock is
AHEAD is marked before `T`, forgotten before `T + W`, and then passes again
(`early_hello_replayed`).

Calls run concurrently; the guard's lock orders them, so a run lists them by
their mark. The time check of a call comes before its mark and after anything.
-/

namespace Reality

open Kit

structure AuthState where
  guard : Option ReplayGuard
  now : Int

inductive AuthOp where
  | authenticate (ch : ClientHelloMsg) (r : Readings)
  | gc (now : Int)

/-- The clock never goes back. -/
def authStep (crypto : AuthCrypto) (config : AuthConfig) (s : AuthState) :
    AuthOp → Option (AuthState × Bool)
  | .authenticate ch r =>
      if r.check ≤ r.evict ∧ r.evict ≤ r.mark ∧ s.now ≤ r.mark then
        let res := authenticateClientHello crypto config ch s.guard r
        some (⟨res.guard, r.mark⟩, res.accepted)
      else none
  | .gc now =>
      if s.now ≤ now then some (⟨s.guard.map (·.gcTick now), now⟩, false) else none

def authMachine (crypto : AuthCrypto) (config : AuthConfig) : Machine AuthState AuthOp Bool :=
  ⟨authStep crypto config⟩

/-- A server as it starts at `now`. -/
def authStart (config : AuthConfig) (now : Int) : AuthState :=
  ⟨initReplayGuard config none now, now⟩

/-- A call that accepted `ch`. -/
def accepts (ch : ClientHelloMsg) (x : AuthOp × Bool) : Bool :=
  match x.1 with
  | .authenticate ch' _ => decide (ch' = ch) && x.2
  | .gc _ => false

/-- The client's clock as it is sealed in a hello. -/
def sealedTime (crypto : AuthCrypto) (config : AuthConfig) (ch : ClientHelloMsg) : Option Int :=
  (authKey crypto config ch).bind fun key => (openBox crypto key ch).map AuthConn.clientTime

/-- The guard has room. -/
def HasRoom (s : AuthState) : Prop := ∀ g, s.guard = some g → g.count < g.maxEntries

/-- A hello that passes the time check is marked at most the window behind the
time sealed in it, and not before that time. -/
def MarkedInTime (crypto : AuthCrypto) (config : AuthConfig) : AuthOp → Prop
  | .authenticate ch r => ∀ t, sealedTime crypto config ch = some t →
      durationAbs (timeSub r.check t) ≤ config.timeDiff →
      t ≤ r.mark ∧ r.mark ≤ t + config.timeDiff
  | .gc _ => True

/-! ## One call -/

variable {crypto : AuthCrypto} {config : AuthConfig}

theorem acceptable_timeDiff {c : AuthConn} {now : Int} (h : acceptable config c now = true)
    (hdiff : 0 ≤ config.timeDiff) :
    durationAbs (timeSub now c.clientTime) ≤ config.timeDiff := by
  unfold acceptable at h
  simp only [Bool.not_eq_true', Bool.or_eq_false_iff, Bool.and_eq_false_iff,
    decide_eq_false_iff_not] at h
  rcases h.1.2 with hneg | hle
  · exact absurd hdiff hneg
  · omega

/-- **Inversion of a call** with room in the guard: it leaves the guard alone
and refuses, or its hello passed the time check and was marked. -/
theorem authenticate_cases (crypto : AuthCrypto) {config : AuthConfig} (ch : ClientHelloMsg)
    {g : ReplayGuard} (r : Readings) (hdiff : 0 ≤ config.timeDiff)
    (hroom : g.count < g.maxEntries) :
    (authenticateClientHello crypto config ch (some g) r).accepted = false ∧
      (authenticateClientHello crypto config ch (some g) r).guard = some g ∨
    (∃ t, sealedTime crypto config ch = some t ∧
      durationAbs (timeSub r.check t) ≤ config.timeDiff) ∧
      (authenticateClientHello crypto config ch (some g) r).accepted
        = (g.mark (ch.random.take 20) r.mark).2 ∧
      (authenticateClientHello crypto config ch (some g) r).guard
        = some (g.mark (ch.random.take 20) r.mark).1 := by
  unfold authenticateClientHello
  cases hkey : authKey crypto config ch with
  | none => exact .inl ⟨rfl, rfl⟩
  | some key =>
      dsimp only
      cases hbox : openBox crypto key ch with
      | none => exact .inl ⟨rfl, rfl⟩
      | some conn =>
          dsimp only
          cases hok : acceptable config conn r.check with
          | false => exact .inl ⟨rfl, rfl⟩
          | true =>
              have htime : sealedTime crypto config ch = some conn.clientTime := by
                rw [sealedTime, hkey, Option.bind_some, hbox]
                rfl
              have hmark : g.checkAndMark (ch.random.take 20) r.evict r.mark r.order
                  = g.mark (ch.random.take 20) r.mark :=
                if_neg (by omega)
              refine .inr ⟨⟨_, htime, acceptable_timeDiff hok hdiff⟩, ?_, ?_⟩
              · show (g.checkAndMark (ch.random.take 20) r.evict r.mark r.order).2 = _
                rw [hmark]
              · show some (g.checkAndMark (ch.random.take 20) r.evict r.mark r.order).1 = _
                rw [hmark]

/-! ## Whole runs -/

/-- `ch` was never accepted, or once, after the time sealed in it, and the
guard remembers that mark. -/
def OnceRemembered (crypto : AuthCrypto) (config : AuthConfig) (ch : ClientHelloMsg)
    (tr : List (AuthOp × Bool)) (g : ReplayGuard) (now : Int) : Prop :=
  tr.countP (accepts ch) = 0 ∨
    tr.countP (accepts ch) = 1 ∧
      ∃ t m, sealedTime crypto config ch = some t ∧ t ≤ m ∧
        g.Remembers (ch.random.take 20) m now

structure ReplayInv (crypto : AuthCrypto) (config : AuthConfig) (ch : ClientHelloMsg)
    (tr : List (AuthOp × Bool)) (s : AuthState) : Prop where
  guarded : ∃ g, s.guard = some g ∧ g.window = config.timeDiff ∧
    OnceRemembered crypto config ch tr g s.now

variable {ch : ClientHelloMsg} {tr : List (AuthOp × Bool)} {g g' : ReplayGuard} {now now' : Int}

/-- A step that does not accept `ch` and keeps what is remembered. -/
theorem OnceRemembered.skip (h : OnceRemembered crypto config ch tr g now)
    {x : AuthOp × Bool} (hx : accepts ch x = false)
    (hkeep : ∀ p m, g.Remembers p m now → g'.Remembers p m now') :
    OnceRemembered crypto config ch (tr ++ [x]) g' now' := by
  have hcount : (tr ++ [x]).countP (accepts ch) = tr.countP (accepts ch) := by
    rw [List.countP_append, List.countP_singleton, hx]
    rfl
  rcases h with h | ⟨h, t, m, ht, hm, hrem⟩
  · exact .inl (hcount.trans h)
  · exact .inr ⟨hcount.trans h, t, m, ht, hm, hkeep _ m hrem⟩

/-- A mark that accepts `ch` in time is its first. -/
theorem OnceRemembered.accept (h : OnceRemembered crypto config ch tr g now)
    (hw : g.window = config.timeDiff) (hnow : now ≤ now') {t : Int}
    (ht : sealedTime crypto config ch = some t) (hin : t ≤ now' ∧ now' ≤ t + config.timeDiff)
    (hok : (g.mark (ch.random.take 20) now').2 = true) {x : AuthOp × Bool}
    (hx : accepts ch x = true) :
    OnceRemembered crypto config ch (tr ++ [x]) (g.mark (ch.random.take 20) now').1 now' := by
  rcases h with h | ⟨-, t', m, ht', hm, hrem⟩
  · refine .inr ⟨?_, t, now', ht, hin.1, ReplayGuard.remembers_of_mark hok⟩
    rw [List.countP_append, List.countP_singleton, hx, h]
    rfl
  · -- The first mark came no earlier than `t`, so its window covers `now'`.
    cases ht.symm.trans ht'
    have hrefused := (hrem.later hnow).refused (by omega)
    rw [hrefused] at hok
    cases hok

theorem ReplayInv.step {s s' : AuthState} {a : AuthOp} {b : Bool}
    (h : ReplayInv crypto config ch tr s) (hdiff : 0 ≤ config.timeDiff) (hroom : HasRoom s)
    (hin : MarkedInTime crypto config a) (hstep : authStep crypto config s a = some (s', b)) :
    ReplayInv crypto config ch (tr ++ [(a, b)]) s' := by
  obtain ⟨g, hg, hw, honce⟩ := h.guarded
  cases a with
  | authenticate ch' r =>
      rw [authStep] at hstep
      split at hstep
      next hclock =>
        simp only [Option.some.injEq, Prod.mk.injEq] at hstep
        obtain ⟨rfl, rfl⟩ := hstep
        rw [hg]
        rcases authenticate_cases crypto ch' r hdiff (hroom g hg) with
          ⟨hacc, hguard⟩ | ⟨⟨t, ht, hchk⟩, hacc, hguard⟩
        · refine ⟨g, hguard, hw, honce.skip ?_ (fun p m hrem => hrem.later hclock.2.2)⟩
          simp [accepts, hacc]
        · refine ⟨_, hguard, (g.mark_window _ _).trans hw, ?_⟩
          cases hx : accepts ch (.authenticate ch' r,
              (authenticateClientHello crypto config ch' (some g) r).accepted) with
          | false =>
              exact honce.skip hx (fun p m hrem => (hrem.later hclock.2.2).mark _)
          | true =>
              simp only [accepts, Bool.and_eq_true, decide_eq_true_eq] at hx
              obtain ⟨rfl, hok⟩ := hx
              refine honce.accept hw hclock.2.2 ht (hin t ht hchk) (hacc ▸ hok) ?_
              simp [accepts, hok]
      · cases hstep
  | gc t =>
      rw [authStep] at hstep
      split at hstep
      next hclock =>
        simp only [Option.some.injEq, Prod.mk.injEq] at hstep
        obtain ⟨rfl, rfl⟩ := hstep
        refine ⟨g.gcTick t, by rw [hg]; rfl, hw, honce.skip rfl ?_⟩
        intro p m hrem
        exact ReplayGuard.Remembers.sweep (hrem.later hclock) _
      · cases hstep

/-- **A ClientHello is accepted once**: in every run in which the guard has
room and hellos that pass the time check are marked at most a window behind
the time sealed in them and not before it, no hello is accepted twice. -/
theorem accepted_at_most_once (crypto : AuthCrypto) (config : AuthConfig)
    (hdiff : 0 ≤ config.maxTimeDiff) (start : Int) {tr : List (AuthOp × Bool)} {s : AuthState}
    (h : (authMachine crypto config).Meets
      (fun _ s a => HasRoom s ∧ MarkedInTime crypto config a) (authStart config start) tr s)
    (ch : ClientHelloMsg) : tr.countP (accepts ch) ≤ 1 := by
  have hpos : 0 < config.timeDiff := by
    unfold AuthConfig.timeDiff
    split
    · decide
    · omega
  have hinv : ReplayInv crypto config ch tr s := by
    refine h.invariant (I := ReplayInv crypto config ch) ?_ ?_
    · exact ⟨_, if_pos hpos, rfl, .inl rfl⟩
    · intro tr s a s' b hs hc hstep
      exact hs.step (by omega) hc.1 hc.2 hstep
  obtain ⟨g, -, -, hzero | ⟨hone, -⟩⟩ := hinv.guarded
  · omega
  · omega

/-! ## A clock that is ahead -/

/-- A hello whose box is dated `t` seconds after the epoch. -/
def datedHello (t : UInt8) : ClientHelloMsg :=
  let random := List.replicate 32 2
  let sessionId := [1, 0, 0, 0, 0, 0, 0, t] ++ List.replicate 24 0
  { keyShares := [⟨x25519, List.replicate 32 1⟩]
    original := [1, 0, 0, 67, 3, 3] ++ random ++ 32 :: sessionId
    vers := versionTLS12, random := random, sessionId := ⟨39, sessionId⟩, cipherSuites := [] }

/-- A call at `t` seconds after the epoch. -/
def callAt (ch : ClientHelloMsg) (t : Int) : AuthOp :=
  .authenticate ch ⟨t * second, t * second, t * second, []⟩

def roomCheck (s : AuthState) (_ : AuthOp) : Bool := s.guard.all fun g => g.count < g.maxEntries

theorem hasRoom_of_check {s : AuthState} {a : AuthOp} (h : roomCheck s a = true) :
    HasRoom s := by
  intro g hg
  rw [roomCheck, hg] at h
  simpa using h

/-- A hello dated 90 seconds ahead is accepted, and again 91 seconds later. -/
theorem early_hello_replayed :
    0 ≤ sampleAuthConfig.maxTimeDiff ∧
      ∃ tr s, (authMachine plainCrypto sampleAuthConfig).Meets (fun _ s _ => HasRoom s)
          (authStart sampleAuthConfig 0) tr s ∧
        tr.countP (accepts (datedHello 100)) = 2 := by
  refine ⟨by decide, Machine.Meets.exists_of_exec roomCheck
    [callAt (datedHello 100) 10, callAt (datedHello 100) 101]
    (fun _ _ _ _ => hasRoom_of_check) ?_⟩
  decide +kernel

/-- A hello dated right is accepted, and refused for the rest of its time. -/
theorem accepted_at_most_once_dated :
    ∃ tr s, (authMachine plainCrypto sampleAuthConfig).Meets
        (fun _ s a => HasRoom s ∧ MarkedInTime plainCrypto sampleAuthConfig a)
        (authStart sampleAuthConfig 0) tr s ∧
      tr.countP (accepts (datedHello 100)) = 1 ∧ tr.countP (accepts (datedHello 100)) ≤ 1 := by
  have htime : sealedTime plainCrypto sampleAuthConfig (datedHello 100) = some (100 * second) := by
    decide +kernel
  have hin : ∀ t : Int, 100 ≤ t → t ≤ 190 →
      MarkedInTime plainCrypto sampleAuthConfig (callAt (datedHello 100) t) := by
    intro t hlo hhi u hu _
    cases htime.symm.trans hu
    show 100 * second ≤ t * second ∧ t * second ≤ 100 * second + 90 * second
    simp only [second]
    omega
  have hexec : ∃ tr s, (authMachine plainCrypto sampleAuthConfig).Meets
      (fun _ s a => HasRoom s ∧ MarkedInTime plainCrypto sampleAuthConfig a)
      (authStart sampleAuthConfig 0) tr s ∧ tr.countP (accepts (datedHello 100)) = 1 := by
    refine Machine.Meets.exists_of_exec roomCheck
      [callAt (datedHello 100) 100, callAt (datedHello 100) 190] ?_ (by decide +kernel)
    intro a ha tr s hroom
    refine ⟨hasRoom_of_check hroom, ?_⟩
    simp only [List.mem_cons, List.not_mem_nil, or_false] at ha
    rcases ha with rfl | rfl
    · exact hin 100 (by omega) (by omega)
    · exact hin 190 (by omega) (by omega)
  obtain ⟨tr, s, hrun, hone⟩ := hexec
  exact ⟨tr, s, hrun, hone, accepted_at_most_once _ _ (by decide) 0 hrun _⟩

end Reality
