import Reality.Cache.Evidence
import Reality.Server.FirstHand

/-!
# What live evidence counts

`LiveEvidence` of an entry is to be backed by handshakes that DIALED the target.
A ledger beside the server counts, for every key, the observations of such
handshakes that were stored there: by `Server` under the exact and the soft key,
by the event handler under the legacy key.

The handler stores the profile of EVERY event. A zero-dial handshake puts the
cached profile into its event, so its delivery stores evidence that nobody
gathered (`replayed_evidence`). Without such events the evidence at every key is
within the ledger (`live_evidence_backed`).
-/

namespace Reality

open Kit

/-- A call of `StoreObservation` with the profile of a handshake. -/
structure HandshakeStore where
  key : Bytes
  obs : RealityProfile
  now : Int
  order : List Bytes

namespace HandshakeStore

variable (w : HandshakeStore) (m : CacheManager)

/-- The cache it leaves, and what became of the observation. -/
def result : CacheManager × StoreOutcome := m.storeRecovered w.key w.obs w.now w.order

end HandshakeStore

/-- The profile of a handshake that step `a` stores. -/
def System.handshakeStore (s : System) : SysOp → Option HandshakeStore
  -- Only a handshake that completed stores what it has observed.
  | .finish id true certMeta now order =>
      match s.sessions id with
      | some ⟨req, _, .observed res⟩ => some
          { key := req.exactKey
            obs := buildObservationProfile req.dest req.serverName res.hello versionTLS13
              res.usedLen req.chClass req.alpn res.template sourceLive certMeta now
            now := now, order := order }
      | _ => none
  | .index id _ now order =>
      match s.sessions id with
      | some ⟨req, _, .stored obs⟩ =>
          if req.softClass ≠ [] && req.softClass ≠ req.chClass then
            some { key := req.softKey, obs := System.softObs req obs, now := now, order := order }
          else none
      | _ => none
  | .deliver j now order => (s.events[j]?).map fun e =>
      { key := cacheKey e.serverName e.alpn e.tlsVersion, obs := e.profile
        now := now, order := order }
  | _ => none

/-- For each queued event whether its handshake dialed, and for each key how many
observations of handshakes that dialed were stored there. -/
structure Ledger where
  dialed : List Bool := []
  stored : Bytes → Nat := fun _ => 0

namespace Ledger

/-- A step that stores the profile of a handshake that dialed. -/
def fromDial (l : Ledger) : SysOp → Bool
  | .deliver j _ _ => l.dialed.getD j false
  | _ => true

def count (l : Ledger) (key : Bytes) : Bytes → Nat :=
  Function.update l.stored key (l.stored key + 1)

/-- Step `a` led from `s` to `s'`. -/
def note (l : Ledger) (s : System) (a : SysOp) (s' : System) : Ledger where
  dialed :=
    match a with
    -- The bus drops events when it is full, so the queue may not have grown.
    | .zeroDial .. => if s.events.length < s'.events.length then l.dialed ++ [false] else l.dialed
    | .index .. => if s.events.length < s'.events.length then l.dialed ++ [true] else l.dialed
    | .deliver j _ _ => l.dialed.eraseIdx j
    | _ => l.dialed
  stored :=
    match s.handshakeStore a with
    -- An observation that is ignored is no evidence.
    | some w => if l.fromDial a && (w.result s.cache).2 ≠ .ignored then l.count w.key else l.stored
    | none => l.stored

end Ledger

/-- The server with a ledger beside it. -/
def ledgerMachine : Machine (System × Ledger) SysOp SysOut where
  step x a := (sysStep x.1 a).map fun r => ((r.1, x.2.note x.1 a r.1), r.2)

/-- A step that belongs to a zero-dial handshake: the handshake itself, or the
delivery of its event. -/
def ZeroDialStep (l : Ledger) : SysOp → Prop
  | .zeroDial .. => True
  | .deliver j _ _ => l.dialed[j]? = some false
  | _ => False

/-- Nothing is stored from elsewhere, and the event of a zero-dial handshake is
not queued. -/
def NoReplayedEvent : SysOp → Prop
  | .zeroDial _ _ ok queued _ => (ok && queued) = false
  | .cache op => op.writes = none
  | _ => True

theorem NoReplayedEvent.cache {a : SysOp} (h : NoReplayedEvent a) (op : CacheOp)
    (ha : a = .cache op) : op.writes = none := by
  subst ha
  exact h

/-! ## What a store adds -/

theorem startsFrom_ne_ignored {o : StoreOutcome} {obs p : RealityProfile}
    (h : startsFrom o obs p) : o ≠ .ignored := by
  rcases h with ⟨rfl | rfl, -⟩ | ⟨rfl, -⟩ <;> decide

/-- A probe starts without live evidence. -/
theorem startsFrom_probe {o : StoreOutcome} {obs p : RealityProfile} (hp : isProbe obs = true)
    (h : startsFrom o (normalizeObs obs) p) : p.liveEvidence = 0 := by
  have hp : isProbe (normalizeObs obs) = true := by rw [isProbe_normalizeObs, hp]
  rcases h with ⟨-, rfl | rfl⟩ | ⟨-, rfl⟩
  · simp [stampFirst, hp]
  · simp [stampFirst, hp]
  · simp [stampNew, hp]

/-- The entries have no more live evidence than `n` allows at their keys. -/
def CacheManager.Backed (m : CacheManager) (n : Bytes → Nat) : Prop :=
  m.Entries fun k p => p.liveEvidence ≤ n k

/-- A live observation adds one where it is stored, unless it is turned away. -/
theorem CacheManager.Backed.store {m : CacheManager} {n : Bytes → Nat} (h : m.Backed n)
    (w : HandshakeStore) (hobs : LiveObs w.obs) :
    (w.result m).1.Backed (if (w.result m).2 ≠ .ignored
      then Function.update n w.key (n w.key + 1) else n) := by
  have hle : ∀ k, n k ≤ (if (w.result m).2 ≠ .ignored
      then Function.update n w.key (n w.key + 1) else n) k := by
    intro k
    split
    · by_cases hk : k = w.key
      · rw [hk, Function.update_self]
        omega
      · rw [Function.update_of_ne hk]
    · exact le_rfl
  have hstep : cacheStep m (.storeObservation w.key w.obs w.now w.order)
      = some ((w.result m).1, .stored (w.result m).2) := rfl
  generalize (w.result m).2 = o at *
  refine CacheManager.Entries.step (R := fun k p => p.liveEvidence ≤ n k) h ?_ hstep
  intro k x p hx hs
  have hlek := hle k
  cases hs with
  | kept =>
      have hp := hx _ rfl
      omega
  | @dropped _ _ q _ =>
      have hq := hx _ rfl
      show q.liveEvidence ≤ _
      omega
  | @merged _ _ _ q _ _ =>
      have hq := hx _ rfl
      have hlive : (mergeObs q (normalizeObs w.obs)).liveEvidence = q.liveEvidence + 1 := by
        simp [mergeObs, isProbe_normalizeObs, hobs.live]
      rw [hlive, if_pos (by decide), Function.update_self]
      push_cast
      omega
  | started _ hst =>
      -- Started over, from this observation alone: one is within any count that just grew.
      have hone : p.liveEvidence = 1 := by
        have hc := (startsFrom_counted hst (.inl hobs)).liveEvidence
        rw [hobs.live] at hc
        exact hc
      rw [hone, if_pos (startsFrom_ne_ignored hst), Function.update_self]
      push_cast
      omega

/-! ## What a step stores -/

variable {s s' : System} {a : SysOp} {out : SysOut} {l : Ledger}

theorem buildObservationProfile_live (dest serverName : Bytes) (hello : Option ServerHelloMsg)
    (vers : UInt16) (usedLen : RecordLens) (chClass alpn tpl : Bytes)
    (certMeta : Option DestCertMeta) (now : Int) :
    LiveObs (buildObservationProfile dest serverName hello vers usedLen chClass alpn tpl
      sourceLive certMeta now) where
  live := rfl
  evidence := rfl
  liveEvidence := rfl

theorem LiveObs.softObs {obs : RealityProfile} (h : LiveObs obs) (req : Request) :
    LiveObs (System.softObs req obs) where
  live := h.live
  evidence := by
    show (if obs.evidence > 1 then 1 else obs.evidence) = 1
    rw [h.evidence]
    rfl
  liveEvidence := by
    show (if obs.liveEvidence > 1 then 1 else obs.liveEvidence) = 1
    rw [h.liveEvidence]
    rfl

/-- An operation that brings no live evidence. -/
def QuietOp : CacheOp → Prop
  | .storeObservation _ obs _ _ => isProbe obs = true
  | .storeProfile _ p _ => p.liveEvidence ≤ 0
  | .hotSwapProfile _ p => p.liveEvidence ≤ 0
  | _ => True

theorem quietOp_of_writes {op : CacheOp} (h : ∀ key p, op.writes = some (key, p) →
    isProbe p = true ∧ p.liveEvidence ≤ 0) : QuietOp op := by
  cases op with
  | storeObservation key obs now order => exact (h key obs rfl).1
  | storeProfile key p order => exact (h key p rfl).2
  | hotSwapProfile key p => exact (h key p rfl).2
  | _ => trivial

/-- What live evidence a quiet operation leaves was there before. -/
theorem ProfileStep.quiet {k : Bytes} {op : CacheOp} {o : CacheOut} {x : Option RealityProfile}
    {p : RealityProfile} (h : ProfileStep k op o x p) (hop : QuietOp op) :
    p.liveEvidence ≤ 0 ∨ ∃ q, x = some q ∧ p.liveEvidence = q.liveEvidence := by
  cases h with
  | kept => exact .inr ⟨_, rfl, rfl⟩
  | dropped => exact .inr ⟨_, rfl, rfl⟩
  | @merged obs _ _ q _ _ =>
      have hp : isProbe obs = true := hop
      exact .inr ⟨q, rfl, by simp [mergeObs, isProbe_normalizeObs, hp]⟩
  | started _ hs =>
      have hzero := startsFrom_probe hop hs
      exact .inl (by omega)
  | restored => exact .inl hop
  | swapped => exact .inl hop

/-- Live evidence of `m'` that is not live evidence of `m` at the same key. -/
def NoGain (m m' : CacheManager) : Prop :=
  m'.Entries fun k p => p.liveEvidence ≤ 0 ∨
    ∃ e q, m.load k = some e ∧ e.profile = some q ∧ p.liveEvidence = q.liveEvidence

theorem noGain_of_run {m m' : CacheManager} {ctr : List (CacheOp × CacheOut)}
    (h : cacheMachine.Run m ctr m') (hq : ∀ x ∈ ctr, QuietOp x.1) : NoGain m m' := by
  have hstart : NoGain m m := fun k e p he hp => .inr ⟨e, p, he, hp, rfl⟩
  refine CacheManager.Entries.run hstart h ?_
  intro y hy k x p hx hs
  rcases hs.quiet (hq y hy) with hle | ⟨q, hxq, heq⟩
  · exact .inl hle
  · rw [heq]
    exact hx q hxq

theorem NoGain.backed {m m' : CacheManager} {n : Bytes → Nat} (h : NoGain m m')
    (hm : m.Backed n) : m'.Backed n := by
  intro k e p he hp
  rcases h k e p he hp with hle | ⟨e₀, q, he₀, hq, heq⟩
  · omega
  · rw [heq]
    exact hm k e₀ q he₀ hq

/-- Steps of other origins. -/
theorem CacheRun.noGain {m' : CacheManager} (h : CacheRun s a m')
    (hw : ∀ key p, SysWrite s a key p → isProbe p = true ∧ p.liveEvidence ≤ 0) :
    NoGain s.cache m' := by
  obtain ⟨ctr, hrun, hctr⟩ := h.exists_run
  refine noGain_of_run hrun fun x hx => quietOp_of_writes fun key p hp => ?_
  exact hw key p (hctr x hx key p hp)

theorem System.emit_cache (s : System) (queued : Bool) (e : HandshakeEvent) :
    (s.emit queued e).cache = s.cache := by
  unfold System.emit
  split <;> rfl

theorem System.addTarget_cache (s : System) (dest serverName alpn : Bytes) :
    (s.addTarget dest serverName alpn).cache = s.cache := by
  unfold System.addTarget
  split <;> rfl

theorem System.finish_store {id : Nat} {certMeta : Option DestCertMeta} {now : Int}
    {order : List Bytes} (h : s.finish id true certMeta now order = some (s', out)) :
    ∃ w, s.handshakeStore (.finish id true certMeta now order) = some w ∧
      s'.cache = (w.result s.cache).1 := by
  unfold System.finish at h
  split at h
  next req key res hs =>
    cases h
    simp only [System.handshakeStore, hs]
    exact ⟨_, rfl, rfl⟩
  · cases h

theorem System.index_store {id : Nat} {queued : Bool} {now : Int} {order : List Bytes}
    (h : s.index id queued now order = some (s', out)) :
    (∃ w, s.handshakeStore (.index id queued now order) = some w ∧
        s'.cache = (w.result s.cache).1) ∨
      s.handshakeStore (.index id queued now order) = none ∧ s'.cache = s.cache := by
  unfold System.index at h
  split at h
  next req key obs hs =>
    simp only [Option.some.injEq, Prod.mk.injEq] at h
    rw [← h.1, System.emit_cache]
    simp only [System.handshakeStore, hs]
    by_cases hsoft : (req.softClass ≠ [] && req.softClass ≠ req.chClass) = true
    · exact .inl ⟨_, if_pos hsoft, by rw [if_pos hsoft]; rfl⟩
    · refine .inr ⟨if_neg hsoft, ?_⟩
      rw [if_neg hsoft]
      rfl
  · cases h

theorem System.deliver_store {j : Nat} {now : Int} {order : List Bytes}
    (h : s.deliver j now order = some (s', out)) :
    ∃ w, s.handshakeStore (.deliver j now order) = some w ∧
      s'.cache = (w.result s.cache).1 := by
  unfold System.deliver at h
  split at h
  · cases h
  next e he =>
    simp only [Option.some.injEq, Prod.mk.injEq] at h
    rw [← h.1, System.addTarget_cache]
    simp only [System.handshakeStore, he]
    exact ⟨_, rfl, rfl⟩

/-- A refresh swaps in what it probed, which has no live evidence. -/
theorem System.refresh_noGain {j : Nat} {outcome : Option ProbeResult} {now : Int}
    (h : s.refresh j outcome now = some (s', out)) : NoGain s.cache s'.cache := by
  unfold System.refresh at h
  split at h
  · cases h
  next entry ht =>
    split at h
    · cases h
    next cache entry' hp =>
      cases h
      obtain ⟨-, ctr, hrun, hw⟩ := probeTarget_run hp
      refine noGain_of_run hrun fun x hx => ?_
      cases hwx : x.1.writes with
      | none => exact quietOp_of_writes fun key p hp => by cases hwx.symm.trans hp
      | some kp =>
          obtain ⟨-, hswap, result, hp⟩ := hw x hx kp.1 kp.2 hwx
          rw [hswap, hp]
          exact le_rfl

/-- **What a step stores**: the profile of one handshake, or nothing that brings
live evidence. -/
theorem sysStep_handshakeStore (h : sysStep s a = some (s', out))
    (ha : ∀ op, a = .cache op → op.writes = none) :
    (∃ w, s.handshakeStore a = some w ∧ s'.cache = (w.result s.cache).1) ∨
      s.handshakeStore a = none ∧ NoGain s.cache s'.cache := by
  have hspec := sysStep_spec h
  cases a with
  | accept id req now => exact .inr ⟨rfl, hspec.cache.noGain fun key p hw => by cases hw⟩
  | zeroDial id random ok queued now =>
      exact .inr ⟨rfl, hspec.cache.noGain fun key p hw => by cases hw⟩
  | capture id reads now => exact .inr ⟨rfl, hspec.cache.noGain fun key p hw => by cases hw⟩
  | finish id ok certMeta now order =>
      cases ok with
      | false => exact .inr ⟨rfl, hspec.cache.noGain fun key p hw => by cases hw⟩
      | true => exact .inl (System.finish_store h)
  | index id queued now order =>
      refine (System.index_store h).imp_right ?_
      rintro ⟨hnone, hcache⟩
      refine ⟨hnone, ?_⟩
      rw [hcache]
      exact fun k e p he hp => .inr ⟨e, p, he, hp, rfl⟩
  | deliver j now order => exact .inl (System.deliver_store h)
  | reprobed j outcome now order =>
      refine .inr ⟨rfl, hspec.cache.noGain fun key p hw => ?_⟩
      cases hw with
      | reprobe hr =>
          unfold reprobeProfile
          dsimp only
          split <;> exact ⟨rfl, le_rfl⟩
  | refresh j outcome now => exact .inr ⟨rfl, System.refresh_noGain h⟩
  | cache op =>
      refine .inr ⟨rfl, hspec.cache.noGain fun key p hw => ?_⟩
      cases hw with
      | direct hw => cases (ha op rfl).symm.trans hw

/-! ## What a step does to the queue -/

theorem System.emit_events (s : System) (queued : Bool) (e : HandshakeEvent) :
    (s.emit queued e).events = if queued then s.events ++ [e] else s.events := by
  unfold System.emit
  split <;> rfl

theorem System.runZeroDial_events {id : Nat} {random : Bytes} {ok queued : Bool} {now : Int}
    (h : s.runZeroDial id random ok queued now = some (s', out)) (hq : (ok && queued) = false) :
    s'.events = s.events := by
  unfold System.runZeroDial at h
  split at h
  next req key p hs =>
    split at h
    next hello =>
      have hq : queued = false := hq
      simp only [Option.some.injEq, Prod.mk.injEq] at h
      rw [← h.1, System.emit_events, hq]
      rfl
    · cases h
      rfl
  · cases h

theorem System.index_events {id : Nat} {queued : Bool} {now : Int} {order : List Bytes}
    (h : s.index id queued now order = some (s', out)) :
    ∃ req key obs, s.sessions id = some ⟨req, key, .stored obs⟩ ∧
      s'.events = if queued then s.events ++ [req.event obs] else s.events := by
  unfold System.index at h
  split at h
  next req key obs hs =>
    simp only [Option.some.injEq, Prod.mk.injEq] at h
    refine ⟨req, key, obs, hs, ?_⟩
    rw [← h.1, System.emit_events]
    rfl
  · cases h

theorem System.deliver_events {j : Nat} {now : Int} {order : List Bytes}
    (h : s.deliver j now order = some (s', out)) :
    (∃ e, s.events[j]? = some e) ∧ s'.events = s.events.eraseIdx j := by
  unfold System.deliver at h
  split at h
  · cases h
  next e he =>
    simp only [Option.some.injEq, Prod.mk.injEq] at h
    refine ⟨⟨e, he⟩, ?_⟩
    rw [← h.1]
    unfold System.addTarget
    split <;> rfl

/-- The steps that end a handshake or deliver its event. -/
def SysOp.queues : SysOp → Bool
  | .zeroDial .. => true
  | .index .. => true
  | .deliver .. => true
  | _ => false

/-- The other steps leave the queue alone. -/
theorem sysStep_events (h : sysStep s a = some (s', out)) (ha : a.queues = false) :
    s'.events = s.events := by
  cases a with
  | accept id req now =>
      have h : s.accept id req now = some (s', out) := h
      unfold System.accept at h
      split at h <;> cases h
      rfl
  | capture id reads now =>
      have h : s.capture id reads now = some (s', out) := h
      unfold System.capture at h
      split at h <;> cases h
      rfl
  | finish id ok certMeta now order =>
      have h : s.finish id ok certMeta now order = some (s', out) := h
      unfold System.finish at h
      split at h
      · split at h <;> cases h <;> rfl
      · cases h
  | reprobed j outcome now order =>
      have h : s.reprobed j outcome now order = some (s', out) := h
      unfold System.reprobed at h
      split at h <;> cases h
      rfl
  | refresh j outcome now =>
      have h : s.refresh j outcome now = some (s', out) := h
      unfold System.refresh at h
      split at h
      · cases h
      · split at h <;> cases h
        rfl
  | cache op =>
      have h : s.cacheOp op = some (s', out) := h
      unfold System.cacheOp at h
      split at h <;> cases h
      rfl
  | zeroDial id random ok queued now => cases ha
  | index id queued now order => cases ha
  | deliver j now order => cases ha

/-! ## The invariant -/

/-- The ledger backs the cache, and what waits to be stored is live. -/
structure LiveBacked (s : System) (l : Ledger) : Prop where
  entries : s.cache.Backed l.stored
  stored : ∀ id x obs, s.sessions id = some x → x.stage = .stored obs → LiveObs obs
  events : ∀ e ∈ s.events, LiveObs e.profile
  dialed : l.dialed = s.events.map fun _ => true

namespace LiveBacked

/-- What is stored for a handshake comes from one that dialed. -/
theorem store (h : LiveBacked s l) {w : HandshakeStore} (hw : s.handshakeStore a = some w) :
    LiveObs w.obs ∧ l.fromDial a = true := by
  cases a with
  | finish id ok certMeta now order =>
      cases ok with
      | false => cases hw
      | true =>
          unfold System.handshakeStore at hw
          dsimp only at hw
          split at hw <;> cases hw
          exact ⟨buildObservationProfile_live .., rfl⟩
  | index id queued now order =>
      unfold System.handshakeStore at hw
      dsimp only at hw
      split at hw
      next req key obs hs =>
        split at hw <;> cases hw
        exact ⟨(h.stored id _ obs hs rfl).softObs req, rfl⟩
      · cases hw
  | deliver j now order =>
      unfold System.handshakeStore at hw
      obtain ⟨e, he, rfl⟩ := Option.map_eq_some_iff.mp hw
      refine ⟨h.events e (List.mem_of_getElem? he), ?_⟩
      show l.dialed.getD j false = true
      rw [h.dialed, List.getD_eq_getElem?_getD, List.getElem?_map, he]
      rfl
  | _ => cases hw

theorem entries_step (h : LiveBacked s l) (ha : NoReplayedEvent a)
    (hstep : sysStep s a = some (s', out)) : s'.cache.Backed (l.note s a s').stored := by
  rcases sysStep_handshakeStore hstep ha.cache with ⟨w, hw, hcache⟩ | ⟨hnone, hgain⟩
  · obtain ⟨hlive, hdial⟩ := h.store hw
    have hback := h.entries.store w hlive
    have hstored : (l.note s a s').stored = if (w.result s.cache).2 ≠ .ignored
        then Function.update l.stored w.key (l.stored w.key + 1) else l.stored := by
      simp only [Ledger.note, hw, hdial, Bool.true_and, decide_eq_true_eq]
      rfl
    rw [hstored, hcache]
    exact hback
  · have hstored : (l.note s a s').stored = l.stored := by
      simp only [Ledger.note, hnone]
    rw [hstored]
    exact hgain.backed h.entries

theorem queue_step (h : LiveBacked s l) (ha : NoReplayedEvent a)
    (hstep : sysStep s a = some (s', out)) :
    (∀ e ∈ s'.events, LiveObs e.profile) ∧
      (l.note s a s').dialed = s'.events.map fun _ => true := by
  have hsame : s'.events = s.events → (∀ j now order, a ≠ .deliver j now order) →
      (∀ e ∈ s'.events, LiveObs e.profile) ∧
        (l.note s a s').dialed = s'.events.map fun _ => true := by
    intro hev hnd
    rw [hev]
    refine ⟨h.events, ?_⟩
    rw [← h.dialed]
    unfold Ledger.note
    rw [hev]
    cases a with
    | deliver j now order => exact absurd rfl (hnd j now order)
    | zeroDial id random ok queued now => exact if_neg (Nat.lt_irrefl _)
    | index id queued now order => exact if_neg (Nat.lt_irrefl _)
    | _ => rfl
  cases a with
  | zeroDial id random ok queued now =>
      exact hsame (System.runZeroDial_events hstep ha) (by simp)
  | index id queued now order =>
      obtain ⟨req, key, obs, hs, hev⟩ := System.index_events hstep
      cases queued with
      | false => exact hsame hev (by simp)
      | true =>
          rw [if_pos rfl] at hev
          constructor
          · intro e he
            rw [hev, List.mem_append, List.mem_singleton] at he
            rcases he with he | rfl
            · exact h.events e he
            · exact h.stored id _ obs hs rfl
          · have hlt : s.events.length < s'.events.length := by simp [hev]
            show (if s.events.length < s'.events.length then l.dialed ++ [true] else l.dialed) = _
            rw [if_pos hlt, hev, h.dialed, List.map_append]
            rfl
  | deliver j now order =>
      obtain ⟨-, hev⟩ := System.deliver_events hstep
      constructor
      · intro e he
        rw [hev] at he
        exact h.events e (List.mem_of_mem_eraseIdx he)
      · show l.dialed.eraseIdx j = _
        rw [hev, h.dialed, List.eraseIdx_map]
  | accept id req now => exact hsame (sysStep_events hstep rfl) (by simp)
  | capture id reads now => exact hsame (sysStep_events hstep rfl) (by simp)
  | finish id ok certMeta now order => exact hsame (sysStep_events hstep rfl) (by simp)
  | reprobed j outcome now order => exact hsame (sysStep_events hstep rfl) (by simp)
  | refresh j outcome now => exact hsame (sysStep_events hstep rfl) (by simp)
  | cache op => exact hsame (sysStep_events hstep rfl) (by simp)

/-- One step keeps the ledger ahead of the cache. -/
theorem step (h : LiveBacked s l) (ha : NoReplayedEvent a)
    (hstep : sysStep s a = some (s', out)) : LiveBacked s' (l.note s a s') where
  entries := h.entries_step ha hstep
  stored := by
    intro id x obs hx hst
    rcases (sysStep_spec hstep).session id x hx with hx | hx
    · exact h.stored id x obs hx hst
    · cases hx with
      | selected => cases hst
      | committed _ _ _ => cases hst
      | captured _ _ _ _ => cases hst
      | stored hs =>
          cases hst
          exact buildObservationProfile_live ..
  events := (h.queue_step ha hstep).1
  dialed := (h.queue_step ha hstep).2

end LiveBacked

theorem liveBacked_empty : LiveBacked {} {} where
  entries := fun k e p he => by simp at he
  stored := fun id x obs hx => by cases hx
  events := fun e he => by cases he
  dialed := rfl

/-- **Live evidence is dialed**: where no event of a zero-dial handshake is queued,
the live evidence at every key is at most the number of observations of handshakes
that dialed which were stored there, and no step of a zero-dial handshake adds any. -/
theorem live_evidence_backed {tr : List (SysOp × SysOut)}
    (h : ledgerMachine.Meets (fun _ _ a => NoReplayedEvent a) ({}, {}) tr (s, l)) :
    (∀ k e p, s.cache.load k = some e → e.profile = some p → p.liveEvidence ≤ l.stored k) ∧
      ∀ a s' l' out, ZeroDialStep l a →
        ledgerMachine.step (s, l) a = some ((s', l'), out) → NoGain s.cache s'.cache := by
  have hinv : LiveBacked s l := by
    refine h.invariant (I := fun _ x => LiveBacked x.1 x.2) liveBacked_empty ?_
    intro tr x a x' out hx ha hstep
    obtain ⟨r, hr, hx'⟩ := Option.map_eq_some_iff.mp hstep
    cases hx'
    exact hx.step ha hr
  refine ⟨hinv.entries, ?_⟩
  intro a s' l' out hzero hstep
  obtain ⟨r, hr, hx'⟩ := Option.map_eq_some_iff.mp hstep
  cases hx'
  have hop : ∀ op, a = .cache op → op.writes = none := by
    rintro op rfl
    cases hzero
  rcases sysStep_handshakeStore hr hop with ⟨w, hw, -⟩ | ⟨-, hgain⟩
  · -- A stored profile comes from a handshake that dialed.
    cases a with
    | deliver j now order =>
        have hdial : l.dialed.getD j false = true := (hinv.store hw).2
        have hzero : l.dialed[j]? = some false := hzero
        rw [List.getD_eq_getElem?_getD, hzero] at hdial
        cases hdial
    | zeroDial id random ok queued now => cases hw
    | _ => cases hzero
  · exact hgain

/-! ## Evidence nobody gathered -/

/-- A handshake that dials, with its event dropped. -/
def dialedHandshake (req : Request) : List SysOp :=
  [.accept 0 req 0, .capture 0 [⟨sampleFlight, none⟩] 0, .finish 0 true none 0 [],
    .index 0 false 0 []]

/-- A handshake on the zero-dial path. -/
def zeroDialHandshake (req : Request) (queued : Bool) : List SysOp :=
  [.accept 0 req 0, .zeroDial 0 (List.replicate 32 7) true queued 0]

/-- The live evidence at a key. -/
def System.liveAt (s : System) (key : Bytes) : Option Int :=
  (s.cache.load key).bind fun e => e.profile.map (·.liveEvidence)

theorem System.liveAt_eq_some {key : Bytes} {n : Int} (h : s.liveAt key = some n) :
    ∃ e p, s.cache.load key = some e ∧ e.profile = some p ∧ p.liveEvidence = n := by
  obtain ⟨e, he, hp⟩ := Option.bind_eq_some_iff.mp h
  obtain ⟨p, hp, hn⟩ := Option.map_eq_some_iff.mp hp
  exact ⟨e, p, he, hp, hn⟩

def fromServerCheck (_ : System × Ledger) : SysOp → Bool
  | .cache _ => false
  | _ => true

/-- Two handshakes dial, a third does not, and the delivery of its event gives the
legacy key a live evidence of two. -/
theorem replayed_evidence :
    ∃ tr s l, ledgerMachine.Meets (fun _ _ a => ∀ op, a ≠ .cache op) ({}, {}) tr (s, l) ∧
      ∃ e p, s.cache.load (sampleRequest.query 0 0).legacyKey = some e ∧ e.profile = some p ∧
        l.stored (sampleRequest.query 0 0).legacyKey = 0 ∧ p.liveEvidence = 2 := by
  have hexec : ∃ tr x, ledgerMachine.Meets (fun _ _ a => ∀ op, a ≠ .cache op) ({}, {}) tr x ∧
      (x.2.stored (sampleRequest.query 0 0).legacyKey = 0 ∧
        x.1.liveAt (sampleRequest.query 0 0).legacyKey = some 2) := by
    refine Machine.Meets.exists_of_exec fromServerCheck
      (dialedHandshake sampleRequest ++ dialedHandshake sampleRequest ++
        zeroDialHandshake sampleRequest true ++ [.deliver 0 0 []]) ?_ (by decide +kernel)
    rintro a - _ _ ha op rfl
    cases ha
  obtain ⟨tr, ⟨s, l⟩, hrun, hstored, hlive⟩ := hexec
  obtain ⟨e, p, he, hp, hn⟩ := System.liveAt_eq_some hlive
  exact ⟨tr, s, l, hrun, e, p, he, hp, hstored, hn⟩

def noReplayCheck (_ : System × Ledger) : SysOp → Bool
  | .zeroDial _ _ ok queued _ => !(ok && queued)
  | .cache op => op.writes.isNone
  | _ => true

theorem noReplayedEvent_of_check {x : System × Ledger} {a : SysOp}
    (h : noReplayCheck x a = true) : NoReplayedEvent a := by
  cases a with
  | zeroDial id random ok queued now =>
      simp only [noReplayCheck, Bool.not_eq_true'] at h
      exact h
  | cache op => exact Option.isNone_iff_eq_none.mp h
  | _ => trivial

/-- Two handshakes dial and one does not; its event is dropped, theirs are
delivered. -/
theorem live_evidence_backed_twice :
    ∃ tr s l, ledgerMachine.Meets (fun _ _ a => NoReplayedEvent a) ({}, {}) tr (s, l) ∧
      s.liveAt sampleRequest.exactKey = some 2 ∧ l.stored sampleRequest.exactKey = 2 ∧
      ∀ k e p, s.cache.load k = some e → e.profile = some p → p.liveEvidence ≤ l.stored k := by
  have hexec : ∃ tr x, ledgerMachine.Meets (fun _ _ a => NoReplayedEvent a) ({}, {}) tr x ∧
      (x.1.liveAt sampleRequest.exactKey = some 2 ∧ x.2.stored sampleRequest.exactKey = 2) :=
    Machine.Meets.exists_of_exec noReplayCheck
      (sampleHandshake 0 sampleRequest ++ sampleHandshake 0 sampleRequest ++
        zeroDialHandshake sampleRequest false)
      (fun _ _ _ _ => noReplayedEvent_of_check) (by decide +kernel)
  obtain ⟨tr, ⟨s, l⟩, hrun, hlive, hstored⟩ := hexec
  exact ⟨tr, s, l, hrun, hlive, hstored, (live_evidence_backed hrun).1⟩

end Reality
