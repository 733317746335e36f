import Reality.Cache.Refresh
import Reality.Server.System

/-!
# What a step of the server does

The inversion lemma every property of whole runs is derived from
(`sysStep_spec`). As far as the cache goes, a step is a short run of cache
operations, each write of which has one of six ORIGINS (`SysWrite`); a session,
an event, a reprobe or a target that was not there before has the origin that
`StepSpec` names.
-/

namespace Reality

open Kit

/-- Where a profile that step `a` writes at `key` comes from. -/
inductive SysWrite (s : System) : SysOp → Bytes → RealityProfile → Prop where
  | live {id req key res certMeta now order}
      (hs : s.sessions id = some ⟨req, key, .observed res⟩) :
      SysWrite s (.finish id true certMeta now order) req.exactKey
        (buildObservationProfile req.dest req.serverName res.hello versionTLS13 res.usedLen
          req.chClass req.alpn res.template sourceLive certMeta now)
  | soft {id req key obs queued now order}
      (hs : s.sessions id = some ⟨req, key, .stored obs⟩) :
      SysWrite s (.index id queued now order) req.softKey (System.softObs req obs)
  | legacy {j e now order} (he : e ∈ s.events) :
      SysWrite s (.deliver j now order) (cacheKey e.serverName e.alpn e.tlsVersion) e.profile
  | reprobe {j req result now order} (hr : req ∈ s.reprobes) :
      SysWrite s (.reprobed j (some result) now order) req.exactKey
        (reprobeProfile req.dest req.serverName req.alpn req.chClass result now)
  | refresh {j entry outcome result now} (ht : entry ∈ s.targets) :
      SysWrite s (.refresh j outcome now) entry.cacheKey (refreshProfile entry result now)
  | direct {op key p} (h : op.writes = some (key, p)) : SysWrite s (.cache op) key p

/-- The cache operations of a step. -/
structure CacheRun (s : System) (a : SysOp) (m' : CacheManager) : Prop where
  exists_run : ∃ ctr, cacheMachine.Run s.cache ctr m' ∧
    ∀ x ∈ ctr, ∀ key p, x.1.writes = some (key, p) → SysWrite s a key p

namespace CacheRun

variable {s : System} {a : SysOp} {m' : CacheManager}

theorem none (s : System) (a : SysOp) : CacheRun s a s.cache :=
  ⟨[], .nil, fun _ hx => by cases hx⟩

theorem single (op : CacheOp) {out : CacheOut} (h : cacheStep s.cache op = some (m', out))
    (hw : ∀ key p, op.writes = some (key, p) → SysWrite s a key p) : CacheRun s a m' := by
  refine ⟨[(op, out)], .single h, ?_⟩
  intro x hx key p hp
  rw [List.mem_singleton] at hx
  subst hx
  exact hw key p hp

theorem lookup (q : Query) (now : Int) :
    CacheRun s a (s.cache.lookupAmortize q now).1 :=
  single (.lookup q now) rfl (fun _ _ hw => by cases hw)

theorem failure (key : Bytes) (path : AmortizePath) (now : Int) :
    CacheRun s a (s.cache.noteHandshakeFailure key path now) :=
  single (.noteHandshakeFailure key path now) rfl (fun _ _ hw => by cases hw)

theorem store {key : Bytes} {obs : RealityProfile} {now : Int} {order : List Bytes}
    (hw : SysWrite s a key obs) :
    CacheRun s a (s.cache.storeRecovered key obs now order).1 := by
  refine single (.storeObservation key obs now order) rfl ?_
  intro key' p hp
  cases hp
  exact hw

/-- What every change of a cached profile keeps, a step of the server keeps; a
change may assume that what it writes has one of the origins. -/
theorem entries {R : Bytes → RealityProfile → Prop} (h : CacheRun s a m')
    (hm : s.cache.Entries R)
    (hR : ∀ (op : CacheOp) (out : CacheOut) k x p,
      (∀ key q, op.writes = some (key, q) → SysWrite s a key q) →
      (∀ q, x = some q → R k q) → ProfileStep k op out x p → R k p) : m'.Entries R := by
  obtain ⟨ctr, hrun, hw⟩ := h.exists_run
  exact hm.run hrun fun y hy k x p hx hs => hR y.1 y.2 k x p (hw y hy) hx hs

end CacheRun

/-! ## Refresh -/

/-- The names and the key of a target never change. -/
def RefreshEntry.SameTarget (a b : RefreshEntry) : Prop :=
  b.cacheKey = a.cacheKey ∧ b.dest = a.dest ∧ b.serverName = a.serverName ∧ b.alpn = a.alpn

/-- The cache operations of a refresh: what they write is swapped in at the key of
the target, and was probed. -/
def RefreshOps (entry : RefreshEntry) (now : Int) (ctr : List (CacheOp × CacheOut)) : Prop :=
  ∀ x ∈ ctr, ∀ key p, x.1.writes = some (key, p) → key = entry.cacheKey ∧
    x.1 = .hotSwapProfile key p ∧ ∃ result, p = refreshProfile entry result now

theorem RefreshOps.single {entry : RefreshEntry} {now : Int} {x : CacheOp × CacheOut}
    (h : x.1.writes = none) : RefreshOps entry now [x] := by
  intro y hy key p hp
  rw [List.mem_singleton] at hy
  subst hy
  cases h.symm.trans hp

theorem RefreshOps.append {entry : RefreshEntry} {now : Int} {ctr ctr' : List (CacheOp × CacheOut)}
    (h : RefreshOps entry now ctr) (h' : RefreshOps entry now ctr') :
    RefreshOps entry now (ctr ++ ctr') := by
  intro x hx
  rcases List.mem_append.mp hx with hx | hx
  · exact h x hx
  · exact h' x hx

/-- A refresh marks the key of its target, or swaps in what it probed. -/
theorem probeTarget_run {m m' : CacheManager} {entry entry' : RefreshEntry}
    {outcome : Option ProbeResult} {now : Int}
    (h : probeTarget m entry outcome now = .ok (m', entry')) :
    entry.SameTarget entry' ∧ ∃ ctr, cacheMachine.Run m ctr m' ∧ RefreshOps entry now ctr := by
  cases outcome with
  | none =>
      cases h
      exact ⟨⟨rfl, rfl, rfl, rfl⟩, [(.markNegative entry.cacheKey now, _)], .single rfl,
        .single rfl⟩
  | some result =>
      cases hg : m.getProfile entry.cacheKey now with
      | error e =>
          rw [probeTarget, hg] at h
          cases h
      | ok r =>
          obtain ⟨m₁, profile, stale⟩ := r
          rw [probeTarget_of_result hg] at h
          have hget : cacheMachine.Run m
              [(CacheOp.getProfile entry.cacheKey now, CacheOut.profile profile stale)] m₁ := by
            apply Machine.Run.single
            simp only [cacheMachine, cacheStep, hg]
          have hread : RefreshOps entry now
              [(CacheOp.getProfile entry.cacheKey now, CacheOut.profile profile stale)] :=
            .single rfl
          -- Whatever the verdict is, at most one more operation follows.
          have hone : ∀ op {out m₂}, cacheStep m₁ op = some (m₂, out) → op.writes = none →
              ∃ ctr, cacheMachine.Run m ctr m₂ ∧ RefreshOps entry now ctr :=
            fun op out m₂ hs hw => ⟨_, hget.snoc hs, hread.append (.single hw)⟩
          have hstale := hone (.markStale entry.cacheKey) rfl rfl
          have hnegative := hone (.markNegative entry.cacheKey now) rfl rfl
          obtain ⟨hk, hd, hsn, ha⟩ := noteChange_same entry result
          generalize probeVerdict profile entry result now = verdict at h
          cases verdict with
          | failed =>
              cases h
              exact ⟨⟨rfl, rfl, rfl, rfl⟩, hnegative⟩
          | uncached | quick | unchanged =>
              cases h
              exact ⟨⟨rfl, rfl, rfl, rfl⟩, hstale⟩
          | pending =>
              cases h
              exact ⟨⟨hk, hd, hsn, ha⟩, _, hget, hread⟩
          | rejected =>
              cases h
              exact ⟨⟨hk, hd, hsn, ha⟩, hnegative⟩
          | swapped =>
              cases h
              refine ⟨⟨hk, hd, hsn, ha⟩, _,
                hget.snoc (a := .hotSwapProfile entry.cacheKey _) rfl, hread.append ?_⟩
              intro x hx key p hp
              rw [List.mem_singleton] at hx
              subst hx
              cases hp
              exact ⟨rfl, rfl, result, rfl⟩

/-! ## The rest of the state -/

/-- How a connection can have come to session `x` by step `a`. -/
inductive SessionStep (s : System) : SysOp → SysOut → Session → Prop where
  | selected {id req now key out} :
      SessionStep s (.accept id req now) out ⟨req, key, .dialing⟩
  | committed {id req now key p pre out}
      (hpre : (s.cache.lookupAmortize (req.query 0 0) now).2 = pre)
      (hpath : selectPath req.ch pre = .l2) (hp : pre.profile = some p) :
      SessionStep s (.accept id req now) out ⟨req, key, .zeroDial p⟩
  | captured {id reads now req key res out}
      (hs : s.sessions id = some ⟨req, key, .dialing⟩)
      (hres : res = (captureTargetRecords ⟨req.mode, fun suite group =>
        (s.cache.lookupAmortize (req.query suite group) now).2⟩ reads).1)
      (hout : out.captured = some (req, res)) (herr : res.err = none) :
      SessionStep s (.capture id reads now) out ⟨req, key, .observed res⟩
  | stored {id certMeta now order req key res out}
      (hs : s.sessions id = some ⟨req, key, .observed res⟩) :
      SessionStep s (.finish id true certMeta now order) out ⟨req, key, .stored
        (buildObservationProfile req.dest req.serverName res.hello versionTLS13 res.usedLen
          req.chClass req.alpn res.template sourceLive certMeta now)⟩

/-- The event of a connection that is done. -/
inductive EventStep (s : System) : HandshakeEvent → Prop where
  | zeroDial {id req key p} (hs : s.sessions id = some ⟨req, key, .zeroDial p⟩) :
      EventStep s (req.event p)
  | stored {id req key obs} (hs : s.sessions id = some ⟨req, key, .stored obs⟩) :
      EventStep s (req.event obs)

/-- A lookup that step `a` makes, with its answer. -/
inductive LookupStep (s : System) : SysOp → Query → LookupResult → Prop where
  | selected {id req now} : LookupStep s (.accept id req now) (req.query 0 0)
      (s.cache.lookupAmortize (req.query 0 0) now).2
  | captured {id reads now req key suite group}
      (hs : s.sessions id = some ⟨req, key, .dialing⟩) :
      LookupStep s (.capture id reads now) (req.query suite group)
        (s.cache.lookupAmortize (req.query suite group) now).2
  | direct {q now} : LookupStep s (.cache (.lookup q now)) q (s.cache.lookupAmortize q now).2

theorem LookupStep.answer {s : System} {a : SysOp} {q : Query} {r : LookupResult}
    (h : LookupStep s a q r) : ∃ now, (s.cache.lookupAmortize q now).2 = r := by
  cases h <;> exact ⟨_, rfl⟩

/-- Everything step `a` can do. -/
structure StepSpec (s : System) (a : SysOp) (out : SysOut) (s' : System) : Prop where
  cache : CacheRun s a s'.cache
  lookup : ∀ q r, (q, r) ∈ out.lookups → LookupStep s a q r
  session : ∀ id x, s'.sessions id = some x → s.sessions id = some x ∨ SessionStep s a out x
  event : ∀ e ∈ s'.events, e ∈ s.events ∨ EventStep s e
  reprobe : ∀ r ∈ s'.reprobes, r ∈ s.reprobes ∨
    ∃ id key, s.sessions id = some ⟨r, key, .dialing⟩
  target : ∀ t ∈ s'.targets, (∃ t₀ ∈ s.targets, t₀.SameTarget t) ∨
    ∃ e ∈ s.events, t = newRefreshEntry e.dest e.serverName e.alpn

theorem RefreshEntry.SameTarget.refl (t : RefreshEntry) : t.SameTarget t := ⟨rfl, rfl, rfl, rfl⟩

theorem System.setSession_sessions {s : System} {id id' : Nat} {v : Option Session}
    {x : Session} (h : (s.setSession id v).sessions id' = some x) :
    s.sessions id' = some x ∨ v = some x := by
  have h : Function.update s.sessions id v id' = some x := h
  by_cases hid : id' = id
  · rw [hid, Function.update_self] at h
    exact .inr h
  · rw [Function.update_of_ne hid] at h
    exact .inl h

namespace StepSpec

variable {s s' : System} {a : SysOp} {out : SysOut}

/-- A step on one connection that leaves events and probes alone. -/
theorem onSession {id : Nat} {v : Option Session} {m : CacheManager} (hc : CacheRun s a m)
    (hl : ∀ q r, (q, r) ∈ out.lookups → LookupStep s a q r)
    (hv : ∀ x, v = some x → SessionStep s a out x) :
    StepSpec s a out ({ s with cache := m }.setSession id v) where
  cache := hc
  lookup := hl
  session := fun id' x hx => by
    rcases System.setSession_sessions hx with h | h
    · exact .inl h
    · exact .inr (hv x h)
  event := fun e he => .inl he
  reprobe := fun r hr => .inl hr
  target := fun t ht => .inl ⟨t, ht, .refl t⟩

theorem emit {queued : Bool} {e : HandshakeEvent} (h : StepSpec s a out s')
    (he : EventStep s e) : StepSpec s a out (s'.emit queued e) := by
  unfold System.emit
  split
  · refine ⟨h.cache, h.lookup, h.session, ?_, h.reprobe, h.target⟩
    intro e' he'
    rcases List.mem_append.mp he' with he' | he'
    · exact h.event e' he'
    · rw [List.mem_singleton] at he'
      exact .inr (he' ▸ he)
  · exact h

/-- A step that ends no connection and starts none. -/
theorem onCache {m : CacheManager} (hc : CacheRun s a m)
    (hl : ∀ q r, (q, r) ∈ out.lookups → LookupStep s a q r) :
    StepSpec s a out { s with cache := m } where
  cache := hc
  lookup := hl
  session := fun _ _ hx => .inl hx
  event := fun _ he => .inl he
  reprobe := fun _ hr => .inl hr
  target := fun t ht => .inl ⟨t, ht, .refl t⟩

end StepSpec

theorem selectStage_cases (path : AmortizePath) (profile : Option RealityProfile) :
    selectStage path profile = .dialing ∨
      ∃ p, path = .l2 ∧ profile = some p ∧ selectStage path profile = .zeroDial p := by
  unfold selectStage
  split
  next p => exact .inr ⟨p, rfl, rfl, rfl⟩
  · exact .inl rfl

/-- Only a zero-dial answer is committed to. -/
theorem selectPath_eq_l2 {ch : ClientHelloMsg} {pre : LookupResult}
    (h : selectPath ch pre = .l2) : pre.path = .l2 ∧ pre.profile.isSome = true := by
  unfold selectPath at h
  split at h
  next hpre =>
    refine ⟨hpre, ?_⟩
    split at h
    · cases h
    next p hp => rw [hp]; rfl
  next hpre => exact absurd h hpre

/-! ## Each transition -/

namespace System

variable {s s' : System} {out : SysOut}

theorem accept_spec {id : Nat} {req : Request} {now : Int}
    (h : s.accept id req now = some (s', out)) :
    StepSpec s (.accept id req now) out s' := by
  unfold accept at h
  split at h
  · cases h
  · simp only [Option.some.injEq, Prod.mk.injEq] at h
    obtain ⟨rfl, rfl⟩ := h
    refine .onSession (.lookup _ now) (fun q r hq => ?_) ?_
    · simp only [List.mem_singleton, Prod.mk.injEq] at hq
      obtain ⟨rfl, rfl⟩ := hq
      exact .selected
    intro x hx
    simp only [Option.some.injEq] at hx
    subst hx
    rcases selectStage_cases (selectPath req.ch (s.cache.lookupAmortize (req.query 0 0) now).2)
        (s.cache.lookupAmortize (req.query 0 0) now).2.profile with hst | ⟨p, hpath, hp, hst⟩
    · rw [hst]
      exact .selected
    · rw [hst]
      exact .committed rfl hpath hp

theorem runZeroDial_spec {id : Nat} {random : Bytes} {ok queued : Bool} {now : Int}
    (h : s.runZeroDial id random ok queued now = some (s', out)) :
    StepSpec s (.zeroDial id random ok queued now) out s' := by
  unfold runZeroDial at h
  split at h
  next req key p hs =>
    split at h
    · cases h
      exact (StepSpec.onSession (.none s _) (by simp) (fun x hx => by cases hx)).emit (.zeroDial hs)
    · cases h
      exact .onSession (.failure _ _ now) (by simp) (fun x hx => by cases hx)
  · cases h

theorem capture_spec {id : Nat} {reads : List Read} {now : Int}
    (h : s.capture id reads now = some (s', out)) :
    StepSpec s (.capture id reads now) out s' := by
  unfold capture at h
  split at h
  next req key hs =>
    dsimp only at h
    generalize hres : (captureTargetRecords ⟨req.mode, fun suite group =>
      (s.cache.lookupAmortize (req.query suite group) now).2⟩ reads).1 = res at h
    simp only [Option.some.injEq, Prod.mk.injEq] at h
    obtain ⟨rfl, rfl⟩ := h
    refine ⟨?_, ?_, ?_, fun _ he => .inl he, ?_, fun t ht => .inl ⟨t, ht, .refl t⟩⟩
    · dsimp only [setSession]
      split
      · exact .lookup _ now
      · exact .none s _
    · intro q r hq
      simp only [List.mem_map, Option.mem_toList, Option.bind_eq_some_iff,
        Option.map_eq_some_iff, Prod.mk.injEq] at hq
      obtain ⟨q', ⟨-, -, h', -, rfl⟩, rfl, rfl⟩ := hq
      exact .captured hs
    · intro id' x hx
      rcases setSession_sessions hx with hx | hx
      · exact .inl hx
      · split at hx
        · cases hx
        next hok =>
          simp only [Bool.or_eq_true, not_or, Option.isSome_iff_ne_none, ne_eq,
            not_not] at hok
          cases hx
          exact .inr (.captured hs hres.symm rfl hok.1.1)
    · intro r hr
      dsimp only [setSession] at hr
      split at hr
      · rcases List.mem_append.mp hr with hr | hr
        · exact .inl hr
        · rw [List.mem_singleton] at hr
          exact .inr ⟨id, key, hr ▸ hs⟩
      · exact .inl hr
  · cases h

theorem finish_spec {id : Nat} {ok : Bool} {certMeta : Option DestCertMeta} {now : Int}
    {order : List Bytes} (h : s.finish id ok certMeta now order = some (s', out)) :
    StepSpec s (.finish id ok certMeta now order) out s' := by
  unfold finish at h
  split at h
  next req key res hs =>
    cases ok with
    | true =>
        cases h
        refine .onSession (.store (.live hs)) (by simp) ?_
        intro x hx
        cases hx
        exact .stored hs
    | false =>
        cases h
        exact .onSession (.failure _ _ now) (by simp) (fun x hx => by cases hx)
  · cases h

theorem index_spec {id : Nat} {queued : Bool} {now : Int} {order : List Bytes}
    (h : s.index id queued now order = some (s', out)) :
    StepSpec s (.index id queued now order) out s' := by
  unfold index at h
  split at h
  next req key obs hs =>
    cases h
    refine (StepSpec.onSession ?_ (by simp) (fun x hx => by cases hx)).emit (.stored hs)
    split
    · exact .store (.soft hs)
    · exact .none s _
  · cases h

theorem deliver_spec {j : Nat} {now : Int} {order : List Bytes}
    (h : s.deliver j now order = some (s', out)) :
    StepSpec s (.deliver j now order) out s' := by
  unfold deliver at h
  split at h
  · cases h
  next e he =>
    cases h
    have hmem := List.mem_of_getElem? he
    unfold addTarget
    split
    · exact ⟨.store (.legacy hmem), by simp, fun _ _ hx => .inl hx,
        fun e' he' => .inl (List.mem_of_mem_eraseIdx he'), fun _ hr => .inl hr,
        fun t ht => .inl ⟨t, ht, .refl t⟩⟩
    · refine ⟨.store (.legacy hmem), by simp, fun _ _ hx => .inl hx,
        fun e' he' => .inl (List.mem_of_mem_eraseIdx he'), fun _ hr => .inl hr, ?_⟩
      intro t ht
      rcases List.mem_append.mp ht with ht | ht
      · exact .inl ⟨t, ht, .refl t⟩
      · rw [List.mem_singleton] at ht
        exact .inr ⟨e, hmem, ht⟩

theorem reprobed_spec {j : Nat} {outcome : Option ProbeResult} {now : Int}
    {order : List Bytes} (h : s.reprobed j outcome now order = some (s', out)) :
    StepSpec s (.reprobed j outcome now order) out s' := by
  unfold reprobed at h
  split at h
  · cases h
  next req hr =>
    cases h
    have hmem := List.mem_of_getElem? hr
    refine ⟨?_, by simp, fun _ _ hx => .inl hx, fun _ he => .inl he,
      fun r hr' => .inl (List.mem_of_mem_eraseIdx hr'), fun t ht => .inl ⟨t, ht, .refl t⟩⟩
    cases outcome with
    | none => exact .none s _
    | some result => exact .store (.reprobe hmem)

theorem refresh_spec {j : Nat} {outcome : Option ProbeResult} {now : Int}
    (h : s.refresh j outcome now = some (s', out)) :
    StepSpec s (.refresh j outcome now) out s' := by
  unfold refresh at h
  split at h
  · cases h
  next entry ht =>
    split at h
    · cases h
    next cache entry' hp =>
      cases h
      have hmem := List.mem_of_getElem? ht
      obtain ⟨hsame, ctr, hrun, hw⟩ := probeTarget_run hp
      refine ⟨⟨ctr, hrun, ?_⟩, by simp, fun _ _ hx => .inl hx, fun _ he => .inl he,
        fun _ hr => .inl hr, ?_⟩
      · intro x hx key p hp
        obtain ⟨rfl, -, result, rfl⟩ := hw x hx key p hp
        exact .refresh hmem
      · intro t ht'
        rcases List.mem_or_eq_of_mem_set ht' with ht' | rfl
        · exact .inl ⟨t, ht', .refl t⟩
        · exact .inl ⟨entry, hmem, hsame⟩

theorem cacheOp_spec {op : CacheOp} (h : s.cacheOp op = some (s', out)) :
    StepSpec s (.cache op) out s' := by
  unfold cacheOp at h
  split at h
  · cases h
  next cache o hs =>
    cases h
    refine .onCache (.single op hs (fun _ _ hw => .direct hw)) ?_
    intro q r hq
    dsimp only at hq
    split at hq
    next q' now r' =>
      simp only [List.mem_singleton, Prod.mk.injEq] at hq
      obtain ⟨rfl, rfl⟩ := hq
      simp only [cacheStep, Option.some.injEq, Prod.mk.injEq, CacheOut.found.injEq] at hs
      rw [← hs.2]
      exact .direct
    · cases hq

end System

/-- **Inversion of a step.** -/
theorem sysStep_spec {s s' : System} {a : SysOp} {out : SysOut}
    (h : sysStep s a = some (s', out)) : StepSpec s a out s' := by
  cases a with
  | accept id req now => exact System.accept_spec h
  | zeroDial id random ok queued now => exact System.runZeroDial_spec h
  | capture id reads now => exact System.capture_spec h
  | finish id ok certMeta now order => exact System.finish_spec h
  | index id queued now order => exact System.index_spec h
  | deliver j now order => exact System.deliver_spec h
  | reprobed j outcome now order => exact System.reprobed_spec h
  | refresh j outcome now => exact System.refresh_spec h
  | cache op => exact System.cacheOp_spec h

end Reality
