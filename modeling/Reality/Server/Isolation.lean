import Reality.Server.Steps

/-!
# Dests that share a cache

Whether a lookup for one dest can be answered with the profile of ANOTHER.
The exact and the soft key begin with the dest, so they keep dests apart. The
legacy key does not, and the event handler stores every finished handshake
under it: two dests that serve one server name with one ALPN read each other's
profiles (`legacy_key_crosses_dests`). With one dest for each such pair the
answers stay apart in every run (`lookups_keep_dest`).
-/

namespace Reality

open Kit

/-- The profile is unbound or bound to `dest`. -/
def RealityProfile.For (p : RealityProfile) (dest : Bytes) : Prop :=
  p.dest = [] ∨ p.dest = dest

/-- A profile at key `k` is for the dest a lookup of `k` asks for: the one in
the key, or the owner of the names in a legacy key. -/
structure DestOk (owner : Bytes → Bytes → Bytes) (k : Bytes) (p : RealityProfile) : Prop where
  classed : ∀ dest serverName alpn v c, sep ∉ dest → ClassLike c →
    k = cacheKeyV2 dest serverName alpn v c → p.For dest
  legacy : ∀ serverName alpn v, sep ∉ serverName → k = cacheKey serverName alpn v →
    p.For (owner serverName alpn)

/-- The dest of a request owns its names. -/
structure OwnNames (owner : Bytes → Bytes → Bytes) (dest serverName alpn : Bytes) : Prop where
  dest_noSep : sep ∉ dest
  serverName_noSep : sep ∉ serverName
  owns : owner serverName alpn = dest

/-- A lookup asks with names its dest owns, and with classes or none. -/
structure OwnQuery (owner : Bytes → Bytes → Bytes) (q : Query) : Prop where
  names : OwnNames owner q.dest q.serverName q.alpn
  exact : q.chClass ≠ [] → ClassLike q.chClass
  soft : q.softChClass ≠ [] → ClassLike q.softChClass

/-- What a step may bring in: requests and lookups of dests that own the names
they ask for, and profiles stored from elsewhere that are for their key. -/
def KeepsDests (owner : Bytes → Bytes → Bytes) : SysOp → Prop
  | .accept _ req _ => OwnNames owner req.dest req.serverName req.alpn
  | .cache (.lookup q _) => OwnQuery owner q
  | .cache op => ∀ key p, op.writes = some (key, p) → DestOk owner key p
  | _ => True

theorem KeepsDests.writes {owner : Bytes → Bytes → Bytes} {op : CacheOp}
    (h : KeepsDests owner (.cache op)) {key : Bytes} {p : RealityProfile}
    (hw : op.writes = some (key, p)) : DestOk owner key p := by
  cases op <;> first | exact h key p hw | cases hw

variable {owner : Bytes → Bytes → Bytes}

theorem destOk_stable (owner : Bytes → Bytes → Bytes) : Stable (DestOk owner) := by
  have hsame : ∀ {k p q}, DestOk owner k p → q.dest = p.dest → DestOk owner k q := by
    intro k p q h hd
    refine ⟨?_, ?_⟩
    · intro dest serverName alpn v c hdest hc hk
      rw [RealityProfile.For, hd]
      exact h.classed dest serverName alpn v c hdest hc hk
    · intro serverName alpn v hsn hk
      rw [RealityProfile.For, hd]
      exact h.legacy serverName alpn v hsn hk
  exact ⟨fun h hq => hsame h hq.dest, fun h => hsame h rfl⟩

/-- A profile for its dest may be stored under a classed key of that dest. -/
theorem DestOk.of_classed {p : RealityProfile} {dest serverName alpn c : Bytes} {v : UInt16}
    (hdest : sep ∉ dest) (hc : ClassLike c) (hp : p.For dest) :
    DestOk owner (cacheKeyV2 dest serverName alpn v c) p := by
  refine ⟨?_, ?_⟩
  · intro dest' serverName' alpn' v' c' hdest' _ hk
    rw [← cacheKeyV2_dest_inj hdest hdest' hk]
    exact hp
  · intro serverName' alpn' v' _ hk
    exact absurd hk.symm (cacheKey_ne_of_class hc _ _ _ _ _ _ _)

theorem DestOk.of_legacy {p : RealityProfile} {serverName alpn : Bytes} {v : UInt16}
    (hsn : sep ∉ serverName) (hp : p.For (owner serverName alpn)) :
    DestOk owner (cacheKey serverName alpn v) p := by
  refine ⟨?_, ?_⟩
  · intro dest' serverName' alpn' v' c' _ hc' hk
    exact absurd hk (cacheKey_ne_of_class hc' _ _ _ _ _ _ _)
  · intro serverName' alpn' v' hsn' hk
    obtain ⟨rfl, rfl⟩ := cacheKey_inj hsn hsn' hk
    exact hp

/-- What a lookup answers from such a cache is for its dest. -/
theorem OwnQuery.answer {m : CacheManager} {q : Query} {r : LookupResult} {p : RealityProfile}
    {now : Int} (hm : m.Entries (DestOk owner)) (hq : OwnQuery owner q)
    (hr : (m.lookupAmortize q now).2 = r) (hpath : r.path ≠ .l0) (hp : r.profile = some p) :
    p.For q.dest := by
  obtain ⟨key, e, p', hkey, he, hans⟩ := CacheManager.lookupAmortize_answered hr hpath
  cases hp.symm.trans hans.profile
  have hok := hm key e p he hans.holds
  rcases hkey with ⟨hk, hc⟩ | ⟨hk, hc, -⟩ | hk
  · exact hok.classed _ _ _ _ _ hq.names.dest_noSep (hq.exact hc) hk
  · exact hok.classed _ _ _ _ _ hq.names.dest_noSep (hq.soft hc) hk
  · rw [← hq.names.owns]
    exact hok.legacy _ _ _ hq.names.serverName_noSep hk

theorem Request.ownQuery {r : Request} (h : OwnNames owner r.dest r.serverName r.alpn)
    (suite : UInt16) (group : CurveID) : OwnQuery owner (r.query suite group) :=
  ⟨h, fun _ => r.chClass_classLike, fun _ => r.softClass_classLike⟩

/-! ## Whole runs -/

/-- A connection of a dest that owns its names; what it carries is for it. -/
structure Session.Own (owner : Bytes → Bytes → Bytes) (x : Session) : Prop where
  names : OwnNames owner x.req.dest x.req.serverName x.req.alpn
  zeroDial : ∀ p, x.stage = .zeroDial p → p.For x.req.dest
  stored : ∀ obs, x.stage = .stored obs → obs.For x.req.dest

structure HandshakeEvent.Own (owner : Bytes → Bytes → Bytes) (e : HandshakeEvent) : Prop where
  serverName_noSep : sep ∉ e.serverName
  profile : e.profile.For (owner e.serverName e.alpn)

/-- No profile is where another dest would find it, or on its way there. -/
structure DestsApart (owner : Bytes → Bytes → Bytes) (s : System) : Prop where
  entries : s.cache.Entries (DestOk owner)
  sessions : ∀ id x, s.sessions id = some x → x.Own owner
  events : ∀ e ∈ s.events, e.Own owner
  reprobes : ∀ r ∈ s.reprobes, OwnNames owner r.dest r.serverName r.alpn

variable {s s' : System} {a : SysOp} {out : SysOut}

/-- Every writer of the cache stores profiles that are for their key. -/
theorem DestsApart.write (h : DestsApart owner s) (ha : KeepsDests owner a) {key : Bytes}
    {p : RealityProfile} (hw : SysWrite s a key p) : DestOk owner key p := by
  cases hw with
  | @live id req _ res _ _ _ hs =>
      have hreq := (h.sessions _ _ hs).names
      exact .of_classed hreq.dest_noSep req.chClass_classLike (.inr rfl)
  | @soft id req _ obs _ _ _ hs =>
      have hsess := h.sessions _ _ hs
      have hobs := hsess.stored obs rfl
      exact .of_classed hsess.names.dest_noSep req.softClass_classLike hobs
  | @legacy _ e _ _ he =>
      have hevent := h.events e he
      exact .of_legacy hevent.serverName_noSep hevent.profile
  | @reprobe _ req result _ _ hr =>
      have hreq := h.reprobes req hr
      refine .of_classed hreq.dest_noSep req.chClass_classLike (.inr ?_)
      unfold reprobeProfile
      dsimp only
      split <;> rfl
  | refresh ht =>
      -- A refreshed profile carries no dest at all.
      exact ⟨fun _ _ _ _ _ _ _ _ => .inl rfl, fun _ _ _ _ _ => .inl rfl⟩
  | direct hw => exact ha.writes hw

/-- What a step looks up it asks with names of its own. -/
theorem DestsApart.query (h : DestsApart owner s) (ha : KeepsDests owner a) {q : Query}
    {r : LookupResult} (hq : LookupStep s a q r) : OwnQuery owner q := by
  cases hq with
  | selected => exact Request.ownQuery ha 0 0
  | captured hs => exact Request.ownQuery (h.sessions _ _ hs).names _ _
  | direct => exact ha

theorem DestsApart.session (h : DestsApart owner s) (ha : KeepsDests owner a) {x : Session}
    (hx : SessionStep s a out x) : x.Own owner := by
  cases hx with
  | selected => exact ⟨ha, by simp, by simp⟩
  | @committed _ req now _ p pre _ hpre hpath hp =>
      refine ⟨ha, ?_, by simp⟩
      intro p' hst
      cases hst
      have hl2 : pre.path ≠ .l0 := by
        rw [(selectPath_eq_l2 hpath).1]
        decide
      exact (Request.ownQuery ha 0 0).answer h.entries hpre hl2 hp
  | captured hs => exact ⟨(h.sessions _ _ hs).names, by simp, by simp⟩
  | stored hs =>
      refine ⟨(h.sessions _ _ hs).names, by simp, ?_⟩
      intro obs hst
      cases hst
      exact .inr rfl

theorem DestsApart.event (h : DestsApart owner s) {e : HandshakeEvent} (he : EventStep s e) :
    e.Own owner := by
  cases he with
  | @zeroDial id req key p hs =>
      have hsess := h.sessions _ _ hs
      refine ⟨hsess.names.serverName_noSep, ?_⟩
      rw [Request.event, hsess.names.owns]
      exact hsess.zeroDial p rfl
  | @stored id req key obs hs =>
      have hsess := h.sessions _ _ hs
      refine ⟨hsess.names.serverName_noSep, ?_⟩
      rw [Request.event, hsess.names.owns]
      exact hsess.stored obs rfl

/-- One step keeps the dests apart. -/
theorem DestsApart.step (h : DestsApart owner s) (ha : KeepsDests owner a)
    (hstep : sysStep s a = some (s', out)) : DestsApart owner s' := by
  have hspec := sysStep_spec hstep
  refine ⟨?_, ?_, ?_, ?_⟩
  · refine hspec.cache.entries h.entries ?_
    intro op o k x p hw hx hs
    exact (destOk_stable owner).profileStep hx (fun key q hq => h.write ha (hw key q hq)) hs
  · intro id x hx
    rcases hspec.session id x hx with hx | hx
    · exact h.sessions id x hx
    · exact h.session ha hx
  · intro e he
    rcases hspec.event e he with he | he
    · exact h.events e he
    · exact h.event he
  · intro r hr
    rcases hspec.reprobe r hr with hr | ⟨id, key, hs⟩
    · exact h.reprobes r hr
    · exact (h.sessions _ _ hs).names

theorem destsApart_empty (owner : Bytes → Bytes → Bytes) : DestsApart owner {} := by
  refine ⟨?_, ?_, ?_, ?_⟩
  · intro k e p he
    simp at he
  · intro id x hx
    cases hx
  · intro e he
    cases he
  · intro r hr
    cases hr

/-- **Dests stay apart**: in every run in which each pair of server name and
ALPN has one dest, a lookup for that dest is never answered with the profile
of another. -/
theorem lookups_keep_dest (owner : Bytes → Bytes → Bytes) {tr : List (SysOp × SysOut)}
    {s : System} (h : sysMachine.Meets (fun _ _ a => KeepsDests owner a) {} tr s) :
    ∀ a out, (a, out) ∈ tr → ∀ q r p, (q, r) ∈ out.lookups → r.path ≠ .l0 →
      r.profile = some p → p.dest = [] ∨ p.dest = q.dest := by
  suffices hinv : DestsApart owner s ∧ ∀ a out, (a, out) ∈ tr → ∀ q r p,
      (q, r) ∈ out.lookups → r.path ≠ .l0 → r.profile = some p → p.For q.dest from hinv.2
  refine h.invariant (I := fun tr s => DestsApart owner s ∧ ∀ a out, (a, out) ∈ tr →
    ∀ q r p, (q, r) ∈ out.lookups → r.path ≠ .l0 → r.profile = some p → p.For q.dest)
    ⟨destsApart_empty owner, fun _ _ hmem => by cases hmem⟩ ?_
  intro tr s a s' out ⟨hs, htr⟩ ha hstep
  refine ⟨hs.step ha hstep, ?_⟩
  intro a' out' hmem q r p hq hpath hp
  rcases List.mem_append.mp hmem with hmem | hmem
  · exact htr a' out' hmem q r p hq hpath hp
  · simp only [List.mem_singleton, Prod.mk.injEq] at hmem
    obtain ⟨rfl, rfl⟩ := hmem
    have hlook := (sysStep_spec hstep).lookup q r hq
    obtain ⟨now, hr⟩ := hlook.answer
    exact (hs.query ha hlook).answer hs.entries hr hpath hp

/-! ## Two dests with one name -/

/-- One handshake to the first dest, and a lookup for the second is answered
with its profile. -/
theorem legacy_key_crosses_dests :
    ∃ tr s, sysMachine.Run {} tr s ∧ ∃ x ∈ tr, ∃ l ∈ x.2.lookups, l.2.path = .l1 ∧
      ∃ p ∈ l.2.profile, p.dest ≠ [] ∧ p.dest ≠ l.1.dest := by
  refine Machine.Run.exists_of_exec
    (sampleHandshake 0 { dest := str "d1:443", ch := sampleClientHello } ++
      [.accept 0 { dest := str "d2:443", ch := sampleClientHello } 0]) ?_
  decide +kernel

/-! ## Two dests with names of their own -/

/-- `a.io` is the name of the first dest, every other name of the second. -/
def nameOwner (serverName _alpn : Bytes) : Bytes :=
  if serverName = str "a.io" then str "d1:443" else str "d2:443"

def firstRequest : Request := { dest := str "d1:443", ch := sampleClientHello }

def secondRequest : Request :=
  { dest := str "d2:443", ch := { sampleClientHello with serverName := str "b.io" } }

/-- A handshake for each dest, and one more request for each. -/
def twoDests : List SysOp :=
  sampleHandshake 0 firstRequest ++ sampleHandshake 0 secondRequest ++
    [.accept 0 firstRequest 0, .accept 1 secondRequest 0]

theorem keepsDests_sampleHandshake {req : Request}
    (h : OwnNames owner req.dest req.serverName req.alpn) {id : Nat} {a : SysOp}
    (ha : a ∈ sampleHandshake id req) : KeepsDests owner a := by
  simp only [sampleHandshake, List.mem_cons, List.not_mem_nil, or_false] at ha
  rcases ha with rfl | rfl | rfl | rfl | rfl
  · exact h
  · trivial
  · trivial
  · trivial
  · trivial

theorem keepsDests_twoDests {a : SysOp} (ha : a ∈ twoDests) : KeepsDests nameOwner a := by
  have hfirst : OwnNames nameOwner firstRequest.dest firstRequest.serverName firstRequest.alpn :=
    ⟨by decide, by decide, by decide⟩
  have hsecond : OwnNames nameOwner secondRequest.dest secondRequest.serverName
      secondRequest.alpn := ⟨by decide, by decide, by decide⟩
  simp only [twoDests, List.mem_append, List.mem_cons, List.not_mem_nil, or_false] at ha
  rcases ha with (ha | ha) | rfl | rfl
  · exact keepsDests_sampleHandshake hfirst ha
  · exact keepsDests_sampleHandshake hsecond ha
  · exact hfirst
  · exact hsecond

/-- Both dests are answered from the cache, each with a profile of its own. -/
theorem lookups_keep_dest_two :
    ∃ tr s, sysMachine.Meets (fun _ _ a => KeepsDests nameOwner a) {} tr s ∧
      ∀ dest ∈ [str "d1:443", str "d2:443"], ∃ x ∈ tr, ∃ l ∈ x.2.lookups, l.1.dest = dest ∧
        l.2.path = .l1 ∧ ∃ p ∈ l.2.profile, p.dest = [] ∨ p.dest = l.1.dest := by
  have hexec : ∃ tr s, sysMachine.Meets (fun _ _ a => KeepsDests nameOwner a) {} tr s ∧
      ∀ dest ∈ [str "d1:443", str "d2:443"], ∃ x ∈ tr, ∃ l ∈ x.2.lookups, l.1.dest = dest ∧
        l.2.path = .l1 ∧ l.2.profile.isSome = true :=
    Machine.Meets.exists_of_exec (fun _ _ => true) twoDests
      (fun _ ha _ _ _ => keepsDests_twoDests ha) (by decide +kernel)
  obtain ⟨tr, s, hrun, hboth⟩ := hexec
  refine ⟨tr, s, hrun, ?_⟩
  intro dest hdest
  obtain ⟨x, hx, l, hl, hasked, hpath, hsome⟩ := hboth dest hdest
  obtain ⟨p, hp⟩ := Option.isSome_iff_exists.mp hsome
  refine ⟨x, hx, l, hl, hasked, hpath, p, hp, ?_⟩
  exact lookups_keep_dest _ hrun x.1 x.2 hx l.1 l.2 p hl (by rw [hpath]; decide) hp

end Reality
