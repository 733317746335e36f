import Reality.Server.Steps

/-!
# First-hand evidence

A handshake on the zero-dial path replays record lengths nobody measures any
more. Behind it stands the evidence of earlier handshakes, and the question is
whether one of them MEASURED those lengths at the target, for the same dest,
names and class.

It need not be so: a capture that the cache answers (path L1) copies R1..R5
from whatever key answered, and the handshake then stores the copy as a live
observation under its OWN exact key. Two such handshakes of a class nobody
ever measured put that class on the zero-dial path
(`copied_lengths_go_zero_dial`). Where captures copy only for keys that hold a
live profile already, every zero-dial handshake rests on a measurement
(`zero_dial_first_hand`).
-/

namespace Reality

open Kit

/-- The dest, names and class two requests have in common. -/
def Request.SameTuple (r r' : Request) : Prop :=
  r'.dest = r.dest ∧ r'.serverName = r.serverName ∧ r'.alpn = r.alpn ∧ r'.chClass = r.chClass

instance (r r' : Request) : Decidable (r.SameTuple r') :=
  inferInstanceAs (Decidable (_ ∧ _ ∧ _ ∧ _))

instance (lens : RecordLens) : Decidable (SixFilled lens) :=
  inferInstanceAs (Decidable (∀ j ≤ 5, lens (slot j) ≠ 0))

/-- Some step of the trace captured the records of the target itself, for the
dest, names and class of `req`. -/
def Observed (tr : List (SysOp × SysOut)) (req : Request) : Prop :=
  ∃ x ∈ tr, ∃ c ∈ x.2.captured, req.SameTuple c.1 ∧ c.2.err = none ∧ c.2.path = .l0 ∧
    SixFilled c.2.usedLen

theorem Observed.append {tr : List (SysOp × SysOut)} {req : Request} (h : Observed tr req)
    (tr' : List (SysOp × SysOut)) : Observed (tr ++ tr') req := by
  obtain ⟨x, hx, hc⟩ := h
  exact ⟨x, List.mem_append_left _ hx, hc⟩

theorem Observed.same {tr : List (SysOp × SysOut)} {req req' : Request} (h : Observed tr req)
    (hs : req'.SameTuple req) : Observed tr req' := by
  obtain ⟨x, hx, c, hc, ⟨hd, hsn, ha, hcl⟩, hrest⟩ := h
  obtain ⟨hd', hsn', ha', hcl'⟩ := hs
  exact ⟨x, hx, c, hc, ⟨hd.trans hd', hsn.trans hsn', ha.trans ha', hcl.trans hcl'⟩, hrest⟩

/-- Names that can be told apart inside a key. -/
structure Request.Plain (r : Request) : Prop where
  dest_noSep : sep ∉ r.dest
  serverName_noSep : sep ∉ r.serverName

theorem Request.exactKey_inj {r r' : Request} (h : r.Plain) (h' : r'.Plain)
    (heq : r.exactKey = r'.exactKey) : r.SameTuple r' := by
  obtain ⟨hd, hsn, ha, hc⟩ := cacheKeyV2_inj h.dest_noSep h'.dest_noSep h.serverName_noSep
    h'.serverName_noSep r.chClass_classLike r'.chClass_classLike heq
  exact ⟨hd.symm, hsn.symm, ha.symm, hc.symm⟩

theorem Request.softKey_ne_exactKey (r r' : Request) : r.softKey ≠ r'.exactKey := by
  intro h
  have hlast := congrArg (lastField sep) h
  rw [softKey, exactKey, lastField_cacheKeyV2 r.softClass_classLike,
    lastField_cacheKeyV2 r'.chClass_classLike] at hlast
  obtain ⟨c, -, hc⟩ := r.softClass_eq
  exact r'.chClass_isHex.ne_soft c (hlast.symm.trans hc)

theorem Request.cacheKey_ne_exactKey (serverName alpn : Bytes) (v : UInt16) (r : Request) :
    cacheKey serverName alpn v ≠ r.exactKey :=
  cacheKey_ne_of_class r.chClass_classLike _ _ _ _ _ _ _

/-- `m` holds at `key` a profile that no probe made. -/
def HoldsLive (m : CacheManager) (key : Bytes) : Prop :=
  ∃ e p, m.load key = some e ∧ e.profile = some p ∧ p.source ≠ sourceProbe

/-- What a step may do: requests carry names and an ALPN that can be told apart
in their keys; a capture ends within the read limit, and the cache answers it
only if the exact key holds a live profile already; nothing is stored from
elsewhere. -/
def FirstHandOp (s : System) : SysOp → Prop
  | .accept _ req _ => req.Plain ∧ req.alpn.count sep < 2
  | .capture id reads now => WithinReads reads ∧
      ∀ req key, s.sessions id = some ⟨req, key, .dialing⟩ →
        HoldsLive s.cache req.exactKey ∨
          ∀ suite group, (s.cache.lookupAmortize (req.query suite group) now).2.path = .l0
  | .cache op => op.writes = none
  | _ => True

/-- A sufficient check of that condition: the keys a capture may be answered
from are all empty, or the exact one holds a live profile. -/
def firstHandCheck (s : System) : SysOp → Bool
  | .accept _ req _ => decide (sep ∉ req.dest ∧ sep ∉ req.serverName ∧ req.alpn.count sep < 2)
  | .capture id reads _ => decide (WithinReads reads) && (s.sessions id).all fun x =>
      (s.cache.load x.req.exactKey).any (fun e => e.profile.any (·.source ≠ sourceProbe)) ||
        [x.req.exactKey, x.req.softKey, (x.req.query 0 0).legacyKey].all
          fun key => (s.cache.load key).isNone
  | .cache op => op.writes.isNone
  | _ => true

theorem firstHandOp_of_check {s : System} {a : SysOp} (h : firstHandCheck s a = true) :
    FirstHandOp s a := by
  cases a with
  | accept id req now =>
      simp only [firstHandCheck, decide_eq_true_eq] at h
      exact ⟨⟨h.1, h.2.1⟩, h.2.2⟩
  | capture id reads now =>
      simp only [firstHandCheck, Bool.and_eq_true, decide_eq_true_eq] at h
      refine ⟨h.1, ?_⟩
      intro req key hs
      have hkeys := h.2
      rw [hs, Option.all_some, Bool.or_eq_true] at hkeys
      rcases hkeys with hlive | hnone
      · simp only [Option.any_eq_true, decide_eq_true_eq] at hlive
        obtain ⟨e, he, p, hp, hsrc⟩ := hlive
        exact .inl ⟨e, p, he, hp, hsrc⟩
      · right
        intro suite group
        by_contra hpath
        obtain ⟨k, e, p, htry, he, -⟩ := CacheManager.lookupAmortize_answered rfl hpath
        simp only [List.all_cons, List.all_nil, Bool.and_true, Bool.and_eq_true,
          Option.isNone_iff_eq_none] at hnone
        rcases htry with ⟨rfl, -⟩ | ⟨rfl, -⟩ | rfl
        · cases he.symm.trans hnone.1
        · cases he.symm.trans hnone.2.1
        · cases he.symm.trans hnone.2.2
  | cache op => exact Option.isNone_iff_eq_none.mp h
  | _ => trivial

/-! ## The invariant -/

/-- A live profile at an exact key was measured for it. -/
def Measured (tr : List (SysOp × SysOut)) (k : Bytes) (p : RealityProfile) : Prop :=
  ∀ req : Request, req.Plain → k = req.exactKey → p.source ≠ sourceProbe → Observed tr req

structure FirstHand (tr : List (SysOp × SysOut)) (s : System) : Prop where
  entries : s.cache.Entries (Measured tr)
  plain : ∀ id x, s.sessions id = some x → x.req.Plain
  observed : ∀ id x res, s.sessions id = some x → x.stage = .observed res → Observed tr x.req
  targets : ∀ t ∈ s.targets, ∃ serverName alpn v, t.cacheKey = cacheKey serverName alpn v

variable {s s' : System} {a : SysOp} {out : SysOut} {tr : List (SysOp × SysOut)}

/-- Every writer of a live profile at an exact key has measured for it. -/
theorem FirstHand.write (h : FirstHand tr s) (ha : FirstHandOp s a) {key : Bytes}
    {p : RealityProfile} (hw : SysWrite s a key p) : Measured tr key p := by
  intro req hreq hkey hp
  cases hw with
  | @live id req₀ _ res _ _ _ hs =>
      have hplain : req₀.Plain := h.plain _ _ hs
      have hobs : Observed tr req₀ := h.observed _ _ res hs rfl
      exact hobs.same (Request.exactKey_inj hreq hplain hkey.symm)
  | @soft id req₀ _ obs _ _ _ hs => exact absurd hkey (req₀.softKey_ne_exactKey req)
  | legacy he => exact absurd hkey (Request.cacheKey_ne_exactKey _ _ _ req)
  | @reprobe _ req₀ result _ _ hr =>
      refine absurd ?_ hp
      unfold reprobeProfile
      dsimp only
      split <;> rfl
  | @refresh _ entry _ _ _ ht =>
      obtain ⟨serverName, alpn, v, htarget⟩ := h.targets entry ht
      rw [htarget] at hkey
      exact absurd hkey (Request.cacheKey_ne_exactKey _ _ _ req)
  | direct hw =>
      have hnone : _ = none := ha
      rw [hnone] at hw
      cases hw

/-- A capture the condition allows is a measurement, or its exact key has one. -/
theorem FirstHand.capture (h : FirstHand tr s) {id : Nat} {reads : List Read} {now : Int}
    {req : Request} {key : Bytes} {res : CaptureResult}
    (ha : FirstHandOp s (.capture id reads now))
    (hs : s.sessions id = some ⟨req, key, .dialing⟩)
    (hres : res = (captureTargetRecords ⟨req.mode, fun suite group =>
      (s.cache.lookupAmortize (req.query suite group) now).2⟩ reads).1)
    (hout : out.captured = some (req, res)) (herr : res.err = none) :
    Observed (tr ++ [(.capture id reads now, out)]) req := by
  rcases ha.2 req key hs with ⟨e, p, he, hp, hlive⟩ | hmiss
  · exact (h.entries _ e p he hp req (h.plain _ _ hs) rfl hlive).append _
  · have hl0 : res.path = .l0 := by
      rw [hres]
      refine (captureTargetRecords_path _ _).resolve_right ?_
      rintro ⟨r, p, hfrom⟩
      obtain ⟨suite, group, hlook⟩ := hfrom.looked
      have hpath := hfrom.answered
      rw [hlook, hmiss suite group] at hpath
      cases hpath
    have hsix : SixFilled res.usedLen := by
      rw [hres] at herr hl0 ⊢
      exact captureTargetRecords_complete ha.1 herr (by rw [hl0]; decide)
    exact ⟨_, List.mem_append_right _ (List.mem_singleton_self _), (req, res), hout,
      ⟨rfl, rfl, rfl, rfl⟩, herr, hl0, hsix⟩

/-- One step keeps live profiles at exact keys measured. -/
theorem FirstHand.step (h : FirstHand tr s) (ha : FirstHandOp s a)
    (hstep : sysStep s a = some (s', out)) : FirstHand (tr ++ [(a, out)]) s' := by
  have hspec := sysStep_spec hstep
  refine ⟨?_, ?_, ?_, ?_⟩
  · have hcache : s'.cache.Entries (Measured tr) := by
      refine hspec.cache.entries h.entries ?_
      intro op o k x p hw hx hs req hreq hkey hp
      rcases hs.source hp with ⟨q, hq, hlive⟩ | ⟨q, hq, hlive⟩
      · exact hx q hq req hreq hkey hlive
      · exact h.write ha (hw k q hq) req hreq hkey hlive
    intro k e p he hp req hreq hkey hlive
    exact (hcache k e p he hp req hreq hkey hlive).append _
  · intro id x hx
    rcases hspec.session id x hx with hx | hx
    · exact h.plain id x hx
    · cases hx with
      | selected => exact ha.1
      | committed _ _ _ => exact ha.1
      | captured hs _ _ _ =>
          have hplain := h.plain _ _ hs
          exact hplain
      | stored hs =>
          have hplain := h.plain _ _ hs
          exact hplain
  · intro id x res hx hst
    rcases hspec.session id x hx with hx | hx
    · exact (h.observed id x res hx hst).append _
    · cases hx with
      | selected => cases hst
      | committed _ _ _ => cases hst
      | captured hs hres hout herr => exact h.capture ha hs hres hout herr
      | stored hs => cases hst
  · intro t ht
    rcases hspec.target t ht with ⟨t₀, ht₀, hsame⟩ | ⟨e, -, rfl⟩
    · rw [hsame.1]
      exact h.targets t₀ ht₀
    · exact ⟨e.serverName, e.alpn, versionTLS13, rfl⟩

theorem firstHand_empty : FirstHand [] {} := by
  refine ⟨?_, ?_, ?_, ?_⟩
  · intro k e p he
    simp at he
  · intro id x hx
    cases hx
  · intro id x res hx
    cases hx
  · intro t ht
    cases ht

theorem System.accept_path {id : Nat} {req : Request} {now : Int}
    (h : s.accept id req now = some (s', out)) :
    out.path = some (selectPath req.ch (s.cache.lookupAmortize (req.query 0 0) now).2) := by
  unfold System.accept at h
  split at h
  · cases h
  · simp only [Option.some.injEq, Prod.mk.injEq] at h
    rw [← h.2]

/-- The soft key of a request is recognised as soft, so only its exact key is
zero-dialed. -/
theorem Request.onlyExact (r : Request) (h : r.alpn.count sep < 2) (suite : UInt16)
    (group : CurveID) : CacheManager.OnlyExactL2 (r.query suite group) := by
  refine .inr ⟨h, .inr ?_⟩
  obtain ⟨c, -, hc⟩ := r.softClass_eq
  have hlast : lastField sep r.softClass = r.softClass :=
    lastField_of_notMem r.softClass_classLike.noSep
  show str "s:" <+: lastField sep r.softClass
  rw [hlast, hc]
  exact List.prefix_append _ _

/-- **Zero-dial rests on a measurement**: where captures copy only for keys
that hold a live profile, a commitment to path L2 comes after a capture of the
target's own records for the same dest, names and class. -/
theorem zero_dial_first_hand
    (h : sysMachine.Meets (fun _ s a => FirstHandOp s a) {} tr s) {id : Nat} {req : Request}
    {now : Int} (ha : FirstHandOp s (.accept id req now))
    (hstep : sysMachine.step s (.accept id req now) = some (s', out))
    (hl2 : out.path = some .l2) : Observed tr req := by
  have hinv : FirstHand tr s := by
    refine h.invariant (I := FirstHand) firstHand_empty ?_
    intro tr s a s' out hs ha hstep
    exact hs.step ha hstep
  have hpath := System.accept_path hstep
  rw [hl2, Option.some.injEq] at hpath
  have hpre := (selectPath_eq_l2 hpath.symm).1
  have hsoft : str "s:" <+: (req.query 0 0).softChClass := by
    obtain ⟨c, -, hc⟩ := req.softClass_eq
    exact ⟨c, hc.symm⟩
  obtain ⟨e, p, he, hans⟩ := CacheManager.lookupAmortize_exact ha.1.serverName_noSep hsoft
    (req.onlyExact ha.2 0 0) rfl hpre
  have hlive := (CacheManager.lookupAmortize_eligible rfl hpre hans.profile).source
  exact hinv.entries _ e p he hans.holds req ha.1 rfl hlive

/-! ## Copied evidence -/

instance (tr : List (SysOp × SysOut)) (req : Request) : Decidable (Observed tr req) :=
  inferInstanceAs (Decidable (∃ x ∈ tr, ∃ c ∈ x.2.captured, req.SameTuple c.1 ∧
    c.2.err = none ∧ c.2.path = .l0 ∧ SixFilled c.2.usedLen))

def sampleRequest : Request := { dest := str "d1:443", ch := sampleClientHello }

/-- The same request with an encrypted ClientHello extension: another exact
class, the same soft class. -/
def echRequest : Request :=
  { sampleRequest with ch := { sampleClientHello with encryptedClientHello := [0] } }

/-- One measured handshake of a class, two handshakes of a neighbour class that
copy its lengths, and the neighbour goes zero-dial unmeasured. -/
theorem copied_lengths_go_zero_dial :
    ∃ tr s s' out, sysMachine.Run {} tr s ∧
      sysMachine.step s (.accept 0 echRequest 0) = some (s', out) ∧ out.path = some .l2 ∧
      ¬ Observed tr echRequest := by
  have hexec : ∃ tr s, sysMachine.Run {} tr s ∧
      ((sysMachine.step s (.accept 0 echRequest 0)).any (fun r => r.2.path = some .l2) = true ∧
        ¬ Observed tr echRequest) :=
    Machine.Run.exists_of_exec (sampleHandshake 0 sampleRequest ++
      sampleHandshake 0 echRequest ++ sampleHandshake 0 echRequest) (by decide +kernel)
  obtain ⟨tr, s, hrun, hstep, hnot⟩ := hexec
  obtain ⟨⟨s', out⟩, hr, hpath⟩ := (Option.any_eq_true _ _).mp hstep
  exact ⟨tr, s, s', out, hrun, hr, by simpa using hpath, hnot⟩

/-- Two handshakes of one class, the first measured, and the class goes
zero-dial. -/
theorem zero_dial_first_hand_twice :
    ∃ tr s s' out, sysMachine.Meets (fun _ s a => FirstHandOp s a) {} tr s ∧
      FirstHandOp s (.accept 0 sampleRequest 0) ∧
      sysMachine.step s (.accept 0 sampleRequest 0) = some (s', out) ∧
      out.path = some .l2 ∧ Observed tr sampleRequest := by
  have hexec : ∃ tr s, sysMachine.Meets (fun _ s a => FirstHandOp s a) {} tr s ∧
      (sysMachine.step s (.accept 0 sampleRequest 0)).any (fun r => r.2.path = some .l2) = true :=
    Machine.Meets.exists_of_exec firstHandCheck
      (sampleHandshake 0 sampleRequest ++ sampleHandshake 0 sampleRequest)
      (fun _ _ _ _ => firstHandOp_of_check) (by decide +kernel)
  obtain ⟨tr, s, hrun, hstep⟩ := hexec
  obtain ⟨⟨s', out⟩, hr, hpath⟩ := (Option.any_eq_true _ _).mp hstep
  have hpath : out.path = some .l2 := by simpa using hpath
  have hop : FirstHandOp s (.accept 0 sampleRequest 0) :=
    ⟨⟨by decide, by decide⟩, by decide⟩
  exact ⟨tr, s, s', out, hrun, hop, hr, hpath, zero_dial_first_hand hrun hop hr hpath⟩

end Reality
