import Reality.Cache.Provenance
import Reality.Server.Observation
import Reality.Server.ZeroDial

/-!
# Coherent profiles

A profile that goes zero-dial has to fit its own template: the template is a
ServerHello with the profile's suite and group, and it fills record R0. The
merge branch copies suite, group and lengths from the observation but keeps
the old template when the observation has none, so the four fields come from
different places.

What saves the relation is that an observation WITHOUT a template is a probe,
and a probe has no group: its merge resets the group to zero, and the profile
is not eligible until a live observation has replaced all four fields.
-/

namespace Reality

open Kit

/-- The template is `hello`, whose suite, group and record length the profile
states. -/
structure CoherentWith (p : RealityProfile) (hello : ServerHelloMsg) : Prop where
  parsed : unmarshalServerHello p.serverHelloTemplate = some hello
  suite : hello.cipherSuite = p.cipherSuite
  group : hello.serverShare.group = p.keyShareGroup
  r0 : (recordHeaderLen : Int) + p.serverHelloTemplate.length = p.recordLens 0
  valid : Capture.validHello hello = true

def Coherent (p : RealityProfile) : Prop := ∃ hello, CoherentWith p hello

/-! ## The writers -/

/-- A live observation of a handshake whose capture kept a ServerHello. -/
inductive CapturedObs : RealityProfile → Prop where
  | mk {env : CaptureEnv} {reads : List Read} {hello : ServerHelloMsg}
      (hh : (captureTargetRecords env reads).1.hello = some hello)
      (h0 : (captureTargetRecords env reads).1.usedLen 0 ≠ 0)
      (dest serverName : Bytes) (vers : UInt16) (chClass alpn : Bytes)
      (certMeta : Option DestCertMeta) (now : Int) :
      CapturedObs (buildObservationProfile dest serverName (some hello) vers
        (captureTargetRecords env reads).1.usedLen chClass alpn
        (captureTargetRecords env reads).1.template sourceLive certMeta now)

/-- An observation of `probeTargetRaw`, as it is or as a reprobe stores it. -/
inductive ProbedObs : RealityProfile → Prop where
  | raw (dest serverName : Bytes) (i : Nat) (result : ProbeResult) (now : Int) :
      ProbedObs (probeProfile dest serverName i result now)
  | reprobe (dest serverName alpn chClass : Bytes) (result : ProbeResult) (now : Int) :
      ProbedObs (reprobeProfile dest serverName alpn chClass result now)

/-- Who writes profiles: live observations, probes, the handler that stores
the cached profile of a zero-dial handshake again, `load`, `probeTarget`. -/
def WriterOp (tr : List (CacheOp × CacheOut)) : CacheOp → Prop
  | .storeObservation _ obs _ _ =>
      CapturedObs obs ∨ ProbedObs obs ∨
        ∃ q now r, (CacheOp.lookup q now, CacheOut.found r) ∈ tr ∧ r.path = .l2 ∧
          r.profile = some obs
  | .storeProfile key p _ => ∃ e : PersistProfileEntry, p = restoreProfile key e
  | .hotSwapProfile _ p =>
      ∃ (entry : RefreshEntry) (result : ProbeResult) (now : Int),
        p = refreshProfile entry result now
  | _ => True

/-! ## The invariant -/

/-- No group, and so no zero-dial, or a coherent profile. -/
def Sound (p : RealityProfile) : Prop := p.keyShareGroup = 0 ∨ Coherent p

theorem CapturedObs.coherent {obs : RealityProfile} (h : CapturedObs obs) : Coherent obs := by
  obtain ⟨hh, h0, dest, sn, vers, chClass, alpn, certMeta, now⟩ := h
  have hc := captureTargetRecords_captured hh h0
  exact ⟨_, hc.parsed, rfl, rfl, hc.r0.symm, hc.valid⟩

theorem ProbedObs.group {obs : RealityProfile} (h : ProbedObs obs) :
    obs.keyShareGroup = 0 := by
  cases h with
  | raw => rfl
  | reprobe =>
      unfold reprobeProfile
      dsimp only
      split <;> rfl

/-- A merge takes the group of the observation; where that is not zero the
observation has a template, and the merge takes that as well. -/
theorem sound_stable : Stable fun _ p => Sound p := by
  have hcontent : ∀ {p q : RealityProfile}, Sound p →
      q.serverHelloTemplate = p.serverHelloTemplate → q.cipherSuite = p.cipherSuite →
      q.keyShareGroup = p.keyShareGroup → q.recordLens = p.recordLens → Sound q := by
    intro p q h htpl hsuite hgroup hlens
    rcases h with h | ⟨hello, hc⟩
    · exact .inl (hgroup.trans h)
    · refine .inr ⟨hello, ?_, ?_, ?_, ?_, hc.valid⟩
      · rw [htpl]
        exact hc.parsed
      · rw [hsuite]
        exact hc.suite
      · rw [hgroup]
        exact hc.group
      · rw [htpl, hlens]
        exact hc.r0
  refine ⟨fun h hs => hcontent h hs.template hs.suite hs.group hs.lens, ?_⟩
  intro k cur obs h
  by_cases hg : obs.keyShareGroup = 0
  · exact .inl hg
  · obtain ⟨hello, hc⟩ := h.resolve_left hg
    have hpos : obs.serverHelloTemplate.length > 0 :=
      List.length_pos_of_ne_nil (Capture.unmarshalServerHello_ne_nil hc.parsed)
    exact hcontent h (if_pos hpos) rfl rfl rfl

/-- The writers write sound profiles. -/
theorem WriterOp.sound {tr : List (CacheOp × CacheOut)} {m : CacheManager} {op : CacheOp}
    (hinv : Holds (fun _ p => Sound p) tr m) (h : WriterOp tr op) :
    ∀ key p, op.writes = some (key, p) → Sound p := by
  intro key p hw
  cases op with
  | storeObservation key' obs now order =>
      cases hw
      rcases h with h | h | ⟨q, now', r, hmem, hl2, hr⟩
      · exact .inr h.coherent
      · exact .inl h.group
      · exact hinv.handedOut q now' r p hmem (by rw [hl2]; decide) hr
  | storeProfile key' p' order =>
      cases hw
      obtain ⟨e, rfl⟩ := h
      exact .inl rfl
  | hotSwapProfile key' p' =>
      cases hw
      obtain ⟨entry, result, now, rfl⟩ := h
      exact .inl rfl
  | _ => cases hw

/-! ## What the zero-dial path sends -/

theorem l2ServerHello_ok {p : RealityProfile} {ch : ClientHelloMsg} {random : Bytes}
    {now : Int} {hello : ServerHelloMsg} (h : l2ServerHello p ch random now = .ok hello) :
    clientOffersCipher ch p.cipherSuite = true ∧
      clientHasKeyShare ch p.keyShareGroup = true ∧
      ∃ tpl, patchTemplate p.serverHelloTemplate random ch.sessionId.bytes = .ok tpl ∧
        unmarshalServerHello tpl = some hello := by
  unfold l2ServerHello at h
  split at h
  · cases h
  · split at h
    · cases h
    next hcipher =>
      split at h
      · cases h
      next hshare =>
        refine ⟨by simpa using hcipher, by simpa using hshare, ?_⟩
        split at h
        · cases h
        next tpl hpatch =>
          split at h
          · cases h
          next hello' hparse =>
            exact ⟨tpl, hpatch, checkTemplate_eq_ok h ▸ hparse⟩

/-- A coherent, eligible profile that fits the client does get sent. -/
theorem l2ServerHello_of_coherent {p : RealityProfile} {hello : ServerHelloMsg}
    (hc : CoherentWith p hello) {ch : ClientHelloMsg} {random : Bytes} {now : Int}
    (helig : profileL2Eligible p now = true)
    (hcipher : clientOffersCipher ch p.cipherSuite = true)
    (hshare : clientHasKeyShare ch p.keyShareGroup = true) (hr : random.length = 32) :
    ∃ sent, l2ServerHello p ch random now = .ok sent := by
  obtain ⟨tpl, m, hpatch, -, hparse, hsel⟩ :=
    patchTemplate_of_parsed hc.parsed hr ch.sessionId.bytes
  have hv := hc.valid
  simp only [Capture.validHello, Bool.and_eq_true, decide_eq_true_eq] at hv
  refine ⟨m, ?_⟩
  simp only [l2ServerHello, helig, hcipher, hshare, Bool.not_true, Bool.false_eq_true,
    if_false, hpatch, hparse, checkTemplate, hsel.vers, hsel.supportedVersion,
    hsel.cipherSuite, hsel.group, hv.1.1, hv.1.2, hv.2, hc.group]
  simp

/-- The record that carries the ServerHello on the wire. -/
def helloRecord (hello : ServerHelloMsg) (pub ciphertext : Bytes) : Bytes :=
  writePlaintext recordTypeHandshake (hello.sendShare pub ciphertext)

/-- The ServerHello of a coherent profile keeps its suite, group and length
on the wire, whatever random, session id and key share are filled in. -/
theorem helloRecord_of_coherent {p : RealityProfile} {hello sent : ServerHelloMsg}
    (hc : CoherentWith p hello) (hlens : validateRecordLens p.recordLens = true)
    {ch : ClientHelloMsg} {random : Bytes} {now : Int} (hr : random.length = 32)
    (h : l2ServerHello p ch random now = .ok sent) (pub ciphertext : Bytes) :
    (helloRecord sent pub ciphertext).length = p.recordLens 0 ∧
      ∃ m, unmarshalServerHello (sent.sendShare pub ciphertext) = some m ∧
        m.cipherSuite = p.cipherSuite ∧ m.serverShare.group = p.keyShareGroup := by
  obtain ⟨-, -, tpl, hpatch, hparse⟩ := l2ServerHello_ok h
  obtain ⟨tpl', m₁, hpatch', hlen₁, hparse', hsel₁⟩ :=
    patchTemplate_of_parsed hc.parsed hr ch.sessionId.bytes
  cases hpatch.symm.trans hpatch'
  cases hparse.symm.trans hparse'
  obtain ⟨hlen₂, m₂, hm₂, hsel₂⟩ := sendShare_of_parsed hparse pub ciphertext
  have hsel := hsel₁.trans hsel₂
  refine ⟨?_, m₂, hm₂, hsel.cipherSuite.trans hc.suite, hsel.group.trans hc.group⟩
  have hle := validateRecordLens_le hlens 0
  have hr0 := hc.r0
  have hfit : (sent.sendShare pub ciphertext).length ≤ maxPlaintext := by
    simp only [maxTLSRecordPayload, maxPlaintext, recordHeaderLen] at *
    omega
  rw [helloRecord, writePlaintext_length (Capture.unmarshalServerHello_ne_nil hm₂) hfit, hlen₂,
    hlen₁]
  exact_mod_cast hr0

/-- **Zero-dial profiles are coherent.** In every run of the writers, a
profile a lookup returns for L2 is coherent. A client that offers its suite
and group gets a ServerHello, and whenever one is sent it selects a suite and
group the client offered and takes `RecordLens[0]` bytes on the wire. -/
theorem zero_dial_coherent {tr : List (CacheOp × CacheOut)} {m m' : CacheManager}
    (h : cacheMachine.Meets (fun tr _ op => WriterOp tr op) newCacheManager tr m)
    {q : Query} {now : Int} {r : LookupResult} {p : RealityProfile}
    (hs : cacheMachine.step m (.lookup q now) = some (m', .found r)) (hl2 : r.path = .l2)
    (hp : r.profile = some p) :
    Coherent p ∧
      ∀ (ch : ClientHelloMsg) (random : Bytes) (now' : Int), random.length = 32 →
        (profileL2Eligible p now' = true → clientOffersCipher ch p.cipherSuite = true →
          clientHasKeyShare ch p.keyShareGroup = true →
          ∃ sent, l2ServerHello p ch random now' = .ok sent) ∧
        ∀ sent, l2ServerHello p ch random now' = .ok sent → ∀ pub ciphertext : Bytes,
          (helloRecord sent pub ciphertext).length = p.recordLens 0 ∧
          ∃ hello, unmarshalServerHello (sent.sendShare pub ciphertext) = some hello ∧
            clientOffersCipher ch hello.cipherSuite = true ∧
            clientHasKeyShare ch hello.serverShare.group = true := by
  have hr : (m.lookupAmortize q now).2 = r := by
    simp only [cacheMachine, cacheStep, Option.some.injEq, Prod.mk.injEq,
      CacheOut.found.injEq] at hs
    exact hs.2
  have hsound : Sound p :=
    (holds_of_run sound_stable (fun tr m op hinv hop => hop.sound hinv) h).answer hr
      (by rw [hl2]; decide) hp
  have hel := CacheManager.lookupAmortize_eligible hr hl2 hp
  obtain ⟨hello, hc⟩ := hsound.resolve_left hel.group
  refine ⟨⟨hello, hc⟩, fun ch random now' hrandom => ⟨?_, ?_⟩⟩
  · intro helig' hcipher hshare
    exact l2ServerHello_of_coherent hc helig' hcipher hshare hrandom
  · intro sent hsent pub ciphertext
    obtain ⟨hlen, m, hm, hsuite, hgroup⟩ :=
      helloRecord_of_coherent hc hel.lens hrandom hsent pub ciphertext
    obtain ⟨hcipher, hshare, -⟩ := l2ServerHello_ok hsent
    exact ⟨hlen, m, hm, by rw [hsuite]; exact hcipher, by rw [hgroup]; exact hshare⟩

/-- The capture of the sample flight, the observation made of it, and the
query that observation answers. -/
def sampleCapture : CaptureResult :=
  (captureTargetRecords ⟨.l0, fun _ _ => {}⟩ [⟨sampleFlight, none⟩]).1

def capturedObs : RealityProfile :=
  { recordLens := ![95, 6, 6, 6, 6, 6, 0], fingerprint := 15166274185335396240
    cipherSuite := 0x1301, alpn := str "h2", tlsVersion := versionTLS13, recordCount := 6
    capturedAt := 0, dest := str "d:443", serverName := str "a.io", chClass := str "1f"
    keyShareGroup := x25519, shapeHash := 3183134381581950289
    serverHelloTemplate := sampleHello, evidence := 1, liveEvidence := 1
    source := sourceLive, chClassVer := chClassVersion }

def capturedQuery : Query :=
  { mode := .l2, dest := str "d:443", serverName := str "a.io", alpn := str "h2"
    chClass := str "1f", softChClass := str "s:1f" }

/-- What a cache answers to the live values that holds one observation for that
query. -/
def storedLook (obs : RealityProfile) (suite : UInt16) (group : CurveID) : LookupResult :=
  match newCacheManager.storeObservation capturedQuery.exactKey obs 0 [] with
  | .ok (m, _) =>
      (m.lookupAmortize { capturedQuery with liveCipher := suite, liveGroup := group } 0).2
  | .error _ => {}

def capturedStore : CacheOp := .storeObservation capturedQuery.exactKey capturedObs 0 []

theorem sampleCapture_lens : sampleCapture.usedLen = ![95, 6, 6, 6, 6, 6, 0] := by
  decide +kernel

theorem capturedObs_built : capturedObs = buildObservationProfile (str "d:443") (str "a.io")
    sampleCapture.hello versionTLS13 sampleCapture.usedLen (str "1f") (str "h2")
    sampleCapture.template sourceLive none 0 := by
  have htpl : sampleCapture.template = sampleHello := by decide +kernel
  have hsel : sampleCapture.hello.any
      (fun h => h.cipherSuite = 0x1301 && h.serverShare.group = x25519) = true := by
    decide +kernel
  cases hh : sampleCapture.hello with
  | none =>
      rw [hh] at hsel
      cases hsel
  | some hello =>
      rw [hh] at hsel
      simp only [Option.any_some, Bool.and_eq_true, decide_eq_true_eq] at hsel
      simp only [buildObservationProfile, sampleCapture_lens, htpl, hsel]
      decide +kernel

theorem capturedObs_captured : CapturedObs capturedObs := by
  have h0 : sampleCapture.usedLen 0 ≠ 0 := by
    rw [sampleCapture_lens]
    decide
  have hsome : sampleCapture.hello.isSome = true := by decide +kernel
  obtain ⟨hello, hh⟩ := Option.isSome_iff_exists.mp hsome
  rw [capturedObs_built, hh]
  unfold sampleCapture at hh h0 ⊢
  exact .mk hh h0 _ _ _ _ _ _ _

/-- Two live captures of the sample flight put its profile on the zero-dial
path. -/
theorem zero_dial_coherent_captured :
    ∃ tr m m' r p,
      cacheMachine.Meets (fun tr _ op => WriterOp tr op) newCacheManager tr m ∧
      cacheMachine.step m (.lookup capturedQuery 0) = some (m', .found r) ∧
      r.path = .l2 ∧ r.profile = some p ∧ Coherent p := by
  have hrun : cacheMachine.Meets (fun tr _ op => WriterOp tr op) newCacheManager _ _ :=
    .snoc (a := capturedStore) (.snoc (a := capturedStore) .nil (.inl capturedObs_captured)
      rfl) (.inl capturedObs_captured) rfl
  refine ⟨_, _, _, _, _, hrun, rfl, ?_, rfl, ?_⟩
  · decide +kernel
  · exact (@zero_dial_coherent _ _ _ hrun capturedQuery 0 _ _ rfl (by decide +kernel) rfl).1

end Reality
