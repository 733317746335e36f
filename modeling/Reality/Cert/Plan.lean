import Mathlib.Data.List.AList
import Reality.Kit.Calls
import Reality.Kit.Cryptobyte
import Reality.Kit.Run
import Reality.Profile

/-!
# Certificate plans

`GetCertPlanWithMeta` (cert_plan.go) builds the certificate chain of a
handshake so that its Certificate message comes close to a record budget, and
caches it. A chain grows by a longer subject, by filler certificates and by a
longer extension, each found by trying: `x509.CreateCertificate` decides the
length, and it is asked anew every time. Its answers are ARBITRARY here, also
when it is asked twice for the same template.

What is displayed in a certificate is kept only as far as a template passes it
on.
-/

namespace Reality

open Kit

def mldsa65SigSize : Nat := 3309

def certPlanCacheMaxEntries : Nat := 512

/-- What `createLeaf` and `createFillerCertStyled` ask `CreateCertificate` for. -/
inductive CertTemplate where
  | leaf (extLen subjectPad : Nat) (certMeta : Option DestCertMeta)
  | filler (approxLen : Int) (certMeta : Option DestCertMeta) (chainIdx : Nat)

/-- `crypto/x509`: the answer to the `k`-th call of `CreateCertificate` (and of
the key generation before a filler), the signature of a parsed certificate, and
where its ML-DSA extension stands. -/
structure X509 where
  createCertificate : Nat → CertTemplate → Option Bytes
  signature : Bytes → Option Bytes
  locateMLDSAOffset : Bytes → Option Nat

/-- The certificates a successful `init` left; each ends in a 64-byte signature.
`handshake` returns at once when `init` failed. -/
structure CertInit where
  signedCert : Bytes
  signedCertMldsa65 : Bytes
  signed : 64 ≤ signedCert.length
  signedMldsa65 : 64 ≤ signedCertMldsa65.length

def CertInit.cert (init : CertInit) (mldsa : Bool) : Bytes :=
  if mldsa then init.signedCertMldsa65 else init.signedCert

structure CertShapeHint where
  preferredChainDepth : Int
  targetChainLens : List Int := []

def shapeHintFromMeta (certMeta : Option DestCertMeta) : Option CertShapeHint :=
  certMeta.map fun m => ⟨m.chainDepth, m.chainLens⟩

/-! ## The length of a plan -/

/-- Type, length, context, list length, and 3 + 2 bytes beside each
certificate. -/
def estimateCertMsgLen (leaf : Bytes) (chain : List Bytes) : Int :=
  chain.foldl (fun (n : Int) cert => n + (3 + cert.length + 2))
    (1 + 3 + 1 + 3 + (3 + leaf.length + 2))

/-- `locateHMACOffset` of a certificate of at least 64 bytes: its signature,
searched from the end. -/
def X509.locateHMACOffset (x : X509) (der : Bytes) : Nat :=
  match x.signature der with
  | none => der.length - 64
  | some sig =>
      if sig.length ≠ 64 then der.length - 64
      else ((List.range (der.length - 64 + 1)).reverse.find? fun i =>
        (der.drop i).take 64 = sig).getD (der.length - 64)

theorem X509.locateHMACOffset_room (x : X509) {der : Bytes} (h : 64 ≤ der.length) :
    x.locateHMACOffset der + 64 ≤ der.length := by
  have hlast : der.length - 64 + 64 ≤ der.length := by omega
  unfold X509.locateHMACOffset
  cases x.signature der with
  | none => exact hlast
  | some sig =>
      dsimp only
      split
      · exact hlast
      · cases hf : (List.range (der.length - 64 + 1)).reverse.find?
          (fun i => (der.drop i).take 64 = sig) with
        | none => exact hlast
        | some i =>
            have hmem := List.mem_of_find?_eq_some hf
            rw [List.mem_reverse, List.mem_range] at hmem
            show i + 64 ≤ der.length
            omega

/-- A plan carries the length of its message and a place for the MAC. -/
structure CertPlan where
  leafDER : Bytes
  chainDERs : List Bytes := []
  hmacOffset : Nat
  mldsaOffset : Option Nat := none
  innerMsgLen : Int
  mode : UInt8 := 0
  budget : Int := 0
  inner_eq : innerMsgLen = estimateCertMsgLen leafDER chainDERs
  hmac_room : hmacOffset + 64 ≤ leafDER.length

/-- The plan of a chain. -/
def certPlan (x : X509) (mldsa : Bool) (mode : UInt8) (budget : Int) (leaf : Bytes)
    (chain : List Bytes) (h : 64 ≤ leaf.length) : CertPlan where
  leafDER := leaf
  chainDERs := chain
  hmacOffset := x.locateHMACOffset leaf
  mldsaOffset := if mldsa then x.locateMLDSAOffset leaf else none
  innerMsgLen := estimateCertMsgLen leaf chain
  mode := mode
  budget := budget
  inner_eq := rfl
  hmac_room := x.locateHMACOffset_room h

theorem CertInit.cert_length (init : CertInit) (mldsa : Bool) : 64 ≤ (init.cert mldsa).length := by
  cases mldsa
  · exact init.signed
  · exact init.signedMldsa65

/-- The historical certificate. -/
def fallbackCertPlan (x : X509) (init : CertInit) (mldsa : Bool) : CertPlan :=
  certPlan x mldsa 0 0 (init.cert mldsa) [] (init.cert_length mldsa)

/-! ## Budgets -/

/-- A record without padding: header, content type and tag. -/
def certRecordOverhead : Int := recordHeaderLen + 1 + 16

/-- The message length that the checks read; `InnerMsgLen` was always filled. -/
def CertPlan.inner (p : CertPlan) : Int :=
  if p.innerMsgLen ≤ 0 then estimateCertMsgLen p.leafDER p.chainDERs else p.innerMsgLen

theorem CertPlan.inner_eq_estimate (p : CertPlan) :
    p.inner = estimateCertMsgLen p.leafDER p.chainDERs := by
  unfold CertPlan.inner
  split
  · rfl
  · exact p.inner_eq

def certPlanFitsBudget (p : CertPlan) (budget : Int) : Bool :=
  budget ≤ 0 || recordHeaderLen + p.inner + 1 + 16 ≤ budget

def certPlanFitsInnerBudget (p : CertPlan) (maxInner : Int) : Bool :=
  maxInner ≤ 0 || p.inner ≤ maxInner

def maxCertInnerForBudget (budget : Int) : Int :=
  if budget ≤ 0 then 0 else max 0 (budget - recordHeaderLen - 1 - 16)

/-! ## Growing a chain -/

section

variable (x : X509)

def createLeaf (extLen subjectPad : Nat) (certMeta : Option DestCertMeta) : Calls (Option Bytes) :=
  Calls.ask fun k => x.createCertificate k (.leaf extLen subjectPad certMeta)

def createFillerCertStyled (approxLen : Int) (certMeta : Option DestCertMeta) (chainIdx : Nat) :
    Calls (Option Bytes) :=
  Calls.ask fun k => x.createCertificate k (.filler approxLen certMeta chainIdx)

/-- The extension of a leaf without length padding. -/
def authExtLen (mldsa : Bool) : Nat := if mldsa then mldsa65SigSize else 0

/-- Part 1 of `growCertsToward`: a longer subject, in steps of 32. -/
def padSubject (mldsa : Bool) (target : Int) : List Nat → Bytes → Calls Bytes
  | [], leaf => pure leaf
  | step :: steps, leaf => do
      if estimateCertMsgLen leaf [] < target then
        match ← createLeaf x (authExtLen mldsa) step none with
        | none => pure leaf
        | some nl =>
            -- A leaf that is over the target is dropped, and no longer subject is tried.
            if estimateCertMsgLen nl [] > target then pure leaf
            else padSubject mldsa target steps nl
      else pure leaf

/-- The search of `createFillerCertFit` for the subject length. -/
def fillerSearch (want maxEntry : Int) (certMeta : Option DestCertMeta) (chainIdx : Nat)
    (lo hi : Int) (best : Option Bytes) : Calls (Option Bytes) := do
  if _hle : lo ≤ hi then
    let mid := (lo + hi) / 2
    match ← createFillerCertStyled x (mid + 200) certMeta chainIdx with
    | none => fillerSearch want maxEntry certMeta chainIdx lo (mid - 1) best
    | some fc =>
        if fc.length ≤ maxEntry then
          if fc.length < want then
            fillerSearch want maxEntry certMeta chainIdx (mid + 1) hi
              (if (best.getD []).length ≤ fc.length then some fc else best)
          -- Long enough: it is the best so far, whatever `best` was, and a shorter one is tried.
          else fillerSearch want maxEntry certMeta chainIdx lo (mid - 1) (some fc)
        else fillerSearch want maxEntry certMeta chainIdx lo (mid - 1) best
  else pure best
termination_by (hi + 1 - lo).toNat

/-- A filler certificate of at most `maxEntry` bytes. -/
def createFillerCertFit (want maxEntry : Int) (certMeta : Option DestCertMeta) (chainIdx : Nat) :
    Calls (Option Bytes) := do
  if maxEntry < 64 then pure none
  else
    let want := max 64 (min want maxEntry)
    let best ← fillerSearch x want maxEntry certMeta chainIdx 0 (min want 1800) none
    pure (best.filter fun fc => fc ≠ [])

/-- Part 2: filler certificates, at most as many as `n` still allows. -/
def fillChain (leaf : Bytes) (target : Int) (certMeta : Option DestCertMeta)
    (shape : Option CertShapeHint) : Nat → List Bytes → Calls (List Bytes)
  | 0, chain => pure chain
  | n + 1, chain => do
      let cur := estimateCertMsgLen leaf chain
      let need := target - cur
      if cur ≥ target ∨ need < 96 then pure chain
      else
        -- The chain of the hint starts with the leaf.
        let hint := (shape.bind fun s => s.targetChainLens[chain.length + 1]?).getD 0
        let want := if 64 < hint ∧ hint < need - 8 then hint else need - 8
        if want < 64 then pure chain
        else
          match ← createFillerCertFit x want (need - 5) certMeta chain.length with
          | none => pure chain
          | some fc =>
              let trial := chain ++ [fc]
              let next := estimateCertMsgLen leaf trial
              -- A filler that adds next to nothing is not worth a certificate of its own.
              if next > target ∨ next - cur < 48 then pure chain
              else fillChain leaf target certMeta shape n trial

/-- The search of part 3 for the length of the extension. -/
def padExtension (mldsa : Bool) (target : Int) (certMeta : Option DestCertMeta)
    (chain : List Bytes) (lo hi : Int) (best : Bytes) : Calls Bytes := do
  if _hle : lo ≤ hi then
    let mid := (lo + hi) / 2
    match ← createLeaf x mid.toNat 0 certMeta with
    | none => padExtension mldsa target certMeta chain lo (mid - 1) best
    | some nl =>
        -- A leaf in which the ML-DSA extension cannot be found is not used.
        if mldsa ∧ x.locateMLDSAOffset nl = none then
          padExtension mldsa target certMeta chain lo (mid - 1) best
        else if estimateCertMsgLen nl chain ≤ target then
          padExtension mldsa target certMeta chain (mid + 1) hi nl
        else padExtension mldsa target certMeta chain lo (mid - 1) best
  else pure best
termination_by (hi + 1 - lo).toNat

/-- Where that search starts, for a chain that lacks `need` bytes. -/
def extensionBounds (mldsa : Bool) (need : Int) : Int × Int :=
  if mldsa then
    let lo : Int := mldsa65SigSize + 8
    (lo, max lo (min (mldsa65SigSize + (need - 8)) (mldsa65SigSize + 4000)))
  else (8, min (need - 8) 4000)

def maxIntermediates (shape : Option CertShapeHint) : Nat :=
  match shape with
  | none => 3
  | some s =>
      if s.preferredChainDepth > 0 then (min 3 (s.preferredChainDepth - 1)).toNat else 3

/-- Parts 2 and 3 of `growCertsToward`. -/
def growChain (leaf : Bytes) (mldsa : Bool) (target : Int) (certMeta : Option DestCertMeta)
    (shape : Option CertShapeHint) : Calls (Bytes × List Bytes) := do
  let chain ← fillChain x leaf target certMeta shape (maxIntermediates shape) []
  let need := target - estimateCertMsgLen leaf chain
  if need > 16 then
    let bounds := extensionBounds mldsa need
    let leaf ← padExtension x mldsa target certMeta chain bounds.1 bounds.2 leaf
    pure (leaf, chain)
  else pure (leaf, chain)

/-- The running length `cur` of the source is the estimate of the chain at hand.
The subject is the dest's own when its certificate is known. -/
def growCertsToward (leaf : Bytes) (mldsa : Bool) (target : Int)
    (certMeta : Option DestCertMeta) (shape : Option CertShapeHint) :
    Calls (Bytes × List Bytes) := do
  if estimateCertMsgLen leaf [] ≥ target then pure (leaf, [])
  else if certMeta.isNone then
    let leaf ← padSubject x mldsa target [32, 64, 96, 128, 160, 192, 224, 256] leaf
    growChain x leaf mldsa target certMeta shape
  else growChain x leaf mldsa target certMeta shape

end

/-! ## Building and caching -/

section

variable (x : X509)

/-- The largest message a budget allows, by the mode it is for. -/
def maxInner (mode : UInt8) (budget : Int) : Int :=
  if mode = recordModeSplit then maxCertInnerForBudget budget
  else if mode = recordModeCoalesced then budget
  else 0

/-- What the chain is grown toward; 0 is not at all. -/
def targetInner (mode : UInt8) (budget : Int) : Int :=
  if maxInner mode budget > 256 + 32 then maxInner mode budget - 32 else 0

/-- The end of `buildCertPlan`: a leaf without room for the MAC is refused. -/
def finishPlan (mldsa : Bool) (mode : UInt8) (budget : Int) (leaf : Bytes)
    (chain : List Bytes) : Option CertPlan :=
  if h : 64 ≤ leaf.length then some (certPlan x mldsa mode budget leaf chain h) else none

def buildCertPlan (budget : Int) (mldsa : Bool) (mode : UInt8) (certMeta : Option DestCertMeta)
    (shape : Option CertShapeHint) : Calls (Option CertPlan) := do
  match ← createLeaf x (authExtLen mldsa) 0 certMeta with
  | none => pure none
  | some leaf =>
      if targetInner mode budget > 0 then
        let grown ← growCertsToward x leaf mldsa (targetInner mode budget) certMeta shape
        if estimateCertMsgLen grown.1 grown.2 > maxInner mode budget then
          match ← createLeaf x (authExtLen mldsa) 0 certMeta with
          | none => pure none
          | some leaf => pure (finishPlan x mldsa mode budget leaf [])
        else pure (finishPlan x mldsa mode budget grown.1 grown.2)
      else pure (finishPlan x mldsa mode budget leaf [])

end

/-- `fnv1a` in 32 bits. -/
def mixByte32 (h : UInt32) (b : UInt8) : UInt32 := (h ^^^ b.toUInt32) * 16777619

/-- `byte(n)` -/
def byteOfInt (n : Int) : UInt8 := UInt8.ofNat (n % 256).toNat

def metaFingerprint (certMeta : Option DestCertMeta) : UInt32 :=
  match certMeta with
  | none => 0
  | some m =>
      let h := (m.cn.take 64).foldl mixByte32 2166136261
      let h := (m.organization.take 32).foldl mixByte32 h
      let h := (m.issuerCN.take 48).foldl mixByte32 h
      let h := (m.issuerOrg.take 32).foldl mixByte32 h
      let h := (m.issuerCountry.take 8).foldl mixByte32 h
      let h := mixByte32 h (byteOfInt m.chainDepth)
      let h := m.chainLens.head?.elim h fun n => mixByte32 h (byteOfInt (n.tdiv 64))
      let h := m.dnsNames.head?.elim h fun s => (s.take 48).foldl mixByte32 h
      m.intermediateNames.head?.elim h fun s =>
        mixByte32 ((s.take 32).foldl mixByte32 h) (byteOfInt m.intermediateNames.length)

/-- `chainN` and `padHint` of the source are never set. -/
structure CertPlanCacheKey where
  budget : Int
  mldsa : Bool
  mode : UInt8
  metaFP : UInt32
  deriving DecidableEq

abbrev PlanCache := AList (fun _ : CertPlanCacheKey => CertPlan)

/-- A full cache drops the first key that ranging over it visits. -/
def PlanCache.store (cache : PlanCache) (key : CertPlanCacheKey) (p : CertPlan)
    (order : List CertPlanCacheKey) : PlanCache :=
  let cache : PlanCache :=
    if cache.keys.length ≥ certPlanCacheMaxEntries then
      (order.find? (· ∈ cache)).elim cache fun stale => cache.erase stale
    else cache
  cache.insert key p

/-- A call of `GetCertPlanWithMeta`; `known` is what `GetDestCertMeta` has for
the dest. -/
structure PlanRequest where
  budget : Int
  mldsa : Bool
  mode : UInt8
  certMeta : Option DestCertMeta
  shape : Option CertShapeHint
  known : Option DestCertMeta

namespace PlanRequest

variable (r : PlanRequest)

def resolved : Option DestCertMeta := r.certMeta.or r.known

def key : CertPlanCacheKey := ⟨max 0 r.budget, r.mldsa, r.mode, metaFingerprint r.resolved⟩

/-- The check of a plan that was just built. -/
def overBudget (p : CertPlan) : Bool :=
  if r.mode = recordModeSplit then !certPlanFitsBudget p (max 0 r.budget)
  else if r.mode = recordModeCoalesced then !certPlanFitsInnerBudget p (max 0 r.budget)
  else false

end PlanRequest

def getCertPlanWithMeta (x : X509) (init : CertInit) (cache : PlanCache) (r : PlanRequest)
    (order : List CertPlanCacheKey) : Calls (CertPlan × PlanCache) := do
  match cache.lookup r.key with
  | some p => pure (p, cache)
  | none =>
      match ← buildCertPlan x (max 0 r.budget) r.mldsa r.mode r.resolved
          (r.shape.or (shapeHintFromMeta r.resolved)) with
      | none => pure (fallbackCertPlan x init r.mldsa, cache)
      | some p =>
          if 0 < max 0 r.budget ∧ r.overBudget p then
            let least := fallbackCertPlan x init r.mldsa
            pure (if least.innerMsgLen < p.innerMsgLen then least else p, cache)
          else pure (p, cache.store r.key p order)

/-- One use of the cache, with the answers the outside gives from call `k` on. -/
structure PlanOp where
  x509 : X509
  request : PlanRequest
  order : List CertPlanCacheKey
  calls : Nat

/-- The plan cache of a process. -/
def planMachine (init : CertInit) : Machine PlanCache PlanOp CertPlan where
  step cache op :=
    let r := getCertPlanWithMeta op.x509 init cache op.request op.order op.calls
    some (r.1.2, r.1.1)

end Reality
