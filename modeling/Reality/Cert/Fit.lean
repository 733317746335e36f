import Mathlib.Data.List.Sort
import Reality.Cert.Plan
import Reality.Server.CertMode

/-!
# A certificate that fits its record

`handshake` (handshake_server_tls13.go) takes the plan for the record its
Certificate goes into, and falls back to the historical certificate when the plan
is too long: `encrypt` fails on a record longer than its slot. In a coalesced
flight the budget is what R2 leaves after a RESERVE for the other messages, and
the reserve follows the EncryptedExtensions the dest was seen to send. A reserve
that uses up R2 leaves a budget of zero, and with that every check is off.
-/

namespace Reality

open Kit

/-! ## What the dest's EncryptedExtensions measured -/

/-- `destEEStats`: the last eight samples. -/
structure EEStats where
  samples : Fin 8 → Int := 0
  n : Nat := 0
  idx : Nat := 0

def EEStats.noteDestEEPlain (st : EEStats) (eePlain : Int) : EEStats :=
  if eePlain < 12 ∨ eePlain > 512 then st
  else
    { samples := Function.update st.samples (Fin.ofNat 8 st.idx) eePlain
      idx := st.idx + 1
      n := if st.n < 8 then st.n + 1 else st.n }

/-- The samples a dest's handshakes recorded, oldest first. -/
def eeStats (history : List Int) : EEStats := history.foldl EEStats.noteDestEEPlain {}

/-- The percentile, the number of samples, and whether they are enough. -/
def EEStats.getDestEEPlainP90 (st : EEStats) : Int × Nat × Bool :=
  if st.n = 0 then (0, 0, false)
  else
    let sorted := ((List.ofFn st.samples).take st.n).insertionSort (· ≤ ·)
    (sorted.getD (min (st.n * 9 / 10) (st.n - 1)) 0, st.n, decide (3 ≤ st.n))

/-! ## The budget of a coalesced Certificate -/

def coalescedEETypical : Int := 40

def coalescedCVEd25519 : Int := 72

def coalescedFinishedSHA256 : Int := 36

def coalescedEEHeadroom : Int := 40

def coalescedEECVFinishedOverhead : Int :=
  coalescedEETypical + coalescedCVEd25519 + coalescedFinishedSHA256 + coalescedEEHeadroom

def coalescedSafetyInner : Int := 48

def coalescedCertBudget (r2Outer : Int) : Int :=
  if r2Outer ≤ 512 then 0
  else
    let maxPlain := r2Outer - recordHeaderLen - 1 - 16
    if maxPlain ≤ 0 then 0
    else max 0 (maxPlain - coalescedEECVFinishedOverhead - coalescedSafetyInner)

def coalescedCertBudgetForDest (r2Outer : Int) (st : EEStats) : Int :=
  let base := coalescedCertBudget r2Outer
  if base ≤ 0 then 0
  else
    let (p90, _, ok) := st.getDestEEPlainP90
    if !ok || p90 ≤ coalescedEETypical then base
    else
      let maxPlain := r2Outer - recordHeaderLen - 1 - 16
      if maxPlain ≤ 0 then 0
      else
        let overhead := max coalescedEECVFinishedOverhead
          (p90 + coalescedCVEd25519 + coalescedFinishedSHA256 + coalescedEEHeadroom)
        let maxCert := maxPlain - overhead - coalescedSafetyInner
        if maxCert < 0 then 0 else if maxCert > base then base else maxCert

theorem coalescedCertBudget_eq {r2 : Int} (h : 512 < r2) :
    coalescedCertBudget r2 = r2 - 258 := by
  have h5 : (recordHeaderLen : Int) = 5 := rfl
  have hover : coalescedEECVFinishedOverhead = 188 := rfl
  have hsafe : coalescedSafetyInner = 48 := rfl
  rw [coalescedCertBudget, if_neg (by omega)]
  dsimp only
  rw [if_neg (by omega)]
  omega

/-- What is kept back of R2 for the messages beside the Certificate. -/
def EEStats.reserve (st : EEStats) : Int :=
  let (p90, _, ok) := st.getDestEEPlainP90
  48 + if ok && 40 < p90 then max 188 (p90 + 148) else 188

/-- The budget is what is left of R2, or zero. -/
theorem coalescedCertBudgetForDest_eq {r2 : Int} (h : 512 < r2) (st : EEStats) :
    coalescedCertBudgetForDest r2 st = max 0 (r2 - certRecordOverhead - st.reserve) := by
  have h5 : (recordHeaderLen : Int) = 5 := rfl
  have h22 : certRecordOverhead = 22 := rfl
  have hover : coalescedEECVFinishedOverhead = 188 := rfl
  have hsafe : coalescedSafetyInner = 48 := rfl
  have hee : coalescedEETypical = 40 := rfl
  have hcv : coalescedCVEd25519 = 72 := rfl
  have hfin : coalescedFinishedSHA256 = 36 := rfl
  have hhead : coalescedEEHeadroom = 40 := rfl
  unfold coalescedCertBudgetForDest EEStats.reserve
  rw [coalescedCertBudget_eq h]
  dsimp only
  rw [if_neg (by omega)]
  generalize st.getDestEEPlainP90 = q
  obtain ⟨p90, n, ok⟩ := q
  dsimp only
  by_cases hp : ok = true ∧ 40 < p90
  · have hres : (if (ok && decide (40 < p90)) = true then max 188 (p90 + 148) else 188)
        = max 188 (p90 + 148) := if_pos (by simp [hp])
    rw [hres, if_neg (by simp [hp.1, hee, hp.2]), if_neg (by omega)]
    split
    · omega
    · split <;> omega
  · have hlow : (!ok || decide (p90 ≤ coalescedEETypical)) = true := by
      cases ok
      · rfl
      · simpa [hee] using hp
    rw [if_pos hlow, if_neg (by simpa using hp)]
    omega

theorem EEStats.le_reserve (st : EEStats) : 236 ≤ st.reserve := by
  unfold reserve
  generalize st.getDestEEPlainP90 = q
  obtain ⟨p90, n, ok⟩ := q
  dsimp only
  split <;> omega

/-- Samples beyond 512 bytes are not recorded. -/
theorem eeStats_samples_le (history : List Int) (i : Fin 8) :
    (eeStats history).samples i ≤ 512 := by
  suffices h : ∀ st : EEStats, (∀ j, st.samples j ≤ 512) →
      ∀ j, (history.foldl EEStats.noteDestEEPlain st).samples j ≤ 512 from
    h {} (fun _ => (by decide : (0 : Int) ≤ 512)) i
  induction history with
  | nil => exact fun st hst => hst
  | cons eePlain history ih =>
      intro st hst
      refine ih _ fun j => ?_
      unfold EEStats.noteDestEEPlain
      split
      · exact hst j
      next hrange =>
        show Function.update st.samples (Fin.ofNat 8 st.idx) eePlain j ≤ 512
        by_cases hj : j = Fin.ofNat 8 st.idx
        · rw [hj, Function.update_self]
          omega
        · rw [Function.update_of_ne hj]
          exact hst j

/-- The reserve, whatever a dest was seen to send. -/
theorem eeStats_reserve_bounds (history : List Int) :
    236 ≤ (eeStats history).reserve ∧ (eeStats history).reserve ≤ 708 := by
  have hp90 : (eeStats history).getDestEEPlainP90.1 ≤ 512 := by
    unfold EEStats.getDestEEPlainP90
    split
    · show (0 : Int) ≤ 512
      decide
    · dsimp only
      generalize min ((eeStats history).n * 9 / 10) _ = i
      rw [List.getD_eq_getElem?_getD]
      cases hi : (((List.ofFn (eeStats history).samples).take _).insertionSort (· ≤ ·))[i]? with
      | none =>
          show (0 : Int) ≤ 512
          decide
      | some v =>
          have hmem := List.mem_of_getElem? hi
          rw [List.mem_insertionSort] at hmem
          obtain ⟨j, rfl⟩ := List.mem_ofFn.mp (List.mem_of_mem_take hmem)
          exact eeStats_samples_le history j
  refine ⟨(eeStats history).le_reserve, ?_⟩
  unfold EEStats.reserve
  generalize (eeStats history).getDestEEPlainP90 = q at *
  obtain ⟨p90, n, ok⟩ := q
  have hp90 : p90 ≤ 512 := hp90
  dsimp only
  split <;> omega

/-! ## The plan of a handshake -/

/-- What `handshake` reads for the plan besides the connection: the meta of the
cached profile, what `GetDestCertMeta` knows, and the names. -/
structure PlanContext where
  x509 : X509
  profileMeta : Option DestCertMeta
  known : Bytes → Option DestCertMeta
  configDest : Bytes
  configServerName : Bytes
  serverName : Bytes
  order : List CertPlanCacheKey

namespace PlanContext

variable (c : PlanContext)

def dest : Bytes :=
  if c.configDest ≠ [] then c.configDest
  else if c.configServerName ≠ [] then c.configServerName
  else c.serverName

def resolveDestCertMeta : Option DestCertMeta :=
  c.profileMeta.or <| (c.known c.dest).or <|
    if c.serverName ≠ [] ∧ c.serverName ≠ c.dest then c.known c.serverName else none

end PlanContext

def HalfConn.planBudget (hc : HalfConn) (st : EEStats) : Int :=
  if hc.certMode = recordModeSplit then hc.handshakeLen 3
  else coalescedCertBudgetForDest (hc.handshakeLen 2) st

/-- The hard guard of `handshake`. -/
def guardPlan (x : X509) (init : CertInit) (mldsa : Bool) (mode : UInt8) (budget : Int)
    (plan : CertPlan) : CertPlan :=
  if budget > 0 then
    if mode = recordModeSplit ∧ !certPlanFitsBudget plan budget then
      fallbackCertPlan x init mldsa
    else if mode = recordModeCoalesced ∧ !certPlanFitsInnerBudget plan budget then
      fallbackCertPlan x init mldsa
    else plan
  else plan

/-- The plan `handshake` ends up with, and the cache it leaves. -/
def handshakePlan (init : CertInit) (mldsa : Bool) (hc : HalfConn) (st : EEStats)
    (c : PlanContext) (cache : PlanCache) : Calls (CertPlan × PlanCache) := do
  let budget := hc.planBudget st
  let certMeta := c.resolveDestCertMeta
  let r ← getCertPlanWithMeta c.x509 init cache
    ⟨budget, mldsa, hc.certMode, certMeta, shapeHintFromMeta certMeta, c.known c.dest⟩ c.order
  pure (guardPlan c.x509 init mldsa hc.certMode budget r.1, r.2)

/-! ## The slot of the Certificate -/

/-- The slot the Certificate goes into has a length: R3, or a large R2 when the
flight is buffered. -/
def HalfConn.CertSlot (hc : HalfConn) : Prop :=
  hc.handshakeBuf = none ∧ 0 < hc.handshakeLen 3 ∨
    hc.handshakeBuf.isSome = true ∧ 512 < hc.handshakeLen 2

/-- What that slot leaves for the Certificate message beside `others` bytes of
other messages. -/
def HalfConn.certRoom (hc : HalfConn) (others : Nat) : Int :=
  (if hc.handshakeBuf.isSome then hc.handshakeLen 2 - others else hc.handshakeLen 3)
    - certRecordOverhead

/-- The Certificate message of the plan leaves a padding that is not negative. -/
def CertPlan.Fits (p : CertPlan) (hc : HalfConn) (others : Nat) : Prop :=
  estimateCertMsgLen p.leafDER p.chainDERs ≤ hc.certRoom others

/-- What `CertPlan.Fits` says for the historical certificate. -/
def FallbackFits (init : CertInit) (mldsa : Bool) (hc : HalfConn) (others : Nat) : Prop :=
  estimateCertMsgLen (init.cert mldsa) [] ≤ hc.certRoom others

/-! ### The room and the writer -/

theorem Flight.length_flatten (f : Flight) (hreq : f.certificateRequest = none) :
    f.messages.flatten.length = f.encryptedExtensions.length + f.certificate.length
      + f.certificateVerify.length + f.finished.length := by
  simp only [Flight.messages, hreq, Option.toList_none, List.append_nil, List.cons_append,
    List.nil_append, List.flatten_cons, List.flatten_nil, List.length_append]
  omega

namespace HalfConn

variable {hc : HalfConn}

/-- Alone in its record, a Certificate that fits is not refused for its length, and
one that does not is. -/
theorem certRoom_split (hbuf : hc.handshakeBuf = none) (harmed : hc.handshakeLen 1 ≠ 0)
    {msg : Bytes} (hhead : msg.head? = some typeCertificate) (others : Nat) :
    (msg.length : Int) ≤ hc.certRoom others ↔
      ∀ t found pad, hc.encrypt aeadTag msg ≠ .error (.padding t found pad) := by
  have hslot : slotOf msg = some 3 := slotOf_of_head hhead
  rw [encrypt_ne_padding_iff harmed hslot, certRoom, hbuf, certRecordOverhead, aeadTag,
    recordHeaderLen]
  simp only [Option.isSome_none, Bool.false_eq_true, if_false]
  omega

/-- In a buffered flight a Certificate that fits is one with which the flight fits
R2. -/
theorem certRoom_coalesced (hbuf : hc.handshakeBuf.isSome = true) {f : Flight}
    (hreq : f.certificateRequest = none) :
    (f.certificate.length : Int) ≤ hc.certRoom (f.encryptedExtensions.length
      + f.certificateVerify.length + f.finished.length) ↔ hc.Holds f := by
  rw [certRoom, if_pos hbuf, Holds, f.length_flatten hreq, certRecordOverhead, recordHeaderLen,
    aeadTag]
  push_cast
  omega

end HalfConn

/-! ### Plans -/

theorem estimateCertMsgLen_nil (leaf : Bytes) : estimateCertMsgLen leaf [] = leaf.length + 13 := by
  show (1 + 3 + 1 + 3 + (3 + leaf.length + 2) : Int) = leaf.length + 13
  omega

/-- A chain adds to its leaf. -/
theorem le_estimateCertMsgLen (leaf : Bytes) (chain : List Bytes) :
    (leaf.length + 13 : Int) ≤ estimateCertMsgLen leaf chain := by
  suffices h : ∀ n : Int, n ≤ chain.foldl (fun (n : Int) cert => n + (3 + cert.length + 2)) n by
    have hle := h (1 + 3 + 1 + 3 + (3 + leaf.length + 2))
    rw [estimateCertMsgLen]
    omega
  induction chain with
  | nil => exact fun n => le_rfl
  | cons cert chain ih =>
      intro n
      have hle := ih (n + (3 + cert.length + 2))
      rw [List.foldl_cons]
      omega

/-- The shortest message: a leaf of 64 bytes. -/
theorem CertPlan.le_inner (p : CertPlan) :
    77 ≤ estimateCertMsgLen p.leafDER p.chainDERs := by
  have hleaf := le_estimateCertMsgLen p.leafDER p.chainDERs
  have hroom := p.hmac_room
  omega

/-! ## The message that is sent -/

def uint24 (n : Nat) : Bytes := [UInt8.ofNat (n / 65536), UInt8.ofNat (n / 256), UInt8.ofNat n]

/-- One entry of `marshalCertificate`; a plan has no staple and no timestamps. -/
def certificateEntry (cert : Bytes) : Bytes := uint24 cert.length ++ cert ++ [0, 0]

/-- `certificateMsgTLS13.marshal` -/
def certificateMsg (certs : List Bytes) : Bytes :=
  let entries := (certs.map certificateEntry).flatten
  typeCertificate :: uint24 (1 + 3 + entries.length) ++ [0] ++ uint24 entries.length ++ entries

/-- `MaterializeCert`: the MAC and, under a key, the ML-DSA signature in their
places. -/
def materializeCert (plan : CertPlan) (mac : Bytes) (mldsaSig : Option Bytes) :
    Option (List Bytes) :=
  let leaf := overwrite plan.leafDER plan.hmacOffset 64 mac
  match mldsaSig, plan.mldsaOffset with
  | some sig, some off =>
      if off + mldsa65SigSize > leaf.length then none
      else some (overwrite leaf off mldsa65SigSize sig :: plan.chainDERs)
  | _, _ => some (leaf :: plan.chainDERs)

/-- The estimate is the length of the message. -/
theorem certificateMsg_length (leaf : Bytes) (chain : List Bytes) :
    ((certificateMsg (leaf :: chain)).length : Int) = estimateCertMsgLen leaf chain := by
  have hentry : ∀ cert : Bytes, (certificateEntry cert).length = cert.length + 5 := by
    intro cert
    simp [certificateEntry, uint24]
  have hchain : ∀ n : Int, chain.foldl (fun (n : Int) cert => n + (3 + cert.length + 2)) n
      = n + ((chain.map certificateEntry).flatten.length : Int) := by
    induction chain with
    | nil => simp
    | cons cert chain ih =>
        intro n
        rw [List.foldl_cons, ih, List.map_cons, List.flatten_cons, List.length_append, hentry]
        push_cast
        omega
  rw [estimateCertMsgLen, hchain]
  simp only [certificateMsg, List.map_cons, List.flatten_cons, List.length_append,
    List.length_cons, List.length_nil, hentry, uint24]
  push_cast
  omega

/-- Signing a plan keeps the length of its message. -/
theorem materializeCert_length {plan : CertPlan} {mac : Bytes} {mldsaSig : Option Bytes}
    {certs : List Bytes} (h : materializeCert plan mac mldsaSig = some certs) :
    ((certificateMsg certs).length : Int) = estimateCertMsgLen plan.leafDER plan.chainDERs := by
  have hmac : (overwrite plan.leafDER plan.hmacOffset 64 mac).length = plan.leafDER.length :=
    overwrite_length mac plan.hmac_room
  have hsame : ∀ leaf : Bytes, leaf.length = plan.leafDER.length →
      ((certificateMsg (leaf :: plan.chainDERs)).length : Int)
        = estimateCertMsgLen plan.leafDER plan.chainDERs := by
    intro leaf hleaf
    rw [certificateMsg_length, estimateCertMsgLen, estimateCertMsgLen, hleaf]
  unfold materializeCert at h
  dsimp only at h
  split at h
  · split at h
    · cases h
    next hroom =>
      cases h
      exact hsame _ ((overwrite_length _ (by omega)).trans hmac)
  · cases h
    exact hsame _ hmac

/-! ## When the guard is enough -/

section

variable {init : CertInit} {mldsa : Bool} {hc : HalfConn} {history : List Int}
variable {others : Nat}

theorem HalfConn.certMode_split_iff : hc.certMode = recordModeSplit ↔
    hc.handshakeLen 2 ≤ 512 ∧ hc.handshakeBuf = none := by
  unfold HalfConn.certMode
  by_cases hlarge : hc.handshakeLen 2 > 512
  · rw [if_pos hlarge]
    exact ⟨fun h => absurd h (by decide), fun h => absurd h.1 (by omega)⟩
  · rw [if_neg hlarge]
    cases hc.handshakeBuf with
    | none => exact ⟨fun _ => ⟨by omega, rfl⟩, fun _ => rfl⟩
    | some buf =>
        have hne : recordModeCoalesced ≠ recordModeSplit := by decide
        exact ⟨fun h => absurd h hne, fun h => absurd h.2 (by simp)⟩

theorem HalfConn.certMode_coalesced (h : hc.certMode ≠ recordModeSplit) :
    hc.certMode = recordModeCoalesced := by
  unfold HalfConn.certMode at h ⊢
  split
  · rfl
  · split
    · rfl
    · simp_all

theorem HalfConn.CertSlot.large (h : hc.CertSlot) (hmode : hc.certMode ≠ recordModeSplit) :
    512 < hc.handshakeLen 2 := by
  rcases h with ⟨hbuf, -⟩ | ⟨-, hlarge⟩
  · by_contra hsmall
    exact hmode (HalfConn.certMode_split_iff.mpr ⟨Int.not_lt.mp hsmall, hbuf⟩)
  · exact hlarge

/-- A guarded plan is the historical certificate or within its budget. -/
theorem guardPlan_cases (x : X509) (init : CertInit) (mldsa : Bool) {mode : UInt8}
    {budget : Int} (hb : 0 < budget) (plan : CertPlan) :
    guardPlan x init mldsa mode budget plan = fallbackCertPlan x init mldsa ∨
      guardPlan x init mldsa mode budget plan = plan ∧
        (mode = recordModeSplit →
          estimateCertMsgLen plan.leafDER plan.chainDERs + certRecordOverhead ≤ budget) ∧
        (mode = recordModeCoalesced →
          estimateCertMsgLen plan.leafDER plan.chainDERs ≤ budget) := by
  rw [guardPlan, if_pos hb]
  by_cases hs : mode = recordModeSplit ∧ (!certPlanFitsBudget plan budget) = true
  · rw [if_pos hs]
    exact .inl rfl
  rw [if_neg hs]
  by_cases hco : mode = recordModeCoalesced ∧ (!certPlanFitsInnerBudget plan budget) = true
  · rw [if_pos hco]
    exact .inl rfl
  rw [if_neg hco]
  refine .inr ⟨rfl, fun hm => ?_, fun hm => ?_⟩
  · have hfits : certPlanFitsBudget plan budget = true := by
      by_contra hf
      exact hs ⟨hm, by simpa using hf⟩
    simp only [certPlanFitsBudget, plan.inner_eq_estimate, Bool.or_eq_true,
      decide_eq_true_eq] at hfits
    have h22 : certRecordOverhead = recordHeaderLen + 1 + 16 := rfl
    omega
  · have hfits : certPlanFitsInnerBudget plan budget = true := by
      by_contra hf
      exact hco ⟨hm, by simpa using hf⟩
    simp only [certPlanFitsInnerBudget, plan.inner_eq_estimate, Bool.or_eq_true,
      decide_eq_true_eq] at hfits
    omega

/-- The reserve leaves something of R2, and no more than the slot has room for. -/
def ReserveSuits (hc : HalfConn) (history : List Int) (others : Nat) : Prop :=
  certRecordOverhead + (eeStats history).reserve < hc.handshakeLen 2 ∧
    (hc.handshakeLen 2 - certRecordOverhead - (eeStats history).reserve < 77 ∨
      hc.handshakeLen 2 - certRecordOverhead - (eeStats history).reserve ≤ hc.certRoom others)

theorem handshakePlan_fits (hslot : hc.CertSlot)
    (hsuits : hc.certMode = recordModeSplit ∨ ReserveSuits hc history others)
    (hfall : FallbackFits init mldsa hc others) (c : PlanContext) (cache : PlanCache) (k : Nat) :
    (handshakePlan init mldsa hc (eeStats history) c cache k).1.1.Fits hc others := by
  obtain ⟨plan, hplan⟩ : ∃ plan, (handshakePlan init mldsa hc (eeStats history) c cache k).1.1
      = guardPlan c.x509 init mldsa hc.certMode (hc.planBudget (eeStats history)) plan := ⟨_, rfl⟩
  rw [hplan]
  by_cases hmode : hc.certMode = recordModeSplit
  · have hbuf := (HalfConn.certMode_split_iff.mp hmode).2
    have hr3 : 0 < hc.handshakeLen 3 := by
      rcases hslot with h | h
      · exact h.2
      · rw [hbuf] at h
        cases h.1
    have hbudget : hc.planBudget (eeStats history) = hc.handshakeLen 3 := if_pos hmode
    have hroom : hc.certRoom others = hc.handshakeLen 3 - certRecordOverhead := by
      rw [HalfConn.certRoom, hbuf]
      rfl
    rw [hbudget]
    rcases guardPlan_cases c.x509 init mldsa hr3 plan with h | ⟨h, hle, -⟩
    · rw [h]
      exact hfall
    · rw [h, CertPlan.Fits, hroom]
      have hle := hle hmode
      omega
  · obtain ⟨hpos, hroom⟩ := hsuits.resolve_left hmode
    have hlarge := hslot.large hmode
    have hbudget : hc.planBudget (eeStats history)
        = hc.handshakeLen 2 - certRecordOverhead - (eeStats history).reserve := by
      rw [HalfConn.planBudget, if_neg hmode, coalescedCertBudgetForDest_eq hlarge]
      omega
    have hb : 0 < hc.handshakeLen 2 - certRecordOverhead - (eeStats history).reserve := by omega
    rw [hbudget]
    rcases guardPlan_cases c.x509 init mldsa hb plan with h | ⟨h, -, hle⟩
    · rw [h]
      exact hfall
    · rw [h, CertPlan.Fits]
      have hle := hle (HalfConn.certMode_coalesced hmode)
      have hleast := plan.le_inner
      omega

/-! ### A library that always answers alike -/

/-- Every certificate comes out as `der`. -/
def constX509 (der : Bytes) : X509 := ⟨fun _ _ => some der, fun _ => none, fun _ => none⟩

open Calls in
/-- A leaf that is long enough is not grown. -/
theorem buildCertPlan_const {der : Bytes} (h : 64 ≤ der.length) {budget : Int} {mode : UInt8}
    (hlong : targetInner mode budget ≤ der.length + 13) (certMeta : Option DestCertMeta)
    (shape : Option CertShapeHint) :
    Returns (buildCertPlan (constX509 der) budget mldsa mode certMeta shape)
      (· = some (certPlan (constX509 der) mldsa mode budget der [] h)) := by
  have hfinish : finishPlan (constX509 der) mldsa mode budget der []
      = some (certPlan (constX509 der) mldsa mode budget der [] h) := dif_pos h
  have hleaf : ∀ extLen, Returns (createLeaf (constX509 der) extLen 0 certMeta) (· = some der) :=
    fun _ _ => rfl
  have hgrown : Returns (growCertsToward (constX509 der) der mldsa (targetInner mode budget)
      certMeta shape) (· = (der, [])) := by
    rw [growCertsToward, if_pos (by rw [estimateCertMsgLen_nil]; exact hlong)]
    exact .pure rfl
  refine .bind (hleaf _) ?_
  rintro _ rfl
  refine .ite (fun _ => .bind hgrown ?_) fun _ => .pure hfinish
  rintro _ rfl
  refine .ite (fun _ => .bind (hleaf _) ?_) fun _ => .pure hfinish
  rintro _ rfl
  exact .pure hfinish

/-- A leaf that uses up a budget, or any leaf where there is none. -/
def UsesUp (budget : Int) (p : CertPlan) : Prop :=
  budget = 0 ∨ 0 < budget ∧ estimateCertMsgLen p.leafDER p.chainDERs = budget

theorem UsesUp.fits {budget : Int} {p : CertPlan} (h : UsesUp budget p) :
    certPlanFitsInnerBudget p budget = true := by
  rw [certPlanFitsInnerBudget, p.inner_eq_estimate]
  simp only [Bool.or_eq_true, decide_eq_true_eq]
  rcases h with h | h
  · exact .inl (by omega)
  · exact .inr (by omega)

theorem UsesUp.guardPlan {budget : Int} {p : CertPlan} (h : UsesUp budget p) (x : X509) :
    guardPlan x init mldsa recordModeCoalesced budget p = p := by
  have hsplit : recordModeCoalesced ≠ recordModeSplit := by decide
  unfold Reality.guardPlan
  split
  · rw [h.fits, if_neg (fun hs => hsplit hs.1), if_neg (by simp)]
  · rfl

open Calls in
/-- With an empty cache such a leaf is the plan, and the guard lets it through. -/
theorem handshakePlan_const (init : CertInit) (mldsa : Bool) {der : Bytes}
    (h : 64 ≤ der.length) (hmode : hc.certMode = recordModeCoalesced) {budget : Int}
    (hbudget : hc.planBudget (eeStats history) = budget)
    (huses : UsesUp budget (certPlan (constX509 der) mldsa recordModeCoalesced budget der [] h))
    (c : PlanContext) (hx : c.x509 = constX509 der) :
    Returns (handshakePlan init mldsa hc (eeStats history) c ∅)
      (·.1 = certPlan (constX509 der) mldsa recordModeCoalesced budget der [] h) := by
  have hest : estimateCertMsgLen der [] = der.length + 13 := estimateCertMsgLen_nil der
  have hlen : budget = 0 ∨ 0 < budget ∧ estimateCertMsgLen der [] = budget := huses
  have hmax : max 0 budget = budget := by omega
  have htarget : targetInner recordModeCoalesced budget ≤ der.length + 13 := by
    have hinner : maxInner recordModeCoalesced budget = budget := rfl
    unfold targetInner
    rw [hinner]
    split <;> omega
  rw [handshakePlan, hmode, hbudget, hx]
  refine .bind (Q := (·.1 = certPlan (constX509 der) mldsa recordModeCoalesced budget der [] h))
    ?_ ?_
  · rw [getCertPlanWithMeta, AList.lookup_empty]
    dsimp only
    rw [hmax]
    refine .bind (buildCertPlan_const h htarget _ _) ?_
    rintro _ rfl
    refine .ite (fun hover => ?_) fun _ => .pure rfl
    have hfalse := hover.2
    have hsplit : recordModeCoalesced ≠ recordModeSplit := by decide
    rw [PlanRequest.overBudget, if_neg hsplit, if_pos rfl, hmax, huses.fits] at hfalse
    cases hfalse
  · rintro ⟨p, cache⟩ hp
    refine .pure ?_
    show guardPlan _ init mldsa _ budget p = _
    rw [show p = _ from hp, huses.guardPlan]

/-- The property of a handshake's plan: it fits the slot if the historical
certificate does, for every library, every knowledge of the dest and every cache
that is reached. -/
def AlwaysFits (init : CertInit) (mldsa : Bool) (hc : HalfConn) (history : List Int)
    (others : Nat) : Prop :=
  ∀ (c : PlanContext) (tr : List (PlanOp × CertPlan)) (cache : PlanCache) (k : Nat),
    (planMachine init).Run ∅ tr cache → FallbackFits init mldsa hc others →
      (handshakePlan init mldsa hc (eeStats history) c cache k).1.1.Fits hc others

/-- Then a leaf of any length that gets through fits. -/
theorem AlwaysFits.leaf (hall : AlwaysFits init mldsa hc history others)
    (hfall : FallbackFits init mldsa hc others) (hmode : hc.certMode = recordModeCoalesced)
    {n : Nat} (hn : 64 ≤ n) {budget : Int} (hbudget : hc.planBudget (eeStats history) = budget)
    (huses : budget = 0 ∨ 0 < budget ∧ (n + 13 : Int) = budget) :
    (n + 13 : Int) ≤ hc.certRoom others := by
  generalize hder : List.replicate n (0 : UInt8) = der
  have hlen : der.length = n := by rw [← hder, List.length_replicate]
  have hest : estimateCertMsgLen der [] = n + 13 := by rw [estimateCertMsgLen_nil, hlen]
  have hplan := handshakePlan_const init mldsa (hlen.symm ▸ hn) hmode hbudget
    (by rw [UsesUp]; exact hest.symm ▸ huses)
    ⟨constX509 der, none, fun _ => none, [], [], [], []⟩ rfl 0
  have hfits := hall ⟨constX509 der, none, fun _ => none, [], [], [], []⟩ [] ∅ 0 .nil hfall
  rw [CertPlan.Fits, hplan] at hfits
  exact hest.symm.trans_le hfits

/-- **Headline**: the plan always fits if the historical certificate does, exactly
when the flight is split, or the reserve suits R2, or the historical certificate does
not fit either. -/
theorem alwaysFits_iff (init : CertInit) (mldsa : Bool) (history : List Int) (others : Nat)
    (hslot : hc.CertSlot) :
    AlwaysFits init mldsa hc history others ↔
      hc.certMode = recordModeSplit ∨ ReserveSuits hc history others ∨
        ¬ FallbackFits init mldsa hc others := by
  constructor
  · intro hall
    by_cases hmode : hc.certMode = recordModeSplit
    · exact .inl hmode
    by_cases hfall : FallbackFits init mldsa hc others
    swap
    · exact .inr (.inr hfall)
    have hleaf := fun n hn => hall.leaf (n := n) hfall (HalfConn.certMode_coalesced hmode) hn
      (by rw [HalfConn.planBudget, if_neg hmode, coalescedCertBudgetForDest_eq (hslot.large hmode)])
    have hpos : certRecordOverhead + (eeStats history).reserve < hc.handshakeLen 2 := by
      by_contra hzero
      -- No budget: a leaf longer than the room gets through.
      have hlong := hleaf (64 + (hc.certRoom others).toNat) (by omega) (.inl (by omega))
      omega
    refine .inr (.inl ⟨hpos, ?_⟩)
    by_cases hsmall : hc.handshakeLen 2 - certRecordOverhead - (eeStats history).reserve < 77
    · exact .inl hsmall
    · -- A leaf that uses up the budget gets through.
      have hfull := hleaf (hc.handshakeLen 2 - certRecordOverhead
        - (eeStats history).reserve - 13).toNat (by omega) (.inr (by omega))
      exact .inr (by omega)
  · rintro (hsplit | hsuits | hnot) c tr cache k - hfall
    · exact handshakePlan_fits hslot (.inl hsplit) hfall c cache k
    · exact handshakePlan_fits hslot (.inr hsuits) hfall c cache k
    · exact absurd hfall hnot

/-- Beyond 730 bytes no history uses up R2, and the reserve covers the messages of
the server. -/
theorem handshakePlan_fits_large (hbuf : hc.handshakeBuf.isSome = true)
    (hlarge : 730 < hc.handshakeLen 2) (hothers : others ≤ 236) (c : PlanContext)
    (cache : PlanCache) (k : Nat) (hfall : FallbackFits init mldsa hc others) :
    (handshakePlan init mldsa hc (eeStats history) c cache k).1.1.Fits hc others := by
  obtain ⟨hlo, hhi⟩ := eeStats_reserve_bounds history
  have h22 : certRecordOverhead = 22 := rfl
  have hroom : hc.certRoom others = hc.handshakeLen 2 - others - certRecordOverhead := by
    rw [HalfConn.certRoom, if_pos hbuf]
  refine handshakePlan_fits (.inr ⟨hbuf, by omega⟩) (.inr ⟨by omega, .inr ?_⟩) hfall c cache k
  rw [hroom]
  omega

end

/-! ## A reserve that uses up R2 -/

/-- Historical certificates of 250 and 3600 bytes. -/
def sampleInit : CertInit where
  signedCert := List.replicate 250 0
  signedCertMldsa65 := List.replicate 3600 0
  signed := by rw [List.length_replicate]; decide
  signedMldsa65 := by rw [List.length_replicate]; decide

/-- A buffered flight with an R2 of this length. -/
def bufferedConn (r2 : Int) : HalfConn := ⟨![95, 6, r2, 0, 0, 0, 0], some []⟩

theorem bufferedConn_alwaysFits :
    (bufferedConn 1200).CertSlot ∧
      AlwaysFits sampleInit false (bufferedConn 1200) [490, 490, 490] 130 := by
  have hslot : (bufferedConn 1200).CertSlot := .inr ⟨rfl, by decide⟩
  refine ⟨hslot, (alwaysFits_iff _ _ _ _ hslot).mpr (.inr (.inl ⟨?_, .inr ?_⟩))⟩
  · decide +kernel
  · decide +kernel

/-- A dest that sent EncryptedExtensions of 490 bytes three times uses up an R2 of
700 bytes: the leaf made after its certificate is not checked, and is too long for
the record that had room for the historical one. -/
theorem reserved_flight_too_long :
    validateRecordLens (bufferedConn 700).handshakeLen = true ∧ (bufferedConn 700).CertSlot ∧
      FallbackFits sampleInit false (bufferedConn 700) 114 ∧
      ∃ c : PlanContext, ¬ (handshakePlan sampleInit false (bufferedConn 700)
        (eeStats [490, 490, 490]) c ∅ 0).1.1.Fits (bufferedConn 700) 114 := by
  have hlen : 64 ≤ (List.replicate 900 (0 : UInt8)).length := by
    rw [List.length_replicate]
    decide
  refine ⟨by decide, .inr ⟨rfl, by decide⟩, ?_,
    ⟨constX509 (List.replicate 900 0), some { cn := str "a.io" }, fun _ => none, [], [], [], []⟩,
    ?_⟩
  · rw [FallbackFits, estimateCertMsgLen_nil]
    decide +kernel
  · have hbudget : (bufferedConn 700).planBudget (eeStats [490, 490, 490]) = 0 := by
      decide +kernel
    have hplan := handshakePlan_const sampleInit false hlen rfl hbudget (.inl rfl)
      ⟨constX509 (List.replicate 900 0), some { cn := str "a.io" }, fun _ => none, [], [], [], []⟩
      rfl 0
    rw [CertPlan.Fits, hplan]
    show ¬ estimateCertMsgLen (List.replicate 900 0) [] ≤ _
    rw [estimateCertMsgLen_nil, List.length_replicate]
    decide +kernel

end Reality
