import Reality.Cert.Fit

/-!
# The reserve of a coalesced flight

`CoalescedCertBudgetForDest` (cert_plan.go) keeps back of R2 what the messages
beside the Certificate take. The reserve is computed for the Finished of
SHA-256 and the EncryptedExtensions its dest was seen to send
(`NoteDestEEPlain`, dest_cert_meta.go); what it says of the flight is that
coalescing leaves a padding that is not negative, with the headroom used up and
the longer Finished of SHA-384.

The samples stand in one map for all dests, under the name without the blanks
around it. What `strings.TrimSpace` takes for blank does not matter here.
-/

namespace Reality

open Kit

/-- `destEEMap` -/
abbrev DestEEMap : Type := AList (fun _ : Bytes => EEStats)

section

variable (trimSpace : Bytes → Bytes)

def noteDestEEPlain (m : DestEEMap) (dest : Bytes) (eePlain : Int) : DestEEMap :=
  let dest := trimSpace dest
  if dest = [] ∨ eePlain < 12 ∨ eePlain > 512 then m
  else m.insert dest (((m.lookup dest).getD {}).noteDestEEPlain eePlain)

def getDestEEPlainP90 (m : DestEEMap) (dest : Bytes) : Int × Nat × Bool :=
  let dest := trimSpace dest
  if dest = [] then (0, 0, false)
  else
    match m.lookup dest with
    | none => (0, 0, false)
    | some st => st.getDestEEPlainP90

/-- The statistics that are read for a dest. -/
def eeStatsOf (m : DestEEMap) (dest : Bytes) : EEStats :=
  if trimSpace dest = [] then {} else (m.lookup (trimSpace dest)).getD {}

/-- The map after the samples of any dests, oldest first. -/
def eeMapOf (history : List (Bytes × Int)) : DestEEMap :=
  history.foldl (fun m s => noteDestEEPlain trimSpace m s.1 s.2) ∅

/-- The samples of the history that are kept under the name of a dest. -/
def samplesOf (history : List (Bytes × Int)) (dest : Bytes) : List Int :=
  (history.filter fun s => trimSpace s.1 = trimSpace dest).map (·.2)

variable {trimSpace}

theorem getDestEEPlainP90_eq (m : DestEEMap) (dest : Bytes) :
    getDestEEPlainP90 trimSpace m dest = (eeStatsOf trimSpace m dest).getDestEEPlainP90 := by
  unfold getDestEEPlainP90 eeStatsOf
  dsimp only
  split
  · rfl
  · cases m.lookup (trimSpace dest) <;> rfl

theorem EEStats.noteDestEEPlain_ignored {st : EEStats} {eePlain : Int}
    (h : eePlain < 12 ∨ eePlain > 512) : st.noteDestEEPlain eePlain = st := if_pos h

/-- One sample changes the statistics of its own dest only. -/
theorem eeStatsOf_note {m : DestEEMap} {dest dest' : Bytes} (hd : trimSpace dest ≠ [])
    (eePlain : Int) :
    eeStatsOf trimSpace (noteDestEEPlain trimSpace m dest' eePlain) dest
      = if trimSpace dest' = trimSpace dest then
          (eeStatsOf trimSpace m dest).noteDestEEPlain eePlain
        else eeStatsOf trimSpace m dest := by
  unfold noteDestEEPlain
  dsimp only
  split
  next hskip =>
    split
    next hsame =>
      have hrange := hskip.resolve_left fun h => hd (hsame.symm.trans h)
      exact (EEStats.noteDestEEPlain_ignored hrange).symm
    next => rfl
  next =>
    rw [eeStatsOf, eeStatsOf, if_neg hd, if_neg hd]
    split
    next hsame => rw [hsame, AList.lookup_insert, Option.getD_some]
    next hne => rw [AList.lookup_insert_ne (Ne.symm hne)]

/-- A dest is judged by the samples recorded under its name, whatever is recorded
for others. -/
theorem eeStatsOf_eeMapOf {dest : Bytes} (hd : trimSpace dest ≠ [])
    (history : List (Bytes × Int)) :
    eeStatsOf trimSpace (eeMapOf trimSpace history) dest
      = eeStats (samplesOf trimSpace history dest) := by
  have hrun : ∀ (history : List (Bytes × Int)) (m : DestEEMap),
      eeStatsOf trimSpace (history.foldl (fun m s => noteDestEEPlain trimSpace m s.1 s.2) m) dest
        = (samplesOf trimSpace history dest).foldl EEStats.noteDestEEPlain
            (eeStatsOf trimSpace m dest) := by
    intro history
    induction history with
    | nil => exact fun m => rfl
    | cons s history ih =>
        intro m
        rw [List.foldl_cons, ih, eeStatsOf_note hd, samplesOf, samplesOf, List.filter_cons]
        by_cases hs : trimSpace s.1 = trimSpace dest
        · simp only [hs, if_true, decide_true, List.map_cons, List.foldl_cons]
        · simp only [hs, if_false, decide_false, Bool.false_eq_true]
  rw [eeMapOf, hrun, eeStats]
  congr 1
  rw [eeStatsOf, if_neg hd]
  rfl

end

/-! ## What the budget leaves -/

/-- The EncryptedExtensions that are reckoned with, for an answer of
`GetDestEEPlainP90`: the percentile once there are enough samples, and no less than
the typical length. -/
def eeAllowance (p90 : Int × Nat × Bool) : Int :=
  if p90.2.2 then max coalescedEETypical p90.1 else coalescedEETypical

def EEStats.allowance (st : EEStats) : Int := eeAllowance st.getDestEEPlainP90

theorem EEStats.reserve_eq (st : EEStats) :
    st.reserve = st.allowance + coalescedEEHeadroom + coalescedCVEd25519
      + coalescedFinishedSHA256 + coalescedSafetyInner := by
  unfold reserve allowance eeAllowance coalescedEETypical coalescedEEHeadroom coalescedCVEd25519
    coalescedFinishedSHA256 coalescedSafetyInner
  generalize st.getDestEEPlainP90 = q
  obtain ⟨p90, n, ok⟩ := q
  cases ok
  · rfl
  · simp only [Bool.true_and, decide_eq_true_eq, if_true]
    split <;> omega

theorem coalescedCertBudgetForDest_small {r2 : Int} (h : r2 ≤ 512) (st : EEStats) :
    coalescedCertBudgetForDest r2 st = 0 ∧ coalescedCertBudget r2 = 0 := by
  have hbase : coalescedCertBudget r2 = 0 := if_pos h
  refine ⟨?_, hbase⟩
  rw [coalescedCertBudgetForDest, hbase]
  rfl

theorem coalescedCertBudgetForDest_le (r2 : Int) (st : EEStats) :
    coalescedCertBudgetForDest r2 st ≤ coalescedCertBudget r2 := by
  by_cases h : 512 < r2
  · have h22 : certRecordOverhead = 22 := rfl
    have hres := st.le_reserve
    rw [coalescedCertBudgetForDest_eq h, coalescedCertBudget_eq h]
    omega
  · obtain ⟨hb, hbase⟩ := coalescedCertBudgetForDest_small (Int.not_lt.mp h) st
    rw [hb, hbase]

/-- A budget that is not zero is what is left of R2 beside the reserve. -/
theorem coalescedCertBudgetForDest_pos {r2 : Int} {st : EEStats}
    (h : 0 < coalescedCertBudgetForDest r2 st) :
    coalescedCertBudgetForDest r2 st = r2 - certRecordOverhead - st.reserve := by
  have hlarge : 512 < r2 := by
    by_contra hsmall
    rw [(coalescedCertBudgetForDest_small (Int.not_lt.mp hsmall) st).1] at h
    exact absurd h (by decide)
  rw [coalescedCertBudgetForDest_eq hlarge] at h ⊢
  omega

/-- The messages a coalesced flight is reckoned to have beside its Certificate, with
EncryptedExtensions of `e` bytes and the headroom. -/
structure Flight.Reckoned (f : Flight) (e : Int) : Prop where
  noRequest : f.certificateRequest = none
  extensions : (f.encryptedExtensions.length : Int) ≤ e + coalescedEEHeadroom
  verify : f.certificateVerify.length = 72
  finished : f.finished.length = 36 ∨ f.finished.length = 52

theorem Flight.Reckoned.length_le {f : Flight} {e : Int} (h : f.Reckoned e) :
    (f.messages.flatten.length : Int)
      ≤ f.certificate.length + (e + coalescedEEHeadroom) + 72 + 52 := by
  have hext := h.extensions
  have hverify := h.verify
  rw [f.length_flatten h.noRequest]
  rcases h.finished with hfin | hfin <;> push_cast <;> omega

/-- The padding of the flight in a record of `r2` bytes is not negative. -/
theorem Flight.Reckoned.padding_nonneg {f : Flight} {st : EEStats} (h : f.Reckoned st.allowance)
    {r2 : Int} (hpos : 0 < coalescedCertBudgetForDest r2 st)
    (hcert : (f.certificate.length : Int) ≤ coalescedCertBudgetForDest r2 st) :
    0 ≤ r2 - (recordHeaderLen + f.messages.flatten.length + 1 + aeadTag : Nat) := by
  have hlen := h.length_le
  have hbudget := coalescedCertBudgetForDest_pos hpos
  have hreserve := st.reserve_eq
  simp only [certRecordOverhead, recordHeaderLen, aeadTag, coalescedEEHeadroom, coalescedCVEd25519,
    coalescedFinishedSHA256, coalescedSafetyInner] at *
  push_cast at *
  omega

/-- The calibrated budget of a dest, after the samples of a history. -/
def budgetAfter (trimSpace : Bytes → Bytes) (history : List (Bytes × Int)) (dest : Bytes)
    (r2Outer : Int) : Int :=
  coalescedCertBudgetForDest r2Outer (eeStatsOf trimSpace (eeMapOf trimSpace history) dest)

/-- **The budget leaves room for the padding**, for every dest, every history of
samples and every R2: it is never above the uncalibrated one, and a Certificate
within a budget that is not zero leaves a padding that is not negative, in a
flight of either hash. -/
theorem coalesced_budget_leaves_padding (trimSpace : Bytes → Bytes)
    (history : List (Bytes × Int)) (dest : Bytes) (r2 : Int) :
    budgetAfter trimSpace history dest r2 ≤ coalescedCertBudget r2
      ∧ (0 < budgetAfter trimSpace history dest r2 →
        ∀ f : Flight,
          f.Reckoned (eeAllowance (getDestEEPlainP90 trimSpace (eeMapOf trimSpace history) dest)) →
          (f.certificate.length : Int) ≤ budgetAfter trimSpace history dest r2 →
          0 ≤ r2 - (recordHeaderLen + f.messages.flatten.length + 1 + aeadTag : Nat)
            ∧ ∀ hc : HalfConn, hc.handshakeLen 2 = r2 → hc.handshakeLen 1 ≠ 0 → ∀ t found pad,
              hc.encrypt aeadTag f.messages.flatten ≠ .error (.padding t found pad)) := by
  refine ⟨coalescedCertBudgetForDest_le r2 _, fun hpos f hf hcert => ?_⟩
  rw [getDestEEPlainP90_eq] at hf
  have hpad := hf.padding_nonneg hpos hcert
  refine ⟨hpad, fun hc hr2 harmed => ?_⟩
  have hslot : slotOf f.messages.flatten = some 2 := slotOf_of_head f.head_flatten
  rw [HalfConn.encrypt_ne_padding_iff harmed hslot, hr2]
  exact hpad

/-- A flight with the longest messages that `d` is reckoned with after samples of
100 bytes, and a Finished of SHA-384. -/
def fullFlight : Flight where
  encryptedExtensions := typeEncryptedExtensions :: List.replicate 139 0
  certificateRequest := none
  certificate := typeCertificate :: List.replicate 3777 0
  certificateVerify := typeCertificateVerify :: List.replicate 71 0
  finished := typeFinished :: List.replicate 51 0
  isExtensions := rfl
  isRequest := request_of_none
  isCertificate := rfl
  isVerify := rfl
  isFinished := rfl

/-- A Certificate that uses up the budget of a record of 4096 bytes. -/
theorem coalesced_budget_leaves_padding_full :
    budgetAfter id [(str "d", 100), (str "e", 60), (str "d", 100), (str "d", 100)] (str "d") 4096
        = 3778
      ∧ (0 : Int) ≤ 4096
        - (recordHeaderLen + fullFlight.messages.flatten.length + 1 + aeadTag : Nat) := by
  have hbudget : budgetAfter id [(str "d", 100), (str "e", 60), (str "d", 100), (str "d", 100)]
      (str "d") 4096 = 3778 := by decide +kernel
  have hallow : eeAllowance (getDestEEPlainP90 id (eeMapOf id [(str "d", 100), (str "e", 60),
      (str "d", 100), (str "d", 100)]) (str "d")) = 100 := by decide +kernel
  refine ⟨hbudget, ((coalesced_budget_leaves_padding id _ (str "d") 4096).2
    (by rw [hbudget]; decide) fullFlight ⟨rfl, ?_, ?_, ?_⟩ ?_).1⟩
  · rw [hallow, fullFlight, List.length_cons, List.length_replicate]
    decide
  · rw [fullFlight, List.length_cons, List.length_replicate]
  · rw [fullFlight, List.length_cons, List.length_replicate]
    exact Or.inr rfl
  · rw [hbudget, fullFlight, List.length_cons, List.length_replicate]
    decide

end Reality
