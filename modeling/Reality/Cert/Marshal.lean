import Reality.Cert.Materialize
import Reality.Kit.Builder

/-!
# The Certificate message

`certificateMsgTLS13.marshal` (handshake_messages.go) with the nested
length-prefixed builders it uses, and the estimate of its length that all sizing
decisions rest on (`estimateCertMsgLen`, cert_plan.go). A message that is too
long for its 24-bit lengths is not built at all.
-/

namespace Reality

open Kit

def extensionStatusRequest : Nat := 5

def extensionSCT : Nat := 18

def statusTypeOCSP : UInt8 := 1

/-- `certificateMsgTLS13`; a nil staple or list is `none`. -/
structure CertificateMsgTLS13 where
  certificate : List Bytes
  ocspStaple : Option Bytes
  signedCertificateTimestamps : Option (List Bytes)
  ocspStapling : Bool
  scts : Bool

/-- The extension of the leaf that carries the staple. -/
def stapleExtension : Option Bytes → Built
  | none => some []
  | some staple =>
      .parts [some (beBytes 2 extensionStatusRequest),
        .lengthPrefixed 2 (.parts [some [statusTypeOCSP], .lengthPrefixed 3 (some staple)])]

/-- The extension of the leaf that carries the timestamps. -/
def timestampsExtension : Option (List Bytes) → Built
  | none => some []
  | some scts =>
      .parts [some (beBytes 2 extensionSCT),
        .lengthPrefixed 2 (.lengthPrefixed 2 (.parts (scts.map fun sct =>
          .lengthPrefixed 2 (some sct))))]

/-- One certificate; only the leaf has extensions. -/
def marshalEntry (staple : Option Bytes) (scts : Option (List Bytes)) (i : Nat) (cert : Bytes) :
    Built :=
  .parts [.lengthPrefixed 3 (some cert),
    .lengthPrefixed 2 (if i > 0 then some []
      else .parts [stapleExtension staple, timestampsExtension scts])]

def marshalCertificate (certificate : List Bytes) (staple : Option Bytes)
    (scts : Option (List Bytes)) : Built :=
  .lengthPrefixed 3 (.parts (certificate.mapIdx (marshalEntry staple scts)))

namespace CertificateMsgTLS13

variable (m : CertificateMsgTLS13)

def marshal : Built :=
  .parts [some [typeCertificate],
    .lengthPrefixed 3 (.parts [some [0],
      marshalCertificate m.certificate (if m.ocspStapling then m.ocspStaple else none)
        (if m.scts then m.signedCertificateTimestamps else none)])]

/-- Neither a staple nor timestamps are sent. -/
def Bare : Prop :=
  (m.ocspStapling = true → m.ocspStaple = none)
    ∧ (m.scts = true → m.signedCertificateTimestamps = none)

end CertificateMsgTLS13

/-! ## The message of a bare chain -/

theorem beBytes_three (n : Nat) : beBytes 3 n = uint24 n := by
  change [UInt8.ofNat (n / 65536), UInt8.ofNat (n / 256), UInt8.ofNat (n / 1)] = uint24 n
  rw [Nat.div_one, uint24]

/-- Without extensions the entries are alike. -/
def bareEntry (cert : Bytes) : Built := marshalEntry none none 1 cert

theorem mapIdx_marshalEntry (certs : List Bytes) :
    certs.mapIdx (marshalEntry none none) = certs.map bareEntry := by
  have hentry : ∀ (i : Nat) (cert : Bytes), marshalEntry none none i cert = bareEntry cert := by
    intro i cert
    unfold bareEntry marshalEntry
    split <;> rfl
  refine List.ext_getElem? fun i => ?_
  rw [List.getElem?_mapIdx, List.getElem?_map]
  congr 1
  funext cert
  exact hentry i cert

theorem bareEntry_some {cert : Bytes} (h : cert.length < 256 ^ 3) :
    bareEntry cert = some (certificateEntry cert) := by
  rw [bareEntry, marshalEntry, Built.lengthPrefixed_some h, beBytes_three]
  simp [Built.parts, Built.lengthPrefixed, certificateEntry, beBytes, List.range_succ]

theorem bareEntry_none {cert : Bytes} (h : ¬ cert.length < 256 ^ 3) : bareEntry cert = none := by
  rw [bareEntry, marshalEntry, Built.lengthPrefixed_none h]
  rfl

/-- The entries, one after the other. -/
def certificateEntries (certs : List Bytes) : Bytes := (certs.map certificateEntry).flatten

theorem le_certificateEntries {certs : List Bytes} {cert : Bytes} (h : cert ∈ certs) :
    cert.length ≤ (certificateEntries certs).length := by
  induction certs with
  | nil => exact absurd h List.not_mem_nil
  | cons c certs ih =>
      rw [certificateEntries, List.map_cons, List.flatten_cons, List.length_append]
      rcases List.mem_cons.mp h with rfl | h
      · have : (certificateEntry cert).length = cert.length + 5 := by
          simp [certificateEntry, uint24]
        omega
      · have := ih h
        rw [certificateEntries] at this
        omega

theorem parts_pair (a b : Bytes) : Built.parts [some a, some b] = some (a ++ b) := by
  simp [Built.parts]

/-- The two outer lengths around entries that were built. -/
theorem marshal_entries (entries : Bytes) :
    Built.parts [some [typeCertificate], .lengthPrefixed 3 (.parts [some [0],
        .lengthPrefixed 3 (some entries)])]
      = if entries.length + 4 < 256 ^ 3
        then some (typeCertificate :: uint24 (1 + 3 + entries.length) ++ [0]
          ++ uint24 entries.length ++ entries)
        else none := by
  by_cases hlist : entries.length < 256 ^ 3
  · have hbody : ([0] ++ (uint24 entries.length ++ entries)).length = 1 + 3 + entries.length := by
      simp [uint24]
      omega
    rw [Built.lengthPrefixed_some hlist, beBytes_three, parts_pair]
    by_cases hfit : entries.length + 4 < 256 ^ 3
    · rw [if_pos hfit, Built.lengthPrefixed_some (by rw [hbody]; omega), hbody, beBytes_three,
        parts_pair]
      simp only [List.cons_append, List.nil_append, List.append_assoc]
    · rw [if_neg hfit, Built.lengthPrefixed_none (by rw [hbody]; omega)]
      rfl
  · rw [Built.lengthPrefixed_none hlist, if_neg (by omega)]
    rfl

/-- The message is built exactly when its body fits the 24-bit length. -/
theorem CertificateMsgTLS13.marshal_bare {m : CertificateMsgTLS13} (h : m.Bare) :
    m.marshal = if (certificateEntries m.certificate).length + 4 < 256 ^ 3
      then some (certificateMsg m.certificate) else none := by
  have hstaple : (if m.ocspStapling then m.ocspStaple else none) = none := by
    split
    next hs => exact h.1 hs
    next => rfl
  have hscts : (if m.scts then m.signedCertificateTimestamps else none) = none := by
    split
    next hs => exact h.2 hs
    next => rfl
  rw [marshal, hstaple, hscts, marshalCertificate, mapIdx_marshalEntry]
  by_cases hall : ∀ cert ∈ m.certificate, cert.length < 256 ^ 3
  · rw [Built.parts_of_some fun cert hc => bareEntry_some (hall cert hc)]
    exact marshal_entries (certificateEntries m.certificate)
  · -- A certificate that is too long alone makes the body too long as well.
    simp only [not_forall] at hall
    obtain ⟨cert, hc, hlong⟩ := hall
    have hle := le_certificateEntries hc
    rw [Built.parts_of_none hc (bareEntry_none hlong), if_neg (by omega)]
    rfl

theorem length_certificateEntries (leaf : Bytes) (chain : List Bytes) :
    ((certificateEntries (leaf :: chain)).length : Int) + 8 = estimateCertMsgLen leaf chain := by
  rw [← certificateMsg_length]
  simp only [certificateMsg, certificateEntries, uint24, List.length_cons, List.length_append,
    List.length_nil]
  push_cast
  omega

/-- The estimate is the length of the message whenever there is one, and says when
there is. -/
theorem CertificateMsgTLS13.marshal_length {m : CertificateMsgTLS13} (h : m.Bare) {leaf : Bytes}
    {chain : List Bytes} (hm : m.certificate = leaf :: chain) :
    (∀ msg, m.marshal = some msg → (msg.length : Int) = estimateCertMsgLen leaf chain)
      ∧ ((∃ msg, m.marshal = some msg) ↔ estimateCertMsgLen leaf chain - 4 < 2 ^ 24) := by
  have hlen := length_certificateEntries leaf chain
  rw [m.marshal_bare h, hm]
  by_cases hfit : (certificateEntries (leaf :: chain)).length + 4 < 256 ^ 3
  · rw [if_pos hfit]
    refine ⟨fun msg hmsg => ?_, iff_of_true ⟨_, rfl⟩ (by omega)⟩
    cases hmsg
    exact certificateMsg_length leaf chain
  · rw [if_neg hfit]
    refine ⟨fun msg hmsg => (by cases hmsg), iff_of_false ?_ (by omega)⟩
    rintro ⟨msg, hmsg⟩
    cases hmsg

/-! ## The message of a plan -/

/-- The buffers of the raw plan hold the chain of `p`, and its offsets are those of
`p`. -/
structure RawCertPlan.Stores (raw : RawCertPlan) (m : Buffers) (p : CertPlan) : Prop where
  leaf : m.read raw.leafDER = p.leafDER
  chain : raw.chainDERs.map m.read = p.chainDERs
  chain_lt : ∀ a ∈ raw.chainDERs, a < m.length
  hmacOffset : raw.hmacOffset = p.hmacOffset
  mldsaOffset : raw.mldsaOffset = (p.mldsaOffset.map Int.ofNat).getD (-1)

section Plans

variable {Key Priv : Type} {c : CertCrypto Key Priv} {s : CertHeap} {call : MaterializeCall}
  {raw : RawCertPlan} {p : CertPlan}

theorem RawCertPlan.Stores.hmacSlot_eq {m : Buffers} (h : raw.Stores m p) :
    raw.hmacSlot p.leafDER = p.hmacOffset := by
  have hroom := p.hmac_room
  rw [RawCertPlan.hmacSlot, h.hmacOffset, if_neg (by omega)]

/-- What authenticating the leaf gives is what the plan is meant to become. -/
theorem RawCertPlan.Stores.authenticate {m : Buffers} (h : raw.Stores m p)
    {authKey mldsaKey ch sh leaf : Bytes}
    (hleaf : authenticateLeaf c ⟨authKey, []⟩ raw p.leafDER mldsaKey ch sh = .ok leaf) :
    ∃ sig, materializeCert p (c.hmac authKey c.pub) sig = some (leaf :: p.chainDERs) := by
  unfold authenticateLeaf at hleaf
  dsimp only at hleaf
  rw [h.hmacSlot_eq, if_neg (by omega), Int.toNat_natCast] at hleaf
  split at hleaf
  next hsigns =>
    -- The plan is signed, so it has an offset.
    cases hoff : p.mldsaOffset with
    | none =>
        simp only [RawCertPlan.signs, h.mldsaOffset, hoff] at hsigns
        simp at hsigns
    | some off =>
        have hm : raw.mldsaOffset = off := by rw [h.mldsaOffset, hoff]; rfl
        cases hpriv : c.signer mldsaKey with
        | error e =>
            rw [hpriv] at hleaf
            cases hleaf
        | ok priv =>
            rw [hpriv, hm] at hleaf
            dsimp only at hleaf
            split at hleaf
            · cases hleaf
            next hroom =>
              cases hleaf
              refine ⟨some (c.signTo priv ((RunningHMAC.fed c ⟨authKey, []⟩ raw mldsaKey ch sh).sum
                c)), ?_⟩
              have hfits : ¬ off + mldsa65SigSize
                  > (overwrite p.leafDER p.hmacOffset 64 (c.hmac authKey c.pub)).length := by
                intro hlong
                exact hroom (Int.ofNat_lt.mpr hlong)
              unfold materializeCert
              rw [hoff]
              exact if_neg hfits
  next =>
    cases hleaf
    exact ⟨none, rfl⟩

/-- **The heap model refines the plain one**: what the returned addresses hold is a
chain the plain `materializeCert` returns. -/
theorem materializeCert_refines {buffers : Buffers} {tr}
    (hrun : (heapMachine c).Run ⟨buffers, []⟩ tr s) (hplan : call.plan = some raw)
    (hstores : raw.Stores s.buffers p) {chain : List Nat}
    (hret : (s.materializeCert c call).2 = .ok chain) :
    ∃ sig, materializeCert p (c.hmac call.authKey c.pub) sig
      = some (chain.map (s.materializeCert c call).1.buffers.read) := by
  have hne : s.buffers.read raw.leafDER ≠ [] := by
    rw [hstores.leaf]
    intro hnil
    have hroom := p.hmac_room
    rw [hnil, List.length_nil] at hroom
    omega
  have hkeyed := keyed_of_run hrun
  cases hout : authenticateLeaf c ⟨call.authKey, []⟩ raw (s.buffers.read raw.leafDER) call.mldsaKey
      call.clientHelloOrig call.serverHelloOrig with
  | error e =>
      rw [(materializeCert_keyed hkeyed hplan hne hout).1] at hret
      cases hret
  | ok leaf =>
      obtain ⟨hok, hread⟩ := materializeCert_keyed hkeyed hplan hne hout
      rw [hok] at hret
      cases hret
      rw [hstores.leaf] at hout
      obtain ⟨sig, hsig⟩ := hstores.authenticate hout
      refine ⟨sig, hsig.trans ?_⟩
      rw [List.map_cons, hread leaf rfl, ← hstores.chain]
      congr 2
      exact List.map_congr_left fun a ha =>
        (read_materializeCert (hstores.chain_lt a ha) c call).symm

end Plans

/-- **The estimate is exact.** A Certificate message without staple and timestamps
is built exactly when its body is below 2^24 bytes, and then has the estimated
length; so has, for its `InnerMsgLen`, the message of a plan that was
materialized. -/
theorem certificate_message_length :
    (∀ (m : CertificateMsgTLS13) (leaf : Bytes) (chain : List Bytes), m.Bare →
      m.certificate = leaf :: chain →
      (∀ msg, m.marshal = some msg → (msg.length : Int) = estimateCertMsgLen leaf chain)
        ∧ ((∃ msg, m.marshal = some msg) ↔ estimateCertMsgLen leaf chain - 4 < 2 ^ 24))
    ∧ ∀ (Key Priv : Type) (c : CertCrypto Key Priv) (buffers : Buffers) (tr : _) (s : CertHeap),
      (heapMachine c).Run ⟨buffers, []⟩ tr s →
      ∀ (call : MaterializeCall) (raw : RawCertPlan) (p : CertPlan) (chain : List Nat),
      call.plan = some raw → raw.Stores s.buffers p → (s.materializeCert c call).2 = .ok chain →
      ∀ m : CertificateMsgTLS13, m.Bare →
      m.certificate = chain.map (s.materializeCert c call).1.buffers.read →
      (∀ msg, m.marshal = some msg → (msg.length : Int) = p.innerMsgLen)
        ∧ ((∃ msg, m.marshal = some msg) ↔ p.innerMsgLen - 4 < 2 ^ 24) := by
  refine ⟨fun m leaf chain hb hm => m.marshal_length hb hm, ?_⟩
  intro Key Priv c buffers tr s hrun call raw p chain hplan hstores hret m hb hm
  obtain ⟨sig, hsig⟩ := materializeCert_refines hrun hplan hstores hret
  have hlen := materializeCert_length hsig
  rw [← hm] at hlen
  cases hcerts : m.certificate with
  | nil =>
      -- No chain is that short: it has a leaf.
      have hleast := p.le_inner
      rw [← hlen, hcerts] at hleast
      exact absurd hleast (by decide)
  | cons leaf rest =>
      have hestimate : estimateCertMsgLen leaf rest = p.innerMsgLen := by
        rw [p.inner_eq, ← hlen, hcerts, certificateMsg_length]
      have hmarshal := m.marshal_length hb hcerts
      rwa [hestimate] at hmarshal

/-- A leaf that is all signature, and one more certificate. -/
def pairPlan : CertPlan where
  leafDER := List.replicate 64 7
  chainDERs := [[3]]
  hmacOffset := 0
  innerMsgLen := 83
  inner_eq := by decide
  hmac_room := by decide

/-- The buffers that hold it, and the call. -/
def pairHeap : CertHeap := ⟨[pairPlan.leafDER, [3]], []⟩

def pairCall : MaterializeCall := ⟨some ⟨0, [1], 0, -1, 0⟩, [9], [], [1], [2], none⟩

/-- A leaf and one more certificate, with extensions that are switched off, and the
message of a plan. -/
theorem certificate_message_length_pair :
    (∃ msg, (CertificateMsgTLS13.mk [[1, 2], [3]] (some [4]) none false false).marshal = some msg
      ∧ msg.length = 21)
    ∧ ∃ chain msg, (pairHeap.materializeCert plainCertCrypto pairCall).2 = .ok chain
      ∧ (CertificateMsgTLS13.mk (chain.map (pairHeap.materializeCert plainCertCrypto
          pairCall).1.buffers.read) none none false false).marshal = some msg
      ∧ (msg.length : Int) = pairPlan.innerMsgLen := by
  have hbare : ∀ certs staple, (CertificateMsgTLS13.mk certs staple none false false).Bare :=
    fun _ _ => ⟨fun h => absurd h Bool.false_ne_true, fun h => absurd h Bool.false_ne_true⟩
  constructor
  · obtain ⟨hlen, hexists⟩ := certificate_message_length.1 _ [1, 2] [[3]] (hbare _ _) rfl
    obtain ⟨msg, hmsg⟩ := hexists.mpr (by decide)
    exact ⟨msg, hmsg, Int.ofNat.inj (hlen msg hmsg)⟩
  · have hstores : RawCertPlan.Stores ⟨0, [1], 0, -1, 0⟩ pairHeap.buffers pairPlan :=
      ⟨rfl, rfl, by decide, rfl, rfl⟩
    have hret : (pairHeap.materializeCert plainCertCrypto pairCall).2 = .ok [2, 1] := rfl
    obtain ⟨hlen, hexists⟩ := certificate_message_length.2 _ _ plainCertCrypto _ _ pairHeap .nil
      pairCall _ pairPlan [2, 1] rfl hstores hret _ (hbare _ none) rfl
    obtain ⟨msg, hmsg⟩ := hexists.mpr (by decide)
    exact ⟨[2, 1], msg, hret, hmsg, hlen msg hmsg⟩

/-- **Certificates below 2^24 bytes for which no message is built**: the lengths
around them do not fit any more. -/
theorem certificate_message_overflow :
    ∃ leaf : Bytes, leaf.length < 2 ^ 24
      ∧ (CertificateMsgTLS13.mk [leaf] none none false false).marshal = none := by
  have hbare : ∀ leaf : Bytes, (CertificateMsgTLS13.mk [leaf] none none false false).Bare :=
    fun _ => ⟨fun _ => rfl, fun _ => rfl⟩
  have hlen : (List.replicate (2 ^ 24 - 1) (0 : UInt8)).length = 2 ^ 24 - 1 := List.length_replicate
  refine ⟨List.replicate (2 ^ 24 - 1) 0, by rw [hlen]; decide, ?_⟩
  have hexists := (CertificateMsgTLS13.marshal_length (hbare (List.replicate (2 ^ 24 - 1) 0)) rfl).2
  rw [estimateCertMsgLen_nil, hlen] at hexists
  rw [Option.eq_none_iff_forall_not_mem]
  intro msg hmsg
  exact absurd (hexists.mp ⟨msg, hmsg⟩) (by decide)

end Reality
