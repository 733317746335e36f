import Reality.Auth.Replay
import Reality.Cache.Coherence
import Reality.Server.Complete

/-!
# The key agreement of `handshake`

`handshake` (handshake_server_tls13.go) agrees on a key with whatever group the
TARGET selected, from the client's first share of that group. It always runs
X25519 and drops the errors of key generation, of the peer's key and of the
exchange; a nil key in their place is then dereferenced. Only the ML-KEM half of
the hybrid group has its error checked.

X25519 and ML-KEM are partial functions, given as a parameter.
-/

namespace Reality

open Kit

/-- `crypto/ecdh` for X25519 and `crypto/mlkem` as one handshake uses them;
`none` is an error. -/
structure KeyCrypto (Priv Pub Encap : Type) where
  generateKey : Option Priv
  publicKey : Priv → Bytes
  newPublicKey : Bytes → Option Pub
  ecdh : Priv → Pub → Option Bytes
  newEncapsulationKey768 : Bytes → Option Encap
  encapsulate : Encap → Bytes × Bytes

/-- Keys of the wrong size are malformed. -/
structure KeyCrypto.Strict {Priv Pub Encap : Type} (kc : KeyCrypto Priv Pub Encap) : Prop where
  publicKey : ∀ b, b.length ≠ 32 → kc.newPublicKey b = none
  encapsulationKey : ∀ b, b.length ≠ encapsulationKeySize768 → kc.newEncapsulationKey768 b = none

inductive KeyPanic where
  | nilSuite
  | sliceBounds
  | nilPrivateKey
  | nilPublicKey
  deriving DecidableEq

/-- The one error that is returned. -/
inductive KeyError where
  | invalidShare
  deriving DecidableEq

/-- The loop over the client's key shares. -/
def clientShare (ch : ClientHelloMsg) (group : CurveID) : Option Bytes :=
  (ch.keyShares.find? fun k => k.group = group).map (·.data)

/-- Where a share carries its X25519 key. -/
def x25519Part (group : CurveID) (data : Bytes) : Bytes :=
  if group = x25519MLKEM768 then data.drop encapsulationKeySize768 else data

section

variable {Priv Pub Encap : Type} (kc : KeyCrypto Priv Pub Encap)

/-- The key-agreement block: the shared key, and the ServerHello with the key
share in it. `room` is the capacity of the slice `serverShare.data`. -/
def keyAgreement (room : Nat) (hello : ServerHelloMsg) (ch : ClientHelloMsg) :
    Except KeyPanic (Except KeyError (Bytes × Bytes)) :=
  if !cipherSuiteTLS13ByID hello.cipherSuite then .error .nilSuite
  else
    let group := hello.serverShare.group
    let peerData := (clientShare ch group).getD []
    if group = x25519MLKEM768 ∧ peerData.length < encapsulationKeySize768 then
      .error .sliceBounds
    else
      match kc.generateKey with
      | none => .error .nilPrivateKey
      | some key =>
          match kc.newPublicKey (x25519Part group peerData) with
          | none => .error .nilPublicKey
          | some peerKey =>
              -- `hs.sharedKey, _ = key.ECDH(peerKey)`: nil when it fails.
              let sharedKey := (kc.ecdh key peerKey).getD []
              if group = x25519MLKEM768 then
                match kc.newEncapsulationKey768 (peerData.take encapsulationKeySize768) with
                | none => .ok (.error .invalidShare)
                | some k =>
                    if room < 32 then .error .sliceBounds
                    else .ok (.ok ((kc.encapsulate k).1 ++ sharedKey,
                      hello.sendShare (kc.publicKey key) (kc.encapsulate k).2))
              else .ok (.ok (sharedKey, hello.sendShare (kc.publicKey key) []))

/-- `shared` is what the server's key and the client's share `data` of `group`
give. -/
def SharedFrom (group : CurveID) (data : Bytes) (shared : Bytes) : Prop :=
  ∃ key pub secret, kc.generateKey = some key ∧
    kc.newPublicKey (x25519Part group data) = some pub ∧ kc.ecdh key pub = some secret ∧
    if group = x25519MLKEM768 then
      ∃ k, kc.newEncapsulationKey768 (data.take encapsulationKeySize768) = some k ∧
        shared = (kc.encapsulate k).1 ++ secret
    else shared = secret

/-- No panic, and a key only from the client's share of the group. -/
def AgreesSafely (room : Nat) (hello : ServerHelloMsg) (ch : ClientHelloMsg) : Prop :=
  match keyAgreement kc room hello ch with
  | .error _ => False
  | .ok (.error _) => True
  | .ok (.ok (shared, _)) => ∃ data, clientShare ch hello.serverShare.group = some data ∧
      SharedFrom kc hello.serverShare.group data shared

/-- The client sent a share of `group` that X25519 takes, and X25519 succeeds on
it unless a malformed ML-KEM key ends the handshake anyway. -/
structure UsableShare (group : CurveID) (data : Bytes) (key : Priv) (pub : Pub) : Prop where
  long : group = x25519MLKEM768 → encapsulationKeySize768 ≤ data.length
  wellFormed : kc.newPublicKey (x25519Part group data) = some pub
  exchanged : kc.ecdh key pub ≠ none ∨ group = x25519MLKEM768 ∧
    kc.newEncapsulationKey768 (data.take encapsulationKeySize768) = none

end

/-! ## The slice of the captured share -/

/-- The capacity of `serverShare.data` of a captured hello: record R0 starts the
buffer. -/
def shareRoom (hello : ServerHelloMsg) : Nat :=
  maxRecordSize - (recordHeaderLen + hello.serverShare.data.off)

theorem shareRoom_of_captured {env : CaptureEnv} {reads : List Read} {hello : ServerHelloMsg}
    (hhello : (captureTargetRecords env reads).1.hello = some hello)
    (h0 : (captureTargetRecords env reads).1.usedLen 0 ≠ 0) : 32 ≤ shareRoom hello := by
  obtain ⟨hparsed, -, hr0⟩ := captureTargetRecords_captured hhello h0
  have hshare := (unmarshalServerHello_share hparsed).1
  have hfits := captureTargetRecords_fits env reads 0
  rw [hr0, maxTLSRecordPayload, recordHeaderLen] at hfits
  rw [shareRoom, maxRecordSize, recordHeaderLen]
  omega

/-! ## When the block is safe -/

section

variable {Priv Pub Encap : Type} {kc : KeyCrypto Priv Pub Encap}
variable {room : Nat} {hello : ServerHelloMsg} {ch : ClientHelloMsg}

/-- Without a share of the group the exchange panics. -/
theorem not_agreesSafely_of_missing (hstrict : kc.Strict)
    (hsuite : cipherSuiteTLS13ByID hello.cipherSuite = true)
    (hshare : clientShare ch hello.serverShare.group = none) :
    ¬ AgreesSafely kc room hello ch := by
  rw [AgreesSafely, keyAgreement, if_neg (by simp [hsuite])]
  simp only [hshare, Option.getD_none]
  by_cases hgroup : hello.serverShare.group = x25519MLKEM768
  · rw [if_pos ⟨hgroup, by decide⟩]
    exact id
  · have hnil : kc.newPublicKey (x25519Part hello.serverShare.group []) = none := by
      rw [x25519Part, if_neg hgroup]
      exact hstrict.publicKey [] (by decide)
    rw [if_neg fun h => hgroup h.1, hnil]
    cases kc.generateKey <;> exact id

/-- Behind both keys, a shared key is decided by the exchange and ML-KEM. -/
theorem sharedFrom_iff {group : CurveID} {data shared : Bytes} {key : Priv} {pub : Pub}
    (hkey : kc.generateKey = some key)
    (hpub : kc.newPublicKey (x25519Part group data) = some pub) :
    SharedFrom kc group data shared ↔ ∃ secret, kc.ecdh key pub = some secret ∧
      if group = x25519MLKEM768 then
        ∃ k, kc.newEncapsulationKey768 (data.take encapsulationKeySize768) = some k ∧
          shared = (kc.encapsulate k).1 ++ secret
      else shared = secret := by
  constructor
  · rintro ⟨key', pub', secret, hk, hp, hs, hrest⟩
    cases hkey.symm.trans hk
    cases hpub.symm.trans hp
    exact ⟨secret, hs, hrest⟩
  · rintro ⟨secret, hs, hrest⟩
    exact ⟨key, pub, secret, hkey, hpub, hs, hrest⟩

/-- With a share, by its length, the keys and the exchange. -/
theorem agreesSafely_of_share {data : Bytes} (hroom : 32 ≤ room)
    (hsuite : cipherSuiteTLS13ByID hello.cipherSuite = true)
    (hshare : clientShare ch hello.serverShare.group = some data) :
    AgreesSafely kc room hello ch ↔ ∃ key pub, kc.generateKey = some key ∧
      UsableShare kc hello.serverShare.group data key pub := by
  rw [AgreesSafely, keyAgreement, if_neg (by simp [hsuite])]
  simp only [hshare, Option.getD_some, Option.some.injEq, exists_eq_left']
  generalize hello.serverShare.group = group at *
  by_cases hshort : group = x25519MLKEM768 ∧ data.length < encapsulationKeySize768
  · rw [if_pos hshort]
    refine ⟨False.elim, ?_⟩
    rintro ⟨key, pub, -, hu⟩
    exact absurd (hu.long hshort.1) (Nat.not_le.mpr hshort.2)
  rw [if_neg hshort]
  have hlong : group = x25519MLKEM768 → encapsulationKeySize768 ≤ data.length :=
    fun hg => Nat.not_lt.mp fun hl => hshort ⟨hg, hl⟩
  cases hkey : kc.generateKey with
  | none =>
      refine ⟨False.elim, ?_⟩
      rintro ⟨key, pub, hk, -⟩
      cases hk
  | some key =>
  cases hpub : kc.newPublicKey (x25519Part group data) with
  | none =>
      refine ⟨False.elim, ?_⟩
      rintro ⟨key', pub, -, hu⟩
      cases hpub.symm.trans hu.wellFormed
  | some pub =>
  dsimp only
  -- What is left to decide is the exchange and the ML-KEM half.
  have husable : (∃ key' pub', some key = some key' ∧ UsableShare kc group data key' pub') ↔
      kc.ecdh key pub ≠ none ∨ group = x25519MLKEM768 ∧
        kc.newEncapsulationKey768 (data.take encapsulationKeySize768) = none := by
    constructor
    · rintro ⟨key', pub', hk, hu⟩
      cases hk
      cases hpub.symm.trans hu.wellFormed
      exact hu.exchanged
    · intro hx
      exact ⟨key, pub, rfl, hlong, hpub, hx⟩
  rw [husable]
  have hfrom : ∀ shared, SharedFrom kc group data shared ↔ _ := fun _ => sharedFrom_iff hkey hpub
  by_cases hgroup : group = x25519MLKEM768
  · rw [if_pos hgroup]
    simp only [if_pos hgroup] at hfrom
    cases hk : kc.newEncapsulationKey768 (data.take encapsulationKeySize768) with
    | none => exact ⟨fun _ => .inr ⟨hgroup, rfl⟩, fun _ => trivial⟩
    | some k =>
        dsimp only
        rw [if_neg (by omega)]
        dsimp only
        rw [hfrom]
        cases hs : kc.ecdh key pub with
        | none => simp
        | some secret => simp [hk]
  · rw [if_neg hgroup]
    simp only [if_neg hgroup] at hfrom
    dsimp only
    rw [hfrom]
    cases hs : kc.ecdh key pub with
    | none => simp [hgroup]
    | some secret => simp

/-- **Headline**: the block returns an error or a key computed from the client's
share of the selected group, and does not panic, exactly when a key was generated
and the client sent a usable share of that group. -/
theorem agreesSafely_iff {env : CaptureEnv} {reads : List Read}
    (hhello : (captureTargetRecords env reads).1.hello = some hello)
    (h0 : (captureTargetRecords env reads).1.usedLen 0 ≠ 0) (hstrict : kc.Strict)
    (ch : ClientHelloMsg) :
    AgreesSafely kc (shareRoom hello) hello ch ↔ ∃ key data pub, kc.generateKey = some key ∧
      clientShare ch hello.serverShare.group = some data ∧
      UsableShare kc hello.serverShare.group data key pub := by
  have hsuite : cipherSuiteTLS13ByID hello.cipherSuite = true := by
    have hvalid := (captureTargetRecords_captured hhello h0).valid
    unfold Capture.validHello at hvalid
    simp only [Bool.and_eq_true] at hvalid
    exact hvalid.2
  cases hshare : clientShare ch hello.serverShare.group with
  | none =>
      refine ⟨fun h => absurd h (not_agreesSafely_of_missing hstrict hsuite hshare), ?_⟩
      rintro ⟨key, data, pub, -, hd, -⟩
      cases hd
  | some data =>
      rw [agreesSafely_of_share (shareRoom_of_captured hhello h0) hsuite hshare]
      constructor
      · rintro ⟨key, pub, hk, hu⟩
        exact ⟨key, data, pub, hk, rfl, hu⟩
      · rintro ⟨key, data', pub, hk, hd, hu⟩
        cases hd
        exact ⟨key, pub, hk, hu⟩

end

/-! ## A share that is there and one that is not -/

/-- Key agreement in the clear. -/
def plainKeys : KeyCrypto Bytes Bytes Bytes where
  generateKey := some []
  publicKey := fun _ => List.replicate 32 0
  newPublicKey := fun b => if b.length = 32 then some b else none
  ecdh := fun _ pub => some pub
  newEncapsulationKey768 := fun b => if b.length = encapsulationKeySize768 then some b else none
  encapsulate := fun k => (k.take 32, List.replicate 1088 0)

theorem plainKeys_strict : plainKeys.Strict where
  publicKey := fun _ h => if_neg h
  encapsulationKey := fun _ h => if_neg h

/-- The sample flight selects X25519, of which the client sent a share. -/
theorem agreesSafely_sample :
    ∃ hello, sampleCapture.hello = some hello ∧
      AgreesSafely plainKeys (shareRoom hello) hello (datedHello 100) := by
  have hlens := sampleCapture_lens
  have hsel : sampleCapture.hello.any (fun h => h.serverShare.group = x25519) = true := by
    decide +kernel
  unfold sampleCapture at hlens hsel ⊢
  cases hh : (captureTargetRecords ⟨.l0, fun _ _ => {}⟩ [⟨sampleFlight, none⟩]).1.hello with
  | none =>
      rw [hh] at hsel
      cases hsel
  | some hello =>
      rw [hh, Option.any_some, decide_eq_true_eq] at hsel
      refine ⟨hello, rfl, (agreesSafely_iff hh (by rw [hlens]; decide) plainKeys_strict _).mpr
        ⟨[], List.replicate 32 1, List.replicate 32 1, rfl, ?_, ?_⟩⟩
      · rw [hsel]
        rfl
      · rw [hsel]
        exact ⟨by decide, rfl, .inl (by decide)⟩

/-- A HelloRetryRequest for P-256. -/
def retryRequest : Bytes :=
  [2, 0, 0, 52, 3, 3] ++
    [0xcf, 0x21, 0xad, 0x74, 0xe5, 0x9a, 0x61, 0x11, 0xbe, 0x1d, 0x8c, 0x02, 0x1e, 0x65, 0xb8,
      0x91, 0xc2, 0xa2, 0x11, 0x16, 0x7a, 0xbb, 0x8c, 0x5e, 0x07, 0x9e, 0x09, 0xe2, 0xc8, 0xa8,
      0x33, 0x9c] ++
    [0, 0x13, 1, 0, 0, 12, 0, 43, 0, 2, 3, 4, 0, 51, 0, 2, 0, 23]

def retryCapture : CaptureResult :=
  (captureTargetRecords ⟨.l2, storedLook capturedObs⟩
    [⟨wrapHandshakeRecord retryRequest versionTLS12, none⟩]).1

/-- A target that asks for another share is taken for one that selected group 0:
the cache answers its lengths, the client is authenticated, and the exchange
calls ECDH with a nil key. -/
theorem retry_request_panics :
    retryCapture.err = none ∧ retryCapture.path = .l1 ∧ plainKeys.Strict ∧
      (authenticateClientHello plainCrypto sampleAuthConfig (datedHello 100) none
        ⟨100 * second, 0, 0, []⟩).accepted = true ∧
      retryCapture.hello.map (fun hello => keyAgreement plainKeys (shareRoom hello) hello
        (authenticateClientHello plainCrypto sampleAuthConfig (datedHello 100) none
          ⟨100 * second, 0, 0, []⟩).ch) = some (.error .nilPublicKey) :=
  ⟨by decide +kernel, by decide +kernel, plainKeys_strict, by decide +kernel, by decide +kernel⟩

end Reality
