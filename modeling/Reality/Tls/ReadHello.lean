import Reality.Tls.Input

/-!
# From a message to a ClientHello

The rest of `readClientHello` (handshake_server.go): the type switch of
`unmarshalHandshakeMessage` (conn.go), Encrypted Client Hello (ech.go) and the
choice of a version (common.go). Every way to fail but a closed connection
sends an alert, and the alert goes to a client that is about to be mirrored.

The ClientHello handed on is the one read, EXCEPT that an opened outer hello is
replaced by its inner one. HPKE and the reconstruction of the inner hello are a
parameter; `InnerHello` says what is known of the result.
-/

namespace Reality

open Kit Kit.Slice

/-- The other message types `unmarshalHandshakeMessage` knows. -/
def otherMessageTypes : List UInt8 := [0, 2, 4, 5, 8, 11, 12, 13, 14, 15, 16, 20, 22, 24]

/-! ## Versions -/

/-- The versions of this library, the preferred ones first. -/
def supportedVersions : List UInt16 :=
  [versionTLS13, versionTLS12, versionTLS11, versionTLS10]

def supportedVersionsFromMax (maxVersion : UInt16) : List UInt16 :=
  supportedVersions.filter (· ≤ maxVersion)

/-- The versions a ClientHello offers, by extension or by its legacy field. -/
def clientVersions (ch : ClientHelloMsg) : List UInt16 :=
  if ch.vers ≥ versionTLS13 && ch.supportedVersions = [] then
    supportedVersionsFromMax versionTLS12
  else if ch.supportedVersions = [] then supportedVersionsFromMax ch.vers
  else ch.supportedVersions

/-- `mutualVersion` -/
def mutualVersion (own peer : List UInt16) : Option UInt16 := own.find? peer.contains

/-! ## Encrypted Client Hello -/

inductive EchType where
  | inner
  | outer

/-- `parseECHExt`: the type of a well-formed extension, or the alert. -/
def parseECHExt (ext : Bytes) : Except UInt8 EchType :=
  match (Slice.whole ext).readUint8 with
  | none => .error alertDecodeError
  | some (echType, s) =>
      if echType = 1 then if s.empty then .ok .inner else .error alertDecodeError
      else if echType ≠ 0 then .error alertIllegalParameter
      else
        let fields := do
          let (_, s) ← s.readUint16
          let (_, s) ← s.readUint16
          let (_, s) ← s.readUint8
          let (_, s) ← s.readUint16LengthPrefixed
          s.readUint16LengthPrefixed
        match fields with
        | none => .error alertDecodeError
        | some _ => .ok .outer

/-- An inner hello reconstructed from `outer`. It was encrypted in an extension
of `outer`, and what it borrows from `outer` it borrows once, so it is no
longer. -/
structure InnerHello (outer : ClientHelloMsg) where
  hello : ClientHelloMsg
  parsed : unmarshalClientHello hello.original = some hello
  shorter : hello.original.length ≤ outer.original.length

/-- What trying the configured keys on an outer hello leads to. -/
inductive EchTrial (outer : ClientHelloMsg) where
  | keep
  | opened (inner : InnerHello outer)
  | alert (code : UInt8)

/-- What reading a ClientHello depends on: the version bounds, the keys for
Encrypted Client Hello (none: no keys are configured), and whether the bytes of
a message of ANOTHER type parse. -/
structure HelloConfig where
  minVersion : UInt16 := 0
  maxVersion : UInt16 := 0
  tryKeys : Option ((outer : ClientHelloMsg) → EchTrial outer) := none
  parsesOther : Bytes → Bool := fun _ => false

/-- `Config.supportedVersions`; 0 is "not set". -/
def HelloConfig.supportedVersions (c : HelloConfig) : List UInt16 :=
  Reality.supportedVersions.filter fun v =>
    !(c.minVersion = 0 && v < versionTLS12) && !(c.minVersion ≠ 0 && v < c.minVersion) &&
      !(c.maxVersion ≠ 0 && v > c.maxVersion)

/-- `processECHClientHello`: the hello to go on with, and whether it came out
of an outer one. -/
def processECHClientHello (cfg : HelloConfig) (outer : ClientHelloMsg) :
    Except UInt8 (ClientHelloMsg × Bool) :=
  match parseECHExt outer.encryptedClientHello with
  | .error code => .error code
  | .ok .inner => .ok (outer, false)
  | .ok .outer =>
      match cfg.tryKeys with
      | none => .ok (outer, false)
      | some tryKeys =>
          match tryKeys outer with
          | .keep => .ok (outer, false)
          | .opened inner => .ok (inner.hello, true)
          | .alert code => .error code

/-! ## The message -/

/-- `unmarshalHandshakeMessage` and the type assertion on its result; the error
is an alert. -/
def clientHelloOf (cfg : HelloConfig) (msg : Bytes) : Except UInt8 ClientHelloMsg :=
  let typ := msg.getD 0 0
  if typ = typeClientHello then
    match unmarshalClientHello msg with
    | none => .error alertDecodeError
    | some ch => .ok ch
  else if otherMessageTypes.contains typ && !cfg.parsesOther msg then .error alertDecodeError
  else .error alertUnexpectedMessage

/-- `readClientHello` behind `readHandshake`: the hello and the version. -/
def negotiate (cfg : HelloConfig) (msg : Bytes) : Except ReadError (ClientHelloMsg × UInt16) :=
  match clientHelloOf cfg msg with
  | .error code => .error (.alert versionTLS10 code)
  | .ok ch =>
      let ech := if ch.encryptedClientHello = [] then .ok (ch, false)
        else processECHClientHello cfg ch
      match ech with
      | .error code => .error (.alert versionTLS10 code)
      | .ok (ch, opened) =>
          match mutualVersion cfg.supportedVersions (clientVersions ch) with
          | none => .error (.alert versionTLS10 alertProtocolVersion)
          | some vers =>
              if vers ≠ versionTLS13 && opened then .error (.alert vers alertIllegalParameter)
              else .ok (ch, vers)

def readClientHello (cfg : HelloConfig) (s : Input) :
    Input × Except ReadError (ClientHelloMsg × UInt16) :=
  match s.readHandshake with
  | (s, .error e) => (s, .error e)
  | (s, .ok msg) => (s, negotiate cfg msg)

/-! ## What is known of the hello -/

/-- A hello that was parsed from its own bytes. -/
def ClientHelloMsg.Parsed (ch : ClientHelloMsg) : Prop :=
  unmarshalClientHello ch.original = some ch

theorem ClientHelloMsg.Parsed.sessionId_within {ch : ClientHelloMsg} (h : ch.Parsed) :
    ch.sessionId.Within ch.original := (unmarshalClientHello_eq_some h).2

theorem clientHelloOf_ok {cfg : HelloConfig} {msg : Bytes} {ch : ClientHelloMsg}
    (h : clientHelloOf cfg msg = .ok ch) : ch.Parsed ∧ ch.original = msg := by
  unfold clientHelloOf at h
  dsimp only at h
  split at h
  · cases hm : unmarshalClientHello msg with
    | none =>
        rw [hm] at h
        cases h
    | some ch' =>
        rw [hm] at h
        cases h
        obtain ⟨horig, -⟩ := unmarshalClientHello_eq_some hm
        exact ⟨by rw [ClientHelloMsg.Parsed, horig, hm], horig⟩
  · split at h <;> cases h

theorem processECHClientHello_ok {cfg : HelloConfig} {outer ch : ClientHelloMsg} {opened : Bool}
    (hp : outer.Parsed) (h : processECHClientHello cfg outer = .ok (ch, opened)) :
    ch.Parsed ∧ ch.original.length ≤ outer.original.length := by
  have hself : ∀ {b : Bool}, (Except.ok (outer, b) : Except UInt8 (ClientHelloMsg × Bool))
      = .ok (ch, opened) → ch.Parsed ∧ ch.original.length ≤ outer.original.length := by
    intro b heq
    simp only [Except.ok.injEq, Prod.mk.injEq] at heq
    rw [← heq.1]
    exact ⟨hp, Nat.le_refl _⟩
  unfold processECHClientHello at h
  split at h
  · cases h
  · exact hself h
  · split at h
    · exact hself h
    · split at h
      · exact hself h
      next inner _ =>
        simp only [Except.ok.injEq, Prod.mk.injEq] at h
        rw [← h.1]
        exact ⟨inner.parsed, inner.shorter⟩
      · cases h

/-- **The hello is a parsed one, no longer than the message read.** -/
theorem negotiate_ok {cfg : HelloConfig} {msg : Bytes} {ch : ClientHelloMsg} {vers : UInt16}
    (h : negotiate cfg msg = .ok (ch, vers)) :
    ch.Parsed ∧ ch.original.length ≤ msg.length := by
  unfold negotiate at h
  split at h
  · cases h
  next outer houter =>
    obtain ⟨hp, horig⟩ := clientHelloOf_ok houter
    dsimp only at h
    split at h
    · cases h
    next ch' opened hech =>
      have hch : ch'.Parsed ∧ ch'.original.length ≤ outer.original.length := by
        split at hech
        · cases hech
          exact ⟨hp, Nat.le_refl _⟩
        · exact processECHClientHello_ok hp hech
      rw [horig] at hch
      split at h
      · cases h
      · split at h
        · cases h
        · cases h
          exact hch

end Reality
