import Reality.Tls.ServerHello

/-!
# ClientHello

`clientHelloMsg.unmarshal` (handshake_messages.go). Every extension is
checked as the source checks it; the values kept are those some modelled
function reads. `sessionId` stays a slice, because authentication zeroes and
restores those bytes inside the message buffer.
-/

namespace Reality

open Kit Kit.Slice

structure KeyShare where
  group : CurveID
  data : Bytes
  deriving DecidableEq, Repr

/-- The fields set by extensions. -/
structure ClientHelloExts where
  serverName : Bytes := []
  ocspStapling : Bool := false
  supportedCurves : List CurveID := []
  supportedSignatureAlgorithms : List UInt16 := []
  alpnProtocols : List Bytes := []
  scts : Bool := false
  supportedVersions : List UInt16 := []
  keyShares : List KeyShare := []
  pskModes : Bytes := []
  pskIdentities : List Bytes := []
  encryptedClientHello : Bytes := []
  deriving DecidableEq, Repr

structure ClientHelloMsg extends ClientHelloExts where
  original : Bytes
  vers : UInt16
  random : Bytes
  sessionId : Slice
  cipherSuites : List UInt16
  deriving DecidableEq, Repr

/-! ## Extension bodies -/

/-- A list of 16-bit values filling a length-prefixed block. -/
def readUint16List (block : Option (Slice × Slice)) : Option (List UInt16) :=
  match exhausted block with
  | none => none
  | some l => if l.empty then none else readAll readUint16 l.bytes.length l

def readNameEntry (s : Slice) : Option ((UInt8 × Bytes) × Slice) :=
  match s.readUint8 with
  | none => none
  | some (nameType, s) =>
      (nonEmpty s.readUint16LengthPrefixed).map fun r => ((nameType, r.1), r.2)

/-- The one host name of the list, which may not end in a dot. -/
def hostName (names : List (UInt8 × Bytes)) : Option Bytes :=
  match names.filter (·.1 = 0) with
  | [] => some []
  | [(_, name)] => if name.getLast? = some 0x2e then none else some name
  | _ => none

def readServerName (d : Slice) : Option Bytes :=
  match exhausted d.readUint16LengthPrefixed with
  | none => none
  | some nameList =>
      if nameList.empty then none
      else (readAll readNameEntry nameList.bytes.length nameList).bind hostName

def readStatusRequest (d : Slice) : Option Bool :=
  match d.readUint8 with
  | none => none
  | some (statusType, s) =>
      match s.readUint16LengthPrefixed with
      | none => none
      | some (_, s) => (exhausted s.readUint16LengthPrefixed).map fun _ => statusType = 1

def readAlpnList (d : Slice) : Option (List Bytes) :=
  match exhausted d.readUint16LengthPrefixed with
  | none => none
  | some protoList =>
      if protoList.empty then none
      else
        readAll (fun s => nonEmpty s.readUint8LengthPrefixed) protoList.bytes.length protoList

def readKeyShareEntry (s : Slice) : Option (KeyShare × Slice) :=
  match s.readUint16 with
  | none => none
  | some (group, s) =>
      (nonEmpty s.readUint16LengthPrefixed).map fun r => (⟨group, r.1⟩, r.2)

/-- The list of shares may be empty. -/
def readKeyShares (d : Slice) : Option (List KeyShare) :=
  match exhausted d.readUint16LengthPrefixed with
  | none => none
  | some shares => readAll readKeyShareEntry shares.bytes.length shares

def readPskIdentity (s : Slice) : Option (Bytes × Slice) :=
  match nonEmpty s.readUint16LengthPrefixed with
  | none => none
  | some (label, s) => s.readUint32.map fun r => (label, r.2)

/-- `pre_shared_key`: identities, then binders. -/
def readPsk (d : Slice) : Option (List Bytes) :=
  match d.readUint16LengthPrefixed with
  | none => none
  | some (identities, d) =>
      if identities.empty then none
      else
        match readAll readPskIdentity identities.bytes.length identities with
        | none => none
        | some labels =>
            match exhausted d.readUint16LengthPrefixed with
            | none => none
            | some binders =>
                if binders.empty then none
                else
                  (readAll (fun s => nonEmpty s.readUint8LengthPrefixed)
                    binders.bytes.length binders).map fun _ => labels

/-! ## The switch -/

inductive ClientExt where
  | serverName (v : Bytes)
  | statusRequest (v : Bool)
  | supportedCurves (v : List CurveID)
  | signatureAlgorithms (v : List UInt16)
  | alpn (v : List Bytes)
  | sct
  | supportedVersions (v : List UInt16)
  | keyShare (v : List KeyShare)
  | pskModes (v : Bytes)
  | preSharedKey (v : List Bytes)
  | encryptedClientHello (v : Bytes)
  /-- Accepted, and its value not used here. -/
  | accepted

/-- One extension; `rest` is what follows it in the list. -/
def parseClientExt (ext : UInt16) (d rest : Slice) : Option ClientExt :=
  if ext = 0 then (readServerName d).map .serverName
  else if ext = 5 then (readStatusRequest d).map .statusRequest
  else if ext = 10 then (readUint16List d.readUint16LengthPrefixed).map .supportedCurves
  else if ext = 11 then
    (exhausted (nonEmpty d.readUint8LengthPrefixed)).map fun _ => .accepted
  else if ext = 35 then some .accepted
  else if ext = 13 then (readUint16List d.readUint16LengthPrefixed).map .signatureAlgorithms
  else if ext = 50 then (readUint16List d.readUint16LengthPrefixed).map fun _ => .accepted
  else if ext = 0xff01 then (exhausted d.readUint8LengthPrefixed).map fun _ => .accepted
  else if ext = 23 then if d.empty then some .accepted else none
  else if ext = 16 then (readAlpnList d).map .alpn
  else if ext = 18 then if d.empty then some .sct else none
  else if ext = 43 then (readUint16List d.readUint8LengthPrefixed).map .supportedVersions
  else if ext = 44 then
    (exhausted (nonEmpty d.readUint16LengthPrefixed)).map fun _ => .accepted
  else if ext = 51 then (readKeyShares d).map .keyShare
  else if ext = 42 then if d.empty then some .accepted else none
  else if ext = 45 then
    (exhausted d.readUint8LengthPrefixed).map fun v => .pskModes v.bytes
  else if ext = 57 then some .accepted
  else if ext = 41 then if rest.empty then (readPsk d).map .preSharedKey else none
  else if ext = 0xfe0d then some (.encryptedClientHello d.bytes)
  else some .accepted

def ClientHelloExts.set (x : ClientHelloExts) : ClientExt → ClientHelloExts
  | .serverName v => { x with serverName := v }
  | .statusRequest v => { x with ocspStapling := v }
  | .supportedCurves v => { x with supportedCurves := v }
  | .signatureAlgorithms v => { x with supportedSignatureAlgorithms := v }
  | .alpn v => { x with alpnProtocols := v }
  | .sct => { x with scts := true }
  | .supportedVersions v => { x with supportedVersions := v }
  | .keyShare v => { x with keyShares := v }
  | .pskModes v => { x with pskModes := v }
  | .preSharedKey v => { x with pskIdentities := v }
  | .encryptedClientHello v => { x with encryptedClientHello := v }
  | .accepted => x

def readClientTail (s : Slice) : Option ClientHelloExts :=
  if s.empty then some {}
  else
    match exhausted s.readUint16LengthPrefixed with
    | none => none
    | some extensions =>
        walkTagged (fun x ext d rest => (parseClientExt ext d rest).map x.set)
          extensions.bytes.length extensions [] {}

/-- `clientHelloMsg.unmarshal` -/
def unmarshalClientHello (data : Bytes) : Option ClientHelloMsg := do
  let s ← (Slice.whole data).skip 4
  let (vers, s) ← s.readUint16
  let (random, s) ← s.readBytes 32
  let (sessionId, s) ← s.readUint8LengthPrefixed
  let (suites, s) ← s.readUint16LengthPrefixed
  let cipherSuites ← readAll readUint16 suites.bytes.length suites
  let (_, s) ← s.readUint8LengthPrefixed
  let exts ← readClientTail s
  some
    { toClientHelloExts := exts, original := data, vers := vers, random := random.bytes,
      sessionId := sessionId, cipherSuites := cipherSuites }

/-- The message kept is the one parsed, and the session id is a piece of it. -/
theorem unmarshalClientHello_eq_some {data : Bytes} {ch : ClientHelloMsg}
    (h : unmarshalClientHello data = some ch) :
    ch.original = data ∧ ch.sessionId.Within data := by
  simp only [unmarshalClientHello, Option.bind_eq_bind, Option.bind_eq_some_iff,
    Option.some.injEq, Prod.exists] at h
  obtain ⟨s₁, h₁, vers, s₂, h₂, random, s₃, h₃, sid, s₄, h₄, -, -, -, -, -, -, -, -, -, -, -,
    rfl⟩ := h
  have hw := ((((within_whole data).skip h₁).readUint16 h₂).readBytes h₃)
  exact ⟨rfl, hw.readUint8LengthPrefixed h₄⟩

/-! ## What a ClientHello offers -/

/-- `clientALPN` -/
def clientALPN (ch : ClientHelloMsg) : Bytes := ch.alpnProtocols.headD []

def clientHasKeyShare (ch : ClientHelloMsg) (group : CurveID) : Bool :=
  ch.keyShares.any (·.group = group)

def clientOffersCipher (ch : ClientHelloMsg) (suite : UInt16) : Bool :=
  ch.cipherSuites.any (· = suite)

end Reality
