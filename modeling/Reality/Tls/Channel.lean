import Reality.Kit.Run
import Reality.Kit.Transit
import Reality.Tls.PostHandshake
import Reality.Tls.Seal

/-!
# Two ends of a connection

A TLS 1.3 connection after the handshake, with both of its ends: `Write`, `CloseWrite`
and `Read` (conn.go) down to the sealed records, `maxPayloadSizeForWrite`, and
`handleKeyUpdate`. An end writes under the lock of `out` while it reads under the lock of
`in`; the reader takes the lock of `out` only to answer a key update or to send an alert,
so that answer is a step of its own.

Each direction of the network is the bytes on their way. Writing fails once close_notify
was sent, because `closeNotify` sets a deadline that has passed.

The code answers key updates but never starts one. The step `update` stands for a peer
that does.
-/

namespace Reality

open Kit

def maxCiphertextTLS13 : Nat := 16384 + 256

def tcpMSSEstimate : Nat := 1208

def recordSizeBoostThreshold : Nat := 128 * 1024

/-- `cipherSuiteTLS13`; `hashSize` is `hash.Size()`, and `aead` the cipher under the
`trafficKey` of a secret. -/
structure CipherSuiteTLS13 where
  hashSize : Nat
  nextTrafficSecret : Bytes → Bytes
  length_nextTrafficSecret : ∀ secret, (nextTrafficSecret secret).length = hashSize
  aead : Bytes → Aead

/-- A `halfConn` with its traffic secret. -/
structure SecretConn extends SecureConn where
  trafficSecret : Bytes

/-- The number that `setTrafficSecret` starts from. -/
def SeqNum.cleared : SeqNum := ⟨List.replicate 8 0, rfl⟩

namespace SecretConn

def setTrafficSecret (suite : CipherSuiteTLS13) (hc : SecretConn) (secret : Bytes) :
    SecretConn :=
  { hc with trafficSecret := secret, cipher := suite.aead secret, seq := .cleared }

/-- The next secret takes the place of the present one. -/
def update (suite : CipherSuiteTLS13) (hc : SecretConn) : SecretConn :=
  hc.setTrafficSecret suite (suite.nextTrafficSecret hc.trafficSecret)

end SecretConn

/-- What the reader of an end has to send before it goes on. -/
inductive Owed where
  | nothing
  | keyUpdate
  | alert (code : UInt8)
  deriving DecidableEq

/-- The fields of `Conn` that are in use after the handshake. -/
structure ChannelEnd where
  endpoint : Endpoint
  dynamicRecordSizingDisabled : Bool := false
  inHalf : SecretConn
  outHalf : SecretConn
  inErr : Option ConnError := none
  outErr : Option ConnError := none
  closeNotifySent : Bool := false
  bytesSent : Nat := 0
  packetsSent : Nat := 0
  retryCount : Nat := 0
  maxUselessRecords : Int := 0
  hand : Bytes := []
  input : Bytes := []
  owed : Owed := .nothing

/-- What a call has put on the wire, with the secret and the number each record was sealed
under, and whether it went well. -/
structure Sent where
  wire : Bytes := []
  nonces : List (Bytes × SeqNum) := []
  ok : Bool := true

/-! ## Writing -/

namespace ChannelEnd

/-- `maxPayloadSizeForWrite`; an AEAD of TLS 1.3 has no explicit nonce. -/
def maxPayloadSizeForWrite (e : ChannelEnd) (typ : UInt8) : ChannelEnd × Nat :=
  if e.dynamicRecordSizingDisabled || typ ≠ recordTypeApplicationData then (e, maxPlaintext)
  else if e.bytesSent ≥ recordSizeBoostThreshold then (e, maxPlaintext)
  else
    let payloadBytes := tcpMSSEstimate - recordHeaderLen - e.outHalf.cipher.overhead - 1
    let pkt := e.packetsSent
    let e := { e with packetsSent := e.packetsSent + 1 }
    if pkt > 1000 then (e, maxPlaintext)
    else (e, min (payloadBytes * (pkt + 1)) maxPlaintext)

/-- The body of the loop of `writeRecordLocked`: seal one record and send it. None is the
panic of the sequence number. -/
def sendRecord (e : ChannelEnd) (typ : UInt8) (payload : Bytes) : Option (ChannelEnd × Sent) :=
  let nonces := [(e.outHalf.trafficSecret, e.outHalf.seq)]
  match e.outHalf.encrypt (recordHeader typ versionTLS12 payload.length) payload with
  | (_, .error .wraparound) => none
  | (hc, .error (.encrypt _)) =>
      some ({ e with outHalf := { e.outHalf with toSecureConn := hc } }, { ok := false })
  | (hc, .ok record) =>
      let e := { e with outHalf := { e.outHalf with toSecureConn := hc } }
      -- The deadline is checked by the connection, when the record is sealed.
      if e.closeNotifySent then some (e, { nonces := nonces, ok := false })
      else
        some ({ e with bytesSent := e.bytesSent + record.length },
          { wire := record, nonces := nonces })

/-- `writeRecordLocked`. Each record takes a byte of the data at least. -/
def writeRecordLocked (typ : UInt8) : Nat → ChannelEnd → Bytes → Option (ChannelEnd × Sent)
  | 0, e, _ => some (e, {})
  | fuel + 1, e, data =>
      if data = [] then some (e, {})
      else
        let sized := e.maxPayloadSizeForWrite typ
        let m := min data.length sized.2
        match sized.1.sendRecord typ (data.take m) with
        | none => none
        | some (e, s) =>
            if !s.ok then some (e, s)
            else
              match writeRecordLocked typ fuel e (data.drop m) with
              | none => none
              | some (e, s') => some (e, ⟨s.wire ++ s'.wire, s.nonces ++ s'.nonces, s'.ok⟩)

/-- `sendAlertLocked` -/
def sendAlertLocked (e : ChannelEnd) (code : UInt8) : Option (ChannelEnd × Sent) :=
  let level := if code = alertCloseNotify then alertLevelWarning else alertLevelError
  match e.writeRecordLocked recordTypeAlert 2 [level, code] with
  | none => none
  | some (e, s) =>
      some (if code = alertCloseNotify then e else { e with outErr := some (.alert code) }, s)

/-- `Write`: the bytes it took. -/
def write (e : ChannelEnd) (data : Bytes) : Option (ChannelEnd × Sent × Bytes) :=
  if e.outErr.isSome || e.closeNotifySent then some (e, {}, [])
  else
    match e.writeRecordLocked recordTypeApplicationData data.length data with
    | none => none
    | some (e, s) =>
        if s.ok then some (e, s, data) else some ({ e with outErr := some (.net false) }, s, [])

/-- `closeNotify` -/
def closeWrite (e : ChannelEnd) : Option (ChannelEnd × Sent) :=
  if e.closeNotifySent then some (e, {})
  else
    match e.sendAlertLocked alertCloseNotify with
    | none => none
    | some (e, s) => some ({ e with closeNotifySent := true }, s)

/-- A key update is sent under the old key; what is sent next is under the new one. -/
def sendKeyUpdate (suite : CipherSuiteTLS13) (e : ChannelEnd) (updateRequested : Bool) :
    Option (ChannelEnd × Sent) :=
  match e.writeRecordLocked recordTypeHandshake 5 (keyUpdateBytes updateRequested) with
  | none => none
  | some (e, s) =>
      if s.ok then some ({ e with outHalf := e.outHalf.update suite }, s)
      else some ({ e with outErr := some (.net false) }, s)

/-- What the reader sends: the end of `handleKeyUpdate`, or `sendAlert`. -/
def respond (suite : CipherSuiteTLS13) (e : ChannelEnd) : Option (ChannelEnd × Sent) :=
  match e.owed with
  | .nothing => none
  | .keyUpdate => { e with owed := .nothing }.sendKeyUpdate suite false
  | .alert code => { e with owed := .nothing }.sendAlertLocked code

/-! ## Reading -/

/-- `return c.in.setErrorLocked(err)`, after an alert if the error is one. -/
def fail (e : ChannelEnd) (err : ConnError) : ChannelEnd :=
  match err with
  | .alert code => { e with inErr := some err, owed := .alert code }
  | _ => { e with inErr := some err }

/-- `retryReadRecord`, up to the next record. -/
def retryReadRecord (e : ChannelEnd) : ChannelEnd :=
  let limit :=
    if e.maxUselessRecords ≤ 0 then (Reality.maxUselessRecords : Int) else e.maxUselessRecords
  let e := { e with retryCount := e.retryCount + 1, maxUselessRecords := limit }
  if (e.retryCount : Int) > e.maxUselessRecords then
    { e with inErr := some .tooManyIgnored, owed := .alert alertUnexpectedMessage }
  else e

/-- What `readRecordOrCCS` does with a record that it has opened. -/
def processRecord (e : ChannelEnd) (typ : UInt8) (data : Bytes) : ChannelEnd :=
  if data.length > maxPlaintext then e.fail (.alert alertRecordOverflow)
  else
    let e := if typ ≠ recordTypeAlert ∧ typ ≠ recordTypeChangeCipherSpec ∧ data ≠ [] then
      { e with retryCount := 0 } else e
    match postAction e.hand typ data with
    | .fail err => e.fail err
    | .retry => e.retryReadRecord
    | .input => { e with input := data }
    | .handshake => { e with hand := e.hand ++ data }

/-- The reader is in `readHandshakeBytes`, for more than it has. -/
def handShort (hand : Bytes) : Bool :=
  hand.length < 4 ||
    (handshakeLenAt hand ≤
        (if hand.getD 0 0 = typeCertificate then maxHandshakeCertificateMsg else maxHandshake) &&
      hand.length < 4 + handshakeLenAt hand)

/-- `readRecordOrCCS` with the bytes that have come in: the end after it and the bytes it
left. None where it waits, or returns the error it has. -/
def receive (e : ChannelEnd) (wire : Bytes) : Option (ChannelEnd × Bytes) :=
  if e.inErr.isSome || e.owed ≠ .nothing || e.input ≠ [] || !handShort e.hand then none
  else if wire.length < recordHeaderLen then none
  else if be16At wire 1 ≠ versionTLS12.toNat then
    some (e.fail (.alert alertProtocolVersion), wire)
  else if be16At wire 3 > maxCiphertextTLS13 then some (e.fail (.alert alertRecordOverflow), wire)
  else if wire.length < recordLenAt wire then none
  else
    match e.inHalf.decrypt (wire.take (recordLenAt wire)) with
    | (_, .error .wraparound) => none
    | (hc, .error (.alert code)) =>
        some ({ e with inHalf := { e.inHalf with toSecureConn := hc } }.fail (.alert code),
          wire.drop (recordLenAt wire))
    | (hc, .ok (data, typ)) =>
        some ({ e with inHalf := { e.inHalf with toSecureConn := hc } }.processRecord typ data,
          wire.drop (recordLenAt wire))

/-- The alert that goes with an error of `handleNewSessionTicket`. -/
def ticketAlert : ConnError → UInt8
  | .ticketLifetime => alertIllegalParameter
  | .ticketLabel => alertDecodeError
  | .alert code => code
  | _ => alertUnexpectedMessage

/-- What `handlePostHandshakeMessage` does with a message. Errors that are not kept in
`in.err` are returned, and the next `Read` goes on. -/
def handleMessage (suite : CipherSuiteTLS13) (e : ChannelEnd) (msg : PostMessage) : ChannelEnd :=
  let e := { e with retryCount := e.retryCount + 1 }
  if (e.retryCount : Int) > e.maxUselessRecords then
    { e with inErr := some .tooManyNonAdvancing, owed := .alert alertUnexpectedMessage }
  else
    match msg with
    | .newSessionTicket ticket =>
        match handleNewSessionTicket e.endpoint ticket {} with
        | .error (.error err) _ => { e with owed := .alert (ticketAlert err) }
        | _ => e
    | .keyUpdate updateRequested =>
        if !cipherSuiteTLS13ByID e.endpoint.cipherSuite then e.fail (.alert alertInternalError)
        else
          { e with
            inHalf := e.inHalf.update suite
            owed := if updateRequested then .keyUpdate else .nothing }
    | .other => { e with owed := .alert alertUnexpectedMessage }

/-- `handlePostHandshakeMessage`, with the message all there. -/
def handle (suite : CipherSuiteTLS13) (e : ChannelEnd) : Option ChannelEnd :=
  if e.inErr.isSome || e.owed ≠ .nothing || handShort e.hand then none
  else
    let n := handshakeLenAt e.hand
    let limit :=
      if e.hand.getD 0 0 = typeCertificate then maxHandshakeCertificateMsg else maxHandshake
    if n > limit then
      some { e with
        inErr := some (.oversizedMessage n limit), owed := .alert alertInternalError }
    else
      let e' := { e with hand := e.hand.drop (4 + n) }
      match unmarshalHandshakeMessage e.endpoint (e.hand.take (4 + n)) with
      | .error code => some (e'.fail (.alert code))
      | .ok msg => some (e'.handleMessage suite msg)

/-- The end of `Read`: the bytes it returns. -/
def take (e : ChannelEnd) (n : Nat) : Option (ChannelEnd × Bytes) :=
  if e.owed ≠ .nothing || e.input = [] then none
  else some ({ e with input := e.input.drop n }, e.input.take n)

end ChannelEnd

/-! ## Both ends -/

/-- `wire b` is what end `b` has sent and the other has not taken. -/
structure Channel where
  ends : Bool → ChannelEnd
  wire : Bool → Bytes

inductive ChannelAct where
  | write (data : Bytes)
  | closeWrite
  /-- A peer starts a key update. -/
  | update (updateRequested : Bool)
  | respond
  | receive
  | handle
  | take (n : Nat)

/-- How often a step may replace the secret of what is sent. -/
def ChannelAct.rekeys : ChannelAct → Nat
  | .update _ | .respond => 1
  | _ => 0

/-- What a step shows: the bytes a `Write` took, those a `Read` returned, and the nonces. -/
structure ChannelOut where
  wrote : Bytes := []
  read : Bytes := []
  nonces : List (Bytes × SeqNum) := []

namespace Channel

/-- End `b` has moved to `e` and put `s` on the wire. -/
def sent (c : Channel) (b : Bool) (e : ChannelEnd) (s : Sent) : Channel :=
  { ends := Function.update c.ends b e, wire := Function.update c.wire b (c.wire b ++ s.wire) }

/-- End `b` has moved to `e` and left `rest` of what came in. -/
def received (c : Channel) (b : Bool) (e : ChannelEnd) (rest : Bytes) : Channel :=
  { ends := Function.update c.ends b e, wire := Function.update c.wire (!b) rest }

def step (suite : CipherSuiteTLS13) (c : Channel) (b : Bool) (a : ChannelAct) :
    Option (Channel × ChannelOut) :=
  let e := c.ends b
  match a with
  | .write data =>
      (e.write data).map fun r => (c.sent b r.1 r.2.1, { wrote := r.2.2, nonces := r.2.1.nonces })
  | .closeWrite => e.closeWrite.map fun r => (c.sent b r.1 r.2, { nonces := r.2.nonces })
  | .update updateRequested =>
      if e.outErr.isSome || e.closeNotifySent then none
      else
        (e.sendKeyUpdate suite updateRequested).map fun r =>
          (c.sent b r.1 r.2, { nonces := r.2.nonces })
  | .respond => (e.respond suite).map fun r => (c.sent b r.1 r.2, { nonces := r.2.nonces })
  | .receive => (e.receive (c.wire (!b))).map fun r => (c.received b r.1 r.2, {})
  | .handle => (e.handle suite).map fun r => (c.received b r (c.wire (!b)), {})
  | .take n => (e.take n).map fun r => (c.received b r.1 (c.wire (!b)), { read := r.2 })

end Channel

/-- The two ends take their steps in any order. -/
def channel (suite : CipherSuiteTLS13) : Machine Channel (Bool × ChannelAct) ChannelOut :=
  ⟨fun c x => c.step suite x.1 x.2⟩

end Reality
