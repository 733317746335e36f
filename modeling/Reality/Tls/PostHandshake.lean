import Reality.Kit.Streak
import Reality.Kit.Triple
import Reality.Tls.Encrypt
import Reality.Tls.Input

/-!
# Records after the handshake

`Read` (conn.go) on a TLS 1.3 connection whose handshake is complete. Records that
bring nothing, an empty record or a user_canceled alert, are dropped by
`retryReadRecord`; key updates and tickets are handled by
`handlePostHandshakeMessage`. Both count in `retryCount` and compare it with
`MaxUselessRecords`, a field that is 0 until `retryReadRecord` sets it.

The code is in the monad of a connection that stops: with an error it returns, or
waiting for a record. All that will ever come in is in the state, decrypted. The state
also keeps what was counted, so that the counter can be compared with it.
-/

namespace Reality

open Kit Kit.Slice

def maxHandshakeCertificateMsg : Nat := 262144

def maxSessionTicketLifetime : Int := 7 * 24 * 3600 * second

def alertUserCanceled : UInt8 := 90

def typeHelloRequest : UInt8 := 0

def typeEndOfEarlyData : UInt8 := 5

def typeServerKeyExchange : UInt8 := 12

def typeServerHelloDone : UInt8 := 14

def typeClientKeyExchange : UInt8 := 16

def typeCertificateStatus : UInt8 := 22

def typeKeyUpdate : UInt8 := 24

def extensionEarlyData : UInt16 := 42

/-! ## Messages -/

/-- `newSessionTicketMsgTLS13`, without the early data that only QUIC reads. -/
structure NewSessionTicketMsg where
  lifetime : UInt32
  ageAdd : UInt32
  nonce : Bytes
  label : Bytes

/-- The body of the loop over a ticket's extensions. -/
def readTicketExt (s : Slice) : Option (Unit × Slice) := do
  let (extension, s) ← s.readUint16
  let (extData, s) ← s.readUint16LengthPrefixed
  if extension = extensionEarlyData then
    let _ ← exhausted extData.readUint32
    some ((), s)
  else some ((), s)

def unmarshalNewSessionTicket (data : Bytes) : Option NewSessionTicketMsg := do
  let s ← (Slice.whole data).skip 4
  let (lifetime, s) ← s.readUint32
  let (ageAdd, s) ← s.readUint32
  let (nonce, s) ← s.readUint8LengthPrefixed
  let (label, s) ← s.readUint16LengthPrefixed
  let extensions ← exhausted s.readUint16LengthPrefixed
  let _ ← readAll readTicketExt extensions.bytes.length extensions
  some ⟨lifetime, ageAdd, nonce.bytes, label.bytes⟩

/-- Whether an answer is requested. -/
def unmarshalKeyUpdate (data : Bytes) : Option Bool := do
  let s ← (Slice.whole data).skip 4
  let updateRequested ← exhausted s.readUint8
  if updateRequested = 0 then some false
  else if updateRequested = 1 then some true
  else none

inductive PostMessage where
  | newSessionTicket (m : NewSessionTicketMsg)
  | keyUpdate (updateRequested : Bool)
  | other

/-- The message types that are parsed but not expected after the handshake. -/
def otherTypes : List UInt8 :=
  [typeHelloRequest, typeClientHello, typeServerHello, typeCertificate, typeCertificateRequest,
    typeCertificateStatus, typeServerKeyExchange, typeServerHelloDone, typeClientKeyExchange,
    typeCertificateVerify, typeFinished, typeEncryptedExtensions, typeEndOfEarlyData]

/-- What of a connection and its configuration decides about a message. `unmarshals`
are the parsers of the other messages. -/
structure Endpoint where
  isClient : Bool
  cipherSuite : UInt16
  ticketCache : Bool
  resumptionSecret : Option Bytes
  unmarshals : Bytes → Bool

/-- `unmarshalHandshakeMessage`; the error is the alert that is sent. -/
def unmarshalHandshakeMessage (e : Endpoint) (data : Bytes) : Except UInt8 PostMessage :=
  let parsed (m : Option PostMessage) : Except UInt8 PostMessage :=
    match m with
    | some m => .ok m
    | none => .error alertDecodeError
  let typ := data.getD 0 0
  if typ = typeNewSessionTicket then parsed ((unmarshalNewSessionTicket data).map .newSessionTicket)
  else if typ = typeKeyUpdate then parsed ((unmarshalKeyUpdate data).map .keyUpdate)
  else if typ ∈ otherTypes then parsed (if e.unmarshals data then some .other else none)
  else .error alertUnexpectedMessage

/-- The bytes of a `keyUpdateMsg`. -/
def keyUpdateBytes (updateRequested : Bool) : Bytes :=
  [typeKeyUpdate, 0, 0, 1, if updateRequested then 1 else 0]

theorem unmarshalHandshakeMessage_keyUpdate (e : Endpoint) (requested : Bool) :
    unmarshalHandshakeMessage e (keyUpdateBytes requested) = .ok (.keyUpdate requested) := by
  cases requested <;> rfl

theorem handshakeLenAt_keyUpdate (requested : Bool) :
    handshakeLenAt (keyUpdateBytes requested) = 1 := by
  cases requested <;> rfl

/-! ## The connection -/

inductive ConnError where
  | closed
  | net (temporary : Bool)
  | alert (code : UInt8)
  | remote (code : UInt8)
  | pendingData
  | tooManyIgnored
  | tooManyNonAdvancing
  | oversizedMessage (n maxHandshakeSize : Nat)
  | unexpectedMessage
  | ticketFromClient
  | ticketLifetime
  | ticketLabel
  deriving DecidableEq

/-- The fields of `Conn` that reading uses; `inErr` is `in.err`. -/
structure Conn where
  retryCount : Nat := 0
  maxUselessRecords : Int := 0
  hand : Bytes := []
  input : Bytes := []
  inErr : Option ConnError := none
  deriving DecidableEq

/-- What the record layer makes of the next bytes: a decrypted record, an error of
the network, or an error in the header or the decryption. -/
inductive Incoming where
  | record (typ : UInt8) (data : Bytes)
  | failed (temporary : Bool)
  | rejected (code : UInt8)

/-- What happened, for the counter: a record with data, a record that was dropped,
a message that was read. -/
inductive ReadEvent where
  | advanced
  | ignored
  | message
  deriving DecidableEq

def ReadEvent.nonAdvancing : ReadEvent → Bool
  | .advanced => false
  | .ignored => true
  | .message => true

/-- The connection with all that will ever come in, and what happened so far. -/
structure ReadState extends Conn where
  rest : List Incoming := []
  events : List ReadEvent := []

/-- Why a call stops: it returns an error, or it waits for a record that never
comes. -/
inductive Stop where
  | waiting
  | error (e : ConnError)
  | outOfFuel
  deriving DecidableEq

abbrev ReadM := EStateM Stop ReadState

/-! ## Records -/

/-- `c.retryCount++`, for the event `e`. -/
def countRetry (e : ReadEvent) : ReadM Unit :=
  modify fun s => { s with retryCount := s.retryCount + 1, events := s.events ++ [e] }

/-- `c.retryCount = 0` -/
def resetRetry : ReadM Unit :=
  modify fun s => { s with retryCount := 0, events := s.events ++ [.advanced] }

/-- `return c.in.setErrorLocked(e)`. -/
def setErrorLocked {α : Type} (e : ConnError) : ReadM α := do
  modify fun s => { s with inErr := some e }
  throw (.error e)

/-- Wait for a record. -/
def nextIncoming : ReadM Incoming := do
  let s ← get
  match s.rest with
  | [] => throw .waiting
  | a :: rest => do
      modify fun s => { s with rest := rest }
      return a

/-- A record that is not an alert or a ChangeCipherSpec, and not empty, resets the
count. -/
def noteAdvance (typ : UInt8) (data : Bytes) : ReadM Unit :=
  if typ ≠ recordTypeAlert ∧ typ ≠ recordTypeChangeCipherSpec ∧ data ≠ [] then resetRetry
  else pure ()

inductive PostAction where
  | fail (e : ConnError)
  | retry
  | input
  | handshake

/-- The switch on the type of a record, with `hand` the handshake data that is
pending. -/
def postAction (hand : Bytes) (typ : UInt8) (data : Bytes) : PostAction :=
  if typ ≠ recordTypeHandshake && hand ≠ [] then .fail (.alert alertUnexpectedMessage)
  else if typ = recordTypeAlert then
    if data.length ≠ 2 then .fail (.alert alertUnexpectedMessage)
    else if data.getD 1 0 = alertCloseNotify then .fail .closed
    else if data.getD 1 0 = alertUserCanceled then .retry
    else .fail (.remote (data.getD 1 0))
  else if typ = recordTypeChangeCipherSpec then
    if data.length ≠ 1 || data.getD 0 0 ≠ 1 then .fail (.alert alertDecodeError)
    else .fail (.alert alertUnexpectedMessage)
  else if typ = recordTypeApplicationData then
    if data = [] then .retry else .input
  else if typ = recordTypeHandshake then
    if data = [] then .fail (.alert alertUnexpectedMessage) else .handshake
  else .fail (.alert alertUnexpectedMessage)

/-- `retryReadRecord`; `readRecordOrCCS` is the call at its end. -/
def retryReadRecord (readRecordOrCCS : ReadM Unit) : ReadM Unit := do
  countRetry .ignored
  modify fun s =>
    if s.maxUselessRecords ≤ 0 then { s with maxUselessRecords := maxUselessRecords } else s
  let s ← get
  if s.retryCount > s.maxUselessRecords then setErrorLocked .tooManyIgnored
  else readRecordOrCCS

/-- What `readRecordOrCCS` does with a record. -/
def processRecord (readRecordOrCCS : ReadM Unit) (typ : UInt8) (data : Bytes) : ReadM Unit := do
  if data.length > maxPlaintext then setErrorLocked (.alert alertRecordOverflow)
  else do
    noteAdvance typ data
    let s ← get
    match postAction s.hand typ data with
    | .fail e => setErrorLocked e
    | .retry => retryReadRecord readRecordOrCCS
    | .input => modify fun s => { s with input := data }
    | .handshake => modify fun s => { s with hand := s.hand ++ data }

/-- What `readRecordOrCCS` does with what comes in. -/
def receive (readRecordOrCCS : ReadM Unit) : Incoming → ReadM Unit
  | .failed temporary =>
      if temporary then throw (.error (.net true)) else setErrorLocked (.net false)
  | .rejected code => setErrorLocked (.alert code)
  | .record typ data => processRecord readRecordOrCCS typ data

/-- `readRecordOrCCS`, where no ChangeCipherSpec is expected. -/
def readRecordOrCCS : Nat → ReadM Unit
  | 0 => throw .outOfFuel
  | fuel + 1 => do
      let s ← get
      match s.inErr with
      | some e => throw (.error e)
      | none =>
          if s.input ≠ [] then setErrorLocked .pendingData
          else nextIncoming >>= receive (readRecordOrCCS fuel)

/-! ## Messages that came in -/

/-- `readHandshakeBytes` -/
def readHandshakeBytes (n : Nat) : Nat → ReadM Unit
  | 0 => throw .outOfFuel
  | fuel + 1 => do
      let s ← get
      if n ≤ s.hand.length then pure ()
      else do
        readRecordOrCCS (fuel + 1)
        readHandshakeBytes n fuel

/-- The second half of `readHandshake`, with `n` the length in the header. -/
def readBody (e : Endpoint) (fuel n : Nat) : ReadM PostMessage := do
  readHandshakeBytes (4 + n) fuel
  let s ← get
  modify fun s => { s with hand := s.hand.drop (4 + n) }
  match unmarshalHandshakeMessage e (s.hand.take (4 + n)) with
  | .error code => setErrorLocked (.alert code)
  | .ok msg => return msg

/-- `readHandshake`, on a connection that has a version. -/
def readHandshake (e : Endpoint) (fuel : Nat) : ReadM PostMessage := do
  readHandshakeBytes 4 fuel
  let s ← get
  let n := handshakeLenAt s.hand
  let maxHandshakeSize :=
    if s.hand.getD 0 0 = typeCertificate then maxHandshakeCertificateMsg else maxHandshake
  if n > maxHandshakeSize then setErrorLocked (.oversizedMessage n maxHandshakeSize)
  else readBody e fuel n

/-- `handleNewSessionTicket`, up to the session it stores. -/
def handleNewSessionTicket (e : Endpoint) (msg : NewSessionTicketMsg) : ReadM Unit :=
  if !e.isClient then throw (.error .ticketFromClient)
  else if !e.ticketCache then pure ()
  else if msg.lifetime = 0 then pure ()
  else if msg.lifetime.toNat * second > maxSessionTicketLifetime then
    throw (.error .ticketLifetime)
  else if msg.label = [] then throw (.error .ticketLabel)
  else if !cipherSuiteTLS13ByID e.cipherSuite || e.resumptionSecret = none then
    throw (.error (.alert alertInternalError))
  else pure ()

/-- `handleKeyUpdate`, without the secrets. -/
def handleKeyUpdate (e : Endpoint) : ReadM Unit :=
  if !cipherSuiteTLS13ByID e.cipherSuite then setErrorLocked (.alert alertInternalError)
  else pure ()

/-- `handlePostHandshakeMessage`. Here the limit is compared as it is. -/
def handlePostHandshakeMessage (e : Endpoint) (fuel : Nat) : ReadM Unit := do
  let msg ← readHandshake e fuel
  countRetry .message
  let s ← get
  if s.retryCount > s.maxUselessRecords then setErrorLocked .tooManyNonAdvancing
  else
    match msg with
    | .newSessionTicket msg => handleNewSessionTicket e msg
    | .keyUpdate _ => handleKeyUpdate e
    | .other => throw (.error .unexpectedMessage)

/-! ## Reads -/

/-- `for c.hand.Len() > 0` -/
def handleMessages (e : Endpoint) : Nat → ReadM Unit
  | 0 => throw .outOfFuel
  | fuel + 1 => do
      let s ← get
      if s.hand = [] then pure ()
      else do
        handlePostHandshakeMessage e (fuel + 1)
        handleMessages e fuel

/-- `for c.input.Len() == 0` -/
def readLoop (e : Endpoint) : Nat → ReadM Unit
  | 0 => throw .outOfFuel
  | fuel + 1 => do
      let s ← get
      if s.input ≠ [] then pure ()
      else do
        readRecordOrCCS (fuel + 1)
        handleMessages e (fuel + 1)
        readLoop e fuel

/-- The bytes of a record. -/
def Incoming.length : Incoming → Nat
  | .record _ data => data.length
  | _ => 0

/-- What is still to be read. Each pass through a loop of `Read` lowers it. -/
def ReadState.size (s : ReadState) : Nat :=
  (s.rest.map fun a => a.length + 1).sum + s.hand.length

/-- `Read` with a buffer of `n` bytes. `alertNext` is its last test, whether the bytes
received so far start with an alert record; the bytes that are returned along with
an error of that record are dropped here. -/
def read (e : Endpoint) (n : Nat) (alertNext : Bool) : ReadM Bytes := do
  if n = 0 then return []
  else do
    let s ← get
    readLoop e (s.size + 1)
    let s ← get
    modify fun s => { s with input := s.input.drop n }
    if s.input.drop n = [] ∧ alertNext then do
      readRecordOrCCS (s.size + 1)
      return s.input.take n
    else return s.input.take n

/-- One call of `Read` after the other, with their buffers. A caller may call again
after an error; a call that waits for ever is the last. -/
def reads (e : Endpoint) : List (Nat × Bool) → ReadState → ReadState
  | [], s => s
  | (n, alertNext) :: calls, s =>
      match read e n alertNext s with
      | .ok _ s => reads e calls s
      | .error (.error _) s => reads e calls s
      | .error .waiting s => s
      | .error .outOfFuel s => s

/-! ## A message that has come in -/

theorem readHandshakeBytes_of_le {s : ReadState} {n : Nat} (h : n ≤ s.hand.length) (fuel : Nat) :
    readHandshakeBytes n (fuel + 1) s = .ok () s := by
  rw [readHandshakeBytes, get_bind, if_pos h]
  rfl

/-- A message that is all there is read without waiting. -/
theorem readHandshake_ok {e : Endpoint} {s : ReadState} {msg : PostMessage}
    (hlen : handshakeLenAt s.hand ≤ maxHandshake)
    (hwhole : 4 + handshakeLenAt s.hand ≤ s.hand.length)
    (hmsg : unmarshalHandshakeMessage e (s.hand.take (4 + handshakeLenAt s.hand)) = .ok msg)
    (fuel : Nat) :
    readHandshake e (fuel + 1) s
      = .ok msg { s with hand := s.hand.drop (4 + handshakeLenAt s.hand) } := by
  have hmax : ¬ handshakeLenAt s.hand >
      (if s.hand.getD 0 0 = typeCertificate then maxHandshakeCertificateMsg else maxHandshake) := by
    rw [maxHandshake] at hlen ⊢
    rw [maxHandshakeCertificateMsg]
    split <;> omega
  rw [readHandshake, bind_ok (readHandshakeBytes_of_le (by omega) fuel), get_bind, if_neg hmax,
    readBody, bind_ok (readHandshakeBytes_of_le hwhole fuel), get_bind, hmsg]
  rfl

/-! ## The fuel is enough -/

/-- From a state of size `P`, the code returns in one of size `Q` and has fuel enough. -/
def Fueled {α : Type} (P : ReadState → Prop) (x : ReadM α) (Q : α → ReadState → Prop) : Prop :=
  Triple P x Q fun stop _ => stop ≠ .outOfFuel

section

variable {α : Type} {k : Nat} {P : ReadState → Prop} {Q : α → ReadState → Prop}

theorem setErrorLocked_fueled (e : ConnError) : Fueled P (setErrorLocked e) Q := by
  apply Triple.bind (Q := fun _ _ => True)
  · exact Triple.modify fun _ _ => trivial
  · intro _
    exact Triple.throw fun _ _ => by simp

theorem nextIncoming_fueled :
    Fueled (fun s => s.size ≤ k) nextIncoming fun a s => s.size + a.length < k := by
  apply Triple.get
  intro s₀ h₀
  cases hrest : s₀.rest with
  | nil => exact Triple.throw fun _ _ => by simp
  | cons a rest =>
      apply Triple.bind (Q := fun _ s => s.size + a.length < k)
      · apply Triple.modify
        intro s hs
        subst hs
        simp only [ReadState.size, hrest, List.map_cons, List.sum_cons] at h₀ ⊢
        omega
      · intro _
        exact Triple.pure fun _ h => h

theorem retryReadRecord_fueled {again : ReadM Unit}
    (h : Fueled (fun s => s.size < k) again fun _ s => s.size < k) :
    Fueled (fun s => s.size < k) (retryReadRecord again) fun _ s => s.size < k := by
  apply Triple.bind (Q := fun _ s => s.size < k)
  · exact Triple.modify fun _ h => h
  intro _
  apply Triple.bind (Q := fun _ s => s.size < k)
  · apply Triple.modify
    intro s hs
    split
    · exact hs
    · exact hs
  intro _
  apply Triple.get
  intro s₀ h₀
  apply Triple.ite
  · intro _
    exact setErrorLocked_fueled _
  · intro _
    exact h.from h₀

theorem processRecord_fueled {again : ReadM Unit}
    (h : Fueled (fun s => s.size < k) again fun _ s => s.size < k) (typ : UInt8) (data : Bytes) :
    Fueled (fun s => s.size + data.length < k) (processRecord again typ data)
      fun _ s => s.size < k := by
  apply Triple.ite
  · intro _
    exact setErrorLocked_fueled _
  intro _
  apply Triple.bind (Q := fun _ s => s.size + data.length < k)
  · apply Triple.ite
    · intro _
      exact Triple.modify fun _ h => h
    · intro _
      exact Triple.pure fun _ h => h
  intro _
  apply Triple.get
  intro s₀ h₀
  cases postAction s₀.hand typ data with
  | fail e => exact setErrorLocked_fueled e
  | retry =>
      exact (retryReadRecord_fueled h).from (Nat.lt_of_le_of_lt (Nat.le_add_right _ _) h₀)
  | input =>
      apply Triple.modify
      intro s hs
      subst hs
      simp only [ReadState.size] at h₀ ⊢
      omega
  | handshake =>
      apply Triple.modify
      intro s hs
      subst hs
      simp only [ReadState.size, List.length_append] at h₀ ⊢
      omega

theorem readRecordOrCCS_fueled {fuel : Nat} (h : k < fuel) :
    Fueled (fun s => s.size ≤ k) (readRecordOrCCS fuel) fun _ s => s.size < k := by
  induction fuel generalizing k with
  | zero => exact absurd h (Nat.not_lt_zero k)
  | succ fuel ih =>
      have hagain : Fueled (fun s => s.size < k) (readRecordOrCCS fuel) fun _ s => s.size < k := by
        apply Triple.of_lt
        intro j hj
        exact (ih (k := j) (by omega)).weaken (fun _ => id) (fun _ _ h => Nat.lt_trans h hj)
          (fun _ _ => id)
      apply Triple.get
      intro s₀ h₀
      cases s₀.inErr with
      | some e => exact Triple.throw fun _ _ => by simp
      | none =>
          apply Triple.ite
          · intro _
            exact setErrorLocked_fueled _
          intro _
          apply Triple.bind (nextIncoming_fueled.from h₀)
          intro a
          cases a with
          | failed temporary =>
              apply Triple.ite
              · intro _
                exact Triple.throw fun _ _ => by simp
              · intro _
                exact setErrorLocked_fueled _
          | rejected code => exact setErrorLocked_fueled _
          | record typ data => exact processRecord_fueled hagain typ data

theorem readHandshakeBytes_fueled {fuel : Nat} (h : k < fuel) (n : Nat) :
    Fueled (fun s => s.size ≤ k) (readHandshakeBytes n fuel)
      fun _ s => s.size ≤ k ∧ n ≤ s.hand.length := by
  induction fuel generalizing k with
  | zero => exact absurd h (Nat.not_lt_zero k)
  | succ fuel ih =>
      apply Triple.get
      intro s₀ h₀
      apply Triple.ite
      · intro hlong
        exact Triple.pure fun s hs => hs ▸ ⟨h₀, hlong⟩
      intro _
      apply Triple.bind ((readRecordOrCCS_fueled h).from h₀)
      intro _
      apply Triple.of_lt
      intro j hj
      exact (ih (k := j) (by omega)).weaken (fun _ => id)
        (fun _ _ h => ⟨Nat.le_trans h.1 (Nat.le_of_lt hj), h.2⟩) (fun _ _ => id)

theorem readBody_fueled {fuel : Nat} (h : k < fuel) (e : Endpoint) (n : Nat) :
    Fueled (fun s => s.size ≤ k) (readBody e fuel n) fun _ s => s.size < k := by
  apply Triple.bind (readHandshakeBytes_fueled h _)
  intro _
  apply Triple.get
  intro s₀ h₀
  apply Triple.bind (Q := fun _ s => s.size < k)
  · apply Triple.modify
    intro s hs
    subst hs
    obtain ⟨hsize, hlong⟩ := h₀
    simp only [ReadState.size, List.length_drop] at hsize ⊢
    omega
  intro _
  split
  · exact setErrorLocked_fueled _
  · exact Triple.pure fun _ h => h

theorem readHandshake_fueled {fuel : Nat} (h : k < fuel) (e : Endpoint) :
    Fueled (fun s => s.size ≤ k) (readHandshake e fuel) fun _ s => s.size < k := by
  apply Triple.bind (readHandshakeBytes_fueled h 4)
  intro _
  apply Triple.get
  intro s₀ h₀
  apply Triple.ite
  · intro _
    exact setErrorLocked_fueled _
  · intro _
    exact (readBody_fueled h e _).from h₀.1

/-- Each message that is handled makes what is left smaller. -/
theorem handlePostHandshakeMessage_fueled {fuel : Nat} (h : k < fuel) (e : Endpoint) :
    Fueled (fun s => s.size ≤ k) (handlePostHandshakeMessage e fuel) fun _ s => s.size < k := by
  apply Triple.bind (readHandshake_fueled h e)
  intro msg
  apply Triple.bind (Q := fun _ s => s.size < k)
  · exact Triple.modify fun _ h => h
  intro _
  apply Triple.get
  intro s₀ h₀
  apply Triple.ite
  · intro _
    exact setErrorLocked_fueled _
  intro _
  have hpure : Fueled (fun s => s = s₀) (pure ()) fun _ s => s.size < k :=
    Triple.pure fun s hs => hs ▸ h₀
  have hthrow : ∀ e, Fueled (fun s => s = s₀) (throw (.error e) : ReadM Unit)
      fun _ s => s.size < k := fun e => Triple.throw fun _ _ => by simp
  cases msg with
  | newSessionTicket msg =>
      apply Triple.ite (fun _ => hthrow _)
      intro _
      apply Triple.ite (fun _ => hpure)
      intro _
      apply Triple.ite (fun _ => hpure)
      intro _
      apply Triple.ite (fun _ => hthrow _)
      intro _
      apply Triple.ite (fun _ => hthrow _)
      intro _
      exact Triple.ite (fun _ => hthrow _) (fun _ => hpure)
  | keyUpdate requested => exact Triple.ite (fun _ => setErrorLocked_fueled _) (fun _ => hpure)
  | other => exact hthrow _

theorem handleMessages_fueled {fuel : Nat} (h : k < fuel) (e : Endpoint) :
    Fueled (fun s => s.size ≤ k) (handleMessages e fuel) fun _ s => s.size ≤ k := by
  induction fuel generalizing k with
  | zero => exact absurd h (Nat.not_lt_zero k)
  | succ fuel ih =>
      apply Triple.get
      intro s₀ h₀
      apply Triple.ite
      · intro _
        exact Triple.pure fun s hs => hs ▸ h₀
      intro _
      apply Triple.bind ((handlePostHandshakeMessage_fueled h e).from h₀)
      intro _
      apply Triple.of_lt
      intro j hj
      exact (ih (k := j) (by omega)).weaken (fun _ => id)
        (fun _ _ h => Nat.le_trans h (Nat.le_of_lt hj)) (fun _ _ => id)

theorem readLoop_fueled {fuel : Nat} (h : k < fuel) (e : Endpoint) :
    Fueled (fun s => s.size ≤ k) (readLoop e fuel) fun _ _ => True := by
  induction fuel generalizing k with
  | zero => exact absurd h (Nat.not_lt_zero k)
  | succ fuel ih =>
      apply Triple.get
      intro s₀ h₀
      apply Triple.ite
      · intro _
        exact Triple.pure fun _ _ => trivial
      intro _
      apply Triple.bind ((readRecordOrCCS_fueled h).from h₀)
      intro _
      apply Triple.of_lt
      intro j hj
      apply Triple.bind (handleMessages_fueled (k := j) (by omega) e)
      intro _
      exact ih (by omega)

end

/-- **Every call of `Read` has fuel enough**: it returns, or it waits for a record. -/
theorem read_fueled (e : Endpoint) (n : Nat) (alertNext : Bool) :
    Fueled (fun _ => True) (read e n alertNext) fun _ _ => True := by
  apply Triple.ite
  · intro _
    exact Triple.pure fun _ _ => trivial
  intro _
  apply Triple.get
  intro s₀ _
  apply Triple.bind ((readLoop_fueled (Nat.lt_succ_self s₀.size) e).from (Nat.le_refl _))
  intro _
  apply Triple.get
  intro s₁ _
  apply Triple.bind (Q := fun _ s => s.size ≤ s₁.size)
  · apply Triple.modify
    intro s hs
    subst hs
    exact Nat.le_refl _
  intro _
  apply Triple.ite
  · intro _
    apply Triple.bind (readRecordOrCCS_fueled (Nat.lt_succ_self s₁.size))
    intro _
    exact Triple.pure fun _ _ => trivial
  · intro _
    exact Triple.pure fun _ _ => trivial

end Reality
