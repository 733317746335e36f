import Reality.Auth.Guard
import Reality.Kit.Run
import Reality.Tls.ClientHello

/-!
# Authentication of a ClientHello

`authenticateClientHello` (server_amortize.go). The session id is a sealed box
under a key both sides derive; its associated data is the ClientHello itself
with the session id zeroed IN PLACE, so the message buffer is written to and
restored. X25519, HKDF and AES-GCM are the functions of `AuthCrypto`.

A box that opens carries the client's version, clock and short id. The clock
may be off by `MaxTimeDiff` in either direction, and the replay guard
remembers a hello for that long.
-/

namespace Reality

open Kit

/-- The cryptography of authentication; `none` is an error. -/
structure AuthCrypto where
  x25519 : (privateKey peerPub : Bytes) → Option Bytes
  hkdf : (secret salt info : Bytes) → Option Bytes
  gcmOpen : (key nonce ciphertext additionalData : Bytes) → Option Bytes

/-- A three-byte version; a configured one that is shorter would panic. -/
structure Version where
  major : UInt8
  minor : UInt8
  patch : UInt8

def bigEndianUint24 (v : Version) : Nat :=
  v.major.toNat * 65536 + v.minor.toNat * 256 + v.patch.toNat

/-- The fields of `Config` that authentication reads; `none` is nil. -/
structure AuthConfig where
  privateKey : Bytes
  minClientVer : Option Version := none
  maxClientVer : Option Version := none
  maxTimeDiff : Int := 0
  shortIds : List Bytes

/-- `MaxTimeDiff` with its default. -/
def AuthConfig.timeDiff (config : AuthConfig) : Int :=
  if config.maxTimeDiff = 0 then 90 * second else config.maxTimeDiff

/-- The fields of `Conn` that authentication sets from an opened box. -/
structure AuthConn where
  authKey : Bytes
  clientVer : Version
  clientTime : Int
  clientShortId : Bytes

/-- `mlkem.EncapsulationKeySize768`. -/
def encapsulationKeySize768 : Nat := 1184

/-- The client's X25519 share, alone or behind an ML-KEM one. -/
def peerPub (ch : ClientHelloMsg) : Option Bytes :=
  match ch.keyShares.find? (fun k => k.group = x25519 && k.data.length = 32) with
  | some k => some k.data
  | none =>
      (ch.keyShares.find? fun k => k.group = x25519MLKEM768 &&
        k.data.length = encapsulationKeySize768 + 32).map
          fun k => k.data.drop encapsulationKeySize768

def authKey (crypto : AuthCrypto) (config : AuthConfig) (ch : ClientHelloMsg) : Option Bytes :=
  match peerPub ch with
  | none => none
  | some pub =>
      match crypto.x25519 config.privateKey pub with
      | none => none
      | some secret => crypto.hkdf secret (ch.random.take 20) (str "REALITY")

/-- `copy(ch.sessionId, src)`; the session id aliases the message buffer. -/
def ClientHelloMsg.writeSessionId (ch : ClientHelloMsg) (src : Bytes) : ClientHelloMsg :=
  { ch with
    original := overwrite ch.original ch.sessionId.off ch.sessionId.bytes.length src
    sessionId :=
      ⟨ch.sessionId.off, overwrite ch.sessionId.bytes 0 ch.sessionId.bytes.length src⟩ }

/-- The 32 bytes that are opened: the session id, zero-extended. -/
def sealedBox (ch : ClientHelloMsg) : Bytes :=
  overwrite (List.replicate 32 0) 0 32 ch.sessionId.bytes

/-- What the box carries, behind its key. -/
def openBox (crypto : AuthCrypto) (key : Bytes) (ch : ClientHelloMsg) : Option AuthConn :=
  let zeroed := ch.writeSessionId (List.replicate 32 0)
  (crypto.gcmOpen key (ch.random.drop 20) (sealedBox ch) zeroed.original).map fun opened =>
    let plainText := overwrite (List.replicate 32 0) 0 32 opened
    let b := fun i => plainText.getD i 0
    { authKey := key
      clientVer := ⟨b 0, b 1, b 2⟩
      clientTime := (be16 (b 4) (b 5) * 65536 + be16 (b 6) (b 7) : Nat) * second
      clientShortId := (plainText.drop 8).take 8 }

/-- The message buffer after the box was tried: zeroed and written back. -/
def restored (ch : ClientHelloMsg) : ClientHelloMsg :=
  (ch.writeSessionId (List.replicate 32 0)).writeSessionId (sealedBox ch)

/-- Version, clock and short id are acceptable; `now` is the clock as
`time.Since` reads it. -/
def acceptable (config : AuthConfig) (c : AuthConn) (now : Int) : Bool :=
  !(config.minClientVer.any (fun v => bigEndianUint24 c.clientVer < bigEndianUint24 v) ||
    config.maxClientVer.any (fun v => bigEndianUint24 c.clientVer > bigEndianUint24 v) ||
    (config.timeDiff ≥ 0 && durationAbs (timeSub now c.clientTime) > config.timeDiff) ||
    !config.shortIds.contains c.clientShortId)

/-- The readings of the clock a call makes, and the order in which an eviction
visits its shard. -/
structure Readings where
  check : Int
  evict : Int
  mark : Int
  order : List Bytes := []

structure AuthResult where
  accepted : Bool
  ch : ClientHelloMsg
  conn : Option AuthConn := none
  guard : Option ReplayGuard

def authenticateClientHello (crypto : AuthCrypto) (config : AuthConfig) (ch : ClientHelloMsg)
    (guard : Option ReplayGuard) (r : Readings) : AuthResult :=
  match authKey crypto config ch with
  | none => ⟨false, ch, none, guard⟩
  | some key =>
      match openBox crypto key ch with
      | none => ⟨false, restored ch, none, guard⟩
      | some conn =>
          if acceptable config conn r.check then
            match guard with
            | none => ⟨true, restored ch, some conn, none⟩
            | some g =>
                let m := g.checkAndMark (ch.random.take 20) r.evict r.mark r.order
                ⟨m.2, restored ch, some conn, some m.1⟩
          else ⟨false, restored ch, some conn, guard⟩

/-- The part of `initServerSideOnce` that sets up the guard, once. -/
def initReplayGuard (config : AuthConfig) (guard : Option ReplayGuard) (now : Int) :
    Option ReplayGuard :=
  if config.timeDiff > 0 then
    match guard with
    | some g => some g
    | none => some (newReplayGuard config.timeDiff 0 now)
  else guard

/-- Writing back what was there before the zeroing restores the message. -/
theorem restored_eq {ch : ClientHelloMsg} (h : ch.sessionId.Within ch.original) :
    restored ch = ch := by
  obtain ⟨a, r, horig, ha⟩ := h
  have hback := overwrite_restore ch.sessionId.bytes (List.replicate 32 0)
  have hzero : (overwrite ch.sessionId.bytes 0 ch.sessionId.bytes.length
      (List.replicate 32 0)).length = ch.sessionId.bytes.length :=
    overwrite_length _ (by omega)
  have hfirst : (ch.writeSessionId (List.replicate 32 0)).original
      = a ++ overwrite ch.sessionId.bytes 0 ch.sessionId.bytes.length (List.replicate 32 0)
        ++ r := by
    show overwrite ch.original _ _ _ = _
    rw [horig, ← ha, overwrite_append]
  have hbytes : overwrite (overwrite ch.sessionId.bytes 0 ch.sessionId.bytes.length
      (List.replicate 32 0)) 0 ch.sessionId.bytes.length (sealedBox ch) = ch.sessionId.bytes := by
    rw [List.length_replicate] at hback
    exact hback
  have hsecond : (restored ch).original = ch.original := by
    show overwrite (ch.writeSessionId (List.replicate 32 0)).original ch.sessionId.off
      (overwrite ch.sessionId.bytes 0 ch.sessionId.bytes.length
        (List.replicate 32 0)).length (sealedBox ch) = _
    rw [hfirst, ← ha, overwrite_append, hzero, hbytes, horig]
  have hsid : (restored ch).sessionId = ch.sessionId := by
    show Slice.mk ch.sessionId.off (overwrite _ 0 (overwrite ch.sessionId.bytes 0
      ch.sessionId.bytes.length (List.replicate 32 0)).length (sealedBox ch)) = _
    rw [hzero]
    exact congrArg (Slice.mk ch.sessionId.off) hbytes
  show { ch with original := (restored ch).original, sessionId := (restored ch).sessionId } = ch
  rw [hsecond, hsid]

/-- The message is left as it was found, on every path. -/
theorem authenticateClientHello_ch (crypto : AuthCrypto) (config : AuthConfig)
    {ch : ClientHelloMsg} (guard : Option ReplayGuard) (r : Readings)
    (h : ch.sessionId.Within ch.original) :
    (authenticateClientHello crypto config ch guard r).ch = ch := by
  have hback := restored_eq h
  unfold authenticateClientHello
  split
  · rfl
  · split
    · exact hback
    · split
      · split <;> exact hback
      · exact hback

/-! ## What is authenticated -/

/-- The first 32 bytes of the session id, zero-extended. -/
def sessionIdBox (ch : ClientHelloMsg) : Bytes :=
  (ch.sessionId.bytes ++ List.replicate 32 0).take 32

/-- The message with those bytes zeroed, and no others. -/
def zeroedOriginal (ch : ClientHelloMsg) : Bytes :=
  ch.original.mapIdx fun i b =>
    if ch.sessionId.off ≤ i ∧ i < ch.sessionId.off + min 32 ch.sessionId.bytes.length then 0 else b

theorem sealedBox_eq (ch : ClientHelloMsg) : sealedBox ch = sessionIdBox ch := by
  unfold sealedBox sessionIdBox overwrite
  rw [List.take_zero, List.nil_append, Nat.zero_add, List.take_append, List.drop_replicate,
    List.take_replicate]
  congr 2
  omega

/-- Zeroing through the slice zeroes the bytes it shares with the message. -/
theorem zeroedOriginal_eq {ch : ClientHelloMsg} (h : ch.sessionId.Within ch.original) :
    (ch.writeSessionId (List.replicate 32 0)).original = zeroedOriginal ch := by
  obtain ⟨a, rest, horig, ha⟩ := h
  have hroom : ch.sessionId.off + ch.sessionId.bytes.length ≤ ch.original.length := by
    rw [horig, ← ha]
    simp only [List.length_append]
    omega
  refine List.ext_getElem? fun i => ?_
  show (overwrite ch.original _ _ _)[i]? = _
  rw [getElem?_overwrite hroom, zeroedOriginal, List.getElem?_mapIdx, List.length_replicate]
  by_cases hin : ch.sessionId.off ≤ i ∧ i < ch.sessionId.off + min 32 ch.sessionId.bytes.length
  · have hi : i < ch.original.length := by omega
    have hzero : i - ch.sessionId.off < 32 := by omega
    simp only [if_pos hin, List.getElem?_eq_getElem hi, Option.map_some,
      List.getElem?_replicate_of_lt hzero]
  · simp only [if_neg hin, Option.map_id']

/-- A box that carries something was opened. -/
theorem openBox_eq_some {crypto : AuthCrypto} {key : Bytes} {ch : ClientHelloMsg} {c : AuthConn}
    (hwithin : ch.sessionId.Within ch.original) (h : openBox crypto key ch = some c) :
    ∃ opened, crypto.gcmOpen key (ch.random.drop 20) (sessionIdBox ch) (zeroedOriginal ch)
      = some opened := by
  unfold openBox at h
  obtain ⟨opened, hopen, -⟩ := Option.map_eq_some_iff.mp h
  rw [sealedBox_eq, zeroedOriginal_eq hwithin] at hopen
  exact ⟨opened, hopen⟩

/-- **Authentication is of the message, and does not touch it.** A hello is accepted
only when the box in its session id opens over the message with the box zeroed,
and every path leaves the message and the session id as they were. -/
theorem authenticateClientHello_authentic {ch : ClientHelloMsg}
    (h : ch.sessionId.Within ch.original) (crypto : AuthCrypto) (config : AuthConfig)
    (guard : Option ReplayGuard) (r : Readings) :
    ((authenticateClientHello crypto config ch guard r).accepted = true →
        ∃ key opened, authKey crypto config ch = some key ∧
          crypto.gcmOpen key (ch.random.drop 20) (sessionIdBox ch) (zeroedOriginal ch)
            = some opened) ∧
      (authenticateClientHello crypto config ch guard r).ch.original = ch.original ∧
      (authenticateClientHello crypto config ch guard r).ch.sessionId = ch.sessionId := by
  rw [authenticateClientHello_ch crypto config guard r h]
  refine ⟨fun hacc => ?_, rfl, rfl⟩
  unfold authenticateClientHello at hacc
  cases hkey : authKey crypto config ch with
  | none =>
      rw [hkey] at hacc
      cases hacc
  | some key =>
      rw [hkey] at hacc
      cases hbox : openBox crypto key ch with
      | none =>
          dsimp only at hacc
          rw [hbox] at hacc
          cases hacc
      | some c =>
          obtain ⟨opened, hopen⟩ := openBox_eq_some h hbox
          exact ⟨key, opened, rfl, hopen⟩

/-- A hello with a session id of eight bytes, which is its own box. -/
def shortBoxHello : ClientHelloMsg :=
  { keyShares := [⟨x25519, List.replicate 32 1⟩]
    original := [9, 9] ++ [1, 0, 0, 0, 0, 0, 0, 100] ++ [9]
    vers := versionTLS12, random := List.replicate 32 2
    sessionId := ⟨2, [1, 0, 0, 0, 0, 0, 0, 100]⟩, cipherSuites := [] }

/-- Cryptography under which a box carries its first half in the clear. -/
def plainCrypto : AuthCrypto where
  x25519 := fun _ peerPub => some peerPub
  hkdf := fun secret _ _ => some secret
  gcmOpen := fun _ _ ciphertext _ => some (ciphertext.take 16)

def sampleAuthConfig : AuthConfig := { privateKey := [], shortIds := [List.replicate 8 0] }

theorem authenticateClientHello_authentic_short :
    (authenticateClientHello plainCrypto sampleAuthConfig shortBoxHello none
        ⟨100 * second, 0, 0, []⟩).accepted = true ∧
      (∃ key opened, authKey plainCrypto sampleAuthConfig shortBoxHello = some key ∧
        plainCrypto.gcmOpen key (shortBoxHello.random.drop 20) (sessionIdBox shortBoxHello)
          (zeroedOriginal shortBoxHello) = some opened) ∧
      zeroedOriginal shortBoxHello = [9, 9, 0, 0, 0, 0, 0, 0, 0, 0, 9] := by
  have hacc : (authenticateClientHello plainCrypto sampleAuthConfig shortBoxHello none
      ⟨100 * second, 0, 0, []⟩).accepted = true := by decide +kernel
  have hwithin : shortBoxHello.sessionId.Within shortBoxHello.original :=
    ⟨[9, 9], [9], rfl, rfl⟩
  exact ⟨hacc, (authenticateClientHello_authentic hwithin _ _ _ _).1 hacc, by decide⟩

end Reality
