import Reality.Cache.Amortize
import Reality.Tls.ClientHello
import Reality.Tls.Record

/-!
# The zero-dial handshake

`runL2Handshake` (server_amortize.go) up to the ServerHello: the cached
template with a fresh random and the client's session id, then the key share
that `handshake` writes INTO the message (handshake_server_tls13.go).
-/

namespace Reality

open Kit

inductive L2Error where
  | notEligible
  | cipherNotOffered
  | missingKeyShare
  | templateTooShort
  | sessionIdTruncated
  | unmarshalFailed
  | versionMismatch
  | cipherUnsupported
  | groupMismatch
  deriving DecidableEq

/-- Fresh random at 6..38; the session id only when it has the template's
length. -/
def patchTemplate (tpl random sessionId : Bytes) : Except L2Error Bytes :=
  if tpl.length < 39 then .error .templateTooShort
  else
    let tpl := overwrite tpl 6 32 random
    let sidLen := (tpl.getD 38 0).toNat
    if 39 + sidLen > tpl.length then .error .sessionIdTruncated
    else .ok (if sessionId.length = sidLen then overwrite tpl 39 sidLen sessionId else tpl)

/-- The checks on the parsed template. -/
def checkTemplate (profile : RealityProfile) (hello : ServerHelloMsg) :
    Except L2Error ServerHelloMsg :=
  if hello.vers ≠ versionTLS12 || hello.supportedVersion ≠ versionTLS13 then
    .error .versionMismatch
  else if !cipherSuiteTLS13ByID hello.cipherSuite then .error .cipherUnsupported
  else if hello.serverShare.group ≠ profile.keyShareGroup && profile.keyShareGroup ≠ 0 then
    .error .groupMismatch
  else .ok hello

theorem checkTemplate_eq_ok {profile : RealityProfile} {hello hello' : ServerHelloMsg}
    (h : checkTemplate profile hello = .ok hello') : hello' = hello := by
  rw [checkTemplate] at h
  split at h
  · cases h
  · split at h
    · cases h
    · split at h
      · cases h
      · cases h
        rfl

/-- The ServerHello `runL2Handshake` hands to `handshake`. -/
def l2ServerHello (profile : RealityProfile) (ch : ClientHelloMsg) (random : Bytes)
    (now : Int) : Except L2Error ServerHelloMsg :=
  if !profileL2Eligible profile now then .error .notEligible
  else if !clientOffersCipher ch profile.cipherSuite then .error .cipherNotOffered
  else if !clientHasKeyShare ch profile.keyShareGroup then .error .missingKeyShare
  else
    match patchTemplate profile.serverHelloTemplate random ch.sessionId.bytes with
    | .error e => .error e
    | .ok tpl =>
        match unmarshalServerHello tpl with
        | none => .error .unmarshalFailed
        | some hello => checkTemplate profile hello

/-- The lengths `runL2Handshake` arms the connection with. -/
def l2Lens (profile : RealityProfile) (hello : ServerHelloMsg) : RecordLens :=
  if profile.recordLens 0 = 0 then
    Function.update profile.recordLens 0 (recordHeaderLen + hello.original.length : Int)
  else profile.recordLens

/-- The message after `handshake` copied its key share into it: the X25519
key, and for the hybrid group the ciphertext and then that key again. -/
def ServerHelloMsg.sendShare (hello : ServerHelloMsg) (pub ciphertext : Bytes) : Bytes :=
  let sent := hello.writeShare pub
  if hello.serverShare.group = x25519MLKEM768 then
    overwrite sent hello.serverShare.data.off hello.serverShare.data.bytes.length
      (ciphertext ++ (sent.drop hello.serverShare.data.off).take 32)
  else sent

/-! ## What is sent -/

theorem unmarshalServerHello_original {data : Bytes} {m : ServerHelloMsg}
    (h : unmarshalServerHello data = some m) : m.original = data := by
  obtain ⟨hd, va, vb, r, n, sid, ca, cb, comp, tail, rfl, -, -, -, -, -, -, -, -, horig, -⟩ :=
    unmarshalServerHello_eq_some h
  exact horig

/-- The shortest ServerHello, and where its session id length stands. -/
theorem unmarshalServerHello_sidLen {data : Bytes} {m : ServerHelloMsg}
    (h : unmarshalServerHello data = some m) :
    39 + m.sessionId.bytes.length ≤ data.length ∧
      (data.getD 38 0).toNat = m.sessionId.bytes.length := by
  obtain ⟨hd, va, vb, r, n, sid, ca, cb, comp, tail, rfl, hhd, hr, hs, -, -, hsid, -, -, -, -⟩ :=
    unmarshalServerHello_eq_some h
  rw [hsid]
  have hsplit : serverHelloBytes hd va vb r n sid ca cb comp tail
      = (hd ++ va :: vb :: r) ++ n :: (sid ++ ca :: cb :: comp :: tail) := by
    simp [serverHelloBytes]
  have hpre : (hd ++ va :: vb :: r).length = 38 := by simp [hhd, hr]
  refine ⟨?_, ?_⟩
  · rw [hsplit, List.length_append, hpre]
    simp only [List.length_cons, List.length_append]
    omega
  · rw [hsplit, List.getD_append_right _ _ _ _ (by omega), hpre]
    exact hs.symm

/-- A parsed template can be patched, and keeps its selection. -/
theorem patchTemplate_of_parsed {tpl random : Bytes} {m : ServerHelloMsg}
    (h : unmarshalServerHello tpl = some m) (hr : random.length = 32) (sid : Bytes) :
    ∃ tpl' m', patchTemplate tpl random sid = .ok tpl' ∧ tpl'.length = tpl.length ∧
      unmarshalServerHello tpl' = some m' ∧ SameSelection m m' := by
  obtain ⟨hlen, m₁, h₁, hsel, -⟩ := unmarshalServerHello_random h hr
  obtain ⟨hge, hsid⟩ := unmarshalServerHello_sidLen h₁
  have hge0 := (unmarshalServerHello_sidLen h).1
  rw [patchTemplate, if_neg (by omega), if_neg (by omega), hsid]
  split
  next hs =>
    obtain ⟨hlen', m₂, h₂, hsel'⟩ := unmarshalServerHello_sessionId h₁ hs
    exact ⟨_, m₂, rfl, hlen'.trans hlen, h₂, hsel.trans hsel'⟩
  · exact ⟨_, m₁, rfl, hlen, h₁, hsel⟩

/-- Writing the key share keeps the selection and the length. -/
theorem sendShare_of_parsed {data : Bytes} {m : ServerHelloMsg}
    (h : unmarshalServerHello data = some m) (pub ciphertext : Bytes) :
    (m.sendShare pub ciphertext).length = data.length ∧
      ∃ m', unmarshalServerHello (m.sendShare pub ciphertext) = some m' ∧
        SameSelection m m' := by
  obtain ⟨hlen, m₁, h₁, hsel⟩ := unmarshalServerHello_writeShare h pub
  unfold ServerHelloMsg.sendShare
  split
  · obtain ⟨hlen', m₂, h₂, hsel'⟩ := unmarshalServerHello_writeShare h₁
      (ciphertext ++ ((m.writeShare pub).drop m.serverShare.data.off).take 32)
    have hsame : m₁.writeShare
        (ciphertext ++ ((m.writeShare pub).drop m.serverShare.data.off).take 32)
        = overwrite (m.writeShare pub) m.serverShare.data.off m.serverShare.data.bytes.length
            (ciphertext ++ ((m.writeShare pub).drop m.serverShare.data.off).take 32) := by
      rw [ServerHelloMsg.writeShare, unmarshalServerHello_original h₁, hsel.shareOff,
        hsel.shareLen]
    rw [hsame] at hlen' h₂
    exact ⟨hlen'.trans hlen, m₂, h₂, hsel.trans hsel'⟩
  · exact ⟨hlen, m₁, h₁, hsel⟩

end Reality
