import Reality.Cache.Complete

/-!
# Coalesced or split, decided twice

`handshake` (handshake_server_tls13.go) sizes the certificate for a COALESCED
flight when R2 is large; `writeHandshakeRecord` (conn.go) writes one when
`handshakeBuf` was allocated. The capture allocates the buffer together with a
large R2, but a capture the cache answered and a zero-dial handshake take R2
from the profile and have no buffer.
-/

namespace Reality

open Kit

/-- The tag of the AEADs of TLS 1.3. -/
def aeadTag : Nat := 16

/-- The record mode `handshake` plans the certificate for. -/
def HalfConn.certMode (hc : HalfConn) : UInt8 :=
  if hc.handshakeLen 2 > 512 then recordModeCoalesced
  else if hc.handshakeBuf.isSome then recordModeCoalesced
  else recordModeSplit

/-- The writer puts every flight into one piece of data. -/
def HalfConn.EmitsAsOne (hc : HalfConn) : Prop :=
  ∀ f : Flight, hc.sendFlight aeadTag f
    = { hc with handshakeBuf := none }.writeRecord aeadTag f.messages.flatten

/-- The lengths of all records `handshake` writes: ServerHello, CCS, flight. -/
def HalfConn.handshakeRecords (hc : HalfConn) (serverHello : Bytes) (f : Flight) :
    Except EncryptError (List Nat) :=
  (hc.sendFlight aeadTag f).map fun r =>
    (writePlaintext recordTypeHandshake serverHello).length
      :: (writePlaintext recordTypeChangeCipherSpec [1]).length :: r.2

/-- How a connection comes to be armed, with the ServerHello that is sent: by a
capture (L0 and L1) or from a cached profile (L2). -/
inductive Armed : AmortizePath → Bytes → HalfConn → Prop where
  | captured (env : CaptureEnv) (reads : List Read) {hello : ServerHelloMsg}
      (pub ciphertext : Bytes) (herr : (captureTargetRecords env reads).1.err = none)
      (hhello : (captureTargetRecords env reads).1.hello = some hello)
      (h0 : (captureTargetRecords env reads).1.usedLen 0 ≠ 0) :
      Armed (captureTargetRecords env reads).1.path (hello.sendShare pub ciphertext)
        (captureTargetRecords env reads).1.arm
  | zeroDial {profile : RealityProfile} {ch : ClientHelloMsg} {random : Bytes} {now : Int}
      {hello : ServerHelloMsg} (pub ciphertext : Bytes)
      (h : l2ServerHello profile ch random now = .ok hello) :
      Armed .l2 (hello.sendShare pub ciphertext) ⟨l2Lens profile hello, none⟩

/-- The messages of the flight fit R2. -/
def HalfConn.Holds (hc : HalfConn) (f : Flight) : Prop :=
  (recordHeaderLen + f.messages.flatten.length + 1 + aeadTag : Nat) ≤ hc.handshakeLen 2

/-! ## What the writer does -/

namespace HalfConn

variable {hc : HalfConn}

/-- A flight of one-byte messages behind an EncryptedExtensions of `n + 1`
bytes. -/
def longExtensions (n : Nat) : Flight where
  encryptedExtensions := typeEncryptedExtensions :: List.replicate n 0
  certificateRequest := none
  certificate := [typeCertificate]
  certificateVerify := [typeCertificateVerify]
  finished := [typeFinished]
  isExtensions := rfl
  isRequest := request_of_none
  isCertificate := rfl
  isVerify := rfl
  isFinished := rfl

/-- A record that is longer than its slot fails by the difference. -/
theorem encrypt_too_long (hc : HalfConn) (overhead : Nat) {data : Bytes} {i : Fin 7}
    (harmed : hc.handshakeLen 1 ≠ 0) (hslot : slotOf data = some i)
    (hlong : hc.handshakeLen i < (recordHeaderLen + data.length + 1 + overhead : Nat)) :
    hc.encrypt overhead data = .error (.padding (data.headD 0) (some (hc.handshakeLen i))
      (hc.handshakeLen i - (recordHeaderLen + data.length + 1 + overhead : Nat))) := by
  rw [encrypt_armed harmed hslot rfl, if_pos (by omega)]

/-- Without a buffer the flight is NOT written as one: an EncryptedExtensions
one byte too long for R2 fails by one byte, and the whole flight by more. -/
theorem not_emitsAsOne (hbuf : hc.handshakeBuf = none) (harmed : hc.handshakeLen 1 ≠ 0)
    (hmax : hc.handshakeLen 2 ≤ maxTLSRecordPayload) : ¬ hc.EmitsAsOne := by
  intro hall
  have hmax' : hc.handshakeLen 2 ≤ 16384 := hmax
  -- Header, type and tag are 22 bytes, and the message has one byte more than what is left.
  generalize hn : (hc.handshakeLen 2 - 22).toNat = n
  have hone := hall (longExtensions n)
  generalize hee : typeEncryptedExtensions :: List.replicate n (0 : UInt8) = ee at *
  have heelen : ee.length = n + 1 := by rw [← hee]; simp
  have hmsgs : (longExtensions n).messages
      = [ee, [typeCertificate], [typeCertificateVerify], [typeFinished]] := by
    rw [← hee]
    rfl
  have hslot : slotOf ee = some 2 := by rw [← hee]; rfl
  have hflat : (longExtensions n).messages.flatten
      = ee ++ [typeCertificate, typeCertificateVerify, typeFinished] := by rw [hmsgs]; rfl
  have hslot' : slotOf (ee ++ [typeCertificate, typeCertificateVerify, typeFinished]) = some 2 := by
    rw [← hee]
    rfl
  have hfirst := encrypt_too_long hc aeadTag harmed hslot
    (by rw [heelen, recordHeaderLen, aeadTag]; omega)
  have hwhole := encrypt_too_long { hc with handshakeBuf := none } aeadTag harmed hslot' (by
    rw [List.length_append, heelen, recordHeaderLen, aeadTag]
    show hc.handshakeLen 2 < ((5 + (n + 1 + 3) + 1 + 16 : Nat) : Int)
    omega)
  rw [List.length_append] at hwhole
  have hne : ee ≠ [] := by
    rintro h0
    rw [h0] at heelen
    simp at heelen
  rw [hflat, writeRecord_of_le (by simp [hne]) (by
    rw [List.length_append, heelen, maxPlaintext]
    show n + 1 + 3 ≤ 16384
    omega), hwhole, sendFlight, hmsgs, writeMessages, writeHandshakeRecord, hbuf] at hone
  dsimp only at hone
  rw [writeRecord_of_le hne (by rw [heelen, maxPlaintext]; omega), hfirst] at hone
  simp only [Except.map, Except.error.injEq, EncryptError.padding.injEq] at hone
  have hpads := hone.2.2
  simp only [List.length_cons, List.length_nil] at hpads
  omega

/-- A buffered flight that fits R2 is one record of that length, unless the
padding is longer than `empty`. -/
theorem sendFlight_fits (hbuf : hc.handshakeBuf = some []) (harmed : hc.handshakeLen 1 ≠ 0)
    (hmax : hc.handshakeLen 2 ≤ maxTLSRecordPayload) {f : Flight} (hfits : hc.Holds f) :
    (hc.sendFlight aeadTag f).map Prod.snd =
      if hc.handshakeLen 2
          ≤ (emptyLen + (recordHeaderLen + f.messages.flatten.length + 1 + aeadTag) : Nat) then
        .ok [(hc.handshakeLen 2).toNat]
      else .error .outOfRange := by
  have hmax' : hc.handshakeLen 2 ≤ 16384 := hmax
  have hfits' : ((5 + f.messages.flatten.length + 1 + 16 : Nat) : Int) ≤ hc.handshakeLen 2 := hfits
  have hhead := f.head_flatten
  have hne : f.messages.flatten ≠ [] := by
    intro hnil
    rw [hnil] at hhead
    cases hhead
  have hslot : slotOf f.messages.flatten = some 2 := slotOf_of_head hhead
  have harmed' : ({ hc with handshakeBuf := none } : HalfConn).handshakeLen 1 ≠ 0 := harmed
  rw [sendFlight_buffered hbuf, writeRecord_of_le hne (by rw [maxPlaintext]; omega),
    encrypt_armed harmed' hslot rfl, if_neg (Int.not_lt.mpr (Int.sub_nonneg.mpr hfits))]
  by_cases hpad : hc.handshakeLen 2
      ≤ (emptyLen + (recordHeaderLen + f.messages.flatten.length + 1 + aeadTag) : Nat)
  · rw [if_pos hpad, if_neg (by push_cast at hpad ⊢; omega)]
    rfl
  · rw [if_neg hpad, if_pos (by push_cast at hpad ⊢; omega)]
    rfl

end HalfConn

/-! ## What the connection is armed with -/

namespace Armed

variable {path : AmortizePath} {sent : Bytes} {hc : HalfConn}

/-- Only the live path has a buffer, and exactly when R2 is large. -/
theorem buffer (h : Armed path sent hc) :
    hc.handshakeBuf = if path = .l0 ∧ 512 < hc.handshakeLen 2 then some [] else none := by
  cases h with
  | @captured env reads hello pub ciphertext herr hhello h0 =>
      show (if (captureTargetRecords env reads).1.handshakeBuf then some [] else none) = _
      have hbuf := captureTargetRecords_buffer env reads
      generalize (captureTargetRecords env reads).1 = r at *
      rcases hbuf with hb | ⟨hpath, hoff⟩
      · have hpath : r.path = .l0 := hb.path
        have hlarge : r.handshakeBuf = true ↔ 512 < r.arm.handshakeLen 2 := hb.large
        simp only [hpath, hlarge, true_and]
      · simp [hpath, hoff]
  | zeroDial pub ciphertext h => rw [if_neg (by simp)]

/-- On the live path the ServerHello that is sent fills R0. -/
theorem serverHello_length (h : Armed path sent hc) (hpath : path = .l0)
    (hmax : hc.handshakeLen 0 ≤ maxTLSRecordPayload) :
    (writePlaintext recordTypeHandshake sent).length = (hc.handshakeLen 0).toNat := by
  cases h with
  | @captured env reads hello pub ciphertext herr hhello h0 =>
      obtain ⟨hparsed, -, hr0⟩ := captureTargetRecords_captured hhello h0
      have hr0 : (captureTargetRecords env reads).1.arm.handshakeLen 0
          = recordHeaderLen + (captureTargetRecords env reads).1.template.length := hr0
      obtain ⟨hlen, m, hm, -⟩ := sendShare_of_parsed hparsed pub ciphertext
      have hge := (unmarshalServerHello_sidLen hm).1
      have hmax' : (captureTargetRecords env reads).1.arm.handshakeLen 0 ≤ 16384 := hmax
      generalize (captureTargetRecords env reads).1 = r at *
      rw [writePlaintext_length _ _, hlen, hr0]
      · rw [recordHeaderLen]
        omega
      · rintro hnil
        rw [hnil, List.length_nil] at hge
        omega
      · rw [hlen, maxPlaintext]
        rw [hr0, recordHeaderLen] at hmax'
        omega
  | zeroDial pub ciphertext h => cases hpath

/-- **Headline**: the mode the certificate is sized for is the mode the flight is
written in, and a flight that fits R2 goes out as [R0, 6, R2], exactly when R2 is
not large or the capture was live and leaves no more padding than `empty` has. -/
theorem certMode_written_iff (h : Armed path sent hc)
    (hvalid : validateRecordLens hc.handshakeLen = true) (h1 : hc.handshakeLen 1 = 6)
    (f : Flight) :
    ((hc.certMode = recordModeCoalesced ↔ hc.EmitsAsOne) ∧
        (512 < hc.handshakeLen 2 → hc.Holds f → hc.handshakeRecords sent f
          = .ok [(hc.handshakeLen 0).toNat, 6, (hc.handshakeLen 2).toNat])) ↔
      hc.handshakeLen 2 ≤ 512 ∨ path = .l0 ∧ (hc.Holds f → hc.handshakeLen 2
        ≤ (emptyLen + (recordHeaderLen + f.messages.flatten.length + 1 + aeadTag) : Nat)) := by
  have hbuf := h.buffer
  have harmed : hc.handshakeLen 1 ≠ 0 := by rw [h1]; decide
  have hmax := validateRecordLens_le hvalid
  by_cases hlarge : 512 < hc.handshakeLen 2
  · have hmode : hc.certMode = recordModeCoalesced := by rw [HalfConn.certMode, if_pos hlarge]
    by_cases hpath : path = .l0
    · rw [if_pos ⟨hpath, hlarge⟩] at hbuf
      have hemit : hc.EmitsAsOne := fun f => HalfConn.sendFlight_buffered hbuf f
      have hlen := h.serverHello_length hpath (hmax 0)
      have hrecords : ∀ hfits : hc.Holds f, hc.handshakeRecords sent f
            = .ok [(hc.handshakeLen 0).toNat, 6, (hc.handshakeLen 2).toNat] ↔
          hc.handshakeLen 2
            ≤ (emptyLen + (recordHeaderLen + f.messages.flatten.length + 1 + aeadTag) : Nat) := by
        intro hfits
        have hsend := HalfConn.sendFlight_fits hbuf harmed (hmax 2) hfits
        rw [HalfConn.handshakeRecords, hlen]
        generalize hc.sendFlight aeadTag f = r at hsend
        split at hsend
        next hle =>
          cases r with
          | error e => cases hsend
          | ok v =>
              have hv : v.2 = [(hc.handshakeLen 2).toNat] := by simpa [Except.map] using hsend
              simp only [Except.map, hv, hle, iff_true]
              rfl
        next hgt =>
          cases r with
          | error e => exact ⟨fun hok => (by cases hok), fun hle => absurd hle hgt⟩
          | ok v => cases hsend
      constructor
      · rintro ⟨-, hrec⟩
        exact .inr ⟨hpath, fun hfits => (hrecords hfits).mp (hrec hlarge hfits)⟩
      · rintro (hsmall | ⟨-, hpad⟩)
        · omega
        · exact ⟨⟨fun _ => hemit, fun _ => hmode⟩,
            fun _ hfits => (hrecords hfits).mpr (hpad hfits)⟩
    · rw [if_neg fun hc => hpath hc.1] at hbuf
      have hnot := HalfConn.not_emitsAsOne hbuf harmed (hmax 2)
      constructor
      · rintro ⟨hiff, -⟩
        exact absurd (hiff.mp hmode) hnot
      · rintro (hsmall | ⟨hl0, -⟩)
        · omega
        · exact absurd hl0 hpath
  · rw [if_neg fun hc => hlarge hc.2] at hbuf
    have hnot := HalfConn.not_emitsAsOne hbuf harmed (hmax 2)
    have hmode : hc.certMode ≠ recordModeCoalesced := by
      rw [HalfConn.certMode, if_neg hlarge, hbuf]
      decide
    refine ⟨fun _ => .inl (Int.not_lt.mp hlarge), fun _ => ⟨?_, fun hl => absurd hl hlarge⟩⟩
    exact ⟨fun hm => absurd hm hmode, fun he => absurd he hnot⟩

/-! ## A live capture and a cached one -/

theorem of_capture {env : CaptureEnv} {reads : List Read} {r : CaptureResult}
    {hello : ServerHelloMsg} (hr : r = (captureTargetRecords env reads).1)
    (hpath : r.path = path) (herr : r.err = none) (hhello : r.hello = some hello)
    (h0 : r.usedLen 0 ≠ 0) (pub ciphertext : Bytes) :
    Armed path (hello.sendShare pub ciphertext) r.arm := by
  subst hr hpath
  exact .captured env reads pub ciphertext herr hhello h0

/-- A live flight with an R2 of 705 bytes. -/
def largeCapture : CaptureResult :=
  (captureTargetRecords ⟨.l0, fun _ _ => {}⟩
    [⟨sampleStart ++ appDataRecord (List.replicate 700 0) ++ appDataRecord [2] ++
      appDataRecord [3] ++ appDataRecord [4], none⟩]).1

theorem largeCapture_lens : largeCapture.usedLen = ![95, 6, 705, 6, 6, 6, 0] := by
  decide +kernel

theorem certMode_written_large :
    ∃ sent, Armed .l0 sent largeCapture.arm ∧ largeCapture.arm.handshakeRecords sent sampleMessages
      = .ok [95, 6, 705] := by
  have hr : largeCapture = (captureTargetRecords ⟨.l0, fun _ _ => {}⟩ _).1 := rfl
  have hlens := largeCapture_lens
  obtain ⟨hpath, herr, hsome⟩ : largeCapture.path = .l0 ∧ largeCapture.err = none ∧
      largeCapture.hello.isSome = true := by decide +kernel
  generalize largeCapture = r at *
  obtain ⟨hello, hh⟩ := Option.isSome_iff_exists.mp hsome
  have harmed : Armed .l0 (hello.sendShare [] []) r.arm :=
    of_capture hr hpath herr hh (by rw [hlens]; decide) [] []
  have hlens : r.arm.handshakeLen = ![95, 6, 705, 6, 6, 6, 0] := hlens
  have hrec := (harmed.certMode_written_iff (by rw [hlens]; decide) (by rw [hlens]; rfl)
    sampleMessages).mpr (.inr ⟨rfl, fun _ => by rw [hlens]; decide +kernel⟩)
  refine ⟨_, harmed, ?_⟩
  rw [hrec.2 (by rw [hlens]; decide) (by rw [HalfConn.Holds, hlens]; decide +kernel), hlens]
  rfl

/-- The probe of a target that sends one large record. -/
def coalescedObs : RealityProfile :=
  { truncatedObs with recordLens := ![95, 6, 1200, 0, 0, 0, 0] }

def cachedCapture : CaptureResult :=
  (captureTargetRecords ⟨.l2, storedLook coalescedObs⟩ [⟨sampleFlight, none⟩]).1

/-- The cached R2 has room for the flight and the certificate is sized for it,
but the messages go out one by one and the Certificate has no slot. -/
theorem cached_large_aborts :
    ∃ sent, Armed .l1 sent cachedCapture.arm ∧
      validateRecordLens cachedCapture.arm.handshakeLen = true ∧
      cachedCapture.arm.handshakeLen 1 = 6 ∧ 512 < cachedCapture.arm.handshakeLen 2 ∧
      cachedCapture.arm.Holds sampleMessages ∧
      cachedCapture.arm.certMode = recordModeCoalesced ∧ ¬ cachedCapture.arm.EmitsAsOne ∧
      cachedCapture.arm.handshakeRecords sent sampleMessages
        = .error (.padding typeCertificate (some 0) (-26)) := by
  have hr : cachedCapture = (captureTargetRecords ⟨.l2, storedLook coalescedObs⟩ _).1 := rfl
  obtain ⟨hlens, hpath, herr, hsome, hbuf, hflight⟩ :
      cachedCapture.usedLen = ![95, 6, 1200, 0, 0, 0, 0] ∧ cachedCapture.path = .l1 ∧
      cachedCapture.err = none ∧ cachedCapture.hello.isSome = true ∧
      cachedCapture.arm.handshakeBuf = none ∧
      cachedCapture.arm.sendFlight aeadTag sampleMessages
        = .error (.padding typeCertificate (some 0) (-26)) := by decide +kernel
  generalize cachedCapture = r at *
  obtain ⟨hello, hh⟩ := Option.isSome_iff_exists.mp hsome
  have harmed : Armed .l1 (hello.sendShare [] []) r.arm :=
    of_capture hr hpath herr hh (by rw [hlens]; decide) [] []
  have hlens : r.arm.handshakeLen = ![95, 6, 1200, 0, 0, 0, 0] := hlens
  refine ⟨hello.sendShare [] [], harmed, by rw [hlens]; decide, by rw [hlens]; rfl,
    by rw [hlens]; decide, by rw [HalfConn.Holds, hlens]; decide +kernel,
    by rw [HalfConn.certMode, hlens]; rfl, ?_, by rw [HalfConn.handshakeRecords, hflight]; rfl⟩
  exact HalfConn.not_emitsAsOne hbuf (by rw [hlens]; decide) (by rw [hlens]; decide)

end Armed

end Reality
