import Reality.Tls.ServerHello

/-!
# TLS records of a server flight

The checks `captureTargetRecords` and `parseRecordLens` share: what the
header of the `i`-th record of the flight has to look like, and how long it
says the record is.
-/

namespace Reality

open Kit

def recordTypeChangeCipherSpec : UInt8 := 20

def recordTypeAlert : UInt8 := 21

def recordTypeHandshake : UInt8 := 22

def recordTypeApplicationData : UInt8 := 23

def typeClientHello : UInt8 := 1

def typeServerHello : UInt8 := 2

/-- `binary.BigEndian.Uint16(b[i:i+2])` -/
def be16At (b : Bytes) (i : Nat) : Nat := be16 (b.getD i 0) (b.getD (i + 1) 0)

/-- `recordHeaderLen + int(bigEndianUint16(saved[3:5]))` -/
def recordLenAt (saved : Bytes) : Nat := recordHeaderLen + be16At saved 3

/-- The header and first payload byte of record `i`: legacy version 1.2,
then a ServerHello, a change-cipher-spec, or application data. -/
def headerOk (i : Nat) (saved : Bytes) : Bool :=
  be16At saved 1 = versionTLS12.toNat &&
    (if i = 0 then
      saved.getD 0 0 = recordTypeHandshake && saved.getD 5 0 = typeServerHello
    else if i = 1 then
      saved.getD 0 0 = recordTypeChangeCipherSpec && saved.getD 5 0 = 1
    else saved.getD 0 0 = recordTypeApplicationData)

/-- The lengths record `i` may announce. -/
def lengthOk (i n : Nat) : Bool := n ≤ maxTLSRecordPayload && (i ≠ 1 || n = 6)

theorem recordLenAt_ge (saved : Bytes) : 5 ≤ recordLenAt saved := by
  simp only [recordLenAt, recordHeaderLen]
  omega

/-- The cipher suites of TLS 1.3 (`cipherSuiteTLS13ByID` is non-nil). -/
def cipherSuiteTLS13ByID (id : UInt16) : Bool :=
  id = 0x1301 || id = 0x1302 || id = 0x1303

/-- The header bytes of a record. -/
def recordHeader (typ : UInt8) (version : UInt16) (n : Nat) : Bytes :=
  [typ, (version >>> 8).toUInt8, version.toUInt8, UInt8.ofNat (n / 256), UInt8.ofNat n]

theorem be16_ofNat {n : Nat} (h : n < 65536) :
    be16 (UInt8.ofNat (n / 256)) (UInt8.ofNat n) = n := by
  simp only [be16, UInt8.toNat_ofNat']
  omega

theorem be16At_recordHeader (typ : UInt8) (version : UInt16) {n : Nat} (h : n < 65536) :
    be16At (recordHeader typ version n) 3 = n := be16_ofNat h

/-- `wrapHandshakeRecord`: ONE record around a message of any length; the
length field keeps the low sixteen bits. -/
def wrapHandshakeRecord (msg : Bytes) (legacyVersion : UInt16) : Bytes :=
  let legacyVersion := if legacyVersion = 0 then versionTLS10 else legacyVersion
  recordHeader recordTypeHandshake legacyVersion msg.length ++ msg

theorem wrapHandshakeRecord_length (msg : Bytes) (vers : UInt16) :
    (wrapHandshakeRecord msg vers).length = recordHeaderLen + msg.length := by
  rw [wrapHandshakeRecord, List.length_append]
  rfl

def maxPlaintext : Nat := 16384

/-- The loop of `writeRecordLocked` on a connection without keys: the data in
records of at most `maxPlaintext` bytes. -/
def plaintextRecords (typ : UInt8) (version : UInt16) : Nat → Bytes → Bytes
  | 0, _ => []
  | n + 1, data =>
      if data = [] then []
      else
        let m := min data.length maxPlaintext
        recordHeader typ version m ++ data.take m
          ++ plaintextRecords typ version n (data.drop m)

/-- `writeRecord` before any keys are set, on a TLS 1.3 connection (whose
record version stays that of TLS 1.2). -/
def writePlaintext (typ : UInt8) (data : Bytes) : Bytes :=
  plaintextRecords typ versionTLS12 data.length data

/-- What fits one record is sent as one record. -/
theorem writePlaintext_length {typ : UInt8} {data : Bytes} (hne : data ≠ [])
    (hle : data.length ≤ maxPlaintext) :
    (writePlaintext typ data).length = recordHeaderLen + data.length := by
  obtain ⟨b, rest, rfl⟩ := List.exists_cons_of_ne_nil hne
  have hrest : ∀ n, plaintextRecords typ versionTLS12 n [] = [] := by
    intro n
    cases n <;> rfl
  rw [writePlaintext, List.length_cons, plaintextRecords, if_neg hne]
  simp only [min_eq_left hle, List.take_length, List.drop_length, hrest, List.append_nil,
    List.length_append, recordHeader, recordHeaderLen]
  rfl

end Reality
