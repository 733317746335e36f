import Reality.Kit.Counter
import Reality.Tls.Encrypt
import Reality.Tls.Input

/-!
# Sealing and opening records

The TLS 1.3 branches of `halfConn.encrypt` and `halfConn.decrypt` (conn.go), on
bytes. The inner plaintext is the payload, its type, and zeros up to the length
of the slot; the receiver looks for the type from the END. The record header
is rewritten before it is sealed in as associated data, and again after.

`HalfConn.encrypt` is the same function with all but lengths left out;
`encrypt_lengths` ties the two together. The AEAD is a parameter, of which
`Inverts` is assumed.
-/

namespace Reality

open Kit

def alertBadRecordMAC : UInt8 := 20

/-- `cipher.AEAD` under a fixed key. -/
structure Aead where
  overhead : Nat
  sealBytes : (nonce plaintext additionalData : Bytes) → Bytes
  openBytes : (nonce ciphertext additionalData : Bytes) → Option Bytes

/-- `Open` inverts `Seal`, which adds the overhead. -/
structure Aead.Inverts (c : Aead) : Prop where
  length_seal (nonce plaintext ad : Bytes) :
    (c.sealBytes nonce plaintext ad).length = plaintext.length + c.overhead
  open_seal (nonce plaintext ad : Bytes) :
    c.openBytes nonce (c.sealBytes nonce plaintext ad) ad = some plaintext

/-- The `[8]byte` sequence number. -/
structure SeqNum where
  bytes : Bytes
  length_eq : bytes.length = 8
  deriving DecidableEq

namespace SeqNum

def value (s : SeqNum) : Nat := beNat s.bytes

/-- `incSeq`; none is its panic, "not allowed to let sequence number wrap". -/
def inc (s : SeqNum) : Option SeqNum :=
  (incBytes s.bytes).pmap SeqNum.mk fun t ht => by
    have hspec := incBytes_spec s.bytes
    rw [ht] at hspec
    exact hspec.1.trans s.length_eq

theorem exists_inc {s : SeqNum} (h : s.value + 1 < 2 ^ 64) :
    ∃ s', s.inc = some s' ∧ s'.value = s.value + 1 := by
  have hspec := incBytes_spec s.bytes
  cases ht : incBytes s.bytes with
  | none =>
      rw [ht, s.length_eq] at hspec
      have hlast : s.value + 1 = 2 ^ 64 := hspec
      omega
  | some t =>
      rw [ht] at hspec
      refine ⟨⟨t, hspec.1.trans s.length_eq⟩, ?_, hspec.2⟩
      simp only [inc, ht, Option.pmap_some]

end SeqNum

/-- A `halfConn` that has its keys. -/
structure SecureConn extends HalfConn where
  cipher : Aead
  seq : SeqNum

inductive SealError where
  | encrypt (e : EncryptError)
  | wraparound
  deriving DecidableEq

inductive OpenError where
  | alert (code : UInt8)
  | wraparound
  deriving DecidableEq

/-- Bytes 3 and 4 of a record: the length of what follows the header. -/
def setLength (record : Bytes) (n : Nat) : Bytes :=
  (record.set 3 (UInt8.ofNat (n / 256))).set 4 (UInt8.ofNat n)

/-- What the receiver makes of an inner plaintext: the zeros at its end are
dropped, the last byte left is the type. An EMPTY plaintext keeps the type of
the record. -/
def stripPadding (plaintext : Bytes) : Option (Bytes × UInt8) :=
  match plaintext.reverse.dropWhile (· = 0) with
  | t :: rest => some (rest.reverse, t)
  | [] => if plaintext = [] then some ([], recordTypeApplicationData) else none

namespace SecureConn

/-- The inner plaintext: payload, type and padding. The first bytes of a
NewSessionTicket are overwritten, so that it reads as application data. -/
def innerPlaintext (hc : SecureConn) (typ : UInt8) (payload : Bytes) :
    HalfConn × Except EncryptError Bytes :=
  let inner := payload ++ [typ]
  if typ = recordTypeHandshake && hc.handshakeLen 1 ≠ 0 then
    let t := payload.headD 0
    let found := (paddingSlot t).map hc.handshakeLen
    -- The slot is spent before the padding is known to fit.
    let half := hc.toHalfConn.clearSlot (paddingSlot t)
    let inner := if t = typeNewSessionTicket
      then (inner.set 0 recordTypeApplicationData).set 1 0 else inner
    let padding := found.getD 0 - (recordHeaderLen + inner.length + hc.cipher.overhead : Nat)
    if padding < 0 then (half, .error (.padding t found padding))
    else if padding > emptyLen then (half, .error .outOfRange)
    else (half, .ok (inner ++ List.replicate padding.toNat 0))
  else (hc.toHalfConn, .ok inner)

/-- `encrypt`; `record` holds the header. -/
def encrypt (hc : SecureConn) (record payload : Bytes) :
    SecureConn × Except SealError Bytes :=
  match hc.innerPlaintext (record.getD 0 0) payload with
  | (half, .error e) => ({ hc with toHalfConn := half }, .error (.encrypt e))
  | (half, .ok inner) =>
      let header :=
        setLength (record.set 0 recordTypeApplicationData) (inner.length + hc.cipher.overhead)
      let ciphertext := hc.cipher.sealBytes hc.seq.bytes inner header
      -- The increment behind the last number panics: what it sealed is never sent.
      match hc.seq.inc with
      | none => ({ hc with toHalfConn := half }, .error .wraparound)
      | some seq =>
          ({ hc with toHalfConn := half, seq := seq },
            .ok (setLength (header ++ ciphertext) ciphertext.length))

/-- `decrypt` -/
def decrypt (hc : SecureConn) (record : Bytes) :
    SecureConn × Except OpenError (Bytes × UInt8) :=
  let typ := record.getD 0 0
  let payload := record.drop recordHeaderLen
  if typ = recordTypeChangeCipherSpec then (hc, .ok (payload, typ))
  else
    match hc.cipher.openBytes hc.seq.bytes payload (record.take recordHeaderLen) with
    | none => (hc, .error (.alert alertBadRecordMAC))
    | some plaintext =>
        -- The outer type is checked only after the record has been opened.
        if typ ≠ recordTypeApplicationData then (hc, .error (.alert alertUnexpectedMessage))
        else if plaintext.length > maxPlaintext + 1 then
          (hc, .error (.alert alertRecordOverflow))
        else
          match stripPadding plaintext with
          | none => (hc, .error (.alert alertUnexpectedMessage))
          | some r =>
              match hc.seq.inc with
              | none => (hc, .error .wraparound)
              | some seq => ({ hc with seq := seq }, .ok r)

end SecureConn

/-! ## The inner plaintext -/

theorem stripPadding_append (p : Bytes) {t : UInt8} (ht : t ≠ 0) (n : Nat) :
    stripPadding (p ++ [t] ++ List.replicate n 0) = some (p, t) := by
  have hrev : (p ++ [t] ++ List.replicate n (0 : UInt8)).reverse
      = List.replicate n 0 ++ t :: p.reverse := by
    simp
  have hdrop : (List.replicate n (0 : UInt8) ++ t :: p.reverse).dropWhile (· = 0)
      = t :: p.reverse := by
    rw [List.dropWhile_append_of_pos]
    -- The type is not zero, so the search for it stops there and not in the payload.
    · exact List.dropWhile_cons_of_neg (by simpa using ht)
    · intro x hx
      simpa using List.eq_of_mem_replicate hx
  rw [stripPadding, hrev, hdrop]
  simp

namespace SecureConn

variable {hc hr : SecureConn} {payload : Bytes} {typ : UInt8}

/-- What is not padded: handshake records of a connection that is not armed,
and everything else. -/
theorem innerPlaintext_plain (h : typ = recordTypeHandshake → hc.handshakeLen 1 = 0) :
    hc.innerPlaintext typ payload = (hc.toHalfConn, .ok (payload ++ [typ])) := by
  refine if_neg ?_
  intro hcond
  rw [Bool.and_eq_true, decide_eq_true_eq, decide_eq_true_eq] at hcond
  exact hcond.2 (h hcond.1)

/-- What the slot of a record leaves for padding. -/
def padding (hc : SecureConn) (payload : Bytes) : Int :=
  ((slotOf payload).map hc.handshakeLen).getD 0
    - (recordHeaderLen + payload.length + 1 + hc.cipher.overhead : Nat)

theorem padding_eq (hc : SecureConn) {i : Fin 7} (h : slotOf payload = some i) :
    hc.padding payload = hc.handshakeLen i
      - (recordHeaderLen + payload.length + 1 + hc.cipher.overhead : Nat) := by
  rw [padding, h]
  rfl

/-- Payload and type; those of a NewSessionTicket are masked. -/
def maskTicket (payload : Bytes) : Bytes :=
  if payload.headD 0 = typeNewSessionTicket
    then ((payload ++ [recordTypeHandshake]).set 0 recordTypeApplicationData).set 1 0
    else payload ++ [recordTypeHandshake]

theorem maskTicket_length (payload : Bytes) : (maskTicket payload).length = payload.length + 1 := by
  unfold maskTicket
  split <;> simp

theorem maskTicket_of_slot {i : Fin 7} (h : slotOf payload = some i) (h6 : i ≠ 6) :
    maskTicket payload = payload ++ [recordTypeHandshake] := by
  refine if_neg ?_
  intro ht
  rw [slotOf, ht] at h
  exact h6 (Option.some.inj h).symm

/-- **An armed handshake record**, by what its slot leaves for padding. -/
theorem innerPlaintext_armed (harmed : hc.handshakeLen 1 ≠ 0) (payload : Bytes) :
    hc.innerPlaintext recordTypeHandshake payload
      = (hc.toHalfConn.clearSlot (slotOf payload),
        if hc.padding payload < 0 then
          .error (.padding (payload.headD 0) ((slotOf payload).map hc.handshakeLen)
            (hc.padding payload))
        else if hc.padding payload > emptyLen then .error .outOfRange
        else .ok (maskTicket payload ++ List.replicate (hc.padding payload).toNat 0)) := by
  have hlen := maskTicket_length payload
  rw [maskTicket] at hlen
  unfold innerPlaintext
  rw [if_pos (by simp [harmed])]
  dsimp only
  rw [hlen]
  show (if hc.padding payload < 0 then _ else if hc.padding payload > emptyLen then _
    else _) = _
  split
  · rfl
  · split <;> rfl

/-- The same for the length model. -/
theorem halfConn_encrypt_armed (harmed : hc.handshakeLen 1 ≠ 0) (payload : Bytes) :
    hc.toHalfConn.encrypt hc.cipher.overhead payload
      = if hc.padding payload < 0 then
          .error (.padding (payload.headD 0) ((slotOf payload).map hc.handshakeLen)
            (hc.padding payload))
        else if hc.padding payload > emptyLen then .error .outOfRange
        else .ok (hc.toHalfConn.clearSlot (slotOf payload), recordHeaderLen + payload.length + 1
          + (hc.padding payload).toNat + hc.cipher.overhead) :=
  if_neg harmed

/-- The record around an inner plaintext. -/
def sealedRecord (hc : SecureConn) (vers : UInt16) (inner : Bytes) : Bytes :=
  let header := recordHeader recordTypeApplicationData vers (inner.length + hc.cipher.overhead)
  header ++ hc.cipher.sealBytes hc.seq.bytes inner header

theorem encrypt_of_inner (hinv : hc.cipher.Inverts) {half : HalfConn} {inner : Bytes}
    {seq : SeqNum} (hinner : hc.innerPlaintext typ payload = (half, .ok inner))
    (hseq : hc.seq.inc = some seq) (vers : UInt16) (m : Nat) :
    hc.encrypt (recordHeader typ vers m) payload
      = ({ hc with toHalfConn := half, seq := seq }, .ok (hc.sealedRecord vers inner)) := by
  have htyp : (recordHeader typ vers m).getD 0 0 = typ := rfl
  have hheader : setLength ((recordHeader typ vers m).set 0 recordTypeApplicationData)
      (inner.length + hc.cipher.overhead)
      = recordHeader recordTypeApplicationData vers (inner.length + hc.cipher.overhead) := rfl
  unfold encrypt
  rw [htyp, hinner]
  dsimp only
  rw [hseq, hheader, hinv.length_seal]
  rfl

theorem encrypt_of_error {half : HalfConn} {e : EncryptError}
    (hinner : hc.innerPlaintext typ payload = (half, .error e)) (vers : UInt16) (m : Nat) :
    hc.encrypt (recordHeader typ vers m) payload
      = ({ hc with toHalfConn := half }, .error (.encrypt e)) := by
  have htyp : (recordHeader typ vers m).getD 0 0 = typ := rfl
  unfold encrypt
  rw [htyp, hinner]

theorem sealedRecord_length (hinv : hc.cipher.Inverts) (vers : UInt16) (inner : Bytes) :
    (hc.sealedRecord vers inner).length
      = recordHeaderLen + (inner.length + hc.cipher.overhead) := by
  rw [sealedRecord, List.length_append, hinv.length_seal]
  rfl

theorem sealedRecord_announces (vers : UInt16) {inner : Bytes}
    (h : inner.length + hc.cipher.overhead < 65536) :
    be16At (hc.sealedRecord vers inner) 3 = inner.length + hc.cipher.overhead :=
  be16_ofNat h

/-- **Opening**: the receiver gets the payload and its type, whatever zeros
stand around the type. -/
theorem decrypt_sealedRecord (hinv : hc.cipher.Inverts) (hcipher : hr.cipher = hc.cipher)
    (hsame : hr.seq = hc.seq) {seq : SeqNum} (hseq : hc.seq.inc = some seq) (htyp : typ ≠ 0)
    (vers : UInt16) {n : Nat} (hle : payload.length + n ≤ maxPlaintext) :
    hr.decrypt (hc.sealedRecord vers (payload ++ [typ] ++ List.replicate n 0))
      = ({ hr with seq := seq }, .ok (payload, typ)) := by
  generalize hin : payload ++ [typ] ++ List.replicate n (0 : UInt8) = inner
  have hstrip : stripPadding inner = some (payload, typ) := by
    rw [← hin]
    exact stripPadding_append payload htyp n
  have hlen : inner.length ≤ maxPlaintext + 1 := by
    rw [← hin, List.length_append, List.length_append, List.length_replicate,
      List.length_singleton]
    omega
  have hopen : hr.cipher.openBytes hr.seq.bytes
      ((hc.sealedRecord vers inner).drop recordHeaderLen)
      ((hc.sealedRecord vers inner).take recordHeaderLen) = some inner := by
    rw [hcipher, hsame]
    exact hinv.open_seal _ _ _
  have happ : (hc.sealedRecord vers inner).getD 0 0 = recordTypeApplicationData := rfl
  unfold decrypt
  dsimp only
  rw [happ, if_neg (by decide), hopen]
  dsimp only
  rw [if_neg (by decide), if_neg (by omega), hstrip]
  dsimp only
  rw [hsame, hseq]

theorem encrypt_ne_error {half : HalfConn} {inner : Bytes}
    (hinner : hc.innerPlaintext typ payload = (half, .ok inner)) (vers : UInt16) (m : Nat)
    (e : EncryptError) :
    (hc.encrypt (recordHeader typ vers m) payload).2 ≠ .error (.encrypt e) := by
  have htyp : (recordHeader typ vers m).getD 0 0 = typ := rfl
  unfold encrypt
  rw [htyp, hinner]
  dsimp only
  cases hc.seq.inc with
  | none => exact fun h => by cases h
  | some seq => exact fun h => by cases h

/-- **When the padding outgrows `empty`**: a record of the flight is padded out
of the range of the zero buffer if and only if padding is armed and the slot
holds more than 8192 bytes beyond the record. -/
theorem padding_in_range_iff (hc : SecureConn) {payload : Bytes} {t : UInt8} {i : Fin 7}
    (ht : payload.head? = some t) (hslot : paddingSlot t = some i) (vers : UInt16) (m : Nat) :
    (hc.encrypt (recordHeader recordTypeHandshake vers m) payload).2
        ≠ .error (.encrypt .outOfRange) ↔
      hc.handshakeLen 1 = 0 ∨
        hc.handshakeLen i ≤
          8192 + (recordHeaderLen + payload.length + 1 + hc.cipher.overhead : Nat) := by
  have hof : slotOf payload = some i := (slotOf_of_head ht).trans hslot
  by_cases harmed : hc.handshakeLen 1 = 0
  · refine iff_of_true ?_ (.inl harmed)
    exact encrypt_ne_error (innerPlaintext_plain fun _ => harmed) vers m _
  · have hinner := innerPlaintext_armed harmed payload
    have hpad := hc.padding_eq hof
    have hempty : (emptyLen : Int) = 8192 := rfl
    split_ifs at hinner with hneg hbig
    · rw [encrypt_of_error hinner]
      refine iff_of_true (fun h => ?_) (.inr (by omega))
      cases h
    · rw [encrypt_of_error hinner]
      refine iff_of_false (fun h => h rfl) ?_
      rintro (h0 | hle)
      · exact harmed h0
      · omega
    · exact iff_of_true (encrypt_ne_error hinner vers m _) (.inr (by omega))

/-! ## There and back -/

/-- `hs` makes `record` of the payload and is left with the slots `lens`; `hr`
makes the payload and its type of `record`. Both sequence numbers advance by
one, and nothing else changes. -/
def Delivers (hs hr : SecureConn) (vers : UInt16) (typ : UInt8) (payload : Bytes)
    (lens : RecordLens) (record : Bytes) : Prop :=
  ∃ seq : SeqNum, seq.value = hs.seq.value + 1 ∧
    hs.encrypt (recordHeader typ vers payload.length) payload
      = ({ hs with handshakeLen := lens, seq := seq }, .ok record) ∧
    hr.decrypt record = ({ hr with seq := seq }, .ok (payload, typ))

variable {hs : SecureConn}

/-- A payload, its type and `n` zeros, sealed and opened. -/
theorem delivers_of_inner (hinv : hs.cipher.Inverts) (hcipher : hr.cipher = hs.cipher)
    (hsame : hr.seq = hs.seq) (hlast : hs.seq.value + 1 < 2 ^ 64) (vers : UInt16)
    (htyp : typ ≠ 0) {lens : RecordLens} {n : Nat} (hle : payload.length + n ≤ maxPlaintext)
    (hinner : hs.innerPlaintext typ payload
      = ({ hs.toHalfConn with handshakeLen := lens },
        .ok (payload ++ [typ] ++ List.replicate n 0))) :
    ∃ record, Delivers hs hr vers typ payload lens record ∧
      record.length = recordHeaderLen + (payload.length + 1 + n + hs.cipher.overhead) ∧
      (payload.length + 1 + n + hs.cipher.overhead < 65536 →
        be16At record 3 = payload.length + 1 + n + hs.cipher.overhead) := by
  obtain ⟨seq, hseq, hvalue⟩ := SeqNum.exists_inc hlast
  have hlen : (payload ++ [typ] ++ List.replicate n (0 : UInt8)).length
      = payload.length + 1 + n := by
    rw [List.length_append, List.length_append, List.length_replicate, List.length_singleton]
  refine ⟨hs.sealedRecord vers (payload ++ [typ] ++ List.replicate n 0), ⟨seq, hvalue, ?_, ?_⟩,
    ?_, ?_⟩
  · exact encrypt_of_inner hinv hinner hseq vers payload.length
  · exact decrypt_sealedRecord hinv hcipher hsame hseq htyp vers hle
  · rw [sealedRecord_length hinv, hlen]
  · intro hbound
    rw [← hlen] at hbound ⊢
    exact sealedRecord_announces vers hbound

/-- A handshake record on an armed connection, by its slot. -/
theorem delivers_armed (hinv : hs.cipher.Inverts) (hcipher : hr.cipher = hs.cipher)
    (hsame : hr.seq = hs.seq) (hlast : hs.seq.value + 1 < 2 ^ 64) (vers : UInt16) {i : Fin 7}
    (harmed : hs.handshakeLen 1 ≠ 0) (hslot : slotOf payload = some i) (h6 : i ≠ 6)
    (hmax : hs.handshakeLen i ≤ maxTLSRecordPayload) (hnonneg : 0 ≤ hs.padding payload)
    (hempty : hs.padding payload ≤ emptyLen) :
    ∃ record, Delivers hs hr vers recordTypeHandshake payload
        (Function.update hs.handshakeLen i 0) record ∧
      (record.length : Int) = hs.handshakeLen i ∧
      (be16At record 3 : Int) = hs.handshakeLen i - recordHeaderLen := by
  have hinner := innerPlaintext_armed harmed payload
  rw [if_neg (by omega), if_neg (by omega), hslot, maskTicket_of_slot hslot h6] at hinner
  have hpad := hs.padding_eq hslot
  have hbound : hs.handshakeLen i ≤ 16384 := hmax
  have hle : payload.length + (hs.padding payload).toNat ≤ maxPlaintext := by
    rw [maxPlaintext]
    omega
  obtain ⟨record, hdel, hlen, hann⟩ :=
    delivers_of_inner hinv hcipher hsame hlast vers (by decide) hle hinner
  refine ⟨record, hdel, ?_, ?_⟩
  · rw [hlen]
    omega
  · rw [hann (by omega)]
    omega

/-- **There and back**: an armed handshake record is padded to its slot exactly,
or refused if the slot is too short; other records are not padded; and what is
sent is what is received. -/
theorem record_roundtrip (hinv : hs.cipher.Inverts) (h16 : hs.cipher.overhead = 16)
    (hcipher : hr.cipher = hs.cipher) (hsame : hr.seq = hs.seq)
    (hlast : hs.seq.value + 1 < 2 ^ 64) (vers : UInt16) {p : Bytes} (hle : p.length ≤ 16384) :
    (∀ (i : Fin 7) (L : Int), slotOf p = some i → i ≠ 6 → hs.handshakeLen 1 ≠ 0 →
      hs.handshakeLen i = L → L ≤ 16384 →
      (0 ≤ L - (5 + p.length + 1 + 16) → L - (5 + p.length + 1 + 16) ≤ 8192 →
        ∃ record, Delivers hs hr vers recordTypeHandshake p
            (Function.update hs.handshakeLen i 0) record ∧
          (record.length : Int) = L ∧ (be16At record 3 : Int) = L - 5) ∧
      (L - (5 + p.length + 1 + 16) < 0 →
        ∃ e, (hs.encrypt (recordHeader recordTypeHandshake vers p.length) p).2 = .error e ∧
          (hs.encrypt (recordHeader recordTypeHandshake vers p.length) p).1.seq = hs.seq)) ∧
    ∀ typ, typ = recordTypeHandshake ∧ hs.handshakeLen 1 = 0 ∨
        typ = recordTypeApplicationData →
      ∃ record, Delivers hs hr vers typ p hs.handshakeLen record ∧
        record.length = 5 + p.length + 1 + 16 := by
  constructor
  · intro i L hslot h6 harmed hL hmax
    have hpad : hs.padding p = L - (5 + p.length + 1 + 16) := by
      rw [hs.padding_eq hslot, hL, h16, recordHeaderLen]
      omega
    constructor
    · intro hnonneg hempty
      have hdel := delivers_armed hinv hcipher hsame hlast vers harmed hslot h6
        (hL.trans_le hmax) (hnonneg.trans_eq hpad.symm) (hpad.trans_le hempty)
      rw [hL] at hdel
      exact hdel
    · intro hneg
      have hinner := innerPlaintext_armed harmed p
      rw [if_pos (hpad.trans_lt hneg)] at hinner
      rw [encrypt_of_error hinner]
      exact ⟨_, rfl, rfl⟩
  · intro typ htyp
    have hinner : hs.innerPlaintext typ p = (hs.toHalfConn, .ok (p ++ [typ])) := by
      refine innerPlaintext_plain ?_
      rintro rfl
      rcases htyp with ⟨-, h0⟩ | happ
      · exact h0
      · cases happ
    have hne : typ ≠ 0 := by
      rcases htyp with ⟨rfl, -⟩ | rfl
      · decide
      · decide
    obtain ⟨record, hdel, hlen, -⟩ := delivers_of_inner (n := 0) hinv hcipher hsame hlast vers
      hne hle (by rw [hinner, List.replicate_zero, List.append_nil])
    refine ⟨record, hdel, ?_⟩
    rw [hlen, h16, recordHeaderLen]
    omega

/-- **The length model is the byte model**: `HalfConn.encrypt` fails as `encrypt`
does, and otherwise leaves the same slots and says how long the record is. -/
theorem encrypt_lengths (hinv : hc.cipher.Inverts) {seq : SeqNum} (hseq : hc.seq.inc = some seq)
    (vers : UInt16) (m : Nat) (payload : Bytes) :
    match hc.toHalfConn.encrypt hc.cipher.overhead payload with
    | .error e =>
        (hc.encrypt (recordHeader recordTypeHandshake vers m) payload).2 = .error (.encrypt e)
    | .ok (half, n) =>
        ∃ record, hc.encrypt (recordHeader recordTypeHandshake vers m) payload
          = ({ hc with toHalfConn := half, seq := seq }, .ok record) ∧ record.length = n := by
  by_cases harmed : hc.handshakeLen 1 = 0
  · have hinner : hc.innerPlaintext recordTypeHandshake payload
        = (hc.toHalfConn, .ok (payload ++ [recordTypeHandshake])) :=
      innerPlaintext_plain fun _ => harmed
    rw [HalfConn.encrypt_unarmed harmed]
    refine ⟨_, encrypt_of_inner hinv hinner hseq vers m, ?_⟩
    rw [sealedRecord_length hinv, List.length_append, List.length_singleton]
    omega
  · have hinner := innerPlaintext_armed harmed payload
    rw [halfConn_encrypt_armed harmed payload]
    by_cases hneg : hc.padding payload < 0
    · rw [if_pos hneg] at hinner ⊢
      rw [encrypt_of_error hinner]
    · rw [if_neg hneg] at hinner ⊢
      by_cases hbig : hc.padding payload > emptyLen
      · rw [if_pos hbig] at hinner ⊢
        rw [encrypt_of_error hinner]
      · rw [if_neg hbig] at hinner ⊢
        refine ⟨_, encrypt_of_inner hinv hinner hseq vers m, ?_⟩
        rw [sealedRecord_length hinv, List.length_append, maskTicket_length,
          List.length_replicate]
        omega

end SecureConn

/-! ## A sample cipher -/

/-- A cipher that hides nothing. -/
def clearCipher : Aead where
  overhead := 16
  sealBytes _ plaintext _ := plaintext ++ List.replicate 16 0
  openBytes _ ciphertext _ :=
    if 16 ≤ ciphertext.length then some (ciphertext.take (ciphertext.length - 16)) else none

theorem clearCipher_inverts : clearCipher.Inverts where
  length_seal nonce plaintext ad := by simp [clearCipher]
  open_seal nonce plaintext ad := by simp [clearCipher]

/-- An armed connection whose sequence number ends in `b`s. -/
def sampleConn (lens : RecordLens) (b : UInt8) : SecureConn :=
  { handshakeLen := lens, cipher := clearCipher, seq := ⟨List.replicate 8 b, rfl⟩ }

/-- A Finished of 36 bytes in a slot of 100. -/
theorem finished_delivered : ∃ record,
    SecureConn.Delivers (sampleConn ![90, 6, 40, 900, 120, 100, 0] 0)
      (sampleConn ![0, 0, 0, 0, 0, 0, 0] 0) versionTLS12 recordTypeHandshake
      (typeFinished :: List.replicate 35 0) ![90, 6, 40, 900, 120, 0, 0] record ∧
    (record.length : Int) = 100 ∧ (be16At record 3 : Int) = 95 := by
  have h := ((@SecureConn.record_roundtrip (sampleConn ![0, 0, 0, 0, 0, 0, 0] 0)
    (sampleConn ![90, 6, 40, 900, 120, 100, 0] 0) clearCipher_inverts rfl rfl rfl (by decide)
    versionTLS12 (typeFinished :: List.replicate 35 0) (by decide)).1 5 100 (by decide)
    (by decide) (by decide) (by decide) (by decide)).1 (by decide) (by decide)
  have hupd : Function.update (sampleConn ![90, 6, 40, 900, 120, 100, 0] 0).handshakeLen 5 0
      = ![90, 6, 40, 900, 120, 0, 0] := by decide
  rw [hupd] at h
  exact h

/-- On the last sequence number the record is sealed and then the counter
panics. -/
theorem last_sequence_number_panics :
    ((sampleConn ![90, 6, 40, 900, 120, 100, 0] 0xff).encrypt
      (recordHeader recordTypeApplicationData versionTLS12 1) [7]).2 = .error .wraparound := by
  decide

theorem certificateVerify_in_range :
    ((sampleConn ![90, 6, 40, 900, 120, 100, 0] 0).encrypt
      (recordHeader recordTypeHandshake versionTLS12 72)
      (typeCertificateVerify :: List.replicate 71 0)).2 ≠ .error (.encrypt .outOfRange) :=
  (SecureConn.padding_in_range_iff (sampleConn ![90, 6, 40, 900, 120, 100, 0] 0)
    (t := typeCertificateVerify) (i := 4) rfl rfl versionTLS12 72).mpr
    (.inr (by decide))

/-- A CertificateVerify of 72 bytes in the largest slot there may be. -/
theorem certificateVerify_out_of_range :
    validateRecordLens ![90, 6, 40, 900, 16384, 100, 0] = true ∧
    ((sampleConn ![90, 6, 40, 900, 16384, 100, 0] 0).encrypt
      (recordHeader recordTypeHandshake versionTLS12 72)
      (typeCertificateVerify :: List.replicate 71 0)).2 = .error (.encrypt .outOfRange) := by
  decide

end Reality
