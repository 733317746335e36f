import Reality.Tls.Fragments
import Reality.Tls.ReadHello

/-!
# Replaying a ClientHello

`Server` (server_amortize.go) replays the ClientHello to the target in the ONE
record `wrapHandshakeRecord` (amortize.go) makes. `readHandshake` puts a message
together from any number of records, up to a limit that is four times what one
record may carry: a longer hello goes out in a record no TLS peer accepts, and
from 65536 bytes on the header has another length than the record.
-/

namespace Reality

open Kit

/-! ## Legal records -/

/-- `bytes` is a sequence of plaintext handshake records, each with at most 2^14 bytes
and with their number in its header; together they carry `payload`. -/
inductive LegalRecords : (bytes payload : Bytes) → Prop where
  | nil : LegalRecords [] []
  | cons (vers : UInt16) (fragment : Bytes) {bytes payload : Bytes}
      (hfits : fragment.length ≤ maxPlaintext) (hrest : LegalRecords bytes payload) :
      LegalRecords (recordHeader recordTypeHandshake vers fragment.length ++ fragment ++ bytes)
        (fragment ++ payload)

/-- Every record adds its header. -/
theorem LegalRecords.length {bytes payload : Bytes} (h : LegalRecords bytes payload) :
    ∃ records, bytes.length = records * recordHeaderLen + payload.length ∧
      (records = 0 → payload = []) := by
  induction h with
  | nil => exact ⟨0, rfl, fun _ => rfl⟩
  | cons vers fragment hfits hrest ih =>
      obtain ⟨records, hlen, -⟩ := ih
      refine ⟨records + 1, ?_, fun h => by omega⟩
      have hheader : (recordHeader recordTypeHandshake vers fragment.length).length
          = recordHeaderLen := rfl
      simp only [List.length_append, hheader, hlen, Nat.succ_mul]
      omega

/-- What `writeRecordLocked` makes of data of any length is legal. -/
theorem legalRecords_writePlaintext (data : Bytes) :
    LegalRecords (writePlaintext recordTypeHandshake data) data := by
  suffices hrun : ∀ n (data : Bytes), data.length ≤ n →
      LegalRecords (plaintextRecords recordTypeHandshake versionTLS12 n data) data from
    hrun data.length data (Nat.le_refl _)
  intro n
  induction n with
  | zero =>
      intro data hlen
      rw [List.eq_nil_of_length_eq_zero (Nat.le_zero.mp hlen)]
      exact .nil
  | succ n ih =>
      intro data hlen
      rw [plaintextRecords]
      split
      next hnil =>
        rw [hnil]
        exact .nil
      next hne =>
        have hpos : 0 < data.length := List.length_pos_iff.mpr hne
        have hmax : maxPlaintext = 16384 := rfl
        have htake : (data.take (min data.length maxPlaintext)).length
            = min data.length maxPlaintext := by
          rw [List.length_take]
          omega
        have hrest := ih (data.drop (min data.length maxPlaintext))
          (by rw [List.length_drop]; omega)
        have hcons := LegalRecords.cons versionTLS12 (data.take (min data.length maxPlaintext))
          (by rw [htake]; exact Nat.min_le_right _ _) hrest
        rw [htake, List.take_append_drop] at hcons
        exact hcons

/-- **One record is legal when its message fits it**, and only then: there is no
other way to cut it. -/
theorem legalRecords_wrap_iff (msg : Bytes) (vers : UInt16) :
    LegalRecords (wrapHandshakeRecord msg vers) msg ↔ msg.length ≤ maxPlaintext := by
  constructor
  · intro h
    generalize hbytes : wrapHandshakeRecord msg vers = bytes at h
    have hlen : bytes.length = recordHeaderLen + msg.length := by
      rw [← hbytes, wrapHandshakeRecord_length]
    cases h with
    | nil =>
        rw [List.length_nil, recordHeaderLen] at hlen
        omega
    | cons vers' fragment hfits hrest =>
        obtain ⟨records, hrecords, hnone⟩ := hrest.length
        have hheader : (recordHeader recordTypeHandshake vers' fragment.length).length
            = recordHeaderLen := rfl
        rw [List.length_append, List.length_append, List.length_append, hheader, hrecords] at hlen
        have hzero : records = 0 := by
          rw [recordHeaderLen] at hlen
          omega
        rw [hnone hzero, List.append_nil]
        exact hfits
  · intro hfits
    have hone := LegalRecords.cons (if vers = 0 then versionTLS10 else vers) msg hfits .nil
    rw [List.append_nil, List.append_nil] at hone
    exact hone

/-! ## The hello that is replayed -/

/-- The limit on a message. -/
theorem readHandshake_length {s : Input} {msg : Bytes} (h : s.readHandshake.2 = .ok msg) :
    msg.length ≤ 4 + maxHandshake := by
  rw [Input.readHandshake] at h
  rcases hr : s.readHandshakeBytes 4 4 with ⟨s₁, _ | e⟩
  · rw [hr] at h
    dsimp only at h
    by_cases hmax : handshakeLenAt s₁.hand > maxHandshake
    · rw [if_pos hmax] at h
      cases h
    · rw [if_neg hmax] at h
      generalize handshakeLenAt s₁.hand = n at h hmax
      rcases hr₂ : s₁.readHandshakeBytes (4 + n) (4 + n) with ⟨s₂, _ | e⟩
      · rw [hr₂] at h
        rw [← Except.ok.inj h, List.length_take]
        omega
      · rw [hr₂] at h
        cases h
  · rw [hr] at h
    cases h

/-! ## A hello with a padding of any length -/

/-- A padding extension of `n` zeros. -/
def paddingExt (n : Nat) : Bytes :=
  0 :: 21 :: UInt8.ofNat (n / 256) :: UInt8.ofNat n :: (List.replicate n 0 ++ [])

/-- The extensions, behind their length. -/
def paddedExts (n : Nat) : Bytes :=
  UInt8.ofNat ((4 + n) / 256) :: UInt8.ofNat (4 + n) :: (paddingExt n ++ [])

/-- A ClientHello of TLS 1.2: no session id, one suite, and the padding. -/
def paddedHello (n : Nat) : Bytes :=
  [typeClientHello, 0, UInt8.ofNat ((47 + n) / 256), UInt8.ofNat (47 + n)]
    ++ (3 :: 3 :: (List.replicate 32 0 ++ (0 :: ([] ++ (0 :: 2 :: ([0x13, 0x01]
      ++ (1 :: ([0] ++ paddedExts n))))))))

theorem length_paddingExt (n : Nat) : (paddingExt n).length = 4 + n := by
  simp only [paddingExt, List.length_append, List.length_cons, List.length_nil,
    List.length_replicate]
  omega

theorem length_paddedHello (n : Nat) : (paddedHello n).length = 51 + n := by
  simp only [paddedHello, paddedExts, length_paddingExt, List.length_append, List.length_cons,
    List.length_nil, List.length_replicate]
  omega

theorem handshakeLenAt_paddedHello {n : Nat} (h : 47 + n < 65536) :
    handshakeLenAt (paddedHello n) = 47 + n := by
  show 0 * 65536 + be16 (UInt8.ofNat ((47 + n) / 256)) (UInt8.ofNat (47 + n)) = 47 + n
  rw [be16_ofNat h]
  omega

open Slice in
theorem readClientTail_paddedExts {n : Nat} (h : 4 + n < 65536) (o : Nat) :
    readClientTail ⟨o, paddedExts n⟩ = some {} := by
  have hexts := readUint16LengthPrefixed_append o (UInt8.ofNat ((4 + n) / 256))
    (UInt8.ofNat (4 + n)) (paddingExt n) [] (by rw [be16_ofNat h, length_paddingExt])
  have hpad := readUint16LengthPrefixed_append (o + 2 + 2) (UInt8.ofNat (n / 256)) (UInt8.ofNat n)
    (List.replicate n 0) [] (by rw [be16_ofNat (by omega), List.length_replicate])
  have hignored : ∀ d rest, parseClientExt (UInt16.ofNat (be16 0 21)) d rest = some .accepted :=
    fun _ _ => rfl
  have hwalk : walkTagged (fun x ext d rest => (parseClientExt ext d rest).map x.set)
      (paddingExt n).length ⟨o + 2, paddingExt n⟩ [] ({} : ClientHelloExts) = some {} := by
    rw [length_paddingExt, Nat.add_comm 4 n, walkTagged]
    simp only [paddingExt, Slice.empty, Slice.readUint16, hpad, hignored]
    rfl
  rw [readClientTail, paddedExts, hexts]
  exact hwalk

open Slice in
/-- The reads of the parser, put together. -/
theorem unmarshalClientHello_of_reads {data : Bytes} {s₁ s₂ s₃ s₄ s₅ s₆ : Slice} {vers : UInt16}
    {random sid suites compression : Slice} {cipherSuites : List UInt16} {exts : ClientHelloExts}
    (h₁ : (Slice.whole data).skip 4 = some s₁) (h₂ : s₁.readUint16 = some (vers, s₂))
    (h₃ : s₂.readBytes 32 = some (random, s₃)) (h₄ : s₃.readUint8LengthPrefixed = some (sid, s₄))
    (h₅ : s₄.readUint16LengthPrefixed = some (suites, s₅))
    (h₆ : readAll readUint16 suites.bytes.length suites = some cipherSuites)
    (h₇ : s₅.readUint8LengthPrefixed = some (compression, s₆))
    (h₈ : readClientTail s₆ = some exts) :
    unmarshalClientHello data = some
      { toClientHelloExts := exts, original := data, vers := vers, random := random.bytes,
        sessionId := sid, cipherSuites := cipherSuites } := by
  simp only [unmarshalClientHello, h₁, h₂, h₃, h₄, h₅, h₆, h₇, h₈, Option.bind_eq_bind,
    Option.bind_some]

open Slice in
/-- It parses. -/
theorem clientHelloOf_paddedHello {n : Nat} (h : 4 + n < 65536) (cfg : HelloConfig) :
    ∃ ch, clientHelloOf cfg (paddedHello n) = .ok ch := by
  have hskip := congrArg (Option.map Prod.snd) (readBytes_append 0
    [typeClientHello, 0, UInt8.ofNat ((47 + n) / 256), UInt8.ofNat (47 + n)]
    (3 :: 3 :: (List.replicate 32 0 ++ (0 :: ([] ++ (0 :: 2 :: ([0x13, 0x01]
      ++ (1 :: ([0] ++ paddedExts n)))))))))
  have hrandom := readBytes_append 6 (List.replicate 32 0)
    (0 :: ([] ++ (0 :: 2 :: ([0x13, 0x01] ++ (1 :: ([0] ++ paddedExts n))))))
  have hsid := readUint8LengthPrefixed_append 38 0 []
    (0 :: 2 :: ([0x13, 0x01] ++ (1 :: ([0] ++ paddedExts n)))) rfl
  have hsuites := readUint16LengthPrefixed_append 39 0 2 [0x13, 0x01]
    (1 :: ([0] ++ paddedExts n)) rfl
  have hcompression := readUint8LengthPrefixed_append 43 1 [0] (paddedExts n) rfl
  obtain ⟨ch, hch⟩ : ∃ ch, unmarshalClientHello (paddedHello n) = some ch :=
    ⟨_, unmarshalClientHello_of_reads hskip rfl hrandom hsid hsuites rfl hcompression
      (readClientTail_paddedExts h _)⟩
  refine ⟨ch, ?_⟩
  rw [clientHelloOf, hch]
  rfl

/-- A message cut at the limit of a record. -/
def inTwoRecords (msg : Bytes) : List Bytes :=
  [wrapHandshakeRecord (msg.take maxPlaintext) versionTLS10,
    wrapHandshakeRecord (msg.drop maxPlaintext) versionTLS10]

theorem readHandshake_inTwoRecords {msg : Bytes} (hlong : maxPlaintext < msg.length)
    (hshort : msg.length ≤ maxPlaintext + maxPlaintext)
    (hwhole : 4 + handshakeLenAt msg = msg.length) :
    (Input.mk [] [] (inTwoRecords msg)).readHandshake.2 = .ok msg := by
  have hpos : 0 < maxPlaintext := by decide
  have htake : (msg.take maxPlaintext).length = maxPlaintext := by
    rw [List.length_take]
    omega
  have hdrop : (msg.drop maxPlaintext).length = msg.length - maxPlaintext := List.length_drop
  have hdelivered : Delivered
      [[wrapHandshakeRecord (msg.take maxPlaintext) versionTLS10],
        [wrapHandshakeRecord (msg.drop maxPlaintext) versionTLS10]]
      [msg.take maxPlaintext, msg.drop maxPlaintext] := by
    refine .cons ⟨List.ne_nil_of_length_pos (by omega), by omega, by simp⟩
      (.cons ⟨List.ne_nil_of_length_pos (by omega), by omega, by simp⟩ .nil)
  have hmsg : [msg.take maxPlaintext, msg.drop maxPlaintext].flatten = msg := by simp
  have hmax : handshakeLenAt msg ≤ maxHandshake := by
    have hlimits : maxPlaintext + maxPlaintext ≤ maxHandshake := by decide
    omega
  have hread := (hdelivered.readHandshake [] (by rw [hmsg]; exact hwhole)
    (by rw [hmsg]; exact hmax)).1
  rw [hmsg, List.append_nil] at hread
  exact hread

/-! ## Which hellos are replayed in legal records -/

/-- A ClientHello that was read, from whatever records, is replayed in legal ones
exactly when it fits one. -/
theorem replay_legal_iff {client : List Bytes} {cfg : HelloConfig} {msg : Bytes}
    {ch : ClientHelloMsg} (hread : (Input.mk [] [] client).readHandshake.2 = .ok msg)
    (hch : clientHelloOf cfg msg = .ok ch) :
    msg.length ≤ 4 + maxHandshake ∧ ch.original = msg ∧
      (LegalRecords (wrapHandshakeRecord ch.original versionTLS10) msg
        ↔ msg.length ≤ maxPlaintext) := by
  have horig := (clientHelloOf_ok hch).2
  refine ⟨readHandshake_length hread, horig, ?_⟩
  rw [horig]
  exact legalRecords_wrap_iff msg versionTLS10

/-- A short hello, in one record. -/
theorem replay_legal_iff_short :
    (Input.mk [] [] [wrapHandshakeRecord (paddedHello 0) versionTLS10]).readHandshake.2
        = .ok (paddedHello 0) ∧
      ∃ ch, clientHelloOf {} (paddedHello 0) = .ok ch ∧
        LegalRecords (wrapHandshakeRecord ch.original versionTLS10) (paddedHello 0) := by
  have hbytes : [wrapHandshakeRecord (paddedHello 0) versionTLS10].flatten
      = wrapHandshakeRecord (paddedHello 0) versionTLS10 := by simp
  have hread := (readHandshake_wrap [] (by decide) hbytes).1
  rw [List.append_nil] at hread
  obtain ⟨ch, hch⟩ := clientHelloOf_paddedHello (n := 0) (by decide) {}
  exact ⟨hread, ch, hch, (replay_legal_iff hread hch).2.2.mpr (by decide)⟩

/-- A hello of 16435 bytes arrives in two records, and is replayed in one that is
too long. -/
theorem replay_long_illegal :
    (Input.mk [] [] (inTwoRecords (paddedHello 16384))).readHandshake.2
        = .ok (paddedHello 16384) ∧
      ∃ ch, clientHelloOf {} (paddedHello 16384) = .ok ch ∧ ch.original = paddedHello 16384 ∧
        ¬ LegalRecords (wrapHandshakeRecord ch.original versionTLS10) (paddedHello 16384) := by
  have hlen := length_paddedHello 16384
  have hmax : maxPlaintext = 16384 := rfl
  have hread : (Input.mk [] [] (inTwoRecords (paddedHello 16384))).readHandshake.2
      = .ok (paddedHello 16384) :=
    readHandshake_inTwoRecords (by omega) (by omega)
      (by rw [handshakeLenAt_paddedHello (by decide)]; omega)
  obtain ⟨ch, hch⟩ := clientHelloOf_paddedHello (n := 16384) (by decide) {}
  have horig := (clientHelloOf_ok hch).2
  refine ⟨hread, ch, hch, horig, ?_⟩
  rw [horig, legalRecords_wrap_iff]
  omega

end Reality
