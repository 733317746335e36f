import Reality.Tls.Channel

/-!
# What is written is what is read

The two ends of a connection seal and open with the same keys and numbers, although each
changes its keys by itself: a receiver WILL be in step with the sender once it has taken
what is on the wire (`Transit`). From this, for every interleaving of both ends: no byte
is lost, doubled or out of place, no record fails to open, and an end of file comes
behind everything that was written.
-/

namespace Reality

open Kit

/-! ## Messages -/

/-- What an end puts into one record. `failed` is the alert behind too many messages. -/
inductive Message where
  | data (p : Bytes)
  | keyUpdate (updateRequested : Bool)
  | closeNotify
  | failed
  deriving DecidableEq

namespace Message

def typ : Message → UInt8
  | .data _ => recordTypeApplicationData
  | .keyUpdate _ => recordTypeHandshake
  | .closeNotify | .failed => recordTypeAlert

def payload : Message → Bytes
  | .data p => p
  | .keyUpdate updateRequested => keyUpdateBytes updateRequested
  | .closeNotify => [alertLevelWarning, alertCloseNotify]
  | .failed => [alertLevelError, alertUnexpectedMessage]

/-- It is one record, and not an empty one. -/
def Fits (m : Message) : Prop := m.payload ≠ [] ∧ m.payload.length ≤ maxPlaintext

/-- The bytes for the reader. -/
def bytes : Message → Bytes
  | .data p => p
  | _ => []

def isKeyUpdate : Message → Bool
  | .keyUpdate _ => true
  | _ => false

/-- The keys of what comes after the message. -/
def rekey (suite : CipherSuiteTLS13) : Message → SecretConn → SecretConn
  | .keyUpdate _, hc => hc.update suite
  | _, hc => hc

theorem typ_ne_zero (m : Message) : m.typ ≠ 0 := by
  cases m with
  | data p =>
      show recordTypeApplicationData ≠ 0
      decide
  | keyUpdate req =>
      show recordTypeHandshake ≠ 0
      decide
  | closeNotify | failed => decide

theorem fits_of_control {m : Message} (h : ∀ p, m ≠ .data p) : m.Fits := by
  cases m with
  | data p => exact absurd rfl (h p)
  | keyUpdate req => exact ⟨by simp [payload, keyUpdateBytes], by
      simp [payload, keyUpdateBytes, maxPlaintext]⟩
  | closeNotify => exact ⟨by simp [payload], by simp [payload, maxPlaintext]⟩
  | failed => exact ⟨by simp [payload], by simp [payload, maxPlaintext]⟩

end Message

/-! ## Keys -/

/-- The ciphers of the suite invert, and add sixteen bytes. -/
structure CipherSuiteTLS13.Sound (suite : CipherSuiteTLS13) : Prop where
  inverts : ∀ secret, (suite.aead secret).Inverts
  overhead : ∀ secret, (suite.aead secret).overhead = 16

/-- A half that sends: it has the cipher of its secret, and pads nothing. -/
structure Sender (suite : CipherSuiteTLS13) (hc : SecretConn) : Prop where
  unarmed : hc.handshakeLen 1 = 0
  keyed : hc.cipher = suite.aead hc.trafficSecret

/-- Two halves with the same secret, cipher and number. -/
structure InStep (r s : SecretConn) : Prop where
  secret : r.trafficSecret = s.trafficSecret
  cipher : r.cipher = s.cipher
  seq : r.seq = s.seq

def SecretConn.withSeq (hc : SecretConn) (seq : SeqNum) : SecretConn := { hc with seq := seq }

variable {suite : CipherSuiteTLS13} {hc hc' r s : SecretConn} {seq : SeqNum} {m : Message}

theorem Sender.withSeq (h : Sender suite hc) (seq : SeqNum) : Sender suite (hc.withSeq seq) :=
  ⟨h.unarmed, h.keyed⟩

theorem Sender.update (h : Sender suite hc) : Sender suite (hc.update suite) := ⟨h.unarmed, rfl⟩

theorem Sender.rekey (h : Sender suite hc) (m : Message) : Sender suite (m.rekey suite hc) := by
  cases m with
  | keyUpdate req => exact h.update
  | _ => exact h

theorem InStep.withSeq (h : InStep r s) (seq : SeqNum) : InStep (r.withSeq seq) (s.withSeq seq) :=
  ⟨h.secret, h.cipher, rfl⟩

theorem InStep.update (h : InStep r s) : InStep (r.update suite) (s.update suite) := by
  have hsecret := congrArg suite.nextTrafficSecret h.secret
  exact ⟨hsecret, congrArg suite.aead hsecret, rfl⟩

theorem InStep.rekey (h : InStep r s) (m : Message) :
    InStep (m.rekey suite r) (m.rekey suite s) := by
  cases m with
  | keyUpdate req => exact h.update
  | _ => exact h

/-! ## One record -/

/-- A record whose header says what it is. -/
structure Framed (record : Bytes) : Prop where
  header : recordHeaderLen ≤ record.length
  version : be16At record 1 = versionTLS12.toNat
  small : be16At record 3 ≤ maxCiphertextTLS13
  whole : recordLenAt record = record.length

/-- The record of a message. -/
def recordOf (hc : SecretConn) (m : Message) : Bytes :=
  hc.sealedRecord versionTLS12 (m.payload ++ [m.typ])

theorem recordOf_framed (hsound : suite.Sound) (h : Sender suite hc) (hm : m.Fits) :
    Framed (recordOf hc m) := by
  have hinv : hc.cipher.Inverts := by
    rw [h.keyed]
    exact hsound.inverts _
  have h16 : hc.cipher.overhead = 16 := by
    rw [h.keyed]
    exact hsound.overhead _
  have hle := hm.2
  have hlen : (m.payload ++ [m.typ]).length = m.payload.length + 1 := by simp
  have htotal := SecureConn.sealedRecord_length hinv versionTLS12 (m.payload ++ [m.typ])
  have hann : be16At (recordOf hc m) 3 = m.payload.length + 17 := by
    rw [recordOf, SecureConn.sealedRecord_announces versionTLS12, hlen, h16]
    rw [hlen, h16]
    rw [maxPlaintext] at hle
    omega
  rw [hlen, h16] at htotal
  constructor
  · show 5 ≤ (hc.sealedRecord versionTLS12 (m.payload ++ [m.typ])).length
    rw [htotal, recordHeaderLen]
    omega
  · show be16 (versionTLS12 >>> 8).toUInt8 versionTLS12.toUInt8 = versionTLS12.toNat
    decide
  · rw [hann, maxCiphertextTLS13]
    rw [maxPlaintext] at hle
    omega
  · rw [recordLenAt, hann, recordOf, htotal]

/-- **Sealing** a message that fits, on a half that pads nothing. -/
theorem encrypt_message (hsound : suite.Sound) (h : Sender suite hc) (m : Message) :
    hc.encrypt (recordHeader m.typ versionTLS12 m.payload.length) m.payload
      = match hc.seq.inc with
        | none => (hc.toSecureConn, .error .wraparound)
        | some seq => ((hc.withSeq seq).toSecureConn, .ok (recordOf hc m)) := by
  have hinv : hc.cipher.Inverts := by
    rw [h.keyed]
    exact hsound.inverts _
  have hinner : hc.innerPlaintext m.typ m.payload
      = (hc.toHalfConn, .ok (m.payload ++ [m.typ])) :=
    SecureConn.innerPlaintext_plain fun _ => h.unarmed
  cases hseq : hc.seq.inc with
  | none =>
      have htyp : (recordHeader m.typ versionTLS12 m.payload.length).getD 0 0 = m.typ := rfl
      unfold SecureConn.encrypt
      rw [htyp, hinner]
      dsimp only
      rw [hseq]
  | some seq => exact SecureConn.encrypt_of_inner hinv hinner hseq versionTLS12 m.payload.length

/-- **Opening** it, on a half in step. -/
theorem decrypt_message (hsound : suite.Sound) (h : Sender suite hc) (hm : m.Fits)
    (hstep : InStep r hc) (hseq : hc.seq.inc = some seq) :
    r.decrypt (recordOf hc m) = ((r.withSeq seq).toSecureConn, .ok (m.payload, m.typ)) := by
  have hinv : hc.cipher.Inverts := by
    rw [h.keyed]
    exact hsound.inverts _
  have hopen := SecureConn.decrypt_sealedRecord (n := 0) hinv hstep.cipher hstep.seq hseq
    m.typ_ne_zero versionTLS12 hm.2
  rw [List.replicate_zero, List.append_nil] at hopen
  exact hopen

/-- A receiving half takes the record of `m` off the wire and has the keys of what
comes next. -/
def Takes (suite : CipherSuiteTLS13) (r : SecretConn) (wire : Bytes) (m : Message)
    (r' : SecretConn) (wire' : Bytes) : Prop :=
  ∃ record seq, wire = record ++ wire' ∧ Framed record ∧ m.Fits ∧
    r.decrypt record = ((r.withSeq seq).toSecureConn, .ok (m.payload, m.typ)) ∧
    r' = m.rekey suite (r.withSeq seq)

theorem Takes.append {wire wire' : Bytes} (more : Bytes) (h : Takes suite r wire m hc wire') :
    Takes suite r (wire ++ more) m hc (wire' ++ more) := by
  obtain ⟨record, seq, hwire, hframed, hfits, hdecrypt, hnext⟩ := h
  refine ⟨record, seq, ?_, hframed, hfits, hdecrypt, hnext⟩
  rw [hwire, List.append_assoc]

/-! ## What a call sends -/

/-- `Emits suite hc wire nonces ms hc'`: a half at `hc` seals the messages `ms`, which are
`wire`, and ends at `hc'`. -/
inductive Emits (suite : CipherSuiteTLS13) :
    SecretConn → Bytes → List (Bytes × SeqNum) → List Message → SecretConn → Prop where
  | nil {hc : SecretConn} : Emits suite hc [] [] [] hc
  | cons {hc hc' : SecretConn} {seq : SeqNum} {m : Message} {wire : Bytes}
      {nonces : List (Bytes × SeqNum)} {ms : List Message} (hm : m.Fits)
      (hseq : hc.seq.inc = some seq)
      (hrest : Emits suite (m.rekey suite (hc.withSeq seq)) wire nonces ms hc') :
      Emits suite hc (recordOf hc m ++ wire) ((hc.trafficSecret, hc.seq) :: nonces) (m :: ms) hc'

variable {wire w : Bytes} {nonces : List (Bytes × SeqNum)} {ms ms' : List Message}

/-- What is emitted is taken. -/
theorem Emits.transit (hsound : suite.Sound) (h : Emits suite hc w nonces ms' hc')
    (hs : Sender suite hc) (ht : Transit (Takes suite) InStep r wire ms hc) :
    Transit (Takes suite) InStep r (wire ++ w) (ms ++ ms') hc' := by
  induction h generalizing wire ms with
  | nil => simpa using ht
  | @cons hc hc' seq m w nonces ms' hm hseq _ ih =>
      have hfirst : Transit (Takes suite) InStep r (wire ++ recordOf hc m) (ms ++ [m])
          (m.rekey suite (hc.withSeq seq)) := by
        apply ht.send fun more htake => Takes.append more htake
        intro r hstep
        refine ⟨m.rekey suite (r.withSeq seq), ?_, (hstep.withSeq seq).rekey m⟩
        exact ⟨recordOf hc m, seq, by simp, recordOf_framed hsound hs hm, hm,
          decrypt_message hsound hs hm hstep hseq, rfl⟩
      have hall := ih ((hs.withSeq seq).rekey m) hfirst
      simpa using hall

/-- What an end changes when it sends. -/
structure SameIn (e e' : ChannelEnd) : Prop where
  endpoint : e'.endpoint = e.endpoint
  inHalf : e'.inHalf = e.inHalf
  inErr : e'.inErr = e.inErr
  retryCount : e'.retryCount = e.retryCount
  maxUselessRecords : e'.maxUselessRecords = e.maxUselessRecords
  hand : e'.hand = e.hand
  input : e'.input = e.input

theorem SameIn.refl (e : ChannelEnd) : SameIn e e := ⟨rfl, rfl, rfl, rfl, rfl, rfl, rfl⟩

theorem SameIn.trans {e e' e'' : ChannelEnd} (h : SameIn e e') (h' : SameIn e' e'') :
    SameIn e e'' :=
  ⟨h'.endpoint.trans h.endpoint, h'.inHalf.trans h.inHalf, h'.inErr.trans h.inErr,
    h'.retryCount.trans h.retryCount, h'.maxUselessRecords.trans h.maxUselessRecords,
    h'.hand.trans h.hand, h'.input.trans h.input⟩

variable {e e' : ChannelEnd} {sent : Sent}

/-- One record of an end that did not say close_notify. -/
theorem sendRecord_spec (hsound : suite.Sound) (hs : Sender suite e.outHalf)
    (hopen : e.closeNotifySent = false)
    (h : e.sendRecord m.typ m.payload = some (e', sent)) :
    ∃ seq, e.outHalf.seq.inc = some seq ∧
      sent = { wire := recordOf e.outHalf m
               nonces := [(e.outHalf.trafficSecret, e.outHalf.seq)] } ∧
      e' = { e with
        outHalf := e.outHalf.withSeq seq
        bytesSent := e.bytesSent + (recordOf e.outHalf m).length } := by
  unfold ChannelEnd.sendRecord at h
  rw [encrypt_message hsound hs m] at h
  cases hseq : e.outHalf.seq.inc with
  | none =>
      rw [hseq] at h
      cases h
  | some seq =>
      rw [hseq] at h
      dsimp only at h
      rw [if_neg (by simp [hopen])] at h
      cases h
      exact ⟨seq, rfl, rfl, rfl⟩

/-- Nothing leaves an end that said close_notify. -/
theorem sendRecord_closed (hsound : suite.Sound) (hs : Sender suite e.outHalf)
    (hclosed : e.closeNotifySent = true)
    (h : e.sendRecord m.typ m.payload = some (e', sent)) :
    ∃ seq, e.outHalf.seq.inc = some seq ∧
      sent = { nonces := [(e.outHalf.trafficSecret, e.outHalf.seq)], ok := false } ∧
      e' = { e with outHalf := e.outHalf.withSeq seq } := by
  unfold ChannelEnd.sendRecord at h
  rw [encrypt_message hsound hs m] at h
  cases hseq : e.outHalf.seq.inc with
  | none =>
      rw [hseq] at h
      cases h
  | some seq =>
      rw [hseq] at h
      dsimp only at h
      rw [if_pos hclosed] at h
      cases h
      exact ⟨seq, rfl, rfl, rfl⟩

/-- `maxPayloadSizeForWrite` counts, and allows between one byte and a full record. -/
theorem maxPayloadSizeForWrite_spec (hsound : suite.Sound) (hs : Sender suite e.outHalf)
    (typ : UInt8) :
    (∃ n, (e.maxPayloadSizeForWrite typ).1 = { e with packetsSent := n }) ∧
      1 ≤ (e.maxPayloadSizeForWrite typ).2 ∧ (e.maxPayloadSizeForWrite typ).2 ≤ maxPlaintext := by
  have h16 : e.outHalf.cipher.overhead = 16 := by
    rw [hs.keyed]
    exact hsound.overhead _
  have hone : 1 ≤ maxPlaintext := by decide
  unfold ChannelEnd.maxPayloadSizeForWrite
  split
  · exact ⟨⟨e.packetsSent, rfl⟩, hone, Nat.le_refl _⟩
  split
  · exact ⟨⟨e.packetsSent, rfl⟩, hone, Nat.le_refl _⟩
  dsimp only
  split
  · exact ⟨⟨e.packetsSent + 1, rfl⟩, hone, Nat.le_refl _⟩
  · refine ⟨⟨e.packetsSent + 1, rfl⟩, ?_, Nat.min_le_right ..⟩
    rw [h16, tcpMSSEstimate, recordHeaderLen, maxPlaintext]
    omega

/-- What a call that writes changes: its sending half, and counters. -/
structure Sends (suite : CipherSuiteTLS13) (e e' : ChannelEnd) (sent : Sent) (ms : List Message) :
    Prop where
  emits : Emits suite e.outHalf sent.wire sent.nonces ms e'.outHalf
  same : SameIn e e'
  outErr : e'.outErr = e.outErr
  closeNotifySent : e'.closeNotifySent = e.closeNotifySent
  owed : e'.owed = e.owed
  ok : sent.ok = true

theorem Sends.none (suite : CipherSuiteTLS13) (e : ChannelEnd) : Sends suite e e {} [] :=
  ⟨.nil, .refl e, rfl, rfl, rfl, rfl⟩

/-- One record, and what follows it. -/
theorem Sends.record {n b : Nat} (hm : m.Fits) (hplain : ∀ hc, m.rekey suite hc = hc)
    (hseq : e.outHalf.seq.inc = some seq)
    (h : Sends suite
      { e with outHalf := e.outHalf.withSeq seq, bytesSent := b, packetsSent := n } e' sent ms) :
    Sends suite e e'
      ⟨recordOf e.outHalf m ++ sent.wire, (e.outHalf.trafficSecret, e.outHalf.seq) :: sent.nonces,
        sent.ok⟩ (m :: ms) := by
  have hsame := h.same
  refine ⟨.cons hm hseq ?_, ?_, h.outErr, h.closeNotifySent, h.owed, h.ok⟩
  · rw [hplain]
    exact h.emits
  · exact ⟨hsame.endpoint, hsame.inHalf, hsame.inErr, hsame.retryCount, hsame.maxUselessRecords,
      hsame.hand, hsame.input⟩

theorem take_fits {data : Bytes} {k : Nat} (hne : data ≠ []) (hpos : 0 < k)
    (hle : k ≤ maxPlaintext) : (Message.data (data.take k)).Fits := by
  have hdata := List.length_pos_of_ne_nil hne
  constructor
  · show data.take k ≠ []
    apply List.ne_nil_of_length_pos
    rw [List.length_take]
    omega
  · show (data.take k).length ≤ maxPlaintext
    rw [List.length_take]
    omega

/-- **`Write` cuts its data into records.** -/
theorem writeData_spec (hsound : suite.Sound) {fuel : Nat} {data : Bytes}
    (hs : Sender suite e.outHalf) (hopen : e.closeNotifySent = false) (hle : data.length ≤ fuel)
    (h : e.writeRecordLocked recordTypeApplicationData fuel data = some (e', sent)) :
    ∃ ms, Sends suite e e' sent ms ∧ ms.flatMap Message.bytes = data ∧
      ∀ m ∈ ms, ∃ p, m = .data p := by
  induction fuel generalizing e data sent with
  | zero =>
      have hnil : data = [] := List.length_eq_zero_iff.mp (Nat.le_zero.mp hle)
      cases h
      exact ⟨[], .none suite _, hnil.symm, by simp⟩
  | succ fuel ih =>
      unfold ChannelEnd.writeRecordLocked at h
      split at h
      next hnil =>
        cases h
        exact ⟨[], .none suite _, hnil.symm, by simp⟩
      next hne =>
        obtain ⟨⟨n, hsized⟩, hpos, hmax⟩ :=
          maxPayloadSizeForWrite_spec hsound hs recordTypeApplicationData
        dsimp only at h
        rw [hsized] at h
        have hdata := List.length_pos_of_ne_nil hne
        generalize hk : min data.length (e.maxPayloadSizeForWrite recordTypeApplicationData).2 = k
          at h
        have hfits := take_fits (k := k) hne (by omega) (by omega)
        cases hrec : ({ e with packetsSent := n } : ChannelEnd).sendRecord
            recordTypeApplicationData (data.take k) with
        | none =>
            rw [hrec] at h
            cases h
        | some x =>
            obtain ⟨e₁, s₁⟩ := x
            rw [hrec] at h
            obtain ⟨seq, hseq, rfl, rfl⟩ := sendRecord_spec (m := .data (data.take k)) hsound
              (e := { e with packetsSent := n }) hs hopen hrec
            dsimp only at h
            rw [if_neg (by simp)] at h
            split at h
            · cases h
            next e₂ s₂ hrest =>
              cases h
              have hlen : (data.drop k).length ≤ fuel := by
                rw [List.length_drop]
                omega
              obtain ⟨ms, hsends, hbytes, hall⟩ := ih (by exact hs.withSeq seq) (by exact hopen)
                hlen hrest
              refine ⟨.data (data.take k) :: ms, .record hfits (fun _ => rfl) hseq hsends, ?_, ?_⟩
              · rw [List.flatMap_cons, hbytes]
                exact List.take_append_drop k data
              · intro m hm
                rcases List.mem_cons.mp hm with rfl | hm
                · exact ⟨_, rfl⟩
                · exact hall m hm

/-- A message that is no data is one record. -/
theorem writeControl_eq (hm : ∀ p, m ≠ .data p) (e : ChannelEnd) (fuel : Nat) :
    e.writeRecordLocked m.typ (fuel + 1) m.payload = e.sendRecord m.typ m.payload := by
  have hfits := Message.fits_of_control hm
  have htyp : m.typ ≠ recordTypeApplicationData := by
    cases m with
    | data p => exact absurd rfl (hm p)
    | keyUpdate req =>
        show recordTypeHandshake ≠ recordTypeApplicationData
        decide
    | closeNotify | failed => decide
  have hsized : e.maxPayloadSizeForWrite m.typ = (e, maxPlaintext) :=
    if_pos (by simp [htyp])
  have hnil : ∀ e : ChannelEnd, e.writeRecordLocked m.typ fuel [] = some (e, {}) := by
    intro e
    cases fuel <;> rfl
  unfold ChannelEnd.writeRecordLocked
  rw [if_neg hfits.1, hsized]
  dsimp only
  rw [Nat.min_eq_left hfits.2, List.take_length, List.drop_length]
  cases hrec : e.sendRecord m.typ m.payload with
  | none => rfl
  | some x =>
      obtain ⟨e', s⟩ := x
      dsimp only
      rw [hnil]
      cases hok : s.ok with
      | false => simp
      | true =>
          obtain ⟨wire, nonces, ok⟩ := s
          simp_all

/-- `Seals suite hc nonces k hc'`: from `hc` to `hc'` a record was sealed under each of the
nonces, and the secret was replaced `k` times in between. -/
inductive Seals (suite : CipherSuiteTLS13) :
    SecretConn → List (Bytes × SeqNum) → Nat → SecretConn → Prop where
  | nil {hc : SecretConn} : Seals suite hc [] 0 hc
  | record {hc hc' : SecretConn} {seq : SeqNum} {nonces : List (Bytes × SeqNum)} {k : Nat}
      (hseq : hc.seq.inc = some seq) (hrest : Seals suite (hc.withSeq seq) nonces k hc') :
      Seals suite hc ((hc.trafficSecret, hc.seq) :: nonces) k hc'
  | update {hc hc' : SecretConn} {nonces : List (Bytes × SeqNum)} {k : Nat}
      (hrest : Seals suite (hc.update suite) nonces k hc') : Seals suite hc nonces (k + 1) hc'

theorem Seals.sender {k : Nat} (h : Seals suite hc nonces k hc') (hs : Sender suite hc) :
    Sender suite hc' := by
  induction h with
  | nil => exact hs
  | record _ _ ih => exact ih (hs.withSeq _)
  | update _ ih => exact ih hs.update

theorem Emits.seals (h : Emits suite hc wire nonces ms hc') :
    Seals suite hc nonces (ms.countP Message.isKeyUpdate) hc' := by
  induction h with
  | nil => exact .nil
  | @cons hc hc' seq m _ _ _ _ hseq _ ih =>
      rw [List.countP_cons]
      cases m with
      | keyUpdate req => exact .record hseq (.update ih)
      | _ => exact .record hseq ih

/-- What a step that sends does: it puts the messages `ms` on the wire, unless the end
said close_notify before. -/
structure Puts (suite : CipherSuiteTLS13) (e e' : ChannelEnd) (sent : Sent) (ms : List Message) :
    Prop where
  same : SameIn e e'
  seals : Seals suite e.outHalf sent.nonces (ms.countP Message.isKeyUpdate) e'.outHalf
  emits : e.closeNotifySent = false →
    Emits suite e.outHalf sent.wire sent.nonces ms e'.outHalf
  silent : e.closeNotifySent = true → sent.wire = [] ∧ ms = []
  closing : e'.closeNotifySent = true ↔ e.closeNotifySent = true ∨ .closeNotify ∈ ms
  last : .closeNotify ∈ ms → ms = [.closeNotify]
  failing : .failed ∈ ms → e.inErr = some .tooManyNonAdvancing
  owed : e'.owed = e.owed ∨ e'.owed = .nothing

theorem Sends.puts (h : Sends suite e e' sent ms) (hopen : e.closeNotifySent = false)
    (hclose : .closeNotify ∉ ms) (hfail : .failed ∉ ms) : Puts suite e e' sent ms where
  same := h.same
  seals := h.emits.seals
  emits := fun _ => h.emits
  silent := fun hclosed => by
    rw [hopen] at hclosed
    cases hclosed
  closing := by simp [h.closeNotifySent, hopen, hclose]
  last := fun hmem => absurd hmem hclose
  failing := fun hmem => absurd hmem hfail
  owed := .inl h.owed

theorem Puts.none (suite : CipherSuiteTLS13) (e : ChannelEnd) : Puts suite e e {} [] where
  same := .refl e
  seals := .nil
  emits := fun _ => .nil
  silent := fun _ => ⟨rfl, rfl⟩
  closing := by simp
  last := fun h => by cases h
  failing := fun h => by cases h
  owed := .inl rfl

/-! ## The calls that send -/

theorem write_puts (hsound : suite.Sound) (hs : Sender suite e.outHalf) {data took : Bytes}
    (h : e.write data = some (e', sent, took)) :
    ∃ ms, Puts suite e e' sent ms ∧ ms.flatMap Message.bytes = took ∧
      ms.countP Message.isKeyUpdate = 0 := by
  unfold ChannelEnd.write at h
  split at h
  · cases h
    exact ⟨[], .none suite _, rfl, rfl⟩
  next hcond =>
    simp only [Bool.or_eq_true, not_or, Bool.not_eq_true] at hcond
    split at h
    · cases h
    next e₁ s₁ hwrite =>
      obtain ⟨ms, hsends, hbytes, hall⟩ :=
        writeData_spec hsound hs hcond.2 (Nat.le_refl _) hwrite
      rw [if_pos hsends.ok] at h
      cases h
      refine ⟨ms, hsends.puts hcond.2 ?_ ?_, hbytes, ?_⟩
      · intro hmem
        obtain ⟨p, hp⟩ := hall _ hmem
        cases hp
      · intro hmem
        obtain ⟨p, hp⟩ := hall _ hmem
        cases hp
      · rw [List.countP_eq_zero]
        intro m hm
        obtain ⟨p, rfl⟩ := hall m hm
        exact Bool.false_ne_true

/-- One record of a message that is no data. -/
theorem sendControl_open (hsound : suite.Sound) (hs : Sender suite e.outHalf)
    (hopen : e.closeNotifySent = false) (hm : ∀ p, m ≠ .data p)
    (h : e.sendRecord m.typ m.payload = some (e', sent)) :
    sent.ok = true ∧ e'.closeNotifySent = false ∧ SameIn e e' ∧ e'.owed = e.owed ∧
      Emits suite e.outHalf sent.wire sent.nonces [m] (m.rekey suite e'.outHalf) := by
  obtain ⟨seq, hseq, rfl, rfl⟩ := sendRecord_spec hsound hs hopen h
  refine ⟨rfl, hopen, ⟨rfl, rfl, rfl, rfl, rfl, rfl, rfl⟩, rfl, ?_⟩
  have hnil : Emits suite (m.rekey suite (e.outHalf.withSeq seq)) [] [] []
      (m.rekey suite (e.outHalf.withSeq seq)) := .nil
  have hone := Emits.cons (Message.fits_of_control hm) hseq hnil
  rw [List.append_nil] at hone
  exact hone

/-- The same, of an end that said close_notify. -/
theorem sendControl_closed (hsound : suite.Sound) (hs : Sender suite e.outHalf)
    (hclosed : e.closeNotifySent = true)
    (h : e.sendRecord m.typ m.payload = some (e', sent)) :
    sent.wire = [] ∧ sent.ok = false ∧ e'.closeNotifySent = true ∧ SameIn e e' ∧
      e'.owed = e.owed ∧ Seals suite e.outHalf sent.nonces 0 e'.outHalf := by
  obtain ⟨seq, hseq, rfl, rfl⟩ := sendRecord_closed hsound hs hclosed h
  exact ⟨rfl, rfl, hclosed, ⟨rfl, rfl, rfl, rfl, rfl, rfl, rfl⟩, rfl, .record hseq .nil⟩

/-- An end `e₁` has sealed the record of `m`, and `e'` is what the call makes of it. -/
theorem control_puts {e₁ : ChannelEnd} (hsound : suite.Sound) (hs : Sender suite e.outHalf)
    (hm : ∀ p, m ≠ .data p) (hrec : e.sendRecord m.typ m.payload = some (e₁, sent))
    (hopen : e.closeNotifySent = false) (hin : SameIn e₁ e')
    (hout : e'.outHalf = m.rekey suite e₁.outHalf)
    (hclose : e'.closeNotifySent = true ↔ m = .closeNotify)
    (hfail : m = .failed → e.inErr = some .tooManyNonAdvancing)
    (howed : e'.owed = e₁.owed ∨ e'.owed = .nothing) : Puts suite e e' sent [m] := by
  obtain ⟨-, -, hsame, howed₁, hemits⟩ := sendControl_open hsound hs hopen hm hrec
  rw [← hout] at hemits
  rw [howed₁] at howed
  exact {
    same := hsame.trans hin
    seals := hemits.seals
    emits := fun _ => hemits
    silent := fun hclosed => by
      rw [hopen] at hclosed
      cases hclosed
    closing := by
      rw [hclose, hopen]
      simp [eq_comm]
    last := fun hmem => by rw [List.mem_singleton.mp hmem]
    failing := fun hmem => hfail (List.mem_singleton.mp hmem).symm
    owed := howed }

theorem control_puts_nothing {e₁ : ChannelEnd} (hsound : suite.Sound)
    (hs : Sender suite e.outHalf) (hrec : e.sendRecord m.typ m.payload = some (e₁, sent))
    (hclosed : e.closeNotifySent = true) (hin : SameIn e₁ e') (hout : e'.outHalf = e₁.outHalf)
    (hstill : e'.closeNotifySent = e₁.closeNotifySent)
    (howed : e'.owed = e₁.owed ∨ e'.owed = .nothing) : Puts suite e e' sent [] := by
  obtain ⟨hwire, -, hstill₁, hsame, howed₁, hseals⟩ := sendControl_closed hsound hs hclosed hrec
  rw [← hout] at hseals
  rw [howed₁] at howed
  exact {
    same := hsame.trans hin
    seals := hseals
    emits := fun hopen => by
      rw [hclosed] at hopen
      cases hopen
    silent := fun _ => ⟨hwire, rfl⟩
    closing := by simp [hstill, hstill₁, hclosed]
    last := fun hmem => by cases hmem
    failing := fun hmem => by cases hmem
    owed := howed }

theorem closeWrite_puts (hsound : suite.Sound) (hs : Sender suite e.outHalf)
    (h : e.closeWrite = some (e', sent)) : ∃ ms, Puts suite e e' sent ms ∧
      ms.flatMap Message.bytes = [] ∧ ms.countP Message.isKeyUpdate = 0 := by
  have hm : ∀ p, Message.closeNotify ≠ .data p := fun p hp => by cases hp
  unfold ChannelEnd.closeWrite ChannelEnd.sendAlertLocked at h
  split at h
  · cases h
    exact ⟨[], .none suite _, rfl, rfl⟩
  next hopen =>
    rw [Bool.not_eq_true] at hopen
    have heq : e.writeRecordLocked recordTypeAlert 2 [alertLevelWarning, alertCloseNotify]
        = e.sendRecord Message.closeNotify.typ Message.closeNotify.payload := writeControl_eq hm e 1
    dsimp only at h
    rw [if_pos rfl, heq] at h
    cases hrec : e.sendRecord Message.closeNotify.typ Message.closeNotify.payload with
    | none =>
        rw [hrec] at h
        cases h
    | some x =>
        rw [hrec] at h
        cases h
        exact ⟨[.closeNotify], control_puts hsound hs hm hrec hopen
          ⟨rfl, rfl, rfl, rfl, rfl, rfl, rfl⟩ rfl (by simp) (fun h => by cases h) (.inl rfl), rfl,
          rfl⟩

theorem sendKeyUpdate_puts (hsound : suite.Sound) (hs : Sender suite e.outHalf) {req : Bool}
    (h : e.sendKeyUpdate suite req = some (e', sent)) : ∃ ms, Puts suite e e' sent ms ∧
      ms.flatMap Message.bytes = [] ∧ ms.countP Message.isKeyUpdate ≤ 1 := by
  have hm : ∀ p, Message.keyUpdate req ≠ .data p := fun p hp => by cases hp
  have heq : e.writeRecordLocked recordTypeHandshake 5 (keyUpdateBytes req)
      = e.sendRecord (Message.keyUpdate req).typ (Message.keyUpdate req).payload :=
    writeControl_eq hm e 4
  unfold ChannelEnd.sendKeyUpdate at h
  rw [heq] at h
  cases hrec : e.sendRecord (Message.keyUpdate req).typ (Message.keyUpdate req).payload with
  | none =>
      rw [hrec] at h
      cases h
  | some x =>
      obtain ⟨e₁, s₁⟩ := x
      rw [hrec] at h
      dsimp only at h
      cases hclosed : e.closeNotifySent with
      | false =>
          obtain ⟨hok, hopen, -⟩ := sendControl_open hsound hs hclosed hm hrec
          rw [if_pos hok] at h
          cases h
          exact ⟨[.keyUpdate req], control_puts hsound hs hm hrec hclosed
            ⟨rfl, rfl, rfl, rfl, rfl, rfl, rfl⟩ rfl (by simp [hopen]) (fun h => by cases h)
            (.inl rfl), rfl, Nat.le_refl 1⟩
      | true =>
          obtain ⟨-, hok, -⟩ := sendControl_closed hsound hs hclosed hrec
          rw [if_neg (by simp [hok])] at h
          cases h
          exact ⟨[], control_puts_nothing hsound hs hrec hclosed
            ⟨rfl, rfl, rfl, rfl, rfl, rfl, rfl⟩ rfl rfl (.inl rfl), rfl, Nat.zero_le 1⟩

/-- The alert behind too many messages. -/
theorem sendAlert_puts (hsound : suite.Sound) (hs : Sender suite e.outHalf)
    (hblame : e.inErr = some .tooManyNonAdvancing)
    (h : e.sendAlertLocked alertUnexpectedMessage = some (e', sent)) :
    ∃ ms, Puts suite e e' sent ms ∧ ms.flatMap Message.bytes = [] ∧
      ms.countP Message.isKeyUpdate ≤ 1 := by
  have hm : ∀ p, Message.failed ≠ .data p := fun p hp => by cases hp
  have heq : e.writeRecordLocked recordTypeAlert 2 [alertLevelError, alertUnexpectedMessage]
      = e.sendRecord Message.failed.typ Message.failed.payload := writeControl_eq hm e 1
  unfold ChannelEnd.sendAlertLocked at h
  dsimp only at h
  rw [if_neg (by decide), heq] at h
  cases hrec : e.sendRecord Message.failed.typ Message.failed.payload with
  | none =>
      rw [hrec] at h
      cases h
  | some x =>
      obtain ⟨e₁, s₁⟩ := x
      rw [hrec] at h
      dsimp only at h
      rw [if_neg (by decide)] at h
      cases h
      cases hclosed : e.closeNotifySent with
      | false =>
          obtain ⟨-, hopen, -⟩ := sendControl_open hsound hs hclosed hm hrec
          exact ⟨[.failed], control_puts hsound hs hm hrec hclosed
            ⟨rfl, rfl, rfl, rfl, rfl, rfl, rfl⟩ rfl (by simp [hopen]) (fun _ => hblame)
            (.inl rfl), rfl, Nat.zero_le 1⟩
      | true =>
          exact ⟨[], control_puts_nothing hsound hs hrec hclosed
            ⟨rfl, rfl, rfl, rfl, rfl, rfl, rfl⟩ rfl rfl (.inl rfl), rfl, Nat.zero_le 1⟩

/-- What the reader owed is no longer owed. -/
theorem Puts.paid (h : Puts suite { e with owed := .nothing } e' sent ms) :
    Puts suite e e' sent ms ∧ e'.owed = .nothing := by
  have howed : e'.owed = .nothing := by
    rcases h.owed with howed | howed
    · exact howed
    · exact howed
  have hsame := h.same
  exact ⟨{
    same := ⟨hsame.endpoint, hsame.inHalf, hsame.inErr, hsame.retryCount,
      hsame.maxUselessRecords, hsame.hand, hsame.input⟩
    seals := h.seals
    emits := h.emits
    silent := h.silent
    closing := h.closing
    last := h.last
    failing := h.failing
    owed := .inr howed }, howed⟩

/-- An end owes an alert only when it had too many messages. -/
def Blameless (e : ChannelEnd) : Prop :=
  ∀ code, e.owed = .alert code →
    code = alertUnexpectedMessage ∧ e.inErr = some .tooManyNonAdvancing

theorem respond_puts (hsound : suite.Sound) (hs : Sender suite e.outHalf)
    (hblame : Blameless e) (h : e.respond suite = some (e', sent)) :
    ∃ ms, Puts suite e e' sent ms ∧ ms.flatMap Message.bytes = [] ∧
      ms.countP Message.isKeyUpdate ≤ 1 := by
  unfold ChannelEnd.respond at h
  cases howed : e.owed with
  | nothing =>
      rw [howed] at h
      cases h
  | keyUpdate =>
      rw [howed] at h
      obtain ⟨ms, hputs, hbytes⟩ :=
        sendKeyUpdate_puts (e := { e with owed := .nothing }) hsound hs h
      exact ⟨ms, hputs.paid.1, hbytes⟩
  | alert code =>
      rw [howed] at h
      obtain ⟨rfl, htoo⟩ := hblame code howed
      obtain ⟨ms, hputs, hbytes⟩ :=
        sendAlert_puts (e := { e with owed := .nothing }) hsound hs htoo h
      exact ⟨ms, hputs.paid.1, hbytes⟩

end Reality
