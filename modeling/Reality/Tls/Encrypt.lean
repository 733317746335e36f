import Mathlib.Logic.Function.Basic
import Reality.Tls.Record

/-!
# Padding the server's flight

`halfConn.encrypt` (conn.go) pads each handshake record of an armed
connection to the length of its slot, and fails when the slot is shorter than
the record. A slot that was never filled is a slot of length ZERO, so a record
for which no length was learned makes the handshake fail.

The AEAD is a parameter, of which only the overhead counts.
-/

namespace Reality

open Kit

def typeNewSessionTicket : UInt8 := 4

def typeEncryptedExtensions : UInt8 := 8

def typeCertificate : UInt8 := 11

def typeCertificateRequest : UInt8 := 13

def typeCertificateVerify : UInt8 := 15

def typeFinished : UInt8 := 20

/-- The fields of `halfConn` that the padding reads. Slot 1 arms it. -/
structure HalfConn where
  handshakeLen : RecordLens
  handshakeBuf : Option Bytes := none
  deriving DecidableEq

/-- `padding` is the error of the source, with the slot it was taken from;
`empty[:padding]` panics beyond the end of `empty`. -/
inductive EncryptError where
  | padding (payload0 : UInt8) (found : Option Int) (padding : Int)
  | outOfRange
  deriving DecidableEq

/-- `len(empty)` -/
def emptyLen : Nat := 8192

/-- The slot a record is padded to, by its first message. -/
def paddingSlot (t : UInt8) : Option (Fin 7) :=
  if t = typeEncryptedExtensions then some 2
  else if t = typeCertificate then some 3
  else if t = typeCertificateVerify then some 4
  else if t = typeFinished then some 5
  else if t = typeNewSessionTicket then some 6
  else none

namespace HalfConn

/-- A slot is used once. -/
def clearSlot (hc : HalfConn) (s : Option (Fin 7)) : HalfConn :=
  match s with
  | some i => { hc with handshakeLen := Function.update hc.handshakeLen i 0 }
  | none => hc

/-- `encrypt` of a handshake record under the keys of TLS 1.3: the state and
the length of the record. -/
def encrypt (overhead : Nat) (hc : HalfConn) (payload : Bytes) :
    Except EncryptError (HalfConn × Nat) :=
  let len := recordHeaderLen + payload.length + 1
  if hc.handshakeLen 1 = 0 then .ok (hc, len + overhead)
  else
    let t := payload.headD 0
    let found := (paddingSlot t).map hc.handshakeLen
    let padding := found.getD 0 - (len + overhead : Nat)
    if padding < 0 then .error (.padding t found padding)
    else if padding > emptyLen then .error .outOfRange
    else .ok (hc.clearSlot (paddingSlot t), len + padding.toNat + overhead)

/-- The loop of `writeRecordLocked`: the lengths of the records. -/
def writeRecords (overhead : Nat) : Nat → HalfConn → Bytes →
    Except EncryptError (HalfConn × List Nat)
  | 0, hc, _ => .ok (hc, [])
  | n + 1, hc, data =>
      if data = [] then .ok (hc, [])
      else
        let m := min data.length maxPlaintext
        match hc.encrypt overhead (data.take m) with
        | .error e => .error e
        | .ok (hc, len) =>
            match writeRecords overhead n hc (data.drop m) with
            | .error e => .error e
            | .ok (hc, lens) => .ok (hc, len :: lens)

def writeRecord (overhead : Nat) (hc : HalfConn) (data : Bytes) :
    Except EncryptError (HalfConn × List Nat) :=
  writeRecords overhead data.length hc data

/-- `writeHandshakeRecord`: with a buffer, the messages are kept back until
Finished and go out as one. -/
def writeHandshakeRecord (overhead : Nat) (hc : HalfConn) (data : Bytes) :
    Except EncryptError (HalfConn × List Nat) :=
  match hc.handshakeBuf with
  | none => hc.writeRecord overhead data
  | some buf =>
      if data = [] || data.headD 0 = typeServerHello then hc.writeRecord overhead data
      else if data.headD 0 ≠ typeFinished then
        .ok ({ hc with handshakeBuf := some (buf ++ data) }, [])
      else { hc with handshakeBuf := none }.writeRecord overhead (buf ++ data)

/-- Several messages in a row. -/
def writeMessages (overhead : Nat) : List Bytes → HalfConn →
    Except EncryptError (HalfConn × List Nat)
  | [], hc => .ok (hc, [])
  | data :: rest, hc =>
      match hc.writeHandshakeRecord overhead data with
      | .error e => .error e
      | .ok (hc, lens) =>
          match writeMessages overhead rest hc with
          | .error e => .error e
          | .ok (hc, more) => .ok (hc, lens ++ more)

end HalfConn

/-- The encrypted messages of `handshake`, each of its own type. -/
structure Flight where
  encryptedExtensions : Bytes
  certificateRequest : Option Bytes
  certificate : Bytes
  certificateVerify : Bytes
  finished : Bytes
  isExtensions : encryptedExtensions.head? = some typeEncryptedExtensions
  isRequest : ∀ m ∈ certificateRequest, m.head? = some typeCertificateRequest
  isCertificate : certificate.head? = some typeCertificate
  isVerify : certificateVerify.head? = some typeCertificateVerify
  isFinished : finished.head? = some typeFinished

/-- The REALITY server asks for no client certificate. -/
theorem request_of_none (m : Bytes) (h : m ∈ (none : Option Bytes)) :
    m.head? = some typeCertificateRequest := absurd h (Option.not_mem_none m)

def Flight.messages (f : Flight) : List Bytes :=
  [f.encryptedExtensions] ++ f.certificateRequest.toList ++
    [f.certificate, f.certificateVerify, f.finished]

/-- `sendServerParameters`, `sendServerCertificate` and `sendServerFinished`
on a connection that has its keys. -/
def HalfConn.sendFlight (overhead : Nat) (hc : HalfConn) (f : Flight) :
    Except EncryptError (HalfConn × List Nat) :=
  hc.writeMessages overhead f.messages

/-! ## Which slots a flight finds -/

/-- The record was to be padded to a slot that holds no length. -/
def EncryptError.EmptySlot : EncryptError → Prop
  | .padding _ found _ => found = some 0
  | .outOfRange => False

/-- The slot of the record that starts with this message. -/
def slotOf (data : Bytes) : Option (Fin 7) := paddingSlot (data.headD 0)

namespace HalfConn

variable {overhead : Nat} {hc : HalfConn} {data : Bytes}

/-- The lengths fit a record, so no padded record is split. -/
def Bounded (hc : HalfConn) : Prop :=
  ∀ i, i ≠ 0 → hc.handshakeLen i ≤ maxTLSRecordPayload

theorem Bounded.clearSlot (h : Bounded hc) (s : Option (Fin 7)) : Bounded (hc.clearSlot s) := by
  cases s with
  | none => exact h
  | some i =>
      intro j h0
      by_cases hj : j = i
      · simp [HalfConn.clearSlot, hj]
      · simpa [HalfConn.clearSlot, hj] using h j h0

theorem slotOf_ne_zero : slotOf data ≠ some 0 := by
  unfold slotOf paddingSlot
  split_ifs <;> decide

theorem clearSlot_of_ne {s : Option (Fin 7)} {i : Fin 7} (h : s ≠ some i) :
    (hc.clearSlot s).handshakeLen i = hc.handshakeLen i := by
  cases s with
  | none => rfl
  | some j => exact Function.update_of_ne (fun he => h (by rw [he])) _ _

theorem encrypt_unarmed (h : hc.handshakeLen 1 = 0) (payload : Bytes) :
    hc.encrypt overhead payload = .ok (hc, recordHeaderLen + payload.length + 1 + overhead) :=
  if_pos h

theorem writeRecords_unarmed (h : hc.handshakeLen 1 = 0) (overhead n : Nat) (data : Bytes) :
    ∃ lens, writeRecords overhead n hc data = .ok (hc, lens) := by
  induction n generalizing data with
  | zero => exact ⟨[], rfl⟩
  | succ n ih =>
      rw [writeRecords]
      split
      · exact ⟨[], rfl⟩
      · obtain ⟨lens, hlens⟩ := ih (data.drop (min data.length maxPlaintext))
        dsimp only
        rw [encrypt_unarmed h]
        dsimp only
        rw [hlens]
        exact ⟨_, rfl⟩

/-- What `encrypt` pads to: a filled slot in which the record fits. -/
theorem encrypt_ok {hc' : HalfConn} {len : Nat} (harmed : hc.handshakeLen 1 ≠ 0)
    (h : hc.encrypt overhead data = .ok (hc', len)) :
    ∃ i, slotOf data = some i ∧ hc' = hc.clearSlot (some i) ∧
      (data.length : Int) < hc.handshakeLen i := by
  rw [encrypt, if_neg harmed] at h
  dsimp only at h
  split at h
  · cases h
  next hpad =>
    split at h
    · cases h
    · cases h
      cases hs : paddingSlot (data.headD 0) with
      | none =>
          rw [hs] at hpad
          simp only [Option.map_none, Option.getD_none] at hpad
          omega
      | some i =>
          refine ⟨i, hs, rfl, ?_⟩
          rw [hs] at hpad
          simp only [Option.map_some, Option.getD_some] at hpad
          omega

theorem encrypt_error {e : EncryptError} (h : hc.encrypt overhead data = .error e)
    (hslot : ∀ i, slotOf data = some i → hc.handshakeLen i ≠ 0) : ¬ e.EmptySlot := by
  unfold encrypt at h
  split at h
  · cases h
  · dsimp only at h
    split at h
    · cases h
      intro hempty
      obtain ⟨i, hi, h0⟩ := Option.map_eq_some_iff.mp hempty
      exact hslot i hi h0
    · split at h
      · cases h
        exact id
      · cases h

theorem slotOf_take (data : Bytes) {m : Nat} (hm : 0 < m) :
    slotOf (data.take m) = slotOf data := by
  cases data with
  | nil => simp
  | cons b rest =>
      obtain ⟨k, rfl⟩ : ∃ k, m = k + 1 := ⟨m - 1, by omega⟩
      rfl

/-- One message: its slot is used up, and an error does not come from an
empty slot. -/
theorem writeRecord_spec (overhead : Nat) (hb : Bounded hc) (hne : data ≠ [])
    (hslot : ∀ i, slotOf data = some i → hc.handshakeLen i ≠ 0) :
    match hc.writeRecord overhead data with
    | .error e => ¬ e.EmptySlot
    | .ok (hc', _) => hc' = hc ∨ hc' = hc.clearSlot (slotOf data) := by
  by_cases harmed : hc.handshakeLen 1 = 0
  · obtain ⟨lens, hlens⟩ := writeRecords_unarmed harmed overhead data.length data
    rw [writeRecord, hlens]
    exact .inl rfl
  · have hpos := List.length_pos_of_ne_nil hne
    have hm : 0 < min data.length maxPlaintext := by
      simp only [maxPlaintext]
      omega
    have htake := slotOf_take data hm
    obtain ⟨n, hn⟩ : ∃ n, data.length = n + 1 := ⟨data.length - 1, by omega⟩
    rw [writeRecord, hn, writeRecords, if_neg hne]
    dsimp only
    cases he : hc.encrypt overhead (data.take (min data.length maxPlaintext)) with
    | error e => exact encrypt_error he (fun i hi => hslot i (htake ▸ hi))
    | ok r =>
        obtain ⟨hc', len⟩ := r
        obtain ⟨i, hi, rfl, hlt⟩ := encrypt_ok harmed he
        -- The record fits its slot, so it took the whole message.
        have hwhole : data.length ≤ min data.length maxPlaintext := by
          have := hb i (fun h0 => slotOf_ne_zero (h0 ▸ hi))
          simp only [List.length_take, maxPlaintext, maxTLSRecordPayload] at hlt this ⊢
          omega
        dsimp only
        rw [List.drop_eq_nil_of_le hwhole]
        have hnil : writeRecords overhead n (hc.clearSlot (some i)) []
            = .ok (hc.clearSlot (some i), []) := by
          cases n <;> rfl
        rw [hnil]
        refine .inr ?_
        rw [← htake, hi]

theorem writeRecord_error (hb : Bounded hc) {i : Fin 7} (hs : slotOf data = some i)
    (hi : hc.handshakeLen i ≠ 0) {e : EncryptError}
    (he : hc.writeRecord overhead data = .error e) : ¬ e.EmptySlot := by
  have hne : data ≠ [] := by
    rintro rfl
    cases hs
  have hspec := writeRecord_spec overhead hb hne (fun j hj => by
    cases hs.symm.trans hj
    exact hi)
  rw [he] at hspec
  exact hspec

/-- Messages with filled slots, each with its own. -/
structure Ready (hc : HalfConn) (msgs : List Bytes) : Prop where
  bounded : Bounded hc
  nonempty : ∀ m ∈ msgs, m ≠ []
  filled : ∀ m ∈ msgs, ∀ i, slotOf m = some i → hc.handshakeLen i ≠ 0
  distinct : msgs.Pairwise fun a b => ∀ i, slotOf a = some i → slotOf b ≠ some i

theorem Ready.tail {msg : Bytes} {msgs : List Bytes} (h : Ready hc (msg :: msgs)) :
    Ready (hc.clearSlot (slotOf msg)) msgs := by
  obtain ⟨hmsg, hrest⟩ := List.pairwise_cons.mp h.distinct
  refine ⟨h.bounded.clearSlot _, fun m hm => h.nonempty m (List.mem_cons_of_mem _ hm), ?_, hrest⟩
  intro m hm i hi
  rw [clearSlot_of_ne (fun hs => hmsg m hm i hs hi)]
  exact h.filled m (List.mem_cons_of_mem _ hm) i hi

theorem Ready.skip {msg : Bytes} {msgs : List Bytes} (h : Ready hc (msg :: msgs)) :
    Ready hc msgs :=
  ⟨h.bounded, fun m hm => h.nonempty m (List.mem_cons_of_mem _ hm),
    fun m hm => h.filled m (List.mem_cons_of_mem _ hm), (List.pairwise_cons.mp h.distinct).2⟩

/-- Without a buffer each message is a record of its own. -/
theorem Ready.writeMessages {msgs : List Bytes} (h : Ready hc msgs)
    (hbuf : hc.handshakeBuf = none) {e : EncryptError}
    (he : hc.writeMessages overhead msgs = .error e) : ¬ e.EmptySlot := by
  induction msgs generalizing hc with
  | nil => cases he
  | cons msg msgs ih =>
      have hmsg := writeRecord_spec overhead h.bounded
        (h.nonempty msg List.mem_cons_self) (h.filled msg List.mem_cons_self)
      have hwrite : hc.writeHandshakeRecord overhead msg = hc.writeRecord overhead msg := by
        rw [writeHandshakeRecord, hbuf]
      rw [HalfConn.writeMessages, hwrite] at he
      cases hw : hc.writeRecord overhead msg with
      | error e' =>
          rw [hw] at he hmsg
          cases he
          exact hmsg
      | ok r =>
          obtain ⟨hc', lens⟩ := r
          rw [hw] at he hmsg
          dsimp only at he hmsg
          cases hrest : hc'.writeMessages overhead msgs with
          | error e' =>
              rw [hrest] at he
              cases he
              rcases hmsg with rfl | rfl
              · exact ih h.skip hbuf hrest
              · refine ih h.tail ?_ hrest
                cases slotOf msg <;> exact hbuf
          | ok r' =>
              rw [hrest] at he
              cases he

end HalfConn

theorem headD_of_head {data : Bytes} {t : UInt8} (h : data.head? = some t) :
    data.headD 0 = t := by
  rw [List.headD_eq_head?_getD, h]
  rfl

theorem slotOf_of_head {data : Bytes} {t : UInt8} (h : data.head? = some t) :
    slotOf data = paddingSlot t := by
  rw [slotOf, headD_of_head h]

theorem ne_nil_of_head {data : Bytes} {t : UInt8} (h : data.head? = some t) : data ≠ [] := by
  rintro rfl
  cases h

/-- The slots of EncryptedExtensions, Certificate, CertificateVerify and
Finished hold lengths. -/
def FlightFilled (lens : RecordLens) : Prop := ∀ i : Fin 7, 2 ≤ i → i ≤ 5 → lens i ≠ 0

namespace Flight

variable (f : Flight)

theorem slotOf_mem {m : Bytes} (hm : m ∈ f.messages) : m ≠ [] ∧
    (slotOf m = none ∨ ∃ i : Fin 7, 2 ≤ i ∧ i ≤ 5 ∧ slotOf m = some i) := by
  have hslot : ∀ {t}, m.head? = some t → slotOf m = paddingSlot t := slotOf_of_head
  simp only [messages, List.mem_append, Option.mem_toList, List.mem_cons, List.not_mem_nil,
    or_false] at hm
  rcases hm with (rfl | hm) | rfl | rfl | rfl
  · exact ⟨ne_nil_of_head f.isExtensions, .inr ⟨2, by decide, by decide, hslot f.isExtensions⟩⟩
  · exact ⟨ne_nil_of_head (f.isRequest m hm), .inl (hslot (f.isRequest m hm))⟩
  · exact ⟨ne_nil_of_head f.isCertificate,
      .inr ⟨3, by decide, by decide, hslot f.isCertificate⟩⟩
  · exact ⟨ne_nil_of_head f.isVerify, .inr ⟨4, by decide, by decide, hslot f.isVerify⟩⟩
  · exact ⟨ne_nil_of_head f.isFinished, .inr ⟨5, by decide, by decide, hslot f.isFinished⟩⟩

theorem pairwise_slotOf :
    f.messages.Pairwise fun a b => ∀ i, slotOf a = some i → slotOf b ≠ some i := by
  have hee : slotOf f.encryptedExtensions = some 2 := slotOf_of_head f.isExtensions
  have hcert : slotOf f.certificate = some 3 := slotOf_of_head f.isCertificate
  have hcv : slotOf f.certificateVerify = some 4 := slotOf_of_head f.isVerify
  have hfin : slotOf f.finished = some 5 := slotOf_of_head f.isFinished
  cases hr : f.certificateRequest with
  | none => simp [messages, hr, hee, hcert, hcv, hfin]
  | some m =>
      have hreq : slotOf m = none := slotOf_of_head (f.isRequest m hr)
      simp [messages, hr, hee, hcert, hcv, hfin, hreq]

theorem head_flatten : f.messages.flatten.head? = some typeEncryptedExtensions := by
  have hext := f.isExtensions
  cases hx : f.encryptedExtensions with
  | nil =>
      rw [hx] at hext
      cases hext
  | cons b rest =>
      rw [hx] at hext
      rw [messages, hx]
      exact hext

end Flight

namespace HalfConn

variable {overhead : Nat} {hc : HalfConn}

theorem writeHandshakeRecord_kept {data buf : Bytes} {t : UInt8} (ht : data.head? = some t)
    (hsh : t ≠ typeServerHello) (hfin : t ≠ typeFinished) :
    { hc with handshakeBuf := some buf }.writeHandshakeRecord overhead data
      = .ok ({ hc with handshakeBuf := some (buf ++ data) }, []) := by
  have hd := headD_of_head ht
  rw [writeHandshakeRecord]
  dsimp only
  rw [hd, if_neg (by simp [ne_nil_of_head ht, hsh]), if_pos hfin]

theorem writeHandshakeRecord_finished {data buf : Bytes}
    (ht : data.head? = some typeFinished) :
    { hc with handshakeBuf := some buf }.writeHandshakeRecord overhead data
      = { hc with handshakeBuf := none }.writeRecord overhead (buf ++ data) := by
  have hd := headD_of_head ht
  have hne : typeFinished ≠ typeServerHello := by decide
  rw [writeHandshakeRecord]
  dsimp only
  rw [hd, if_neg (by simp [ne_nil_of_head ht, hne]), if_neg (by simp)]

/-- With a buffer the messages go out together, behind what is buffered. -/
theorem writeMessages_buffered {msgs : List Bytes} {fin buf : Bytes}
    (hmsgs : ∀ m ∈ msgs, ∃ t, m.head? = some t ∧ t ≠ typeServerHello ∧ t ≠ typeFinished)
    (hfin : fin.head? = some typeFinished) :
    { hc with handshakeBuf := some buf }.writeMessages overhead (msgs ++ [fin])
      = { hc with handshakeBuf := none }.writeRecord overhead (buf ++ msgs.flatten ++ fin) := by
  induction msgs generalizing buf with
  | nil =>
      rw [List.nil_append, writeMessages, writeHandshakeRecord_finished hfin, List.flatten_nil,
        List.append_nil]
      cases { hc with handshakeBuf := none }.writeRecord overhead (buf ++ fin) with
      | error e => rfl
      | ok r => simp [writeMessages]
  | cons msg msgs ih =>
      obtain ⟨t, ht, hsh, hne⟩ := hmsgs msg List.mem_cons_self
      rw [List.cons_append, writeMessages, writeHandshakeRecord_kept ht hsh hne, List.flatten_cons,
        ← List.append_assoc]
      dsimp only
      rw [@ih (buf ++ msg) (fun m hm => hmsgs m (List.mem_cons_of_mem _ hm))]
      cases { hc with handshakeBuf := none }.writeRecord overhead
          (buf ++ msg ++ msgs.flatten ++ fin) with
      | error e => rfl
      | ok r => rfl

/-- **One record**: with an empty buffer the flight is written as one piece. -/
theorem sendFlight_buffered (hbuf : hc.handshakeBuf = some []) (f : Flight) :
    hc.sendFlight overhead f
      = { hc with handshakeBuf := none }.writeRecord overhead f.messages.flatten := by
  have hc_eq : hc = { hc with handshakeBuf := some [] } := by rw [← hbuf]
  have hmsgs : f.messages =
      ([f.encryptedExtensions] ++ f.certificateRequest.toList ++
        [f.certificate, f.certificateVerify]) ++ [f.finished] := by
    simp [Flight.messages]
  have hkept : ∀ m ∈ [f.encryptedExtensions] ++ f.certificateRequest.toList ++
      [f.certificate, f.certificateVerify],
      ∃ t, m.head? = some t ∧ t ≠ typeServerHello ∧ t ≠ typeFinished := by
    intro m hm
    simp only [List.mem_append, Option.mem_toList, List.mem_cons, List.not_mem_nil,
      or_false] at hm
    rcases hm with (rfl | hm) | rfl | rfl
    · exact ⟨_, f.isExtensions, by decide, by decide⟩
    · exact ⟨_, f.isRequest m hm, by decide, by decide⟩
    · exact ⟨_, f.isCertificate, by decide, by decide⟩
    · exact ⟨_, f.isVerify, by decide, by decide⟩
  have hone := @writeMessages_buffered overhead hc _ _ [] hkept f.isFinished
  rw [← hc_eq, ← hmsgs] at hone
  rw [sendFlight, hone, List.nil_append, hmsgs, List.flatten_concat]

/-- **Filled slots**: a flight whose four slots hold lengths does not fail on
an empty slot, buffered or not. -/
theorem sendFlight_filled (hb : Bounded hc) (hf : FlightFilled hc.handshakeLen)
    (hbuf : hc.handshakeBuf = none ∨ hc.handshakeBuf = some []) (f : Flight)
    {e : EncryptError} (he : hc.sendFlight overhead f = .error e) : ¬ e.EmptySlot := by
  have hfilled : ∀ m ∈ f.messages, ∀ i, slotOf m = some i → hc.handshakeLen i ≠ 0 := by
    intro m hm i hi
    rcases (f.slotOf_mem hm).2 with hnone | ⟨j, h2, h5, hj⟩
    · cases hnone.symm.trans hi
    · cases hj.symm.trans hi
      exact hf i h2 h5
  rcases hbuf with hbuf | hbuf
  · exact Ready.writeMessages ⟨hb, fun m hm => (f.slotOf_mem hm).1, hfilled, f.pairwise_slotOf⟩
      hbuf he
  · rw [sendFlight_buffered hbuf] at he
    have hb' : Bounded { hc with handshakeBuf := none } := hb
    exact writeRecord_error (i := 2) hb' (slotOf_of_head f.head_flatten)
      (hf 2 (by decide) (by decide)) he

/-! ## Single records -/

/-- What fits a record is written as one. -/
theorem writeRecord_of_le {data : Bytes} (hne : data ≠ []) (hle : data.length ≤ maxPlaintext) :
    hc.writeRecord overhead data = (hc.encrypt overhead data).map fun r => (r.1, [r.2]) := by
  obtain ⟨n, hn⟩ : ∃ n, data.length = n + 1 :=
    ⟨data.length - 1, by have := List.length_pos_of_ne_nil hne; omega⟩
  rw [writeRecord, hn, writeRecords, if_neg hne]
  dsimp only
  rw [Nat.min_eq_left hle, List.take_length, List.drop_length]
  cases hc.encrypt overhead data with
  | error e => rfl
  | ok r =>
      have hnil : writeRecords overhead n r.1 [] = .ok (r.1, []) := by cases n <;> rfl
      dsimp only
      rw [hnil]
      rfl

/-- A record on an armed connection, by what its slot leaves for padding. -/
theorem encrypt_armed {data : Bytes} {i : Fin 7} (harmed : hc.handshakeLen 1 ≠ 0)
    (hslot : slotOf data = some i) {pad : Int}
    (hpad : pad = hc.handshakeLen i - (recordHeaderLen + data.length + 1 + overhead : Nat)) :
    hc.encrypt overhead data =
      if pad < 0 then .error (.padding (data.headD 0) (some (hc.handshakeLen i)) pad)
      else if pad > emptyLen then .error .outOfRange
      else .ok (hc.clearSlot (some i), (hc.handshakeLen i).toNat) := by
  have hs : paddingSlot (data.headD 0) = some i := hslot
  rw [encrypt, if_neg harmed]
  dsimp only
  rw [hs, Option.map_some, Option.getD_some, ← hpad]
  split
  · rfl
  next hneg =>
    split
    · rfl
    · have hlen : recordHeaderLen + data.length + 1 + pad.toNat + overhead
          = (hc.handshakeLen i).toNat := by omega
      rw [hlen]

/-- The padding error is the one of a message too long for its slot. -/
theorem encrypt_ne_padding_iff {data : Bytes} {i : Fin 7} (harmed : hc.handshakeLen 1 ≠ 0)
    (hslot : slotOf data = some i) :
    (∀ t found pad, hc.encrypt overhead data ≠ .error (.padding t found pad)) ↔
      0 ≤ hc.handshakeLen i - (recordHeaderLen + data.length + 1 + overhead : Nat) := by
  rw [encrypt_armed harmed hslot rfl, ← Int.not_lt]
  constructor
  · intro hne hlt
    rw [if_pos hlt] at hne
    exact hne _ _ _ rfl
  · intro hle t found pad
    rw [if_neg hle]
    split <;> intro h <;> cases h

end HalfConn

end Reality
