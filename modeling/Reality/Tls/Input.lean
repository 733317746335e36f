import Reality.Tls.ClientHello
import Reality.Tls.Record

/-!
# Reading a handshake message

`readRecordOrCCS`, `readHandshakeBytes` and `readHandshake` (conn.go) on a
connection that has no version and no keys yet, which is how the ClientHello
is read. The connection is the list of byte strings its reads deliver, then
end of file.

A read hands over all it got, so the record layer takes in more than it asked
for. What it took and what it left unread is part of every result, errors
included: the mirror goes on from there. `Reading` follows both through the
loops.
-/

namespace Reality

open Kit

def maxCiphertext : Nat := 16384 + 2048

def maxHandshake : Nat := 65536

def maxUselessRecords : Nat := 32

def alertCloseNotify : UInt8 := 0

def alertUnexpectedMessage : UInt8 := 10

def alertRecordOverflow : UInt8 := 22

def alertIllegalParameter : UInt8 := 47

def alertDecodeError : UInt8 := 50

def alertProtocolVersion : UInt8 := 70

def alertInternalError : UInt8 := 80

def alertLevelWarning : UInt8 := 1

def alertLevelError : UInt8 := 2

/-- Why reading stopped. An alert goes to the peer, in a record of version
`vers`; the others are silent. -/
inductive ReadError where
  | closed
  | notTLS
  | remote
  | alert (vers : UInt16) (code : UInt8)
  deriving DecidableEq

/-- What an error writes to the peer. -/
def ReadError.sent : ReadError → Bytes
  | .alert vers code => recordHeader recordTypeAlert vers 2 ++ [alertLevelError, code]
  | _ => []

/-- `rawInput`, `hand`, and what the connection will still deliver. -/
structure Input where
  raw : Bytes := []
  hand : Bytes := []
  rest : List Bytes
  deriving DecidableEq

theorem Input.rest_withHand (s : Input) (hand : Bytes) :
    ({ s with hand := hand } : Input).rest = s.rest := rfl

/-- `readFromUntil`: read until `raw` holds `n` bytes; false at end of file. -/
def readFromUntil (n : Nat) : Bytes → List Bytes → (Bytes × List Bytes) × Bool
  | raw, [] => ((raw, []), n ≤ raw.length)
  | raw, c :: rest =>
      if n ≤ raw.length then ((raw, c :: rest), true) else readFromUntil n (raw ++ c) rest

def Input.fill (s : Input) (n : Nat) : Input × Bool :=
  let r := readFromUntil n s.raw s.rest
  ({ s with raw := r.1.1, rest := r.1.2 }, r.2)

/-- The checks of a first record's header. -/
def headerError (raw : Bytes) : Option ReadError :=
  let typ := raw.getD 0 0
  if typ = 0x80 then some (.alert versionTLS10 alertProtocolVersion)
  else if (typ ≠ recordTypeAlert && typ ≠ recordTypeHandshake) || be16At raw 1 ≥ 0x1000 then
    some .notTLS
  else if be16At raw 3 > maxCiphertext then some (.alert versionTLS10 alertRecordOverflow)
  else none

/-- The next record: its type and data. -/
def Input.takeRecord (s : Input) : Input × Except ReadError (UInt8 × Bytes) :=
  let h := s.fill recordHeaderLen
  if !h.2 then (h.1, .error .closed)
  else
    match headerError h.1.raw with
    | some e => (h.1, .error e)
    | none =>
        let n := recordLenAt h.1.raw
        let b := h.1.fill n
        if !b.2 then (b.1, .error .closed)
        else
          let data := (b.1.raw.take n).drop recordHeaderLen
          let s := { b.1 with raw := b.1.raw.drop n }
          if data.length > maxPlaintext then
            (s, .error (.alert versionTLS10 alertRecordOverflow))
          else (s, .ok (h.1.raw.getD 0 0, data))

/-- What is done with the data of a record. -/
inductive RecordAction where
  | fail (e : ReadError)
  | retry
  | handshake

/-- The switch on the type of a record. -/
def recordAction (typ : UInt8) (data : Bytes) : RecordAction :=
  if typ = recordTypeAlert then
    if data.length ≠ 2 then .fail (.alert versionTLS10 alertUnexpectedMessage)
    else if data.getD 1 0 = alertCloseNotify then .fail .closed
    else if data.getD 0 0 = alertLevelWarning then .retry
    else if data.getD 0 0 = alertLevelError then .fail .remote
    else .fail (.alert versionTLS10 alertUnexpectedMessage)
  else if data = [] then .fail (.alert versionTLS10 alertUnexpectedMessage)
  else .handshake

/-- `readRecordOrCCS`, with `tries` more useless records to go: a warning is
dropped, handshake data is added to `hand`. -/
def Input.readRecord : Nat → Input → Input × Option ReadError
  | tries, s =>
      match s.takeRecord with
      | (s, .error e) => (s, some e)
      | (s, .ok (typ, data)) =>
          match recordAction typ data with
          | .fail e => (s, some e)
          | .handshake => ({ s with hand := s.hand ++ data }, none)
          | .retry =>
              match tries with
              | 0 => (s, some (.alert versionTLS10 alertUnexpectedMessage))
              | tries + 1 => s.readRecord tries

/-- `readHandshakeBytes`: records until `hand` holds `n` bytes. Each brings at
least one, so `n` of them are enough. -/
def Input.readHandshakeBytes (n : Nat) : Nat → Input → Input × Option ReadError
  | 0, s => (s, none)
  | fuel + 1, s =>
      if n ≤ s.hand.length then (s, none)
      else
        match s.readRecord maxUselessRecords with
        | (s, some e) => (s, some e)
        | (s, none) => s.readHandshakeBytes n fuel

/-- The length in a handshake header. -/
def handshakeLenAt (b : Bytes) : Nat :=
  (b.getD 1 0).toNat * 65536 + be16At b 2

/-- `readHandshake`: the bytes of the next message. -/
def Input.readHandshake (s : Input) : Input × Except ReadError Bytes :=
  match s.readHandshakeBytes 4 4 with
  | (s, some e) => (s, .error e)
  | (s, none) =>
      let n := handshakeLenAt s.hand
      if n > maxHandshake then (s, .error (.alert versionTLS10 alertInternalError))
      else
        match s.readHandshakeBytes (4 + n) (4 + n) with
        | (s, some e) => (s, .error e)
        | (s, none) => ({ s with hand := s.hand.drop (4 + n) }, .ok (s.hand.take (4 + n)))

/-! ## What has been taken in -/

/-- A fill takes whole reads, and stops short only at end of file. -/
theorem readFromUntil_spec (n : Nat) (raw : Bytes) (rest : List Bytes) :
    ∃ took, rest = took ++ (readFromUntil n raw rest).1.2 ∧
      (readFromUntil n raw rest).1.1 = raw ++ took.flatten ∧
      ((readFromUntil n raw rest).2 = true → n ≤ (readFromUntil n raw rest).1.1.length) ∧
      ((readFromUntil n raw rest).2 = false → (readFromUntil n raw rest).1.2 = []) := by
  induction rest generalizing raw with
  | nil => exact ⟨[], by simp [readFromUntil]⟩
  | cons c rest ih =>
      rw [readFromUntil]
      split
      next h => exact ⟨[], rfl, by simp, fun _ => h, fun hf => by cases hf⟩
      · obtain ⟨took, hrest, hraw, hok, heof⟩ := ih (raw ++ c)
        refine ⟨c :: took, ?_, ?_, hok, heof⟩
        · rw [List.cons_append, ← hrest]
        · rw [hraw, List.flatten_cons, List.append_assoc]

theorem Input.fill_spec (s : Input) (n : Nat) :
    ∃ took, s.rest = took ++ (s.fill n).1.rest ∧ (s.fill n).1.raw = s.raw ++ took.flatten ∧
      (s.fill n).1.hand = s.hand ∧ ((s.fill n).2 = true → n ≤ (s.fill n).1.raw.length) ∧
      ((s.fill n).2 = false → (s.fill n).1.rest = []) := by
  obtain ⟨took, hrest, hraw, hok, heof⟩ := readFromUntil_spec n s.raw s.rest
  exact ⟨took, hrest, hraw, rfl, hok, heof⟩

/-- A record that was taken: header, data, and what is left of the reads. -/
structure TookRecord (s s' : Input) (typ : UInt8) (data : Bytes) (took : List Bytes)
    (header : Bytes) : Prop where
  rest : s.rest = took ++ s'.rest
  bytes : s.raw ++ took.flatten = header ++ data ++ s'.raw
  header_length : header.length = recordHeaderLen
  header_typ : header.getD 0 0 = typ
  header_len : be16At header 3 = data.length
  hand : s'.hand = s.hand
  data_le : data.length ≤ maxPlaintext
  typ_ok : typ = recordTypeAlert ∨ typ = recordTypeHandshake

/-- Reading stopped: nothing at all was taken only if nothing was sent. -/
def StoppedAfter (raw : Bytes) (rest : List Bytes) (s' : Input) : Prop :=
  ∃ took, rest = took ++ s'.rest ∧ (raw ++ took.flatten = [] → s'.rest = [])

theorem headerError_eq_none {raw : Bytes} (h : headerError raw = none) :
    (raw.getD 0 0 = recordTypeAlert ∨ raw.getD 0 0 = recordTypeHandshake) ∧
      be16At raw 3 ≤ maxCiphertext := by
  unfold headerError at h
  dsimp only at h
  split at h
  · cases h
  · split at h
    · cases h
    next htyp =>
      split at h
      · cases h
      next hlen =>
        simp only [Bool.or_eq_true, Bool.and_eq_true, decide_eq_true_eq, not_or, not_and,
          not_not] at htyp
        refine ⟨?_, by omega⟩
        by_cases ha : raw.getD 0 0 = recordTypeAlert
        · exact .inl ha
        · exact .inr (htyp.1 ha)

/-- Bytes read later do not change the header. -/
theorem getD_take_append {a : Bytes} {n i : Nat} (t : Bytes) (hn : n ≤ a.length) (hi : i < n) :
    ((a ++ t).take n).getD i 0 = a.getD i 0 := by
  rw [List.take_append_of_le_length hn, List.getD_eq_getElem?_getD, List.getD_eq_getElem?_getD,
    List.getElem?_take_of_lt hi]

theorem take_drop_take {b : Bytes} {m n : Nat} (h : m ≤ n) :
    b.take m ++ (b.take n).drop m ++ b.drop n = b := by
  have hm : b.take m = (b.take n).take m := by rw [List.take_take, Nat.min_eq_left h]
  rw [hm, List.take_append_drop, List.take_append_drop]

/-- **Inversion of a record.** -/
theorem Input.takeRecord_cases (s : Input) :
    (∃ e, s.takeRecord.2 = .error e ∧ StoppedAfter s.raw s.rest s.takeRecord.1) ∨
    ∃ typ data took header, s.takeRecord.2 = .ok (typ, data) ∧
      TookRecord s s.takeRecord.1 typ data took header := by
  unfold takeRecord
  dsimp only
  obtain ⟨took, hrest, hraw, hhand, hok, heof⟩ := s.fill_spec recordHeaderLen
  generalize hh : s.fill recordHeaderLen = h at *
  cases h2 : h.2 with
  | false => exact .inl ⟨_, rfl, took, hrest, fun _ => heof h2⟩
  | true =>
      have hlen5 : 5 ≤ h.1.raw.length := hok h2
      have hne : s.raw ++ took.flatten ≠ [] := by
        intro h0
        rw [hraw, h0, List.length_nil] at hlen5
        omega
      simp only [Bool.not_true, Bool.false_eq_true, if_false]
      cases he : headerError h.1.raw with
      | some e => exact .inl ⟨e, rfl, took, hrest, fun h0 => absurd h0 hne⟩
      | none =>
          dsimp only
          obtain ⟨htyp, hn⟩ := headerError_eq_none he
          obtain ⟨took', hrest', hraw', hhand', hok', heof'⟩ :=
            h.1.fill_spec (recordLenAt h.1.raw)
          generalize hb : h.1.fill (recordLenAt h.1.raw) = b at *
          have hsplit : s.rest = (took ++ took') ++ b.1.rest := by
            rw [hrest, hrest', List.append_assoc]
          have hbytes : s.raw ++ (took ++ took').flatten = b.1.raw := by
            rw [hraw', hraw, List.flatten_append, List.append_assoc]
          have hne' : s.raw ++ (took ++ took').flatten ≠ [] := by
            intro h0
            rw [List.flatten_append, ← List.append_assoc] at h0
            exact hne (List.append_eq_nil_iff.mp h0).1
          cases hb2 : b.2 with
          | false => exact .inl ⟨_, rfl, took ++ took', hsplit, fun h0 => absurd h0 hne'⟩
          | true =>
              simp only [Bool.not_true, Bool.false_eq_true, if_false]
              split
              · exact .inl ⟨_, rfl, took ++ took', hsplit, fun h0 => absurd h0 hne'⟩
              next hmax =>
                have hblen : recordLenAt h.1.raw ≤ b.1.raw.length := hok' hb2
                have h5 : 5 ≤ recordLenAt h.1.raw := recordLenAt_ge _
                have hdata : ((b.1.raw.take (recordLenAt h.1.raw)).drop recordHeaderLen).length
                    = be16At h.1.raw 3 := by
                  rw [List.length_drop, List.length_take, Nat.min_eq_left hblen, recordLenAt]
                  omega
                have hhead : ∀ i < 5, (b.1.raw.take 5).getD i 0 = h.1.raw.getD i 0 := by
                  intro i hi
                  rw [hraw']
                  exact getD_take_append _ hlen5 hi
                refine .inr ⟨_, _, took ++ took', b.1.raw.take 5, rfl, hsplit, ?_, ?_, ?_, ?_,
                  ?_, by omega, htyp⟩
                · rw [hbytes]
                  exact (take_drop_take h5).symm
                · rw [List.length_take, recordHeaderLen]
                  omega
                · exact hhead 0 (by omega)
                · rw [hdata, be16At, be16At, hhead 3 (by omega), hhead 4 (by omega)]
                · exact hhand'.trans hhand

/-- How what was taken in, `bytes`, relates to what it became: nothing parsed
yet, ONE handshake record, or more, in which case headers and dropped records
make it longer than header, data and rest of one record could be. -/
inductive Shape (bytes raw hand : Bytes) : Prop where
  | none (hhand : hand = []) (hraw : bytes = raw)
  | one (header : Bytes) (hlen : header.length = recordHeaderLen)
      (htyp : header.getD 0 0 = recordTypeHandshake) (hdata : be16At header 3 = hand.length)
      (hmax : hand.length ≤ maxPlaintext) (hbytes : bytes = header ++ hand ++ raw)
  | more (hlen : recordHeaderLen + hand.length + raw.length < bytes.length)

theorem length_record {raw t header data raw' : Bytes} (hb : raw ++ t = header ++ data ++ raw')
    (hlen : header.length = recordHeaderLen) :
    raw.length + t.length = recordHeaderLen + data.length + raw'.length := by
  have hl := congrArg List.length hb
  simp only [List.length_append, hlen] at hl
  exact hl

theorem Shape.dropped {bytes raw hand t header data raw' : Bytes} (h : Shape bytes raw hand)
    (hb : raw ++ t = header ++ data ++ raw') (hlen : header.length = recordHeaderLen)
    (hdata : data ≠ []) : Shape (bytes ++ t) raw' hand := by
  have htotal := length_record hb hlen
  have hpos := List.length_pos_iff.mpr hdata
  refine .more ?_
  rw [List.length_append]
  cases h with
  | none hhand hraw =>
      rw [hhand, hraw, List.length_nil]
      omega
  | one header' hlen' htyp hdata' hmax hbytes =>
      rw [hbytes, List.length_append, List.length_append, hlen']
      omega
  | more hmore => omega

theorem Shape.handshake {bytes raw hand t header data raw' : Bytes} (h : Shape bytes raw hand)
    (hb : raw ++ t = header ++ data ++ raw') (hlen : header.length = recordHeaderLen)
    (htyp : header.getD 0 0 = recordTypeHandshake) (hdata : be16At header 3 = data.length)
    (hmax : data.length ≤ maxPlaintext) : Shape (bytes ++ t) raw' (hand ++ data) := by
  have htotal := length_record hb hlen
  cases h with
  | none hhand hraw =>
      refine .one header hlen htyp ?_ ?_ ?_
      · rw [hhand, List.nil_append, hdata]
      · rw [hhand, List.nil_append]
        exact hmax
      · rw [hraw, hhand, List.nil_append, hb]
  | one header' hlen' htyp' hdata' hmax' hbytes =>
      refine .more ?_
      rw [hbytes, List.length_append, List.length_append, List.length_append,
        List.length_append, hlen']
      simp only [recordHeaderLen] at *
      omega
  | more hmore =>
      refine .more ?_
      rw [List.length_append, List.length_append]
      omega

theorem Shape.eq_nil {bytes raw hand : Bytes} (h : Shape bytes raw hand) (hb : bytes = []) :
    raw = [] ∧ hand = [] := by
  cases h with
  | none hhand hraw => exact ⟨hraw.symm.trans hb, hhand⟩
  | one header hlen _ _ _ hbytes =>
      have hl := congrArg List.length (hbytes.symm.trans hb)
      simp only [List.length_append, hlen, recordHeaderLen, List.length_nil] at hl
      omega
  | more hlen =>
      rw [hb, List.length_nil] at hlen
      omega

/-- The reads of `client` up to `s`: `taken`, and what it became. -/
structure Reading (client taken : List Bytes) (s : Input) : Prop where
  split : client = taken ++ s.rest
  shape : Shape taken.flatten s.raw s.hand

/-- Reading of `client` stopped in `s`. -/
def Stopped (client : List Bytes) (s : Input) : Prop :=
  ∃ taken, client = taken ++ s.rest ∧ (taken.flatten = [] → s.rest = [])

variable {client taken : List Bytes} {s : Input}

theorem Reading.stop {s' : Input} (h : Reading client taken s)
    (hs : StoppedAfter s.raw s.rest s') : Stopped client s' := by
  obtain ⟨took, hrest, hnil⟩ := hs
  refine ⟨taken ++ took, ?_, ?_⟩
  · rw [h.split, hrest, List.append_assoc]
  · intro h0
    rw [List.flatten_append, List.append_eq_nil_iff] at h0
    obtain ⟨hraw, -⟩ := h.shape.eq_nil h0.1
    exact hnil (by rw [hraw, h0.2]; rfl)

/-- Reading that has taken in a record may stop anywhere. -/
theorem Reading.stopHere (h : Reading client taken s) (hne : taken.flatten ≠ []) :
    Stopped client s := ⟨taken, h.split, fun h0 => absurd h0 hne⟩

/-- What a call that reads records leads to: it stopped, or it went on and now
has `n` bytes of handshake data, `hand` and more. -/
def ReadsOn (client : List Bytes) (hand : Bytes) (n : Nat)
    (r : Input × Option ReadError) : Prop :=
  (∃ e, r.2 = some e ∧ Stopped client r.1) ∨
    r.2 = none ∧ n ≤ r.1.hand.length ∧ hand <+: r.1.hand ∧ ∃ taken, Reading client taken r.1

theorem Reading.taken_ne_nil {s' : Input} {typ : UInt8} {data header : Bytes}
    {took : List Bytes} (h : Reading client taken s) (ht : TookRecord s s' typ data took header) :
    (taken ++ took).flatten ≠ [] := by
  intro h0
  rw [List.flatten_append, List.append_eq_nil_iff] at h0
  obtain ⟨hraw, -⟩ := h.shape.eq_nil h0.1
  have hl := length_record ht.bytes ht.header_length
  rw [hraw, h0.2, List.length_nil, recordHeaderLen] at hl
  omega

theorem Reading.split_append {s' : Input} {typ : UInt8} {data header : Bytes}
    {took : List Bytes} (h : Reading client taken s) (ht : TookRecord s s' typ data took header) :
    client = (taken ++ took) ++ s'.rest := by
  rw [h.split, ht.rest, List.append_assoc]

theorem recordAction_retry {typ : UInt8} {data : Bytes} (h : recordAction typ data = .retry) :
    data ≠ [] := by
  rintro rfl
  unfold recordAction at h
  split at h
  · cases h
  · cases h

theorem recordAction_handshake {typ : UInt8} {data : Bytes}
    (h : recordAction typ data = .handshake) : typ ≠ recordTypeAlert ∧ data ≠ [] := by
  unfold recordAction at h
  split at h
  · split at h
    · cases h
    · split at h
      · cases h
      · split at h
        · cases h
        · split at h <;> cases h
  next htyp =>
    split at h
    · cases h
    next hdata => exact ⟨htyp, hdata⟩

/-- One call of `readRecord`. -/
theorem Reading.readRecord (tries : Nat) {taken : List Bytes} {s : Input}
    (h : Reading client taken s) :
    ReadsOn client s.hand (s.hand.length + 1) (s.readRecord tries) := by
  induction tries using Nat.strong_induction_on generalizing taken s with
  | _ tries ih =>
    rw [Input.readRecord]
    rcases hrec : s.takeRecord with ⟨s', res⟩
    rcases s.takeRecord_cases with ⟨e, he, hstop⟩ | ⟨typ, data, took, header, hok, htook⟩
    · rw [hrec] at he hstop
      dsimp only at he
      subst he
      exact .inl ⟨e, rfl, h.stop hstop⟩
    · rw [hrec] at hok htook
      dsimp only at hok htook
      subst hok
      have hsplit := h.split_append htook
      have hne := h.taken_ne_nil htook
      have hbytes := htook.bytes
      dsimp only
      cases haction : recordAction typ data with
      | fail e => exact .inl ⟨e, rfl, taken ++ took, hsplit, fun h0 => absurd h0 hne⟩
      | handshake =>
          obtain ⟨htyp, hdata⟩ := recordAction_handshake haction
          have hhs : header.getD 0 0 = recordTypeHandshake :=
            htook.header_typ.trans (htook.typ_ok.resolve_left htyp)
          refine .inr ⟨rfl, ?_, ⟨data, by rw [htook.hand]⟩, taken ++ took, hsplit, ?_⟩
          · have hpos := List.length_pos_iff.mpr hdata
            show s.hand.length + 1 ≤ (s'.hand ++ data).length
            rw [htook.hand, List.length_append]
            omega
          · show Shape _ s'.raw (s'.hand ++ data)
            rw [htook.hand, List.flatten_append]
            exact h.shape.handshake hbytes htook.header_length hhs htook.header_len htook.data_le
      | retry =>
          -- A warning goes, and with it one try.
          cases tries with
          | zero => exact .inl ⟨_, rfl, taken ++ took, hsplit, fun h0 => absurd h0 hne⟩
          | succ tries =>
              have hnext : Reading client (taken ++ took) s' := by
                refine ⟨hsplit, ?_⟩
                rw [htook.hand, List.flatten_append]
                exact h.shape.dropped hbytes htook.header_length (recordAction_retry haction)
              have hrest := ih tries (by omega) hnext
              rw [htook.hand] at hrest
              exact hrest

/-- The loop over records. -/
theorem Reading.readHandshakeBytes {n : Nat} (fuel : Nat) {taken : List Bytes} {s : Input}
    (h : Reading client taken s) (hfuel : n ≤ s.hand.length + fuel) :
    ReadsOn client s.hand n (s.readHandshakeBytes n fuel) := by
  induction fuel generalizing taken s with
  | zero => exact .inr ⟨rfl, hfuel, List.prefix_rfl, taken, h⟩
  | succ fuel ih =>
      rw [Input.readHandshakeBytes]
      split
      next hn => exact .inr ⟨rfl, hn, List.prefix_rfl, taken, h⟩
      · rcases hr : s.readRecord maxUselessRecords with ⟨s', res⟩
        have hrec := h.readRecord maxUselessRecords
        rw [hr] at hrec
        rcases hrec with ⟨e, rfl, hstop⟩ | ⟨rfl, hlen, hhand, taken', hread⟩
        · exact .inl ⟨e, rfl, hstop⟩
        · dsimp only at hlen hhand hread ⊢
          rcases ih hread (by omega) with hstop | ⟨hok, hn, hhand', htaken⟩
          · exact .inl hstop
          · exact .inr ⟨hok, hn, hhand.trans hhand', htaken⟩

theorem handshakeLenAt_of_le {b b' : Bytes} (h : b <+: b') (hb : 4 ≤ b.length) :
    handshakeLenAt b' = handshakeLenAt b := by
  obtain ⟨t, rfl⟩ := h
  have hget : ∀ i < 4, (b ++ t).getD i 0 = b.getD i 0 := by
    intro i hi
    rw [List.getD_eq_getElem?_getD, List.getD_eq_getElem?_getD,
      List.getElem?_append_left (by omega)]
  rw [handshakeLenAt, handshakeLenAt, be16At, be16At, hget 1 (by omega), hget 2 (by omega),
    hget 3 (by omega)]

/-- **What `readHandshake` leads to**: it stopped, or it cut its message from
the handshake data of a state whose reads are known. -/
theorem readHandshake_cases (client : List Bytes) :
    (∃ e, (Input.mk [] [] client).readHandshake.2 = .error e ∧
      Stopped client (Input.mk [] [] client).readHandshake.1) ∨
    ∃ msg taken s, (Input.mk [] [] client).readHandshake.2 = .ok msg ∧
      (Input.mk [] [] client).readHandshake.1.rest = s.rest ∧ Reading client taken s ∧
      4 + handshakeLenAt s.hand ≤ s.hand.length ∧
      msg = s.hand.take (4 + handshakeLenAt s.hand) := by
  have hstart : Reading client [] (Input.mk [] [] client) := ⟨rfl, .none rfl rfl⟩
  have hhead := hstart.readHandshakeBytes 4 (by show 4 ≤ 0 + 4; omega)
  rcases hr : (Input.mk [] [] client).readHandshakeBytes 4 4 with ⟨s₁, res⟩
  rw [hr] at hhead
  rcases hhead with ⟨e, rfl, hstop⟩ | ⟨rfl, hlen, -, taken₁, hread⟩
  · rw [Input.readHandshake, hr]
    exact .inl ⟨e, rfl, hstop⟩
  · dsimp only at hlen hread
    by_cases hmax : handshakeLenAt s₁.hand > maxHandshake
    · -- The limit is checked once four bytes are there, so something was taken.
      rw [Input.readHandshake, hr]
      dsimp only
      rw [if_pos hmax]
      refine .inl ⟨_, rfl, hread.stopHere ?_⟩
      intro h0
      rw [(hread.shape.eq_nil h0).2, List.length_nil] at hlen
      omega
    · have hbody := hread.readHandshakeBytes (n := 4 + handshakeLenAt s₁.hand)
        (4 + handshakeLenAt s₁.hand) (by omega)
      rcases hr₂ : s₁.readHandshakeBytes (4 + handshakeLenAt s₁.hand)
        (4 + handshakeLenAt s₁.hand) with ⟨s₂, res₂⟩
      rw [hr₂] at hbody
      rcases hbody with ⟨e, rfl, hstop⟩ | ⟨rfl, hlen₂, hhand, taken₂, hread₂⟩
      · rw [Input.readHandshake, hr]
        dsimp only
        rw [if_neg hmax, hr₂]
        exact .inl ⟨e, rfl, hstop⟩
      · have hmore : s₁.hand <+: s₂.hand := hhand
        have hsame := handshakeLenAt_of_le hmore hlen
        have hresult : (Input.mk [] [] client).readHandshake
            = ({ s₂ with hand := s₂.hand.drop (4 + handshakeLenAt s₁.hand) },
                .ok (s₂.hand.take (4 + handshakeLenAt s₁.hand))) := by
          rw [Input.readHandshake, hr]
          dsimp only
          rw [if_neg hmax, hr₂]
        rw [hresult, ← hsame]
        rw [← hsame] at hlen₂
        exact .inr ⟨_, taken₂, s₂, rfl, Input.rest_withHand _ _, hread₂, hlen₂, rfl⟩

/-! ## One message in one record -/

/-- A whole handshake message that fits one record. -/
structure OneRecord (msg : Bytes) : Prop where
  whole : 4 + handshakeLenAt msg = msg.length
  fits : msg.length ≤ maxPlaintext

instance (msg : Bytes) : Decidable (OneRecord msg) :=
  decidable_of_iff (4 + handshakeLenAt msg = msg.length ∧ msg.length ≤ maxPlaintext)
    ⟨fun h => ⟨h.1, h.2⟩, fun h => ⟨h.1, h.2⟩⟩

/-- If the bytes taken in are a record around `m`, no longer than the message
that was read, then the message is `m` and was read from that one record. -/
theorem Reading.one_record (h : Reading client taken s) {m : Bytes} {vers : UInt16}
    (hhand : 4 + handshakeLenAt s.hand ≤ s.hand.length)
    (hbytes : taken.flatten = wrapHandshakeRecord m vers)
    (hm : m.length ≤ 4 + handshakeLenAt s.hand) :
    m = s.hand ∧ OneRecord m := by
  have htotal : taken.flatten.length = recordHeaderLen + m.length := by
    rw [hbytes, wrapHandshakeRecord_length]
  cases h.shape with
  | none hnil hraw =>
      rw [hnil, List.length_nil] at hhand
      omega
  | more hmore => omega
  | one header hlen htyp hdata hmax heq =>
      have hl := congrArg List.length heq
      rw [htotal, List.length_append, List.length_append, hlen] at hl
      have hsame : s.hand ++ s.raw = m := by
        have hdrop := congrArg (List.drop recordHeaderLen) (heq.symm.trans hbytes)
        rw [List.append_assoc, ← hlen, List.drop_left, hlen] at hdrop
        exact hdrop
      have hraw : s.raw = [] := List.eq_nil_of_length_eq_zero (by omega)
      rw [hraw, List.append_nil] at hsame
      refine ⟨hsame.symm, ?_, ?_⟩
      · rw [← hsame] at hm ⊢
        omega
      · rw [← hsame]
        exact hmax

end Reality
