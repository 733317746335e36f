import Reality.Tls.Delivery

/-!
# Both directions of a connection

`Flow` is one direction: a sender, the bytes on their way and the receiver. Every step of
either end keeps the flows of both directions, so what holds of them holds in every
interleaving. A receiver that has the bytes of a key update in `hand` has not replaced
its secret yet; what comes next is for the next one.
-/

namespace Reality

open Kit

/-! ## One direction -/

/-- The half that opens the next record. -/
def ChannelEnd.expects (suite : CipherSuiteTLS13) (e : ChannelEnd) : SecretConn :=
  if e.hand = [] then e.inHalf else e.inHalf.update suite

/-- `half` has the keys of what comes in next. An end that failed does not open it, and may
have kept a key update for itself that it counted as one too many. -/
structure ChannelEnd.OpensWith (suite : CipherSuiteTLS13) (e : ChannelEnd) (half : SecretConn) :
    Prop where
  keys : half = e.inHalf ∨ half = e.inHalf.update suite
  next : e.inErr = none → half = e.expects suite

/-- From `s` to `r`, with the messages `ms` on their way. -/
structure Flow (suite : CipherSuiteTLS13) (s : ChannelEnd) (wire : Bytes) (r : ChannelEnd)
    (ms : List Message) : Prop where
  transit : ∃ half last, r.OpensWith suite half ∧
    Transit (Takes suite) InStep half wire ms last ∧
    (s.closeNotifySent = false → last = s.outHalf)
  unclosed : s.closeNotifySent = false → .closeNotify ∉ ms
  final : ∀ l l', ms = l ++ .closeNotify :: l' → l' = []
  ended : r.inErr = some .closed → s.closeNotifySent = true ∧ ms = []
  hand : r.hand = [] ∨ ∃ req, r.hand = keyUpdateBytes req
  errs : r.inErr = none ∨ r.inErr = some .closed ∨ r.inErr = some .tooManyNonAdvancing ∨
    r.inErr = some (.remote alertUnexpectedMessage)
  blame : .failed ∈ ms ∨ r.inErr = some (.remote alertUnexpectedMessage) →
    s.inErr = some .tooManyNonAdvancing

/-- What holds of an end by itself. A key update that came in is the first useless
message since the last useful record, itself. -/
structure EndOk (suite : CipherSuiteTLS13) (limit : Int) (e : ChannelEnd) : Prop where
  sender : Sender suite e.outHalf
  blameless : Blameless e
  suite13 : cipherSuiteTLS13ByID e.endpoint.cipherSuite = true
  configured : e.maxUselessRecords = limit
  counted : e.hand ≠ [] → e.retryCount = 0
  limited : e.inErr = some .tooManyNonAdvancing → limit ≤ 0

variable {suite : CipherSuiteTLS13} {s s' r r' e e' : ChannelEnd} {wire rest : Bytes}
  {ms ms' : List Message} {sent : Sent} {limit : Int}

theorem ChannelEnd.OpensWith.same {half : SecretConn} (h : r.OpensWith suite half)
    (hhand : r'.hand = r.hand) (hin : r'.inHalf = r.inHalf) (herr : r'.inErr = r.inErr) :
    r'.OpensWith suite half := by
  have hexpects : r'.expects suite = r.expects suite := by
    unfold ChannelEnd.expects
    rw [hhand, hin]
  constructor
  · rw [hin]
    exact h.keys
  · rw [herr, hexpects]
    exact h.next

theorem ChannelEnd.opensWith_expects (suite : CipherSuiteTLS13) (e : ChannelEnd) :
    e.OpensWith suite (e.expects suite) := by
  refine ⟨?_, fun _ => rfl⟩
  unfold ChannelEnd.expects
  split
  · exact .inl rfl
  · exact .inr rfl

/-- Sending changes nothing about what the sender receives. -/
theorem Flow.same_receiver (h : Flow suite s wire r ms) (hsame : SameIn r r') :
    Flow suite s wire r' ms := by
  constructor
  · obtain ⟨half, last, hkeys, htransit⟩ := h.transit
    exact ⟨half, last, hkeys.same hsame.hand hsame.inHalf hsame.inErr, htransit⟩
  · exact h.unclosed
  · exact h.final
  · rw [hsame.inErr]
    exact h.ended
  · rw [hsame.hand]
    exact h.hand
  · rw [hsame.inErr]
    exact h.errs
  · rw [hsame.inErr]
    exact h.blame

/-- Receiving changes nothing about what the receiver sends. -/
theorem Flow.same_sender (h : Flow suite s wire r ms) (hout : s'.outHalf = s.outHalf)
    (hclose : s'.closeNotifySent = s.closeNotifySent)
    (hblame : s'.inErr = s.inErr ∨ s.inErr = none) : Flow suite s' wire r ms := by
  constructor
  · rw [hout, hclose]
    exact h.transit
  · rw [hclose]
    exact h.unclosed
  · exact h.final
  · rw [hclose]
    exact h.ended
  · exact h.hand
  · exact h.errs
  · intro hfailed
    have htoo := h.blame hfailed
    rcases hblame with hblame | hnone
    · rw [hblame]
      exact htoo
    · rw [hnone] at htoo
      cases htoo

/-- Behind close_notify there is nothing. -/
theorem final_append (hfinal : ∀ l l', ms = l ++ .closeNotify :: l' → l' = [])
    (hold : .closeNotify ∉ ms ∨ ms' = []) (hlast : .closeNotify ∈ ms' → ms' = [.closeNotify])
    (l l' : List Message) (h : ms ++ ms' = l ++ .closeNotify :: l') : l' = [] := by
  rcases hold with hnot | rfl
  · rcases List.append_eq_append_iff.mp h with ⟨l₁, rfl, hms'⟩ | ⟨l₁, hms, hrest⟩
    · have hmem : Message.closeNotify ∈ ms' := by simp [hms']
      rw [hlast hmem] at hms'
      cases l₁ with
      | nil =>
          simp at hms'
          exact hms'
      | cons m l₁ => simp at hms'
    · cases l₁ with
      | nil =>
          rw [List.nil_append] at hrest
          have hmem : Message.closeNotify ∈ ms' := by rw [← hrest]; exact List.mem_cons_self
          rw [hlast hmem] at hrest
          exact (List.cons.inj hrest).2
      | cons m l₁ =>
          simp only [List.cons_append, List.cons.injEq] at hrest
          rw [hms, ← hrest.1] at hnot
          simp at hnot
  · rw [List.append_nil] at h
    exact hfinal l l' h

/-- **Sending.** -/
theorem Flow.puts (hsound : suite.Sound) (h : Flow suite s wire r ms)
    (hs : Sender suite s.outHalf) (hputs : Puts suite s s' sent ms') :
    Flow suite s' (wire ++ sent.wire) r (ms ++ ms') := by
  have hcases : (s.closeNotifySent = false ∧ .closeNotify ∉ ms) ∨
      (s.closeNotifySent = true ∧ sent.wire = [] ∧ ms' = []) := by
    cases hclosed : s.closeNotifySent with
    | false => exact .inl ⟨rfl, h.unclosed hclosed⟩
    | true => exact .inr ⟨rfl, hputs.silent hclosed⟩
  constructor
  · obtain ⟨half, last, hkeys, htransit, hlast⟩ := h.transit
    rcases hcases with ⟨hopen, -⟩ | ⟨hclosed, hwire, hms⟩
    · rw [hlast hopen] at htransit
      exact ⟨half, s'.outHalf, hkeys, (hputs.emits hopen).transit hsound hs htransit, fun _ => rfl⟩
    · rw [hwire, hms, List.append_nil, List.append_nil]
      refine ⟨half, last, hkeys, htransit, fun hopen' => ?_⟩
      have hstill := hputs.closing.mpr (.inl hclosed)
      rw [hopen'] at hstill
      cases hstill
  · intro hopen'
    have hnot : ¬(s.closeNotifySent = true ∨ .closeNotify ∈ ms') := by
      rw [← hputs.closing, hopen']
      simp
    rw [not_or, Bool.not_eq_true] at hnot
    simp [h.unclosed hnot.1, hnot.2]
  · apply final_append h.final _ hputs.last
    rcases hcases with ⟨-, hnot⟩ | ⟨-, -, hms⟩
    · exact .inl hnot
    · exact .inr hms
  · intro hended
    obtain ⟨hclosed, hms⟩ := h.ended hended
    rw [hms, (hputs.silent hclosed).2]
    exact ⟨hputs.closing.mpr (.inl hclosed), rfl⟩
  · exact h.hand
  · exact h.errs
  · rw [hputs.same.inErr]
    rintro (hmem | hremote)
    · rcases List.mem_append.mp hmem with hmem | hmem
      · exact h.blame (.inl hmem)
      · exact hputs.failing hmem
    · exact h.blame (.inr hremote)

theorem EndOk.puts (h : EndOk suite limit e) (hputs : Puts suite e e' sent ms) :
    EndOk suite limit e' := by
  have hsame := hputs.same
  constructor
  · exact hputs.seals.sender h.sender
  · intro code hcode
    rw [hsame.inErr]
    rcases hputs.owed with howed | howed
    · exact h.blameless code (howed ▸ hcode)
    · rw [howed] at hcode
      cases hcode
  · rw [hsame.endpoint]
    exact h.suite13
  · rw [hsame.maxUselessRecords]
    exact h.configured
  · rw [hsame.hand, hsame.retryCount]
    exact h.counted
  · rw [hsame.inErr]
    exact h.limited

/-! ## Receiving -/

/-- What a message does to an end when it comes in. -/
def Message.arrive (e : ChannelEnd) : Message → ChannelEnd
  | .data p => { e with retryCount := 0, input := p }
  | .keyUpdate req => { e with retryCount := 0, hand := keyUpdateBytes req }
  | .closeNotify => { e with inErr := some .closed }
  | .failed => { e with inErr := some (.remote alertUnexpectedMessage) }

section Arrive

variable {m : Message}

theorem arrive_opensWith (hhand : e.hand = []) :
    (m.arrive e).OpensWith suite (m.rekey suite e.inHalf) := by
  constructor
  · cases m with
    | keyUpdate req => exact .inr rfl
    | _ => exact .inl rfl
  · intro hnone
    symm
    cases m with
    | data p => exact if_pos hhand
    | keyUpdate req => exact if_neg (by simp [Message.arrive, keyUpdateBytes])
    | closeNotify | failed => cases hnone

theorem arrive_hand (hhand : e.hand = []) :
    (m.arrive e).hand = [] ∨ ∃ req, (m.arrive e).hand = keyUpdateBytes req := by
  cases m with
  | keyUpdate req => exact .inr ⟨req, rfl⟩
  | _ => exact .inl hhand

theorem arrive_err (hnone : e.inErr = none) :
    (m.arrive e).inErr = none ∨ (m = .closeNotify ∧ (m.arrive e).inErr = some .closed) ∨
      (m = .failed ∧ (m.arrive e).inErr = some (.remote alertUnexpectedMessage)) := by
  cases m with
  | data p | keyUpdate req => exact .inl hnone
  | closeNotify => exact .inr (.inl ⟨rfl, rfl⟩)
  | failed => exact .inr (.inr ⟨rfl, rfl⟩)

theorem arrive_input (hinput : e.input = []) : (m.arrive e).input = m.bytes := by
  cases m with
  | data p => rfl
  | _ => exact hinput

theorem arrive_same : (m.arrive e).endpoint = e.endpoint ∧ (m.arrive e).outHalf = e.outHalf ∧
    (m.arrive e).closeNotifySent = e.closeNotifySent ∧ (m.arrive e).owed = e.owed ∧
    (m.arrive e).maxUselessRecords = e.maxUselessRecords := by
  cases m <;> exact ⟨rfl, rfl, rfl, rfl, rfl⟩

theorem arrive_counted (hhand : e.hand = []) :
    (m.arrive e).hand ≠ [] → (m.arrive e).retryCount = 0 := by
  intro hne
  cases m with
  | data p | keyUpdate req => rfl
  | closeNotify | failed => exact absurd hhand hne

end Arrive

/-- An opened record, on an end with no handshake data pending. -/
theorem processRecord_message (hhand : e.hand = []) {m : Message} (hm : m.Fits) :
    e.processRecord m.typ m.payload = m.arrive e := by
  have hle : ¬ m.payload.length > maxPlaintext := Nat.not_lt.mpr hm.2
  have hne := hm.1
  unfold ChannelEnd.processRecord
  rw [if_neg hle]
  cases m with
  | data p =>
      have hp : p ≠ [] := hne
      have hcond : recordTypeApplicationData ≠ recordTypeAlert ∧
          recordTypeApplicationData ≠ recordTypeChangeCipherSpec ∧ p ≠ [] :=
        ⟨by decide, by decide, hp⟩
      have haction : postAction [] recordTypeApplicationData p = .input := by
        simp [postAction, hp, recordTypeApplicationData, recordTypeHandshake, recordTypeAlert,
          recordTypeChangeCipherSpec]
      simp only [Message.typ, Message.payload, if_pos hcond, hhand, haction, Message.arrive]
  | keyUpdate req =>
      have haction : postAction [] recordTypeHandshake (keyUpdateBytes req)
          = .handshake := by
        simp [postAction, keyUpdateBytes, recordTypeApplicationData,
          recordTypeHandshake, recordTypeAlert, recordTypeChangeCipherSpec]
      have hcond : recordTypeHandshake ≠ recordTypeAlert ∧
          recordTypeHandshake ≠ recordTypeChangeCipherSpec ∧
          keyUpdateBytes req ≠ [] := ⟨by decide, by decide, hne⟩
      simp only [Message.typ, Message.payload, if_pos hcond, hhand, haction, List.nil_append,
        Message.arrive]
  | closeNotify =>
      have haction : postAction [] recordTypeAlert [alertLevelWarning, alertCloseNotify]
          = .fail .closed := by
        simp [postAction, recordTypeHandshake, recordTypeAlert]
      have hcond : ¬(recordTypeAlert ≠ recordTypeAlert ∧
          recordTypeAlert ≠ recordTypeChangeCipherSpec ∧
          [alertLevelWarning, alertCloseNotify] ≠ []) := fun h => h.1 rfl
      simp only [Message.typ, Message.payload, if_neg hcond, hhand, haction, ChannelEnd.fail,
        Message.arrive]
  | failed =>
      have haction : postAction [] recordTypeAlert [alertLevelError, alertUnexpectedMessage]
          = .fail (.remote alertUnexpectedMessage) := by
        simp [postAction, recordTypeHandshake, recordTypeAlert, alertUnexpectedMessage,
          alertCloseNotify, alertUserCanceled]
      have hcond : ¬(recordTypeAlert ≠ recordTypeAlert ∧
          recordTypeAlert ≠ recordTypeChangeCipherSpec ∧
          [alertLevelError, alertUnexpectedMessage] ≠ []) := fun h => h.1 rfl
      simp only [Message.typ, Message.payload, if_neg hcond, hhand, haction, ChannelEnd.fail,
        Message.arrive]

theorem handShort_keyUpdate (req : Bool) :
    ChannelEnd.handShort (keyUpdateBytes req) = false := by
  cases req <;> decide

/-- Bytes that come later do not change what the header says. -/
theorem be16At_append {a : Bytes} (b : Bytes) {i : Nat} (h : i + 1 < a.length) :
    be16At (a ++ b) i = be16At a i := by
  unfold be16At
  simp only [List.getD_eq_getElem?_getD, List.getElem?_append_left h,
    List.getElem?_append_left (Nat.lt_of_succ_lt h)]

/-- **`readRecordOrCCS` on a record that a sender in step has sent.** -/
theorem receive_framed {record : Bytes} {seq : SeqNum} {data : Bytes} {typ : UInt8}
    (hready : e.inErr = none) (howed : e.owed = .nothing) (hinput : e.input = [])
    (hhand : e.hand = []) (hframed : Framed record)
    (hdecrypt : e.inHalf.decrypt record
      = ((e.inHalf.withSeq seq).toSecureConn, .ok (data, typ))) (rest : Bytes) :
    e.receive (record ++ rest)
      = some ({ e with inHalf := e.inHalf.withSeq seq }.processRecord typ data, rest) := by
  have h5 : 5 ≤ record.length := hframed.header
  have hvers : be16At (record ++ rest) 1 = versionTLS12.toNat := by
    rw [be16At_append rest (by omega)]
    exact hframed.version
  have hann : be16At (record ++ rest) 3 = be16At record 3 := be16At_append rest (by omega)
  have hlen : recordLenAt (record ++ rest) = record.length := by
    rw [recordLenAt, hann]
    exact hframed.whole
  have hsmall := hframed.small
  have hcond : ¬(e.inErr.isSome || e.owed ≠ .nothing || e.input ≠ [] ||
      !ChannelEnd.handShort e.hand) = true := by
    simp [hready, howed, hinput, hhand, ChannelEnd.handShort]
  unfold ChannelEnd.receive
  rw [if_neg hcond, if_neg (by rw [List.length_append, recordHeaderLen]; omega),
    if_neg (by rw [hvers]; simp), if_neg (by rw [hann]; omega), hlen,
    if_neg (by rw [List.length_append]; omega), List.take_left, List.drop_left, hdecrypt]
  rfl

theorem receive_ready {x : ChannelEnd × Bytes} (h : e.receive wire = some x) :
    e.inErr = none ∧ e.owed = .nothing ∧ e.input = [] ∧ ChannelEnd.handShort e.hand = true ∧
      wire ≠ [] := by
  unfold ChannelEnd.receive at h
  split at h
  · cases h
  next hcond =>
    split at h
    · cases h
    next hlen =>
      simp only [Bool.or_eq_true, not_or, decide_eq_true_eq, not_not, Bool.not_eq_true,
        Option.isSome_eq_false_iff, Option.isNone_iff_eq_none, Bool.not_eq_false'] at hcond
      refine ⟨hcond.1.1.1, hcond.1.1.2, hcond.1.2, by simpa using hcond.2, ?_⟩
      intro hnil
      rw [hnil] at hlen
      exact hlen (by decide)

/-- What reading leaves of an end. -/
structure Receives (e e' : ChannelEnd) : Prop where
  before : e.inErr = none
  endpoint : e'.endpoint = e.endpoint
  outHalf : e'.outHalf = e.outHalf
  closeNotifySent : e'.closeNotifySent = e.closeNotifySent
  maxUselessRecords : e'.maxUselessRecords = e.maxUselessRecords
  blameless : Blameless e'
  counted : e'.hand ≠ [] → e'.retryCount = 0
  limited : e'.inErr = some .tooManyNonAdvancing → e.maxUselessRecords ≤ 0

theorem EndOk.receives (h : EndOk suite limit e) (hr : Receives e e') : EndOk suite limit e' := by
  constructor
  · rw [hr.outHalf]
    exact h.sender
  · exact hr.blameless
  · rw [hr.endpoint]
    exact h.suite13
  · rw [hr.maxUselessRecords]
    exact h.configured
  · exact hr.counted
  · rw [← h.configured]
    exact hr.limited

theorem blameless_of_nothing (h : e.owed = .nothing) : Blameless e := by
  intro code hcode
  rw [h] at hcode
  cases hcode

/-- The first message is off the wire. -/
theorem Flow.taken {m : Message} (h : Flow suite s wire r (m :: ms))
    (htransit : ∃ half last, r'.OpensWith suite half ∧
      Transit (Takes suite) InStep half rest ms last ∧
        (s.closeNotifySent = false → last = s.outHalf))
    (hhand : r'.hand = [] ∨ ∃ req, r'.hand = keyUpdateBytes req)
    (herr : r'.inErr = none ∨ (m = .closeNotify ∧ r'.inErr = some .closed) ∨
      (m = .failed ∧ r'.inErr = some (.remote alertUnexpectedMessage))) :
    Flow suite s rest r' ms := by
  constructor
  · exact htransit
  · intro hopen hmem
    exact h.unclosed hopen (List.mem_cons_of_mem m hmem)
  · intro l l' hl
    exact h.final (m :: l) l' (by rw [hl, List.cons_append])
  · intro hended
    rcases herr with hnone | ⟨rfl, -⟩ | ⟨-, hremote⟩
    · rw [hnone] at hended
      cases hended
    · refine ⟨?_, h.final [] ms rfl⟩
      by_contra hopen
      exact h.unclosed (by simpa using hopen) List.mem_cons_self
    · rw [hremote] at hended
      cases hended
  · exact hhand
  · rcases herr with hnone | ⟨-, hclosed⟩ | ⟨-, hremote⟩
    · exact .inl hnone
    · exact .inr (.inl hclosed)
    · exact .inr (.inr (.inr hremote))
  · rintro (hmem | hremote)
    · exact h.blame (.inl (List.mem_cons_of_mem m hmem))
    · rcases herr with hnone | ⟨-, hclosed⟩ | ⟨rfl, -⟩
      · rw [hnone] at hremote
        cases hremote
      · rw [hclosed] at hremote
        cases hremote
      · exact h.blame (.inl List.mem_cons_self)

/-- **Receiving** takes the first message off the wire. -/
theorem Flow.receive (h : Flow suite s wire r ms) (hr : r.receive wire = some (r', rest)) :
    ∃ m ms₀, ms = m :: ms₀ ∧ Flow suite s rest r' ms₀ ∧ Receives r r' ∧ r.input = [] ∧
      r'.input = m.bytes := by
  obtain ⟨hnone, howed, hinput, hshort, hwire⟩ := receive_ready hr
  have hhand : r.hand = [] := by
    rcases h.hand with hhand | ⟨req, hhand⟩
    · exact hhand
    · rw [hhand, handShort_keyUpdate] at hshort
      cases hshort
  obtain ⟨half, last, hkeys, htransit, hlast⟩ := h.transit
  rw [hkeys.next hnone, ChannelEnd.expects, if_pos hhand] at htransit
  cases htransit with
  | nil _ => exact absurd rfl hwire
  | @cons _ r₁ _ wire' m ms₀ _ htake hrest =>
      obtain ⟨record, seq, rfl, hframed, hfits, hdecrypt, rfl⟩ := htake
      rw [receive_framed hnone howed hinput hhand hframed hdecrypt,
        processRecord_message (e := { r with inHalf := r.inHalf.withSeq seq }) hhand hfits] at hr
      cases hr
      have hsame := arrive_same (e := { r with inHalf := r.inHalf.withSeq seq }) (m := m)
      refine ⟨m, ms₀, rfl, h.taken ?_ (arrive_hand hhand) (arrive_err hnone),
        ⟨hnone, hsame.1, hsame.2.1, hsame.2.2.1, hsame.2.2.2.2, ?_, arrive_counted hhand, ?_⟩,
        hinput, arrive_input hinput⟩
      · exact ⟨_, last, arrive_opensWith hhand, hrest, hlast⟩
      · exact blameless_of_nothing (hsame.2.2.2.1.trans howed)
      · intro htoo
        rcases arrive_err (e := { r with inHalf := r.inHalf.withSeq seq }) (m := m) hnone
          with hok | ⟨-, hclosed⟩ | ⟨-, hremote⟩
        · rw [hok] at htoo
          cases htoo
        · rw [hclosed] at htoo
          cases htoo
        · rw [hremote] at htoo
          cases htoo

/-- **A key update** is counted, and replaces the secret. -/
theorem handle_keyUpdate {req : Bool} (hready : e.inErr = none) (howed : e.owed = .nothing)
    (hhand : e.hand = keyUpdateBytes req)
    (hsuite : cipherSuiteTLS13ByID e.endpoint.cipherSuite = true) :
    e.handle suite = some (
      if (e.retryCount + 1 : Nat) > e.maxUselessRecords then
        { e with
          hand := [], retryCount := e.retryCount + 1, inErr := some .tooManyNonAdvancing
          owed := .alert alertUnexpectedMessage }
      else
        { e with
          hand := [], retryCount := e.retryCount + 1, inHalf := e.inHalf.update suite
          owed := if req then .keyUpdate else .nothing }) := by
  have hcond : ¬(e.inErr.isSome || e.owed ≠ .nothing || ChannelEnd.handShort e.hand) = true := by
    simp [hready, howed, hhand, handShort_keyUpdate]
  have htake : (keyUpdateBytes req).take (4 + 1) = keyUpdateBytes req := rfl
  have hdrop : (keyUpdateBytes req).drop (4 + 1) = [] := rfl
  unfold ChannelEnd.handle
  rw [if_neg hcond]
  dsimp only
  rw [hhand, handshakeLenAt_keyUpdate, if_neg (by cases req <;> decide), htake,
    unmarshalHandshakeMessage_keyUpdate, hdrop]
  dsimp only
  unfold ChannelEnd.handleMessage
  dsimp only
  split
  · rfl
  · rw [if_neg (by simp [hsuite])]

/-- The receiver changes, and nothing is taken off the wire. -/
theorem Flow.handled (h : Flow suite s wire r ms) (hnone : r.inErr = none) (hhand : r'.hand = [])
    (hopens : r'.OpensWith suite (r.expects suite))
    (herr : r'.inErr = none ∨ r'.inErr = some .tooManyNonAdvancing) : Flow suite s wire r' ms := by
  constructor
  · obtain ⟨half, last, hkeys, htransit⟩ := h.transit
    rw [hkeys.next hnone] at htransit
    exact ⟨_, last, hopens, htransit⟩
  · exact h.unclosed
  · exact h.final
  · intro hended
    rcases herr with hnone' | htoo
    · rw [hnone'] at hended
      cases hended
    · rw [htoo] at hended
      cases hended
  · exact .inl hhand
  · rcases herr with hnone' | htoo
    · exact .inl hnone'
    · exact .inr (.inr (.inl htoo))
  · rintro (hmem | hremote)
    · exact h.blame (.inl hmem)
    · rcases herr with hnone' | htoo
      · rw [hnone'] at hremote
        cases hremote
      · rw [htoo] at hremote
        cases hremote

theorem handle_ready (h : e.handle suite = some e') :
    e.inErr = none ∧ e.owed = .nothing ∧ ChannelEnd.handShort e.hand = false := by
  unfold ChannelEnd.handle at h
  split at h
  · cases h
  next hcond =>
    simp only [Bool.or_eq_true, not_or, decide_eq_true_eq, not_not, Bool.not_eq_true,
      Option.isSome_eq_false_iff, Option.isNone_iff_eq_none] at hcond
    exact ⟨hcond.1.1, hcond.1.2, hcond.2⟩

/-- **Handling** a key update. -/
theorem Flow.handle (h : Flow suite s wire r ms) (hok : EndOk suite limit r)
    (hr : r.handle suite = some r') :
    Flow suite s wire r' ms ∧ Receives r r' ∧ r'.input = r.input := by
  obtain ⟨hnone, howed, hshort⟩ := handle_ready hr
  obtain ⟨req, hhand⟩ : ∃ req, r.hand = keyUpdateBytes req := by
    rcases h.hand with hhand | hhand
    · rw [hhand] at hshort
      cases hshort
    · exact hhand
  have hexpects : r.expects suite = r.inHalf.update suite :=
    if_neg (by simp [hhand, keyUpdateBytes])
  have hzero : r.retryCount = 0 :=
    hok.counted (by simp [hhand, keyUpdateBytes])
  rw [handle_keyUpdate hnone howed hhand hok.suite13] at hr
  split at hr
  next hmany =>
    cases hr
    refine ⟨h.handled hnone rfl ⟨.inr hexpects, fun h => by cases h⟩ (.inr rfl),
      ⟨hnone, rfl, rfl, rfl, rfl, ?_, fun h => absurd rfl h, fun _ => ?_⟩, rfl⟩
    · intro code hcode
      cases hcode
      exact ⟨rfl, rfl⟩
    · rw [hzero] at hmany
      omega
  · cases hr
    refine ⟨h.handled hnone rfl ⟨.inl hexpects, fun _ => hexpects⟩ (.inl hnone),
      ⟨hnone, rfl, rfl, rfl, rfl, ?_, fun h => absurd rfl h, fun htoo => ?_⟩, rfl⟩
    · intro code hcode
      cases req <;> cases hcode
    · rw [show r.inErr = _ from htoo] at hnone
      cases hnone

/-! ## Every interleaving -/

abbrev ChannelTrace : Type := List ((Bool × ChannelAct) × ChannelOut)

/-- The bytes that the calls of `Write` at end `b` took. -/
def writtenBy (b : Bool) (tr : ChannelTrace) : Bytes :=
  tr.flatMap fun x => if x.1.1 = b then x.2.wrote else []

/-- The bytes that the calls of `Read` at end `b` returned. -/
def readBy (b : Bool) (tr : ChannelTrace) : Bytes :=
  tr.flatMap fun x => if x.1.1 = b then x.2.read else []

theorem writtenBy_concat (b : Bool) (tr : ChannelTrace) (x : (Bool × ChannelAct) × ChannelOut) :
    writtenBy b (tr ++ [x]) = writtenBy b tr ++ if x.1.1 = b then x.2.wrote else [] := by
  simp [writtenBy]

theorem readBy_concat (b : Bool) (tr : ChannelTrace) (x : (Bool × ChannelAct) × ChannelOut) :
    readBy b (tr ++ [x]) = readBy b tr ++ if x.1.1 = b then x.2.read else [] := by
  simp [readBy]

/-- One direction, with what was written and read so far. -/
def Delivering (suite : CipherSuiteTLS13) (tr : ChannelTrace) (c : Channel) (b : Bool) : Prop :=
  ∃ ms, Flow suite (c.ends b) (c.wire b) (c.ends (!b)) ms ∧
    readBy (!b) tr ++ (c.ends (!b)).input ++ ms.flatMap Message.bytes = writtenBy b tr

/-- What holds along every run. -/
structure Duplex (suite : CipherSuiteTLS13) (limits : Bool → Int) (tr : ChannelTrace)
    (c : Channel) : Prop where
  ends : ∀ b, EndOk suite (limits b) (c.ends b)
  flow : ∀ b, Delivering suite tr c b

/-- It is enough to look at the two directions of one end. -/
theorem Duplex.of_end {limits : Bool → Int} {tr : ChannelTrace} {c : Channel} (b : Bool)
    (hend : EndOk suite (limits b) (c.ends b)) (hother : EndOk suite (limits (!b)) (c.ends (!b)))
    (hout : Delivering suite tr c b) (hin : Delivering suite tr c (!b)) :
    Duplex suite limits tr c := by
  constructor
  · intro b'
    rcases Bool.eq_or_eq_not b' b with rfl | rfl
    · exact hend
    · exact hother
  · intro b'
    rcases Bool.eq_or_eq_not b' b with rfl | rfl
    · exact hout
    · exact hin

section Ends

variable (c : Channel) (b : Bool)

@[simp] theorem sent_ends_self : (c.sent b e sent).ends b = e := Function.update_self ..

@[simp] theorem sent_ends_other : (c.sent b e sent).ends (!b) = c.ends (!b) :=
  Function.update_of_ne (by simp) ..

@[simp] theorem sent_wire_self : (c.sent b e sent).wire b = c.wire b ++ sent.wire :=
  Function.update_self ..

@[simp] theorem sent_wire_other : (c.sent b e sent).wire (!b) = c.wire (!b) :=
  Function.update_of_ne (by simp) ..

@[simp] theorem received_ends_self : (c.received b e rest).ends b = e := Function.update_self ..

@[simp] theorem received_ends_other : (c.received b e rest).ends (!b) = c.ends (!b) :=
  Function.update_of_ne (by simp) ..

@[simp] theorem received_wire_self : (c.received b e rest).wire b = c.wire b :=
  Function.update_of_ne (by simp) ..

@[simp] theorem received_wire_other : (c.received b e rest).wire (!b) = rest :=
  Function.update_self ..

end Ends

variable {limits : Bool → Int} {tr : ChannelTrace} {c c' : Channel} {b : Bool} {a : ChannelAct}
  {out : ChannelOut}

/-- What a step of end `b` can do: send, or read. What it read or left is what it had. -/
inductive ChannelMove (suite : CipherSuiteTLS13) (limits : Bool → Int) (c : Channel) (b : Bool)
    (a : ChannelAct) : Channel → ChannelOut → Prop where
  | puts {e : ChannelEnd} {sent : Sent} {ms : List Message}
      (hputs : Puts suite (c.ends b) e sent ms)
      (hrekeys : ms.countP Message.isKeyUpdate ≤ a.rekeys) :
      ChannelMove suite limits c b a (c.sent b e sent)
        { wrote := ms.flatMap Message.bytes, nonces := sent.nonces }
  | reads {e : ChannelEnd} {rest took : Bytes} (hok : EndOk suite (limits b) e)
      (hout : e.outHalf = (c.ends b).outHalf)
      (hclose : e.closeNotifySent = (c.ends b).closeNotifySent)
      (hblame : e.inErr = (c.ends b).inErr ∨ (c.ends b).inErr = none)
      (hflow : ∀ ms₀, Flow suite (c.ends (!b)) (c.wire (!b)) (c.ends b) ms₀ →
        ∃ ms, Flow suite (c.ends (!b)) rest e ms ∧
          took ++ e.input ++ ms.flatMap Message.bytes
            = (c.ends b).input ++ ms₀.flatMap Message.bytes) :
      ChannelMove suite limits c b a (c.received b e rest) { read := took }

theorem ChannelMove.other (h : ChannelMove suite limits c b a c' out) :
    c'.ends (!b) = c.ends (!b) := by
  cases h with
  | puts _ _ => exact sent_ends_other c b
  | reads _ _ _ _ _ => exact received_ends_other c b

/-- A send that carries no data. -/
theorem ChannelMove.control (h : ∃ ms, Puts suite (c.ends b) e sent ms ∧
      ms.flatMap Message.bytes = [] ∧ ms.countP Message.isKeyUpdate ≤ a.rekeys) :
    ChannelMove suite limits c b a (c.sent b e sent) { nonces := sent.nonces } := by
  obtain ⟨ms, hputs, hnil, hrekeys⟩ := h
  have hmove : ChannelMove suite limits c b a (c.sent b e sent)
      { wrote := ms.flatMap Message.bytes, nonces := sent.nonces } := .puts hputs hrekeys
  rw [hnil] at hmove
  exact hmove

theorem take_eq {n : Nat} {took : Bytes} (h : e.take n = some (e', took)) :
    e' = { e with input := e.input.drop n } ∧ took = e.input.take n := by
  unfold ChannelEnd.take at h
  split at h
  · cases h
  · cases h
    exact ⟨rfl, rfl⟩

theorem Duplex.move (hsound : suite.Sound) (h : Duplex suite limits tr c)
    (hstep : c.step suite b a = some (c', out)) : ChannelMove suite limits c b a c' out := by
  have hok := h.ends b
  cases a with
  | write data =>
      obtain ⟨⟨e, sent, took⟩, hwrite, heq⟩ := Option.map_eq_some_iff.mp hstep
      cases heq
      obtain ⟨ms, hputs, rfl, hzero⟩ := write_puts hsound hok.sender hwrite
      exact .puts hputs hzero.le
  | closeWrite =>
      obtain ⟨⟨e, sent⟩, hclose, heq⟩ := Option.map_eq_some_iff.mp hstep
      cases heq
      obtain ⟨ms, hputs, hnil, hzero⟩ := closeWrite_puts hsound hok.sender hclose
      exact .control ⟨ms, hputs, hnil, hzero.le⟩
  | update req =>
      simp only [Channel.step] at hstep
      split at hstep
      · cases hstep
      obtain ⟨⟨e, sent⟩, hupdate, heq⟩ := Option.map_eq_some_iff.mp hstep
      cases heq
      exact .control (sendKeyUpdate_puts hsound hok.sender hupdate)
  | respond =>
      obtain ⟨⟨e, sent⟩, hrespond, heq⟩ := Option.map_eq_some_iff.mp hstep
      cases heq
      exact .control (respond_puts hsound hok.sender hok.blameless hrespond)
  | receive =>
      obtain ⟨⟨e, rest⟩, hreceive, heq⟩ := Option.map_eq_some_iff.mp hstep
      cases heq
      obtain ⟨ms₀, hflow, -⟩ := h.flow (!b)
      rw [Bool.not_not] at hflow
      obtain ⟨-, -, -, -, hrec, -⟩ := hflow.receive hreceive
      apply ChannelMove.reads (hok.receives hrec) hrec.outHalf hrec.closeNotifySent
        (.inr hrec.before)
      intro ms₀ hflow
      obtain ⟨m, ms, rfl, hnew, -, hempty, hinput⟩ := hflow.receive hreceive
      exact ⟨ms, hnew, by rw [hempty, hinput]; rfl⟩
  | handle =>
      obtain ⟨e, hhandle, heq⟩ := Option.map_eq_some_iff.mp hstep
      cases heq
      obtain ⟨ms₀, hflow, -⟩ := h.flow (!b)
      rw [Bool.not_not] at hflow
      obtain ⟨-, hrec, -⟩ := hflow.handle hok hhandle
      apply ChannelMove.reads (hok.receives hrec) hrec.outHalf hrec.closeNotifySent
        (.inr hrec.before)
      intro ms₀ hflow
      obtain ⟨hnew, -, hinput⟩ := hflow.handle hok hhandle
      exact ⟨ms₀, hnew, by rw [hinput]; rfl⟩
  | take n =>
      obtain ⟨⟨e, took⟩, htake, heq⟩ := Option.map_eq_some_iff.mp hstep
      cases heq
      obtain ⟨rfl, rfl⟩ := take_eq htake
      have hok' : EndOk suite (limits b) { c.ends b with input := (c.ends b).input.drop n } :=
        ⟨hok.sender, hok.blameless, hok.suite13, hok.configured, hok.counted, hok.limited⟩
      apply ChannelMove.reads hok' rfl rfl (.inl rfl)
      intro ms₀ hflow
      refine ⟨ms₀, ?_, by rw [List.take_append_drop]⟩
      obtain ⟨half, last, hkeys, htransit⟩ := hflow.transit
      exact ⟨⟨half, last, hkeys.same rfl rfl rfl, htransit⟩, hflow.unclosed, hflow.final,
        hflow.ended, hflow.hand, hflow.errs, hflow.blame⟩

/-- **The step lemma.** -/
theorem Duplex.step (hsound : suite.Sound) (h : Duplex suite limits tr c)
    (hmove : ChannelMove suite limits c b a c' out) :
    Duplex suite limits (tr ++ [((b, a), out)]) c' := by
  cases hmove with
  | @puts e sent ms hputs _ =>
      apply Duplex.of_end b
      · rw [sent_ends_self]
        exact (h.ends b).puts hputs
      · rw [sent_ends_other]
        exact h.ends (!b)
      · obtain ⟨ms₀, hflow, hbytes⟩ := h.flow b
        refine ⟨ms₀ ++ ms, ?_, ?_⟩
        · rw [sent_ends_self, sent_ends_other, sent_wire_self]
          exact hflow.puts hsound (h.ends b).sender hputs
        · rw [sent_ends_other, readBy_concat, writtenBy_concat, ← hbytes]
          simp
      · obtain ⟨ms₀, hflow, hbytes⟩ := h.flow (!b)
        rw [Bool.not_not] at hflow hbytes
        refine ⟨ms₀, ?_, ?_⟩
        · rw [Bool.not_not, sent_ends_self, sent_ends_other, sent_wire_other]
          exact hflow.same_receiver hputs.same
        · rw [Bool.not_not, sent_ends_self, readBy_concat, writtenBy_concat, hputs.same.input,
            ← hbytes]
          simp
  | @reads e rest took hok hout hclose hblame hflow =>
      apply Duplex.of_end b
      · rw [received_ends_self]
        exact hok
      · rw [received_ends_other]
        exact h.ends (!b)
      · obtain ⟨ms₀, hold, hbytes⟩ := h.flow b
        refine ⟨ms₀, ?_, ?_⟩
        · rw [received_ends_self, received_ends_other, received_wire_self]
          exact hold.same_sender hout hclose hblame
        · rw [received_ends_other, readBy_concat, writtenBy_concat, ← hbytes]
          simp
      · obtain ⟨ms₀, hold, hbytes⟩ := h.flow (!b)
        rw [Bool.not_not] at hold hbytes
        obtain ⟨ms, hnew, hmoved⟩ := hflow ms₀ hold
        refine ⟨ms, ?_, ?_⟩
        · rw [Bool.not_not, received_ends_self, received_ends_other, received_wire_other]
          exact hnew
        · rw [Bool.not_not, received_ends_self, readBy_concat, writtenBy_concat, ← hbytes]
          simp only [if_true, List.append_assoc] at hmoved ⊢
          rw [hmoved]
          simp

end Reality
