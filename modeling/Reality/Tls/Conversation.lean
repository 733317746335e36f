import Reality.Tls.Duplex

/-!
# A conversation, from the handshake on

What the two ends of a connection can rely on, in every interleaving of their calls: what
is read is what was written, an end of file is told only behind all of it, nothing that
was sent gets stuck, the only thing that can break the connection is a limit on useless
records that is not positive, and no record is sealed under a nonce twice.
-/

namespace Reality

open Kit

/-- What one end brings along; `trafficSecret` is the one it sends under. -/
structure EndConfig where
  endpoint : Endpoint
  trafficSecret : Bytes
  maxUselessRecords : Int := 0
  dynamicRecordSizingDisabled : Bool := false

/-- A half after `setTrafficSecret`, with the slots of the handshake cleared. -/
def SecretConn.ofSecret (suite : CipherSuiteTLS13) (secret : Bytes) : SecretConn :=
  { handshakeLen := 0, cipher := suite.aead secret, seq := .cleared
    trafficSecret := secret }

/-- Both ends when the handshake is complete. -/
def established (suite : CipherSuiteTLS13) (config : Bool → EndConfig) : Channel where
  ends b :=
    { endpoint := (config b).endpoint
      dynamicRecordSizingDisabled := (config b).dynamicRecordSizingDisabled
      inHalf := .ofSecret suite (config (!b)).trafficSecret
      outHalf := .ofSecret suite (config b).trafficSecret
      maxUselessRecords := (config b).maxUselessRecords }
  wire _ := []

/-- Both ends have agreed on a suite of TLS 1.3. -/
def SuitesAgreed (config : Bool → EndConfig) : Prop :=
  ∀ b, cipherSuiteTLS13ByID (config b).endpoint.cipherSuite = true

section Runs

variable {suite : CipherSuiteTLS13} {config : Bool → EndConfig} {tr : ChannelTrace} {c : Channel}

theorem duplex_established (hsuite : SuitesAgreed config) :
    Duplex suite (fun b => (config b).maxUselessRecords) [] (established suite config) := by
  constructor
  · intro b
    exact ⟨⟨rfl, rfl⟩, blameless_of_nothing rfl, hsuite b, rfl, fun h => absurd rfl h,
      fun h => by cases h⟩
  · intro b
    have hstep : InStep (((established suite config).ends (!b)).expects suite)
        ((established suite config).ends b).outHalf := by
      have hexpects : ((established suite config).ends (!b)).expects suite
          = .ofSecret suite (config (!!b)).trafficSecret := if_pos rfl
      rw [hexpects, Bool.not_not]
      exact ⟨rfl, rfl, rfl⟩
    refine ⟨[], ⟨⟨_, _, ChannelEnd.opensWith_expects suite _, .nil hstep, fun _ => rfl⟩, ?_, ?_, ?_,
      .inl rfl, .inl rfl, ?_⟩, rfl⟩
    · intro _ hmem
      cases hmem
    · intro l l' hl
      simp at hl
    · intro hended
      cases hended
    · rintro (hmem | hremote)
      · cases hmem
      · cases hremote

/-- **The run lemma.** -/
theorem Duplex.run (hsound : suite.Sound) (hsuite : SuitesAgreed config)
    (h : (channel suite).Run (established suite config) tr c) :
    Duplex suite (fun b => (config b).maxUselessRecords) tr c :=
  h.invariant (I := fun tr c => Duplex suite (fun b => (config b).maxUselessRecords) tr c)
    (duplex_established hsuite)
    fun _ _ _ _ _ hinv hstep => hinv.step hsound (hinv.move hsound hstep)

/-! ## What is read -/

/-- **What is read is what was written.** The bytes one end has read, those in its buffer
and those of the messages on the wire are what the other has written, in order. The wire
holds the records of these messages and nothing else: a half with the keys of what comes
in next takes them off one by one. An end of file comes behind all of them. -/
theorem channel_delivers (hsound : suite.Sound) (hsuite : SuitesAgreed config)
    (h : (channel suite).Run (established suite config) tr c) (b : Bool) :
    ∃ half ms last, (c.ends (!b)).OpensWith suite half ∧
      Transit (Takes suite) InStep half (c.wire b) ms last ∧
      ((c.ends b).closeNotifySent = false → last = (c.ends b).outHalf) ∧
      readBy (!b) tr ++ (c.ends (!b)).input ++ ms.flatMap Message.bytes = writtenBy b tr ∧
      ((c.ends (!b)).inErr = some .closed →
        c.wire b = [] ∧ readBy (!b) tr ++ (c.ends (!b)).input = writtenBy b tr) := by
  obtain ⟨ms, hflow, hbytes⟩ := (Duplex.run hsound hsuite h).flow b
  obtain ⟨half, last, hkeys, htransit, hlast⟩ := hflow.transit
  refine ⟨half, ms, last, hkeys, htransit, hlast, hbytes, ?_⟩
  intro hended
  have hnil := (hflow.ended hended).2
  rw [hnil] at htransit hbytes
  exact ⟨htransit.wire_nil, (List.append_nil _).symm.trans hbytes⟩

/-- **Nothing gets stuck.** A reader that did not fail and owes nothing, and that can
neither take a record, nor handle a message, nor return bytes, has read everything. -/
theorem channel_progress (hsound : suite.Sound) (hsuite : SuitesAgreed config)
    (h : (channel suite).Run (established suite config) tr c) (b : Bool)
    (hnone : (c.ends (!b)).inErr = none) (howed : (c.ends (!b)).owed = .nothing)
    (hreceive : c.step suite (!b) .receive = none) (hhandle : c.step suite (!b) .handle = none)
    (htake : ∀ n, c.step suite (!b) (.take n) = none) : readBy (!b) tr = writtenBy b tr := by
  have hduplex := Duplex.run hsound hsuite h
  obtain ⟨ms, hflow, hbytes⟩ := hduplex.flow b
  have hinput : (c.ends (!b)).input = [] := by
    by_contra hne
    have hstuck := Option.map_eq_none_iff.mp (htake 1)
    rw [ChannelEnd.take, if_neg (by simp [howed, hne])] at hstuck
    cases hstuck
  have hhand : (c.ends (!b)).hand = [] := by
    rcases hflow.hand with hhand | ⟨req, hhand⟩
    · exact hhand
    · have hstuck := Option.map_eq_none_iff.mp hhandle
      rw [handle_keyUpdate hnone howed hhand (hduplex.ends (!b)).suite13] at hstuck
      cases hstuck
  obtain ⟨half, last, hkeys, htransit, -⟩ := hflow.transit
  rw [hkeys.next hnone, ChannelEnd.expects, if_pos hhand] at htransit
  have hstuck : (c.ends (!b)).receive (c.wire (!!b)) = none := Option.map_eq_none_iff.mp hreceive
  rw [Bool.not_not] at hstuck
  generalize c.wire b = wire at htransit hstuck
  cases htransit with
  | nil _ =>
      rw [hinput] at hbytes
      simpa using hbytes
  | cons htaken _ =>
      obtain ⟨record, seq, rfl, hframed, -, hdecrypt, -⟩ := htaken
      rw [receive_framed hnone howed hinput hhand hframed hdecrypt] at hstuck
      cases hstuck

/-- **What can break a connection.** A reader stops at the end of the file, or because
`MaxUselessRecords` is not positive: its own, so that the first key update is one too
many, or the other's, of which an alert tells. No record fails to open. -/
theorem channel_breaks_at_limit (hsound : suite.Sound) (hsuite : SuitesAgreed config)
    (h : (channel suite).Run (established suite config) tr c) (b : Bool) :
    (c.ends b).inErr = none ∨ (c.ends b).inErr = some .closed ∨
      ((c.ends b).inErr = some .tooManyNonAdvancing ∧ (config b).maxUselessRecords ≤ 0) ∨
      ((c.ends b).inErr = some (.remote alertUnexpectedMessage) ∧
        (config (!b)).maxUselessRecords ≤ 0) := by
  have hduplex := Duplex.run hsound hsuite h
  obtain ⟨ms, hflow, -⟩ := hduplex.flow (!b)
  rw [Bool.not_not] at hflow
  rcases hflow.errs with hnone | hclosed | htoo | hremote
  · exact .inl hnone
  · exact .inr (.inl hclosed)
  · exact .inr (.inr (.inl ⟨htoo, (hduplex.ends b).limited htoo⟩))
  · exact .inr (.inr (.inr ⟨hremote, (hduplex.ends (!b)).limited (hflow.blame (.inr hremote))⟩))

/-! ## What records are sealed under -/

/-- The nonces of the records that end `b` has sealed, with the secrets of their keys. -/
def noncesOf (b : Bool) (tr : ChannelTrace) : List (Bytes × SeqNum) :=
  tr.flatMap fun x => if x.1.1 = b then x.2.nonces else []

theorem noncesOf_concat (b : Bool) (tr : ChannelTrace) (x : (Bool × ChannelAct) × ChannelOut) :
    noncesOf b (tr ++ [x]) = noncesOf b tr ++ if x.1.1 = b then x.2.nonces else [] := by
  simp [noncesOf]

theorem SeqNum.value_inc {s s' : SeqNum} (h : s.inc = some s') : s'.value = s.value + 1 := by
  have hspec := incBytes_spec s.bytes
  unfold SeqNum.inc at h
  cases ht : incBytes s.bytes with
  | none =>
      simp [ht] at h
  | some t =>
      rw [ht] at hspec
      simp only [ht, Option.pmap_some, Option.some.injEq] at h
      rw [← h]
      exact hspec.2

/-- How often end `b` may have replaced the secret it sends under. -/
def rekeysBy (b : Bool) (tr : ChannelTrace) : Nat :=
  (tr.map fun x => if x.1.1 = b then x.1.2.rekeys else 0).sum

theorem rekeysBy_concat (b : Bool) (tr : ChannelTrace) (x : (Bool × ChannelAct) × ChannelOut) :
    rekeysBy b (tr ++ [x]) = rekeysBy b tr + if x.1.1 = b then x.1.2.rekeys else 0 := by
  simp [rekeysBy]

/-- `secret` and the next `n` secrets are different. -/
def CipherSuiteTLS13.FreshFor (suite : CipherSuiteTLS13) (secret : Bytes) (n : Nat) : Prop :=
  ∀ g g', g < g' → g' ≤ n → suite.nextTrafficSecret^[g] secret ≠ suite.nextTrafficSecret^[g'] secret

theorem CipherSuiteTLS13.FreshFor.mono {secret : Bytes} {n n' : Nat}
    (h : suite.FreshFor secret n') (hle : n ≤ n') : suite.FreshFor secret n :=
  fun g g' hlt hg' => h g g' hlt (hg'.trans hle)

/-- A half is at generation `g` of the secret it started with, of at most `n`, and every
nonce it used is of an earlier generation, or of this one and behind its number. -/
structure Unused (suite : CipherSuiteTLS13) (secret : Bytes) (n : Nat)
    (used : List (Bytes × SeqNum)) (hc : SecretConn) : Prop where
  nodup : used.Nodup
  behind : ∃ g, g ≤ n ∧ hc.trafficSecret = suite.nextTrafficSecret^[g] secret ∧
    ∀ x ∈ used, ∃ g', x.1 = suite.nextTrafficSecret^[g'] secret ∧
      (g' < g ∨ g' = g ∧ x.2.value < hc.seq.value)

theorem Unused.mono {secret : Bytes} {n n' : Nat} {used : List (Bytes × SeqNum)} {hc : SecretConn}
    (h : Unused suite secret n used hc) (hle : n ≤ n') : Unused suite secret n' used hc := by
  obtain ⟨g, hg, hbehind⟩ := h.behind
  exact ⟨h.nodup, g, hg.trans hle, hbehind⟩

theorem Unused.seals {secret : Bytes} {n k : Nat} {used nonces : List (Bytes × SeqNum)}
    {hc hc' : SecretConn} (hfresh : suite.FreshFor secret (n + k))
    (h : Unused suite secret n used hc) (hseals : Seals suite hc nonces k hc') :
    Unused suite secret (n + k) (used ++ nonces) hc' := by
  induction hseals generalizing used n with
  | nil => simpa using h
  | @record hc hc' seq nonces k hseq _ ih =>
      obtain ⟨g, hgn, hg, hbehind⟩ := h.behind
      have hvalue := SeqNum.value_inc hseq
      have hnew : (hc.trafficSecret, hc.seq) ∉ used := by
        intro hmem
        obtain ⟨g', hg', hlt | ⟨-, hlt⟩⟩ := hbehind _ hmem
        · -- Two generations would have one secret.
          exact hfresh g' g hlt (by omega) (hg'.symm.trans hg)
        · exact Nat.lt_irrefl _ hlt
      have hnext : Unused suite secret n (used ++ [(hc.trafficSecret, hc.seq)])
          (hc.withSeq seq) := by
        refine ⟨?_, g, hgn, hg, ?_⟩
        · exact h.nodup.append (List.nodup_singleton _) (by simpa using hnew)
        · intro x hx
          have hseqv : (hc.withSeq seq).seq.value = hc.seq.value + 1 := hvalue
          rcases List.mem_append.mp hx with hx | hx
          · obtain ⟨g', hg', hlt | ⟨rfl, hlt⟩⟩ := hbehind x hx
            · exact ⟨g', hg', .inl hlt⟩
            · exact ⟨g', hg', .inr ⟨rfl, by omega⟩⟩
          · rw [List.mem_singleton.mp hx]
            exact ⟨g, hg, .inr ⟨rfl, hseqv ▸ Nat.lt_succ_self _⟩⟩
      have hall := ih hfresh hnext
      rw [List.append_assoc] at hall
      exact hall
  | @update hc hc' nonces k _ ih =>
      obtain ⟨g, hgn, hg, hbehind⟩ := h.behind
      have hnext : Unused suite secret (n + 1) used (hc.update suite) := by
        refine ⟨h.nodup, g + 1, by omega, ?_, ?_⟩
        · show suite.nextTrafficSecret hc.trafficSecret = _
          rw [hg, Function.iterate_succ_apply']
        · intro x hx
          obtain ⟨g', hg', hlt⟩ := hbehind x hx
          exact ⟨g', hg', .inl (by omega)⟩
      have hshift : n + 1 + k = n + (k + 1) := by omega
      rw [← hshift] at hfresh ⊢
      exact ih hfresh hnext

/-- **No nonce is used twice.** If the secrets an end goes through in the run are
different, no two of the records it seals are under the same secret and number, records
that could not be sent included. -/
theorem nonces_never_repeat (hsound : suite.Sound) (hsuite : SuitesAgreed config)
    (h : (channel suite).Run (established suite config) tr c) (b : Bool)
    (hfresh : suite.FreshFor (config b).trafficSecret (rekeysBy b tr)) :
    (noncesOf b tr).Nodup := by
  have hinv := h.invariant
    (I := fun tr c => Duplex suite (fun b => (config b).maxUselessRecords) tr c ∧
      (suite.FreshFor (config b).trafficSecret (rekeysBy b tr) →
        Unused suite (config b).trafficSecret (rekeysBy b tr) (noncesOf b tr)
          (c.ends b).outHalf))
    ⟨duplex_established hsuite, fun _ => ⟨List.nodup_nil, 0, Nat.le_refl 0, rfl,
      fun n hn => by cases hn⟩⟩ ?_
  · exact (hinv.2 hfresh).nodup
  · intro tr c x c' out hinv hstep
    obtain ⟨hduplex, hunused⟩ := hinv
    have hmove := hduplex.move hsound hstep
    refine ⟨hduplex.step hsound hmove, ?_⟩
    rw [noncesOf_concat, rekeysBy_concat]
    intro hfresh
    have hbefore := hunused (hfresh.mono (Nat.le_add_right _ _))
    obtain ⟨b', a⟩ := x
    rcases Bool.eq_or_eq_not b' b with rfl | rfl
    · rw [if_pos rfl] at hfresh ⊢
      cases hmove with
      | puts hputs hrekeys =>
          have hle := Nat.add_le_add_left hrekeys (rekeysBy b' tr)
          rw [sent_ends_self, if_pos rfl]
          exact (hbefore.seals (hfresh.mono hle) hputs.seals).mono hle
      | reads _ hout _ _ _ =>
          rw [received_ends_self, hout, if_pos rfl, List.append_nil]
          exact hbefore.mono (Nat.le_add_right _ _)
    · have hother : c'.ends (!!b) = c.ends (!!b) := hmove.other
      rw [Bool.not_not] at hother
      rw [hother, if_neg (by simp), if_neg (by simp), List.append_nil]
      exact hbefore

end Runs

/-! ## A sample conversation -/

/-- A suite that hides nothing; its secrets are counted on. -/
def clearSuite : CipherSuiteTLS13 where
  hashSize := 32
  nextTrafficSecret secret := (secret.headD 0 + 1) :: List.replicate 31 0
  length_nextTrafficSecret _ := rfl
  aead _ := clearCipher

theorem clearSuite_sound : clearSuite.Sound := ⟨fun _ => clearCipher_inverts, fun _ => rfl⟩

def sampleEnds (b : Bool) : EndConfig where
  endpoint :=
    { isClient := b, cipherSuite := 0x1301, ticketCache := false, resumptionSecret := none
      unmarshals := fun _ => true }
  trafficSecret := (if b then 1 else 2) :: List.replicate 31 0
  maxUselessRecords := 1

theorem sampleEnds_suite : SuitesAgreed sampleEnds := fun _ => rfl

/-- The server writes, wants new keys, writes and closes; the client reads all of it. -/
def sampleTalk : List (Bool × ChannelAct) :=
  [(false, .write [1, 2]), (false, .update true), (false, .write [3]), (false, .closeWrite),
    (true, .receive), (true, .take 2), (true, .receive), (true, .handle), (true, .respond),
    (true, .receive), (true, .take 1), (true, .receive)]

/-- In the middle of the talk there are records on the wire, and at its end all is read. -/
theorem channel_delivers_talk :
    (∃ tr c half ms last, (channel clearSuite).Run (established clearSuite sampleEnds) tr c ∧
      Transit (Takes clearSuite) InStep half (c.wire false) ms last ∧
      readBy true tr = [1, 2] ∧ ms.flatMap Message.bytes = [3]) ∧
    ∃ tr c, (channel clearSuite).Run (established clearSuite sampleEnds) tr c ∧
      (c.ends true).inErr = some .closed ∧ readBy true tr = [1, 2, 3] ∧
      writtenBy false tr = [1, 2, 3] := by
  constructor
  · have hexec : ∃ tr c, (channel clearSuite).Run (established clearSuite sampleEnds) tr c ∧
        readBy true tr = [1, 2] ∧ (c.ends true).input = [] ∧ writtenBy false tr = [1, 2, 3] :=
      Machine.Run.exists_of_exec (sampleTalk.take 6) (by decide +kernel)
    obtain ⟨tr, c, h, hread, hinput, hwritten⟩ := hexec
    obtain ⟨half, ms, last, -, htransit, -, hbytes, -⟩ :=
      channel_delivers clearSuite_sound sampleEnds_suite h false
    refine ⟨tr, c, half, ms, last, h, htransit, hread, ?_⟩
    rw [Bool.not_false, hread, hinput, hwritten] at hbytes
    simpa using hbytes
  · have hexec : ∃ tr c, (channel clearSuite).Run (established clearSuite sampleEnds) tr c ∧
        (c.ends true).inErr = some .closed ∧ readBy true tr = [1, 2, 3] ∧
        (c.ends true).input = [] :=
      Machine.Run.exists_of_exec sampleTalk (by decide +kernel)
    obtain ⟨tr, c, h, hended, hread, hinput⟩ := hexec
    obtain ⟨half, ms, last, -, -, -, -, hall⟩ :=
      channel_delivers clearSuite_sound sampleEnds_suite h false
    refine ⟨tr, c, h, hended, hread, ?_⟩
    rw [← (hall hended).2, Bool.not_false, hread, hinput]
    rfl

theorem channel_progress_talk :
    ∃ tr c, (channel clearSuite).Run (established clearSuite sampleEnds) tr c ∧
      readBy true tr = [1, 2] ∧ writtenBy false tr = [1, 2] := by
  have hexec : ∃ tr c, (channel clearSuite).Run (established clearSuite sampleEnds) tr c ∧
      readBy true tr = [1, 2] ∧ (c.ends true).inErr = none ∧ (c.ends true).owed = .nothing ∧
      (c.ends true).input = [] ∧ (c.step clearSuite true .receive).isNone ∧
      (c.step clearSuite true .handle).isNone :=
    Machine.Run.exists_of_exec [(false, .write [1, 2]), (true, .receive), (true, .take 2)]
      (by decide +kernel)
  obtain ⟨tr, c, h, hread, hnone, howed, hinput, hreceive, hhandle⟩ := hexec
  have htake : ∀ n, c.step clearSuite true (.take n) = none := by
    intro n
    simp [Channel.step, ChannelEnd.take, hinput]
  refine ⟨tr, c, h, hread, ?_⟩
  rw [← channel_progress clearSuite_sound sampleEnds_suite h false hnone howed
    (Option.isNone_iff_eq_none.mp hreceive) (Option.isNone_iff_eq_none.mp hhandle) htake]
  exact hread

/-- With the limit at one the key update is fine, and only the end of the file is left. -/
theorem channel_breaks_at_limit_talk :
    ∃ tr c, (channel clearSuite).Run (established clearSuite sampleEnds) tr c ∧
      (c.ends true).inErr ≠ none ∧ (c.ends true).inErr = some .closed := by
  have hexec : ∃ tr c, (channel clearSuite).Run (established clearSuite sampleEnds) tr c ∧
      (c.ends true).inErr ≠ none :=
    Machine.Run.exists_of_exec sampleTalk (by decide +kernel)
  obtain ⟨tr, c, h, hne⟩ := hexec
  refine ⟨tr, c, h, hne, ?_⟩
  rcases channel_breaks_at_limit clearSuite_sound sampleEnds_suite h true
    with hnone | hclosed | ⟨-, hlimit⟩ | ⟨-, hlimit⟩
  · exact absurd hnone hne
  · exact hclosed
  · exact absurd hlimit (by decide)
  · exact absurd hlimit (by decide)

theorem nonces_never_repeat_talk :
    ∃ tr c, (channel clearSuite).Run (established clearSuite sampleEnds) tr c ∧
      (noncesOf false tr).length = 4 ∧ rekeysBy false tr = 1 ∧
      clearSuite.FreshFor (sampleEnds false).trafficSecret 1 ∧ (noncesOf false tr).Nodup := by
  have hexec : ∃ tr c, (channel clearSuite).Run (established clearSuite sampleEnds) tr c ∧
      (noncesOf false tr).length = 4 ∧ rekeysBy false tr = 1 :=
    Machine.Run.exists_of_exec sampleTalk (by decide +kernel)
  obtain ⟨tr, c, h, hlen, hrekeys⟩ := hexec
  have hfresh : clearSuite.FreshFor (sampleEnds false).trafficSecret 1 := by
    intro g g' hlt hle
    obtain ⟨rfl, rfl⟩ : g = 0 ∧ g' = 1 := by omega
    decide
  exact ⟨tr, c, h, hlen, hrekeys, hfresh, nonces_never_repeat clearSuite_sound sampleEnds_suite h
    false (hrekeys ▸ hfresh)⟩

end Reality
