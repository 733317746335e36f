import Reality.Probe
import Reality.Server.Rounds

/-!
# Two parsers of one flight

The live capture and the probe parser are two loops, written apart, over the
same records, and the cache compares their results. The capture assigns some
slots early, looks for R6 only when bytes are left and keeps state between
reads; the parser reads on until the bytes run out and accepts what it has.

On a flight of whole records that arrives in one read none of this shows: both
loops split on `headOf` in the same places and go through the records in
lockstep, and after R5 both are content.
-/

namespace Reality

open Kit

/-! ## One round of the probe parser -/

section
variable {n i : Nat} {s : Bytes} {lens : RecordLens} {suite : UInt16}

theorem parseRecords_short (h : headOf i s = .short) :
    parseRecords (n + 1) i s lens suite = some (lens, suite, i) := by
  rw [parseRecords, if_pos (headOf_short h)]

theorem parseRecords_bad (h : headOf i s = .bad) :
    parseRecords (n + 1) i s lens suite = none := by
  obtain ⟨hlen, hbad⟩ := headOf_bad h
  rw [parseRecords, if_neg (by omega)]
  cases hh : headerOk i s with
  | false => rfl
  | true =>
      rw [hh, Bool.true_and] at hbad
      dsimp only
      rw [if_neg (by decide), hbad]
      rfl

theorem parseRecords_part (h : headOf i s = .part) :
    parseRecords (n + 1) i s lens suite = some (lens, suite, i) := by
  obtain ⟨hg, hlen⟩ := headOf_part h
  have hseen := hg.seen
  rw [parseRecords, if_neg (by omega), if_neg (by simp [hg.header])]
  dsimp only
  rw [if_neg (by simp [hg.length]), if_pos hlen]

theorem parseRecords_full (h : headOf i s = .full) :
    parseRecords (n + 1) i s lens suite =
      if i = 0 then
        (unmarshalServerHello (Capture.helloBytes s (recordLenAt s))).bind fun hello =>
          parseRecords n (i + 1) (s.drop (recordLenAt s))
            (Function.update lens (slot i) (recordLenAt s : Int)) hello.cipherSuite
      else
        parseRecords n (i + 1) (s.drop (recordLenAt s))
          (Function.update lens (slot i) (recordLenAt s : Int)) suite := by
  obtain ⟨hg, hlen⟩ := headOf_full h
  have hseen := hg.seen
  rw [parseRecords, if_neg (by omega), if_neg (by simp [hg.header])]
  dsimp only
  rw [if_neg (by simp [hg.length]), if_neg (by omega)]
  split
  · rw [Capture.helloBytes]
    cases unmarshalServerHello ((s.take (recordLenAt s)).drop recordHeaderLen) <;> rfl
  · rfl

end

/-! ## Whole records on the wire -/

/-- A complete record of any type and version, with a payload. -/
structure WireRecord where
  typ : UInt8
  version : UInt16
  payload : Bytes
  nonempty : payload ≠ []
  fits : payload.length < 65536

namespace WireRecord

def bytes (r : WireRecord) : Bytes := recordHeader r.typ r.version r.payload.length ++ r.payload

/-- The records one after the other. -/
def stream (rs : List WireRecord) : Bytes := (rs.map bytes).flatten

theorem stream_cons (r : WireRecord) (rs : List WireRecord) :
    stream (r :: rs) = r.bytes ++ stream rs := rfl

theorem length_bytes (r : WireRecord) :
    r.bytes.length = recordHeaderLen + r.payload.length := by
  rw [bytes, List.length_append]
  rfl

theorem header_lt (r : WireRecord) : recordHeaderLen < r.bytes.length := by
  have := List.length_pos_of_ne_nil r.nonempty
  rw [length_bytes]
  omega

theorem recordLenAt_bytes (r : WireRecord) : recordLenAt r.bytes = r.bytes.length := by
  rw [length_bytes, recordLenAt]
  exact congrArg _ (be16_ofNat r.fits)

/-- The announced length of the first record is its own. -/
theorem recordLenAt_stream (r : WireRecord) (rs : List WireRecord) :
    recordLenAt (stream (r :: rs)) = r.bytes.length := by
  rw [stream_cons, recordLenAt_append r.header_lt, recordLenAt_bytes]

theorem drop_stream (r : WireRecord) (rs : List WireRecord) :
    (stream (r :: rs)).drop (recordLenAt (stream (r :: rs))) = stream rs := by
  rw [recordLenAt_stream, stream_cons, List.drop_left]

theorem helloBytes_stream (r : WireRecord) (rs : List WireRecord) :
    Capture.helloBytes (stream (r :: rs)) (recordLenAt (stream (r :: rs))) = r.payload := by
  rw [recordLenAt_stream, stream_cons, Capture.helloBytes, List.take_left, bytes]
  rfl

theorem stream_eq_nil {rs : List WireRecord} : stream rs = [] ↔ rs = [] := by
  cases rs with
  | nil => simp [stream]
  | cons r rs =>
      have := r.header_lt
      simp only [stream_cons, List.append_eq_nil_iff, reduceCtorEq, iff_false, not_and]
      intro hnil
      rw [hnil] at this
      cases this

/-- A whole record is refused or used up; nothing waits for more bytes. -/
theorem headOf_stream (i : Nat) (r : WireRecord) (rs : List WireRecord) :
    headOf i (stream (r :: rs)) = .bad ∨ headOf i (stream (r :: rs)) = .full := by
  have hlen : r.bytes.length ≤ (stream (r :: rs)).length := by
    rw [stream_cons, List.length_append]
    omega
  have hseen := r.header_lt
  rw [headOf, if_neg (by omega)]
  split
  · exact .inl rfl
  · rw [recordLenAt_stream, if_neg (by omega)]
    exact .inr rfl

end WireRecord

/-! ## The two loops in lockstep -/

/-- What the capture returns and what the parser returns say the same. -/
def Agree (r : CaptureResult) : Option (RecordLens × UInt16 × Nat) → Prop
  | none => r.err ≠ none
  | some (lens, suite, k) =>
      r.err = none ∧ r.usedLen = lens ∧ r.hello.map (·.cipherSuite) = some suite ∧ 0 < k

namespace Capture

variable {env : CaptureEnv} {i : Nat} {c : Capture}

theorem afterRecord_hello (h0 : i ≠ 0) (c : Capture) : (afterRecord i c).hello = c.hello := by
  unfold afterRecord
  dsimp only
  rw [if_neg h0]
  have hvars := congrArg CaptureVars.hello (assignEarly_vars i (recordLenAt c.saved) c)
  exact hvars

/-- Behind R0, record `i` comes next for both loops: whole records are left, enough
to reach R5, and `suite` is that of the captured ServerHello. -/
structure Lockstep (i : Nat) (c : Capture) (suite : UInt16) (rs : List WireRecord) : Prop
    extends Base i c where
  behind : i ≠ 0
  left : c.saved = WireRecord.stream rs
  enough : 6 ≤ i + rs.length
  hello : c.hello.map (·.cipherSuite) = some suite

/-- One record is used up by both. -/
theorem Lockstep.afterRecord {suite : UInt16} {r : WireRecord} {rs : List WireRecord}
    (h : Lockstep i c suite (r :: rs)) (h5 : i ≤ 5) (hrest : i = 5 → rs ≠ []) :
    Lockstep (i + 1) (afterRecord i c) suite rs := by
  have hleft : c.saved.drop (recordLenAt c.saved) = WireRecord.stream rs := by
    rw [h.left, WireRecord.drop_stream]
  have henough := h.enough
  refine ⟨h.toBase.afterRecord h5 ?_, by omega, hleft, ?_, ?_⟩
  · intro hi hnil
    exact hrest hi (WireRecord.stream_eq_nil.mp (hleft.symm.trans hnil))
  · rw [List.length_cons] at henough
    omega
  · rw [afterRecord_hello h.behind]
    exact h.hello

/-- **Lockstep**: from R1 on the capture ends within the scan, and agrees with
the parser. -/
theorem Lockstep.scan {suite : UInt16} {rs : List WireRecord} {n : Nat}
    (h : Lockstep i c suite rs) (hn : n + i = 7) :
    ∃ r, c.scan env n i = .done r ∧ Agree r (parseRecords n i c.saved c.usedLen suite) := by
  induction n generalizing i c rs with
  | zero =>
      have := h.le
      omega
  | succ n ih =>
      have hle := h.le
      have henough := h.enough
      -- R6 is looked for only when there is one.
      obtain ⟨r, rs, rfl⟩ : ∃ r rest, rs = r :: rest := by
        refine List.exists_cons_of_ne_nil ?_
        rintro rfl
        have h6 : i = 6 := by
          rw [List.length_nil] at henough
          omega
        exact h.ticket h6 h.left
      rcases WireRecord.headOf_stream i r rs with hbad | hfull
      · rw [← h.left] at hbad
        refine ⟨_, by rw [Capture.scan, h.index_bad hbad], ?_⟩
        rw [parseRecords_bad hbad]
        exact Option.some_ne_none _
      · rw [← h.left] at hfull
        have hleft : c.saved.drop (recordLenAt c.saved) = WireRecord.stream rs := by
          rw [h.left, WireRecord.drop_stream]
        have hidx : c.index env i = _ := h.index_full hfull (fun h0 => absurd h0 h.behind)
        rw [if_neg (by simp [h.behind])] at hidx
        rw [parseRecords_full hfull, if_neg h.behind, ← afterRecord_usedLen,
          ← afterRecord_saved i c, Capture.scan, hidx]
        by_cases hend : i = 5 ∧ rs = [] ∨ i = 6
        · -- The capture returns; the parser finds nothing more to read.
          rw [if_pos (by simpa [hleft, WireRecord.stream_eq_nil] using hend)]
          refine ⟨_, rfl, ?_⟩
          have hlast : parseRecords n (i + 1) (Capture.afterRecord i c).saved
              (Capture.afterRecord i c).usedLen suite
              = some ((Capture.afterRecord i c).usedLen, suite, i + 1) := by
            rcases hend with ⟨rfl, rfl⟩ | rfl
            · obtain rfl : n = 1 := by omega
              rw [afterRecord_saved, hleft]
              exact parseRecords_short rfl
            · obtain rfl : n = 0 := by omega
              rfl
          rw [hlast]
          refine ⟨rfl, rfl, ?_, Nat.succ_pos i⟩
          have hhello := h.hello
          rwa [← afterRecord_hello h.behind] at hhello
        · rw [if_neg (by simpa [hleft, WireRecord.stream_eq_nil] using hend)]
          rw [not_or] at hend
          exact ih (h.afterRecord (by omega) (fun h5 hnil => hend.1 ⟨h5, hnil⟩)) (by omega)

/-- R0 puts the two loops in lockstep, or is refused by both. -/
theorem scan_agrees (hmode : resolveAmortizeMode env.mode = .l0) {r0 : WireRecord}
    {rs : List WireRecord} (hsix : 6 ≤ (r0 :: rs).length)
    (hhello : ∀ hello, unmarshalServerHello r0.payload = some hello → validHello hello = true)
    (hb : Base 0 c) (hleft : c.saved = WireRecord.stream (r0 :: rs)) :
    ∃ r, c.scan env 7 0 = .done r ∧ Agree r (parseRecords 7 0 c.saved c.usedLen 0) := by
  have hpayload : helloBytes c.saved (recordLenAt c.saved) = r0.payload := by
    rw [hleft, WireRecord.helloBytes_stream]
  rcases WireRecord.headOf_stream 0 r0 rs with hbad | hfull
  · rw [← hleft] at hbad
    refine ⟨_, by rw [Capture.scan, hb.index_bad hbad], ?_⟩
    rw [parseRecords_bad hbad]
    exact Option.some_ne_none _
  · rw [← hleft] at hfull
    rw [parseRecords_full hfull, if_pos rfl, Capture.scan, hpayload]
    cases hm : unmarshalServerHello r0.payload with
    | none =>
        have hv : validR0 c.saved = false := by rw [validR0, hpayload, hm]; rfl
        rw [hb.index_invalid hfull hv]
        exact ⟨_, rfl, Option.some_ne_none _⟩
    | some hello =>
        have hv : validR0 c.saved = true := by
          rw [validR0, hpayload, hm]
          exact hhello hello hm
        rw [hb.index_next (fun _ => hmode) hfull (by decide) (fun _ => hv)]
        have hlock : Lockstep 1 (afterRecord 0 c) hello.cipherSuite rs := by
          refine ⟨hb.afterRecord (by decide) (fun h5 => by cases h5), by decide, ?_, ?_, ?_⟩
          · rw [afterRecord_saved, hleft, WireRecord.drop_stream]
          · rw [List.length_cons] at hsix
            omega
          · show (unmarshalServerHello (helloBytes c.saved (recordLenAt c.saved))).map _ = _
            rw [hpayload, hm]
            rfl
        have hscan : ∃ r, (afterRecord 0 c).scan env 6 1 = .done r ∧ Agree r (parseRecords 6 1
            (afterRecord 0 c).saved (afterRecord 0 c).usedLen hello.cipherSuite) :=
          hlock.scan rfl
        rw [afterRecord_usedLen, afterRecord_saved] at hscan
        rw [Option.bind_some]
        exact hscan

end Capture

/-- **The two parsers agree** on a flight of whole records, at least six, that
arrives in one read: the capture succeeds exactly when the probe parser does,
and then both give the same lengths and the same cipher suite. The capture asks
more of R0 than the parser; a ServerHello it would refuse is excluded. -/
theorem capture_agrees_with_probe {env : CaptureEnv}
    (hmode : resolveAmortizeMode env.mode = .l0) {r0 : WireRecord} {rs : List WireRecord}
    (hsix : 6 ≤ (r0 :: rs).length)
    (hsize : (WireRecord.stream (r0 :: rs)).length ≤ maxRecordSize)
    (hhello : ∀ hello, unmarshalServerHello r0.payload = some hello →
      Capture.validHello hello = true)
    (err : Option NetErr) (later : List Read) :
    ((captureTargetRecords env (⟨WireRecord.stream (r0 :: rs), err⟩ :: later)).1.err = none ↔
      (parseRecordLens (WireRecord.stream (r0 :: rs))).isSome = true) ∧
    ∀ lens suite, parseRecordLens (WireRecord.stream (r0 :: rs)) = some (lens, suite) →
      (captureTargetRecords env (⟨WireRecord.stream (r0 :: rs), err⟩ :: later)).1.usedLen = lens ∧
      (captureTargetRecords env
        (⟨WireRecord.stream (r0 :: rs), err⟩ :: later)).1.hello.map (·.cipherSuite)
        = some suite := by
  have hne : WireRecord.stream (r0 :: rs) ≠ [] :=
    fun hnil => List.cons_ne_nil _ _ (WireRecord.stream_eq_nil.mp hnil)
  obtain ⟨r, hscan, hagree⟩ := Capture.scan_agrees hmode hsix hhello
    (Capture.base_start (WireRecord.stream (r0 :: rs))) rfl
  have hout : (captureTargetRecords env (⟨WireRecord.stream (r0 :: rs), err⟩ :: later)).1 = r := by
    have hfeed : Capture.feed env {} (WireRecord.stream (r0 :: rs)) = .done r := by
      rw [Capture.feed, hscan]
    rw [captureTargetRecords, maxTargetReads,
      Capture.readLoop_done (r := ⟨WireRecord.stream (r0 :: rs), err⟩) hne
        (by rwa [List.length_nil, Nat.zero_add]) hfeed]
  have hparse : Agree r (parseRecords 7 0 (WireRecord.stream (r0 :: rs)) 0 0) := hagree
  rw [hout, parseRecordLens]
  generalize parseRecords 7 0 (WireRecord.stream (r0 :: rs)) 0 0 = parsed at hparse ⊢
  cases parsed with
  | none => exact ⟨⟨fun h => absurd h hparse, fun h => by cases h⟩, fun _ _ h => by cases h⟩
  | some p =>
      obtain ⟨herr, hlens, hsuite, hpos⟩ := hparse
      dsimp only
      rw [if_pos hpos]
      refine ⟨⟨fun _ => rfl, fun _ => herr⟩, fun lens suite h => ?_⟩
      cases h
      exact ⟨hlens, hsuite⟩

/-- R0 of the sample flight. -/
def sampleR0 : WireRecord :=
  ⟨recordTypeHandshake, versionTLS12, sampleHello, by decide, by decide⟩

/-- The rest of the sample flight, with a ticket. -/
def sampleTail : List WireRecord :=
  ⟨recordTypeChangeCipherSpec, versionTLS12, [1], by decide, by decide⟩ ::
    List.replicate 5 ⟨recordTypeApplicationData, versionTLS12, [7, 7], by decide, by decide⟩

theorem sampleHello_valid {hello : ServerHelloMsg}
    (h : unmarshalServerHello sampleHello = some hello) : Capture.validHello hello = true := by
  have hv : (unmarshalServerHello sampleHello).any Capture.validHello = true := by
    decide +kernel
  rwa [h] at hv

theorem capture_agrees_with_probe_sample :
    (captureTargetRecords ⟨.l0, fun _ _ => {}⟩
      [⟨WireRecord.stream (sampleR0 :: sampleTail), some .eof⟩]).1.usedLen
        = ![95, 6, 7, 7, 7, 7, 7] ∧
    (captureTargetRecords ⟨.l0, fun _ _ => {}⟩
      [⟨WireRecord.stream (sampleR0 :: sampleTail), some .eof⟩]).1.hello.map (·.cipherSuite)
        = some 0x1301 :=
  (capture_agrees_with_probe rfl (by decide) (by decide +kernel)
    (fun _ h => sampleHello_valid h) (some .eof) []).2 _ _ (by decide +kernel)

end Reality
