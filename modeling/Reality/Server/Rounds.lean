import Mathlib.Data.List.GetD
import Reality.Server.Capture

/-!
# The inner loop of the capture, round by round

What one round does is decided by the HEAD of the saved bytes: whether the
header of the next record is there, is good, and whether the record is there
in part or in full. Proofs about the capture split on `headOf` and cite the
equations of `Base`; none of them unfolds the loop again.
-/

namespace Reality

open Kit

/-! ## The record at the head of a stream -/

/-- What a stream shows of its record `i`. -/
inductive Head where
  | short
  | bad
  | part
  | full
  deriving DecidableEq

def headOf (i : Nat) (s : Bytes) : Head :=
  if s.length ≤ recordHeaderLen then .short
  else if !headerOk i s || !lengthOk i (recordLenAt s) then .bad
  else if s.length < recordLenAt s then .part
  else .full

/-- The error of a bad head. -/
def badError (i : Nat) (s : Bytes) : CaptureError :=
  if !headerOk i s then .unexpectedRecord i
  else if recordLenAt s > maxTLSRecordPayload then .exceedsMax
  else .invalidCCS

/-- R0 holds a ServerHello that the capture accepts. -/
def validR0 (s : Bytes) : Bool :=
  (unmarshalServerHello (Capture.helloBytes s (recordLenAt s))).any Capture.validHello

theorem headOf_short {i : Nat} {s : Bytes} (h : headOf i s = .short) :
    s.length ≤ recordHeaderLen := by
  unfold headOf at h
  split at h
  · assumption
  · split at h
    · cases h
    · split at h <;> cases h

theorem headOf_bad {i : Nat} {s : Bytes} (h : headOf i s = .bad) :
    recordHeaderLen < s.length ∧ (headerOk i s && lengthOk i (recordLenAt s)) = false := by
  unfold headOf at h
  split at h
  · cases h
  next hlen =>
    split at h
    next hbad =>
      refine ⟨by omega, ?_⟩
      -- Which of the two tests failed does not matter here.
      cases hh : headerOk i s <;> cases hl : lengthOk i (recordLenAt s) <;> simp_all
    · split at h <;> cases h

/-- A record that is there in part or in full has a good header. -/
structure GoodHead (i : Nat) (s : Bytes) : Prop where
  header : headerOk i s = true
  length : lengthOk i (recordLenAt s) = true
  seen : recordHeaderLen < s.length

theorem headOf_part {i : Nat} {s : Bytes} (h : headOf i s = .part) :
    GoodHead i s ∧ s.length < recordLenAt s := by
  unfold headOf at h
  split at h
  · cases h
  next hlen =>
    split at h
    · cases h
    next hgood =>
      simp only [Bool.or_eq_true, Bool.not_eq_true', not_or, Bool.not_eq_false] at hgood
      split at h
      next hp => exact ⟨⟨hgood.1, hgood.2, by omega⟩, hp⟩
      · cases h

theorem headOf_full {i : Nat} {s : Bytes} (h : headOf i s = .full) :
    GoodHead i s ∧ recordLenAt s ≤ s.length := by
  unfold headOf at h
  split at h
  · cases h
  next hlen =>
    split at h
    · cases h
    next hgood =>
      simp only [Bool.or_eq_true, Bool.not_eq_true', not_or, Bool.not_eq_false] at hgood
      split at h
      · cases h
      next hp => exact ⟨⟨hgood.1, hgood.2, by omega⟩, by omega⟩

theorem GoodHead.headOf {i : Nat} {s : Bytes} (h : GoodHead i s) :
    headOf i s = if s.length < recordLenAt s then .part else .full := by
  have hlen : ¬ s.length ≤ recordHeaderLen := by
    have := h.seen
    omega
  rw [Reality.headOf, if_neg hlen, if_neg (by simp [h.header, h.length])]

/-- All records from R2 on are application data. -/
theorem headOf_app {i k : Nat} (hi : 2 ≤ i) (hk : 2 ≤ k) (s : Bytes) :
    headOf i s = headOf k s := by
  have hh : headerOk i s = headerOk k s := by
    rw [headerOk, headerOk, if_neg (by omega), if_neg (by omega), if_neg (by omega),
      if_neg (by omega)]
  have hl : lengthOk i (recordLenAt s) = lengthOk k (recordLenAt s) := by
    have h1 : i ≠ 1 := by omega
    have h2 : k ≠ 1 := by omega
    simp [lengthOk, h1, h2]
  rw [headOf, headOf, hh, hl]

/-! More bytes behind a header do not change it. -/

theorem getD_header_append {s : Bytes} (h : recordHeaderLen < s.length) (q : Bytes) {j : Nat}
    (hj : j ≤ recordHeaderLen) : (s ++ q).getD j 0 = s.getD j 0 :=
  List.getD_append _ _ _ _ (by omega)

theorem recordLenAt_append {s : Bytes} (h : recordHeaderLen < s.length) (q : Bytes) :
    recordLenAt (s ++ q) = recordLenAt s := by
  have hb := fun j => @getD_header_append s h q j
  rw [recordLenAt, be16At, hb 3 (by decide), hb 4 (by decide)]
  rfl

theorem headerOk_append {s : Bytes} (h : recordHeaderLen < s.length) (i : Nat) (q : Bytes) :
    headerOk i (s ++ q) = headerOk i s := by
  have hb := fun j => @getD_header_append s h q j
  rw [headerOk, be16At, hb 0 (by decide), hb 1 (by decide), hb 2 (by decide),
    hb 5 (by decide)]
  rfl

theorem badError_append {s : Bytes} (h : recordHeaderLen < s.length) (i : Nat) (q : Bytes) :
    badError i (s ++ q) = badError i s := by
  rw [badError, badError, headerOk_append h, recordLenAt_append h]

theorem GoodHead.append {i : Nat} {s : Bytes} (h : GoodHead i s) (q : Bytes) :
    GoodHead i (s ++ q) := by
  refine ⟨?_, ?_, ?_⟩
  · rw [headerOk_append h.seen]
    exact h.header
  · rw [recordLenAt_append h.seen]
    exact h.length
  · have := h.seen
    rw [List.length_append]
    omega

theorem headOf_bad_append {i : Nat} {s : Bytes} (h : headOf i s = .bad) (q : Bytes) :
    headOf i (s ++ q) = .bad := by
  obtain ⟨hlen, hbad⟩ := headOf_bad h
  have hlen' : ¬ (s ++ q).length ≤ recordHeaderLen := by
    rw [List.length_append]
    omega
  rw [headOf, if_neg hlen', headerOk_append hlen, recordLenAt_append hlen, if_pos]
  cases hh : headerOk i s <;> simp_all

theorem headOf_full_append {i : Nat} {s : Bytes} (h : headOf i s = .full) (q : Bytes) :
    headOf i (s ++ q) = .full := by
  obtain ⟨hg, hlen⟩ := headOf_full h
  rw [(hg.append q).headOf, recordLenAt_append hg.seen, List.length_append, if_neg (by omega)]

theorem drop_record_append {i : Nat} {s : Bytes} (h : headOf i s = .full) (q : Bytes) :
    (s ++ q).drop (recordLenAt (s ++ q)) = s.drop (recordLenAt s) ++ q := by
  obtain ⟨hg, hlen⟩ := headOf_full h
  rw [recordLenAt_append hg.seen, List.drop_append_of_le_length hlen]

theorem helloBytes_append {i : Nat} {s : Bytes} (h : headOf i s = .full) (q : Bytes) :
    Capture.helloBytes (s ++ q) (recordLenAt (s ++ q))
      = Capture.helloBytes s (recordLenAt s) := by
  obtain ⟨hg, hlen⟩ := headOf_full h
  rw [recordLenAt_append hg.seen, Capture.helloBytes, List.take_append_of_le_length hlen]
  rfl

theorem validR0_append {i : Nat} {s : Bytes} (h : headOf i s = .full) (q : Bytes) :
    validR0 (s ++ q) = validR0 s := by
  rw [validR0, helloBytes_append h, validR0]

/-! ## One round of the inner loop, by the head of the saved bytes -/

namespace Capture

variable {env : CaptureEnv} {i : Nat} {c : Capture}

/-- The slots before `i` are filled, the others are not. -/
structure Filled (i : Nat) (c : Capture) : Prop where
  before : ∀ j < i, c.usedLen (slot j) ≠ 0
  after : ∀ j, i ≤ j → j ≤ 6 → c.usedLen (slot j) = 0

/-- Record `i` comes next and no length is pending. R6 is looked for only
when bytes are left. -/
structure Base (i : Nat) (c : Capture) : Prop extends Filled i c where
  le : i ≤ 6
  clean : c.handshakeLen = 0
  ticket : i = 6 → c.saved ≠ []

theorem Base.empty (hb : Base i c) : c.usedLen (slot i) = 0 := hb.after i le_rfl hb.le

/-- The first read finds the capture before R0. -/
theorem base_start (s : Bytes) : Base 0 (({} : Capture).push s) :=
  ⟨⟨fun j hj => absurd hj (Nat.not_lt_zero j), fun _ _ _ => rfl⟩, by decide, rfl,
    fun h => by cases h⟩

theorem checkLength_of_ok {n : Nat} (h : lengthOk i n = true) : checkLength i n = .ok n := by
  simp only [lengthOk, Bool.and_eq_true, decide_eq_true_eq, Bool.or_eq_true] at h
  rw [checkLength, if_neg (by omega), if_neg]
  simp only [Bool.and_eq_true, decide_eq_true_eq]
  omega

theorem announced_of_good (h : GoodHead i c.saved) (hclean : c.handshakeLen = 0) :
    c.announced i = .ok (recordLenAt c.saved) := by
  rw [announced, if_pos (by simp [hclean, h.seen]), if_pos h.header,
    checkLength_of_ok h.length]

theorem announced_of_bad (h : headOf i c.saved = .bad) (hclean : c.handshakeLen = 0) :
    c.announced i = .error (badError i c.saved) := by
  obtain ⟨hlen, hbad⟩ := headOf_bad h
  rw [announced, if_pos (by simp [hclean, hlen]), badError]
  cases hh : headerOk i c.saved with
  | false => rfl
  | true =>
      have hpos := recordLenAt_ge c.saved
      rw [hh, Bool.true_and] at hbad
      simp only [Bool.not_true, Bool.false_eq_true, if_false, if_true]
      rw [checkLength]
      split
      · rfl
      · rw [if_pos]
        simp only [lengthOk, Bool.and_eq_false_iff, decide_eq_false_iff_not,
          Bool.or_eq_false_iff] at hbad
        simp only [Bool.and_eq_true, decide_eq_true_eq]
        omega

theorem assignEarly_zero (i : Nat) (c : Capture) : c.assignEarly i 0 = c := by
  simp [assignEarly]

/-- The two tests a round starts with do not apply to a record that is
looked for. -/
theorem index_eq (hempty : c.usedLen (slot i) = 0) (ht : i = 6 → c.saved ≠ []) :
    c.index env i = match c.announced i with
      | .error e => .done (c.ret (some e))
      | .ok len => c.advance env i len := by
  -- The ticket is looked for only when there are bytes left.
  have h6 : ¬ (decide (i = 6) && decide (c.saved = [])) = true := by
    simp only [Bool.and_eq_true, decide_eq_true_eq]
    exact fun h => ht h.1 h.2
  have h1 : c.index env i = _ := if_neg (by simp [hempty])
  exact h1.trans (if_neg h6)

theorem Base.index_short (hb : Base i c) (h : headOf i c.saved = .short) :
    c.index env i = .stop c := by
  have hann : c.announced i = .ok 0 := by
    have := headOf_short h
    rw [announced, if_neg (by simp only [Bool.and_eq_true, decide_eq_true_eq]; omega), hb.clean]
    simp [checkLength]
  have hc : { c with handshakeLen := 0 } = c := by rw [← hb.clean]
  rw [index_eq hb.empty hb.ticket, hann]
  dsimp only
  rw [advance, assignEarly_zero, if_pos (by simp), hc]

theorem Base.index_bad (hb : Base i c) (h : headOf i c.saved = .bad) :
    c.index env i = .done (c.ret (some (badError i c.saved))) := by
  rw [index_eq hb.empty hb.ticket, announced_of_bad h hb.clean]

theorem assignEarly_saved (i n : Nat) (c : Capture) :
    (c.assignEarly i n).saved = c.saved := by
  unfold assignEarly
  split
  · rfl
  · split <;> rfl

/-- The state while record `i` is there in part. -/
def pend (i : Nat) (c : Capture) : Capture :=
  { c.assignEarly i (recordLenAt c.saved) with handshakeLen := recordLenAt c.saved }

theorem Base.index_part (hb : Base i c) (h : headOf i c.saved = .part) :
    c.index env i = .stop (pend i c) := by
  obtain ⟨hg, hlen⟩ := headOf_part h
  rw [index_eq hb.empty hb.ticket, announced_of_good hg hb.clean]
  dsimp only
  rw [advance, if_pos]
  · rfl
  · simp [assignEarly_saved, hlen]

/-- The state after record `i` was used up. -/
def afterRecord (i : Nat) (c : Capture) : Capture :=
  let n := recordLenAt c.saved
  let v :=
    if i = 0 then
      { c.setLen 0 n with
        hello := unmarshalServerHello (helloBytes c.saved n)
        template := helloBytes c.saved n }
    else (c.assignEarly i n).setLen i n
  { v with saved := c.saved.drop n, handshakeLen := 0 }

theorem afterRecord_saved (i : Nat) (c : Capture) :
    (afterRecord i c).saved = c.saved.drop (recordLenAt c.saved) := rfl

/-- A complete record. The cache is asked only after a valid R0, and in mode
L0 not at all. -/
theorem Base.index_full (hb : Base i c) (h : headOf i c.saved = .full)
    (hmode : i = 0 → validR0 c.saved = true → resolveAmortizeMode env.mode = .l0) :
    c.index env i =
      if i = 0 && !validR0 c.saved then .done (c.ret (some .invalidServerHello))
      else if i = 5 && c.saved.drop (recordLenAt c.saved) = [] || i = 6 then
        .done ((afterRecord i c).ret none)
      else .next (afterRecord i c) := by
  obtain ⟨hg, hlen⟩ := headOf_full h
  have hpos := recordLenAt_ge c.saved
  rw [index_eq hb.empty hb.ticket, announced_of_good hg hb.clean]
  dsimp only
  rw [advance, if_neg (by simp only [assignEarly_saved, Bool.or_eq_true, decide_eq_true_eq]; omega)]
  by_cases h0 : i = 0
  · subst h0
    rw [if_pos rfl]
    have hearly : c.assignEarly 0 (recordLenAt c.saved) = c := by simp [assignEarly]
    rw [hearly, serverHello]
    dsimp only
    cases hm : unmarshalServerHello (helloBytes c.saved (recordLenAt c.saved)) with
    | none =>
        have hv : validR0 c.saved = false := by rw [validR0, hm]; rfl
        simp only [hv]
        rfl
    | some hello =>
        have hv : validR0 c.saved = validHello hello := by rw [validR0, hm]; rfl
        simp only [hv]
        cases hok : validHello hello with
        | false => rfl
        | true =>
            simp only [Bool.not_true, Bool.false_eq_true, if_false,
              hmode rfl (hv.trans hok), if_true, consume, afterRecord, hm]
            rfl
  · rw [if_neg h0, if_neg (by simp [h0])]
    simp only [consume, afterRecord, if_neg h0, setLen, assignEarly_saved]

theorem Base.index_invalid (hb : Base 0 c) (h : headOf 0 c.saved = .full)
    (hv : validR0 c.saved = false) :
    c.index env 0 = .done (c.ret (some .invalidServerHello)) := by
  rw [hb.index_full h (fun _ hv' => absurd (hv'.symm.trans hv) (by decide)),
    if_pos (by simp [hv])]

theorem Base.index_next (hmode : i = 0 → resolveAmortizeMode env.mode = .l0) (hb : Base i c)
    (h : headOf i c.saved = .full) (h4 : i ≤ 4) (h0 : i = 0 → validR0 c.saved = true) :
    c.index env i = .next (afterRecord i c) := by
  rw [hb.index_full h (fun hi _ => hmode hi), if_neg, if_neg]
  · simp only [Bool.or_eq_true, Bool.and_eq_true, decide_eq_true_eq]
    omega
  · simp only [Bool.and_eq_true, decide_eq_true_eq, Bool.not_eq_true']
    rintro ⟨hi, hv⟩
    exact absurd (h0 hi) (by simp [hv])

theorem Base.index_finished (hb : Base 5 c) (h : headOf 5 c.saved = .full) :
    c.index env 5 =
      if c.saved.drop (recordLenAt c.saved) = [] then .done ((Capture.afterRecord 5 c).ret none)
      else .next (Capture.afterRecord 5 c) := by
  rw [hb.index_full h (fun h0 => by cases h0)]
  simp

theorem Base.index_ticket (hb : Base 6 c) (h : headOf 6 c.saved = .full) :
    c.index env 6 = .done ((Capture.afterRecord 6 c).ret none) := by
  rw [hb.index_full h (fun h0 => by cases h0)]
  simp

/-! ## From record to record -/

theorem slot_inj {i j : Nat} (hi : i ≤ 6) (hj : j ≤ 6) (h : slot i = slot j) : i = j := by
  have := congrArg Fin.val h
  simp only [slot, Fin.ofNat] at this
  omega

theorem afterRecord_usedLen (i : Nat) (c : Capture) :
    (afterRecord i c).usedLen
      = Function.update c.usedLen (slot i) (recordLenAt c.saved : Int) := by
  unfold afterRecord
  dsimp only
  by_cases h0 : i = 0
  · rw [if_pos h0, h0]
    rfl
  · rw [if_neg h0]
    exact update_assignEarly i _ c

theorem filled_update (hf : Filled i c) (hi : i ≤ 6) {c' : Capture} {n : Int} (hn : n ≠ 0)
    (h : c'.usedLen = Function.update c.usedLen (slot i) n) : Filled (i + 1) c' := by
  refine ⟨?_, ?_⟩
  · intro j hj
    rw [h]
    by_cases hji : j = i
    · rw [hji, Function.update_self]
      exact hn
    · rw [Function.update_of_ne (fun he => hji (slot_inj (by omega) hi he))]
      exact hf.before j (by omega)
  · intro j hj h6
    rw [h, Function.update_of_ne (fun he => by have := slot_inj h6 hi he; omega)]
    exact hf.after j (by omega) h6

theorem Base.afterRecord (hb : Base i c) (h5 : i ≤ 5)
    (hrest : i = 5 → c.saved.drop (recordLenAt c.saved) ≠ []) :
    Base (i + 1) (afterRecord i c) := by
  have hpos := recordLenAt_ge c.saved
  refine ⟨filled_update hb.toFilled hb.le (n := recordLenAt c.saved) (by omega)
    (afterRecord_usedLen i c), by omega, rfl, ?_⟩
  intro h6
  exact hrest (by omega)

theorem Base.push (hb : Base i c) {q : Bytes} (hq : q ≠ []) : Base i (c.push q) :=
  ⟨⟨hb.before, hb.after⟩, hb.le, hb.clean, fun _ => by simp [Capture.push, hq]⟩

theorem assignEarly_push (i n : Nat) (c : Capture) (q : Bytes) :
    (c.push q).assignEarly i n = (c.assignEarly i n).push q := by
  unfold assignEarly
  split
  · rfl
  · split <;> rfl

theorem pend_push (h : GoodHead i c.saved) (q : Bytes) :
    pend i (c.push q) = (pend i c).push q := by
  have hn : recordLenAt (c.push q).saved = recordLenAt c.saved := recordLenAt_append h.seen q
  rw [pend, hn, assignEarly_push]
  rfl

/-- The records whose slot is assigned as soon as their header is seen. -/
def Early (i n : Nat) : Prop := i = 2 ∧ 512 < n ∨ i = 6

theorem pend_usedLen (h : Early i (recordLenAt c.saved)) :
    (pend i c).usedLen = Function.update c.usedLen (slot i) (recordLenAt c.saved : Int) := by
  have hpos := recordLenAt_ge c.saved
  unfold pend assignEarly
  dsimp only
  rcases h with ⟨rfl, hbig⟩ | rfl
  · rw [if_pos (by simp [hbig])]
    rfl
  · rw [if_neg (by simp), if_pos (by simp; omega)]
    rfl

theorem pend_of_not_early (h : ¬ Early i (recordLenAt c.saved)) :
    pend i c = { c with handshakeLen := recordLenAt c.saved } := by
  simp only [Early, not_or, not_and] at h
  unfold pend assignEarly
  rw [if_neg (by simp only [Bool.and_eq_true, decide_eq_true_eq]; omega),
    if_neg (by simp only [Bool.and_eq_true, decide_eq_true_eq]; omega)]

theorem pend_saved (i : Nat) (c : Capture) : (pend i c).saved = c.saved :=
  assignEarly_saved i _ c

theorem afterRecord_push (h : headOf i c.saved = .full) (q : Bytes) :
    afterRecord i (c.push q) = (afterRecord i c).push q := by
  have hg := (headOf_full h).1
  have hn : recordLenAt (c.push q).saved = recordLenAt c.saved := recordLenAt_append hg.seen q
  have hd : (c.push q).saved.drop (recordLenAt (c.push q).saved)
      = c.saved.drop (recordLenAt c.saved) ++ q := drop_record_append h q
  have hm : helloBytes (c.push q).saved (recordLenAt (c.push q).saved)
      = helloBytes c.saved (recordLenAt c.saved) := helloBytes_append h q
  unfold afterRecord
  dsimp only
  rw [hd, hm, hn, assignEarly_push]
  split <;> rfl

theorem scan_skip {n k j : Nat} (h : ∀ t < j + k, c.usedLen (slot t) ≠ 0) :
    c.scan env (n + k) j = c.scan env n (j + k) := by
  induction k generalizing j with
  | zero => rfl
  | succ k ih =>
      have hj : c.index env j = .next c := if_pos (h j (by omega))
      rw [← Nat.add_assoc, scan, hj]
      dsimp only
      rw [ih (fun t ht => h t (by omega))]
      congr 1
      omega

theorem Filled.scan_eq (hf : Filled i c) {n : Nat} (hn : n + i = 7) :
    c.scan env 7 0 = c.scan env n i := by
  have hskip : c.scan env (n + i) 0 = c.scan env n (0 + i) :=
    scan_skip (fun t ht => hf.before t (by omega))
  rwa [hn, Nat.zero_add] at hskip

/-! ## Between two reads -/

/-- The length that is pending, if any, is that of record `i`. -/
def PendingOk (i : Nat) (c : Capture) : Prop :=
  c.handshakeLen = 0 ∨ headOf i c.saved = .part ∧ c.handshakeLen = recordLenAt c.saved

/-- A pending length is what the header would announce again. -/
theorem announced_pending (h : headOf i c.saved = .part)
    (hlen : c.handshakeLen = recordLenAt c.saved) (q : Bytes) :
    (c.push q).announced i = ({ c with handshakeLen := 0 }.push q).announced i := by
  have hg := (headOf_part h).1
  have hpos := recordLenAt_ge c.saved
  have hgood : GoodHead i ({ c with handshakeLen := 0 }.push q).saved := hg.append q
  rw [announced_of_good hgood rfl, announced, if_neg]
  · have hn : (c.push q).handshakeLen = recordLenAt c.saved := hlen
    have hs : ({ c with handshakeLen := 0 }.push q).saved = c.saved ++ q := rfl
    rw [hn, checkLength_of_ok hg.length, hs, recordLenAt_append hg.seen]
  · have hn : (c.push q).handshakeLen = recordLenAt c.saved := hlen
    simp only [hn, Bool.and_eq_true, decide_eq_true_eq]
    omega

theorem advance_clean (c : Capture) (i len : Nat) :
    { c with handshakeLen := 0 }.advance env i len = c.advance env i len := by
  unfold advance assignEarly
  dsimp only
  split
  · rfl
  · split <;> rfl

/-- So the round starts over as if nothing were pending. -/
theorem scan_pending {n : Nat} (hempty : c.usedLen (slot i) = 0)
    (h : headOf i c.saved = .part) (hlen : c.handshakeLen = recordLenAt c.saved) (q : Bytes) :
    (c.push q).scan env (n + 1) i
      = ({ c with handshakeLen := 0 }.push q).scan env (n + 1) i := by
  have hne : i = 6 → c.saved ++ q ≠ [] := by
    intro _ hnil
    have := (headOf_part h).1.seen
    rw [List.append_eq_nil_iff.mp hnil |>.1] at this
    cases this
  have hidx : (c.push q).index env i = ({ c with handshakeLen := 0 }.push q).index env i := by
    have h1 : (c.push q).index env i = _ := index_eq hempty hne
    have h2 : ({ c with handshakeLen := 0 }.push q).index env i = _ := index_eq hempty hne
    rw [h1, h2, announced_pending h hlen q]
    cases ({ c with handshakeLen := 0 }.push q).announced i with
    | error e => rfl
    | ok len => exact (advance_clean (c.push q) i len).symm
  rw [scan, scan, hidx]

/-- The scan of the next read starts over at the first empty slot. -/
theorem Filled.scan_restart (hf : Filled i c) (hi : i ≤ 6) (hp : PendingOk i c) (x : Bytes) :
    (c.push x).scan env 7 0
      = ({ c with handshakeLen := 0 }.push x).scan env (7 - i) i := by
  have hfx : Filled i (c.push x) := ⟨hf.before, hf.after⟩
  rw [hfx.scan_eq (n := 7 - i) (by omega)]
  rcases hp with hclean | ⟨hpart, hlen⟩
  · have hc : { c with handshakeLen := 0 } = c := by rw [← hclean]
    rw [hc]
  · obtain ⟨k, hk⟩ : ∃ k, 7 - i = k + 1 := ⟨6 - i, by omega⟩
    rw [hk]
    exact scan_pending (hf.after i le_rfl hi) hpart hlen x

end Capture

end Reality
