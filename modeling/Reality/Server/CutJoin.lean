import Reality.Server.Rounds

/-!
# Streams whose cuts do not matter

TCP may deliver a flight in any pieces. `captureTargetRecords` should not
care, but it keeps state between reads that its inner loop then misreads:

* a large R2 fills its slot when its header is seen. If the rest comes with a
  later read, the loop skips slot 2 and books the same record in slot 3;
* after R5 it returns at once when nothing is left, and reads R6 when there is;
* R6 fills its slot when its header is seen, and is then never completed;
* after 64 reads it returns a success without having seen the end.

`cutVerdict` reads these cases off the stream, record by record. Here it is
shown that a stream WITHOUT them can be cut anywhere.
-/

namespace Reality

open Kit

/-! ## The verdict -/

/-- Whether the result of a stream is settled by what was seen, still
waiting for bytes, or sensitive to the cuts. -/
inductive CutVerdict where
  | settled
  | waiting
  | sensitive
  deriving DecidableEq

/-- Read `s` record by record from record `i` on, at most `n` records. -/
def cutVerdict : Nat → Nat → Bytes → CutVerdict
  | 0, _, _ => .waiting
  | n + 1, i, s =>
      match headOf i s with
      | .short => .waiting
      | .bad => .settled
      | .part => .waiting
      | .full =>
          let len := recordLenAt s
          if i = 0 && !validR0 s then .settled
          else if i = 2 && len > 512 then .sensitive
          else if i = 5 && s.drop len = [] then .settled
          else if i = 5 && len > recordHeaderLen then .sensitive
          else if i = 6 then
            if len ≤ recordHeaderLen + 1 then .settled else .sensitive
          else cutVerdict n (i + 1) (s.drop len)

/-- The streams whose capture does not depend on the cuts. -/
def CutSafe (s : Bytes) : Prop :=
  cutVerdict 7 0 s = .settled ∨ cutVerdict 7 0 s = .waiting ∧ s.length < maxTargetReads

section
variable {n i : Nat} {s : Bytes}

theorem cutVerdict_invalid (h : headOf 0 s = .full) (hv : validR0 s = false) :
    cutVerdict (n + 1) 0 s = .settled := by
  simp [cutVerdict, h, hv]

theorem cutVerdict_largeR2 (h : headOf 2 s = .full) (hlen : 512 < recordLenAt s) :
    cutVerdict (n + 1) 2 s = .sensitive := by
  simp [cutVerdict, h, hlen]

theorem cutVerdict_finished (h : headOf 5 s = .full) :
    cutVerdict (n + 1) 5 s =
      if s.drop (recordLenAt s) = [] then .settled
      else if recordLenAt s > recordHeaderLen then .sensitive
      else cutVerdict n 6 (s.drop (recordLenAt s)) := by
  simp [cutVerdict, h]

theorem cutVerdict_ticket (h : headOf 6 s = .full) :
    cutVerdict (n + 1) 6 s =
      if recordLenAt s ≤ recordHeaderLen + 1 then .settled else .sensitive := by
  simp [cutVerdict, h]

/-- A record that the verdict passes over. -/
structure Passed (i : Nat) (s : Bytes) : Prop where
  full : headOf i s = .full
  early : i ≤ 4
  hello : i = 0 → validR0 s = true
  small : i = 2 → recordLenAt s ≤ 512

theorem Passed.cutVerdict_eq (h : Passed i s) :
    cutVerdict (n + 1) i s = cutVerdict n (i + 1) (s.drop (recordLenAt s)) := by
  have h4 := h.early
  have h0 : ¬ (decide (i = 0) && !validR0 s) = true := by
    simp only [Bool.and_eq_true, decide_eq_true_eq, Bool.not_eq_true']
    rintro ⟨hi, hv⟩
    exact absurd (h.hello hi) (by simp [hv])
  have h2 : ¬ (decide (i = 2) && decide (recordLenAt s > 512)) = true := by
    simp only [Bool.and_eq_true, decide_eq_true_eq]
    rintro ⟨hi, hv⟩
    have := h.small hi
    omega
  have h5 : ∀ b : Bool, ¬ (decide (i = 5) && b) = true := by
    intro b
    simp only [Bool.and_eq_true, decide_eq_true_eq]
    omega
  rw [cutVerdict, h.full]
  dsimp only
  rw [if_neg h0, if_neg h2, if_neg (h5 _), if_neg (h5 _), if_neg (by omega)]

theorem Passed.append (h : Passed i s) (q : Bytes) : Passed i (s ++ q) :=
  ⟨headOf_full_append h.full q, h.early, fun hi => (validR0_append h.full q).trans (h.hello hi),
    fun hi => by rw [recordLenAt_append (headOf_full h.full).1.seen]; exact h.small hi⟩

/-- The ways a complete record can end the reading. -/
theorem full_cases (hi : i ≤ 6) (h : headOf i s = .full) :
    Passed i s ∨ (i = 0 ∧ validR0 s = false) ∨ (i = 2 ∧ 512 < recordLenAt s) ∨ i = 5 ∨
      i = 6 := by
  by_cases h0 : i = 0 ∧ validR0 s = false
  · exact .inr (.inl h0)
  · by_cases h2 : i = 2 ∧ 512 < recordLenAt s
    · exact .inr (.inr (.inl h2))
    · by_cases h5 : i ≤ 4
      · refine .inl ⟨h, h5, fun hz => ?_, fun hz => ?_⟩
        · simpa [hz] using h0
        · simpa [hz] using h2
      · omega

end

/-! ## Streams that are not sensitive can be joined -/

namespace Capture

variable {env : CaptureEnv} {i : Nat} {c : Capture} {q : Bytes}

/-- A state between two reads from which the stream `q` is safe: a record is
pending or not begun; a large R2 is pending and `q` does not complete it; or
the header of R6 was seen. -/
inductive Resumes : Capture → Bytes → Prop where
  | record {c : Capture} {q : Bytes} {i : Nat} (hf : Filled i c) (hi : i ≤ 6)
      (ht : i = 6 → c.saved ≠ [])
      (hp : PendingOk i c)
      (hv : cutVerdict (7 - i) i (c.saved ++ q) ≠ .sensitive) : Resumes c q
  | largeR2 {c : Capture} {q : Bytes} (hf : Filled 3 c)
      (hlen : lengthOk 3 c.handshakeLen = true)
      (hpart : c.saved.length + q.length < c.handshakeLen) : Resumes c q
  | ticketSeen {c : Capture} {q : Bytes} (hf : ∀ j ≤ 6, c.usedLen (slot j) ≠ 0) :
      Resumes c q

/-- What `scan_joins` shows of a scan over `c` and one over `c` with `q`. -/
def ScanJoins (env : CaptureEnv) (n i : Nat) (c : Capture) (q : Bytes) : Prop :=
  match c.scan env n i with
  | .next _ => False
  | .stop c' => (c.push q).scan env n i = (c'.push q).scan env 7 0 ∧ Resumes c' q
  | .done r => (c.push q).scan env n i = .done r

/-- A large R2 that stays incomplete. -/
theorem scan_largeR2 (hf : Filled 3 c) (hlen : lengthOk 3 c.handshakeLen = true)
    (hpart : c.saved.length < c.handshakeLen) : c.scan env 7 0 = .stop c := by
  have hann : c.announced 3 = .ok c.handshakeLen := by
    rw [announced, if_neg, checkLength_of_ok hlen]
    simp only [Bool.and_eq_true, decide_eq_true_eq]
    omega
  have hidx : c.index env 3 = .stop c := by
    rw [index_eq (hf.after 3 le_rfl (by decide)) (fun h => by cases h), hann]
    dsimp only
    rw [advance, if_pos]
    · rfl
    · have : (c.assignEarly 3 c.handshakeLen).saved = c.saved := assignEarly_saved _ _ _
      simp only [this, Bool.or_eq_true, decide_eq_true_eq]
      exact .inr hpart
  rw [hf.scan_eq (n := 4) rfl, scan, hidx]

/-- Once the header of R6 was seen every round is skipped. -/
theorem scan_ticketSeen (hf : ∀ j ≤ 6, c.usedLen (slot j) ≠ 0) : c.scan env 7 0 = .stop c :=
  scan_skip (n := 0) (k := 7) (j := 0) (fun t ht => hf t (by omega))

/-- A stream that is not sensitive never completes a record whose slot was
assigned early. -/
theorem headOf_early {n : Nat} (h : headOf i c.saved = .part)
    (he : Early i (recordLenAt c.saved))
    (hv : cutVerdict (n + 1) i (c.saved ++ q) ≠ .sensitive) :
    headOf i (c.saved ++ q) = .part := by
  obtain ⟨hg, hlen⟩ := headOf_part h
  have hn : recordLenAt (c.saved ++ q) = recordLenAt c.saved := recordLenAt_append hg.seen q
  have hseen := hg.seen
  cases hh : headOf i (c.saved ++ q) with
  | part => rfl
  | full =>
      refine absurd ?_ hv
      rcases he with ⟨rfl, hbig⟩ | rfl
      · exact cutVerdict_largeR2 hh (by omega)
      · rw [cutVerdict_ticket hh, hn, if_neg (by omega)]
  | _ =>
      rw [(hg.append q).headOf] at hh
      split at hh <;> cases hh

/-- The case of a record that is there in part. -/
theorem scan_joins_part {n : Nat} (hn : n + 1 + i = 7) (hb : Base i c) (hq : q ≠ [])
    (hv : cutVerdict (n + 1) i (c.saved ++ q) ≠ .sensitive)
    (h : headOf i c.saved = .part) : ScanJoins env (n + 1) i c q := by
  obtain ⟨hg, hlen⟩ := headOf_part h
  have hpos := recordLenAt_ge c.saved
  rw [ScanJoins, scan, hb.index_part h]
  dsimp only
  by_cases he : Early i (recordLenAt c.saved)
  · have hpart := headOf_early h he hv
    have hfill := filled_update hb.toFilled hb.le (n := recordLenAt c.saved) (by omega)
      (pend_usedLen he)
    have hstop : (c.push q).scan env (n + 1) i = .stop ((pend i c).push q) := by
      rw [scan, (hb.push hq).index_part hpart, pend_push hg]
    rw [hstop]
    rcases he with ⟨rfl, -⟩ | rfl
    · have hlen3 : lengthOk 3 (pend 2 c).handshakeLen = true := hg.length
      have hshort : (pend 2 c).saved.length + q.length < recordLenAt c.saved := by
        have := (headOf_part hpart).2
        rw [recordLenAt_append hg.seen, List.length_append] at this
        rwa [pend_saved]
      refine ⟨?_, .largeR2 hfill hlen3 hshort⟩
      refine (scan_largeR2 (c := (pend 2 c).push q) ⟨hfill.before, hfill.after⟩ hlen3 ?_).symm
      rw [← List.length_append] at hshort
      exact hshort
    · have hall : ∀ j ≤ 6, (pend 6 c).usedLen (slot j) ≠ 0 := fun j hj => hfill.before j (by omega)
      exact ⟨(scan_ticketSeen (c := (pend 6 c).push q) hall).symm, .ticketSeen hall⟩
  · rw [pend_of_not_early he]
    have hc : { c with handshakeLen := 0 } = c := by rw [← hb.clean]
    refine ⟨?_, .record ⟨hb.before, hb.after⟩ hb.le hb.ticket (.inr ⟨h, rfl⟩) ?_⟩
    · have hf : Filled i ({ c with handshakeLen := recordLenAt c.saved }.push q) :=
        ⟨hb.before, hb.after⟩
      have hpend : ({ c with handshakeLen := recordLenAt c.saved }.push q).scan env (n + 1) i
          = ({ c with handshakeLen := 0 }.push q).scan env (n + 1) i :=
        scan_pending (c := { c with handshakeLen := recordLenAt c.saved }) hb.empty h rfl q
      rw [hf.scan_eq hn, hpend, hc]
    · rwa [show 7 - i = n + 1 by omega]

/-- **Two neighbouring reads can be joined** where the stream is not
sensitive. -/
theorem scan_joins (hmode : resolveAmortizeMode env.mode = .l0) {n : Nat} (hn : n + i = 7)
    (hb : Base i c) (hq : q ≠ []) (hv : cutVerdict n i (c.saved ++ q) ≠ .sensitive) :
    ScanJoins env n i c q := by
  -- Induction on the records still to come; each round is decided by the head.
  induction n generalizing i c with
  | zero =>
      have := hb.le
      omega
  | succ n ih =>
      cases h : headOf i c.saved with
      | short =>
          rw [ScanJoins, scan, hb.index_short h]
          have hf : Filled i (c.push q) := ⟨hb.before, hb.after⟩
          refine ⟨(hf.scan_eq hn).symm, .record hb.toFilled hb.le hb.ticket (.inl hb.clean) ?_⟩
          rwa [show 7 - i = n + 1 by omega]
      | bad =>
          have hbad : headOf i (c.push q).saved = .bad := headOf_bad_append h q
          have herr : badError i (c.push q).saved = badError i c.saved :=
            badError_append (headOf_bad h).1 i q
          rw [ScanJoins, scan, hb.index_bad h]
          dsimp only
          rw [scan, (hb.push hq).index_bad hbad, herr]
          rfl
      | part => exact scan_joins_part hn hb hq hv h
      | full =>
          have hfull : headOf i (c.push q).saved = .full := headOf_full_append h q
          have hrest : (c.push q).saved.drop (recordLenAt (c.push q).saved)
            = c.saved.drop (recordLenAt c.saved) ++ q := drop_record_append h q
          have hlen : recordLenAt (c.saved ++ q) = recordLenAt c.saved :=
            recordLenAt_append (headOf_full h).1.seen q
          have hb' := hb.push hq
          -- Going on with the next record, in one read and in two.
          have hnext : ∀ (_ : c.index env i = .next (Capture.afterRecord i c))
              (_ : (c.push q).index env i = .next (Capture.afterRecord i (c.push q)))
              (_ : Base (i + 1) (Capture.afterRecord i c))
              (_ : cutVerdict n (i + 1) (c.saved.drop (recordLenAt c.saved) ++ q) ≠ .sensitive),
              ScanJoins env (n + 1) i c q := by
            intro h1 h2 h3 h4
            have := ih (by omega) h3 h4
            rw [afterRecord_push h] at h2
            rw [ScanJoins, scan, scan, h1, h2]
            exact this
          rcases full_cases hb.le h with hp | ⟨rfl, hval⟩ | ⟨rfl, hbig⟩ | rfl | rfl
          · refine hnext (hb.index_next (fun _ => hmode) h hp.early hp.hello)
              (hb'.index_next (fun _ => hmode) hfull hp.early (hp.append q).hello)
              (hb.afterRecord (by have := hp.early; omega) (by have := hp.early; omega)) ?_
            rw [(hp.append q).cutVerdict_eq, hlen] at hv
            rwa [List.drop_append_of_le_length (headOf_full h).2] at hv
          · have hval' : validR0 (c.push q).saved = false := (validR0_append h q).trans hval
            rw [ScanJoins, scan, hb.index_invalid h hval]
            dsimp only
            rw [scan, hb'.index_invalid hfull hval']
            rfl
          · exact absurd (cutVerdict_largeR2 hfull (by rw [← hlen] at hbig; exact hbig)) hv
          · -- R5 ends inside the bytes only if its payload is empty.
            have hfull' : headOf 5 (c.saved ++ q) = .full := hfull
            rw [cutVerdict_finished hfull', drop_record_append h, hlen,
              if_neg (by simp [hq])] at hv
            have hsmall : ¬ recordLenAt c.saved > recordHeaderLen := fun hbig => by
              rw [if_pos hbig] at hv
              exact hv rfl
            rw [if_neg hsmall] at hv
            have hseen := (headOf_full h).1.seen
            have hne : c.saved.drop (recordLenAt c.saved) ≠ [] := by
              rw [Ne, List.drop_eq_nil_iff]
              omega
            refine hnext ?_ ?_ (hb.afterRecord le_rfl (fun _ => hne)) hv
            · rw [hb.index_finished h, if_neg hne]
            · rw [hb'.index_finished hfull, hrest, if_neg (by simp [hq])]
          · rw [ScanJoins, scan, hb.index_ticket h]
            dsimp only
            rw [scan, hb'.index_ticket hfull, afterRecord_push h]
            rfl

/-- The same for the reads as the outer loop sees them. -/
theorem feed_joins (hmode : resolveAmortizeMode env.mode = .l0) {p q : Bytes} (hp : p ≠ [])
    (hq : q ≠ []) (hs : Resumes c (p ++ q)) : Joins (feed env) Resumes c p q := by
  have hpush : ∀ d : Capture, (d.push p).push q = d.push (p ++ q) := by
    intro d
    simp [push]
  cases hs with
  | @record i hf hi ht hpend hv =>
      -- The scan starts over at record `i` with nothing pending.
      let b : Capture := { c with handshakeLen := 0 }
      have hb : Base i (b.push p) :=
        ⟨⟨hf.before, hf.after⟩, hi, rfl, fun _ => by simp [push, hp]⟩
      have hstart : ∀ x : Bytes,
          (c.push x).scan env 7 0 = (b.push x).scan env (7 - i) i :=
        fun x => hf.scan_restart hi hpend x
      have hjoin : ScanJoins env (7 - i) i (b.push p) q := by
        refine scan_joins hmode (by omega) hb hq ?_
        have : (b.push p).saved ++ q = c.saved ++ (p ++ q) := by simp [push, b]
        rwa [this]
      rw [ScanJoins, hpush] at hjoin
      unfold Joins feed
      rw [hstart p, hstart (p ++ q)]
      cases hscan : (b.push p).scan env (7 - i) i with
      | next c' => rw [hscan] at hjoin; exact hjoin.elim
      | stop c' =>
          rw [hscan] at hjoin
          dsimp only
          rw [hjoin.1]
          exact ⟨rfl, hjoin.2⟩
      | done r =>
          rw [hscan] at hjoin
          dsimp only
          rw [hjoin]
  | largeR2 hf hlen hpart =>
      rw [List.length_append] at hpart
      have hstop : ∀ x : Bytes, c.saved.length + x.length < c.handshakeLen →
          feed env c x = .more (c.push x) := by
        intro x hx
        rw [feed, scan_largeR2 (c := c.push x) ⟨hf.before, hf.after⟩ hlen]
        simpa [push] using hx
      unfold Joins
      rw [hstop p (by omega), hstop (p ++ q) (by rw [List.length_append]; omega)]
      dsimp only
      have hpart' : (c.push p).saved.length + q.length < (c.push p).handshakeLen := by
        simp only [push, List.length_append]
        omega
      refine ⟨?_, .largeR2 ⟨hf.before, hf.after⟩ hlen hpart'⟩
      rw [feed, hpush, scan_largeR2 (c := c.push (p ++ q)) ⟨hf.before, hf.after⟩ hlen]
      simpa [push, Nat.add_assoc] using hpart
  | ticketSeen hf =>
      have hstop : ∀ (d : Capture) (x : Bytes), (∀ j ≤ 6, d.usedLen (slot j) ≠ 0) →
          feed env d x = .more (d.push x) := by
        intro d x hd
        rw [feed, scan_ticketSeen (c := d.push x) hd]
      unfold Joins
      rw [hstop c p hf, hstop c (p ++ q) hf]
      dsimp only
      rw [hstop (c.push p) q hf, hpush]
      exact ⟨rfl, .ticketSeen hf⟩

end Capture

end Reality
