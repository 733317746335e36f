import Mathlib.Tactic.FinCases
import Reality.Server.Rounds

/-!
# Captures of whole records

The capture loop on a target that delivers each record whole, one or several
in a read, and then stays silent until a read fails. As long as it is not
past R4 the loop has nothing to return but that failure: only R5, R6, the read
limit or the cache end it without an error. In particular a COALESCED flight,
whose R2 carries everything from EncryptedExtensions to Finished, is never
captured.
-/

namespace Reality

open Kit

/-- Record `i`, and nothing behind it. -/
structure WholeRecord (i : Nat) (r : Bytes) : Prop where
  full : headOf i r = .full
  alone : recordLenAt r = r.length
  hello : i = 0 → validR0 r = true

/-- Records `i`, `i + 1` and so on. -/
def WholeRecords : Nat → List Bytes → Prop
  | _, [] => True
  | i, r :: rs => WholeRecord i r ∧ WholeRecords (i + 1) rs

theorem WholeRecord.ne_nil {i : Nat} {r : Bytes} (h : WholeRecord i r) : r ≠ [] := by
  rintro rfl
  have hseen := (headOf_full h.full).1.seen
  simp at hseen

theorem WholeRecord.length_le {i : Nat} {r : Bytes} (h : WholeRecord i r) :
    r.length ≤ maxTLSRecordPayload ∧ (i = 1 → r.length = 6) := by
  have hok := (headOf_full h.full).1.length
  rw [h.alone, lengthOk, Bool.and_eq_true, decide_eq_true_eq, Bool.or_eq_true,
    decide_eq_true_eq, decide_eq_true_eq] at hok
  exact ⟨hok.1, fun h1 => hok.2.resolve_left (fun hne => hne h1)⟩

theorem wholeRecords_append {i : Nat} {a b : List Bytes} :
    WholeRecords i (a ++ b) ↔ WholeRecords i a ∧ WholeRecords (i + a.length) b := by
  induction a generalizing i with
  | nil => simp [WholeRecords]
  | cons r a ih =>
      rw [List.cons_append, WholeRecords, WholeRecords, ih, List.length_cons, and_assoc,
        Nat.add_right_comm, Nat.add_assoc]

namespace Capture

variable {env : CaptureEnv} {i : Nat} {c : Capture}

/-- The state after whole records from `i` on. -/
def afterRecords : Nat → Capture → List Bytes → Capture
  | _, c, [] => c
  | i, c, r :: rs => afterRecords (i + 1) (afterRecord i (c.push r)) rs

theorem afterRecords_append (a b : List Bytes) :
    afterRecords i c (a ++ b) = afterRecords (i + a.length) (afterRecords i c a) b := by
  induction a generalizing i c with
  | nil => rfl
  | cons r a ih =>
      rw [List.cons_append, afterRecords, afterRecords, ih, List.length_cons,
        Nat.add_right_comm, Nat.add_assoc]

/-- Record `i` comes next, and all bytes are used up. -/
structure Idle (i : Nat) (c : Capture) : Prop extends Filled i c where
  le : i ≤ 5
  clean : c.handshakeLen = 0
  saved : c.saved = []

theorem Idle.base (h : Idle i c) (x : Bytes) : Base i (c.push x) :=
  ⟨⟨h.before, h.after⟩, by have := h.le; omega, h.clean, fun h6 => by have := h.le; omega⟩

theorem Idle.push_saved (h : Idle i c) (x : Bytes) : (c.push x).saved = x := by
  rw [Capture.push, h.saved, List.nil_append]

theorem Idle.afterRecord (h : Idle i c) {r : Bytes} (hw : WholeRecord i r) (h4 : i ≤ 4) :
    Idle (i + 1) (afterRecord i (c.push r)) := by
  have hb := (h.base r).afterRecord (by omega) (fun h5 => by omega)
  refine ⟨hb.toFilled, by omega, hb.clean, ?_⟩
  rw [afterRecord_saved, h.push_saved, hw.alone, List.drop_length]

theorem Idle.usedLen (h : Idle i c) {r : Bytes} (hw : WholeRecord i r) :
    (Capture.afterRecord i (c.push r)).usedLen
      = Function.update c.usedLen (slot i) (r.length : Int) := by
  rw [afterRecord_usedLen, h.push_saved, hw.alone]
  rfl

/-- **A scan over whole records** uses them up and waits for the next. -/
theorem Idle.scan (hmode : resolveAmortizeMode env.mode = .l0) {rs : List Bytes} {n : Nat}
    (h : Idle i c) (hw : WholeRecords i rs) (hle : i + rs.length ≤ 5) (hn : n + i = 7) :
    (c.push rs.flatten).scan env n i = .stop (afterRecords i c rs) ∧
      Idle (i + rs.length) (afterRecords i c rs) := by
  induction rs generalizing i c n with
  | nil =>
      obtain ⟨k, rfl⟩ : ∃ k, n = k + 1 := ⟨n - 1, by have := h.le; omega⟩
      have hpush : c.push [] = c := by rw [Capture.push, List.append_nil]
      have hbase : Base i c := by
        have hb := h.base []
        rwa [hpush] at hb
      have hshort : headOf i c.saved = .short := by rw [h.saved]; rfl
      rw [List.flatten_nil, hpush, Capture.scan, hbase.index_short hshort]
      exact ⟨rfl, h⟩
  | cons r rs ih =>
      obtain ⟨hr, hrs⟩ := hw
      rw [List.length_cons] at hle
      obtain ⟨k, rfl⟩ : ∃ k, n = k + 1 := ⟨n - 1, by omega⟩
      have hfull : headOf i (c.push r).saved = .full := by rw [h.push_saved, hr.full]
      have hpush : c.push (r ++ rs.flatten) = (c.push r).push rs.flatten := by
        rw [Capture.push, Capture.push, Capture.push, List.append_assoc]
      have hnext : (c.push (r ++ rs.flatten)).index env i
          = .next (Capture.afterRecord i (c.push (r ++ rs.flatten))) := by
        refine (h.base _).index_next (fun _ => hmode) ?_ (by omega) ?_
        · rw [h.push_saved]
          exact headOf_full_append hr.full _
        · intro h0
          rw [h.push_saved, validR0_append hr.full]
          exact hr.hello h0
      obtain ⟨hscan, hidle⟩ := ih (h.afterRecord hr (by omega)) hrs (by omega)
        (n := k) (by omega)
      rw [List.flatten_cons, Capture.scan, hnext, hpush, afterRecord_push hfull]
      dsimp only
      rw [hscan, List.length_cons, show i + (rs.length + 1) = i + 1 + rs.length by omega]
      exact ⟨rfl, hidle⟩

/-- **Silence before R5**: whole records, grouped in any way, and then a read
that fails. -/
theorem Idle.readLoop (hmode : resolveAmortizeMode env.mode = .l0) (e : NetErr) {n : Nat}
    {groups : List (List Bytes)} (h : Idle i c) (hne : ∀ g ∈ groups, g ≠ [])
    (hw : WholeRecords i groups.flatten) (hle : i + groups.flatten.length ≤ 5)
    (hn : groups.length < n) (hsize : groups.flatten.flatten.length ≤ maxRecordSize) :
    (readLoop env n (groups.map (fun g => ⟨g.flatten, none⟩) ++ [⟨[], some e⟩]) c).1
      = (afterRecords i c groups.flatten).ret (some (.read e)) := by
  induction groups generalizing i c n with
  | nil =>
      obtain ⟨k, rfl⟩ : ∃ k, n = k + 1 := ⟨n - 1, by simp only [List.length_nil] at hn; omega⟩
      rfl
  | cons g groups ih =>
      obtain ⟨k, rfl⟩ : ∃ k, n = k + 1 := ⟨n - 1, by omega⟩
      rw [List.flatten_cons, wholeRecords_append] at hw
      rw [List.flatten_cons, List.length_append] at hle
      rw [List.flatten_cons, List.flatten_append, List.length_append] at hsize
      rw [List.length_cons] at hn
      obtain ⟨hscan, hidle⟩ := h.scan hmode hw.1 (by omega) (n := 7 - i) (by have := h.le; omega)
      have hbytes : g.flatten ≠ [] := by
        obtain ⟨r, rs, rfl⟩ := List.exists_cons_of_ne_nil (hne g List.mem_cons_self)
        have hr := hw.1.1.ne_nil
        simp [hr]
      have hfeed : c.feed env g.flatten = .more (afterRecords i c g) := by
        rw [feed, (h.base g.flatten).toFilled.scan_eq (n := 7 - i) (by have := h.le; omega),
          hscan]
      have hfit : c.saved.length + g.flatten.length ≤ maxRecordSize := by
        rw [h.saved, List.length_nil]
        omega
      rw [List.map_cons, List.cons_append, readLoop_more (r := ⟨g.flatten, none⟩) hbytes hfit hfeed
        rfl, List.flatten_cons, afterRecords_append]
      exact ih hidle (fun g' hg' => hne g' (List.mem_cons_of_mem _ hg')) hw.2 (by omega)
        (by omega) (by omega)

end Capture

/-- The reads of a target that sends these groups of records and is then silent
until a read fails with `e`. -/
def groupedReads (groups : List (List Bytes)) (e : NetErr) : List Read :=
  groups.map (fun g => ⟨g.flatten, none⟩) ++ [⟨[], some e⟩]

/-- A large R2 ends in its slot, with the buffer allocated. -/
theorem afterRecord_large {c : Capture} (h : 512 < recordLenAt c.saved) :
    (Capture.afterRecord 2 c).handshakeBuf = true := by
  rw [Capture.afterRecord, if_neg (by decide), Capture.assignEarly, if_pos (by simp [h])]
  rfl

/-- What the three records of a coalesced flight leave. -/
theorem Capture.Idle.coalesced {c : Capture} (h : Capture.Idle 0 c) {r0 ccs app : Bytes}
    (hw : WholeRecords 0 [r0, ccs, app]) (hlarge : 512 < app.length) :
    (Capture.afterRecords 0 c [r0, ccs, app]).usedLen
      = Function.update (Function.update (Function.update c.usedLen 0 (r0.length : Int)) 1 6) 2
        (app.length : Int) ∧
    (Capture.afterRecords 0 c [r0, ccs, app]).handshakeBuf = true ∧
    [r0, ccs, app].flatten.length ≤ maxRecordSize := by
  obtain ⟨h0, h1, h2, -⟩ := hw
  have hccs : ccs.length = 6 := h1.length_le.2 rfl
  have hr0 := h0.length_le.1
  have happ := h2.length_le.1
  have hidle1 := h.afterRecord h0 (by decide)
  have hlens1 := h.usedLen h0
  rw [Capture.afterRecords, Capture.afterRecords, Capture.afterRecords, Capture.afterRecords]
  generalize Capture.afterRecord 0 (c.push r0) = c₁ at hidle1 hlens1 ⊢
  have hidle2 := hidle1.afterRecord h1 (by decide)
  have hlens2 := hidle1.usedLen h1
  generalize Capture.afterRecord (0 + 1) (c₁.push ccs) = c₂ at hidle2 hlens2 ⊢
  refine ⟨?_, ?_, ?_⟩
  · rw [hidle2.usedLen h2, hlens2, hlens1, hccs]
    rfl
  · refine afterRecord_large ?_
    rw [hidle2.push_saved, h2.alone]
    exact hlarge
  · simp only [List.flatten_cons, List.flatten_nil, List.append_nil, List.length_append,
      maxTLSRecordPayload, maxRecordSize] at hr0 happ ⊢
    omega

/-- **A coalesced flight is not captured**: R0, R1 and a large R2, each delivered
whole, fill their slots and allocate the buffer, and then the capture fails
with the error of the read that ends the silence. -/
theorem coalesced_capture_fails {env : CaptureEnv}
    (hmode : resolveAmortizeMode env.mode = .l0) {r0 ccs app : Bytes}
    (hw : WholeRecords 0 [r0, ccs, app]) (hlarge : 512 < app.length)
    {groups : List (List Bytes)} (hne : ∀ g ∈ groups, g ≠ [])
    (hgroups : groups.flatten = [r0, ccs, app]) (e : NetErr) :
    (captureTargetRecords env (groupedReads groups e)).1.err = some (.read e) ∧
    (captureTargetRecords env (groupedReads groups e)).1.usedLen
      = ![(r0.length : Int), 6, (app.length : Int), 0, 0, 0, 0] ∧
    (captureTargetRecords env (groupedReads groups e)).1.handshakeBuf = true := by
  have hidle : Capture.Idle 0 {} := ⟨(Capture.base_start []).toFilled, by decide, rfl, rfl⟩
  obtain ⟨hlens, hbuf, hsize⟩ := hidle.coalesced hw hlarge
  have hcount : groups.length ≤ 3 := by
    have hle := length_le_flatten hne
    rw [hgroups] at hle
    exact hle
  have hres := hidle.readLoop hmode e hne (n := maxTargetReads) (by rw [hgroups]; exact hw)
    (by rw [hgroups]; exact Nat.le_add_right 3 2) (by rw [maxTargetReads]; omega)
    (by rw [hgroups]; exact hsize)
  rw [hgroups] at hres
  have hcap : (captureTargetRecords env (groupedReads groups e)).1
      = (Capture.afterRecords 0 {} [r0, ccs, app]).ret (some (.read e)) := hres
  rw [hcap]
  refine ⟨rfl, hlens.trans ?_, hbuf⟩
  funext j
  fin_cases j <;> rfl

/-- A coalesced flight over the sample ServerHello. -/
def coalescedFlight : List Bytes :=
  [wrapHandshakeRecord sampleHello versionTLS12, [20, 3, 3, 0, 1, 1],
    appDataRecord (List.replicate 600 5)]

theorem coalescedFlight_whole : WholeRecords 0 coalescedFlight :=
  ⟨⟨by decide +kernel, by decide +kernel, fun _ => by decide +kernel⟩,
    ⟨by decide +kernel, by decide +kernel, fun h => by cases h⟩,
    ⟨by decide +kernel, by decide +kernel, fun h => by cases h⟩, trivial⟩

theorem coalesced_flight_in_one_read :
    (captureTargetRecords ⟨.l0, fun _ _ => {}⟩ (groupedReads [coalescedFlight] .timeout)).1.err
      = some (.read .timeout) :=
  (coalesced_capture_fails rfl coalescedFlight_whole (by decide +kernel)
    (by rintro g (_ | ⟨_, ⟨⟩⟩); exact List.cons_ne_nil _ _) rfl .timeout).1

/-- One read for each record, then the deadline. -/
theorem coalesced_flight_times_out :
    (captureTargetRecords ⟨.l0, fun _ _ => {}⟩
      (coalescedFlight.map (⟨·, none⟩) ++ [⟨[], some .timeout⟩])).1.err
      = some (.read .timeout) := by
  decide +kernel

end Reality
