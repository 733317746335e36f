import Reality.Server.Rounds
import Reality.Tls.Encrypt

/-!
# Complete captures

A capture that succeeds on path L0 has seen the six records R0..R5, with ONE
exception: the read limit, which reports a success as soon as R0 was seen.
The exception cannot happen to a target that delivers fewer than 64 reads or
whose first 64 reads hold the six records, however they are cut.

The argument follows the bytes still owed. Between two reads the first empty
slot is some `i`, and the rest of the stream holds the records `i`..5. A large
R2 that is booked twice only shortens that list: all records from R2 on look
alike to the loop.
-/

namespace Reality

open Kit

/-- The stream starts with the records `i`, `i + 1`, ... (`n` of them). -/
def holdsRecords : Nat → Nat → Bytes → Bool
  | 0, _, _ => true
  | n + 1, i, s =>
      headOf i s = .full && holdsRecords n (i + 1) (s.drop (recordLenAt s))

/-- The stream starts with R0..R5. -/
def holdsFlight (s : Bytes) : Bool := holdsRecords 6 0 s

theorem holdsRecords_succ {n i : Nat} {s : Bytes} :
    holdsRecords (n + 1) i s = true ↔
      headOf i s = .full ∧ holdsRecords n (i + 1) (s.drop (recordLenAt s)) = true := by
  simp [holdsRecords]

theorem holdsRecords_drop {n i : Nat} {s : Bytes} (h : headOf i s = .full) (q : Bytes)
    (hr : holdsRecords (n + 1) i (s ++ q) = true) :
    holdsRecords n (i + 1) (s.drop (recordLenAt s) ++ q) = true := by
  have := (holdsRecords_succ.mp hr).2
  rwa [drop_record_append h] at this

/-- Records of application data count for later slots as well. -/
theorem holdsRecords_shift {n i k : Nat} (hi : 2 ≤ i) (hk : 2 ≤ k) {s : Bytes}
    (h : holdsRecords (n + 1) i s = true) : holdsRecords n k s = true := by
  induction n generalizing i k s with
  | zero => rfl
  | succ n ih =>
      obtain ⟨hhead, hrest⟩ := holdsRecords_succ.mp h
      rw [holdsRecords_succ]
      refine ⟨?_, ih (by omega) (by omega) hrest⟩
      rw [headOf_app hk hi]
      exact hhead

/-- All six required slots are filled. -/
def SixFilled (lens : RecordLens) : Prop := ∀ j ≤ 5, lens (slot j) ≠ 0

theorem SixFilled.update {lens : RecordLens} (h : SixFilled lens) {k : Nat} (hk : k ≤ 6)
    {n : Int} (hn : k ≤ 5 → n ≠ 0) : SixFilled (Function.update lens (slot k) n) := by
  intro j hj
  by_cases hjk : j = k
  · rw [hjk, Function.update_self]
    exact hn (by omega)
  · rw [Function.update_of_ne (fun he => hjk (Capture.slot_inj (by omega) hk he))]
    exact h j hj

namespace Capture

variable {env : CaptureEnv} {i : Nat} {c : Capture}

theorem Filled.six (hf : Filled i c) (hi : 6 ≤ i) : SixFilled c.usedLen :=
  fun j hj => hf.before j (by omega)

/-- The loop waits for the rest of record `i`. -/
structure Waits (i : Nat) (c : Capture) : Prop extends Filled i c where
  le : i ≤ 5
  pending : PendingOk i c
  head : headOf i c.saved ≠ .full

/-- R0 is complete: the capture is over, or goes on with R1. -/
theorem Base.index_hello (env : CaptureEnv) (hb : Base 0 c)
    (h : headOf 0 c.saved = .full) :
    (∃ r, c.index env 0 = .done r ∧ (r.err ≠ none ∨ r.path = .l1)) ∨
    ∃ c', c.index env 0 = .next c' ∧ Base 1 c' ∧
      c'.saved = c.saved.drop (recordLenAt c.saved) := by
  obtain ⟨hg, hlen⟩ := headOf_full h
  have hpos := recordLenAt_ge c.saved
  have hbase : ∀ c' : Capture,
      c'.usedLen = Function.update c.usedLen (slot 0) (recordLenAt c.saved : Int) →
      c'.handshakeLen = 0 → Base 1 c' := by
    intro c' hlens hclean
    exact ⟨filled_update hb.toFilled (by decide) (by omega) hlens, by decide, hclean,
      fun h6 => by cases h6⟩
  have hearly : c.assignEarly 0 (recordLenAt c.saved) = c := by simp [assignEarly]
  rw [index_eq hb.empty hb.ticket, announced_of_good hg hb.clean]
  dsimp only
  rw [advance, hearly,
    if_neg (by simp only [Bool.or_eq_true, decide_eq_true_eq]; omega), if_pos rfl, serverHello]
  dsimp only
  split
  · exact .inl ⟨_, rfl, .inl (by simp [ret])⟩
  · split
    · exact .inl ⟨_, rfl, .inl (by simp [ret])⟩
    · split
      · exact .inr ⟨_, rfl, hbase _ rfl rfl, rfl⟩
      · split
        · exact .inl ⟨_, rfl, .inr rfl⟩
        · exact .inr ⟨_, rfl, hbase _ rfl rfl, rfl⟩

/-- What a scan from record `i` on comes to. -/
def Progress (i : Nat) (s : Bytes) : Scan → Prop
  | .next _ => False
  | .done r => r.err = none → r.path = .l1 ∨ SixFilled r.usedLen
  | .stop c' => SixFilled c'.usedLen ∨
      ∃ k, Waits k c' ∧ ∀ q, holdsRecords (6 - i) i (s ++ q) = true →
        holdsRecords (6 - k) k (c'.saved ++ q) = true

theorem Progress.next {s s' : Bytes} {x : Scan} (h5 : i ≤ 5) (h : headOf i s = .full)
    (hs : s' = s.drop (recordLenAt s)) (hp : Progress (i + 1) s' x) : Progress i s x := by
  cases x with
  | next c => exact hp
  | done r => exact hp
  | stop c' =>
      rcases hp with hsix | ⟨k, hw, hk⟩
      · exact .inl hsix
      · refine .inr ⟨k, hw, fun q hq => hk q ?_⟩
        rw [show 6 - i = 6 - (i + 1) + 1 by omega] at hq
        rw [hs]
        exact holdsRecords_drop h q hq

theorem scan_progress (env : CaptureEnv) {n : Nat} (hn : n + i = 7) (hb : Base i c) :
    Progress i c.saved (c.scan env n i) := by
  induction n generalizing i c with
  | zero =>
      have := hb.le
      omega
  | succ n ih =>
      have hi := hb.le
      cases h : headOf i c.saved with
      | short =>
          rw [scan, hb.index_short h]
          by_cases h6 : i = 6
          · exact .inl (hb.six (by omega))
          · refine .inr ⟨i, ⟨hb.toFilled, by omega, .inl hb.clean, ?_⟩, fun q hq => hq⟩
            rw [h]
            decide
      | bad =>
          rw [scan, hb.index_bad h]
          intro herr
          cases herr
      | part =>
          rw [scan, hb.index_part h]
          have hpos := recordLenAt_ge c.saved
          by_cases he : Early i (recordLenAt c.saved)
          · have hfill := filled_update hb.toFilled hi (n := recordLenAt c.saved) (by omega)
              (pend_usedLen he)
            rcases he with ⟨rfl, -⟩ | rfl
            · -- Slot 3 now waits for what is left of R2.
              have hpart : headOf 3 (pend 2 c).saved = .part := by
                rw [pend_saved, headOf_app (k := 2) (by decide) (by decide)]
                exact h
              refine .inr ⟨3, ⟨hfill, by decide, .inr ⟨hpart, ?_⟩, ?_⟩, fun q hq => ?_⟩
              · rw [pend_saved]
                rfl
              · rw [hpart]
                decide
              · rw [pend_saved]
                exact holdsRecords_shift (by decide) (by decide) hq
            · exact .inl (hfill.six (by decide))
          · rw [pend_of_not_early he]
            have h5 : i ≤ 5 := by
              unfold Early at he
              omega
            refine .inr ⟨i, ⟨⟨hb.before, hb.after⟩, h5, .inr ⟨h, rfl⟩, ?_⟩, fun q hq => hq⟩
            rw [h]
            decide
      | full =>
          by_cases h0 : i = 0
          · subst h0
            rw [scan]
            rcases hb.index_hello env h with ⟨r, hr, hout⟩ | ⟨c', hc', hb', hs'⟩
            · rw [hr]
              intro herr
              exact .inl (hout.resolve_left (fun hne => hne herr))
            · rw [hc']
              exact Progress.next (by decide) h hs' (ih (by omega) hb')
          · have hafter := filled_update hb.toFilled hi (n := recordLenAt c.saved)
              (by have := recordLenAt_ge c.saved; omega) (afterRecord_usedLen i c)
            have hidx : c.index env i = _ := hb.index_full h (fun hi => absurd hi h0)
            rw [if_neg (by simp [h0])] at hidx
            rw [scan, hidx]
            by_cases hend : i = 5 ∧ c.saved.drop (recordLenAt c.saved) = [] ∨ i = 6
            · rw [if_pos (by simpa using hend)]
              exact fun _ => .inr (hafter.six (by omega))
            · rw [if_neg (by simpa using hend)]
              rw [not_or] at hend
              have hb' := hb.afterRecord (by omega) (fun h5 hnil => hend.1 ⟨h5, hnil⟩)
              exact Progress.next (by omega) h rfl (ih (by omega) hb')

/-! ## The read loop -/

/-- Filled slots stay filled. -/
theorem Round.six {done : Bool} {v : CaptureVars} (hr : Round env i c done v) (hi : i ≤ 6)
    (h : SixFilled c.usedLen) : SixFilled v.usedLen := by
  cases hr with
  | same => exact h
  | length h0 hempty hn _ => exact h.update hi (fun h5 => absurd hempty (h i h5))
  | hello h0 hempty hn hlen hm hv hasked => exact absurd hempty (h 0 (by decide))
  | answered h0 hempty hpos hn hlen hm hv hl1 => exact absurd hempty (h 0 (by decide))

theorem readLoop_six {n : Nat} {reads : List Read} (h : SixFilled c.usedLen) :
    SixFilled (readLoop env n reads c).1.usedLen :=
  readLoop_all (P := fun v => SixFilled v.usedLen) (Q := fun v => SixFilled v.usedLen)
    (fun hi _ hc hr => hr.six hi hc) (fun hi _ hc hr => hr.six hi hc) (fun _ => id) h

theorem Waits.feed (env : CaptureEnv) {k : Nat} (hw : Waits k c) (x : Bytes) :
    match c.feed env x with
    | .done r => r.err = none → r.path = .l1 ∨ SixFilled r.usedLen
    | .more c' => SixFilled c'.usedLen ∨
        ∃ k', Waits k' c' ∧ ∀ q, holdsRecords (6 - k) k (c.saved ++ x ++ q) = true →
          holdsRecords (6 - k') k' (c'.saved ++ q) = true := by
  have hle := hw.le
  have hb : Base k ({ c with handshakeLen := 0 }.push x) :=
    ⟨⟨hw.before, hw.after⟩, by omega, rfl, fun h6 => by omega⟩
  have hp := scan_progress env (n := 7 - k) (by omega) hb
  rw [← hw.toFilled.scan_restart (by omega) hw.pending x] at hp
  unfold Capture.feed
  cases hs : (c.push x).scan env 7 0 <;> rw [hs] at hp
  · exact hp.elim
  · exact hp
  · exact hp

/-- The error that ends the data is returned while R5 is missing. -/
theorem Waits.endOfData_err {k : Nat} (hw : Waits k c) (e : NetErr) :
    (c.endOfData e).err ≠ none := by
  have h5 : c.usedLen 5 = 0 := hw.after 5 hw.le (by decide)
  rw [endOfData, if_neg (by simp [h5])]
  exact Option.some_ne_none _

/-- A read loop that waits for record `k` and succeeds has seen R5, if the
reads end before the limit or hold the records that are owed. -/
theorem Waits.readLoop {k n : Nat} (hw : Waits k c) {reads : List Read}
    (howed : reads.length < n ∨
      holdsRecords (6 - k) k (c.saved ++ (reads.take n).flatMap Read.bytes) = true)
    (herr : (readLoop env n reads c).1.err = none) :
    (Capture.readLoop env n reads c).1.path = .l1 ∨
      SixFilled (Capture.readLoop env n reads c).1.usedLen := by
  induction n generalizing reads c k with
  | zero =>
      -- The limit: the record the loop waits for would be complete.
      exfalso
      rcases howed with h | h
      · omega
      · have hle := hw.le
        obtain ⟨m, hm⟩ : ∃ m, 6 - k = m + 1 := ⟨5 - k, by omega⟩
        rw [hm, holdsRecords_succ] at h
        refine hw.head ?_
        simpa using h.1
  | succ n ih =>
      cases reads with
      | nil => cases herr
      | cons r reads =>
          have hlen : reads.length < n ∨ holdsRecords (6 - k) k
              (c.saved ++ r.bytes ++ (reads.take n).flatMap Read.bytes) = true := by
            rcases howed with h | h
            · exact .inl (by rw [List.length_cons] at h; omega)
            · refine .inr ?_
              rw [List.append_assoc]
              exact h
          have hfeed := hw.feed env r.bytes
          refine readLoop_cases (P := fun p => p.1.err = none → p.1.path = .l1 ∨
            SixFilled p.1.usedLen) (fun e herr => ?_) (fun hnil herr => ?_)
            (fun res hf herr => ?_) (fun c' hf herr => ?_) (fun c' e hf herr => ?_) herr
          · cases herr
          · rw [hnil, List.append_nil] at hlen
            exact ih hw hlen herr
          · rw [hf] at hfeed
            exact hfeed herr
          · rw [hf] at hfeed
            rcases hfeed with hsix | ⟨k', hw', howe⟩
            · -- All that follows keeps the six slots.
              exact .inr (readLoop_six hsix)
            · exact ih hw' (hlen.imp_right (howe _)) herr
          · rw [hf] at hfeed
            rcases hfeed with hsix | ⟨k', hw', -⟩
            · refine .inr ?_
              unfold endOfData
              split <;> exact hsix
            · exact absurd herr (hw'.endOfData_err e)

end Capture

/-- The target is done before the read limit, or its first 64 reads hold the
flight. -/
def WithinReads (reads : List Read) : Prop :=
  reads.length < maxTargetReads ∨
    holdsFlight ((reads.take maxTargetReads).flatMap Read.bytes) = true

instance (reads : List Read) : Decidable (WithinReads reads) :=
  inferInstanceAs (Decidable (_ ∨ _))

/-- **Captures are complete**: within the read limit, a capture that succeeds
without the cache's answer has the lengths of R0..R5. -/
theorem captureTargetRecords_complete {env : CaptureEnv} {reads : List Read}
    (hreads : WithinReads reads) (herr : (captureTargetRecords env reads).1.err = none)
    (hpath : (captureTargetRecords env reads).1.path ≠ .l1) :
    SixFilled (captureTargetRecords env reads).1.usedLen := by
  have hstart : Capture.Waits 0 {} :=
    ⟨(Capture.base_start []).toFilled, by decide, .inl rfl, by decide⟩
  exact (hstart.readLoop hreads herr).resolve_left hpath

/-! ## Captures the cache answered -/

/-- The lengths are those of the profile the cache answered with, except for
the R0 that was seen. -/
structure FromCache (env : CaptureEnv) (v : CaptureVars) (res : LookupResult)
    (p : RealityProfile) : Prop where
  path : v.path = .l1
  asked : v.asked = some res
  looked : ∃ suite group, res = env.look suite group
  answered : res.path = .l1
  profile : res.profile = some p
  lens : ∃ n : Int, n ≠ 0 ∧ v.usedLen = Function.update p.recordLens 0 n

theorem Capture.l1Lens_eq_some {res : LookupResult} {lens : RecordLens}
    (h : Capture.l1Lens res = some lens) :
    ∃ p, res.profile = some p ∧ res.path = .l1 ∧ validateRecordLens lens = true ∧
      p.recordLens = lens := by
  unfold Capture.l1Lens at h
  split at h
  · cases h
  next p hp =>
    split at h
    next hc =>
      cases h
      simp only [Bool.and_eq_true, decide_eq_true_eq] at hc
      exact ⟨p, hp, hc.1, hc.2, rfl⟩
    · cases h

/-- **Captures on path L1** copy the lengths of the profile the cache
answered with. -/
theorem captureTargetRecords_path (env : CaptureEnv) (reads : List Read) :
    (captureTargetRecords env reads).1.path = .l0 ∨
      ∃ res p, FromCache env (captureTargetRecords env reads).1.toCaptureVars res p := by
  refine Capture.readLoop_all (P := fun v => v.path = .l0)
    (Q := fun v => v.path = .l0 ∨ ∃ res p, FromCache env v res p) ?_ ?_ (fun _ => .inl) rfl
  · intro i c v hi _ hc hr
    cases hr <;> exact hc
  · intro i c v hi _ hc hr
    cases hr with
    | @answered n hello lens h0 hempty hpos hn hlen hm hv hl1 =>
        obtain ⟨p, hp, hl, -, rfl⟩ := Capture.l1Lens_eq_some hl1
        exact .inr ⟨_, p, rfl, rfl, ⟨_, _, rfl⟩, hl, hp, n, by omega, rfl⟩
    | same => exact .inl hc
    | length => exact .inl hc
    | hello => exact .inl hc

/-! ## What a handshake is armed with -/

namespace Capture

/-- All lengths fit a record. -/
def Fits (v : CaptureVars) : Prop := ∀ j, v.usedLen j ≤ maxTLSRecordPayload

theorem Fits.update {lens : RecordLens} (h : ∀ j, lens j ≤ (maxTLSRecordPayload : Int))
    {n : Nat} (hn : n ≤ maxTLSRecordPayload) (i j : Fin 7) :
    Function.update lens i (n : Int) j ≤ maxTLSRecordPayload := by
  by_cases hj : j = i
  · rw [hj, Function.update_self]
    exact_mod_cast hn
  · rw [Function.update_of_ne hj]
    exact h j

theorem Round.fits {env : CaptureEnv} {i : Nat} {c : Capture} {done : Bool} {v : CaptureVars}
    (hr : Round env i c done v) (h : Fits c.toCaptureVars) : Fits v := by
  cases hr with
  | same => exact h
  | length h0 hempty hn _ => exact Fits.update h hn _
  | hello h0 hempty hn hlen hm hv hasked => exact Fits.update h hn _
  | answered h0 hempty hpos hn hlen hm hv hl1 =>
      obtain ⟨-, -, -, hvalid, -⟩ := l1Lens_eq_some hl1
      exact Fits.update (validateRecordLens_le hvalid) hn _

end Capture

theorem captureTargetRecords_fits (env : CaptureEnv) (reads : List Read) (j : Fin 7) :
    (captureTargetRecords env reads).1.usedLen j ≤ maxTLSRecordPayload :=
  Capture.readLoop_all (P := Capture.Fits) (Q := Capture.Fits) (fun _ _ hc hr => hr.fits hc)
    (fun _ _ hc hr => hr.fits hc) (fun _ => id) (fun _ => Int.natCast_nonneg _) j

/-- The buffer is allocated with a large R2, and never before R0. -/
structure BufferedLarge (v : CaptureVars) : Prop where
  path : v.path = .l0
  large : v.handshakeBuf = true ↔ 512 < v.usedLen 2
  first : v.usedLen 0 = 0 → v.handshakeBuf = false

theorem Capture.Round.buffered {env : CaptureEnv} {i : Nat} {c : Capture} {v : CaptureVars}
    {done : Bool} (hi : i ≤ 6) (hr0 : i ≠ 0 → c.usedLen 0 ≠ 0)
    (h : BufferedLarge c.toCaptureVars) (hr : Capture.Round env i c done v) :
    BufferedLarge v ∨ v.path = .l1 ∧ v.handshakeBuf = false := by
  cases hr with
  | same => exact .inl h
  | @length _ n buf h0 hempty hn hbuf =>
      refine .inl ⟨h.path, ?_, ?_⟩
      · show buf = true ↔ 512 < Function.update c.usedLen (slot i) (n : Int) 2
        by_cases h2 : i = 2
        · subst h2
          have hoff : c.handshakeBuf = false := by
            rw [Bool.eq_false_iff, Ne, h.large]
            have hz : c.usedLen 2 = 0 := hempty
            omega
          rw [hbuf, hoff, show slot 2 = 2 from rfl, Function.update_self]
          simp
        · have hne : (2 : Fin 7) ≠ slot i := fun he => h2 (slot_inj (by decide) hi he).symm
          rw [hbuf, Function.update_of_ne hne, ← h.large]
          simp [h2]
      · intro hz
        have hz : Function.update c.usedLen (slot i) (n : Int) 0 = 0 := hz
        rw [Function.update_of_ne (slot_ne_zero h0 hi).symm] at hz
        exact absurd hz (hr0 h0)
  | @hello _ n hello asked h0 hempty hn hlen hm hv hasked =>
      refine .inl ⟨h.path, ?_, fun _ => h.first hempty⟩
      show c.handshakeBuf = true ↔ 512 < Function.update c.usedLen 0 (n : Int) 2
      rw [Function.update_of_ne (by decide)]
      exact h.large
  | answered h0 hempty => exact .inr ⟨rfl, h.first hempty⟩

/-- **The buffer of a capture**: there on path L0 when R2 is large, and on path
L1 not at all. -/
theorem captureTargetRecords_buffer (env : CaptureEnv) (reads : List Read) :
    BufferedLarge (captureTargetRecords env reads).1.toCaptureVars ∨
      (captureTargetRecords env reads).1.path = .l1 ∧
        (captureTargetRecords env reads).1.handshakeBuf = false := by
  refine Capture.readLoop_all (P := BufferedLarge)
    (Q := fun v => BufferedLarge v ∨ v.path = .l1 ∧ v.handshakeBuf = false) ?_ ?_
    (fun _ => .inl) ⟨rfl, by decide, fun _ => rfl⟩
  · intro i c v hi hr0 hc hr
    refine (hr.buffered hi hr0 hc).resolve_right ?_
    rintro ⟨hpath, -⟩
    -- Only the last round changes the path.
    cases hr <;> exact absurd (hc.path.symm.trans hpath) (by decide)
  · intro i c v hi hr0 hc hr
    exact hr.buffered hi hr0 hc

/-- `copy(hs.c.out.handshakeLen[:], usedLen[:])`, and the buffer the capture
allocated. -/
def CaptureResult.arm (r : CaptureResult) : HalfConn :=
  ⟨r.usedLen, if r.handshakeBuf then some [] else none⟩

theorem CaptureResult.arm_buf (r : CaptureResult) :
    r.arm.handshakeBuf = none ∨ r.arm.handshakeBuf = some [] := by
  unfold CaptureResult.arm
  cases r.handshakeBuf
  · exact .inl rfl
  · exact .inr rfl

theorem SixFilled.flightFilled {lens : RecordLens} (h : SixFilled lens) : FlightFilled lens := by
  intro i _ h5
  have hi : slot i.val = i := by
    apply Fin.ext
    simp [slot, Fin.ofNat, Nat.mod_eq_of_lt i.isLt]
  rw [← hi]
  exact h i.val h5

end Reality
