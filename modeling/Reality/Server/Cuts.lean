import Reality.Server.CutJoin

/-!
# Does the capture depend on how the flight is cut?

The other half: every stream that `cutVerdict` calls sensitive HAS two cuts
with different results, and so has every long stream that is still waiting
for bytes. `capture_ignores_cuts_iff` puts both halves together.
-/

namespace Reality

open Kit

namespace Capture

variable {env : CaptureEnv} {i : Nat} {c : Capture} {q : Bytes}

/-! ## What one read decides -/

/-- The result when the stream ends with `e` before the read limit. -/
def final (e : NetErr) : Scan → CaptureResult
  | .next c => c.ret (some (.read e))
  | .stop c => c.ret (some (.read e))
  | .done r => r

theorem scan_verdict (hmode : resolveAmortizeMode env.mode = .l0) {n : Nat} (hn : n + i = 7)
    (hb : Base i c) :
    (cutVerdict n i c.saved = .settled → ∃ r, c.scan env n i = .done r) ∧
      (cutVerdict n i c.saved = .waiting → ∃ c', c.scan env n i = .stop c') := by
  induction n generalizing i c with
  | zero =>
      have := hb.le
      omega
  | succ n ih =>
      cases h : headOf i c.saved with
      | short =>
          rw [cutVerdict, h, scan, hb.index_short h]
          exact ⟨fun hv => (by cases hv), fun _ => ⟨_, rfl⟩⟩
      | bad =>
          rw [cutVerdict, h, scan, hb.index_bad h]
          exact ⟨fun _ => ⟨_, rfl⟩, fun hv => (by cases hv)⟩
      | part =>
          rw [cutVerdict, h, scan, hb.index_part h]
          exact ⟨fun hv => (by cases hv), fun _ => ⟨_, rfl⟩⟩
      | full =>
          rcases full_cases hb.le h with hp | ⟨rfl, hval⟩ | ⟨rfl, hbig⟩ | rfl | rfl
          · have h4 := hp.early
            rw [hp.cutVerdict_eq, scan, hb.index_next (fun _ => hmode) h h4 hp.hello]
            exact ih (by omega) (hb.afterRecord (by omega) (by omega))
          · rw [cutVerdict_invalid h hval, scan, hb.index_invalid h hval]
            exact ⟨fun _ => ⟨_, rfl⟩, fun hv => (by cases hv)⟩
          · rw [cutVerdict_largeR2 h hbig]
            exact ⟨fun hv => (by cases hv), fun hv => (by cases hv)⟩
          · rw [cutVerdict_finished h, scan, hb.index_finished h]
            split
            · exact ⟨fun _ => ⟨_, rfl⟩, fun hv => (by cases hv)⟩
            next hrest =>
              split
              · exact ⟨fun hv => (by cases hv), fun hv => (by cases hv)⟩
              · exact ih (by omega) (hb.afterRecord le_rfl (fun _ => hrest))
          · rw [cutVerdict_ticket h, scan, hb.index_ticket h]
            split
            · exact ⟨fun _ => ⟨_, rfl⟩, fun hv => (by cases hv)⟩
            · exact ⟨fun hv => (by cases hv), fun hv => (by cases hv)⟩

theorem afterRecord_before {j : Nat} (hi : i ≤ 6) (hj : j < i) (c : Capture) :
    (Capture.afterRecord i c).usedLen (slot j) = c.usedLen (slot j) := by
  rw [afterRecord_usedLen]
  exact Function.update_of_ne (fun h => by have := slot_inj (by omega) hi h; omega) _ _

theorem afterRecord_self (i : Nat) (c : Capture) :
    (Capture.afterRecord i c).usedLen (slot i) = recordLenAt c.saved := by
  rw [afterRecord_usedLen, Function.update_self]

theorem pend_before {j : Nat} (hi : i ≤ 6) (hj : j < i) (c : Capture) :
    (pend i c).usedLen (slot j) = c.usedLen (slot j) := by
  by_cases he : Early i (recordLenAt c.saved)
  · rw [pend_usedLen he]
    exact Function.update_of_ne (fun h => by have := slot_inj (by omega) hi h; omega) _ _
  · rw [pend_of_not_early he]

/-- The slots of earlier records stay as they are. -/
theorem final_before (hmode : resolveAmortizeMode env.mode = .l0) {n : Nat} (hn : n + i = 7)
    (hb : Base i c) (e : NetErr) {j : Nat} (hj : j < i) :
    (final e (c.scan env n i)).usedLen (slot j) = c.usedLen (slot j) := by
  induction n generalizing i c with
  | zero =>
      have := hb.le
      omega
  | succ n ih =>
      have hstay := afterRecord_before hb.le hj c
      cases h : headOf i c.saved with
      | short => rw [scan, hb.index_short h]; rfl
      | bad => rw [scan, hb.index_bad h]; rfl
      | part => rw [scan, hb.index_part h]; exact pend_before hb.le hj c
      | full =>
          rw [scan, hb.index_full h (fun _ _ => hmode)]
          split_ifs with h1 h2
          · rfl
          · exact hstay
          · simp only [Bool.or_eq_true, Bool.and_eq_true, decide_eq_true_eq, not_or,
              not_and] at h2
            have := hb.le
            exact (ih (by omega) (hb.afterRecord (by omega) h2.1) (by omega)).trans hstay

/-! ## Sensitive streams: two cuts that differ -/

def withSaved (c : Capture) (s : Bytes) : Capture := { c with saved := s }

theorem withSaved_push (c : Capture) (p z : Bytes) :
    (c.withSaved p).push z = c.withSaved (p ++ z) := rfl

theorem withSaved_self (c : Capture) : c.withSaved c.saved = c := rfl

theorem Base.withSaved (hb : Base i c) {s : Bytes} (hs : s ≠ []) : Base i (c.withSaved s) :=
  ⟨⟨hb.before, hb.after⟩, hb.le, hb.clean, fun _ => hs⟩

/-- The result when `z` comes with a second read. -/
def twoReads (env : CaptureEnv) (e : NetErr) (z : Bytes) : Scan → CaptureResult
  | .next c => final e ((c.push z).scan env 7 0)
  | .stop c => final e ((c.push z).scan env 7 0)
  | .done r => r

/-- A cut of the saved bytes changes the result. -/
def CutMatters (env : CaptureEnv) (e : NetErr) (n i : Nat) (c : Capture) : Prop :=
  ∃ p z, c.saved = p ++ z ∧ p ≠ [] ∧ z ≠ [] ∧
    (twoReads env e z ((c.withSaved p).scan env n i)).returned
      ≠ (final e (c.scan env n i)).returned

theorem returned_ne_of_err {a b : CaptureResult} (h : a.err ≠ b.err) :
    a.returned ≠ b.returned := fun he => h (congrArg Prod.fst he)

theorem returned_ne_of_lens {a b : CaptureResult} (h : a.usedLen ≠ b.usedLen) :
    a.returned ≠ b.returned := fun he => h (congrArg (·.2.1) he)

/-- A complete record is complete in every prefix that holds it. -/
theorem headOf_of_append {p z : Bytes} (h : headOf i (p ++ z) = .full)
    (hseen : recordHeaderLen < p.length) (hlen : recordLenAt (p ++ z) ≤ p.length) :
    headOf i p = .full := by
  obtain ⟨hg, -⟩ := headOf_full h
  have hgp : GoodHead i p := by
    refine ⟨?_, ?_, hseen⟩
    · rw [← headerOk_append hseen i z]
      exact hg.header
    · rw [← recordLenAt_append hseen z]
      exact hg.length
  rw [recordLenAt_append hseen] at hlen
  rw [hgp.headOf, if_neg (by omega)]

/-- Rounds at record `i` go on to the next one as long as bytes are left. -/
def PassesOn (env : CaptureEnv) (i : Nat) (c : Capture) : Prop :=
  ∀ s, headOf i s = .full → s.drop (recordLenAt s) ≠ [] → validR0 s = validR0 c.saved →
    (c.withSaved s).index env i = .next (Capture.afterRecord i (c.withSaved s))

/-- A prefix of what follows record `i` extends to a prefix of the whole. -/
theorem exists_extension {n : Nat} (h : headOf i c.saved = .full) (hpass : PassesOn env i c)
    {p' z : Bytes} (hsaved : c.saved.drop (recordLenAt c.saved) = p' ++ z) (hp' : p' ≠ []) :
    ∃ p, c.saved = p ++ z ∧ p ≠ [] ∧
      (c.withSaved p).scan env (n + 1) i
        = ((Capture.afterRecord i c).withSaved p').scan env n (i + 1) := by
  have hfl := (headOf_full h).2
  have hge := recordLenAt_ge c.saved
  have hpos := List.length_pos_of_ne_nil hp'
  obtain ⟨p, hpdef⟩ : ∃ p, p = c.saved.take (recordLenAt c.saved) ++ p' := ⟨_, rfl⟩
  have hsplit : c.saved = p ++ z := by
    rw [hpdef, List.append_assoc, ← hsaved, List.take_append_drop]
  have hplen : p.length = recordLenAt c.saved + p'.length := by
    rw [hpdef, List.length_append, List.length_take_of_le hfl]
  have hseen : recordHeaderLen < p.length := by
    simp only [recordHeaderLen]
    omega
  have hpfull : headOf i p = .full := by
    rw [hsplit] at h hplen
    exact headOf_of_append h hseen (by omega)
  have hrec : recordLenAt p = recordLenAt c.saved := by
    rw [hsplit, recordLenAt_append hseen]
  have hpdrop : p.drop (recordLenAt p) = p' := by
    rw [hrec, hpdef, List.drop_append_of_le_length (by rw [List.length_take_of_le hfl]),
      List.drop_of_length_le (by rw [List.length_take_of_le hfl]), List.nil_append]
  have hval : validR0 p = validR0 c.saved := by
    rw [hsplit, validR0_append hpfull]
  have hafter : Capture.afterRecord i (c.withSaved p)
      = (Capture.afterRecord i c).withSaved p' := by
    have hpush := afterRecord_push (c := c.withSaved p) hpfull z
    rw [withSaved_push, ← hsplit, withSaved_self] at hpush
    have hs : (Capture.afterRecord i (c.withSaved p)).saved = p' := hpdrop
    rw [hpush, ← hs]
    rfl
  refine ⟨p, hsplit, List.ne_nil_of_length_pos (by omega), ?_⟩
  rw [scan, hpass p hpfull (by rw [hpdrop]; exact hp') hval, hafter]

theorem PassesOn.scan_eq {n : Nat} (hpass : PassesOn env i c) (h : headOf i c.saved = .full)
    (hrest : c.saved.drop (recordLenAt c.saved) ≠ []) :
    c.scan env (n + 1) i = (Capture.afterRecord i c).scan env n (i + 1) := by
  have hidx := hpass c.saved h hrest rfl
  rw [withSaved_self] at hidx
  rw [scan, hidx]

theorem Base.passesOn (hmode : resolveAmortizeMode env.mode = .l0) (hb : Base i c)
    (h5 : i ≤ 5) (h0 : i = 0 → validR0 c.saved = true) : PassesOn env i c := by
  intro s hs hrest hval
  have hne : s ≠ [] := by
    rintro rfl
    exact hrest (List.drop_nil)
  have hbs := hb.withSaved hne
  by_cases h4 : i ≤ 4
  · exact hbs.index_next (fun _ => hmode) hs h4 (fun hi => hval.trans (h0 hi))
  · obtain rfl : i = 5 := by omega
    exact (hbs.index_finished hs).trans (if_neg hrest)

/-- A cut behind record `i` that matters is one of the whole. -/
theorem cutMatters_next {e : NetErr} {n : Nat} (h : headOf i c.saved = .full)
    (hpass : PassesOn env i c) (hc : CutMatters env e n (i + 1) (Capture.afterRecord i c)) :
    CutMatters env e (n + 1) i c := by
  obtain ⟨p', z, hsaved, hp', hz, hne⟩ := hc
  rw [afterRecord_saved] at hsaved
  obtain ⟨p, hsplit, hp, hscan⟩ := exists_extension (n := n) h hpass hsaved hp'
  refine ⟨p, z, hsplit, hp, hz, ?_⟩
  rw [hscan, hpass.scan_eq h (by rw [hsaved]; simp [hp'])]
  exact hne

/-- What stands behind R5 shows: an error, or the slot of R6. -/
theorem final_ticket (hb : Base 6 c) (e : NetErr) :
    (final e (c.scan env 1 6)).err ≠ none ∨ (final e (c.scan env 1 6)).usedLen 6 ≠ 0 := by
  cases h : headOf 6 c.saved with
  | short => rw [scan, hb.index_short h]; exact .inl (by simp [final, ret])
  | bad => rw [scan, hb.index_bad h]; exact .inl (by simp [final, ret])
  | part => rw [scan, hb.index_part h]; exact .inl (by simp [final, ret])
  | full =>
      have hge := recordLenAt_ge c.saved
      rw [scan, hb.index_ticket h]
      right
      have : (Capture.afterRecord 6 c).usedLen 6 = recordLenAt c.saved := afterRecord_self 6 c
      simp only [final, ret]
      omega

/-- Cut behind R5, the first read returns without R6. -/
theorem scan_until_finished (hb : Base 5 c) (h : headOf 5 c.saved = .full)
    (hlen : recordLenAt c.saved > recordHeaderLen) :
    ∃ p r, c.saved = p ++ c.saved.drop (recordLenAt c.saved) ∧ p ≠ [] ∧
      (c.withSaved p).scan env 2 5 = .done r ∧ r.err = none ∧ r.usedLen 6 = 0 := by
  have hfl := (headOf_full h).2
  obtain ⟨p, hp⟩ : ∃ p, p = c.saved.take (recordLenAt c.saved) := ⟨_, rfl⟩
  have hsplit : c.saved = p ++ c.saved.drop (recordLenAt c.saved) := by
    rw [hp, List.take_append_drop]
  have hplen : p.length = recordLenAt c.saved := by
    rw [hp, List.length_take_of_le hfl]
  have hpne : p ≠ [] := List.ne_nil_of_length_pos (by omega)
  have hpfull : headOf 5 p = .full := by
    rw [hsplit] at h
    exact headOf_of_append h (by omega) (by rw [← hsplit]; omega)
  have hdrop : p.drop (recordLenAt p) = [] := by
    rw [List.drop_eq_nil_iff, hplen, hsplit, recordLenAt_append (by omega)]
  refine ⟨p, (Capture.afterRecord 5 (c.withSaved p)).ret none, hsplit, hpne, ?_, rfl, ?_⟩
  · rw [scan, (hb.withSaved hpne).index_finished hpfull]
    rw [show (c.withSaved p).saved = p from rfl, if_pos hdrop]
  · have := afterRecord_usedLen 5 (c.withSaved p)
    simp only [ret, this]
    exact (Function.update_of_ne (by decide) _ _).trans (hb.after 6 (by decide) le_rfl)

/-- Cutting behind R5 hides R6. -/
theorem cutMatters_finished (hmode : resolveAmortizeMode env.mode = .l0) (hb : Base 5 c)
    (e : NetErr) (h : headOf 5 c.saved = .full)
    (hrest : c.saved.drop (recordLenAt c.saved) ≠ [])
    (hlen : recordLenAt c.saved > recordHeaderLen) : CutMatters env e 2 5 c := by
  obtain ⟨p, r, hsplit, hp, hscan, herr, hslot⟩ := scan_until_finished hb h hlen
  refine ⟨p, _, hsplit, hp, hrest, ?_⟩
  rw [hscan, (hb.passesOn hmode le_rfl (by simp)).scan_eq h hrest]
  rcases final_ticket (hb.afterRecord le_rfl (fun _ => hrest)) e with h' | h'
  · exact returned_ne_of_err (fun he => h' (he.symm.trans herr))
  · refine returned_ne_of_lens (fun he => h' ?_)
    rw [← he]
    exact hslot

/-- Cut behind its header and one byte, a longer record is there in part. -/
theorem exists_header {s : Bytes} (h : headOf i s = .full)
    (hlen : recordHeaderLen + 1 < recordLenAt s) :
    ∃ p z, s = p ++ z ∧ p ≠ [] ∧ z ≠ [] ∧ headOf i p = .part ∧
      recordLenAt p = recordLenAt s := by
  obtain ⟨hg, hfl⟩ := headOf_full h
  obtain ⟨p, hp⟩ : ∃ p, p = s.take (recordHeaderLen + 1) := ⟨_, rfl⟩
  obtain ⟨z, hz⟩ : ∃ z, z = s.drop (recordHeaderLen + 1) := ⟨_, rfl⟩
  have hsplit : s = p ++ z := by rw [hp, hz, List.take_append_drop]
  have hplen : p.length = recordHeaderLen + 1 := by
    rw [hp, List.length_take_of_le (by omega)]
  have hseen : recordHeaderLen < p.length := by omega
  have hrec : recordLenAt p = recordLenAt s := by rw [hsplit, recordLenAt_append hseen]
  have hgp : GoodHead i p := by
    refine ⟨?_, by rw [hrec]; exact hg.length, hseen⟩
    rw [← headerOk_append hseen i z, ← hsplit]
    exact hg.header
  refine ⟨p, z, hsplit, List.ne_nil_of_length_pos (by omega), ?_, ?_, hrec⟩
  · rw [hz, Ne, List.drop_eq_nil_iff]
    omega
  · rw [hgp.headOf, if_pos (by omega)]

/-- Cutting behind the header of R6 leaves it unfinished. -/
theorem cutMatters_ticket (hb : Base 6 c) (e : NetErr) (h : headOf 6 c.saved = .full)
    (hlen : recordHeaderLen + 1 < recordLenAt c.saved) : CutMatters env e 1 6 c := by
  obtain ⟨p, z, hsplit, hp, hz, hpart, -⟩ := exists_header h hlen
  have hbp := hb.withSaved hp
  have hge := recordLenAt_ge p
  have hfill := filled_update hbp.toFilled le_rfl (n := recordLenAt p) (by omega)
    (pend_usedLen (c := c.withSaved p) (.inr rfl))
  have hseen : ((pend 6 (c.withSaved p)).push z).scan env 7 0 = .stop _ :=
    scan_ticketSeen (fun j hj => hfill.before j (by omega))
  refine ⟨p, z, hsplit, hp, hz, ?_⟩
  rw [scan, hbp.index_part hpart, scan, hb.index_ticket h]
  dsimp only [twoReads]
  rw [hseen]
  exact returned_ne_of_err (by simp [final, ret])

/-- `d` stands where `c` does, but has booked a record of length `len` in
slot `j` that `c` has not. -/
structure Shifted (j len : Nat) (c d : Capture) : Prop where
  base : Base j c
  filled : Filled (j + 1) d
  clean : d.handshakeLen = 0
  saved : d.saved = c.saved
  lens : d.usedLen = Function.update c.usedLen (slot j) (len : Int)

theorem Shifted.final_slot (hmode : resolveAmortizeMode env.mode = .l0) {n j len : Nat}
    {d : Capture} (hn : n + (j + 1) = 7) (h5 : j ≤ 5) (hs : Shifted j len c d) (e : NetErr) :
    (final e (d.scan env n (j + 1))).usedLen (slot j) = len := by
  have hd : d.usedLen (slot j) = len := by rw [hs.lens, Function.update_self]
  by_cases hnil : j + 1 = 6 ∧ d.saved = []
  · obtain ⟨h6, hnil⟩ := hnil
    obtain rfl : n = 1 := by omega
    obtain rfl : j = 5 := by omega
    have hidx : d.index env 6 = .done (d.ret none) := by
      rw [index, if_neg (by simp [hs.filled.after 6 le_rfl le_rfl]), if_pos (by simp [hnil])]
    rw [scan, hidx]
    exact hd
  · have hb : Base (j + 1) d :=
      ⟨hs.filled, by omega, hs.clean, fun h6 hsaved => hnil ⟨h6, hsaved⟩⟩
    exact (final_before hmode hn hb e (by omega)).trans hd

/-- Slot `j` is filled at the end only by a complete record `j`. -/
theorem final_self (hmode : resolveAmortizeMode env.mode = .l0) {n j : Nat}
    (hn : n + 1 + j = 7) (h3 : 3 ≤ j) (h5 : j ≤ 5) (hb : Base j c) (e : NetErr) :
    (headOf j c.saved = .full ∧
      (final e (c.scan env (n + 1) j)).usedLen (slot j) = recordLenAt c.saved) ∨
    (headOf j c.saved ≠ .full ∧ (final e (c.scan env (n + 1) j)).usedLen (slot j) = 0) := by
  cases h : headOf j c.saved with
  | short => rw [scan, hb.index_short h]; exact .inr ⟨by decide, hb.empty⟩
  | bad => rw [scan, hb.index_bad h]; exact .inr ⟨by decide, hb.empty⟩
  | part =>
      have he : ¬ Early j (recordLenAt c.saved) := by
        unfold Early
        omega
      rw [scan, hb.index_part h, pend_of_not_early he]
      exact .inr ⟨by decide, hb.empty⟩
  | full =>
      refine .inl ⟨rfl, ?_⟩
      by_cases hrest : c.saved.drop (recordLenAt c.saved) = [] ∧ j = 5
      · obtain ⟨hrest, rfl⟩ := hrest
        rw [scan, hb.index_finished h, if_pos hrest]
        exact afterRecord_self 5 c
      · have hb' := hb.afterRecord h5 (fun h' hnil => hrest ⟨hnil, h'⟩)
        have hidx : c.index env j = .next (Capture.afterRecord j c) := by
          by_cases h4 : j ≤ 4
          · exact hb.index_next (fun _ => hmode) h h4 (by omega)
          · obtain rfl : j = 5 := by omega
            rw [hb.index_finished h, if_neg (fun hnil => hrest ⟨hnil, rfl⟩)]
        rw [scan, hidx]
        exact (final_before hmode (by omega) hb' e (by omega)).trans (afterRecord_self j c)

/-- The shifted stream has its R6 where this one has R5: cutting behind R5 tells. -/
theorem Shifted.cut_finished {len : Nat} {d : Capture} (hlen : 512 < len)
    (hs : Shifted 5 len c d) (h : headOf 5 c.saved = .full) (hrec : recordLenAt c.saved = len)
    (hbd : Base 6 d) (hd : headOf 6 d.saved = .full) (e : NetErr)
    (heq : (final e (c.scan env 2 5)).usedLen = (final e (d.scan env 1 6)).usedLen) :
    ∃ p z r, c.saved = p ++ z ∧ p ≠ [] ∧ z ≠ [] ∧ (c.withSaved p).scan env 2 5 = .done r ∧
      r.usedLen ≠ (final e (c.scan env 2 5)).usedLen := by
  have hsix : (final e (d.scan env 1 6)).usedLen 6 ≠ 0 := by
    have h6 : (Capture.afterRecord 6 d).usedLen 6 = recordLenAt d.saved := afterRecord_self 6 d
    rw [scan, hbd.index_ticket hd]
    simp only [final, ret, h6, hs.saved]
    omega
  rw [← heq] at hsix
  obtain ⟨p, r, hsplit, hp, hscan, -, hr6⟩ :=
    scan_until_finished hs.base h (by rw [hrec]; simp only [recordHeaderLen]; omega)
  refine ⟨p, _, r, hsplit, hp, ?_, hscan, fun hcon => hsix (by rw [← hcon]; exact hr6)⟩
  intro hnil
  rw [hnil, List.append_nil] at hsplit
  rw [← hsplit, withSaved_self] at hscan
  rw [hscan] at hsix
  exact hsix hr6

/-- Both use up one record and stay shifted. -/
theorem Shifted.afterRecord {j len : Nat} {d : Capture} (hs : Shifted j len c d) (h4 : j ≤ 4)
    (hbd : Base (j + 1) d) (hrec : recordLenAt c.saved = len)
    (hrest : c.saved.drop (recordLenAt c.saved) ≠ []) :
    Shifted (j + 1) len (Capture.afterRecord j c) (Capture.afterRecord (j + 1) d) := by
  have hb' := hs.base.afterRecord (by omega) (by omega)
  have hrestd : d.saved.drop (recordLenAt d.saved)
      = c.saved.drop (recordLenAt c.saved) := by rw [hs.saved]
  have hbd' := hbd.afterRecord (by omega) (fun _ => by rw [hrestd]; exact hrest)
  refine ⟨hb', hbd'.toFilled, rfl, hrestd, ?_⟩
  rw [afterRecord_usedLen, afterRecord_usedLen, hs.saved, hs.lens, hrec]

/-- Where a stream and the same stream shifted by one record end with the
same lengths, all its records have that length, and cutting it behind R5
tells the difference. -/
theorem Shifted.exists_cut (hmode : resolveAmortizeMode env.mode = .l0) {n j len : Nat}
    {d : Capture} (hn : n + 1 + j = 7) (h3 : 3 ≤ j) (h5 : j ≤ 5) (hlen : 512 < len)
    (hs : Shifted j len c d) (e : NetErr)
    (heq : (final e (c.scan env (n + 1) j)).usedLen
      = (final e (d.scan env n (j + 1))).usedLen) :
    ∃ p z r, c.saved = p ++ z ∧ p ≠ [] ∧ z ≠ [] ∧
      (c.withSaved p).scan env (n + 1) j = .done r ∧
      r.usedLen ≠ (final e (c.scan env (n + 1) j)).usedLen := by
  induction n generalizing j c d with
  | zero => omega
  | succ n ih =>
      have hslot := hs.final_slot hmode (n := n + 1) (by omega) h5 e
      rw [← heq] at hslot
      obtain ⟨h, hown⟩ := (final_self hmode hn h3 h5 hs.base e).resolve_right (by
        rintro ⟨-, h0⟩
        omega)
      have hrec : recordLenAt c.saved = len := by omega
      have hd : headOf (j + 1) d.saved = .full := by
        rw [hs.saved, headOf_app (k := j) (by omega) (by omega)]
        exact h
      have hdne : d.saved ≠ [] := by
        intro hnil
        rw [hnil] at hd
        cases hd
      have hbd : Base (j + 1) d := ⟨hs.filled, by omega, hs.clean, fun _ => hdne⟩
      by_cases hj : j = 5
      · subst hj
        obtain rfl : n = 0 := by omega
        exact hs.cut_finished hlen h hrec hbd hd e heq
      · have hpass := hs.base.passesOn hmode h5 (by omega)
        have hpassd := hbd.passesOn hmode (by omega) (by omega)
        have hb' := hs.base.afterRecord h5 (by omega)
        have hrestd : d.saved.drop (recordLenAt d.saved)
            = c.saved.drop (recordLenAt c.saved) := by rw [hs.saved]
        have hstep : c.scan env (n + 1 + 1) j
            = (Capture.afterRecord j c).scan env (n + 1) (j + 1) := by
          rw [scan, hs.base.index_next (fun _ => hmode) h (by omega) (by omega)]
        by_cases hrest : c.saved.drop (recordLenAt c.saved) = []
        · -- Only the shifted stream has a record `j + 1`.
          have hc := final_self hmode (n := n) (by omega) (by omega) (by omega) hb' e
          have hd' := final_self hmode (n := n) (by omega) (by omega) (by omega) hbd e
          rw [hstep] at heq
          rw [afterRecord_saved, hrest, heq] at hc
          rcases hc with ⟨hc, -⟩ | ⟨-, hc⟩
          · cases hc
          · rcases hd' with ⟨-, hd'⟩ | ⟨hd', -⟩
            · rw [hs.saved] at hd'
              omega
            · exact absurd hd hd'
        · have hshift := hs.afterRecord (by omega) hbd hrec hrest
          rw [hstep, hpassd.scan_eq hd (by rw [hrestd]; exact hrest)] at heq
          obtain ⟨p', z, r, hsaved, hp', hz, hscan, hne⟩ :=
            ih (by omega) (by omega) (by omega) hshift heq
          obtain ⟨p, hsplit, hp, hextend⟩ := exists_extension (n := n + 1) h hpass hsaved hp'
          refine ⟨p, z, r, hsplit, hp, hz, hextend.trans hscan, ?_⟩
          rwa [hstep]

/-- The state after a pending R2 was booked in slot 3. -/
def booked (c : Capture) : Capture :=
  { c.setLen 3 c.handshakeLen with
    saved := c.saved.drop c.handshakeLen, handshakeLen := 0 }

theorem scan_booked (hf : Filled 3 c) (hlen : lengthOk 3 c.handshakeLen = true)
    (h0 : 0 < c.handshakeLen) (hfull : c.handshakeLen ≤ c.saved.length) :
    c.scan env 7 0 = (booked c).scan env 3 4 := by
  have hann : c.announced 3 = .ok c.handshakeLen := by
    rw [announced, if_neg, checkLength_of_ok hlen]
    simp only [Bool.and_eq_true, decide_eq_true_eq]
    omega
  have hidx : c.index env 3 = .next (booked c) := by
    have hsaved : (c.assignEarly 3 c.handshakeLen).saved = c.saved := assignEarly_saved _ _ _
    rw [index_eq (hf.after 3 le_rfl (by decide)) (fun h => by cases h), hann]
    dsimp only
    rw [advance, if_neg, if_neg (by decide)]
    · rfl
    · simp only [hsaved, Bool.or_eq_true, decide_eq_true_eq]
      omega
  rw [hf.scan_eq (n := 4) rfl, scan, hidx]

/-- A large R2 is booked twice when it is cut. -/
theorem cutMatters_largeR2 (hmode : resolveAmortizeMode env.mode = .l0) (hb : Base 2 c)
    (e : NetErr) (h : headOf 2 c.saved = .full) (hlen : 512 < recordLenAt c.saved) :
    CutMatters env e 5 2 c := by
  obtain ⟨p, z, hsplit, hp, hz, hpart, hrec⟩ :=
    exists_header h (by simp only [recordHeaderLen]; omega)
  obtain ⟨hg, hfl⟩ := headOf_full h
  have hbp := hb.withSaved hp
  have hearly : Early 2 (recordLenAt (c.withSaved p).saved) := .inl ⟨rfl, by
    rw [show (c.withSaved p).saved = p from rfl, hrec]
    exact hlen⟩
  -- With the second read the record is complete, but slot 3 is next.
  let b : Capture := (pend 2 (c.withSaved p)).push z
  have hbsaved : b.saved = c.saved := by
    rw [hsplit]
    exact congrArg (· ++ z) (pend_saved 2 (c.withSaved p))
  have hbpend : b.handshakeLen = recordLenAt c.saved := hrec
  have hblens : b.usedLen = Function.update c.usedLen (slot 2) (recordLenAt c.saved : Int) := by
    have := pend_usedLen hearly
    rw [show (c.withSaved p).saved = p from rfl, hrec] at this
    exact this
  have hbfill : Filled 3 b := filled_update hb.toFilled (by decide) (by omega) hblens
  have hbook : b.scan env 7 0 = (booked b).scan env 3 4 :=
    scan_booked hbfill (by rw [hbpend]; exact hg.length) (by omega) (by rw [hbsaved]; omega)
  have hshift : Shifted 3 (recordLenAt c.saved) (Capture.afterRecord 2 c) (booked b) := by
    have hlens : (booked b).usedLen
        = Function.update b.usedLen (slot 3) (recordLenAt c.saved : Int) := by
      rw [← hbpend]
      rfl
    refine ⟨hb.afterRecord (by decide) (fun h5 => by cases h5),
      filled_update hbfill (by decide) (by omega) hlens, rfl, ?_, ?_⟩
    · rw [afterRecord_saved, ← hbpend, ← hbsaved]
      rfl
    · rw [hlens, hblens, afterRecord_usedLen]
  have hone : c.scan env 5 2 = (Capture.afterRecord 2 c).scan env 4 3 := by
    rw [scan, hb.index_next (fun _ => hmode) h (by decide) (fun h0 => by cases h0)]
  have hpass := hb.passesOn hmode (by decide) (fun h0 => by cases h0)
  by_cases heq : (final e ((Capture.afterRecord 2 c).scan env 4 3)).usedLen
      = (final e ((booked b).scan env 3 4)).usedLen
  · obtain ⟨p', z', r, hsaved, hp', hz', hscan, hne⟩ :=
      hshift.exists_cut hmode rfl le_rfl (by decide) hlen e heq
    rw [afterRecord_saved] at hsaved
    obtain ⟨p₂, hsplit₂, hp₂, hextend⟩ := exists_extension (n := 4) h hpass hsaved hp'
    refine ⟨p₂, z', hsplit₂, hp₂, hz', ?_⟩
    rw [hextend, hscan, hone]
    exact returned_ne_of_lens hne
  · refine ⟨p, z, hsplit, hp, hz, ?_⟩
    rw [scan, hbp.index_part hpart, hone]
    dsimp only [twoReads]
    rw [show ((pend 2 (c.withSaved p)).push z).scan env 7 0 = _ from hbook]
    exact returned_ne_of_lens (fun he => heq he.symm)

/-- **A sensitive stream has a cut that matters.** -/
theorem cutMatters_of_sensitive (hmode : resolveAmortizeMode env.mode = .l0) (e : NetErr)
    {n : Nat} (hn : n + i = 7) (hb : Base i c) (hv : cutVerdict n i c.saved = .sensitive) :
    CutMatters env e n i c := by
  induction n generalizing i c with
  | zero => cases hv
  | succ n ih =>
      cases h : headOf i c.saved with
      | short => rw [cutVerdict, h] at hv; cases hv
      | bad => rw [cutVerdict, h] at hv; cases hv
      | part => rw [cutVerdict, h] at hv; cases hv
      | full =>
          rcases full_cases hb.le h with hp | ⟨rfl, hval⟩ | ⟨rfl, hbig⟩ | rfl | rfl
          · have h4 := hp.early
            rw [hp.cutVerdict_eq] at hv
            exact cutMatters_next h (hb.passesOn hmode (by omega) hp.hello)
              (ih (by omega) (hb.afterRecord (by omega) (by omega)) hv)
          · rw [cutVerdict_invalid h hval] at hv
            cases hv
          · obtain rfl : n = 4 := by omega
            exact cutMatters_largeR2 hmode hb e h hbig
          · obtain rfl : n = 1 := by omega
            rw [cutVerdict_finished h] at hv
            split at hv
            · cases hv
            next hrest =>
              split at hv
              next hlen => exact cutMatters_finished hmode hb e h hrest hlen
              · exact cutMatters_next h (hb.passesOn hmode le_rfl (fun h0 => by cases h0))
                  (ih rfl (hb.afterRecord le_rfl (fun _ => hrest)) hv)
          · obtain rfl : n = 0 := by omega
            rw [cutVerdict_ticket h] at hv
            split at hv
            · cases hv
            · exact cutMatters_ticket hb e h (by omega)

/-! ## The read loop over a cut -/

/-- At most `k` bytes are kept. -/
def Scan.Keeps (k : Nat) : Scan → Prop
  | .next c => c.saved.length ≤ k
  | .stop c => c.saved.length ≤ k
  | .done _ => True

theorem consume_keeps (c : Capture) (i : Nat) : (c.consume i).Keeps c.saved.length := by
  unfold consume
  dsimp only
  split
  · trivial
  · exact (List.length_drop (l := c.saved)).le.trans (Nat.sub_le _ _)

theorem serverHello_keeps (c : Capture) : (c.serverHello env).Keeps c.saved.length := by
  unfold serverHello
  dsimp only
  split
  · trivial
  · split
    · trivial
    · split
      · exact consume_keeps _ 0
      · split
        · trivial
        · exact consume_keeps _ 0

theorem index_keeps (env : CaptureEnv) (i : Nat) (c : Capture) :
    (c.index env i).Keeps c.saved.length := by
  unfold index
  split
  · exact le_rfl
  · split
    · trivial
    · split
      · trivial
      next len _ =>
        rw [← assignEarly_saved i len c]
        unfold advance
        dsimp only
        split
        · exact le_rfl
        · split
          · exact serverHello_keeps _
          · exact consume_keeps _ i

theorem scan_keeps (env : CaptureEnv) (n i : Nat) (c : Capture) :
    (c.scan env n i).Keeps c.saved.length := by
  induction n generalizing i c with
  | zero => exact le_rfl
  | succ n ih =>
      have hround := index_keeps env i c
      rw [scan]
      cases hc : c.index env i with
      | next c' =>
          rw [hc] at hround
          have := ih (i + 1) c'
          dsimp only
          cases hs : c'.scan env n (i + 1) <;> rw [hs] at this
          · exact le_trans this hround
          · exact le_trans this hround
          · trivial
      | stop c' => rwa [hc] at hround
      | done r => trivial

theorem feed_keeps {c c' : Capture} {x : Bytes} (h : c.feed env x = .more c') :
    c'.saved.length ≤ c.saved.length + x.length := by
  have hk := scan_keeps env 7 0 (c.push x)
  rw [feed] at h
  simp only [push, List.length_append] at hk
  cases hs : (c.push x).scan env 7 0 with
  | next d =>
      rw [hs] at h
      cases h
      simp only [push] at hs
      rwa [hs] at hk
  | stop d =>
      rw [hs] at h
      cases h
      simp only [push] at hs
      rwa [hs] at hk
  | done r => rw [hs] at h; cases h

/-- The reads that deliver `chunks`. -/
def chunkReads (chunks : List Bytes) : List Read := chunks.map fun x => { bytes := x }

/-- The read loop feeds the chunks one after the other. -/
theorem readLoop_chunks (env : CaptureEnv) {n : Nat} {chunks : List Bytes}
    (rest : List Read) (c : Capture)
    (hne : ∀ x ∈ chunks, x ≠ []) (hn : chunks.length ≤ n)
    (hsize : c.saved.length + chunks.flatten.length ≤ maxRecordSize) :
    (readLoop env n (chunkReads chunks ++ rest) c).1 =
      match feedAll (feed env) c chunks with
      | .more c' => (readLoop env (n - chunks.length) rest c').1
      | .done r => r := by
  induction chunks generalizing n c with
  | nil => rfl
  | cons x chunks ih =>
      cases n with
      | zero => cases hn
      | succ n =>
          simp only [List.flatten_cons, List.length_append] at hsize
          have hx : x ≠ [] := hne x (by simp)
          simp only [chunkReads, List.map_cons, List.cons_append, feedAll]
          have hfit : c.saved.length + x.length ≤ maxRecordSize := by omega
          cases hf : c.feed env x with
          | done r => rw [readLoop_done (r := { bytes := x }) hx hfit hf]
          | more c' =>
              have hk := feed_keeps hf
              have := ih (n := n) c' (fun y hy => hne y (by simp [hy]))
                (by simp only [List.length_cons] at hn; omega) (by omega)
              rw [readLoop_more (r := { bytes := x }) hx hfit hf rfl]
              simp only [List.length_cons, Nat.add_sub_add_right]
              exact this

end Capture

/-! ## Cuts -/

/-- A way of cutting `s` into non-empty reads within the read limit. -/
structure IsCut (s : Bytes) (chunks : List Bytes) : Prop where
  joined : chunks.flatten = s
  nonempty : ∀ x ∈ chunks, x ≠ []
  limit : chunks.length ≤ maxTargetReads

/-- What `captureTargetRecords` returns in mode L0 when the stream is cut
into `chunks` and then ends with `e`. -/
def captureCut (look : UInt16 → CurveID → LookupResult) (chunks : List Bytes) (e : NetErr) :
    Option CaptureError × RecordLens × Option ServerHelloMsg × Bytes :=
  (captureTargetRecords ⟨.l0, look⟩ (Capture.chunkReads chunks ++ [⟨[], some e⟩])).1.returned

section
variable {look : UInt16 → CurveID → LookupResult} {s : Bytes} {chunks : List Bytes} {e : NetErr}

open Capture

theorem captureCut_eq (hc : IsCut s chunks) (hs : s.length ≤ maxRecordSize) :
    captureCut look chunks e =
      (match feedAll (feed ⟨.l0, look⟩) {} chunks with
      | .more c =>
          if chunks.length < maxTargetReads then c.ret (some (.read e)) else c.tooManyReads
      | .done r => r).returned := by
  have hloop := readLoop_chunks ⟨.l0, look⟩ [⟨[], some e⟩] {} hc.nonempty hc.limit
    (by rw [hc.joined]; simpa using hs)
  rw [captureCut, captureTargetRecords, hloop]
  cases feedAll (feed ⟨.l0, look⟩) {} chunks with
  | done r => rfl
  | more c =>
      dsimp only
      split
      next hlt =>
        obtain ⟨k, hk⟩ : ∃ k, maxTargetReads - chunks.length = k + 1 :=
          ⟨maxTargetReads - chunks.length - 1, by omega⟩
        rw [hk]
        rfl
      next hge =>
        rw [show maxTargetReads - chunks.length = 0 by omega]
        rfl

theorem feedAll_cut (hc : IsCut s chunks) (hne : s ≠ [])
    (hv : cutVerdict 7 0 s ≠ .sensitive) :
    feedAll (feed ⟨.l0, look⟩) {} chunks = feed ⟨.l0, look⟩ {} s := by
  have hsafe : Resumes {} chunks.flatten := by
    refine .record (i := 0) (base_start []).toFilled (by decide) (fun h => by cases h)
      (.inl rfl) ?_
    rw [hc.joined]
    exact hv
  rw [feedAll_flatten (fun c p q hp hq hs => feed_joins rfl hp hq hs) hc.nonempty ?_ hsafe,
    hc.joined]
  rintro rfl
  exact hne hc.joined.symm

theorem feed_verdict (look : UInt16 → CurveID → LookupResult) (s : Bytes) :
    (cutVerdict 7 0 s = .settled → ∃ r, feed ⟨.l0, look⟩ {} s = .done r) ∧
      (cutVerdict 7 0 s = .waiting → ∃ c, feed ⟨.l0, look⟩ {} s = .more c) := by
  have hscan := @scan_verdict ⟨.l0, look⟩ 0 _ rfl 7 rfl (base_start s)
  refine ⟨fun hv => ?_, fun hv => ?_⟩
  · obtain ⟨r, hr⟩ := hscan.1 hv
    exact ⟨r, by rw [feed, hr]⟩
  · obtain ⟨c, hc⟩ := hscan.2 hv
    exact ⟨c, by rw [feed, hc]⟩

theorem isCut_whole (hne : s ≠ []) : IsCut s [s] :=
  ⟨by simp, by simpa using hne, by simp [maxTargetReads]⟩

/-- Every cut of a safe stream gives what the whole gives. -/
theorem captureCut_of_safe (hs : s.length ≤ maxRecordSize) (hsafe : CutSafe s) (hne : s ≠ [])
    (hc : IsCut s chunks) : captureCut look chunks e = captureCut look [s] e := by
  have hv : cutVerdict 7 0 s ≠ .sensitive := by
    rcases hsafe with h | ⟨h, -⟩ <;> rw [h] <;> decide
  rw [captureCut_eq hc hs, captureCut_eq (isCut_whole hne) hs, feedAll_cut hc hne hv,
    feedAll_cut (isCut_whole hne) hne hv]
  rcases hsafe with hset | ⟨hwait, hshort⟩
  · obtain ⟨r, hr⟩ := (feed_verdict look s).1 hset
    rw [hr]
  · obtain ⟨c, hfeed⟩ := (feed_verdict look s).2 hwait
    have hlen := length_le_flatten hc.nonempty
    rw [hc.joined] at hlen
    rw [hfeed]
    dsimp only
    rw [if_pos (by omega), if_pos (by simp [maxTargetReads])]

/-- A cut of a long stream that uses up all reads. -/
theorem exists_cut_max (h : maxTargetReads ≤ s.length) :
    ∃ chunks, IsCut s chunks ∧ chunks.length = maxTargetReads := by
  have hlen : (s.take 63).length = 63 := by
    rw [List.length_take_of_le]
    exact le_trans (by decide) h
  have hflat : ∀ l : Bytes, (l.map fun b => [b]).flatten = l := by
    intro l
    induction l with
    | nil => rfl
    | cons b l ih => simp [ih]
  refine ⟨(s.take 63).map (fun b => [b]) ++ [s.drop 63], ⟨?_, ?_, ?_⟩, ?_⟩
  · simp only [List.flatten_append, hflat, List.flatten_singleton]
    exact List.take_append_drop 63 s
  · intro x hx
    simp only [List.mem_append, List.mem_map, List.mem_singleton] at hx
    rcases hx with ⟨b, -, rfl⟩ | rfl
    · simp
    · rw [Ne, List.drop_eq_nil_iff]
      simp only [maxTargetReads] at h
      omega
  · rw [List.length_append, List.length_map, hlen]
    exact le_rfl
  · rw [List.length_append, List.length_map, hlen]
    rfl

/-- The read limit shows in a stream that is still waiting. -/
theorem captureCut_limit (hs : s.length ≤ maxRecordSize) (hwait : cutVerdict 7 0 s = .waiting)
    (hlong : maxTargetReads ≤ s.length) (look : UInt16 → CurveID → LookupResult) (e : NetErr) :
    ∃ a b, IsCut s a ∧ IsCut s b ∧ captureCut look a e ≠ captureCut look b e := by
  have hne : s ≠ [] := List.ne_nil_of_length_pos (lt_of_lt_of_le (by decide) hlong)
  have hv : cutVerdict 7 0 s ≠ .sensitive := by rw [hwait]; decide
  obtain ⟨chunks, hc, hlen⟩ := exists_cut_max hlong
  obtain ⟨c, hfeed⟩ := (feed_verdict look s).2 hwait
  refine ⟨chunks, [s], hc, isCut_whole hne, ?_⟩
  rw [captureCut_eq hc hs, captureCut_eq (isCut_whole hne) hs, feedAll_cut hc hne hv,
    feedAll_cut (isCut_whole hne) hne hv, hfeed]
  dsimp only
  rw [if_neg (by omega), if_pos (by simp [maxTargetReads])]
  refine returned_ne_of_err ?_
  unfold tooManyReads
  split <;> simp [ret]

/-- A cut that matters, seen from outside. -/
theorem captureCut_sensitive (hs : s.length ≤ maxRecordSize)
    (hv : cutVerdict 7 0 s = .sensitive) (look : UInt16 → CurveID → LookupResult) (e : NetErr) :
    ∃ a b, IsCut s a ∧ IsCut s b ∧ captureCut look a e ≠ captureCut look b e := by
  obtain ⟨p, z, hsplit, hp, hz, hne⟩ :=
    @cutMatters_of_sensitive ⟨.l0, look⟩ 0 _ rfl e 7 rfl (base_start s) hv
  have hsplit : s = p ++ z := hsplit
  have hcut : IsCut s [p, z] := ⟨by simp [hsplit], by simp [hp, hz], by simp [maxTargetReads]⟩
  have hwhole : IsCut s [s] := isCut_whole (by rw [hsplit]; simp [hp])
  refine ⟨[p, z], [s], hcut, hwhole, ?_⟩
  rw [captureCut_eq hcut hs, captureCut_eq hwhole hs]
  have hone : (match feedAll (feed ⟨.l0, look⟩) {} [s] with
      | .more c => if [s].length < maxTargetReads then c.ret (some (.read e)) else c.tooManyReads
      | .done r => r) = final e ((({} : Capture).push s).scan ⟨.l0, look⟩ 7 0) := by
    simp only [feedAll, feed]
    cases (({} : Capture).push s).scan ⟨.l0, look⟩ 7 0 <;> simp [final, maxTargetReads]
  have htwo : (match feedAll (feed ⟨.l0, look⟩) {} [p, z] with
      | .more c =>
          if [p, z].length < maxTargetReads then c.ret (some (.read e)) else c.tooManyReads
      | .done r => r)
      = twoReads ⟨.l0, look⟩ e z ((({} : Capture).push p).scan ⟨.l0, look⟩ 7 0) := by
    simp only [feedAll, feed]
    cases (({} : Capture).push p).scan ⟨.l0, look⟩ 7 0 with
    | done r => simp [twoReads]
    | next c =>
        simp only [twoReads]
        cases (c.push z).scan ⟨.l0, look⟩ 7 0 <;> simp [final, maxTargetReads]
    | stop c =>
        simp only [twoReads]
        cases (c.push z).scan ⟨.l0, look⟩ 7 0 <;> simp [final, maxTargetReads]
  rw [hone, htwo]
  exact hne

/-- **When the cuts do not matter.** For a stream of at most 64 KiB, all cuts
into at most 64 reads give the same error, lengths, ServerHello and template
exactly when the stream is `CutSafe`. -/
theorem capture_ignores_cuts_iff (look : UInt16 → CurveID → LookupResult) {s : Bytes}
    (hs : s.length ≤ maxRecordSize) (e : NetErr) :
    (∀ a b, IsCut s a → IsCut s b → captureCut look a e = captureCut look b e) ↔ CutSafe s := by
  constructor
  · intro hall
    cases hv : cutVerdict 7 0 s with
    | settled => exact .inl hv
    | waiting =>
        refine .inr ⟨hv, ?_⟩
        by_contra hlong
        obtain ⟨a, b, ha, hb, hne⟩ := captureCut_limit hs hv (by omega) look e
        exact hne (hall a b ha hb)
    | sensitive =>
        obtain ⟨a, b, ha, hb, hne⟩ := captureCut_sensitive hs hv look e
        exact absurd (hall a b ha hb) hne
  · intro hsafe a b ha hb
    by_cases hne : s = []
    · have hnil : ∀ chunks, IsCut s chunks → chunks = [] := by
        intro chunks hc
        have := length_le_flatten hc.nonempty
        rw [hc.joined, hne] at this
        exact List.eq_nil_of_length_eq_zero (by simpa using this)
      rw [hnil a ha, hnil b hb]
    · rw [captureCut_of_safe hs hsafe hne ha, captureCut_of_safe hs hsafe hne hb]

/-- The sample flight with a NewSessionTicket behind it. -/
def ticketFlight : Bytes := sampleFlight ++ appDataRecord [5, 5]

/-- Cut behind R5, the flight loses its R6. -/
theorem ticket_lost_by_cut :
    ∃ a b, IsCut ticketFlight a ∧ IsCut ticketFlight b ∧
      captureCut (fun _ _ => {}) a .eof ≠ captureCut (fun _ _ => {}) b .eof := by
  refine ⟨[ticketFlight], [sampleFlight, appDataRecord [5, 5]], ⟨?_, ?_, ?_⟩, ⟨?_, ?_, ?_⟩, ?_⟩
  all_goals decide +kernel

/-- The flight without it has the same capture for all its cuts. -/
theorem capture_ignores_cuts_iff_flight :
    sampleFlight.length ≤ maxRecordSize ∧ CutSafe sampleFlight ∧
      ∀ a b, IsCut sampleFlight a → IsCut sampleFlight b →
        captureCut (fun _ _ => {}) a .eof = captureCut (fun _ _ => {}) b .eof := by
  have hlen : sampleFlight.length ≤ maxRecordSize := by decide +kernel
  have hsafe : CutSafe sampleFlight := .inl (by decide +kernel)
  exact ⟨hlen, hsafe, (capture_ignores_cuts_iff _ hlen .eof).mpr hsafe⟩

end

end Reality
