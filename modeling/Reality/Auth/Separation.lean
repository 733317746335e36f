import Mathlib.Algebra.Order.Group.Multiset
import Reality.Auth.Count

/-!
# Accepted marks are a window apart

Calls of `CheckAndMark` for one prefix under any schedule, as long as the guard
never fills up and the clock does not go back. A call decides under the lock of
its shard, at a clock it read under that lock, and returns later: the answers
come out in any order, the DECISIONS for one prefix are ordered by the lock.

The invariant is about the readings at which the prefix was accepted, whether
the call has returned or not: each of them is still in the map, or the window
behind it is over (`Remembers`), at the present clock and at the clock of
whoever is about to decide.
-/

namespace Reality

open Kit Threads ReplayGuard

/-! ## Accepted readings -/

/-- Readings of which no window holds two are more than a window apart. -/
theorem pairwise_apart {w : Int} {l : List Int}
    (h : ∀ b, l.countP (fun t => b ≤ t ∧ t ≤ b + w) ≤ 1) :
    l.Pairwise fun t u => w < |t - u| := by
  induction l with
  | nil => exact .nil
  | cons t l ih =>
      refine .cons (fun u hu => ?_) (ih fun b => le_trans ?_ (h b))
      · by_contra hclose
        -- The window that starts at the earlier of the two holds both.
        have hwindow := h (min t u)
        have hlt := lt_abs.not.mp hclose
        have hrest : 0 < l.countP (fun x => min t u ≤ x ∧ x ≤ min t u + w) :=
          List.countP_pos_iff.mpr ⟨u, hu, by simp only [decide_eq_true_eq]; omega⟩
        rw [List.countP_cons_of_pos (by simp only [decide_eq_true_eq]; omega)] at hwindow
        omega
      · exact List.Sublist.countP_le (List.sublist_cons_self t l)

/-- What a call that returns contributes to the accepted readings of `q`. -/
def Verdict.accepted (q : Bytes) : Verdict → Multiset Int
  | ⟨p, some now, true⟩ => if p = q then {now} else 0
  | _ => 0

/-- ... and a call that has decided and not returned. -/
def MarkPc.accepted (q : Bytes) : MarkPc → Multiset Int
  | .added p now | .unlock p now true | .leave p now true => if p = q then {now} else 0
  | _ => 0

/-- The clock readings at which calls for `q` returned true, oldest first. -/
def acceptsOf (q : Bytes) {ι : Type} (tr : List ((Option ι × GuardAct) × Option Verdict)) :
    List Int :=
  tr.filterMap fun x =>
    match x.2 with
    | some ⟨p, some now, true⟩ => if p = q then some now else none
    | _ => none

/-- The readings at which calls for `q` have been accepted. -/
def acceptedReadings (q : Bytes) {ι : Type} [Fintype ι]
    (tr : List ((Option ι × GuardAct) × Option Verdict)) (s : GuardThreads ι) : Multiset Int :=
  acceptsOf q tr + tally (MarkPc.accepted q) s.pc

/-- The clock never goes back. -/
def ClockForward {ι : Type} (s : GuardThreads ι) : GuardAct → Prop
  | .clock now _ => s.shared.clock ≤ now
  | _ => True

/-- The guard has room, and the clock goes forward. -/
def Undisturbed {ι : Type} (s : GuardThreads ι) (x : Option ι × GuardAct) : Prop :=
  s.shared.guard.count < s.shared.guard.maxEntries ∧ ClockForward s x.2

/-- Inside `evictOneShard`. -/
def MarkPc.evicting : MarkPc → Bool
  | .cursor _ | .evictLock .. | .evictClock .. | .evictSweep .. | .evictCheck .. | .evictSeed ..
  | .evictDrop .. | .evictUnlock .. | .regate _ => true
  | _ => false

section Local

variable {ι : Type} {i : ι} {s s' : GuardShared ι} {p p' : MarkPc} {a : GuardAct}
  {v : Option Verdict} {q : Bytes}

/-- The call decides to accept `q` at `now`. -/
structure Accepts (q : Bytes) (s s' : GuardShared ι) (p p' : MarkPc) (now : Int) : Prop where
  judging : p = .judge q now
  decided : p'.accepted q = {now}
  first : ∀ t, s.guard.seen q = some t → s.guard.expired now t = true
  seen : s'.guard.seen q = some now
  clock : s'.clock = s.clock

/-- The call does nothing that `q` depends on. -/
structure Ignores (q : Bytes) (s s' : GuardShared ι) (p p' : MarkPc) (a : GuardAct)
    (v : Option Verdict) : Prop where
  accepted : v.elim 0 (Verdict.accepted q) + p'.accepted q = p.accepted q
  seen : s'.guard.seen q = s.guard.seen q
  clock : s'.clock = s.clock ∨ ∃ now order, a = .clock now order ∧ s'.clock = now
  judging : ∀ now, p' = .judge q now → ∃ order, a = .clock now order ∧ s'.clock = now

/-- A mark that goes through: an acceptance of its own prefix, nothing to others. -/
theorem put_prefix {r : Bytes} {now : Int}
    (hfirst : ∀ t, s.guard.seen r = some t → s.guard.expired now t = true)
    (hdecided : p'.accepted q = if r = q then {now} else 0) (hleft : ∀ t, p' ≠ .judge q t) :
    (∃ t, Accepts q s (s.setGuard (s.guard.put r now)) (.judge r now) p' t) ∨
      Ignores q s (s.setGuard (s.guard.put r now)) (.judge r now) p' .go none := by
  have hseen := seen_put s.guard r q now
  by_cases hq : r = q
  · subst hq
    rw [if_pos rfl] at hdecided hseen
    exact .inl ⟨now, rfl, hdecided, hfirst, hseen, rfl⟩
  · rw [if_neg hq] at hdecided
    rw [if_neg (Ne.symm hq)] at hseen
    refine .inr ⟨?_, hseen, .inl rfl, fun t ht => absurd ht (hleft t)⟩
    rw [hdecided]
    rfl

theorem judge_prefix {r : Bytes} {now : Int}
    (h : markStep i s (.judge r now) .go = some (s', p', v)) :
    p'.evicting = false ∧ v = none ∧
      ((∃ t, Accepts q s s' (.judge r now) p' t) ∨ Ignores q s s' (.judge r now) p' .go v) := by
  simp only [markStep] at h
  cases hseen : s.guard.seen r with
  | none =>
      rw [hseen] at h
      cases h
      exact ⟨rfl, rfl, put_prefix (by simp [hseen]) rfl (by simp)⟩
  | some t =>
      rw [hseen] at h
      dsimp only at h
      split at h
      next hexp =>
        cases h
        refine ⟨rfl, rfl, put_prefix ?_ rfl (by simp)⟩
        intro t' ht'
        cases hseen.symm.trans ht'
        exact hexp
      · cases h
        exact ⟨rfl, rfl, .inr ⟨rfl, rfl, .inl rfl, by simp⟩⟩

/-- A step of a call outside eviction, seen from the prefix `q`. -/
theorem markStep_prefix (h : markStep i s p a = some (s', p', v)) (hroom : s.full = false)
    (hplain : p.evicting = false) :
    p'.evicting = false ∧
      ((∃ now, v = none ∧ Accepts q s s' p p' now) ∨ Ignores q s s' p p' a v) := by
  cases p with
  | idle =>
      cases a with
      | call r =>
          cases h
          exact ⟨rfl, .inr ⟨rfl, rfl, .inl rfl, fun _ h => by cases h⟩⟩
      | _ => cases h
  | gate r =>
      cases a with
      | go =>
          simp only [markStep, hroom, Bool.false_eq_true, if_false] at h
          cases h
          exact ⟨rfl, .inr ⟨rfl, rfl, .inl rfl, fun _ h => by cases h⟩⟩
      | _ => cases h
  | lock r =>
      cases a with
      | go =>
          simp only [markStep] at h
          split at h
          · cases h
            exact ⟨rfl, .inr ⟨rfl, rfl, .inl rfl, fun _ h => by cases h⟩⟩
          · cases h
      | _ => cases h
  | clock r =>
      cases a with
      | clock now order =>
          cases h
          refine ⟨rfl, .inr ⟨rfl, rfl, .inr ⟨now, order, rfl, rfl⟩, fun t ht => ?_⟩⟩
          cases ht
          exact ⟨order, rfl, rfl⟩
      | _ => cases h
  | judge r now =>
      cases a with
      | go =>
          obtain ⟨hplain', rfl, hcases⟩ := judge_prefix h
          exact ⟨hplain', hcases.imp (fun ⟨t, ht⟩ => ⟨t, rfl, ht⟩) id⟩
      | _ => cases h
  | added r now =>
      cases a with
      | go =>
          cases h
          exact ⟨rfl, .inr ⟨by simp [MarkPc.accepted], rfl, .inl rfl, fun _ h => by cases h⟩⟩
      | _ => cases h
  | unlock r now ok =>
      cases a with
      | go =>
          cases h
          exact ⟨rfl, .inr ⟨by cases ok <;> simp [MarkPc.accepted], rfl, .inl rfl,
            fun _ h => by cases h⟩⟩
      | _ => cases h
  | leave r now ok =>
      cases a with
      | go =>
          cases h
          exact ⟨rfl, .inr ⟨by cases ok <;> simp [MarkPc.accepted, Verdict.accepted], rfl,
            .inl rfl, fun _ h => by cases h⟩⟩
      | _ => cases h
  | _ => cases hplain

/-- A round of the sweep, seen from the prefix `q`. -/
theorem sweepStep_seen (g : ReplayGuard) (j : Fin replayShardCount) (l : SweepLoop) (q : Bytes) :
    (g.sweepStep j l).1.seen q = g.seen q ∨
      shardFor q = j ∧ ∃ t, g.seen q = some t ∧ g.expired l.now t = true := by
  unfold sweepStep
  split
  · exact .inl rfl
  split
  · exact .inl rfl
  next k todo _ =>
    split
    next hexp =>
      by_cases hj : shardFor q = j
      · by_cases hk : q = k
        -- The key that goes is `q` itself, and it goes because it is expired.
        · subst hk hj
          exact .inr ⟨rfl, (Option.any_eq_true _ _).mp hexp⟩
        · left
          rw [deleteKey, seen_update, if_pos hj, AList.lookup_erase_ne hk, ← hj]
          rfl
      · left
        rw [deleteKey, seen_update, if_neg hj]
    · exact .inl rfl

theorem sweepStep_now {g : ReplayGuard} {j : Fin replayShardCount} {l l' : SweepLoop}
    (h : (g.sweepStep j l).2 = some l') : l'.now = l.now := by
  unfold sweepStep at h
  split at h
  · cases h
    rfl
  split at h
  · cases h
  split at h <;> cases h <;> rfl

/-- What a step of `gcLoop` does, seen from the prefix `q`: what it deletes is
expired at the clock it read under the lock of the shard. -/
structure GcView (q : Bytes) (s s' : GuardShared ι) (a : GuardAct) : Prop where
  seen : s'.guard.seen q = s.guard.seen q ∨
    ∃ l t, s.gc = .sweep (shardFor q) l ∧ s.guard.seen q = some t ∧
      s.guard.expired l.now t = true
  clock : s'.clock = s.clock ∨ ∃ now order, a = .clock now order ∧ s'.clock = now
  sweeping : ∀ j l', s'.gc = .sweep j l' →
    (∃ l, s.gc = .sweep j l ∧ l'.now = l.now) ∨
      ∃ order, a = .clock l'.now order ∧ s'.clock = l'.now

theorem gcStep_visited (h : gcStep s a = some s') (q : Bytes) : GcView q s s' a := by
  unfold gcStep at h
  split at h
  · split at h
    · cases h
      exact ⟨.inl rfl, .inl rfl, fun _ _ h => by cases h⟩
    · cases h
  next now order =>
    split at h
    next j hgc =>
      split at h
      · cases h
        refine ⟨.inl rfl, .inr ⟨now, order, rfl, rfl⟩, fun j' l' hl => .inr ?_⟩
        cases hl
        exact ⟨order, rfl, rfl⟩
      · cases h
    · cases h
  · split at h
    next j hgc =>
      split at h
      · cases h
        exact ⟨.inl rfl, .inl rfl, fun _ _ h => by cases h⟩
      · cases h
    next j l hgc =>
      cases h
      refine ⟨?_, .inl rfl, fun j' l' hl => .inl ?_⟩
      · rcases sweepStep_seen s.guard j l q with hsame | ⟨rfl, t, ht, hexp⟩
        · exact .inl hsame
        · exact .inr ⟨l, t, hgc, ht, hexp⟩
      · cases hr : (s.guard.sweepStep j l).2 with
        | none => simp [hr] at hl
        | some l₁ =>
            simp only [hr, GcPc.sweep.injEq] at hl
            obtain ⟨rfl, rfl⟩ := hl
            exact ⟨l, hgc, sweepStep_now hr⟩
    · cases h
      exact ⟨.inl rfl, .inl rfl, fun _ _ h => by cases h⟩
    · cases h
  · cases h

end Local

/-! ## The invariant -/

theorem evicting_update {ι : Type} [DecidableEq ι] {s s' : GuardThreads ι} {i : ι} {p' : MarkPc}
    (hold : ∀ j, (s.pc j).evicting = false) (hpc : s'.pc = Function.update s.pc i p')
    (hnew : p'.evicting = false) (j : ι) : (s'.pc j).evicting = false := by
  rw [hpc]
  by_cases hj : j = i
  · rw [hj, Function.update_self]
    exact hnew
  · rw [Function.update_of_ne hj]
    exact hold j

section Runs

variable {ι : Type} [Fintype ι] {q : Bytes} {tr : List ((Option ι × GuardAct) × Option Verdict)}
  {s s' : GuardThreads ι}

structure SeparationInv (q : Bytes) (W : Int)
    (tr : List ((Option ι × GuardAct) × Option Verdict)) (s : GuardThreads ι) : Prop where
  owned : LocksOwned s
  window : s.shared.guard.window = W
  plain : ∀ i, (s.pc i).evicting = false
  sweeping : ∀ j l, s.shared.gc = .sweep j l → l.now ≤ s.shared.clock
  judging : ∀ i now, s.pc i = .judge q now → now ≤ s.shared.clock ∧
    ∀ t ∈ acceptedReadings q tr s, s.shared.guard.Remembers q t now
  remembered : ∀ t ∈ acceptedReadings q tr s, s.shared.guard.Remembers q t s.shared.clock
  apart : ∀ b, (acceptedReadings q tr s).countP (fun t => b ≤ t ∧ t ≤ b + W) ≤ 1

theorem ReplayGuard.Remembers.of_seen {g g' : ReplayGuard} {t now : Int} (h : g.Remembers q t now)
    (hseen : g'.seen q = g.seen q) (hw : g'.window = g.window) : g'.Remembers q t now := by
  unfold Remembers
  rw [hseen, hw]
  exact h

/-- What is remembered and may be marked again is a window old. -/
theorem ReplayGuard.Remembers.over {g : ReplayGuard} {t now : Int} (h : g.Remembers q t now)
    (hfirst : ∀ u, g.seen q = some u → g.expired now u = true) : t + g.window < now := by
  rcases h with ⟨u, hu, htu⟩ | hover
  · exact over_of_expired (hfirst u hu) htu
  · exact hover

/-- The step of a call changes the accepted readings by what it decides. -/
theorem acceptedReadings_call [DecidableEq ι] (q : Bytes)
    (tr : List ((Option ι × GuardAct) × Option Verdict)) {i : ι} (a : GuardAct)
    (v : Option Verdict) {p' : MarkPc} (hpc : s'.pc = Function.update s.pc i p') :
    acceptedReadings q (tr ++ [((some i, a), v)]) s' + (s.pc i).accepted q
      = acceptedReadings q tr s + (v.elim 0 (Verdict.accepted q) + p'.accepted q) := by
  have htrace : (acceptsOf q (tr ++ [((some i, a), v)]) : Multiset Int)
      = acceptsOf q tr + v.elim 0 (Verdict.accepted q) := by
    rw [acceptsOf, acceptsOf, List.filterMap_append, ← Multiset.coe_add]
    congr 1
    match v with
    | none => rfl
    | some ⟨p, none, b⟩ => rfl
    | some ⟨p, some now, false⟩ => rfl
    | some ⟨p, some now, true⟩ =>
        by_cases hp : p = q
        · simp [Verdict.accepted, hp]
        · simp [Verdict.accepted, hp]
  have htally := tally_update (MarkPc.accepted q) s.pc i p'
  rw [acceptedReadings, htrace, hpc, acceptedReadings]
  calc _ = (acceptsOf q tr + v.elim 0 (Verdict.accepted q) : Multiset Int)
        + (tally (MarkPc.accepted q) (Function.update s.pc i p') + (s.pc i).accepted q) :=
        add_assoc ..
    _ = _ := by
        rw [htally]
        abel

theorem acceptedReadings_gc {a : GuardAct} (hpc : s'.pc = s.pc) :
    acceptedReadings q (tr ++ [((none, a), none)]) s' = acceptedReadings q tr s := by
  rw [acceptedReadings, acceptedReadings, hpc, acceptsOf, List.filterMap_append]
  simp [acceptsOf]

variable {W : Int} {a : GuardAct}

/-- A step of `gcLoop`. -/
theorem SeparationInv.collect (hinv : SeparationInv q W tr s) (hpc : s'.pc = s.pc)
    (hown : LocksOwned s') (hmove : GcMove s.shared s'.shared) (hforward : ClockForward s a)
    (hview : GcView q s.shared s'.shared a) :
    SeparationInv q W (tr ++ [((none, a), none)]) s' := by
  have hclock : s.shared.clock ≤ s'.shared.clock := by
    rcases hview.clock with hsame | ⟨now, order, rfl, hnow⟩
    · exact hsame.ge
    · rw [hnow]
      exact hforward
  refine ⟨hown, hmove.window.trans hinv.window, ?_, ?_, ?_, ?_, ?_⟩
  · rw [hpc]
    exact hinv.plain
  · intro j l hl
    rcases hview.sweeping j l hl with ⟨l₀, hl₀, hnow⟩ | ⟨order, -, hnow⟩
    · rw [hnow]
      exact (hinv.sweeping j l₀ hl₀).trans hclock
    · exact hnow.ge
  · intro j now hj
    rw [hpc] at hj
    rw [acceptedReadings_gc hpc]
    obtain ⟨hle, hold⟩ := hinv.judging j now hj
    refine ⟨hle.trans hclock, fun t ht => ?_⟩
    rcases hview.seen with hseen | ⟨l, u, hgc, -, -⟩
    · exact (hold t ht).of_seen hseen hmove.window
    · -- The sweep is in the shard of `q`, and so is the call.
      have hsame : (none : Option ι) = some j := hinv.owned.unique (k := shardFor q)
        (by rw [heldShard, hgc]; rfl) (by rw [heldShard, hj]; rfl)
      cases hsame
  · intro t ht
    rw [acceptedReadings_gc hpc] at ht
    have hold := hinv.remembered t ht
    rcases hview.seen with hseen | ⟨l, u, hgc, hu, hexp⟩
    · exact (hold.later hclock).of_seen hseen hmove.window
    · right
      rw [hmove.window]
      have hsweep := hinv.sweeping _ l hgc
      rcases hold with ⟨u', hu', htu⟩ | hover
      · cases hu.symm.trans hu'
        have := over_of_expired hexp htu
        omega
      · omega
  · rw [acceptedReadings_gc hpc]
    exact hinv.apart

theorem separationInv_start (window maxEntries start : Int) :
    SeparationInv q window [] (guardStart ι window maxEntries start) := by
  have hnone : acceptedReadings q [] (guardStart ι window maxEntries start) = 0 := by
    have hcalls : tally (MarkPc.accepted q) (guardStart ι window maxEntries start).pc = 0 :=
      tally_eq_zero fun _ => rfl
    rw [acceptedReadings, hcalls]
    rfl
  refine ⟨locksOwned_start window maxEntries start, rfl, fun _ => rfl, ?_, ?_, ?_, ?_⟩
  · intro j l hl
    cases hl
  · intro i now hi
    cases hi
  · intro t ht
    rw [hnone] at ht
    exact absurd ht (Multiset.notMem_zero t)
  · intro b
    rw [hnone]
    exact Nat.zero_le 1

variable [DecidableEq ι] {i : ι} {v : Option Verdict} {p' : MarkPc}

/-- A decision for `q`: everything accepted before it is a window old. -/
theorem SeparationInv.accept (hinv : SeparationInv q W tr s) {now : Int}
    (hpc : s'.pc = Function.update s.pc i p') (hown : LocksOwned s') (hplain : p'.evicting = false)
    (hmove : MarkMove i s.shared s'.shared (s.pc i) p')
    (hacc : Accepts q s.shared s'.shared (s.pc i) p' now) :
    SeparationInv q W (tr ++ [((some i, a), none)]) s' := by
  obtain ⟨hclock, hrem⟩ := hinv.judging i now hacc.judging
  have hover : ∀ t ∈ acceptedReadings q tr s, t + W < now := by
    intro t ht
    rw [← hinv.window]
    exact (hrem t ht).over hacc.first
  have hread : acceptedReadings q (tr ++ [((some i, a), none)]) s'
      = acceptedReadings q tr s + {now} := by
    have hcall := acceptedReadings_call q tr a none hpc
    rw [hacc.judging, hacc.decided] at hcall
    simpa [MarkPc.accepted] using hcall
  refine ⟨hown, hmove.window.trans hinv.window, ?_, ?_, ?_, ?_, ?_⟩
  · exact evicting_update hinv.plain hpc hplain
  · intro j l hl
    rw [hacc.clock]
    exact hinv.sweeping j l (hmove.gc ▸ hl)
  · -- Nobody else can be about to decide on `q`: the lock is taken.
    intro j t hj
    rw [hpc] at hj
    by_cases hji : j = i
    · rw [hji, Function.update_self] at hj
      have hdecided := hacc.decided
      rw [hj] at hdecided
      exact absurd hdecided.symm (Multiset.singleton_ne_zero now)
    · rw [Function.update_of_ne hji] at hj
      have hsame : some j = some i := hinv.owned.unique (k := shardFor q)
        (by rw [heldShard, hj]; rfl) (by rw [heldShard, hacc.judging]; rfl)
      exact absurd (Option.some.inj hsame) hji
  · intro t ht
    rw [hread, Multiset.mem_add, Multiset.mem_singleton] at ht
    rw [hacc.clock]
    rcases ht with ht | rfl
    · right
      rw [hmove.window, hinv.window]
      have := hover t ht
      omega
    · exact .inl ⟨t, hacc.seen, le_refl t⟩
  · intro b
    rw [hread, Multiset.countP_add]
    by_cases hb : b ≤ now ∧ now ≤ b + W
    · have hnone : (acceptedReadings q tr s).countP (fun t => b ≤ t ∧ t ≤ b + W) = 0 := by
        rw [Multiset.countP_eq_zero]
        intro t ht hin
        have := hover t ht
        omega
      rw [hnone, zero_add]
      exact Multiset.countP_le_card _ _
    · have hnew : ({now} : Multiset Int).countP (fun t => b ≤ t ∧ t ≤ b + W) = 0 := by
        rw [Multiset.countP_eq_zero]
        intro t ht hin
        rw [Multiset.mem_singleton] at ht
        exact hb (ht ▸ hin)
      rw [hnew, add_zero]
      exact hinv.apart b

/-- A step of a call that leaves `q` alone. -/
theorem SeparationInv.ignore (hinv : SeparationInv q W tr s)
    (hpc : s'.pc = Function.update s.pc i p') (hown : LocksOwned s') (hplain : p'.evicting = false)
    (hmove : MarkMove i s.shared s'.shared (s.pc i) p') (hforward : ClockForward s a)
    (hign : Ignores q s.shared s'.shared (s.pc i) p' a v) :
    SeparationInv q W (tr ++ [((some i, a), v)]) s' := by
  have hread : acceptedReadings q (tr ++ [((some i, a), v)]) s' = acceptedReadings q tr s := by
    have hcall := acceptedReadings_call q tr a v hpc
    rw [hign.accepted] at hcall
    exact add_right_cancel hcall
  have hclock : s.shared.clock ≤ s'.shared.clock := by
    rcases hign.clock with hsame | ⟨now, order, rfl, hnow⟩
    · exact hsame.ge
    · rw [hnow]
      exact hforward
  have hrem : ∀ {t now : Int}, s.shared.guard.Remembers q t now →
      s'.shared.guard.Remembers q t now := fun h => h.of_seen hign.seen hmove.window
  refine ⟨hown, hmove.window.trans hinv.window, ?_, ?_, ?_, ?_, ?_⟩
  · exact evicting_update hinv.plain hpc hplain
  · intro j l hl
    exact (hinv.sweeping j l (hmove.gc ▸ hl)).trans hclock
  · intro j now hj
    rw [hpc] at hj
    rw [hread]
    by_cases hji : j = i
    · rw [hji, Function.update_self] at hj
      obtain ⟨order, rfl, hnow⟩ := hign.judging now hj
      exact ⟨hnow.ge, fun t ht => hrem ((hinv.remembered t ht).later hforward)⟩
    · rw [Function.update_of_ne hji] at hj
      obtain ⟨hle, hold⟩ := hinv.judging j now hj
      exact ⟨hle.trans hclock, fun t ht => hrem (hold t ht)⟩
  · intro t ht
    rw [hread] at ht
    exact hrem ((hinv.remembered t ht).later hclock)
  · rw [hread]
    exact hinv.apart

theorem SeparationInv.step (hinv : SeparationInv q W tr s) {x : Option ι × GuardAct}
    (hcond : Undisturbed s x) (h : guardStep s x = some (s', v)) :
    SeparationInv q W (tr ++ [(x, v)]) s' := by
  obtain ⟨o, a⟩ := x
  obtain ⟨hroom, hforward⟩ := hcond
  have hown := hinv.owned.step h
  rcases guardStep_cases h with ⟨i, p', rfl, hstep, hpc, hmove⟩ | ⟨rfl, rfl, hstep, hpc, hmove⟩
  · have hfull : s.shared.full = false := by
      simp only [GuardShared.full, ge_iff_le, decide_eq_false_iff_not]
      omega
    obtain ⟨hplain, ⟨now, rfl, hacc⟩ | hign⟩ := markStep_prefix (q := q) hstep hfull (hinv.plain i)
    · exact hinv.accept hpc hown hplain hmove hacc
    · exact hinv.ignore hpc hown hplain hmove hforward hign
  · exact hinv.collect hpc hown hmove hforward (gcStep_visited hstep q)

/-- **Accepted marks are a window apart**: in every interleaving of calls and
sweeps in which the clock does not go back and `count` stays below the limit,
calls that return true for one prefix read clocks more than a window apart, and
of those within one window at most one returns true. -/
theorem accepts_apart (window maxEntries start : Int)
    {tr : List ((Option ι × GuardAct) × Option Verdict)} {s : GuardThreads ι}
    (hrun : (guardMachine ι).Meets (fun _ s x => Undisturbed s x)
      (guardStart ι window maxEntries start) tr s) (q : Bytes) :
    (acceptsOf q tr).Pairwise (fun t u => window < |t - u|) ∧
      ∀ b, (acceptsOf q tr).countP (fun t => b ≤ t ∧ t ≤ b + window) ≤ 1 := by
  have hinv : SeparationInv q window tr s :=
    hrun.invariant (I := SeparationInv q window) (separationInv_start window maxEntries start)
      fun _ _ _ _ _ hi hc hs => hi.step hc hs
  have hcount : ∀ b, (acceptsOf q tr).countP (fun t => b ≤ t ∧ t ≤ b + window) ≤ 1 := by
    intro b
    have hall := hinv.apart b
    rw [acceptedReadings, Multiset.countP_add, Multiset.coe_countP] at hall
    omega
  exact ⟨pairwise_apart hcount, hcount⟩

end Runs

/-- `Undisturbed`, as a check. -/
def undisturbedCheck {ι : Type} (s : GuardThreads ι) (x : Option ι × GuardAct) : Bool :=
  decide (s.shared.guard.count < s.shared.guard.maxEntries) &&
    match x.2 with
    | .clock now _ => decide (s.shared.clock ≤ now)
    | _ => true

theorem undisturbed_of_check {ι : Type} {s : GuardThreads ι} {x : Option ι × GuardAct}
    (h : undisturbedCheck s x = true) : Undisturbed s x := by
  obtain ⟨o, a⟩ := x
  simp only [undisturbedCheck, Bool.and_eq_true, decide_eq_true_eq] at h
  refine ⟨h.1, ?_⟩
  cases a with
  | clock now order => simpa [ClockForward] using h.2
  | _ => trivial

/-- Two calls for one prefix at 10 and 50, a sweep of its shard at 105, and a
call at 110. -/
def markedThrice : List (Option Bool × GuardAct) :=
  [(some false, .call [7]), (some true, .call [7]), (some false, .go), (some true, .go),
    (some false, .go), (some false, .clock 10 []), (some false, .go), (some false, .go),
    (some false, .go), (some true, .go), (some true, .clock 50 []), (some true, .go),
    (some true, .go), (some true, .go), (some false, .go), (none, .tick), (none, .go),
    (none, .clock 105 [[7]]), (none, .go), (none, .go), (none, .go), (none, .go),
    (some false, .call [7]), (some false, .go), (some false, .go), (some false, .clock 110 []),
    (some false, .go), (some false, .go), (some false, .go), (some false, .go)]

theorem accepts_apart_thrice :
    ∃ tr s, (guardMachine Bool).Meets (fun _ s x => Undisturbed s x)
        (guardStart Bool 90 100 0) tr s ∧ acceptsOf [7] tr = [10, 110] ∧
      ((acceptsOf [7] tr).Pairwise (fun t u => 90 < |t - u|) ∧
        ∀ b, (acceptsOf [7] tr).countP (fun t => b ≤ t ∧ t ≤ b + 90) ≤ 1) := by
  obtain ⟨tr, s, hrun, hacc⟩ : ∃ tr s,
      (guardMachine Bool).Meets (fun _ s x => Undisturbed s x)
        (guardStart Bool 90 100 0) tr s ∧ acceptsOf [7] tr = [10, 110] := by
    refine Machine.Meets.exists_of_exec undisturbedCheck markedThrice
      (fun _ _ _ _ => undisturbed_of_check) ?_
    decide +kernel
  exact ⟨tr, s, hrun, hacc, accepts_apart 90 100 0 hrun [7]⟩

end Reality
