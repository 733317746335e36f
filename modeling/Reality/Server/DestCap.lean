import Reality.Kit.Bytes
import Reality.Kit.Clock
import Reality.Kit.Run
import Reality.Kit.Streak
import Mathlib.Data.List.AList

/-!
# The capability of a target

`destCaps` (fidelity.go): for each target a state, and one counter for each class
of failed captures. The thresholds are documented as numbers of CONSECUTIVE
failures. A counter is cleared by a success and by the cooldown, and not by a
failure of another class, so it counts in a row only while the classes do not mix.
The counters are `int32` and wrap around.
-/

namespace Reality

open Kit

inductive DestCapState where
  | unknown
  | tls13Ready
  | degraded
  | unsuitable
  | offline
  deriving DecidableEq, Repr

def destCapUnsuitableAfter : Nat := 3

def destCapDegradedAfter : Nat := 2

def destCapOfflineAfter : Nat := 3

def destCapCooldown : Int := 5 * minute

/-- What the `switch` over the reason tells apart. -/
inductive CaptureFailure where
  | dial
  | shape
  | soft
  deriving DecidableEq, Repr

def captureFailure (reason : Bytes) : CaptureFailure :=
  if reason = str "dial" then .dial
  else if reason = str "not_tls13" || reason = str "bad_shape" then .shape
  else .soft

structure DestCapability where
  state : DestCapState := .unknown
  failTLS13 : Int32 := 0
  failDial : Int32 := 0
  failSoft : Int32 := 0
  updated : Int := 0
  deriving DecidableEq

/-- The counter of a class. -/
def DestCapability.fails (d : DestCapability) : CaptureFailure → Int32
  | .dial => d.failDial
  | .shape => d.failTLS13
  | .soft => d.failSoft

abbrev DestCaps : Type := AList (fun _ : Bytes => DestCapability)

/-- The capability of a target; one that is not in the map is created. -/
def destCapOf (caps : DestCaps) (dest : Bytes) : DestCapability := (caps.lookup dest).getD {}

/-- `getDestCap`: nil for the empty target. -/
def getDestCap (caps : DestCaps) (dest : Bytes) : Option DestCapability :=
  if dest = [] then none else some (destCapOf caps dest)

/-- The target's state after the cooldown. -/
def DestCapability.cooled (d : DestCapability) (now : Int) : DestCapability :=
  if d.state = .unsuitable || d.state = .offline || d.state = .degraded then
    if d.updated > 0 && timeSub now d.updated > destCapCooldown then
      { d with state := .unknown, failTLS13 := 0, failDial := 0, failSoft := 0 }
    else d
  else d

def DestCapability.ready (d : DestCapability) (now : Int) : DestCapability :=
  { d with
    state := .tls13Ready, failTLS13 := 0, failDial := 0, failSoft := 0, updated := unixNano now }

def DestCapability.failed (d : DestCapability) (failure : CaptureFailure) (now : Int) :
    DestCapability :=
  let d := { d with updated := unixNano now }
  match failure with
  | .dial =>
      let n : Int32 := d.failDial + 1
      { d with
        failDial := n, state := if n.toInt ≥ destCapOfflineAfter then .offline else d.state }
  | .shape =>
      let n : Int32 := d.failTLS13 + 1
      { d with
        failTLS13 := n
        state := if n.toInt ≥ destCapUnsuitableAfter then .unsuitable
          else if n.toInt ≥ destCapDegradedAfter then .degraded else d.state }
  | .soft =>
      let n : Int32 := d.failSoft + 1
      { d with
        failSoft := n
        -- Only this class gives way to a state that is worse.
        state := if n.toInt ≥ destCapDegradedAfter && d.state ≠ .unsuitable && d.state ≠ .offline
          then .degraded else d.state }

def destCapabilityState (caps : DestCaps) (dest : Bytes) (now : Int) : DestCaps × DestCapState :=
  match getDestCap caps dest with
  | none => (caps, .unknown)
  | some d => (caps.insert dest (d.cooled now), (d.cooled now).state)

def noteDestTLS13Ready (caps : DestCaps) (dest : Bytes) (now : Int) : DestCaps :=
  match getDestCap caps dest with
  | none => caps
  | some d => caps.insert dest (d.ready now)

def noteDestCaptureFailure (caps : DestCaps) (dest reason : Bytes) (now : Int) : DestCaps :=
  match getDestCap caps dest with
  | none => caps
  | some d => caps.insert dest (d.failed (captureFailure reason) now)

/-- A call about some target. -/
inductive DestOp where
  | ready
  | failure (reason : Bytes)
  | state
  deriving DecidableEq

structure DestCall where
  dest : Bytes
  op : DestOp
  now : Int
  deriving DecidableEq

/-- Calls about any targets, one after the other; the output is what
`DestCapabilityState` returns. -/
def destCapMachine : Machine DestCaps DestCall (Option DestCapState) where
  step caps c :=
    match c.op with
    | .ready => some (noteDestTLS13Ready caps c.dest c.now, none)
    | .failure reason => some (noteDestCaptureFailure caps c.dest reason c.now, none)
    | .state =>
        some ((destCapabilityState caps c.dest c.now).1,
          some (destCapabilityState caps c.dest c.now).2)

abbrev DestTrace : Type := List (DestCall × Option DestCapState)

/-- What a call records about `dest`: a success (none) or a failure of some class. -/
def DestCall.records (dest : Bytes) (c : DestCall) : Option (Option CaptureFailure) :=
  if c.dest = dest then
    match c.op with
    | .ready => some none
    | .failure reason => some (some (captureFailure reason))
    | .state => none
  else none

/-- The recorded outcomes of a target, oldest first. -/
def outcomesOf (dest : Bytes) (tr : DestTrace) : List (Option CaptureFailure) :=
  tr.filterMap fun x => x.1.records dest

/-- Every failure finds the counters of the other classes at zero. -/
def ClassesApart (_ : DestTrace) (caps : DestCaps) (c : DestCall) : Prop :=
  ∀ reason, c.op = .failure reason →
    ∀ f, f ≠ captureFailure reason → (destCapOf caps c.dest).fails f = 0

/-! ## One call -/

/-- What a call does to the capability of its target. -/
def DestCall.act (c : DestCall) (d : DestCapability) : DestCapability :=
  match c.op with
  | .ready => d.ready c.now
  | .failure reason => d.failed (captureFailure reason) c.now
  | .state => d.cooled c.now

section Step

variable {caps caps' : DestCaps} {c : DestCall} {out : Option DestCapState} {dest : Bytes}

theorem destStep_eq (h : destCapMachine.step caps c = some (caps', out)) :
    caps' = if c.dest = [] then caps else caps.insert c.dest (c.act (destCapOf caps c.dest)) := by
  obtain ⟨dest, op, now⟩ := c
  by_cases hdest : dest = []
  · cases op <;>
      simp only [destCapMachine, noteDestTLS13Ready, noteDestCaptureFailure, destCapabilityState,
        getDestCap, if_pos hdest, Option.some.injEq, Prod.mk.injEq] at h ⊢ <;>
      exact h.1.symm
  · cases op <;>
      simp only [destCapMachine, noteDestTLS13Ready, noteDestCaptureFailure, destCapabilityState,
        getDestCap, if_neg hdest, Option.some.injEq, Prod.mk.injEq] at h ⊢ <;>
      exact h.1.symm

theorem destCapOf_step (h : destCapMachine.step caps c = some (caps', out)) (dest : Bytes) :
    destCapOf caps' dest =
      if c.dest = dest ∧ dest ≠ [] then c.act (destCapOf caps dest) else destCapOf caps dest := by
  rw [destStep_eq h]
  by_cases hempty : c.dest = []
  · rw [if_pos hempty, if_neg fun hc => hc.2 (hc.1.symm.trans hempty)]
  · rw [if_neg hempty]
    by_cases hdest : c.dest = dest
    · subst hdest
      rw [if_pos ⟨rfl, hempty⟩]
      simp only [destCapOf, AList.lookup_insert, Option.getD_some]
    · rw [if_neg fun hc => hdest hc.1]
      simp only [destCapOf, AList.lookup_insert_ne (Ne.symm hdest)]

theorem outcomesOf_concat (dest : Bytes) (tr : DestTrace) (c : DestCall)
    (out : Option DestCapState) :
    outcomesOf dest (tr ++ [(c, out)]) = outcomesOf dest tr ++ (c.records dest).toList := by
  simp only [outcomesOf, List.filterMap_append, List.filterMap_cons, List.filterMap_nil]
  cases c.records dest <;> rfl

end Step

/-! ## Runs -/

/-- No counter is ahead of the streak it is meant to count. -/
def InRow (tr : DestTrace) (caps : DestCaps) : Prop :=
  ∀ dest, dest ≠ [] → ∀ f,
    ((destCapOf caps dest).fails f).toInt ≤ streak (some f) (outcomesOf dest tr)

section InRow

variable {tr : DestTrace} {caps caps' : DestCaps} {c : DestCall} {out : Option DestCapState}

theorem fails_cooled (d : DestCapability) (now : Int) (f : CaptureFailure) :
    (d.cooled now).fails f = 0 ∨ (d.cooled now).fails f = d.fails f := by
  unfold DestCapability.cooled
  split
  · split
    · cases f <;> exact Or.inl rfl
    · exact Or.inr rfl
  · exact Or.inr rfl

theorem fails_failed (d : DestCapability) (f g : CaptureFailure) (now : Int) :
    (d.failed f now).fails g = if g = f then d.fails g + 1 else d.fails g := by
  cases f <;> cases g <;> rfl

/-- A counter that wraps around falls behind. -/
theorem toInt_succ_le (n : Int32) : (n + 1).toInt ≤ n.toInt + 1 := by
  have hone : (1 : Int32).toInt = 1 := rfl
  have hlo := n.le_toInt
  have hhi := n.toInt_lt
  rw [Int32.toInt_add, hone, Int.bmod_def]
  split <;> omega

theorem InRow.step (h : InRow tr caps) (happart : ClassesApart tr caps c)
    (hstep : destCapMachine.step caps c = some (caps', out)) : InRow (tr ++ [(c, out)]) caps' := by
  intro dest hdest f
  have hle := h dest hdest f
  rw [destCapOf_step hstep, outcomesOf_concat]
  by_cases hc : c.dest = dest
  · subst hc
    rw [if_pos ⟨rfl, hdest⟩]
    unfold DestCall.act DestCall.records
    cases hop : c.op with
    | ready =>
        have hzero : ((destCapOf caps c.dest).ready c.now).fails f = 0 := by cases f <;> rfl
        rw [hzero]
        exact Int.natCast_nonneg _
    | failure reason =>
        simp only [if_true, Option.toList_some, streak_concat, fails_failed, Option.some.injEq]
        by_cases hf : f = captureFailure reason
        · rw [if_pos hf, if_pos hf.symm]
          have hsucc := toInt_succ_le ((destCapOf caps c.dest).fails f)
          rw [Nat.cast_succ]
          omega
        · rw [if_neg hf, if_neg (Ne.symm hf), happart reason hop f hf]
          rfl
    | state =>
        simp only [if_true, Option.toList_none, List.append_nil]
        rcases fails_cooled (destCapOf caps c.dest) c.now f with hzero | hsame
        · rw [hzero]
          exact Int.natCast_nonneg _
        · rw [hsame]
          exact hle
  · rw [if_neg fun hcd => hc hcd.1]
    simp only [DestCall.records, if_neg hc, Option.toList_none, List.append_nil]
    exact hle

/-- What the counts are at least when a state is entered. -/
def CountedFor (st : DestCapState) (d : DestCapability) : Prop :=
  (st = .offline → destCapOfflineAfter ≤ (d.fails .dial).toInt) ∧
    (st = .unsuitable → destCapUnsuitableAfter ≤ (d.fails .shape).toInt) ∧
    (st = .degraded → ∃ f, destCapDegradedAfter ≤ (d.fails f).toInt)

theorem failed_becomes {d : DestCapability} {st : DestCapState} {f : CaptureFailure} {now : Int}
    (hne : d.state ≠ st) (heq : (d.failed f now).state = st) :
    CountedFor st (d.failed f now) := by
  cases f with
  | dial =>
      simp only [DestCapability.failed] at heq
      split at heq
      next hn =>
        cases heq
        exact ⟨fun _ => hn, nofun, nofun⟩
      · exact absurd heq hne
  | shape =>
      simp only [DestCapability.failed] at heq
      split at heq
      next hn =>
        cases heq
        exact ⟨nofun, fun _ => hn, nofun⟩
      · split at heq
        next hn =>
          cases heq
          exact ⟨nofun, nofun, fun _ => ⟨.shape, hn⟩⟩
        · exact absurd heq hne
  | soft =>
      simp only [DestCapability.failed] at heq
      split at heq
      next hn =>
        simp only [Bool.and_eq_true, decide_eq_true_eq] at hn
        cases heq
        exact ⟨nofun, nofun, fun _ => ⟨.soft, hn.1.1⟩⟩
      · exact absurd heq hne

/-- Only a failure enters a state that says something is wrong. -/
theorem act_becomes {d : DestCapability} {st : DestCapState} (hne : d.state ≠ st)
    (heq : (c.act d).state = st) : CountedFor st (c.act d) := by
  unfold DestCall.act at heq ⊢
  cases hop : c.op with
  | ready =>
      rw [hop] at heq
      cases heq
      exact ⟨nofun, nofun, nofun⟩
  | state =>
      rw [hop] at heq
      simp only [DestCapability.cooled] at heq
      split at heq
      · split at heq
        · cases heq
          exact ⟨nofun, nofun, nofun⟩
        · exact absurd heq hne
      · exact absurd heq hne
  | failure reason =>
      rw [hop] at heq
      exact failed_becomes hne heq

end InRow

/-- **A state is entered by failures in a row**, if no failure is recorded while
another class is being counted. -/
theorem dest_state_in_row {tr : DestTrace} {caps caps' : DestCaps} {c : DestCall}
    {out : Option DestCapState} {dest : Bytes} {st : DestCapState}
    (hrun : destCapMachine.Meets ClassesApart ∅ tr caps) (happart : ClassesApart tr caps c)
    (hstep : destCapMachine.step caps c = some (caps', out))
    (hne : (destCapOf caps dest).state ≠ st) (heq : (destCapOf caps' dest).state = st) :
    (st = .offline → List.replicate destCapOfflineAfter (some .dial)
        <:+ outcomesOf dest (tr ++ [(c, out)])) ∧
      (st = .unsuitable → List.replicate destCapUnsuitableAfter (some .shape)
        <:+ outcomesOf dest (tr ++ [(c, out)])) ∧
      (st = .degraded → ∃ f : CaptureFailure, List.replicate destCapDegradedAfter (some f)
        <:+ outcomesOf dest (tr ++ [(c, out)])) := by
  have hrow : InRow tr caps := by
    refine hrun.invariant (I := InRow) ?_ fun _ _ _ _ _ hi hc hs => hi.step hc hs
    intro dest _ f
    cases f <;> exact Int.natCast_nonneg _
  have hcap := destCapOf_step hstep dest
  by_cases hc : c.dest = dest ∧ dest ≠ []
  · rw [if_pos hc] at hcap
    have hrow' := hrow.step happart hstep dest hc.2
    rw [hcap] at heq hrow'
    obtain ⟨hoff, huns, hdeg⟩ := act_becomes hne heq
    refine ⟨fun h => ?_, fun h => ?_, fun h => ?_⟩
    · exact replicate_suffix_of_le_streak (Int.ofNat_le.mp ((hoff h).trans (hrow' .dial)))
    · exact replicate_suffix_of_le_streak (Int.ofNat_le.mp ((huns h).trans (hrow' .shape)))
    · obtain ⟨f, hf⟩ := hdeg h
      exact ⟨f, replicate_suffix_of_le_streak (Int.ofNat_le.mp (hf.trans (hrow' f)))⟩
  · rw [if_neg hc] at hcap
    rw [hcap] at heq
    exact absurd heq hne

/-- A failure of `d:443`, for some reason. -/
def sampleFailure (reason : Bytes) (now : Int) : DestCall := ⟨str "d:443", .failure reason, now⟩

/-- The check of `ClassesApart` along an execution. -/
def classesApartCheck (caps : DestCaps) (c : DestCall) : Bool :=
  match c.op with
  | .failure reason =>
      [CaptureFailure.dial, .shape, .soft].all fun f =>
        f = captureFailure reason || (destCapOf caps c.dest).fails f = 0
  | _ => true

theorem classesApart_of_check {tr : DestTrace} {caps : DestCaps} {c : DestCall}
    (h : classesApartCheck caps c = true) : ClassesApart tr caps c := by
  intro reason hop f hf
  rw [classesApartCheck, hop, List.all_eq_true] at h
  have hmem : f ∈ [CaptureFailure.dial, .shape, .soft] := by cases f <;> decide
  simpa [hf] using h f hmem

/-- Three dial failures, with a read of the state and another target in between. -/
theorem dest_offline_in_row :
    ∃ tr caps caps' out, destCapMachine.Meets ClassesApart ∅ tr caps ∧
      destCapMachine.step caps (sampleFailure (str "dial") 5) = some (caps', out) ∧
      (destCapOf caps' (str "d:443")).state = .offline ∧
      List.replicate destCapOfflineAfter (some .dial)
        <:+ outcomesOf (str "d:443") (tr ++ [(sampleFailure (str "dial") 5, out)]) := by
  obtain ⟨tr, caps, hrun, hlast, hstate⟩ : ∃ tr caps,
      destCapMachine.Meets ClassesApart ∅ tr caps ∧
      classesApartCheck caps (sampleFailure (str "dial") 5) = true ∧
      (destCapOf caps (str "d:443")).state = .unknown ∧
      ((destCapMachine.step caps (sampleFailure (str "dial") 5)).any fun r =>
        (destCapOf r.1 (str "d:443")).state = .offline) = true :=
    Machine.Meets.exists_of_exec classesApartCheck
      [sampleFailure (str "dial") 1, ⟨str "e:443", .ready, 2⟩, sampleFailure (str "dial") 3,
        ⟨str "d:443", .state, 4⟩]
      (fun _ _ _ _ h => classesApart_of_check h) (by decide +kernel)
  cases hstep : destCapMachine.step caps (sampleFailure (str "dial") 5) with
  | none => rw [hstep] at hstate; cases hstate.2
  | some r =>
      rw [hstep] at hstate
      have hoff : (destCapOf r.1 (str "d:443")).state = .offline := by simpa using hstate.2
      have hne : (destCapOf caps (str "d:443")).state ≠ .offline := by
        rw [hstate.1]
        decide
      exact ⟨tr, caps, r.1, r.2, hrun, hstep, hoff,
        (dest_state_in_row hrun (classesApart_of_check hlast) hstep hne hoff).1 rfl⟩

/-- **Offline without three dial failures in a row**: the second failure is one of
shape, and the count goes on behind it. -/
theorem dest_offline_with_gap :
    ∃ tr caps caps' out, destCapMachine.Run ∅ tr caps ∧
      destCapMachine.step caps (sampleFailure (str "dial") 4) = some (caps', out) ∧
      (destCapOf caps (str "d:443")).state ≠ .offline ∧
      (destCapOf caps' (str "d:443")).state = .offline ∧
      outcomesOf (str "d:443") (tr ++ [(sampleFailure (str "dial") 4, out)])
        = [some .dial, some .shape, some .dial, some .dial] := by
  obtain ⟨tr, caps, hrun, hstate⟩ : ∃ tr caps, destCapMachine.Run ∅ tr caps ∧
      ((destCapOf caps (str "d:443")).state ≠ .offline ∧
        outcomesOf (str "d:443") tr = [some .dial, some .shape, some .dial] ∧
        ((destCapMachine.step caps (sampleFailure (str "dial") 4)).any fun r =>
          (destCapOf r.1 (str "d:443")).state = .offline) = true) :=
    Machine.Run.exists_of_exec
      [sampleFailure (str "dial") 1, sampleFailure (str "bad_shape") 2,
        sampleFailure (str "dial") 3] (by decide +kernel)
  obtain ⟨hne, houts, hnext⟩ := hstate
  cases hstep : destCapMachine.step caps (sampleFailure (str "dial") 4) with
  | none => rw [hstep] at hnext; cases hnext
  | some r =>
      rw [hstep] at hnext
      refine ⟨tr, caps, r.1, r.2, hrun, hstep, hne, by simpa using hnext, ?_⟩
      rw [outcomesOf_concat, houts]
      rfl

end Reality
