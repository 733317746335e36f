import Reality.Server.DestCap

/-!
# How long a target stays restricted

`DestAllowsAmortize` and `DestShouldMirrorOnly` (fidelity.go) read the state of
a target's capability. The five states are not ordered in the source: each
class of failures writes its own state, and only the soft one looks at the
present state first. So one more failure can RELAX a restriction, in the
situations `Lifts` and `Unmirrors`; outside of them a restriction lasts until
a success or the cooldown.

The counters are int32 and wrap around, so a count of two may also come 2^32
failures after the first one, when the target is unsuitable already.
-/

namespace Reality

open Kit

/-- The states for which `DestAllowsAmortize` answers no. -/
def DestCapState.restricted (st : DestCapState) : Bool := st = .unsuitable || st = .offline

/-- `DestAllowsAmortize`, with the map the read leaves. -/
def destAllowsAmortize (caps : DestCaps) (dest : Bytes) (now : Int) : DestCaps × Bool :=
  ((destCapabilityState caps dest now).1, !(destCapabilityState caps dest now).2.restricted)

/-- `DestShouldMirrorOnly`, with the map the read leaves. -/
def destShouldMirrorOnly (caps : DestCaps) (dest : Bytes) (now : Int) : DestCaps × Bool :=
  ((destCapabilityState caps dest now).1, (destCapabilityState caps dest now).2 = .unsuitable)

namespace DestCapability

/-- The cooldown has not elapsed. -/
def WithinCooldown (d : DestCapability) (now : Int) : Prop :=
  ¬ (d.updated > 0 ∧ timeSub now d.updated > destCapCooldown)

instance (d : DestCapability) (now : Int) : Decidable (d.WithinCooldown now) :=
  inferInstanceAs (Decidable (¬ _))

/-- A failure of shape that is counted as the second one: the state becomes degraded. -/
def Lifts (d : DestCapability) (f : CaptureFailure) : Prop :=
  d.state.restricted = true ∧ f = .shape ∧ (d.failTLS13 + 1).toInt = destCapDegradedAfter

/-- What ends the mirroring of an unsuitable target: a failure to dial that is counted as
the third one or a later one, and a failure of shape that is counted as the second one. -/
def Unmirrors (d : DestCapability) (f : CaptureFailure) : Prop :=
  d.state = .unsuitable ∧ (f = .dial ∧ destCapOfflineAfter ≤ (d.failDial + 1).toInt
    ∨ f = .shape ∧ (d.failTLS13 + 1).toInt = destCapDegradedAfter)

theorem cooled_eq {d : DestCapability} {now : Int} (h : d.WithinCooldown now) :
    d.cooled now = d := by
  unfold cooled
  split
  · refine if_neg fun hc => h ?_
    simpa using hc
  · rfl

theorem state_failed_dial (d : DestCapability) (now : Int) :
    (d.failed .dial now).state
      = if destCapOfflineAfter ≤ (d.failDial + 1).toInt then .offline else d.state := rfl

theorem state_failed_shape (d : DestCapability) (now : Int) :
    (d.failed .shape now).state
      = if destCapUnsuitableAfter ≤ (d.failTLS13 + 1).toInt then .unsuitable
        else if destCapDegradedAfter ≤ (d.failTLS13 + 1).toInt then .degraded else d.state := rfl

/-- The second failure is the only one that degrades. -/
theorem state_failed_shape_of_ne {d : DestCapability}
    (h : (d.failTLS13 + 1).toInt ≠ destCapDegradedAfter) (now : Int) :
    (d.failed .shape now).state = .unsuitable ∨ (d.failed .shape now).state = d.state := by
  rw [state_failed_shape]
  split
  · exact Or.inl rfl
  next hthree =>
    refine Or.inr (if_neg fun htwo => h ?_)
    simp only [destCapUnsuitableAfter, destCapDegradedAfter] at hthree htwo ⊢
    omega

theorem state_failed_shape_of_eq {d : DestCapability}
    (h : (d.failTLS13 + 1).toInt = destCapDegradedAfter) (now : Int) :
    (d.failed .shape now).state = .degraded := by
  rw [state_failed_shape, h]
  rfl

/-- A soft failure leaves the states that are worse than degraded. -/
theorem state_failed_soft {d : DestCapability} (h : d.state.restricted = true) (now : Int) :
    (d.failed .soft now).state = d.state := by
  refine if_neg fun hc => ?_
  simp only [Bool.and_eq_true, decide_eq_true_eq] at hc
  simp only [DestCapState.restricted, Bool.or_eq_true, decide_eq_true_eq] at h
  exact h.elim hc.1.2 hc.2

/-- One failure keeps the ban on amortizing exactly when it does not lift it. -/
theorem restricted_failed_iff {d : DestCapability} (hr : d.state.restricted = true)
    (f : CaptureFailure) (now : Int) :
    (d.failed f now).state.restricted = true ↔ ¬ d.Lifts f := by
  cases f with
  | dial =>
      have hkept : (d.failed .dial now).state.restricted = true := by
        rw [state_failed_dial]
        split
        · rfl
        · exact hr
      exact iff_of_true hkept fun h => absurd h.2.1 (by decide)
  | soft =>
      rw [state_failed_soft hr]
      exact iff_of_true hr fun h => absurd h.2.1 (by decide)
  | shape =>
      by_cases htwo : (d.failTLS13 + 1).toInt = destCapDegradedAfter
      · rw [state_failed_shape_of_eq htwo]
        exact iff_of_false Bool.false_ne_true fun h => h ⟨hr, rfl, htwo⟩
      · refine iff_of_true ?_ fun h => htwo h.2.2
        rcases state_failed_shape_of_ne htwo now with hun | hsame
        · rw [hun]
          rfl
        · rw [hsame]
          exact hr

/-- One failure keeps the target mirrored exactly when it does not end that. -/
theorem unsuitable_failed_iff {d : DestCapability} (hu : d.state = .unsuitable)
    (f : CaptureFailure) (now : Int) :
    (d.failed f now).state = .unsuitable ↔ ¬ d.Unmirrors f := by
  cases f with
  | dial =>
      rw [state_failed_dial]
      split
      next hn => exact iff_of_false (by decide) fun h => h ⟨hu, .inl ⟨rfl, hn⟩⟩
      next hn =>
        refine iff_of_true hu fun h => ?_
        rcases h.2 with hdial | hshape
        · exact hn hdial.2
        · exact absurd hshape.1 (by decide)
  | soft =>
      rw [state_failed_soft (by rw [hu]; rfl)]
      refine iff_of_true hu fun h => ?_
      rcases h.2 with hdial | hshape
      · exact absurd hdial.1 (by decide)
      · exact absurd hshape.1 (by decide)
  | shape =>
      by_cases htwo : (d.failTLS13 + 1).toInt = destCapDegradedAfter
      · rw [state_failed_shape_of_eq htwo]
        exact iff_of_false (by decide) fun h => h ⟨hu, .inr ⟨rfl, htwo⟩⟩
      · refine iff_of_true ?_ fun h => ?_
        · rcases state_failed_shape_of_ne htwo now with hun | hsame
          · exact hun
          · exact hsame.trans hu
        · rcases h.2 with hdial | hshape
          · exact absurd hdial.1 (by decide)
          · exact htwo hshape.2

end DestCapability

/-! ## Runs -/

/-- A call that leaves the restriction of `dest` alone: no success, no read after
the cooldown, and no failure of the kind that relaxes it. -/
def Restrains (relaxes : DestCapability → CaptureFailure → Prop) (dest : Bytes) (_ : DestTrace)
    (caps : DestCaps) (c : DestCall) : Prop :=
  c.dest = dest →
    match c.op with
    | .ready => False
    | .state => (destCapOf caps dest).WithinCooldown c.now
    | .failure reason => ¬ relaxes (destCapOf caps dest) (captureFailure reason)

section Runs

variable {caps caps₀ : DestCaps} {tr : DestTrace} {dest : Bytes}

/-- What every failure that does not relax it keeps of a target, a run keeps. -/
theorem Restrains.kept {relaxes : DestCapability → CaptureFailure → Prop}
    {P : DestCapability → Prop}
    (hfailed : ∀ d f now, P d → ¬ relaxes d f → P (d.failed f now))
    (h₀ : P (destCapOf caps₀ dest))
    (hrun : destCapMachine.Meets (Restrains relaxes dest) caps₀ tr caps) :
    P (destCapOf caps dest) := by
  refine hrun.invariant (I := fun _ caps => P (destCapOf caps dest)) h₀ ?_
  intro tr caps c caps' out hi hc hs
  rw [destCapOf_step hs]
  split
  next hcd =>
    have hcall := hc hcd.1
    unfold DestCall.act
    cases hop : c.op with
    | ready =>
        rw [hop] at hcall
        exact hcall.elim
    | failure reason =>
        rw [hop] at hcall
        exact hfailed _ _ c.now hi hcall
    | state =>
        rw [hop] at hcall
        exact (DestCapability.cooled_eq hcall).symm ▸ hi
  next => exact hi

theorem destCapabilityState_within {now : Int} (h : (destCapOf caps dest).WithinCooldown now) :
    (destCapabilityState caps dest now).2
      = if dest = [] then .unknown else (destCapOf caps dest).state := by
  unfold destCapabilityState getDestCap
  by_cases hd : dest = []
  · simp only [hd, if_true]
  · simp only [if_neg hd, DestCapability.cooled_eq h]

theorem destAllowsAmortize_within {now : Int} (h : (destCapOf caps dest).WithinCooldown now) :
    (destAllowsAmortize caps dest now).2 = false
      ↔ dest ≠ [] ∧ (destCapOf caps dest).state.restricted = true := by
  change (!(destCapabilityState caps dest now).2.restricted) = false ↔ _
  rw [destCapabilityState_within h, Bool.not_eq_false']
  by_cases hd : dest = []
  · rw [if_pos hd]
    exact iff_of_false (by decide) fun hr => hr.1 hd
  · rw [if_neg hd]
    exact ⟨fun hr => ⟨hd, hr⟩, And.right⟩

theorem destShouldMirrorOnly_within {now : Int} (h : (destCapOf caps dest).WithinCooldown now) :
    (destShouldMirrorOnly caps dest now).2 = true
      ↔ dest ≠ [] ∧ (destCapOf caps dest).state = .unsuitable := by
  rw [destShouldMirrorOnly, destCapabilityState_within h]
  by_cases hd : dest = [] <;> simp [hd]

end Runs

/-- **A restriction is not relaxed by failures** of any targets and for any reasons, from
any map and until a success or the cooldown, as long as no failure lifts the ban on
amortizing, nor one ends the mirroring. -/
theorem restriction_kept {tr : DestTrace} {caps₀ caps : DestCaps} {dest : Bytes} {t₀ t : Int}
    (h₀ : (destCapOf caps₀ dest).WithinCooldown t₀) (h : (destCapOf caps dest).WithinCooldown t) :
    (destCapMachine.Meets (Restrains DestCapability.Lifts dest) caps₀ tr caps →
        (destAllowsAmortize caps₀ dest t₀).2 = false → (destAllowsAmortize caps dest t).2 = false)
      ∧ (destCapMachine.Meets (Restrains DestCapability.Unmirrors dest) caps₀ tr caps →
        (destShouldMirrorOnly caps₀ dest t₀).2 = true →
        (destShouldMirrorOnly caps dest t).2 = true) := by
  rw [destAllowsAmortize_within h₀, destAllowsAmortize_within h, destShouldMirrorOnly_within h₀,
    destShouldMirrorOnly_within h]
  constructor
  · rintro hrun ⟨hd, hr⟩
    refine ⟨hd, Restrains.kept (P := fun d => d.state.restricted = true) ?_ hr hrun⟩
    intro d f now hr hf
    exact (DestCapability.restricted_failed_iff hr f now).mpr hf
  · rintro hrun ⟨hd, hu⟩
    refine ⟨hd, Restrains.kept (P := fun d => d.state = .unsuitable) ?_ hu hrun⟩
    intro d f now hu hf
    exact (DestCapability.unsuitable_failed_iff hu f now).mpr hf

/-- The map after failures of `d:443`, all at one time. -/
def afterFailures (reasons : List Bytes) : DestCaps :=
  reasons.foldl (fun caps reason => noteDestCaptureFailure caps (str "d:443") reason 1) ∅

/-- Three failures to dial and then a timeout; three failures of shape and then a failure
to dial. -/
theorem restriction_kept_timeout :
    ((destAllowsAmortize (afterFailures [str "dial", str "dial", str "dial"]) (str "d:443") 2).2
        = false
      ∧ (destAllowsAmortize (afterFailures [str "dial", str "dial", str "dial", str "timeout"])
        (str "d:443") 2).2 = false)
    ∧ (destShouldMirrorOnly (afterFailures [str "bad_shape", str "bad_shape", str "bad_shape"])
        (str "d:443") 2).2 = true
      ∧ (destShouldMirrorOnly (afterFailures [str "bad_shape", str "bad_shape", str "bad_shape",
        str "dial"]) (str "d:443") 2).2 = true := by
  have hoff : (destAllowsAmortize (afterFailures [str "dial", str "dial", str "dial"])
      (str "d:443") 2).2 = false := by decide +kernel
  have hmirror : (destShouldMirrorOnly (afterFailures [str "bad_shape", str "bad_shape",
      str "bad_shape"]) (str "d:443") 2).2 = true := by decide +kernel
  have hrun : destCapMachine.Meets (Restrains DestCapability.Lifts (str "d:443"))
      (afterFailures [str "dial", str "dial", str "dial"]) _
      (afterFailures [str "dial", str "dial", str "dial", str "timeout"]) :=
    Machine.Meets.snoc (a := sampleFailure (str "timeout") 1) .nil
      (fun _ hl => absurd hl.2.1 (by decide)) rfl
  have hrun' : destCapMachine.Meets (Restrains DestCapability.Unmirrors (str "d:443"))
      (afterFailures [str "bad_shape", str "bad_shape", str "bad_shape"]) _
      (afterFailures [str "bad_shape", str "bad_shape", str "bad_shape", str "dial"]) :=
    Machine.Meets.snoc (a := sampleFailure (str "dial") 1) .nil
      (fun _ hu => hu.2.elim (fun hd => absurd hd.2 (by decide +kernel))
        fun hs => absurd hs.1 (by decide)) rfl
  exact ⟨⟨hoff, (restriction_kept (by decide +kernel) (by decide +kernel)).1 hrun hoff⟩,
    hmirror, (restriction_kept (by decide +kernel) (by decide +kernel)).2 hrun' hmirror⟩

/-- **One more failure relaxes the restriction**: a second failure of shape lets an
offline target amortize again, and a third failure to dial ends the mirroring of
an unsuitable one. -/
theorem restriction_relaxed :
    ((destAllowsAmortize (afterFailures [str "dial", str "dial", str "dial", str "bad_shape"])
        (str "d:443") 2).2 = false
      ∧ (destAllowsAmortize (afterFailures [str "dial", str "dial", str "dial", str "bad_shape",
          str "bad_shape"]) (str "d:443") 2).2 = true)
    ∧ (destShouldMirrorOnly (afterFailures [str "bad_shape", str "bad_shape", str "bad_shape",
        str "dial", str "dial"]) (str "d:443") 2).2 = true
      ∧ (destShouldMirrorOnly (afterFailures [str "bad_shape", str "bad_shape", str "bad_shape",
        str "dial", str "dial", str "dial"]) (str "d:443") 2).2 = false := by
  decide +kernel

end Reality
