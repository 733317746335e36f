import Reality.Store.Epoch

/-!
# Requests for a save

`RequestSave` (profile_persist.go) arms one timer for many requests: a flag says that
a save is scheduled, the first request sets it and arms the timer, and later ones
find it set and return. The callback of the timer runs `Save` and clears the flag
WHEN SAVE HAS RETURNED.

`Save` counts what was marked before it read its watermark. A request between that
read and the clearing of the flag is covered by neither: this save does not count
its mark, and there is no other one scheduled. The mark stays until somebody else
asks.
-/

namespace Reality

open Kit

/-! ## The machine -/

/-- Where the debounce timer and its callback are. -/
inductive CallbackPc where
  | idle
  | pending
  | fired
  /-- In `IsDirty()`, between its two loads. -/
  | checking (d : Int)
  | waiting
  | saving
  | clearing
  deriving DecidableEq

/-- Where a client is, from its mark to the end of its `RequestSave`. -/
inductive ClientPc where
  | idle
  | marked
  | checking (d : Int)
  | dirty
  /-- The flag is set, `time.AfterFunc` not called. -/
  | swapped
  deriving DecidableEq

structure RequestState (ι : Type) where
  epoch : EpochState := {}
  saveScheduled : Bool := false
  callback : CallbackPc := .idle
  client : ι → ClientPc := fun _ => .idle

inductive RequestAct (ι : Type) where
  /-- A change of an entry, or a step of whichever `Save` has the mutex or wants it. -/
  | other (a : EpochAct ι)
  | mark (i : ι)
  | loadDirty (i : ι)
  | loadPersisted (i : ι)
  | compareAndSwap (i : ι)
  | afterFunc (i : ι)
  | fire
  | callbackLoadDirty
  | callbackLoadPersisted
  | callbackLock
  | clear

variable {ι : Type}

/-- The steps that are not taken for a client or by the callback itself. The mutex goes
to another `Save` only if there is one that waits for it. -/
def RequestState.allows (s : RequestState ι) : EpochAct ι → Bool
  | .mark _ => false
  | .lock => s.callback ≠ .waiting || 1 < s.epoch.waiting
  | _ => true

/-- The `Save` of the callback returns behind its last step. -/
def CallbackPc.after (p : CallbackPc) : EpochAct ι → CallbackPc
  | .persist => if p = .saving then .clearing else p
  | _ => p

def requestStep [DecidableEq ι] (s : RequestState ι) : RequestAct ι → Option (RequestState ι)
  | .other a =>
      if s.allows a then
        (epochStep s.epoch a).map fun e => { s with epoch := e, callback := s.callback.after a }
      else none
  | .mark i =>
      if s.client i = .idle || s.client i = .marked then
        (epochStep s.epoch (.mark i)).map fun e =>
          { s with epoch := e, client := Function.update s.client i .marked }
      else none
  | .loadDirty i =>
      match s.client i with
      | .marked =>
          some { s with client := Function.update s.client i (.checking s.epoch.cache.dirty) }
      | _ => none
  | .loadPersisted i =>
      match s.client i with
      | .checking d =>
          let p := if d > s.epoch.cache.persisted then .dirty else .idle
          some { s with client := Function.update s.client i p }
      | _ => none
  | .compareAndSwap i =>
      match s.client i with
      | .dirty =>
          if s.saveScheduled then some { s with client := Function.update s.client i .idle }
          else
            some { s with
              saveScheduled := true, client := Function.update s.client i .swapped }
      | _ => none
  | .afterFunc i =>
      match s.client i, s.callback with
      | .swapped, .idle =>
          some { s with callback := .pending, client := Function.update s.client i .idle }
      | _, _ => none
  | .fire =>
      match s.callback with
      | .pending => some { s with callback := .fired }
      | _ => none
  | .callbackLoadDirty =>
      match s.callback with
      | .fired => some { s with callback := .checking s.epoch.cache.dirty }
      | _ => none
  | .callbackLoadPersisted =>
      match s.callback with
      | .checking d =>
          if d > s.epoch.cache.persisted then
            (epochStep s.epoch (.check : EpochAct ι)).map fun e =>
              { s with epoch := e, callback := .waiting }
          else some { s with callback := .clearing }
      | _ => none
  | .callbackLock =>
      match s.callback with
      | .waiting =>
          (epochStep s.epoch (.lock : EpochAct ι)).map fun e =>
            { s with epoch := e, callback := .saving }
      | _ => none
  | .clear =>
      match s.callback with
      | .clearing => some { s with callback := .idle, saveScheduled := false }
      | _ => none

/-- Clients `ι`, the timer, and other saves, in any order. -/
def requestMachine (ι : Type) [DecidableEq ι] : Machine (RequestState ι) (RequestAct ι) Unit :=
  ⟨fun s a => (requestStep s a).map fun s' => (s', ())⟩

abbrev RequestTrace (ι : Type) : Type := List (RequestAct ι × Unit)

/-- No timer is pending, no callback runs, and no client is between its mark and the end
of its `RequestSave`. -/
def Quiescent (s : RequestState ι) : Prop := s.callback = .idle ∧ ∀ i, s.client i = .idle

/-- What a step can do, with what it found. -/
inductive RequestMove [DecidableEq ι] (s : RequestState ι) :
    RequestAct ι → RequestState ι → Prop where
  | other {a : EpochAct ι} {e : EpochState} (hm : a.marker = none)
      (he : epochStep s.epoch a = some e) :
      RequestMove s (.other a) { s with epoch := e, callback := s.callback.after a }
  | mark {i : ι} {e : EpochState} (he : epochStep s.epoch (.mark i) = some e) :
      RequestMove s (.mark i)
        { s with epoch := e, client := Function.update s.client i .marked }
  | loadDirty {i : ι} :
      RequestMove s (.loadDirty i)
        { s with client := Function.update s.client i (.checking s.epoch.cache.dirty) }
  | dirty {i : ι} : RequestMove s (.loadPersisted i)
      { s with client := Function.update s.client i .dirty }
  | clean {i : ι} {d : Int} (hpc : s.client i = .checking d)
      (hd : d ≤ s.epoch.cache.persisted) : RequestMove s (.loadPersisted i)
        { s with client := Function.update s.client i .idle }
  | fails {i : ι} (hpc : s.client i = .dirty) (hset : s.saveScheduled = true) :
      RequestMove s (.compareAndSwap i) { s with client := Function.update s.client i .idle }
  | wins {i : ι} (hset : s.saveScheduled = false) : RequestMove s (.compareAndSwap i)
      { s with saveScheduled := true, client := Function.update s.client i .swapped }
  | afterFunc {i : ι} (hpc : s.client i = .swapped) : RequestMove s (.afterFunc i)
      { s with callback := .pending, client := Function.update s.client i .idle }
  | fire (hpc : s.callback = .pending) : RequestMove s .fire { s with callback := .fired }
  | callbackLoadDirty (hpc : s.callback = .fired) : RequestMove s .callbackLoadDirty
      { s with callback := .checking s.epoch.cache.dirty }
  | callbackDirty {d : Int} {e : EpochState} (hpc : s.callback = .checking d)
      (he : epochStep s.epoch (.check : EpochAct ι) = some e) :
      RequestMove s .callbackLoadPersisted { s with epoch := e, callback := .waiting }
  | callbackClean {d : Int} (hpc : s.callback = .checking d)
      (hd : d ≤ s.epoch.cache.persisted) :
      RequestMove s .callbackLoadPersisted { s with callback := .clearing }
  | callbackLock {e : EpochState} (hpc : s.callback = .waiting)
      (he : epochStep s.epoch (.lock : EpochAct ι) = some e) :
      RequestMove s .callbackLock { s with epoch := e, callback := .saving }
  | clear (hpc : s.callback = .clearing) :
      RequestMove s .clear { s with callback := .idle, saveScheduled := false }

theorem RequestState.marker_of_allows {s : RequestState ι} {a : EpochAct ι}
    (h : s.allows a = true) : a.marker = none := by
  cases a with
  | mark j => cases h
  | _ => rfl

theorem requestStep_move [DecidableEq ι] {s s' : RequestState ι} {x : RequestAct ι}
    (hs : requestStep s x = some s') : RequestMove s x s' := by
  cases x with
  | other a =>
      simp only [requestStep] at hs
      split at hs
      next hallow =>
        obtain ⟨e, he, rfl⟩ := Option.map_eq_some_iff.mp hs
        exact .other (RequestState.marker_of_allows hallow) he
      · cases hs
  | mark i =>
      simp only [requestStep] at hs
      split at hs
      · obtain ⟨e, he, rfl⟩ := Option.map_eq_some_iff.mp hs
        exact .mark he
      · cases hs
  | loadDirty i =>
      simp only [requestStep] at hs
      split at hs
      · cases hs
        exact .loadDirty
      · cases hs
  | loadPersisted i =>
      simp only [requestStep] at hs
      split at hs
      next d hpc =>
        cases hs
        split
        · exact .dirty
        next hclean => exact .clean hpc (not_lt.mp hclean)
      · cases hs
  | compareAndSwap i =>
      simp only [requestStep] at hs
      split at hs
      next hpc =>
        split at hs
        next hset =>
          cases hs
          exact .fails hpc hset
        next hset =>
          cases hs
          exact .wins (Bool.eq_false_iff.mpr hset)
      · cases hs
  | afterFunc i =>
      simp only [requestStep] at hs
      split at hs
      next hpc _ =>
        cases hs
        exact .afterFunc hpc
      · cases hs
  | callbackLoadPersisted =>
      simp only [requestStep] at hs
      split at hs
      next d hpc =>
        split at hs
        · obtain ⟨e, he, rfl⟩ := Option.map_eq_some_iff.mp hs
          exact .callbackDirty hpc he
        next hclean =>
          cases hs
          exact .callbackClean hpc (not_lt.mp hclean)
      · cases hs
  | callbackLock =>
      simp only [requestStep] at hs
      split at hs
      next hpc =>
        obtain ⟨e, he, rfl⟩ := Option.map_eq_some_iff.mp hs
        exact .callbackLock hpc he
      · cases hs
  | fire | callbackLoadDirty | clear =>
      simp only [requestStep] at hs
      split at hs
      next hpc =>
        cases hs
        constructor
        exact hpc
      · cases hs

/-! ## Who sees to a mark -/

/-- The `Save` under way has not read its watermark, or it counts everything up to `d`. -/
def SaverPc.Covers (d : Int) : SaverPc → Prop
  | .idle => False
  | .locked => True
  | .marked w | .ranging w _ _ _ | .writing w _ _ | .renamed w => d ≤ w

def CallbackPc.Covers (saver : SaverPc) (d : Int) : CallbackPc → Prop
  | .idle | .clearing => False
  | .pending | .fired | .waiting => True
  | .checking d' => d ≤ d'
  | .saving => saver.Covers d

def ClientPc.Covers (d : Int) : ClientPc → Prop
  | .idle => False
  | .marked | .dirty | .swapped => True
  | .checking d' => d ≤ d'

/-- Everything marked is persisted, or a client or the callback will see to it. -/
def Covered (s : RequestState ι) : Prop :=
  s.epoch.cache.dirty ≤ s.epoch.cache.persisted ∨
    (∃ i, (s.client i).Covers s.epoch.cache.dirty) ∨
    s.callback.Covers s.epoch.saver s.epoch.cache.dirty

/-- The save that is scheduled counts every mark so far: its timer is not armed or has
not fired, or it has not read the counter, or nothing was marked since it has. -/
def WillCount (s : RequestState ι) : Prop :=
  (∃ i, s.client i = .swapped) ∨ s.callback.Covers s.epoch.saver s.epoch.cache.dirty

/-- A request that finds the flag set finds its mark counted. -/
def FailsCounted (_ : RequestTrace ι) (s : RequestState ι) (a : RequestAct ι) : Prop :=
  ∀ i, a = .compareAndSwap i → s.saveScheduled = true → WillCount s

section Epochs

variable {tr : EpochTrace ι} {e e' : EpochState} {a : EpochAct ι}

/-- The watermark of a `Save` is not behind the persistent one. -/
theorem EpochInv.persisted_le (h : EpochInv tr e) {w : Int} (hpc : e.saver = .renamed w) :
    e.cache.persisted ≤ w := by
  obtain ⟨tr₀, hset, hcol⟩ := h.settled
  rw [hpc] at hcol
  cases hcol with
  | renamed h0 _ hw _ _ =>
      have hle := marks_le h0
      rw [hset.persisted, hw]
      omega

/-- **What a step other than a mark does to the counters.** The last step of a `Save`
moves the persistent watermark, and the callback may go on; a `Save` that covers the
counter keeps doing so until then. -/
theorem epochStep_counters (hm : a.marker = none) (hs : epochStep e a = some e') :
    e'.cache.dirty = e.cache.dirty ∧
      (((∀ p : CallbackPc, p.after a = p) ∧ e'.cache.persisted = e.cache.persisted ∧
          (e.saver.Covers e.cache.dirty → e'.saver.Covers e.cache.dirty)) ∨
        ∃ w, a = .persist ∧ e.saver = .renamed w ∧ e'.cache.persisted = w) := by
  cases a with
  | mark i => cases hm
  | put i key x =>
      cases hs
      exact ⟨rfl, .inl ⟨fun _ => rfl, rfl, id⟩⟩
  | delete i key =>
      cases hs
      exact ⟨rfl, .inl ⟨fun _ => rfl, rfl, id⟩⟩
  | check =>
      cases hs
      split <;> exact ⟨rfl, .inl ⟨fun _ => rfl, rfl, id⟩⟩
  | lock =>
      simp only [epochStep] at hs
      split at hs
      next hpc =>
        split at hs
        · cases hs
          exact ⟨rfl, .inl ⟨fun _ => rfl, rfl, fun _ => trivial⟩⟩
        · cases hs
      · cases hs
  | watermark =>
      simp only [epochStep] at hs
      split at hs
      · cases hs
        exact ⟨rfl, .inl ⟨fun _ => rfl, rfl, fun _ => le_refl e.cache.dirty⟩⟩
      · cases hs
  | snapshot now =>
      simp only [epochStep] at hs
      split at hs
      next w hpc =>
        cases hs
        rw [hpc]
        exact ⟨rfl, .inl ⟨fun _ => rfl, rfl, id⟩⟩
      · cases hs
  | read key =>
      simp only [epochStep] at hs
      split at hs
      next w now l snap hpc =>
        obtain ⟨found, -, rfl⟩ := Option.map_eq_some_iff.mp hs
        rw [hpc]
        exact ⟨rfl, .inl ⟨fun _ => rfl, rfl, id⟩⟩
      · cases hs
  | endRange =>
      simp only [epochStep] at hs
      split at hs
      next w now l snap hpc =>
        split at hs
        · cases hs
          rw [hpc]
          exact ⟨rfl, .inl ⟨fun _ => rfl, rfl, id⟩⟩
        · cases hs
      · cases hs
  | replace savedAt =>
      simp only [epochStep] at hs
      split at hs
      next w now snap hpc =>
        cases hs
        rw [hpc]
        exact ⟨rfl, .inl ⟨fun _ => rfl, rfl, id⟩⟩
      · cases hs
  | persist =>
      simp only [epochStep] at hs
      split at hs
      next w hpc =>
        cases hs
        exact ⟨rfl, .inr ⟨w, rfl, hpc, rfl⟩⟩
      · cases hs

theorem epochStep_lock (hs : epochStep e (.lock : EpochAct ι) = some e') :
    e'.saver = .locked := by
  simp only [epochStep] at hs
  split at hs
  · split at hs
    · cases hs
      rfl
    · cases hs
  · cases hs

end Epochs

/-! ## The invariant -/

/-- The saves are a run of the machine of saves, and every mark is seen to. -/
structure RequestInv (s : RequestState ι) : Prop where
  epoch : ∃ tr : EpochTrace ι, (epochMachine ι).Run {} tr s.epoch
  covered : Covered s

section Invariant

variable {s s' : RequestState ι} {e : EpochState} {a : EpochAct ι} {i : ι}

theorem CallbackPc.after_of_ne_saving {p : CallbackPc} (h : p ≠ .saving) :
    p.after a = p := by
  cases a with
  | persist => exact if_neg h
  | _ => rfl

/-- Until the callback saves, it does not matter where a `Save` is. -/
theorem CallbackPc.Covers.of_ne_saving {p : CallbackPc} {saver saver' : SaverPc} {d : Int}
    (h : p.Covers saver d) (hp : p ≠ .saving) : p.Covers saver' d := by
  cases p with
  | saving => exact absurd rfl hp
  | _ => exact h

theorem RequestInv.snoc_epoch (h : RequestInv s) (hs : epochStep s.epoch a = some e) :
    ∃ tr : EpochTrace ι, (epochMachine ι).Run {} tr e := by
  obtain ⟨tr, hrun⟩ := h.epoch
  refine ⟨tr ++ [(a, ())], hrun.snoc ?_⟩
  simp only [epochMachine, hs]
  rfl

/-- A client that covers everything. -/
theorem Covered.of_client {p : ClientPc} (hp : s.client i = p)
    (hcov : p.Covers s.epoch.cache.dirty) : Covered s :=
  .inr (.inl ⟨i, hp ▸ hcov⟩)

/-- **A step of a `Save`, or a change.** -/
theorem RequestInv.other (h : RequestInv s) (hm : a.marker = none)
    (hs : epochStep s.epoch a = some e) :
    RequestInv { s with epoch := e, callback := s.callback.after a } := by
  refine ⟨h.snoc_epoch hs, ?_⟩
  obtain ⟨tr, hrun⟩ := h.epoch
  obtain ⟨hdirty, hcase⟩ := epochStep_counters hm hs
  have hpersisted : s.epoch.cache.persisted ≤ e.cache.persisted := by
    rcases hcase with ⟨-, hsame, -⟩ | ⟨w, -, hpc, hw⟩
    · exact hsame.ge
    · exact hw ▸ (epochInv_run hrun).persisted_le hpc
  simp only [Covered, hdirty]
  rcases h.covered with hclean | ⟨j, hj⟩ | hcb
  · exact .inl (le_trans hclean hpersisted)
  · exact .inr (.inl ⟨j, hj⟩)
  · by_cases hp : s.callback = .saving
    · rw [hp] at hcb ⊢
      rcases hcase with ⟨hafter, -, hsaver⟩ | ⟨w, rfl, hpc, hw⟩
      · rw [hafter]
        exact .inr (.inr (hsaver hcb))
      · -- The watermark that becomes persistent covers the counter.
        rw [hpc] at hcb
        exact .inl (hw ▸ hcb)
    · rw [CallbackPc.after_of_ne_saving hp]
      exact .inr (.inr (hcb.of_ne_saving hp))

variable [DecidableEq ι]

/-- One client moves. The others go on; the one that moves has to be asked. -/
theorem Covered.move (h : Covered s) {p : ClientPc}
    (hmove : (s.client i).Covers s.epoch.cache.dirty →
      Covered { s with client := Function.update s.client i p }) :
    Covered { s with client := Function.update s.client i p } := by
  rcases h with hclean | ⟨j, hj⟩ | hcb
  · exact .inl hclean
  · by_cases hji : j = i
    · subst hji
      exact hmove hj
    · exact .of_client (Function.update_of_ne hji p s.client) hj
  · exact .inr (.inr hcb)

/-- The client in front of its `CompareAndSwap` is not the one that arms the timer, and
may leave. -/
theorem WillCount.covered (h : WillCount s) (hpc : s.client i = .dirty) (p : ClientPc) :
    Covered { s with client := Function.update s.client i p } := by
  rcases h with ⟨j, hj⟩ | hcb
  · have hji : j ≠ i := by
      rintro rfl
      rw [hpc] at hj
      cases hj
    refine .of_client (Function.update_of_ne hji p s.client) ?_
    rw [hj]
    trivial
  · exact .inr (.inr hcb)

theorem RequestInv.step {tr : RequestTrace ι} {x : RequestAct ι} (h : RequestInv s)
    (hfails : FailsCounted tr s x) (hmove : RequestMove s x s') : RequestInv s' := by
  cases hmove with
  | other hm he => exact h.other hm he
  | mark he => exact ⟨h.snoc_epoch he, .of_client (Function.update_self ..) trivial⟩
  | loadDirty =>
      exact ⟨h.epoch, .of_client (Function.update_self ..) (le_refl s.epoch.cache.dirty)⟩
  | dirty => exact ⟨h.epoch, .of_client (Function.update_self ..) trivial⟩
  | clean hpc hd =>
      refine ⟨h.epoch, h.covered.move fun hcov => ?_⟩
      -- It loaded the counter before, and nothing was marked since.
      rw [hpc] at hcov
      exact .inl (le_trans hcov hd)
  | fails hpc hset => exact ⟨h.epoch, (hfails _ rfl hset).covered hpc .idle⟩
  | wins => exact ⟨h.epoch, .of_client (Function.update_self ..) trivial⟩
  | afterFunc | fire => exact ⟨h.epoch, .inr (.inr trivial)⟩
  | callbackLoadDirty => exact ⟨h.epoch, .inr (.inr (le_refl s.epoch.cache.dirty))⟩
  | callbackDirty _ he => exact ⟨h.snoc_epoch he, .inr (.inr trivial)⟩
  | callbackClean hpc hd =>
      refine ⟨h.epoch, ?_⟩
      rcases h.covered with hc | hc | hc
      · exact .inl hc
      · exact .inr (.inl hc)
      · rw [hpc] at hc
        exact .inl (le_trans hc hd)
  | callbackLock _ he =>
      refine ⟨h.snoc_epoch he, .inr (.inr ?_)⟩
      simp only [CallbackPc.Covers, epochStep_lock he, SaverPc.Covers]
  | clear hpc =>
      refine ⟨h.epoch, ?_⟩
      rcases h.covered with hc | hc | hc
      · exact .inl hc
      · exact .inr (.inl hc)
      · rw [hpc] at hc
        exact hc.elim

theorem requestInv_run {tr : RequestTrace ι}
    (hrun : (requestMachine ι).Meets FailsCounted {} tr s) : RequestInv s := by
  refine hrun.invariant (I := fun _ s => RequestInv s)
    ⟨⟨[], .nil⟩, .inl (le_refl _)⟩ ?_
  intro tr s x s' _ h hfails hs
  obtain ⟨s₁, hs₁, heq⟩ := Option.map_eq_some_iff.mp hs
  cases heq
  exact h.step hfails (requestStep_move hs₁)

end Invariant

/-! ## The flag -/

/-- The flag is set from the `CompareAndSwap` that wins until the callback has cleared
it, and one client at most is about to arm the timer. -/
structure Scheduled (s : RequestState ι) : Prop where
  unset : s.saveScheduled = false → s.callback = .idle ∧ ∀ i, s.client i ≠ .swapped
  arming : ∀ i, s.client i = .swapped →
    s.callback = .idle ∧ ∀ j, s.client j = .swapped → j = i
  loaded : ∀ d, s.callback = .checking d → d ≤ s.epoch.cache.dirty

section Flag

variable {s s' : RequestState ι} {i : ι}

/-- The callback moves, and with it the entries and the counters. -/
theorem Scheduled.callback (h : Scheduled s) {e : EpochState} {p : CallbackPc}
    (hbusy : s.callback ≠ .idle ∨ p = .idle)
    (hloaded : ∀ d, p = .checking d → d ≤ e.cache.dirty) :
    Scheduled { s with epoch := e, callback := p } := by
  have hidle : s.callback = .idle → p = .idle := fun hc => hbusy.resolve_left fun hne => hne hc
  exact ⟨fun hf => ⟨hidle (h.unset hf).1, (h.unset hf).2⟩,
    fun j hj => ⟨hidle (h.arming j hj).1, (h.arming j hj).2⟩, hloaded⟩

/-- A step of a `Save` or a change leaves the flag and what was loaded. -/
theorem Scheduled.other (h : Scheduled s) {a : EpochAct ι} {e : EpochState}
    (hdirty : s.epoch.cache.dirty ≤ e.cache.dirty) :
    Scheduled { s with epoch := e, callback := s.callback.after a } := by
  by_cases hp : s.callback = .saving
  · refine h.callback (.inl (by rw [hp]; nofun)) fun d hd => ?_
    rw [hp] at hd
    cases a <;> cases hd
  · rw [CallbackPc.after_of_ne_saving hp]
    refine h.callback ?_ fun d hd => le_trans (h.loaded d hd) hdirty
    exact ne_or_eq s.callback .idle

/-- The callback ends: nobody was arming the timer beside it. -/
theorem Scheduled.clear (h : Scheduled s) (hpc : s.callback = .clearing) :
    Scheduled { s with callback := .idle, saveScheduled := false } := by
  have hnone : ∀ j, s.client j ≠ .swapped := by
    intro j hj
    have hidle := (h.arming j hj).1
    rw [hpc] at hidle
    cases hidle
  exact ⟨fun _ => ⟨rfl, hnone⟩, fun j hj => absurd hj (hnone j), nofun⟩

variable [DecidableEq ι]

/-- A client that does not set the flag moves. -/
theorem Scheduled.move (h : Scheduled s) {p : ClientPc} (hp : p ≠ .swapped) :
    Scheduled { s with client := Function.update s.client i p } := by
  have hstill : ∀ j, Function.update s.client i p j = .swapped → s.client j = .swapped := by
    intro j hj
    by_cases hji : j = i
    · subst hji
      rw [Function.update_self] at hj
      exact absurd hj hp
    · rwa [Function.update_of_ne hji] at hj
  refine ⟨fun hf => ⟨(h.unset hf).1, fun j hj => (h.unset hf).2 j (hstill j hj)⟩,
    fun j hj => ?_, h.loaded⟩
  obtain ⟨hidle, huniq⟩ := h.arming j (hstill j hj)
  exact ⟨hidle, fun k hk => huniq k (hstill k hk)⟩

/-- The winner of the `CompareAndSwap` is alone. -/
theorem Scheduled.win (h : Scheduled s) (hset : s.saveScheduled = false) :
    Scheduled { s with
      saveScheduled := true, client := Function.update s.client i .swapped } := by
  obtain ⟨hidle, hnone⟩ := h.unset hset
  have honly : ∀ j, Function.update s.client i .swapped j = .swapped → j = i := by
    intro j hj
    by_contra hji
    rw [Function.update_of_ne hji] at hj
    exact hnone j hj
  exact ⟨nofun, fun j hj => ⟨hidle, fun k hk => (honly k hk).trans (honly j hj).symm⟩, h.loaded⟩

/-- It arms the timer, and is not there any more. -/
theorem Scheduled.arm (h : Scheduled s) (hpc : s.client i = .swapped) :
    Scheduled { s with callback := .pending, client := Function.update s.client i .idle } := by
  have hnone : ∀ j, Function.update s.client i .idle j ≠ .swapped := by
    intro j hj
    by_cases hji : j = i
    · subst hji
      rw [Function.update_self] at hj
      cases hj
    · rw [Function.update_of_ne hji] at hj
      exact hji ((h.arming i hpc).2 j hj)
  exact ⟨fun hf => absurd hpc ((h.unset hf).2 i), fun j hj => absurd hj (hnone j), nofun⟩

theorem Scheduled.step {x : RequestAct ι} (h : Scheduled s) (hmove : RequestMove s x s') :
    Scheduled s' := by
  cases hmove with
  | other hm he => exact h.other (epochStep_counters hm he).1.ge
  | @mark i e he =>
      cases he
      have hmoved : Scheduled { s with client := Function.update s.client i .marked } :=
        h.move nofun
      refine hmoved.callback (ne_or_eq s.callback .idle) fun d hd => ?_
      exact Int.le_add_one (h.loaded d hd)
  | loadDirty | dirty | clean | fails => exact h.move nofun
  | wins hset => exact h.win hset
  | afterFunc hpc => exact h.arm hpc
  | callbackLoadDirty hpc =>
      refine h.callback (.inl (by rw [hpc]; nofun)) fun d hd => ?_
      cases hd
      exact le_refl _
  | fire hpc | callbackDirty hpc | callbackClean hpc | callbackLock hpc =>
      exact h.callback (.inl (by rw [hpc]; nofun)) nofun
  | clear hpc => exact h.clear hpc

omit [DecidableEq ι] in
theorem scheduled_start : Scheduled ({} : RequestState ι) where
  unset _ := ⟨rfl, fun _ h => by cases h⟩
  arming _ h := by cases h
  loaded _ h := by cases h

theorem scheduled_run {tr : RequestTrace ι} (hrun : (requestMachine ι).Run {} tr s) :
    Scheduled s := by
  refine hrun.invariant (I := fun _ s => Scheduled s) scheduled_start ?_
  intro tr s x s' _ h hs
  obtain ⟨s₁, hs₁, heq⟩ := Option.map_eq_some_iff.mp hs
  cases heq
  exact h.step (requestStep_move hs₁)

/-- The winner of the `CompareAndSwap` finds no timer and no callback in its way. -/
theorem afterFunc_enabled {tr : RequestTrace ι} (hrun : (requestMachine ι).Run {} tr s)
    (hpc : s.client i = .swapped) : (requestStep s (.afterFunc i)).isSome := by
  have hidle := ((scheduled_run hrun).arming i hpc).1
  simp only [requestStep, hpc, hidle, Option.isSome_some]

/-- The callback that loaded a counter above the persistent watermark does find the
cache dirty, although marks and other saves may have come since. -/
theorem callback_finds_dirty {tr : RequestTrace ι} (hrun : (requestMachine ι).Run {} tr s)
    {d : Int} (hpc : s.callback = .checking d) (hd : d > s.epoch.cache.persisted) :
    s.epoch.cache.isDirty = true :=
  decide_eq_true (lt_of_lt_of_le hd ((scheduled_run hrun).loaded d hpc))

end Flag

/-! ## Quiet stores -/

/-- **Every request is served**, when every request that finds the flag set finds its
mark counted: a quiet store has nothing left to persist. -/
theorem quiescent_clean [DecidableEq ι] {s : RequestState ι} {tr : RequestTrace ι}
    (hrun : (requestMachine ι).Meets FailsCounted {} tr s) (hq : Quiescent s) :
    s.epoch.cache.isDirty = false := by
  obtain ⟨hidle, hclients⟩ := hq
  rcases (requestInv_run hrun).covered with hclean | ⟨i, hi⟩ | hcb
  · exact decide_eq_false (not_lt.mpr hclean)
  · rw [hclients i] at hi
    exact hi.elim
  · rw [hidle] at hcb
    exact hcb.elim

/-- A change whose request arms the timer, and the callback up to the mutex. -/
def armedRequest : List (RequestAct Unit) :=
  [.other (.put () [1] (freshEntry { capturedAt := 5 } profileTTL)), .mark (), .loadDirty (),
    .loadPersisted (), .compareAndSwap (), .afterFunc (), .fire, .callbackLoadDirty,
    .callbackLoadPersisted, .callbackLock]

/-- A change whose request finds the flag set. -/
def lateRequest : List (RequestAct Unit) :=
  [.other (.put () [2] (freshEntry { capturedAt := 6 } profileTTL)), .mark (), .loadDirty (),
    .loadPersisted (), .compareAndSwap ()]

/-- `Save` from its watermark to the end of its snapshot. -/
def snapshotReads (keys : List Bytes) : List (RequestAct Unit) :=
  [.other .watermark, .other (.snapshot 10)] ++ keys.map (fun k => .other (.read k)) ++
    [.other .endRange]

/-- The rest of it, and of the callback. -/
def callbackEnds : List (RequestAct Unit) := [.other (.replace 12), .other .persist, .clear]

/-- A `CompareAndSwap` is tried when the callback is idle, or has the mutex and no
watermark. -/
def lockedCheck (s : RequestState Unit) : RequestAct Unit → Bool
  | .compareAndSwap _ =>
      !s.saveScheduled || match s.epoch.saver with
        | .locked => s.callback = .saving
        | _ => false
  | _ => true

theorem failsCounted_of_lockedCheck {s : RequestState Unit} {a : RequestAct Unit}
    (h : lockedCheck s a = true) (tr : RequestTrace Unit) : FailsCounted tr s a := by
  rintro i rfl hset
  simp only [lockedCheck, hset, Bool.not_true, Bool.false_or] at h
  split at h
  next hlocked =>
    refine .inr ?_
    simp only [of_decide_eq_true h, hlocked, CallbackPc.Covers, SaverPc.Covers]
  · cases h

/-- The second change comes before the watermark, and the save under way counts it. -/
theorem quiescent_clean_two_marks : ∃ tr s,
    (requestMachine Unit).Meets FailsCounted {} tr s ∧ Quiescent s ∧
      s.epoch.cache.dirty = 2 ∧ s.epoch.cache.isDirty = false := by
  obtain ⟨tr, s, hmeets, hcallback, hclient, hdirty⟩ : ∃ tr s,
      (requestMachine Unit).Meets FailsCounted {} tr s ∧
      s.callback = .idle ∧ s.client () = .idle ∧ s.epoch.cache.dirty = 2 :=
    Machine.Meets.exists_of_exec lockedCheck
      (armedRequest ++ lateRequest ++ snapshotReads [[1], [2]] ++ callbackEnds)
      (fun _ _ tr _ h => failsCounted_of_lockedCheck h tr) (by decide +kernel)
  have hq : Quiescent s := ⟨hcallback, fun _ => hclient⟩
  exact ⟨tr, s, hmeets, hq, hdirty, quiescent_clean hmeets hq⟩

/-- The second change comes behind the snapshot. Its request finds the flag set, the
save makes the first mark persistent, and nothing is scheduled for the second: the store
is quiet and dirty, and the file does not have the key. -/
theorem request_lost_behind_watermark : ∃ tr s,
    (requestMachine Unit).Run {} tr s ∧ Quiescent s ∧ s.saveScheduled = false ∧
      s.epoch.cache.dirty = 2 ∧ s.epoch.cache.persisted = 1 ∧
      s.epoch.cache.isDirty = true ∧ (s.epoch.cache.load [2]).isSome ∧
      s.epoch.saved.all (fun f => (f.file.profiles.lookup [2]).isNone) = true := by
  obtain ⟨tr, s, hrun, hcallback, hclient, hrest⟩ : ∃ tr s,
      (requestMachine Unit).Run {} tr s ∧
      s.callback = .idle ∧ s.client () = .idle ∧ s.saveScheduled = false ∧
      s.epoch.cache.dirty = 2 ∧ s.epoch.cache.persisted = 1 ∧
      s.epoch.cache.isDirty = true ∧ (s.epoch.cache.load [2]).isSome ∧
      s.epoch.saved.all (fun f => (f.file.profiles.lookup [2]).isNone) = true :=
    Machine.Run.exists_of_exec
      (armedRequest ++ snapshotReads [[1]] ++ lateRequest ++ callbackEnds) (by decide +kernel)
  exact ⟨tr, s, hrun, ⟨hcallback, fun _ => hclient⟩, hrest⟩

end Reality
