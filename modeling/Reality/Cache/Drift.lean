import Reality.Cache.Concurrent

/-!
# The counter of entries under concurrent calls

`stats.ProfileEntries` is moved by its own atomic addition, before or after the
operation on the map it stands for. Between the two the counter is off by what
the call still has to add (`owes`). With that counted in, the counter is exact,
as long as each addition is what the operation on the map really changed.

`LoadOrStore` and `CompareAndDelete` tell the call what they changed. `Store`
and `Delete` do not, and the calls that use them add a FIXED number.
-/

namespace Reality

open Kit Threads

/-- What a call has yet to add for operations that are done. -/
def CachePc.owes : CachePc → Int
  | .count n next => n + next.owes
  | .mark next => next.owes
  | .unlock _ next => next.owes
  | _ => 0

def CachePc.isIdle : CachePc → Bool
  | .idle => true
  | _ => false

/-- What the unconditional operations have to find. `HotSwapProfile` is the call that
stores a valid entry, and the key has to be there; `MarkNegative` and `Quarantine` store
entries of other states, and it must not be. The deletions of the sweep, of `evictIfFull`
and of `InvalidateAll` have to find the key. -/
def CountsRight (s : CacheShared) : CachePc → Prop
  | .store key e _ => key ∈ s.entries ↔ e.state = .valid
  | .delete key _ => key ∈ s.entries
  | _ => True

/-- What a call adds behind a `Store` or a `Delete`. -/
def CachePc.Counted : CachePc → Prop
  | .store _ e next => next.owes = (if e.state = .valid then 0 else 1) ∧ next.Counted
  | .delete _ next => next.owes = -1 ∧ next.Counted
  | .count _ next => next.Counted
  | .mark next => next.Counted
  | .unlock _ next => next.Counted
  | _ => True

/-- How far the counter is ahead of the map. -/
def CacheShared.lead (s : CacheShared) : Int := s.profileEntries - size s.entries

namespace CacheShared

variable {s : CacheShared} {key : Bytes}

theorem lead_store (s : CacheShared) (key : Bytes) (e : ProfileEntry) :
    (s.store key e).lead = s.lead - if key ∈ s.entries then 0 else 1 := by
  unfold lead
  by_cases hk : key ∈ s.entries
  · have hsize : size (s.store key e).entries = size s.entries := size_insert hk _
    rw [if_pos hk, hsize]
    simp [store]
  · have hsize : size (s.store key e).entries = size s.entries + 1 := size_insert_new hk _
    rw [if_neg hk, hsize]
    simp only [store]
    omega

theorem lead_delete (s : CacheShared) (key : Bytes) :
    (s.delete key).lead = s.lead - if key ∈ s.entries then -1 else 0 := by
  unfold lead
  by_cases hk : key ∈ s.entries
  · have hsize : size (s.delete key).entries + 1 = size s.entries := size_erase hk
    rw [if_pos hk]
    simp only [delete] at hsize ⊢
    omega
  · rw [if_neg hk, delete, erase_of_notMem hk]
    simp

end CacheShared

/-! ## One step -/

/-- A step that only looks: the counter and the map are as before, nothing is owed, and
what the call does next counts as it should. -/
structure Looked (s s' : CacheShared) (p' : CachePc) : Prop where
  lead : s'.lead = s.lead
  owes : p'.owes = 0
  counted : p'.Counted

theorem getLocked_looked (s : CacheShared) (key : Bytes) (r : Ref) (e : ProfileEntry) (now : Int) :
    Looked s (getLocked s key r e now).1 (getLocked s key r e now).2 := by
  unfold getLocked
  split
  · split
    · exact ⟨rfl, rfl, trivial⟩
    · split <;> exact ⟨rfl, rfl, trivial⟩
  · split
    · exact ⟨rfl, rfl, trivial⟩
    · exact ⟨rfl, rfl, rfl, trivial⟩
  · exact ⟨rfl, rfl, trivial⟩

theorem useLocked_looked (s : CacheShared) (key : Bytes) (r : Ref) (e : ProfileEntry) (now : Int)
    (use : EntryUse) :
    Looked s (useLocked s key r e now use).1 (useLocked s key r e now use).2 := by
  cases use with
  | observe obs =>
      simp only [useLocked]
      split <;> exact ⟨rfl, rfl, trivial⟩
  | get => exact getLocked_looked s key r e now
  | _ => exact ⟨rfl, rfl, trivial⟩

theorem missed_looked (s : CacheShared) (use : EntryUse) (key : Bytes) (ttl : Int) :
    Looked s s (use.missed key ttl) := by
  cases use <;> exact ⟨rfl, rfl, trivial⟩

theorem start_looked (s : CacheShared) (c : ConcurrentCall) : Looked s s (c.start s) := by
  cases c with
  | storeObservation key obs =>
      simp only [ConcurrentCall.start]
      split <;> exact ⟨rfl, rfl, trivial⟩
  -- The entry that is swapped in is a valid one.
  | hotSwapProfile key p => exact ⟨rfl, rfl, rfl, trivial⟩
  | _ => exact ⟨rfl, rfl, trivial⟩

theorem visitState_looked (s : CacheShared) (l : RangeLoop Bytes) (acc : CacheManager.EvictScan)
    (key : Bytes) (r : Ref) (state : ProfileState) : Looked s s (visitState l acc key r state) := by
  cases state <;> exact ⟨rfl, rfl, trivial⟩

section Steps

variable {s s' : CacheShared} {p' : CachePc} {a : CacheAct} {key : Bytes} {r : Ref}
  {l : RangeLoop Bytes} {acc : CacheManager.EvictScan}

/-- The steps of a `Range`: the next key, or the end of the loop. -/
theorem rangeStep_looked {goOn : RangeLoop Bytes × Option Ref → CachePc}
    (hgo : ∀ found, Looked s s (goOn found))
    (h : (l.look s.entries key).map (fun found => (s, goOn found)) = some (s', p')) :
    Looked s s' p' := by
  obtain ⟨found, -, heq⟩ := Option.map_eq_some_iff.mp h
  cases heq
  exact hgo found

theorem idleStep_looked (h : cachePcStep s .idle a = some (s', p')) : Looked s s' p' := by
  cases a with
  | call c =>
      cases h
      exact start_looked s c
  | _ => cases h

theorem loadStep_looked {use : EntryUse} (h : cachePcStep s (.load key use) a = some (s', p')) :
    Looked s s' p' := by
  cases a with
  | go =>
      unfold cachePcStep at h
      dsimp only at h
      split at h <;> cases h
      · exact ⟨rfl, rfl, trivial⟩
      · exact missed_looked s use key s.baseTTL
  | _ => cases h

theorem hitStep_looked {use : EntryUse} (h : cachePcStep s (.hit key r use) a = some (s', p')) :
    Looked s s' p' := by
  cases a with
  | clock now =>
      unfold cachePcStep at h
      dsimp only at h
      split at h
      · cases h
      -- The entry may be out of the map by now; what it holds is not counted.
      · obtain ⟨e, -, heq⟩ := Option.map_eq_some_iff.mp h
        have huse := useLocked_looked s key r e now use
        rwa [heq] at huse
  | _ => cases h

theorem findStep_looked (h : cachePcStep s (.find key) a = some (s', p')) : Looked s s' p' := by
  cases a with
  | go =>
      unfold cachePcStep at h
      dsimp only at h
      split at h <;> cases h <;> exact ⟨rfl, rfl, trivial⟩
  | _ => cases h

theorem negativeNewStep_looked (h : cachePcStep s (.negativeNew key) a = some (s', p')) :
    Looked s s' p' := by
  cases a with
  | clock now =>
      cases h
      exact ⟨rfl, rfl, rfl, trivial⟩
  | _ => cases h

theorem quarantineNewStep_looked (h : cachePcStep s (.quarantineNew key) a = some (s', p')) :
    Looked s s' p' := by
  cases a with
  | clock now =>
      cases h
      exact ⟨rfl, rfl, rfl, trivial⟩
  | _ => cases h

theorem gateStep_looked (h : cachePcStep s .gate a = some (s', p')) : Looked s s' p' := by
  cases a with
  | go =>
      unfold cachePcStep at h
      dsimp only at h
      split at h <;> cases h <;> exact ⟨rfl, rfl, trivial⟩
  | _ => cases h

theorem scanStep_looked (h : cachePcStep s (.scan l acc) a = some (s', p')) :
    Looked s s' p' := by
  cases a with
  | look key =>
      refine rangeStep_looked (fun found => ?_) h
      cases found.2 <;> exact ⟨rfl, rfl, trivial⟩
  | go =>
      unfold cachePcStep at h
      dsimp only at h
      split at h
      · cases h
      · split at h <;> cases h
        · exact ⟨rfl, rfl, rfl, trivial⟩
        · exact ⟨rfl, rfl, trivial⟩
  | _ => cases h

theorem visitStep_looked (h : cachePcStep s (.visit l acc key r) a = some (s', p')) :
    Looked s s' p' := by
  cases a with
  | go =>
      unfold cachePcStep at h
      dsimp only at h
      split at h
      · cases h
      · obtain ⟨e, -, heq⟩ := Option.map_eq_some_iff.mp h
        cases heq
        exact visitState_looked s l acc key r e.state
  | _ => cases h

theorem compareStep_looked (h : cachePcStep s (.compare l acc key r) a = some (s', p')) :
    Looked s s' p' := by
  cases a with
  | go =>
      unfold cachePcStep at h
      dsimp only at h
      split at h
      · cases h
        exact ⟨rfl, rfl, trivial⟩
      · obtain ⟨e, -, heq⟩ := Option.map_eq_some_iff.mp h
        split at heq <;> cases heq
        · exact ⟨rfl, rfl, trivial⟩
        · split <;> exact ⟨rfl, rfl, trivial⟩
  | _ => cases h

theorem noteStep_looked (h : cachePcStep s (.note l acc key r) a = some (s', p')) :
    Looked s s' p' := by
  cases a with
  | go =>
      obtain ⟨e, -, heq⟩ := Option.map_eq_some_iff.mp h
      split at heq <;> cases heq <;> exact ⟨rfl, rfl, trivial⟩
  | _ => cases h

theorem allStep_looked (h : cachePcStep s (.all l) a = some (s', p')) : Looked s s' p' := by
  cases a with
  | look key =>
      refine rangeStep_looked (fun found => ?_) h
      cases found.2 with
      | none => exact ⟨rfl, rfl, trivial⟩
      | some r => exact ⟨rfl, rfl, rfl, trivial⟩
  | go =>
      unfold cachePcStep at h
      dsimp only at h
      split at h <;> cases h
      exact ⟨rfl, rfl, trivial⟩
  | _ => cases h

end Steps

/-- The next step only looks at the map and the counter. -/
def CachePc.looks : CachePc → Bool
  | .compareAndDelete .. | .loadOrStore .. | .store .. | .delete .. | .count .. | .mark ..
  | .unlock .. => false
  | _ => true

theorem CachePc.owes_of_looks {p : CachePc} (h : p.looks = true) : p.owes = 0 := by
  cases p with
  | count => cases h
  | mark => cases h
  | unlock => cases h
  | _ => rfl

theorem cachePcStep_looks {s s' : CacheShared} {p p' : CachePc} {a : CacheAct}
    (hp : p.looks = true) (h : cachePcStep s p a = some (s', p')) : Looked s s' p' := by
  cases p with
  | idle => exact idleStep_looked h
  | load => exact loadStep_looked h
  | hit => exact hitStep_looked h
  | find => exact findStep_looked h
  | negativeNew => exact negativeNewStep_looked h
  | quarantineNew => exact quarantineNewStep_looked h
  | gate => exact gateStep_looked h
  | scan => exact scanStep_looked h
  | visit => exact visitStep_looked h
  | compare => exact compareStep_looked h
  | note => exact noteStep_looked h
  | all => exact allStep_looked h
  | _ => cases hp

/-- **One step keeps the balance** of counter, map and what the call owes, and what the
call does next counts as it should. -/
theorem cachePcStep_lead {s s' : CacheShared} {p p' : CachePc} {a : CacheAct}
    (hc : CountsRight s p) (hp : p.Counted) (h : cachePcStep s p a = some (s', p')) :
    s'.lead + p'.owes = s.lead + p.owes ∧ p'.Counted := by
  by_cases hlooks : p.looks = true
  · have hlooked := cachePcStep_looks hlooks h
    rw [hlooked.lead, hlooked.owes, CachePc.owes_of_looks hlooks]
    exact ⟨rfl, hlooked.counted⟩
  -- Each of the others is a step of the call itself, with no choice left.
  cases a with
  | go =>
      cases p with
      | compareAndDelete key r =>
          simp only [cachePcStep] at h
          split at h <;> cases h
          next hfound =>
            have hmem : key ∈ s.entries := by
              rw [← AList.lookup_isSome, hfound]
              rfl
            rw [CacheShared.lead_delete, if_pos hmem]
            simp [CachePc.owes, CachePc.Counted]
          · exact ⟨rfl, trivial⟩
      | loadOrStore key e =>
          simp only [cachePcStep] at h
          split at h <;> cases h
          · exact ⟨rfl, trivial⟩
          next hnew =>
            rw [CacheShared.lead_store, if_neg hnew]
            simp [CachePc.owes, CachePc.Counted]
      | store key e next =>
          cases h
          have hadds : p'.owes = if e.state = .valid then 0 else 1 := hp.1
          have hfinds : key ∈ s.entries ↔ e.state = .valid := hc
          rw [CacheShared.lead_store, hadds]
          simp only [hfinds]
          exact ⟨by simp [CachePc.owes], hp.2⟩
      | delete key next =>
          cases h
          have hadds : p'.owes = -1 := hp.1
          have hfinds : key ∈ s.entries := hc
          rw [CacheShared.lead_delete, hadds, if_pos hfinds]
          exact ⟨by simp [CachePc.owes], hp.2⟩
      | count n next =>
          cases h
          simp only [CacheShared.lead, CachePc.owes]
          exact ⟨by omega, hp⟩
      | mark next => cases h; exact ⟨rfl, hp⟩
      | unlock r next => cases h; exact ⟨rfl, hp⟩
      | _ => exact absurd rfl hlooks
  | _ => cases p <;> first | exact absurd rfl hlooks | cases h

theorem cacheProgram_eq_some {ι : Type} {i : ι} {s s' : CacheShared} {p p' : CachePc}
    {a : CacheAct} {u : Unit} (h : cacheProgram i s p a = some (s', p', u)) :
    cachePcStep s p a = some (s', p') := by
  obtain ⟨⟨sh, q⟩, hr, heq⟩ := Option.map_eq_some_iff.mp h
  cases heq
  exact hr

/-! ## Whole runs -/

section Runs

variable {ι : Type} [DecidableEq ι] [Fintype ι]

/-- **The counter is exact when nobody is calling**, after every interleaving in
which `HotSwapProfile` finds its key present, `MarkNegative` and `Quarantine` store at an
absent key, and every unconditional `Delete` finds the key. -/
theorem entries_counted {tr : List ((ι × CacheAct) × Unit)} {s : CacheThreads ι}
    (h : (concurrentMachine ι).Meets (fun _ s x => CountsRight s.shared (s.pc x.1))
      (cacheThreadsStart ι) tr s)
    (hidle : ∀ i, (s.pc i).isIdle = true) :
    s.shared.profileEntries = size s.shared.entries := by
  have hbalance : (∀ i, (s.pc i).Counted) ∧ s.shared.lead + tally CachePc.owes s.pc = 0 := by
    refine h.invariant
      (I := fun _ s => (∀ i, (s.pc i).Counted) ∧ s.shared.lead + tally CachePc.owes s.pc = 0)
      ?_ ?_
    -- Nobody owes anything at the start, and each step moves lead and debt together.
    · have hzero : tally CachePc.owes (cacheThreadsStart ι).pc = 0 := tally_eq_zero fun _ => rfl
      rw [hzero]
      exact ⟨fun _ => trivial, rfl⟩
    · intro tr s x s' u hi hc hs
      obtain ⟨hcounted, hsum⟩ := hi
      obtain ⟨p', hP, hpc⟩ := step_eq_some hs
      have hmine := cachePcStep_lead hc (hcounted x.1) (cacheProgram_eq_some hP)
      refine ⟨forall_pc hpc hmine.2 fun j _ => hcounted j, ?_⟩
      have hstep := balance_step CacheShared.lead CachePc.owes (d := 0) hs fun q hQ => by
        rw [add_zero]
        exact (cachePcStep_lead hc (hcounted x.1) (cacheProgram_eq_some hQ)).1
      rw [hstep, hsum, add_zero]
  have hzero : tally CachePc.owes s.pc = 0 := by
    refine tally_eq_zero fun i => ?_
    have hi := hidle i
    cases hp : s.pc i with
    | idle => rfl
    | _ => rw [hp] at hi; cases hi
  have hsum := hbalance.2
  rw [hzero, CacheShared.lead] at hsum
  omega

end Runs

def countsCheck (s : CacheThreads Bool) (x : Bool × CacheAct) : Bool :=
  match s.pc x.1 with
  | .store key e _ => decide (key ∈ s.shared.entries ↔ e.state = .valid)
  | .delete key _ => decide (key ∈ s.shared.entries)
  | _ => true

theorem countsRight_of_check {s : CacheThreads Bool} {x : Bool × CacheAct}
    (h : countsCheck s x = true) : CountsRight s.shared (s.pc x.1) := by
  unfold countsCheck at h
  cases hp : s.pc x.1 with
  | store key e next =>
      rw [hp] at h
      have hfinds : key ∈ s.shared.entries ↔ e.state = .valid := of_decide_eq_true h
      exact hfinds
  | delete key next =>
      rw [hp] at h
      have hfinds : key ∈ s.shared.entries := of_decide_eq_true h
      exact hfinds
  | _ => trivial

/-- A profile is stored while another key is marked negative, a minute later that key is
swept, and the profile is swapped for another. -/
def storeAndSweep : List (Bool × CacheAct) :=
  [(false, .call (.storeProfile [1] {})), (true, .call (.markNegative [2])), (true, .go),
    (false, .go), (true, .clock 0), (true, .go), (false, .go), (true, .go), (false, .go),
    (false, .go), (true, .call (.getProfile [2])), (true, .go), (true, .clock minute),
    (true, .go), (true, .go), (true, .go), (false, .call (.hotSwapProfile [1] {})), (false, .go),
    (false, .go)]

theorem entries_counted_swept :
    ∃ tr s, (concurrentMachine Bool).Meets (fun _ s x => CountsRight s.shared (s.pc x.1))
        (cacheThreadsStart Bool) tr s ∧ (∀ i, (s.pc i).isIdle = true) ∧
      size s.shared.entries = 1 ∧ s.shared.profileEntries = size s.shared.entries := by
  obtain ⟨tr, s, hrun, hidle, hsize⟩ : ∃ tr s,
      (concurrentMachine Bool).Meets (fun _ s x => CountsRight s.shared (s.pc x.1))
        (cacheThreadsStart Bool) tr s ∧ (∀ i, (s.pc i).isIdle = true) ∧
      size s.shared.entries = 1 := by
    refine Machine.Meets.exists_of_exec countsCheck storeAndSweep
      (fun _ _ _ _ => countsRight_of_check) ?_
    decide +kernel
  exact ⟨tr, s, hrun, hidle, hsize, entries_counted hrun hidle⟩

/-- A swap of an absent key leaves the counter one short. Two failed probes of
one key, both of which found it absent, leave it one ahead. -/
theorem counter_drifts :
    (∃ tr s, (concurrentMachine Bool).Run (cacheThreadsStart Bool) tr s ∧
      (∀ i, (s.pc i).isIdle = true) ∧
      s.shared.profileEntries = 0 ∧ size s.shared.entries = 1) ∧
    ∃ tr s, (concurrentMachine Bool).Run (cacheThreadsStart Bool) tr s ∧
      (∀ i, (s.pc i).isIdle = true) ∧
      s.shared.profileEntries = 2 ∧ size s.shared.entries = 1 := by
  constructor
  · refine Machine.Run.exists_of_exec
      [(false, .call (.hotSwapProfile [1] {})), (false, .go), (false, .go)] ?_
    decide +kernel
  · refine Machine.Run.exists_of_exec
      [(false, .call (.markNegative [1])), (true, .call (.markNegative [1])), (false, .go),
        (true, .go), (false, .clock 0), (true, .clock 0), (false, .go), (true, .go),
        (false, .go), (true, .go)] ?_
    decide +kernel

end Reality
