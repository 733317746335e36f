import Reality.Kit.Bytes
import Reality.Kit.Threads

/-!
# Probes that are shared

`DoProbe` and `doHandshakeProbe` (cache_manager.go): of the calls with one key that
overlap, one runs its `fn` and the others wait for it. The first to `LoadOrStore` its
flight CREATES it; whoever finds one JOINS it. The creator runs `fn`, writes the
result into the flight, closes its channel and takes it out of the map, and each of
these is a step of its own: a late call may join a flight that has landed, and one that
comes later still creates another.

A call allocates one flight, whether it will be used or not, so that flights are named
by the calls that allocate them. The map is a lock that names its owner: the entry of a
key is there exactly while its creator is between `LoadOrStore` and `Delete`.
-/

namespace Reality

open Kit Threads

/-! ## The machine -/

/-- Which of the two functions is called. Each has a map of its own; `DoProbe` counts. -/
inductive FlightKind where
  | probe
  | handshake
  deriving DecidableEq

/-- `stats.ProbeAttempts` and `stats.ProbeSuccesses` are of `DoProbe` only. -/
def FlightKind.counts : FlightKind → Bool
  | .probe => true
  | .handshake => false

/-- What `fmt.Errorf` puts before the value of a panic. -/
def FlightKind.panicText : FlightKind → Bytes
  | .probe => str "REALITY probe panic: "
  | .handshake => str "REALITY handshake probe panic: "

/-- How `fn` ends. A panic comes with the text `%v` makes of its value. -/
inductive FnEnd (ρ ε : Type) where
  | returned (value : Option ρ) (err : Option ε)
  | panicked (shown : Bytes)
  deriving DecidableEq

/-- An error of `fn`, or the one that is made of its panic. -/
inductive FlightError (ε : Type) where
  | own (e : ε)
  | panicked (text : Bytes)
  deriving DecidableEq

/-- One call, and what its `fn` does if it is the one to run. -/
structure FlightCall (ρ ε : Type) where
  kind : FlightKind
  key : Bytes
  fn : FnEnd ρ ε

/-- `DoProbe(key, fn)` -/
def doProbe {ρ ε : Type} (key : Bytes) (fn : FnEnd ρ ε) : FlightCall ρ ε := ⟨.probe, key, fn⟩

/-- `doHandshakeProbe(key, fn)` -/
def doHandshakeProbe {ρ ε : Type} (key : Bytes) (fn : FnEnd ρ ε) : FlightCall ρ ε :=
  ⟨.handshake, key, fn⟩

/-- `probeFlight`; pointers are nil or what they point to. -/
structure ProbeFlight (ρ ε : Type) where
  value : Option ρ := none
  err : Option (FlightError ε) := none
  done : Bool := false
  deriving DecidableEq

structure FlightShared (ι ρ ε : Type) where
  /-- The flight each call allocates. -/
  flight : ι → ProbeFlight ρ ε := fun _ => {}
  /-- The maps `singleflight` and `handshakeSF`. -/
  flights : FlightKind × Bytes → Option ι := fun _ => none
  probeAttempts : UInt64 := 0
  probeSuccesses : UInt64 := 0

/-- Where a call is. -/
inductive FlightPc (ι : Type) where
  | idle
  | storing
  /-- It created its flight, and `fn` runs. -/
  | running
  | landed
  | recovering (shown : Bytes)
  | closing
  | deleting
  | leaving
  | left
  /-- It joined the flight of `j`. -/
  | waiting (j : ι)
  | awake (j : ι)
  | joined (j : ι)
  | returned (j : ι)
  deriving DecidableEq

/-- What a step shows. -/
inductive FlightEvent (ι ρ ε : Type) where
  | created
  | joined (j : ι)
  | returned (value : Option ρ) (err : Option (FlightError ε))
  | quiet
  deriving DecidableEq

variable {ι ρ ε : Type}

/-- The map and the key of a call. -/
def FlightCall.slot (c : FlightCall ρ ε) : FlightKind × Bytes := (c.kind, c.key)

/-- What the flight of a call holds when it is closed. -/
def FlightCall.result (c : FlightCall ρ ε) : Option ρ × Option (FlightError ε) :=
  match c.fn with
  | .returned value err => (value, err.map .own)
  | .panicked shown => (none, some (.panicked (c.kind.panicText ++ shown)))

namespace FlightShared

/-- `stats.ProbeAttempts.Add(1)` -/
def attempt (s : FlightShared ι ρ ε) (kind : FlightKind) : FlightShared ι ρ ε :=
  if kind.counts then { s with probeAttempts := s.probeAttempts + 1 } else s

/-- `stats.ProbeSuccesses.Add(1)`, when there is no error. -/
def succeed (s : FlightShared ι ρ ε) (kind : FlightKind) (err : Option (FlightError ε)) :
    FlightShared ι ρ ε :=
  if kind.counts && err.isNone then { s with probeSuccesses := s.probeSuccesses + 1 } else s

variable [DecidableEq ι]

def write (s : FlightShared ι ρ ε) (i : ι) (value : Option ρ) (err : Option (FlightError ε)) :
    FlightShared ι ρ ε :=
  { s with flight := Function.update s.flight i { s.flight i with value, err } }

/-- `close(flight.done)` -/
def close (s : FlightShared ι ρ ε) (i : ι) : FlightShared ι ρ ε :=
  { s with flight := Function.update s.flight i { s.flight i with done := true } }

end FlightShared

/-- A call, as the source has it; the two functions differ in what `FlightKind` says. -/
def flightStep [DecidableEq ι] (i : ι) (c : FlightCall ρ ε) (s : FlightShared ι ρ ε) :
    FlightPc ι → Option (FlightShared ι ρ ε × FlightPc ι × FlightEvent ι ρ ε)
  | .idle => some (s.attempt c.kind, .storing, .quiet)
  | .storing =>
      match s.flights c.slot with
      | some j => some (s, .waiting j, .joined j)
      | none =>
          some ({ s with flights := Function.update s.flights c.slot (some i) }, .running, .created)
  | .waiting j => if (s.flight j).done then some (s, .awake j, .quiet) else none
  | .awake j => some (s.succeed c.kind (s.flight j).err, .joined j, .quiet)
  | .joined j => some (s, .returned j, .returned (s.flight j).value (s.flight j).err)
  | .returned _ => none
  | .running =>
      match c.fn with
      | .returned value err => some (s.write i value (err.map .own), .landed, .quiet)
      -- The assignment is not reached, and the deferred function recovers.
      | .panicked shown => some (s, .recovering shown, .quiet)
  | .landed => some (s.succeed c.kind (s.flight i).err, .closing, .quiet)
  | .recovering shown =>
      some (s.write i none (some (.panicked (c.kind.panicText ++ shown))), .closing, .quiet)
  -- A channel that is closed twice panics.
  | .closing => if (s.flight i).done then none else some (s.close i, .deleting, .quiet)
  | .deleting =>
      some ({ s with flights := Function.update s.flights c.slot none }, .leaving, .quiet)
  | .leaving => some (s, .left, .returned (s.flight i).value (s.flight i).err)
  | .left => none

abbrev FlightState (ι ρ ε : Type) : Type := Threads ι (FlightShared ι ρ ε) (FlightPc ι)

def flightProgram [DecidableEq ι] (calls : ι → FlightCall ρ ε) (i : ι)
    (s : FlightShared ι ρ ε) (p : FlightPc ι) (_ : Unit) :
    Option (FlightShared ι ρ ε × FlightPc ι × FlightEvent ι ρ ε) :=
  flightStep i (calls i) s p

/-- The calls `ι`, in any order. -/
def flightMachine [DecidableEq ι] (calls : ι → FlightCall ρ ε) :
    Machine (FlightState ι ρ ε) ι (FlightEvent ι ρ ε) :=
  ⟨fun s i => s.step (flightProgram calls) i ()⟩

/-- Nothing is called yet. -/
def noFlights : FlightState ι ρ ε := ⟨{}, fun _ => .idle⟩

abbrev FlightTrace (ι ρ ε : Type) : Type := List (ι × FlightEvent ι ρ ε)

/-! ## What a step does -/

namespace FlightPc

/-- It created its flight. -/
def creator : FlightPc ι → Bool
  | .idle | .storing | .waiting _ | .awake _ | .joined _ | .returned _ => false
  | .running | .landed | .recovering _ | .closing | .deleting | .leaving | .left => true

/-- Its flight is in the map. -/
def holds : FlightPc ι → Bool
  | .running | .landed | .recovering _ | .closing | .deleting => true
  | _ => false

/-- The flight it has joined. -/
def follows : FlightPc ι → Option ι
  | .waiting j | .awake j | .joined j | .returned j => some j
  | _ => none

/-- The flight whose channel it has seen closed. -/
def sees : FlightPc ι → Option ι
  | .awake j | .joined j | .returned j => some j
  | _ => none

/-- What its own flight holds. -/
def flight (c : FlightCall ρ ε) : FlightPc ι → ProbeFlight ρ ε
  | .landed | .closing => { value := c.result.1, err := c.result.2 }
  | .deleting | .leaving | .left => { value := c.result.1, err := c.result.2, done := true }
  | _ => {}

/-- Its own flight holds that, and what it recovers is the panic of `fn`. -/
def Fits (c : FlightCall ρ ε) (p : FlightPc ι) (f : ProbeFlight ρ ε) : Prop :=
  f = p.flight c ∧ ∀ shown, p = .recovering shown → c.fn = .panicked shown

/-- The entry of the maps it holds. -/
def slot (c : FlightCall ρ ε) (p : FlightPc ι) : Option (FlightKind × Bytes) :=
  if p.holds then some c.slot else none

/-- It has returned. -/
def Over : FlightPc ι → Prop
  | .left | .returned _ => True
  | _ => False

theorem creator_of_holds {p : FlightPc ι} (h : p.holds = true) : p.creator = true := by
  cases p with
  | idle | storing | leaving | left | waiting | awake | joined | returned => cases h
  | _ => rfl

/-- A call that created its flight has joined none. -/
theorem follows_of_creator {p : FlightPc ι} (h : p.creator = true) : p.follows = none := by
  cases p with
  | idle | storing | waiting | awake | joined | returned => cases h
  | _ => rfl

end FlightPc

@[simp] theorem FlightShared.flight_attempt (s : FlightShared ι ρ ε) (kind : FlightKind) :
    (s.attempt kind).flight = s.flight := by
  unfold FlightShared.attempt
  split <;> rfl

@[simp] theorem FlightShared.flights_attempt (s : FlightShared ι ρ ε) (kind : FlightKind) :
    (s.attempt kind).flights = s.flights := by
  unfold FlightShared.attempt
  split <;> rfl

@[simp] theorem FlightShared.flight_succeed (s : FlightShared ι ρ ε) (kind : FlightKind)
    (err : Option (FlightError ε)) : (s.succeed kind err).flight = s.flight := by
  unfold FlightShared.succeed
  split <;> rfl

@[simp] theorem FlightShared.flights_succeed (s : FlightShared ι ρ ε) (kind : FlightKind)
    (err : Option (FlightError ε)) : (s.succeed kind err).flights = s.flights := by
  unfold FlightShared.succeed
  split <;> rfl

section Step

variable {i : ι} {c : FlightCall ρ ε} {sh sh' : FlightShared ι ρ ε}
  {p p' : FlightPc ι} {b : FlightEvent ι ρ ε}

theorem slot_move_keep (hheld : p'.slot c = p.slot c) (hflights : sh'.flights = sh.flights) :
    LockMove i (p.slot c) (p'.slot c) sh.flights sh'.flights := by
  rw [hheld, hflights]
  exact .keep

/-- Flights that stay are right for every place that says the same of them. -/
theorem flights_keep (hflight : sh'.flight = sh.flight) (hsame : p'.flight c = p.flight c)
    (hnot : ∀ shown, p' ≠ .recovering shown) :
    (∀ j ≠ i, sh'.flight j = sh.flight j) ∧
      (p.Fits c (sh.flight i) → p'.Fits c (sh'.flight i)) := by
  refine ⟨fun j _ => by rw [hflight], fun hfits => ⟨?_, fun shown hs => absurd hs (hnot shown)⟩⟩
  rw [hflight, hsame]
  exact hfits.1

variable [DecidableEq ι]

/-- One flight is written. -/
theorem flights_update {f : ProbeFlight ρ ε} (hflight : sh'.flight = Function.update sh.flight i f)
    (hown : p.Fits c (sh.flight i) → f = p'.flight c) (hnot : ∀ shown, p' ≠ .recovering shown) :
    (∀ j ≠ i, sh'.flight j = sh.flight j) ∧
      (p.Fits c (sh.flight i) → p'.Fits c (sh'.flight i)) := by
  rw [hflight]
  refine ⟨fun j hj => Function.update_of_ne hj f sh.flight, fun hfits => ⟨?_, ?_⟩⟩
  · rw [Function.update_self]
    exact hown hfits
  · exact fun shown hs => absurd hs (hnot shown)

/-- **The maps.** An entry is taken when it is free, and given back by its owner. -/
theorem flightStep_slots (h : flightStep i c sh p = some (sh', p', b)) :
    LockMove i (p.slot c) (p'.slot c) sh.flights sh'.flights := by
  cases p with
  | storing =>
      simp only [flightStep] at h
      split at h
      · cases h
        exact slot_move_keep rfl rfl
      next hfree =>
        cases h
        exact .acquire hfree
  | deleting =>
      cases h
      exact .release
  | running =>
      simp only [flightStep] at h
      split at h <;> cases h <;> exact slot_move_keep rfl rfl
  | closing =>
      simp only [flightStep] at h
      split at h
      · cases h
      · cases h
        exact slot_move_keep rfl rfl
  | waiting j =>
      simp only [flightStep] at h
      split at h
      · cases h
        exact slot_move_keep rfl rfl
      · cases h
  | left | returned j => cases h
  | idle | landed | recovering shown | leaving | awake j | joined j =>
      cases h
      exact slot_move_keep rfl (by simp [FlightShared.write])

/-- **The flights.** A call writes its own one, and closes it with the result of `fn`. -/
theorem flightStep_flights (h : flightStep i c sh p = some (sh', p', b)) :
    (∀ j ≠ i, sh'.flight j = sh.flight j) ∧
      (p.Fits c (sh.flight i) → p'.Fits c (sh'.flight i)) := by
  cases p with
  | storing =>
      simp only [flightStep] at h
      split at h <;> cases h <;> exact flights_keep rfl rfl nofun
  | running =>
      simp only [flightStep] at h
      split at h
      next value err hfn =>
        cases h
        refine flights_update rfl (fun hfits => ?_) nofun
        rw [hfits.1]
        simp only [FlightPc.flight, FlightCall.result, hfn]
      next shown hfn =>
        cases h
        refine ⟨fun _ _ => rfl, fun hfits => ⟨hfits.1, fun shown' hs => ?_⟩⟩
        cases hs
        exact hfn
  | recovering shown =>
      cases h
      refine flights_update rfl (fun hfits => ?_) nofun
      rw [hfits.1]
      simp only [FlightPc.flight, FlightCall.result, hfits.2 shown rfl]
  | closing =>
      simp only [flightStep] at h
      split at h
      · cases h
      · cases h
        refine flights_update rfl (fun hfits => ?_) nofun
        rw [hfits.1]
        rfl
  | waiting j =>
      simp only [flightStep] at h
      split at h
      · cases h
        exact flights_keep rfl rfl nofun
      · cases h
  | left | returned j => cases h
  | idle | landed | deleting | leaving | awake j | joined j =>
      cases h
      exact flights_keep (by simp) rfl nofun

/-- What a call knows after a step, it knew before or has learnt from the step. -/
structure FlightLearns (i : ι) (c : FlightCall ρ ε) (sh : FlightShared ι ρ ε)
    (p p' : FlightPc ι) (b : FlightEvent ι ρ ε) : Prop where
  created : p'.creator = true ↔ p.creator = true ∨ b = .created
  follows : ∀ j, p'.follows = some j ↔ p.follows = some j ∨ b = .joined j
  found : ∀ j, b = .joined j → sh.flights c.slot = some j
  sees : ∀ j, p'.sees = some j → p.sees = some j ∨ (sh.flight j).done = true
  returned : ∀ value err, b = .returned value err →
    (p = .leaving ∧ (value, err) = ((sh.flight i).value, (sh.flight i).err)) ∨
      ∃ j, p = .joined j ∧ (value, err) = ((sh.flight j).value, (sh.flight j).err)

/-- A call that has returned takes no step, and the event is the last one. -/
theorem flightStep_over (h : flightStep i c sh p = some (sh', p', b)) :
    ¬ p.Over ∧ (p'.Over ↔ ∃ value err, b = .returned value err) := by
  cases p with
  | left | returned j => cases h
  | leaving | joined j =>
      cases h
      exact ⟨id, fun _ => ⟨_, _, rfl⟩, fun _ => trivial⟩
  | storing | running | closing | waiting j =>
      simp only [flightStep] at h
      split at h <;> cases h <;> exact ⟨id, False.elim, nofun⟩
  | idle | landed | recovering shown | deleting | awake j =>
      cases h
      exact ⟨id, False.elim, nofun⟩

/-- A closed channel stays closed. -/
theorem flightStep_done (h : flightStep i c sh p = some (sh', p', b))
    (hdone : (p.flight c).done = true) : (p'.flight c).done = true := by
  cases p with
  | deleting | leaving =>
      cases h
      rfl
  | left => cases h
  | _ => cases hdone

theorem flightStep_learns (h : flightStep i c sh p = some (sh', p', b)) :
    FlightLearns i c sh p p' b := by
  have hquiet : ∀ {p p' : FlightPc ι}, p'.creator = p.creator → p'.follows = p.follows →
      (∀ j, p'.sees = some j → p.sees = some j ∨ (sh.flight j).done = true) →
      FlightLearns i c sh p p' .quiet := by
    intro p p' hcreator hfollows hsees
    exact ⟨by simp [hcreator], by simp [hfollows], nofun, hsees, nofun⟩
  cases p with
  | storing =>
      simp only [flightStep] at h
      split at h
      next j hj =>
        cases h
        refine ⟨by simp [FlightPc.creator], fun j' => ?_, fun j' hj' => ?_, nofun, nofun⟩
        · simp [FlightPc.follows]
        · cases hj'
          exact hj
      · cases h
        exact ⟨by simp [FlightPc.creator], by simp [FlightPc.follows], nofun, nofun, nofun⟩
  | running =>
      simp only [flightStep] at h
      split at h <;> cases h <;> exact hquiet rfl rfl nofun
  | closing =>
      simp only [flightStep] at h
      split at h
      · cases h
      · cases h
        exact hquiet rfl rfl nofun
  | leaving =>
      cases h
      refine ⟨by simp [FlightPc.creator], by simp [FlightPc.follows], nofun, nofun, ?_⟩
      intro value err hb
      cases hb
      exact .inl ⟨rfl, rfl⟩
  | waiting j =>
      simp only [flightStep] at h
      split at h
      next hdone =>
        cases h
        refine hquiet rfl rfl fun j' hj' => .inr ?_
        cases hj'
        exact hdone
      · cases h
  | joined j =>
      cases h
      refine ⟨by simp [FlightPc.creator], by simp [FlightPc.follows], nofun, fun _ => .inl, ?_⟩
      intro value err hb
      cases hb
      exact .inr ⟨j, rfl, rfl⟩
  | left | returned j => cases h
  | idle | landed | recovering shown | deleting | awake j =>
      cases h
      exact hquiet rfl rfl fun _ => .inl

end Step

/-! ## Whole runs -/

/-- Call `i` creates its flight, or joins the one that `j` has created. -/
def Boards (tr : FlightTrace ι ρ ε) (i j : ι) : Prop :=
  (j = i ∧ (i, .created) ∈ tr) ∨ ((i, .joined j) ∈ tr ∧ (j, .created) ∈ tr)

structure FlightInv (calls : ι → FlightCall ρ ε) (tr : FlightTrace ι ρ ε)
    (s : FlightState ι ρ ε) : Prop where
  owned : Owned (fun i => (s.pc i).slot (calls i)) s.shared.flights
  named : NamesHolder (fun i => (s.pc i).slot (calls i)) s.shared.flights
  fits : ∀ i, (s.pc i).Fits (calls i) (s.shared.flight i)
  created : ∀ i, (s.pc i).creator = true ↔ (i, .created) ∈ tr
  joined : ∀ i j, (s.pc i).follows = some j ↔ (i, .joined j) ∈ tr
  follows : ∀ i j, (s.pc i).follows = some j →
    (calls j).slot = (calls i).slot ∧ (s.pc j).creator = true
  sees : ∀ i j, (s.pc i).sees = some j → (s.shared.flight j).done = true
  ended : ∀ i, (s.pc i).Over ↔ ∃ value err, (i, .returned value err) ∈ tr
  told : ∀ i value err, (i, .returned value err) ∈ tr →
    ∃ j, Boards tr i j ∧ (calls j).slot = (calls i).slot ∧ (value, err) = (calls j).result

section Invariant

variable {calls : ι → FlightCall ρ ε} {tr : FlightTrace ι ρ ε} {s s' : FlightState ι ρ ε}
  {i j : ι} {b : FlightEvent ι ρ ε}

theorem Boards.append (h : Boards tr i j) (x : ι × FlightEvent ι ρ ε) : Boards (tr ++ [x]) i j := by
  rcases h with ⟨hij, hc⟩ | ⟨hj, hc⟩
  · exact .inl ⟨hij, List.mem_append_left _ hc⟩
  · exact .inr ⟨List.mem_append_left _ hj, List.mem_append_left _ hc⟩

/-- A flight whose channel is closed holds the result of its creator's `fn`. -/
theorem FlightInv.published (h : FlightInv calls tr s)
    (hdone : (s.shared.flight j).done = true) :
    ((s.shared.flight j).value, (s.shared.flight j).err) = (calls j).result := by
  have hfits := (h.fits j).1
  rw [hfits] at hdone ⊢
  cases hpc : s.pc j with
  | deleting | leaving | left => rfl
  | _ =>
      rw [hpc] at hdone
      cases hdone

theorem flightInv_start : FlightInv calls [] (noFlights : FlightState ι ρ ε) where
  owned _ _ h := by cases h
  named _ _ h := by cases h
  fits _ := ⟨rfl, nofun⟩
  created _ := by simp [noFlights, FlightPc.creator]
  joined _ _ := by simp [noFlights, FlightPc.follows]
  follows _ _ h := by cases h
  sees _ _ h := by cases h
  ended _ := by simp [noFlights, FlightPc.Over]
  told _ _ _ h := by cases h

variable [DecidableEq ι]

section Step

variable {p' : FlightPc ι}
  (hP : flightStep i (calls i) s.shared (s.pc i) = some (s'.shared, p', b))
  (hpc : s'.pc = Function.update s.pc i p')

include hpc in
theorem flight_pc (k : ι) : (k = i ∧ s'.pc k = p') ∨ (k ≠ i ∧ s'.pc k = s.pc k) := by
  rw [hpc]
  by_cases hk : k = i
  · exact .inl ⟨hk, hk ▸ Function.update_self ..⟩
  · exact .inr ⟨hk, Function.update_of_ne hk p' s.pc⟩

variable (calls) in
include hpc in
theorem flight_slots : (fun k => (s'.pc k).slot (calls k))
    = Function.update (fun k => (s.pc k).slot (calls k)) i (p'.slot (calls i)) := by
  funext k
  rw [hpc]
  exact Function.apply_update (fun k (p : FlightPc ι) => p.slot (calls k)) s.pc i p' k

include hP hpc

theorem FlightInv.step_fits (h : FlightInv calls tr s) (k : ι) :
    (s'.pc k).Fits (calls k) (s'.shared.flight k) := by
  obtain ⟨hothers, hown⟩ := flightStep_flights hP
  rcases flight_pc hpc k with ⟨rfl, hk⟩ | ⟨hne, hk⟩
  · rw [hk]
    exact hown (h.fits k)
  · rw [hk, hothers k hne]
    exact h.fits k

theorem FlightInv.step_created (h : FlightInv calls tr s) (k : ι) :
    (s'.pc k).creator = true ↔ (k, .created) ∈ tr ++ [(i, b)] := by
  rw [List.mem_append, List.mem_singleton, ← h.created k]
  rcases flight_pc hpc k with ⟨rfl, hk⟩ | ⟨hne, hk⟩
  · rw [hk, (flightStep_learns hP).created, Prod.mk.injEq]
    simp only [true_and, eq_comm]
  · have hother : (k, FlightEvent.created) ≠ (i, b) := fun heq => hne (congrArg Prod.fst heq)
    rw [hk, or_iff_left hother]

/-- A channel that was closed is closed. -/
theorem FlightInv.step_done (h : FlightInv calls tr s) (k : ι)
    (hdone : (s.shared.flight k).done = true) : (s'.shared.flight k).done = true := by
  have hfits := (h.step_fits hP hpc k).1
  rcases flight_pc hpc k with ⟨rfl, hk⟩ | ⟨hne, hk⟩
  · rw [hfits, hk]
    rw [(h.fits k).1] at hdone
    exact flightStep_done hP hdone
  · rwa [(flightStep_flights hP).1 k hne]

theorem FlightInv.step_joined (h : FlightInv calls tr s) (k j : ι) :
    (s'.pc k).follows = some j ↔ (k, .joined j) ∈ tr ++ [(i, b)] := by
  rw [List.mem_append, List.mem_singleton, ← h.joined k j, Prod.mk.injEq]
  rcases flight_pc hpc k with ⟨rfl, hk⟩ | ⟨hne, hk⟩
  · rw [hk, (flightStep_learns hP).follows j]
    simp only [true_and, eq_comm]
  · rw [hk]
    simp only [hne, false_and, or_false]

theorem FlightInv.step_follows (h : FlightInv calls tr s) (k j : ι)
    (hj : (s'.pc k).follows = some j) :
    (calls j).slot = (calls k).slot ∧ (s'.pc j).creator = true := by
  have hstill : (s.pc j).creator = true → (s'.pc j).creator = true := by
    rw [h.created j, h.step_created hP hpc j]
    exact List.mem_append_left _
  have hbefore : (s.pc k).follows = some j →
      (calls j).slot = (calls k).slot ∧ (s'.pc j).creator = true := by
    intro hold
    obtain ⟨hslot, hcreator⟩ := h.follows k j hold
    exact ⟨hslot, hstill hcreator⟩
  rcases flight_pc hpc k with ⟨rfl, hk⟩ | ⟨-, hk⟩
  · rw [hk] at hj
    rcases ((flightStep_learns hP).follows j).mp hj with hold | hnew
    · exact hbefore hold
    · -- The entry it found is held by the one it names.
      have hholds := h.named j _ ((flightStep_learns hP).found j hnew)
      simp only [FlightPc.slot, Option.ite_none_right_eq_some, Option.some.injEq] at hholds
      exact ⟨hholds.2, hstill (FlightPc.creator_of_holds hholds.1)⟩
  · rw [hk] at hj
    exact hbefore hj

theorem FlightInv.step_sees (h : FlightInv calls tr s) (k j : ι)
    (hj : (s'.pc k).sees = some j) : (s'.shared.flight j).done = true := by
  refine h.step_done hP hpc j ?_
  rcases flight_pc hpc k with ⟨rfl, hk⟩ | ⟨-, hk⟩
  · rw [hk] at hj
    rcases (flightStep_learns hP).sees j hj with hold | hnow
    · exact h.sees k j hold
    · exact hnow
  · rw [hk] at hj
    exact h.sees k j hj

omit hpc in
/-- What a call returns is in the flight it boarded, and that is closed. -/
theorem FlightInv.step_returned (h : FlightInv calls tr s) {value : Option ρ}
    {err : Option (FlightError ε)} (hb : b = .returned value err) :
    ∃ j, Boards tr i j ∧ (calls j).slot = (calls i).slot ∧
      (value, err) = (calls j).result := by
  rcases (flightStep_learns hP).returned value err hb with ⟨hleaving, hread⟩ | ⟨j, hjoined, hread⟩
  · refine ⟨i, .inl ⟨rfl, (h.created i).mp ?_⟩, rfl, hread.trans (h.published ?_)⟩
    · rw [hleaving]
      rfl
    · rw [(h.fits i).1, hleaving]
      rfl
  · have hfollows : (s.pc i).follows = some j := by
      rw [hjoined]
      rfl
    obtain ⟨hslot, hcreator⟩ := h.follows i j hfollows
    refine ⟨j, .inr ⟨(h.joined i j).mp hfollows, (h.created j).mp hcreator⟩, hslot,
      hread.trans (h.published (h.sees i j ?_))⟩
    rw [hjoined]
    rfl

theorem FlightInv.step_ended (h : FlightInv calls tr s) (k : ι) :
    (s'.pc k).Over ↔ ∃ value err, (k, .returned value err) ∈ tr ++ [(i, b)] := by
  obtain ⟨hnot, hover⟩ := flightStep_over hP
  simp only [List.mem_append, List.mem_singleton, exists_or, ← h.ended k, Prod.mk.injEq]
  rcases flight_pc hpc k with ⟨rfl, hk⟩ | ⟨hne, hk⟩
  · rw [hk, hover, or_iff_right hnot]
    simp only [true_and, eq_comm]
  · rw [hk]
    simp only [hne, false_and, exists_false, or_false]

omit hpc in
theorem FlightInv.step_told (h : FlightInv calls tr s) (k : ι) (value : Option ρ)
    (err : Option (FlightError ε)) (hmem : (k, .returned value err) ∈ tr ++ [(i, b)]) :
    ∃ j, Boards (tr ++ [(i, b)]) k j ∧ (calls j).slot = (calls k).slot ∧
      (value, err) = (calls j).result := by
  rcases List.mem_append.mp hmem with hold | hnew
  · obtain ⟨j, hboards, hrest⟩ := h.told k value err hold
    exact ⟨j, hboards.append _, hrest⟩
  · obtain ⟨rfl, hb⟩ := Prod.mk.inj (List.mem_singleton.mp hnew)
    obtain ⟨j, hboards, hrest⟩ := h.step_returned hP hb.symm
    exact ⟨j, hboards.append _, hrest⟩

end Step

theorem FlightInv.step (h : FlightInv calls tr s)
    (hs : (flightMachine calls).step s i = some (s', b)) :
    FlightInv calls (tr ++ [(i, b)]) s' := by
  obtain ⟨p', hP, hpc⟩ : ∃ p', flightStep i (calls i) s.shared (s.pc i)
      = some (s'.shared, p', b) ∧ s'.pc = Function.update s.pc i p' := Threads.step_eq_some hs
  exact {
    owned := flight_slots calls hpc ▸ h.owned.move (flightStep_slots hP)
    named := flight_slots calls hpc ▸ h.named.move (flightStep_slots hP)
    fits := h.step_fits hP hpc
    created := h.step_created hP hpc
    joined := h.step_joined hP hpc
    follows := h.step_follows hP hpc
    sees := h.step_sees hP hpc
    ended := h.step_ended hP hpc
    told := h.step_told hP }

theorem flightInv_run (hrun : (flightMachine calls).Run noFlights tr s) :
    FlightInv calls tr s := by
  refine hrun.invariant flightInv_start ?_
  intro tr s i s' b h hs
  exact h.step hs

end Invariant

/-! ## Every call returns -/

section Progress

variable [DecidableEq ι] {calls : ι → FlightCall ρ ε} {i : ι} {sh sh' : FlightShared ι ρ ε}
  {p p' q : FlightPc ι} {b : FlightEvent ι ρ ε}

/-- By its own steps call `i` comes from `p` to `q`. -/
def ReachesAlone (calls : ι → FlightCall ρ ε) (i : ι) (sh : FlightShared ι ρ ε)
    (p q : FlightPc ι) : Prop :=
  ∃ tr sh', Solo (flightProgram calls) i sh p tr sh' q

theorem ReachesAlone.step (h : ReachesAlone calls i sh' p' q)
    (hs : flightStep i (calls i) sh p = some (sh', p', b)) : ReachesAlone calls i sh p q := by
  obtain ⟨tr, sh₂, hsolo⟩ := h
  exact ⟨((), b) :: tr, sh₂, .step hs hsolo⟩

theorem leaving_leaves (sh : FlightShared ι ρ ε) :
    ReachesAlone calls i sh .leaving .left :=
  ReachesAlone.step ⟨[], sh, .refl⟩ rfl

theorem deleting_leaves (sh : FlightShared ι ρ ε) :
    ReachesAlone calls i sh .deleting .left :=
  (leaving_leaves _).step rfl

/-- The channel is not closed before it is closed. -/
theorem closing_leaves (hfits : (FlightPc.closing : FlightPc ι).Fits (calls i) (sh.flight i)) :
    ReachesAlone calls i sh .closing .left := by
  refine (deleting_leaves (sh.close i)).step (b := .quiet) ?_
  simp only [flightStep, hfits.1, FlightPc.flight, Bool.false_eq_true, if_false]

theorem leaves_of_closing (hs : flightStep i (calls i) sh p = some (sh', .closing, b))
    (hfits : p.Fits (calls i) (sh.flight i)) : ReachesAlone calls i sh p .left :=
  (closing_leaves ((flightStep_flights hs).2 hfits)).step hs

/-- A creator is never in the way of itself. -/
theorem creator_leaves (hp : p.creator = true) (hfits : p.Fits (calls i) (sh.flight i)) :
    ReachesAlone calls i sh p .left := by
  cases p with
  | idle | storing | waiting | awake | joined | returned => cases hp
  | left => exact ⟨[], sh, .refl⟩
  | leaving => exact leaving_leaves sh
  | deleting => exact deleting_leaves sh
  | closing => exact closing_leaves hfits
  | landed => exact leaves_of_closing rfl hfits
  | recovering shown => exact leaves_of_closing rfl hfits
  | running =>
      cases hfn : (calls i).fn with
      | returned value err =>
          have hs : flightStep i (calls i) sh .running
              = some (sh.write i value (err.map .own), .landed, .quiet) := by
            simp only [flightStep, hfn]
          exact (leaves_of_closing rfl ((flightStep_flights hs).2 hfits)).step hs
      | panicked shown =>
          have hs : flightStep i (calls i) sh .running
              = some (sh, .recovering shown, .quiet) := by
            simp only [flightStep, hfn]
          exact (leaves_of_closing rfl ((flightStep_flights hs).2 hfits)).step hs

/-- A call that has joined returns, once the channel is closed. -/
theorem follower_returns {j : ι} (hp : p.follows = some j)
    (hdone : (sh.flight j).done = true) : ReachesAlone calls i sh p (.returned j) := by
  have hjoined : ∀ sh, ReachesAlone calls i sh (.joined j) (.returned j) :=
    fun sh => ReachesAlone.step ⟨[], sh, .refl⟩ rfl
  have hawake : ReachesAlone calls i sh (.awake j) (.returned j) := (hjoined _).step rfl
  cases p with
  | waiting k =>
      cases hp
      exact hawake.step (if_pos hdone)
  | awake k =>
      cases hp
      exact hawake
  | joined k =>
      cases hp
      exact hjoined sh
  | returned k =>
      cases hp
      exact ⟨[], sh, .refl⟩
  | _ => cases hp

variable {tr : FlightTrace ι ρ ε} {s s' : FlightState ι ρ ε}

/-- The run goes on so that call `i` returns. -/
def CanReturn (calls : ι → FlightCall ρ ε) (tr : FlightTrace ι ρ ε) (i : ι) : Prop :=
  ∃ tr' s', (flightMachine calls).Run noFlights (tr ++ tr') s' ∧ (s'.pc i).Over

theorem ReachesAlone.run (h : ReachesAlone calls i s.shared (s.pc i) q)
    (hrun : (flightMachine calls).Run noFlights tr s) :
    ∃ tr' sh', (flightMachine calls).Run noFlights (tr ++ tr') ⟨sh', Function.update s.pc i q⟩ := by
  obtain ⟨tr', sh', hsolo⟩ := h
  exact ⟨_, sh', hsolo.append_run (flightMachine calls) (fun _ => i) (fun _ _ => rfl) rfl rfl hrun⟩

theorem CanReturn.of_alone (h : ReachesAlone calls i s.shared (s.pc i) q) (hq : q.Over)
    (hrun : (flightMachine calls).Run noFlights tr s) : CanReturn calls tr i := by
  obtain ⟨tr', sh', hrun'⟩ := h.run hrun
  refine ⟨tr', _, hrun', ?_⟩
  show (Function.update s.pc i q i).Over
  rwa [Function.update_self]

theorem CanReturn.of_append {tr' : FlightTrace ι ρ ε} (h : CanReturn calls (tr ++ tr') i) :
    CanReturn calls tr i := by
  obtain ⟨tr₂, s', hrun, hover⟩ := h
  exact ⟨tr' ++ tr₂, s', List.append_assoc tr tr' tr₂ ▸ hrun, hover⟩

theorem creator_can_return (hrun : (flightMachine calls).Run noFlights tr s)
    (hp : (s.pc i).creator = true) : CanReturn calls tr i :=
  .of_alone (creator_leaves hp ((flightInv_run hrun).fits i)) trivial hrun

/-- **Nobody waits in vain**: the creator of the flight is not waiting for anybody. -/
theorem follower_can_return {j : ι} (hrun : (flightMachine calls).Run noFlights tr s)
    (hp : (s.pc i).follows = some j) : CanReturn calls tr i := by
  have hinv := flightInv_run hrun
  have hcreator := (hinv.follows i j hp).2
  have hij : i ≠ j := by
    rintro rfl
    rw [FlightPc.follows_of_creator hcreator] at hp
    cases hp
  obtain ⟨tr₁, sh₁, hrun₁⟩ := (creator_leaves hcreator (hinv.fits j)).run hrun
  have hdone : (sh₁.flight j).done = true := by
    have hfits := ((flightInv_run hrun₁).fits j).1
    simp only [Function.update_self] at hfits
    rw [hfits]
    rfl
  have hstill : (Function.update s.pc j .left i).follows = some j := by
    rwa [Function.update_of_ne hij]
  exact (CanReturn.of_alone (follower_returns hstill hdone) trivial hrun₁).of_append

theorem storing_can_return (hrun : (flightMachine calls).Run noFlights tr s)
    (hp : s.pc i = .storing) : CanReturn calls tr i := by
  cases hfound : s.shared.flights (calls i).slot with
  | some j =>
      have hstep : ReachesAlone calls i s.shared (s.pc i) (.waiting j) := by
        rw [hp]
        refine ReachesAlone.step (b := .joined j) ⟨[], s.shared, .refl⟩ ?_
        simp only [flightStep, hfound]
      obtain ⟨tr', sh', hrun'⟩ := hstep.run hrun
      refine (follower_can_return (j := j) hrun' ?_).of_append
      simp only [Function.update_self, FlightPc.follows]
  | none =>
      have hstep : ReachesAlone calls i s.shared (s.pc i) .running := by
        rw [hp]
        have hs : flightStep i (calls i) s.shared .storing = some
            ({ s.shared with flights := Function.update s.shared.flights (calls i).slot (some i) },
              .running, .created) := by
          simp only [flightStep, hfound]
        exact ReachesAlone.step ⟨[], _, .refl⟩ hs
      obtain ⟨tr', sh', hrun'⟩ := hstep.run hrun
      refine (creator_can_return hrun' ?_).of_append
      simp only [Function.update_self, FlightPc.creator]

/-- **Every call can return**, from everywhere in every run. -/
theorem call_can_return (hrun : (flightMachine calls).Run noFlights tr s) (i : ι) :
    CanReturn calls tr i := by
  cases hp : s.pc i with
  | idle =>
      have hstep : ReachesAlone calls i s.shared (s.pc i) .storing := by
        rw [hp]
        exact ReachesAlone.step ⟨[], _, .refl⟩ rfl
      obtain ⟨tr', sh', hrun'⟩ := hstep.run hrun
      exact (storing_can_return hrun' (Function.update_self ..)).of_append
  | storing => exact storing_can_return hrun hp
  | waiting j | awake j | joined j | returned j =>
      refine follower_can_return (j := j) hrun ?_
      rw [hp]
      rfl
  | running | landed | recovering shown | closing | deleting | leaving | left =>
      refine creator_can_return hrun ?_
      rw [hp]
      rfl

end Progress

/-! ## The shared probe -/

section Shared

variable {calls : ι → FlightCall ρ ε} {tr : FlightTrace ι ρ ε} {s : FlightState ι ρ ε} {i j k : ι}

/-- A call boards one flight. -/
theorem FlightInv.boards_unique (h : FlightInv calls tr s) (hj : Boards tr i j)
    (hk : Boards tr i k) : j = k := by
  have hapart : ∀ l, (i, .created) ∈ tr → (i, .joined l) ∉ tr := by
    intro l hc hl
    have hfollows := (h.joined i l).mpr hl
    rw [FlightPc.follows_of_creator ((h.created i).mpr hc)] at hfollows
    cases hfollows
  rcases hj with ⟨rfl, hc⟩ | ⟨hj, -⟩ <;> rcases hk with ⟨rfl, hc'⟩ | ⟨hk, -⟩
  · rfl
  · exact absurd hk (hapart k hc)
  · exact absurd hj (hapart j hc')
  · have hfollows := (h.joined i j).mpr hj
    rw [(h.joined i k).mpr hk] at hfollows
    exact (Option.some.inj hfollows).symm

/-- A panic is an error for everybody. -/
theorem FlightCall.result_panicked {c : FlightCall ρ ε} {shown : Bytes}
    (h : c.fn = .panicked shown) :
    c.result = (none, some (.panicked (c.kind.panicText ++ shown))) := by
  rw [FlightCall.result, h]

/-- A call whose flight is in a map is at work. -/
theorem FlightInv.holds_of_flights (h : FlightInv calls tr s) {slot : FlightKind × Bytes}
    (hslot : s.shared.flights slot = some i) : (s.pc i).holds = true := by
  have hholds := h.named i slot hslot
  simp only [FlightPc.slot, Option.ite_none_right_eq_some] at hholds
  exact hholds.1

/-- A call that has returned has no flight in a map. -/
theorem FlightInv.gone_of_over (h : FlightInv calls tr s) (hover : (s.pc i).Over)
    (slot : FlightKind × Bytes) : s.shared.flights slot ≠ some i := by
  intro hslot
  have hholds := h.holds_of_flights hslot
  cases hp : s.pc i with
  | left | returned =>
      rw [hp] at hholds
      cases hholds
  | _ =>
      rw [hp] at hover
      exact hover

theorem FlightInv.running_unique (h : FlightInv calls tr s) (hi : s.pc i = .running)
    (hj : s.pc j = .running) (hslot : (calls i).slot = (calls j).slot) : i = j := by
  refine h.owned.unique (k := (calls i).slot) ?_ ?_
  · simp only [hi, FlightPc.slot, FlightPc.holds, if_true]
  · simp only [hj, hslot, FlightPc.slot, FlightPc.holds, if_true]

variable [DecidableEq ι]

/-- An entry that goes is the one of the call that takes the step. -/
theorem FlightInv.removes_own (h : FlightInv calls tr s) {s' : FlightState ι ρ ε}
    {b : FlightEvent ι ρ ε} (hs : (flightMachine calls).step s i = some (s', b))
    {slot : FlightKind × Bytes} (hj : s.shared.flights slot = some j)
    (hgone : s'.shared.flights slot ≠ some j) : j = i := by
  obtain ⟨p', hP, -⟩ : ∃ p', flightStep i (calls i) s.shared (s.pc i)
      = some (s'.shared, p', b) ∧ s'.pc = Function.update s.pc i p' := Threads.step_eq_some hs
  exact h.owned.released (flightStep_slots hP) hj hgone

/-- **Calls with one key share one probe.** At any moment one `fn` runs for a key; every
call returns what the flight it created or joined was given, an error when `fn` panicked;
the creator's flight is out of the maps when it has returned; no step takes out a flight
of another call; and no call waits for ever, as long as every `fn` ends. -/
theorem probe_flights_shared (hrun : (flightMachine calls).Run noFlights tr s) :
    (∀ i j, s.pc i = .running → s.pc j = .running → (calls i).slot = (calls j).slot → i = j) ∧
    (∀ i value err, (i, .returned value err) ∈ tr → (∃ j, Boards tr i j) ∧
      ∀ j, Boards tr i j → (calls j).slot = (calls i).slot ∧ (value, err) = (calls j).result ∧
        ∀ shown, (calls j).fn = .panicked shown → err ≠ none) ∧
    (∀ i value err, (i, .created) ∈ tr → (i, .returned value err) ∈ tr →
      ∀ slot, s.shared.flights slot ≠ some i) ∧
    (∀ i s' b, (flightMachine calls).step s i = some (s', b) → ∀ slot j,
      s.shared.flights slot = some j → s'.shared.flights slot ≠ some j → j = i) ∧
    ∀ i, ∃ tr' s' value err, (flightMachine calls).Run noFlights (tr ++ tr') s' ∧
      (i, .returned value err) ∈ tr ++ tr' := by
  have hinv := flightInv_run hrun
  refine ⟨fun i j => hinv.running_unique, ?_, ?_, ?_, ?_⟩
  · intro i value err hret
    obtain ⟨j, hboards, hslot, hresult⟩ := hinv.told i value err hret
    refine ⟨⟨j, hboards⟩, fun k hk => ?_⟩
    cases hinv.boards_unique hboards hk
    refine ⟨hslot, hresult, fun shown hfn hnone => ?_⟩
    rw [FlightCall.result_panicked hfn, hnone] at hresult
    cases hresult
  · intro i value err _ hret slot
    exact hinv.gone_of_over ((hinv.ended i).mpr ⟨value, err, hret⟩) slot
  · intro i s' b hs slot j hj hgone
    exact hinv.removes_own hs hj hgone
  · intro i
    obtain ⟨tr', s', hrun', hover⟩ := call_can_return hrun i
    obtain ⟨value, err, hret⟩ := ((flightInv_run hrun').ended i).mp hover
    exact ⟨tr', s', value, err, hrun', hret⟩

end Shared

/-- Two calls of `DoProbe` with one key; the first one's `fn` panics. -/
def panickingFlight (first : Bool) : FlightCall Bytes Unit :=
  doProbe [1] (if first then .panicked (str "boom") else .returned (some [7]) none)

/-- The second call joins while `fn` runs, and is told of the panic. -/
theorem probe_flights_shared_panic : ∃ tr s,
    (flightMachine panickingFlight).Run noFlights tr s ∧ (false, .joined true) ∈ tr ∧
      (false, .returned none (some (.panicked (str "REALITY probe panic: boom")))) ∈ tr ∧
      (∀ j, Boards tr false j → (panickingFlight j).result.2 ≠ none) ∧
      ∀ slot, s.shared.flights slot ≠ some true := by
  obtain ⟨tr, s, hrun, hcreated, hjoined, htrue, hfalse⟩ : ∃ tr s,
      (flightMachine panickingFlight).Run noFlights tr s ∧
      (true, .created) ∈ tr ∧ (false, .joined true) ∈ tr ∧
      (true, .returned none (some (.panicked (str "REALITY probe panic: boom")))) ∈ tr ∧
      (false, .returned none (some (.panicked (str "REALITY probe panic: boom")))) ∈ tr :=
    Machine.Run.exists_of_exec
      [true, true, false, false, true, true, true, false, true, true, false, false]
      (by decide +kernel)
  obtain ⟨-, hreturns, hremoved, -⟩ := probe_flights_shared hrun
  refine ⟨tr, s, hrun, hjoined, hfalse, fun j hj => ?_, hremoved true _ _ hcreated htrue⟩
  obtain ⟨-, hresult, -⟩ := (hreturns false _ _ hfalse).2 j hj
  rw [← hresult]
  nofun

end Reality
