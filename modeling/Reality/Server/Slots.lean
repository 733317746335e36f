import Mathlib.Data.List.AList
import Reality.Kit.Bytes
import Reality.Kit.Run
import Reality.Kit.Threads

/-!
# Handshake slots

The first lines of `Server` (server_amortize.go): a call reserves one of the
slots of its source host, waits for a token of `handshakeSem` or for its
context to end, and gives both back by a deferred function. Between the two
runs the whole handshake; which way it ends makes no difference here, because
a deferred function runs on EVERY way out.

The table of slots is read and written under one mutex, so reserving and
releasing are one step each. The channel blocks a send while it is full.
-/

namespace Reality

open Kit

def handshakeSourceQuota : Nat := 250

def maxConcurrentHandshakes : Nat := 1000

/-- `handshakeSource.slots` -/
abbrev SlotTable : Type := AList (fun _ : Bytes => Nat)

/-- Reading a key a Go map does not have gives zero. -/
def slotsOf (slots : SlotTable) (host : Bytes) : Nat := (slots.lookup host).getD 0

/-- A call without a usable source is let through and not counted. -/
def handshakeAcquireSource (slots : SlotTable) (host : Bytes) : SlotTable × Bool :=
  if host = [] then (slots, true)
  else if slotsOf slots host ≥ handshakeSourceQuota then (slots, false)
  else (slots.insert host (slotsOf slots host + 1), true)

def handshakeReleaseSource (slots : SlotTable) (host : Bytes) : SlotTable :=
  if host = [] then slots
  else if slotsOf slots host > 1 then slots.insert host (slotsOf slots host - 1)
  else slots.erase host

/-! ## One call -/

/-- How the handshake of a call ends. -/
inductive ServerExit where
  | returned
  | failed
  | panicked

/-- Where a call of `Server` is. -/
inductive ServerPc where
  | idle
  /-- About to reserve a slot of its host. -/
  | arrived (host : Bytes)
  /-- In the select, a slot reserved. -/
  | waiting (host : Bytes)
  /-- The context ended first: `releaseSource` is next. -/
  | cancelled (host : Bytes)
  /-- The token is in the channel and the handshake runs. -/
  | serving (host : Bytes)
  /-- The handshake is over and the deferred receive is next. -/
  | leaving (host : Bytes)
  /-- The token is out again: `releaseSource` is next. -/
  | releasing (host : Bytes)
  deriving DecidableEq

inductive ServerAct where
  | call (host : Bytes)
  | acquireSource
  | send
  | ctxDone
  | finish (how : ServerExit)
  | receive
  | releaseSource

/-- What the calls share: the table and the tokens in `handshakeSem`. -/
structure SlotState where
  slots : SlotTable := ∅
  handshakeSem : Nat := 0

/-- One step of a call. A send into the full channel and a receive from the
empty one block. -/
def serverStep (s : SlotState) : ServerPc → ServerAct → Option (SlotState × ServerPc)
  | .idle, .call host => some (s, .arrived host)
  | .arrived host, .acquireSource =>
      let r := handshakeAcquireSource s.slots host
      -- At quota the connection is closed and the call returns.
      some ({ s with slots := r.1 }, if r.2 then .waiting host else .idle)
  | .waiting host, .send =>
      if s.handshakeSem < maxConcurrentHandshakes then
        some ({ s with handshakeSem := s.handshakeSem + 1 }, .serving host)
      else none
  -- The token was never sent, so there is none to take back.
  | .waiting host, .ctxDone => some (s, .cancelled host)
  | .cancelled host, .releaseSource =>
      some ({ s with slots := handshakeReleaseSource s.slots host }, .idle)
  | .serving host, .finish _ => some (s, .leaving host)
  | .leaving host, .receive =>
      if 0 < s.handshakeSem then
        some ({ s with handshakeSem := s.handshakeSem - 1 }, .releasing host)
      else none
  | .releasing host, .releaseSource =>
      some ({ s with slots := handshakeReleaseSource s.slots host }, .idle)
  | _, _ => none

/-- The call has acquired a slot of `h` and not released it. -/
def ServerPc.holdsSlot (h : Bytes) : ServerPc → Bool
  | .waiting host | .cancelled host | .serving host | .leaving host | .releasing host => host = h
  | .idle | .arrived _ => false

/-- The call is between its send and its deferred receive. -/
def ServerPc.holdsToken : ServerPc → Bool
  | .serving _ | .leaving _ => true
  | _ => false

section ServerCalls

variable {ι : Type} [DecidableEq ι]

/-- The calls of `Server` that run at one time, each on a thread of its own. -/
abbrev ServerCalls (ι : Type) : Type := Threads ι SlotState ServerPc

def serverProgram (_ : ι) (s : SlotState) (p : ServerPc) (a : ServerAct) :
    Option (SlotState × ServerPc × Unit) :=
  (serverStep s p a).map fun r => (r.1, r.2, ())

def slotMachine (ι : Type) [DecidableEq ι] : Machine (ServerCalls ι) (ι × ServerAct) Unit :=
  ⟨fun s x => s.step serverProgram x.1 x.2⟩

/-- A process that serves nobody yet. -/
def slotStart (ι : Type) : ServerCalls ι := ⟨{}, fun _ => .idle⟩

end ServerCalls

/-! ## The table -/

variable {slots : SlotTable} {host h : Bytes}

theorem slotsOf_insert (n : Nat) :
    slotsOf (slots.insert host n) h = if h = host then n else slotsOf slots h := by
  unfold slotsOf
  by_cases hh : h = host
  · subst hh
    rw [if_pos rfl, AList.lookup_insert]
    rfl
  · rw [if_neg hh, AList.lookup_insert_ne hh]

theorem slotsOf_erase :
    slotsOf (slots.erase host) h = if h = host then 0 else slotsOf slots h := by
  unfold slotsOf
  by_cases hh : h = host
  · subst hh
    rw [if_pos rfl, AList.lookup_erase]
    rfl
  · rw [if_neg hh, AList.lookup_erase_ne hh]

/-- A reservation that succeeds adds one to its host, one that fails nothing. -/
theorem slotsOf_acquire (hh : h ≠ []) :
    slotsOf (handshakeAcquireSource slots host).1 h = slotsOf slots h +
      (if (handshakeAcquireSource slots host).2 = true ∧ host = h then 1 else 0) := by
  unfold handshakeAcquireSource
  split
  next h0 => simp [h0, Ne.symm hh]
  next h0 =>
    split
    next hq => simp
    next hq =>
      rw [slotsOf_insert]
      by_cases heq : h = host
      · simp [heq]
      · simp [heq, Ne.symm heq]

/-- A release takes one from its host. -/
theorem slotsOf_release (hh : h ≠ []) :
    slotsOf (handshakeReleaseSource slots host) h
      = slotsOf slots h - (if host = h then 1 else 0) := by
  unfold handshakeReleaseSource
  split
  next h0 => simp [h0, Ne.symm hh]
  next h0 =>
    split
    next hone =>
      rw [slotsOf_insert]
      by_cases heq : h = host
      · simp [heq]
      · simp [heq, Ne.symm heq]
    next hone =>
      rw [slotsOf_erase]
      by_cases heq : h = host
      · subst heq
        simp only [if_true]
        omega
      · simp [heq, Ne.symm heq]

/-- A call that holds a slot of `host` gives it back. -/
theorem release_balance (hh : h ≠ []) (hheld : host = h → 1 ≤ slotsOf slots h) :
    -(slotsOf (handshakeReleaseSource slots host) h : Int)
      = -(slotsOf slots h : Int) + (if host = h then 1 else 0) := by
  rw [slotsOf_release hh]
  split
  next heq =>
    have hpos := hheld heq
    omega
  · simp

/-- Every host in the table has at least one slot and at most the quota. -/
def SlotTable.InQuota (slots : SlotTable) : Prop :=
  ∀ host n, slots.lookup host = some n → 1 ≤ n ∧ n ≤ handshakeSourceQuota

theorem SlotTable.InQuota.acquire (hq : slots.InQuota) :
    SlotTable.InQuota (handshakeAcquireSource slots host).1 := by
  unfold handshakeAcquireSource
  split
  · exact hq
  split
  · exact hq
  next hroom =>
    intro h n hn
    by_cases hh : h = host
    · subst hh
      rw [AList.lookup_insert] at hn
      cases hn
      omega
    · rw [AList.lookup_insert_ne hh] at hn
      exact hq h n hn

theorem SlotTable.InQuota.release (hq : slots.InQuota) :
    SlotTable.InQuota (handshakeReleaseSource slots host) := by
  unfold handshakeReleaseSource
  split
  · exact hq
  split
  next hmore =>
    intro h n hn
    by_cases hh : h = host
    · subst hh
      rw [AList.lookup_insert] at hn
      cases hn
      -- A host without an entry has no slot that could be released.
      cases hl : slots.lookup h with
      | none =>
          simp only [slotsOf, hl, Option.getD_none] at hmore
          omega
      | some n =>
          have hle := (hq h n hl).2
          simp only [slotsOf, hl, Option.getD_some] at hmore ⊢
          omega
    · rw [AList.lookup_insert_ne hh] at hn
      exact hq h n hn
  · intro h n hn
    by_cases hh : h = host
    · subst hh
      rw [AList.lookup_erase] at hn
      cases hn
    · rw [AList.lookup_erase_ne hh] at hn
      exact hq h n hn

/-! ## What a step does -/

variable {s s' : SlotState} {p p' : ServerPc} {a : ServerAct}

/-- The slots of a host move with the calls that hold them. -/
theorem serverStep_slots (hstep : serverStep s p a = some (s', p')) (hh : h ≠ [])
    (hheld : p.holdsSlot h = true → 1 ≤ slotsOf s.slots h) :
    -(slotsOf s'.slots h : Int) + (if p'.holdsSlot h then 1 else 0)
      = -(slotsOf s.slots h : Int) + (if p.holdsSlot h then 1 else 0) := by
  unfold serverStep at hstep
  split at hstep
  · cases hstep
    rfl
  next host =>
    cases hstep
    dsimp only
    rw [slotsOf_acquire hh]
    cases (handshakeAcquireSource s.slots host).2 with
    | true =>
        simp only [ServerPc.holdsSlot, if_true, true_and, decide_eq_true_eq]
        split <;> simp
    | false => simp [ServerPc.holdsSlot]
  · split at hstep <;> cases hstep
    rfl
  · cases hstep
    rfl
  next host =>
    cases hstep
    simp only [ServerPc.holdsSlot, decide_eq_true_eq, Bool.false_eq_true, if_false] at hheld ⊢
    rw [release_balance hh hheld, add_zero]
  · cases hstep
    rfl
  · split at hstep <;> cases hstep
    rfl
  next host =>
    cases hstep
    simp only [ServerPc.holdsSlot, decide_eq_true_eq, Bool.false_eq_true, if_false] at hheld ⊢
    rw [release_balance hh hheld, add_zero]
  · cases hstep

/-- The tokens in the channel move with the calls that sent them. -/
theorem serverStep_tokens (hstep : serverStep s p a = some (s', p')) :
    -(s'.handshakeSem : Int) + (if p'.holdsToken then 1 else 0)
      = -(s.handshakeSem : Int) + (if p.holdsToken then 1 else 0) := by
  unfold serverStep at hstep
  split at hstep
  next host =>
    cases hstep
    rfl
  next host =>
    cases hstep
    dsimp only
    split <;> rfl
  · split at hstep <;> cases hstep
    simp [ServerPc.holdsToken]
  · cases hstep
    rfl
  · cases hstep
    rfl
  · cases hstep
    rfl
  · split at hstep <;> cases hstep
    simp only [ServerPc.holdsToken, if_true, Bool.false_eq_true, if_false]
    omega
  · cases hstep
    rfl
  · cases hstep

theorem serverStep_inQuota (hstep : serverStep s p a = some (s', p'))
    (hq : s.slots.InQuota) : s'.slots.InQuota := by
  unfold serverStep at hstep
  split at hstep
  · cases hstep
    exact hq
  · cases hstep
    exact hq.acquire
  · split at hstep <;> cases hstep
    exact hq
  · cases hstep
    exact hq
  · cases hstep
    exact hq.release
  · cases hstep
    exact hq
  · split at hstep <;> cases hstep
    exact hq
  · cases hstep
    exact hq.release
  · cases hstep

/-! ## Whole runs -/

section Runs

variable {ι : Type}

open Threads

theorem serverProgram_eq_some {i : ι} {u : Unit} (h : serverProgram i s p a = some (s', p', u)) :
    serverStep s p a = some (s', p') := by
  obtain ⟨⟨sh, q⟩, hr, heq⟩ := Option.map_eq_some_iff.mp h
  cases heq
  exact hr

variable [Fintype ι]

structure SlotInv (s : ServerCalls ι) : Prop where
  counted : ∀ h, h ≠ [] → slotsOf s.shared.slots h = number (ServerPc.holdsSlot h) s.pc
  tokens : s.shared.handshakeSem = number ServerPc.holdsToken s.pc
  inQuota : s.shared.slots.InQuota

theorem slotInv_start : SlotInv (slotStart ι) where
  counted := fun h _ => by simp [slotStart, slotsOf, number, ServerPc.holdsSlot]
  tokens := by simp [slotStart, number, ServerPc.holdsToken]
  inQuota := fun host n hn => by simp [slotStart] at hn

variable [DecidableEq ι]

theorem SlotInv.step {s s' : ServerCalls ι} {i : ι} {a : ServerAct} {u : Unit} (hinv : SlotInv s)
    (hstep : s.step serverProgram i a = some (s', u)) : SlotInv s' := by
  refine ⟨?_, ?_, ?_⟩
  · intro h hh
    have hlocal := balance_step (fun x : SlotState => -(slotsOf x.slots h : Int))
      (fun p => if p.holdsSlot h then (1 : Int) else 0) (d := 0) hstep fun p' hP => by
        rw [add_zero]
        refine serverStep_slots (serverProgram_eq_some hP) hh fun hheld => ?_
        -- The moving call holds a slot itself.
        rw [hinv.counted h hh]
        exact number_pos hheld
    rw [tally_number, tally_number, hinv.counted h hh] at hlocal
    omega
  · have hlocal := balance_step (fun x : SlotState => -(x.handshakeSem : Int))
      (fun p => if p.holdsToken then (1 : Int) else 0) (d := 0) hstep fun p' hP => by
        rw [add_zero]
        exact serverStep_tokens (serverProgram_eq_some hP)
    rw [tally_number, tally_number, hinv.tokens] at hlocal
    omega
  · obtain ⟨p', hP, -⟩ := step_eq_some hstep
    exact serverStep_inQuota (serverProgram_eq_some hP) hinv.inQuota

/-- **Slots are neither lost nor counted twice**: after every interleaving of
calls, with any way out of each, a host has as many slots in the table as it
has calls that acquired and did not release, at most the quota, and is not in
the table at zero; the channel holds one token for each call between its send
and its deferred receive. -/
theorem slots_accounted {tr : List ((ι × ServerAct) × Unit)} {s : ServerCalls ι}
    (hrun : (slotMachine ι).Run (slotStart ι) tr s) :
    (∀ host, host ≠ [] →
      slotsOf s.shared.slots host = number (ServerPc.holdsSlot host) s.pc ∧
      slotsOf s.shared.slots host ≤ handshakeSourceQuota ∧
      (number (ServerPc.holdsSlot host) s.pc = 0 → host ∉ s.shared.slots)) ∧
    s.shared.handshakeSem = number ServerPc.holdsToken s.pc := by
  have hinv : SlotInv s := hrun.invariant (I := fun _ s => SlotInv s) slotInv_start
    fun _ _ _ _ _ hi hs => hi.step hs
  refine ⟨fun host hh => ⟨hinv.counted host hh, ?_, fun hzero hmem => ?_⟩, hinv.tokens⟩
  · cases hl : s.shared.slots.lookup host with
    | none => simp [slotsOf, hl]
    | some n =>
        rw [slotsOf, hl]
        exact (hinv.inQuota host n hl).2
  · obtain ⟨n, hl⟩ := Option.isSome_iff_exists.mp (AList.lookup_isSome.mpr hmem)
    have hpos := (hinv.inQuota host n hl).1
    have hcount := hinv.counted host hh
    rw [slotsOf, hl, Option.getD_some] at hcount
    omega

end Runs

/-- Two calls of one host, one served and one cancelled, and a third of another
host that is being served. -/
theorem slots_accounted_mixed :
    ∃ tr s, (slotMachine (Fin 3)).Run (slotStart (Fin 3)) tr s ∧
      slotsOf s.shared.slots (str "a") = 1 ∧ str "b" ∉ s.shared.slots ∧
      s.shared.handshakeSem = 1 ∧
      ((∀ host, host ≠ [] →
        slotsOf s.shared.slots host = Threads.number (ServerPc.holdsSlot host) s.pc ∧
        slotsOf s.shared.slots host ≤ handshakeSourceQuota ∧
        (Threads.number (ServerPc.holdsSlot host) s.pc = 0 → host ∉ s.shared.slots)) ∧
      s.shared.handshakeSem = Threads.number ServerPc.holdsToken s.pc) := by
  obtain ⟨tr, s, hrun, ha, hb, hsem⟩ : ∃ tr s,
      (slotMachine (Fin 3)).Run (slotStart (Fin 3)) tr s ∧
      slotsOf s.shared.slots (str "a") = 1 ∧ str "b" ∉ s.shared.slots ∧
      s.shared.handshakeSem = 1 := by
    refine Machine.Run.exists_of_exec
      [(0, .call (str "a")), (1, .call (str "a")), (2, .call (str "b")),
        (0, .acquireSource), (1, .acquireSource), (2, .acquireSource),
        (0, .send), (1, .ctxDone), (2, .send), (1, .releaseSource),
        (2, .finish .panicked), (2, .receive), (2, .releaseSource)] ?_
    decide +kernel
  exact ⟨tr, s, hrun, ha, hb, hsem, slots_accounted hrun⟩

end Reality
