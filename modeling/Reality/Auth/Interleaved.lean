import Reality.Auth.Guard
import Reality.Kit.Assoc
import Reality.Kit.Run
import Reality.Kit.Threads

/-!
# Concurrent calls of the replay guard

`CheckAndMark`, `evictOneShard` and `gcLoop` (replay_guard.go) as programs that
take turns. A step is what the source does in one atomic operation, or in a
stretch of code under a shard lock that nothing else can look into: the loads
of `count`, the atomic additions, taking and giving back a lock, reading the
clock, one round of a loop over a map.

The capacity gate is read BEFORE the shard lock is taken and `count` is moved
after the map, so neither `count` nor the bound on it is exact at every moment.
What is exact is `count` with the changes that are still owed.
-/

namespace Reality

open Kit

theorem mod_shards_lt (n : Nat) : n % replayShardCount < replayShardCount :=
  Nat.mod_lt n (by decide)

/-- The shard a cursor points to. -/
def shardAt (cursor : UInt64) : Fin replayShardCount :=
  ⟨cursor.toNat % replayShardCount, mod_shards_lt cursor.toNat⟩

/-! ## The loops over a shard -/

/-- The loop that deletes expired marks: the clock it read, the keys it has
still to visit, and whether a deletion has not been taken off `count` yet. -/
structure SweepLoop where
  now : Int
  todo : List Bytes
  owed : Bool := false
  deriving DecidableEq

/-- The loop that drops about one in ten. -/
structure DropLoop where
  seed : UInt64
  i : UInt64 := 0
  todo : List Bytes
  owed : Bool := false
  deriving DecidableEq

namespace ReplayGuard

/-- The total number of entries over all shards. -/
def total (g : ReplayGuard) : Int := ∑ j, (size (g.shards j) : Int)

/-- `delete(s.seen, k)` -/
def deleteKey (g : ReplayGuard) (j : Fin replayShardCount) (k : Bytes) : ReplayGuard :=
  { g with shards := Function.update g.shards j ((g.shards j).erase k) }

/-- `evictSeed.Add(0x9e3779b97f4a7c15)` -/
def nextSeed (g : ReplayGuard) : UInt64 := g.evictSeed + 0x9e3779b97f4a7c15

/-- `count.Add` -/
def addCount (g : ReplayGuard) (n : Int) : ReplayGuard := { g with count := g.count + n }

/-- The next operation of the sweep; `none` when the loop is over. -/
def sweepStep (g : ReplayGuard) (j : Fin replayShardCount) (l : SweepLoop) :
    ReplayGuard × Option SweepLoop :=
  if l.owed then (g.addCount (-1), some { l with owed := false })
  else
    match l.todo with
    | [] => (g, none)
    | k :: todo =>
        if ((g.shards j).lookup k).any (g.expired l.now) then
          (g.deleteKey j k, some { l with todo := todo, owed := true })
        else (g, some { l with todo := todo })

/-- The next operation of the dropping loop. -/
def dropStep (g : ReplayGuard) (j : Fin replayShardCount) (l : DropLoop) :
    ReplayGuard × Option DropLoop :=
  if l.owed then (g.addCount (-1), some { l with owed := false })
  else
    match l.todo with
    | [] => (g, none)
    | k :: todo =>
        if k ∈ g.shards j then
          -- `i` counts the keys that are visited, not those of the list.
          let i := l.i + 1
          if (l.seed + i * 0x85ebca6b) % 10 = 0 then
            (g.deleteKey j k, some { l with i := i, todo := todo, owed := true })
          else (g, some { l with i := i, todo := todo })
        else (g, some { l with todo := todo })

end ReplayGuard

/-! ## The programs -/

/-- Where a call of `CheckAndMark` is. `p` is its prefix, `j` the shard
`evictOneShard` has chosen. -/
inductive MarkPc where
  | idle
  | gate (p : Bytes)
  | cursor (p : Bytes)
  | evictLock (p : Bytes) (j : Fin replayShardCount)
  | evictClock (p : Bytes) (j : Fin replayShardCount)
  | evictSweep (p : Bytes) (j : Fin replayShardCount) (l : SweepLoop)
  | evictCheck (p : Bytes) (j : Fin replayShardCount)
  | evictSeed (p : Bytes) (j : Fin replayShardCount)
  | evictDrop (p : Bytes) (j : Fin replayShardCount) (l : DropLoop)
  | evictUnlock (p : Bytes) (j : Fin replayShardCount)
  | regate (p : Bytes)
  | lock (p : Bytes)
  | clock (p : Bytes)
  | judge (p : Bytes) (now : Int)
  | added (p : Bytes) (now : Int)
  | unlock (p : Bytes) (now : Int) (ok : Bool)
  | leave (p : Bytes) (now : Int) (ok : Bool)
  deriving DecidableEq

/-- Where `gcLoop` is. -/
inductive GcPc where
  | idle
  | lock (j : Fin replayShardCount)
  | clock (j : Fin replayShardCount)
  | sweep (j : Fin replayShardCount) (l : SweepLoop)
  | unlock (j : Fin replayShardCount)
  deriving DecidableEq

/-- What a step takes from outside. -/
inductive GuardAct where
  | call (randomPrefix : Bytes)
  /-- The ticker of `gcLoop` fires. -/
  | tick
  /-- A reading of the clock, and the order in which the loop behind it, if
  there is one, goes through the map. -/
  | clock (now : Int) (order : List Bytes)
  /-- The order in which the dropping loop goes through the map. -/
  | order (order : List Bytes)
  /-- The next operation, which takes nothing. -/
  | go

/-- A call returned: for this prefix, at this reading of the clock if it read
the clock for its own mark, with this answer. -/
structure Verdict where
  randomPrefix : Bytes
  now : Option Int
  ok : Bool
  deriving DecidableEq

/-- What the calls share. `clock` is the last reading anybody made; a lock is
free or belongs to a call or (`some none`) to `gcLoop`. -/
structure GuardShared (ι : Type) where
  guard : ReplayGuard
  locks : Fin replayShardCount → Option (Option ι) := fun _ => none
  clock : Int
  gc : GcPc := .idle

namespace GuardShared

variable {ι : Type}

def setGuard (s : GuardShared ι) (g : ReplayGuard) : GuardShared ι := { s with guard := g }

def setLock (s : GuardShared ι) (j : Fin replayShardCount) (o : Option (Option ι)) :
    GuardShared ι :=
  { s with locks := Function.update s.locks j o }

def setClock (s : GuardShared ι) (now : Int) : GuardShared ι := { s with clock := now }

/-- The table is full. -/
def full (s : GuardShared ι) : Bool := s.guard.count ≥ s.guard.maxEntries

end GuardShared

open GuardShared in
/-- One step of call `i`. -/
def markStep {ι : Type} (i : ι) (s : GuardShared ι) :
    MarkPc → GuardAct → Option (GuardShared ι × MarkPc × Option Verdict)
  | .idle, .call p => some (s, .gate p, none)
  | .gate p, .go => some (s, if s.full then .cursor p else .lock p, none)
  | .cursor p, .go =>
      let cursor := s.guard.evictCursor + 1
      -- `evictCursor.Add(1)` returns the new value, so shard 0 is not the first.
      some (s.setGuard { s.guard with evictCursor := cursor },
        .evictLock p (shardAt cursor), none)
  | .evictLock p j, .go =>
      if s.locks j = none then some (s.setLock j (some (some i)), .evictClock p j, none) else none
  | .evictClock p j, .clock now order =>
      if order.Perm (s.guard.shards j).keys then
        some (s.setClock now, .evictSweep p j ⟨now, order, false⟩, none)
      else none
  | .evictSweep p j l, .go =>
      let r := s.guard.sweepStep j l
      some (s.setGuard r.1,
        match r.2 with | some l => .evictSweep p j l | none => .evictCheck p j, none)
  -- The sweep may have made room already.
  | .evictCheck p j, .go => some (s, if s.full then .evictSeed p j else .evictUnlock p j, none)
  | .evictSeed p j, .order order =>
      if order.Perm (s.guard.shards j).keys then
        some (s.setGuard { s.guard with evictSeed := s.guard.nextSeed },
          .evictDrop p j ⟨s.guard.nextSeed, 0, order, false⟩, none)
      else none
  | .evictDrop p j l, .go =>
      let r := s.guard.dropStep j l
      some (s.setGuard r.1,
        match r.2 with | some l => .evictDrop p j l | none => .evictUnlock p j, none)
  | .evictUnlock p j, .go => some (s.setLock j none, .regate p, none)
  | .regate p, .go =>
      if s.full then some (s, .idle, some ⟨p, none, false⟩) else some (s, .lock p, none)
  | .lock p, .go =>
      if s.locks (shardFor p) = none then
        some (s.setLock (shardFor p) (some (some i)), .clock p, none)
      else none
  | .clock p, .clock now _ => some (s.setClock now, .judge p now, none)
  -- An expired mark is overwritten in place, and `count` stays as it is.
  | .judge p now, .go =>
      match s.guard.seen p with
      | none => some (s.setGuard (s.guard.put p now), .added p now, none)
      | some existing =>
          if s.guard.expired now existing then
            some (s.setGuard (s.guard.put p now), .unlock p now true, none)
          else some (s, .unlock p now false, none)
  | .added p now, .go => some (s.setGuard (s.guard.addCount 1), .unlock p now true, none)
  | .unlock p now ok, .go => some (s.setLock (shardFor p) none, .leave p now ok, none)
  | .leave p now ok, .go => some (s, .idle, some ⟨p, some now, ok⟩)
  | _, _ => none

open GuardShared in
/-- One step of `gcLoop`. -/
def gcStep {ι : Type} (s : GuardShared ι) : GuardAct → Option (GuardShared ι)
  | .tick =>
      match s.gc with
      | .idle =>
          some { s with
            gc := .lock (shardAt s.guard.gcCursor)
            guard := { s.guard with gcCursor := s.guard.gcCursor + 1 } }
      | _ => none
  | .clock now order =>
      match s.gc with
      | .clock j =>
          if order.Perm (s.guard.shards j).keys then
            some { s.setClock now with gc := .sweep j ⟨now, order, false⟩ }
          else none
      | _ => none
  | .go =>
      match s.gc with
      | .lock j =>
          if s.locks j = none then some { s.setLock j (some none) with gc := .clock j } else none
      | .sweep j l =>
          let r := s.guard.sweepStep j l
          some { s.setGuard r.1 with
            gc := match r.2 with | some l => .sweep j l | none => .unlock j }
      | .unlock j => some { s.setLock j none with gc := .idle }
      | _ => none
  | _ => none

abbrev GuardThreads (ι : Type) : Type := Threads ι (GuardShared ι) MarkPc

/-- A step of a call, or (`none`) of `gcLoop`. -/
def guardStep {ι : Type} [DecidableEq ι] (s : GuardThreads ι) :
    Option ι × GuardAct → Option (GuardThreads ι × Option Verdict)
  | (some i, a) => s.step markStep i a
  | (none, a) => (gcStep s.shared a).map fun sh => (⟨sh, s.pc⟩, none)

def guardMachine (ι : Type) [DecidableEq ι] :
    Machine (GuardThreads ι) (Option ι × GuardAct) (Option Verdict) :=
  ⟨guardStep⟩

/-- A guard as `NewReplayGuard` returns it, and nobody calling. -/
def guardStart (ι : Type) (window maxEntries now : Int) : GuardThreads ι :=
  ⟨{ guard := newReplayGuard window maxEntries now, clock := now }, fun _ => .idle⟩

/-! ## What a counter stands for -/

/-- What a loop owes `count`. -/
def debt (owed : Bool) : Int := if owed then -1 else 0

/-- The change of `count` a call still owes for what it did to the map. -/
def MarkPc.owes : MarkPc → Int
  | .added .. => 1
  | .evictSweep _ _ l => debt l.owed
  | .evictDrop _ _ l => debt l.owed
  | _ => 0

def GcPc.owes : GcPc → Int
  | .sweep _ l => debt l.owed
  | _ => 0

/-- The call has passed the gate and may still add to `count`. -/
def MarkPc.pastGate : MarkPc → Bool
  | .lock _ | .clock _ | .judge .. | .added .. => true
  | _ => false

/-- The shard whose lock a call holds. -/
def MarkPc.holds : MarkPc → Option (Fin replayShardCount)
  | .evictClock _ j | .evictSweep _ j _ | .evictCheck _ j | .evictSeed _ j
  | .evictDrop _ j _ | .evictUnlock _ j => some j
  | .clock p | .judge p _ | .added p _ | .unlock p _ _ => some (shardFor p)
  | _ => none

def GcPc.holds : GcPc → Option (Fin replayShardCount)
  | .clock j | .sweep j _ | .unlock j => some j
  | _ => none

/-- What is owed is owed under a lock. -/
theorem MarkPc.owes_eq_zero {p : MarkPc} (h : p.holds = none) : p.owes = 0 := by
  cases p <;> first | rfl | cases h

theorem GcPc.owes_eq_zero {p : GcPc} (h : p.holds = none) : p.owes = 0 := by
  cases p <;> first | rfl | cases h

/-! ## What the operations do to the table -/

namespace ReplayGuard

variable {g : ReplayGuard} {j : Fin replayShardCount} {k p : Bytes}

theorem total_new (window maxEntries now : Int) :
    (newReplayGuard window maxEntries now).total = 0 :=
  Finset.sum_eq_zero fun _ _ => rfl

theorem total_update {g' : ReplayGuard} {shard : ReplayShard}
    (h : g'.shards = Function.update g.shards j shard) :
    g'.total + size (g.shards j) = g.total + size shard := by
  rw [total, h]
  exact Threads.tally_update (fun shard : ReplayShard => (size shard : Int)) g.shards j shard

theorem total_deleteKey (h : k ∈ g.shards j) : (g.deleteKey j k).total = g.total - 1 := by
  have hupdate : (g.deleteKey j k).total + _ = _ := total_update rfl
  have hsize := size_erase h
  omega

theorem total_put (g : ReplayGuard) (p : Bytes) (now : Int) :
    (g.put p now).total = g.total + (if g.seen p = none then 1 else 0) := by
  have hupdate : (g.put p now).total + _ = _ := total_update rfl
  by_cases hmem : p ∈ g.shards (shardFor p)
  · have hseen : g.seen p ≠ none := fun h => AList.lookup_eq_none.mp h hmem
    rw [size_insert hmem] at hupdate
    rw [if_neg hseen]
    omega
  · have hseen : g.seen p = none := AList.lookup_eq_none.mpr hmem
    rw [size_insert_new hmem] at hupdate
    rw [if_pos hseen]
    omega

/-- What one operation of a loop over a shard does: it owes what it deletes, and
never adds. -/
structure LoopMove (g g' : ReplayGuard) (owed owed' : Bool) : Prop where
  balance : g'.count - g'.total + debt owed' = g.count - g.total + debt owed
  count_le : g'.count ≤ g.count
  maxEntries : g'.maxEntries = g.maxEntries
  window : g'.window = g.window

theorem LoopMove.rest : LoopMove g g false false := ⟨rfl, le_refl _, rfl, rfl⟩

theorem LoopMove.settle : LoopMove g (g.addCount (-1)) true false where
  balance := by
    show g.count + -1 - g.total + 0 = g.count - g.total + -1
    omega
  count_le := by
    show g.count + -1 ≤ g.count
    omega
  maxEntries := rfl
  window := rfl

theorem LoopMove.delete (h : k ∈ g.shards j) : LoopMove g (g.deleteKey j k) false true where
  balance := by
    show g.count - (g.deleteKey j k).total + -1 = g.count - g.total + 0
    rw [total_deleteKey h]
    omega
  count_le := le_refl _
  maxEntries := rfl
  window := rfl

theorem sweepStep_move (g : ReplayGuard) (j : Fin replayShardCount) (l : SweepLoop) :
    LoopMove g (g.sweepStep j l).1 l.owed ((g.sweepStep j l).2.elim false (·.owed)) := by
  obtain ⟨now, todo, owed⟩ := l
  cases owed with
  | true => exact .settle
  | false =>
      cases todo with
      | nil => exact .rest
      | cons k todo =>
          simp only [sweepStep, Bool.false_eq_true, if_false]
          split
          next hexp =>
            obtain ⟨v, hv, -⟩ := (Option.any_eq_true _ _).mp hexp
            exact .delete (AList.lookup_isSome.mp (by rw [hv]; rfl))
          · exact .rest

theorem dropStep_move (g : ReplayGuard) (j : Fin replayShardCount) (l : DropLoop) :
    LoopMove g (g.dropStep j l).1 l.owed ((g.dropStep j l).2.elim false (·.owed)) := by
  obtain ⟨seed, i, todo, owed⟩ := l
  cases owed with
  | true => exact .settle
  | false =>
      cases todo with
      | nil => exact .rest
      | cons k todo =>
          simp only [dropStep, Bool.false_eq_true, if_false]
          split
          next hmem =>
            split
            · exact .delete hmem
            · exact .rest
          · exact .rest

end ReplayGuard

/-! ## What a step does -/

open ReplayGuard

/-- A call's claim on `count`. -/
def MarkPc.claim (p : MarkPc) : Int := if p.pastGate then 1 else 0

/-- What one step of call `i` does. It adds to `count` only what it has claimed,
and claims only what it finds below the limit. -/
structure MarkMove {ι : Type} (i : ι) (s s' : GuardShared ι) (p p' : MarkPc) : Prop where
  balance : s'.guard.count - s'.guard.total + p'.owes = s.guard.count - s.guard.total + p.owes
  gate : (s.full = false ∧ s'.guard.count = s.guard.count) ∨
    s'.guard.count + p'.claim ≤ s.guard.count + p.claim
  locks : LockMove (some i) p.holds p'.holds s.locks s'.locks
  gc : s'.gc = s.gc
  maxEntries : s'.guard.maxEntries = s.guard.maxEntries
  window : s'.guard.window = s.guard.window

section Moves

variable {ι : Type} {i : ι} {s s' : GuardShared ι} {p p' : MarkPc} {a : GuardAct}
  {v : Option Verdict}

/-- A step that leaves table, `count` and locks alone and claims nothing. -/
theorem MarkMove.quiet (hshards : s'.guard.shards = s.guard.shards)
    (hcount : s'.guard.count = s.guard.count) (hmax : s'.guard.maxEntries = s.guard.maxEntries)
    (hwindow : s'.guard.window = s.guard.window) (hlocks : s'.locks = s.locks)
    (hgc : s'.gc = s.gc) (howes : p'.owes = p.owes) (hclaim : p'.claim ≤ p.claim)
    (hholds : p'.holds = p.holds) : MarkMove i s s' p p' where
  balance := by rw [total, total, hshards, hcount, howes]
  gate := by
    right
    omega
  locks := by
    rw [hlocks, hholds]
    exact .keep
  gc := hgc
  maxEntries := hmax
  window := hwindow

/-- An operation of one of the two loops. -/
theorem MarkMove.loop {g : ReplayGuard} {owed owed' : Bool}
    (hmove : LoopMove s.guard g owed owed') (howes : p.owes = debt owed)
    (howes' : p'.owes = debt owed') (hclaim : p'.claim ≤ p.claim) (hholds : p'.holds = p.holds) :
    MarkMove i s (s.setGuard g) p p' where
  balance := by
    show g.count - g.total + p'.owes = _
    rw [howes, howes']
    exact hmove.balance
  gate := by
    right
    have hle := hmove.count_le
    show g.count + p'.claim ≤ _
    omega
  locks := by
    rw [hholds]
    exact .keep
  gc := rfl
  maxEntries := hmove.maxEntries
  window := hmove.window

theorem MarkMove.acquire {j : Fin replayShardCount} (hfree : s.locks j = none)
    (hholds : p.holds = none) (hholds' : p'.holds = some j) (howes : p'.owes = p.owes)
    (hclaim : p'.claim ≤ p.claim) : MarkMove i s (s.setLock j (some (some i))) p p' where
  balance := by
    show s.guard.count - s.guard.total + p'.owes = _
    rw [howes]
  gate := by
    right
    show s.guard.count + p'.claim ≤ _
    omega
  locks := by
    rw [hholds, hholds']
    exact .acquire hfree
  gc := rfl
  maxEntries := rfl
  window := rfl

theorem MarkMove.release {j : Fin replayShardCount} (hholds : p.holds = some j)
    (hholds' : p'.holds = none) (howes : p'.owes = p.owes) (hclaim : p'.claim ≤ p.claim) :
    MarkMove i s (s.setLock j none) p p' where
  balance := by
    show s.guard.count - s.guard.total + p'.owes = _
    rw [howes]
  gate := by
    right
    show s.guard.count + p'.claim ≤ _
    omega
  locks := by
    rw [hholds, hholds']
    exact .release
  gc := rfl
  maxEntries := rfl
  window := rfl

/-- A mark in the map: new, and then owed and claimed, or in the place of an
old one. -/
theorem MarkMove.put {q : Bytes} {now : Int} (hholds : p'.holds = p.holds)
    (hclaim : p'.claim ≤ p.claim)
    (howes : p'.owes = p.owes + (if s.guard.seen q = none then 1 else 0)) :
    MarkMove i s (s.setGuard (s.guard.put q now)) p p' where
  balance := by
    show s.guard.count - (s.guard.put q now).total + p'.owes = _
    rw [total_put, howes]
    omega
  gate := by
    right
    show s.guard.count + p'.claim ≤ _
    omega
  locks := by
    rw [hholds]
    exact .keep
  gc := rfl
  maxEntries := rfl
  window := rfl

/-- A call that finds room in the table goes for the lock of its shard. -/
theorem MarkMove.pass {q : Bytes} (hroom : s.full = false) (hholds : p.holds = none)
    (howes : p.owes = 0) : MarkMove i s s p (.lock q) where
  balance := by
    show s.guard.count - s.guard.total + 0 = _
    rw [howes]
  gate := .inl ⟨hroom, rfl⟩
  locks := by
    rw [hholds]
    exact .keep
  gc := rfl
  maxEntries := rfl
  window := rfl

theorem MarkMove.count {q : Bytes} {now : Int} :
    MarkMove i s (s.setGuard (s.guard.addCount 1)) (.added q now) (.unlock q now true) where
  balance := by
    show s.guard.count + 1 - s.guard.total + 0 = s.guard.count - s.guard.total + 1
    omega
  gate := by
    right
    show s.guard.count + 1 + 0 ≤ s.guard.count + 1
    omega
  locks := .keep
  gc := rfl
  maxEntries := rfl
  window := rfl

/-- The dropping loop starts, with whatever seed. -/
theorem MarkMove.seed {q : Bytes} {j : Fin replayShardCount} (seed : UInt64)
    (order : List Bytes) :
    MarkMove i s (s.setGuard { s.guard with evictSeed := seed }) (.evictSeed q j)
      (.evictDrop q j ⟨seed, 0, order, false⟩) :=
  .quiet rfl rfl rfl rfl rfl rfl rfl (le_refl _) rfl

/-- A step that changes nothing but where the call is. -/
theorem MarkMove.keep (howes : p'.owes = p.owes) (hclaim : p'.claim ≤ p.claim)
    (hholds : p'.holds = p.holds) : MarkMove i s s p p' :=
  .quiet rfl rfl rfl rfl rfl rfl howes hclaim hholds

theorem markStep_idle (h : markStep i s .idle a = some (s', p', v)) :
    MarkMove i s s' .idle p' := by
  cases a with
  | call q =>
      cases h
      exact .keep rfl (le_refl _) rfl
  | _ => cases h

theorem markStep_gate {q : Bytes} (h : markStep i s (.gate q) a = some (s', p', v)) :
    MarkMove i s s' (.gate q) p' := by
  cases a with
  | go =>
      cases h
      -- Only a call that finds room claims a place.
      cases hfull : s.full with
      | true => exact .keep rfl (le_refl _) rfl
      | false => exact .pass hfull rfl rfl
  | _ => cases h

theorem markStep_cursor {q : Bytes} (h : markStep i s (.cursor q) a = some (s', p', v)) :
    MarkMove i s s' (.cursor q) p' := by
  cases a with
  | go =>
      cases h
      exact .quiet rfl rfl rfl rfl rfl rfl rfl (le_refl _) rfl
  | _ => cases h

theorem markStep_evictLock {q : Bytes} {j : Fin replayShardCount}
    (h : markStep i s (.evictLock q j) a = some (s', p', v)) :
    MarkMove i s s' (.evictLock q j) p' := by
  cases a with
  | go =>
      obtain ⟨hfree, heq⟩ := Option.ite_none_right_eq_some.mp h
      cases heq
      exact .acquire hfree rfl rfl rfl (le_refl _)
  | _ => cases h

theorem markStep_evictClock {q : Bytes} {j : Fin replayShardCount}
    (h : markStep i s (.evictClock q j) a = some (s', p', v)) :
    MarkMove i s s' (.evictClock q j) p' := by
  cases a with
  | clock now order =>
      obtain ⟨-, heq⟩ := Option.ite_none_right_eq_some.mp h
      cases heq
      exact .quiet rfl rfl rfl rfl rfl rfl rfl (le_refl _) rfl
  | _ => cases h

theorem markStep_evictSweep {q : Bytes} {j : Fin replayShardCount} {l : SweepLoop}
    (h : markStep i s (.evictSweep q j l) a = some (s', p', v)) :
    MarkMove i s s' (.evictSweep q j l) p' := by
  cases a with
  | go =>
      cases h
      have hmove := sweepStep_move s.guard j l
      cases hr : (s.guard.sweepStep j l).2 with
      | none => exact .loop (by rwa [hr] at hmove) rfl rfl (le_refl _) rfl
      | some l' => exact .loop (by rwa [hr] at hmove) rfl rfl (le_refl _) rfl
  | _ => cases h

theorem markStep_evictCheck {q : Bytes} {j : Fin replayShardCount}
    (h : markStep i s (.evictCheck q j) a = some (s', p', v)) :
    MarkMove i s s' (.evictCheck q j) p' := by
  cases a with
  | go =>
      cases h
      cases s.full with
      | true => exact .keep rfl (le_refl _) rfl
      | false => exact .keep rfl (le_refl _) rfl
  | _ => cases h

theorem markStep_evictSeed {q : Bytes} {j : Fin replayShardCount}
    (h : markStep i s (.evictSeed q j) a = some (s', p', v)) :
    MarkMove i s s' (.evictSeed q j) p' := by
  cases a with
  | order order =>
      obtain ⟨-, heq⟩ := Option.ite_none_right_eq_some.mp h
      cases heq
      exact .seed _ order
  | _ => cases h

theorem markStep_evictDrop {q : Bytes} {j : Fin replayShardCount} {l : DropLoop}
    (h : markStep i s (.evictDrop q j l) a = some (s', p', v)) :
    MarkMove i s s' (.evictDrop q j l) p' := by
  cases a with
  | go =>
      cases h
      have hmove := dropStep_move s.guard j l
      cases hr : (s.guard.dropStep j l).2 with
      | none => exact .loop (by rwa [hr] at hmove) rfl rfl (le_refl _) rfl
      | some l' => exact .loop (by rwa [hr] at hmove) rfl rfl (le_refl _) rfl
  | _ => cases h

theorem markStep_evictUnlock {q : Bytes} {j : Fin replayShardCount}
    (h : markStep i s (.evictUnlock q j) a = some (s', p', v)) :
    MarkMove i s s' (.evictUnlock q j) p' := by
  cases a with
  | go =>
      cases h
      exact .release rfl rfl rfl (le_refl _)
  | _ => cases h

theorem markStep_regate {q : Bytes} (h : markStep i s (.regate q) a = some (s', p', v)) :
    MarkMove i s s' (.regate q) p' := by
  cases a with
  | go =>
      unfold markStep at h
      dsimp only at h
      split at h
      · cases h
        exact .keep rfl (le_refl _) rfl
      next hfull =>
        cases h
        exact .pass (Bool.eq_false_iff.mpr hfull) rfl rfl
  | _ => cases h

theorem markStep_lock {q : Bytes} (h : markStep i s (.lock q) a = some (s', p', v)) :
    MarkMove i s s' (.lock q) p' := by
  cases a with
  | go =>
      obtain ⟨hfree, heq⟩ := Option.ite_none_right_eq_some.mp h
      cases heq
      exact .acquire hfree rfl rfl rfl (le_refl _)
  | _ => cases h

theorem markStep_clock {q : Bytes} (h : markStep i s (.clock q) a = some (s', p', v)) :
    MarkMove i s s' (.clock q) p' := by
  cases a with
  | clock now order =>
      cases h
      exact .quiet rfl rfl rfl rfl rfl rfl rfl (le_refl _) rfl
  | _ => cases h

theorem markStep_judge {q : Bytes} {now : Int}
    (h : markStep i s (.judge q now) a = some (s', p', v)) : MarkMove i s s' (.judge q now) p' := by
  cases a with
  | go =>
      unfold markStep at h
      dsimp only at h
      cases hseen : s.guard.seen q with
      | none =>
          rw [hseen] at h
          cases h
          -- The mark is in the map and not counted yet: the call owes one.
          exact .put rfl (le_refl _) (by rw [if_pos hseen]; rfl)
      | some existing =>
          rw [hseen] at h
          dsimp only at h
          -- Whatever it answers, the call gives up its claim.
          have hclaim : (0 : Int) ≤ 1 := by omega
          split at h
          · cases h
            exact .put rfl hclaim (by rw [if_neg (by rw [hseen]; simp)]; rfl)
          · cases h
            exact .keep rfl hclaim rfl
  | _ => cases h

theorem markStep_added {q : Bytes} {now : Int}
    (h : markStep i s (.added q now) a = some (s', p', v)) : MarkMove i s s' (.added q now) p' := by
  cases a with
  | go =>
      cases h
      exact .count
  | _ => cases h

theorem markStep_unlock {q : Bytes} {now : Int} {ok : Bool}
    (h : markStep i s (.unlock q now ok) a = some (s', p', v)) :
    MarkMove i s s' (.unlock q now ok) p' := by
  cases a with
  | go =>
      cases h
      exact .release rfl rfl rfl (le_refl _)
  | _ => cases h

theorem markStep_leave {q : Bytes} {now : Int} {ok : Bool}
    (h : markStep i s (.leave q now ok) a = some (s', p', v)) :
    MarkMove i s s' (.leave q now ok) p' := by
  cases a with
  | go =>
      cases h
      exact .keep rfl (le_refl _) rfl
  | _ => cases h

/-- **One step of a call**, whatever it is. -/
theorem markStep_move (h : markStep i s p a = some (s', p', v)) : MarkMove i s s' p p' := by
  cases p with
  | idle => exact markStep_idle h
  | gate => exact markStep_gate h
  | cursor => exact markStep_cursor h
  | evictLock => exact markStep_evictLock h
  | evictClock => exact markStep_evictClock h
  | evictSweep => exact markStep_evictSweep h
  | evictCheck => exact markStep_evictCheck h
  | evictSeed => exact markStep_evictSeed h
  | evictDrop => exact markStep_evictDrop h
  | evictUnlock => exact markStep_evictUnlock h
  | regate => exact markStep_regate h
  | lock => exact markStep_lock h
  | clock => exact markStep_clock h
  | judge => exact markStep_judge h
  | added => exact markStep_added h
  | unlock => exact markStep_unlock h
  | leave => exact markStep_leave h

/-- What one step of `gcLoop` does. -/
structure GcMove (s s' : GuardShared ι) : Prop where
  balance : s'.guard.count - s'.guard.total + s'.gc.owes
    = s.guard.count - s.guard.total + s.gc.owes
  count_le : s'.guard.count ≤ s.guard.count
  locks : LockMove none s.gc.holds s'.gc.holds s.locks s'.locks
  maxEntries : s'.guard.maxEntries = s.guard.maxEntries
  window : s'.guard.window = s.guard.window

theorem gcStep_move (h : gcStep s a = some s') : GcMove s s' := by
  unfold gcStep at h
  split at h
  · split at h
    next hgc =>
      cases h
      exact ⟨by rw [hgc]; rfl, le_refl _, by rw [hgc]; exact .keep, rfl, rfl⟩
    · cases h
  · split at h
    next j hgc =>
      split at h
      · cases h
        exact ⟨by rw [hgc]; rfl, le_refl _, by rw [hgc]; exact .keep, rfl, rfl⟩
      · cases h
    · cases h
  · split at h
    next j hgc =>
      split at h
      next hfree =>
        cases h
        exact ⟨by rw [hgc]; rfl, le_refl _, by rw [hgc]; exact .acquire hfree, rfl, rfl⟩
      · cases h
    next j l hgc =>
      cases h
      have hmove := sweepStep_move s.guard j l
      have howes : s.gc.owes = debt l.owed := by rw [hgc]; rfl
      cases hr : (s.guard.sweepStep j l).2 with
      | none =>
          rw [hr] at hmove
          exact ⟨howes ▸ hmove.balance, hmove.count_le, by rw [hgc]; exact .keep,
            hmove.maxEntries, hmove.window⟩
      | some l' =>
          rw [hr] at hmove
          exact ⟨howes ▸ hmove.balance, hmove.count_le, by rw [hgc]; exact .keep,
            hmove.maxEntries, hmove.window⟩
    next j hgc =>
      cases h
      exact ⟨by rw [hgc]; rfl, le_refl _, by rw [hgc]; exact .release, rfl, rfl⟩
    · cases h
  · cases h

end Moves

end Reality
