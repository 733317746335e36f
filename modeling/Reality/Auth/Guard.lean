import Mathlib.Data.Fintype.Basic
import Reality.Kit.Bytes
import Reality.Kit.Clock
import Reality.Kit.Ranging

/-!
# The replay guard

`ReplayGuard` (replay_guard.go): the ClientHello random prefixes seen within a
window, in sixteen shards with a lock each. What the locks make atomic is one
operation here; the visiting order of a map, which Go leaves open, is an
argument. Readings of the clock are nanoseconds, and two of them are close
enough for their difference not to overflow.

What the guard is for: a prefix marked at `t` is REMEMBERED until `t + window`
(`Remembers`), through marks of other prefixes and through sweeps. Evictions at
a full table are the exception.
-/

namespace Reality

open Kit

def defaultReplayGuardMaxEntries : Int := 100000

/-- `replayShardCount`. -/
abbrev replayShardCount : Nat := 16

/-- The seen map of one shard: random prefix to clock reading. -/
abbrev ReplayShard : Type := AList (fun _ : Bytes => Int)

structure ReplayGuard where
  shards : Fin replayShardCount → ReplayShard := fun _ => ∅
  window : Int
  maxEntries : Int
  count : Int := 0
  evictCursor : UInt64 := 0
  evictSeed : UInt64
  /-- The loop variable of `gcLoop`. -/
  gcCursor : UInt64 := 0

/-- `NewReplayGuard` at time `now`. -/
def newReplayGuard (window maxEntries now : Int) : ReplayGuard :=
  { window := window
    maxEntries := if maxEntries ≤ 0 then defaultReplayGuardMaxEntries else maxEntries
    evictSeed := UInt64.ofInt now }

/-- `shardFor`: the first four bytes of the prefix choose. -/
def shardFor (randomPrefix : Bytes) : Fin replayShardCount :=
  let b := fun i => (randomPrefix.getD i 0).toUInt32
  Fin.ofNat replayShardCount (b 0 <<< 24 ||| b 1 <<< 16 ||| b 2 <<< 8 ||| b 3).toNat

namespace ReplayGuard

def seen (g : ReplayGuard) (p : Bytes) : Option Int := (g.shards (shardFor p)).lookup p

def expired (g : ReplayGuard) (now v : Int) : Bool := now - v > g.window

/-- Delete what is expired in one shard. -/
def sweep (g : ReplayGuard) (i : Fin replayShardCount) (now : Int) : ReplayGuard :=
  let r := deleteWhere (fun _ v => g.expired now v) (g.shards i)
  { g with shards := Function.update g.shards i r.1, count := g.count - r.2 }

/-- The loop that drops about one in ten, over the keys in visiting order. -/
def dropSome (seed : UInt64) : List Bytes → UInt64 → ReplayShard × Int → ReplayShard × Int
  | [], _, acc => acc
  | k :: order, i, acc =>
      if k ∈ acc.1 then
        let h := seed + (i + 1) * 0x85ebca6b
        dropSome seed order (i + 1)
          (if h % 10 = 0 then (acc.1.erase k, acc.2 - 1) else acc)
      -- A key that is not in the shard is not visited, and `i` does not count it.
      else dropSome seed order i acc

/-- `evictOneShard`: sweep the next shard; if the table is still full, drop
some of that shard. -/
def evictOneShard (g : ReplayGuard) (now : Int) (order : List Bytes) : ReplayGuard :=
  let cursor := g.evictCursor + 1
  let idx := Fin.ofNat replayShardCount cursor.toNat
  let g := { g with evictCursor := cursor }.sweep idx now
  if g.count < g.maxEntries then g
  else
    let seed := g.evictSeed + 0x9e3779b97f4a7c15
    let r := dropSome seed order 0 (g.shards idx, g.count)
    { g with evictSeed := seed, shards := Function.update g.shards idx r.1, count := r.2 }

/-- `s.seen[p] = now`. -/
def put (g : ReplayGuard) (p : Bytes) (now : Int) : ReplayGuard :=
  let i := shardFor p
  { g with shards := Function.update g.shards i ((g.shards i).insert p now) }

/-- The part of `CheckAndMark` under the lock of the shard. -/
def mark (g : ReplayGuard) (p : Bytes) (now : Int) : ReplayGuard × Bool :=
  match g.seen p with
  | none => ({ g.put p now with count := g.count + 1 }, true)
  | some existing => if g.expired now existing then (g.put p now, true) else (g, false)

/-- `CheckAndMark`; `evictNow` is the clock as an eviction reads it. -/
def checkAndMark (g : ReplayGuard) (p : Bytes) (evictNow now : Int) (order : List Bytes) :
    ReplayGuard × Bool :=
  if g.count ≥ g.maxEntries then
    let g := g.evictOneShard evictNow order
    -- A table that is still full refuses, seen or not.
    if g.count ≥ g.maxEntries then (g, false) else g.mark p now
  else g.mark p now

/-- One tick of `gcLoop`. -/
def gcTick (g : ReplayGuard) (now : Int) : ReplayGuard :=
  { g with gcCursor := g.gcCursor + 1 }.sweep
    (Fin.ofNat replayShardCount g.gcCursor.toNat) now

/-! ## What the operations do to one prefix -/

variable {g : ReplayGuard}

theorem seen_update (g : ReplayGuard) (i : Fin replayShardCount) (shard : ReplayShard)
    (p : Bytes) :
    { g with shards := Function.update g.shards i shard }.seen p
      = if shardFor p = i then shard.lookup p else g.seen p := by
  show (Function.update g.shards i shard (shardFor p)).lookup p = _
  by_cases h : shardFor p = i
  · rw [if_pos h, h, Function.update_self]
  · rw [if_neg h, Function.update_of_ne h]
    rfl

/-- A sweep takes away nothing but expired marks. -/
theorem seen_sweep (g : ReplayGuard) (i : Fin replayShardCount) (now : Int) (p : Bytes) :
    (g.sweep i now).seen p = g.seen p ∨
      ∃ v, g.seen p = some v ∧ g.expired now v = true ∧ (g.sweep i now).seen p = none := by
  have hseen : (g.sweep i now).seen p = if shardFor p = i then
      (deleteWhere (fun _ v => g.expired now v) (g.shards i)).1.lookup p else g.seen p :=
    seen_update g i _ p
  by_cases hi : shardFor p = i
  · have hfilter : (g.sweep i now).seen p = (g.seen p).filter (fun v => !g.expired now v) := by
      rw [hseen, if_pos hi, lookup_deleteWhere, ← hi]
      rfl
    rw [hfilter]
    cases g.seen p with
    | none => exact .inl rfl
    | some v =>
        rw [Option.filter_some]
        cases he : g.expired now v with
        | true => exact .inr ⟨v, rfl, he, rfl⟩
        | false => exact .inl rfl
  · exact .inl (hseen.trans (if_neg hi))

theorem seen_put (g : ReplayGuard) (p q : Bytes) (now : Int) :
    (g.put p now).seen q = if q = p then some now else g.seen q := by
  rw [put, seen_update]
  by_cases hq : q = p
  · rw [if_pos (by rw [hq]), if_pos hq, hq]
    exact AList.lookup_insert _
  · rw [if_neg hq]
    split
    next hs =>
      rw [← hs]
      exact AList.lookup_insert_ne hq
    · rfl

/-- **Inversion of a mark**: it is refused because the prefix was seen within
the window, or it is the first within the window and replaces what was there. -/
theorem mark_cases (g : ReplayGuard) (p : Bytes) (now : Int) :
    (∃ v, g.seen p = some v ∧ g.expired now v = false ∧ g.mark p now = (g, false)) ∨
    ((∀ v, g.seen p = some v → g.expired now v = true) ∧ (g.mark p now).2 = true ∧
      (g.mark p now).1.window = g.window ∧
      ∀ q, (g.mark p now).1.seen q = if q = p then some now else g.seen q) := by
  unfold mark
  cases hv : g.seen p with
  | none =>
      refine .inr ⟨by simp, rfl, rfl, ?_⟩
      intro q
      exact seen_put g p q now
  | some v =>
      dsimp only
      cases he : g.expired now v with
      | true =>
          refine .inr ⟨?_, rfl, rfl, fun q => seen_put g p q now⟩
          intro v' h
          cases h
          exact he
      | false => exact .inl ⟨v, rfl, he, rfl⟩

theorem mark_window (g : ReplayGuard) (p : Bytes) (now : Int) :
    (g.mark p now).1.window = g.window := by
  rcases mark_cases g p now with ⟨v, -, -, hm⟩ | ⟨-, -, hw, -⟩
  · rw [hm]
  · exact hw

/-! ## Remembering -/

/-- A mark of `p` at time `t` is still there at `now`, unless the window is
over. -/
def Remembers (g : ReplayGuard) (p : Bytes) (t now : Int) : Prop :=
  (∃ v, g.seen p = some v ∧ t ≤ v) ∨ t + g.window < now

theorem Remembers.later {p : Bytes} {t now now' : Int} (h : g.Remembers p t now)
    (hle : now ≤ now') : g.Remembers p t now' := by
  rcases h with h | h
  · exact .inl h
  · exact .inr (by omega)

theorem over_of_expired {t v now : Int} (he : g.expired now v = true) (ht : t ≤ v) :
    t + g.window < now := by
  simp only [expired, gt_iff_lt, decide_eq_true_eq] at he
  omega

/-- Sweeps keep what must be remembered. -/
theorem Remembers.sweep {p : Bytes} {t now : Int} (h : g.Remembers p t now)
    (i : Fin replayShardCount) : (g.sweep i now).Remembers p t now := by
  rcases h with ⟨v, hv, ht⟩ | h
  · rcases seen_sweep g i now p with hsame | ⟨v', hv', he, -⟩
    · exact .inl ⟨v, hsame.trans hv, ht⟩
    · cases hv.symm.trans hv'
      exact .inr (over_of_expired he ht)
  · exact .inr h

/-- Marks, of any prefix, keep it too. -/
theorem Remembers.mark {p : Bytes} {t now : Int} (h : g.Remembers p t now) (q : Bytes) :
    (g.mark q now).1.Remembers p t now := by
  rcases mark_cases g q now with ⟨v, -, -, hm⟩ | ⟨hexp, -, hw, hseen⟩
  · rw [hm]
    exact h
  · rcases h with ⟨v, hv, ht⟩ | h
    · by_cases hpq : p = q
      · subst hpq
        exact .inr (by rw [hw]; exact over_of_expired (hexp v hv) ht)
      · left
        refine ⟨v, ?_, ht⟩
        rw [hseen, if_neg hpq]
        exact hv
    · exact .inr (by rw [hw]; exact h)

/-- A mark that was allowed is remembered. -/
theorem remembers_of_mark {p : Bytes} {now : Int} (h : (g.mark p now).2 = true) :
    (g.mark p now).1.Remembers p now now := by
  rcases mark_cases g p now with ⟨v, -, -, hm⟩ | ⟨-, -, -, hseen⟩
  · rw [hm] at h
    cases h
  · refine .inl ⟨now, ?_, le_refl now⟩
    rw [hseen, if_pos rfl]

/-- What is remembered is refused until the window is over. -/
theorem Remembers.refused {p : Bytes} {t now : Int} (h : g.Remembers p t now)
    (hw : now ≤ t + g.window) : (g.mark p now).2 = false := by
  rcases h with ⟨v, hv, ht⟩ | h
  · rcases mark_cases g p now with ⟨v', -, -, hm⟩ | ⟨hexp, -, -, -⟩
    · rw [hm]
    · have := over_of_expired (hexp v hv) ht
      omega
  · omega

end ReplayGuard

end Reality
