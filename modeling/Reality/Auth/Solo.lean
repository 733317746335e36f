import Reality.Auth.Eviction
import Reality.Auth.Interleaved

/-!
# A call that is left alone

The steps of `CheckAndMark` and the function `checkAndMark` are two descriptions
of one piece of source. A call that finds all locks free, and that nobody
disturbs, does with its steps what the function computes: the loops go through
the shard as the functions fold over it, and every lock taken is given back.
-/

namespace Reality

open Kit Threads

namespace ReplayGuard

/-! ## The loops -/

/-- The sweep from `l` to its end. -/
inductive SweepRun (j : Fin replayShardCount) : ReplayGuard → SweepLoop → ReplayGuard → Prop where
  | done {g g' : ReplayGuard} {l : SweepLoop} (h : g.sweepStep j l = (g', none)) :
      SweepRun j g l g'
  | step {g g₁ g' : ReplayGuard} {l l₁ : SweepLoop} (h : g.sweepStep j l = (g₁, some l₁))
      (hrest : SweepRun j g₁ l₁ g') : SweepRun j g l g'

/-- The dropping loop from `l` to its end. -/
inductive DropRun (j : Fin replayShardCount) : ReplayGuard → DropLoop → ReplayGuard → Prop where
  | done {g g' : ReplayGuard} {l : DropLoop} (h : g.dropStep j l = (g', none)) :
      DropRun j g l g'
  | step {g g₁ g' : ReplayGuard} {l l₁ : DropLoop} (h : g.dropStep j l = (g₁, some l₁))
      (hrest : DropRun j g₁ l₁ g') : DropRun j g l g'

/-- The guard with other contents of one shard, and another count. -/
def withShard (g : ReplayGuard) (j : Fin replayShardCount) (shard : ReplayShard) (count : Int) :
    ReplayGuard :=
  { g with shards := Function.update g.shards j shard, count := count }

variable {g : ReplayGuard} {j : Fin replayShardCount} {now count : Int} {shard : ReplayShard}

@[simp] theorem withShard_shards : (g.withShard j shard count).shards j = shard :=
  Function.update_self ..

theorem withShard_self (g : ReplayGuard) (j : Fin replayShardCount) :
    g.withShard j (g.shards j) g.count = g := by
  rw [withShard, Function.update_eq_self]

theorem deleteKey_withShard (k : Bytes) :
    (g.withShard j shard count).deleteKey j k = g.withShard j (shard.erase k) count := by
  rw [deleteKey, withShard_shards]
  simp only [withShard, Function.update_idem]

theorem addCount_withShard (n : Int) :
    (g.withShard j shard count).addCount n = g.withShard j shard (count + n) := rfl

/-- A round that visits a key of the shard. -/
theorem sweepStep_withShard {k : Bytes} {v : Int} (todo : List Bytes)
    (h : shard.lookup k = some v) :
    (g.withShard j shard count).sweepStep j ⟨now, k :: todo, false⟩ =
      if g.expired now v then
        (g.withShard j (shard.erase k) count, some ⟨now, todo, true⟩)
      else (g.withShard j shard count, some ⟨now, todo, false⟩) := by
  rw [← deleteKey_withShard]
  simp only [sweepStep, withShard_shards, h, Option.any_some, Bool.false_eq_true, if_false]
  rfl

/-- The rounds over a list of entries that are all there. -/
theorem sweepRun_entries {l : List (Sigma fun _ : Bytes => Int)} (acc : ReplayShard × Nat)
    {r : ReplayShard × Nat} (hnodup : l.NodupKeys)
    (hin : ∀ kv ∈ l, acc.1.lookup kv.1 = some kv.2)
    (hr : l.foldl (fun acc kv =>
      if g.expired now kv.2 then (acc.1.erase kv.1, acc.2 + 1) else acc) acc = r) :
    SweepRun j (g.withShard j acc.1 (g.count - acc.2)) ⟨now, l.map Sigma.fst, false⟩
      (g.withShard j r.1 (g.count - r.2)) := by
  induction l generalizing acc with
  | nil =>
      cases hr
      exact .done rfl
  | cons kv l ih =>
      obtain ⟨hnew, hnodup⟩ := List.nodupKeys_cons.mp hnodup
      have hround : (g.withShard j acc.1 (g.count - acc.2)).sweepStep j
          ⟨now, kv.1 :: l.map Sigma.fst, false⟩ = _ :=
        sweepStep_withShard (l.map Sigma.fst) (hin kv List.mem_cons_self)
      have hin' : ∀ kv' ∈ l, acc.1.lookup kv'.1 = some kv'.2 :=
        fun kv' hkv' => hin kv' (List.mem_cons_of_mem kv hkv')
      rw [List.foldl_cons] at hr
      by_cases hexp : g.expired now kv.2 = true
      · rw [if_pos hexp] at hround hr
        -- Two steps: the deletion, and then the count.
        refine .step hround (.step rfl ?_)
        have hcount : g.count - (acc.2 : Int) + -1 = g.count - ((acc.2 + 1 : Nat) : Int) := by
          omega
        rw [addCount_withShard, hcount]
        refine ih (acc.1.erase kv.1, acc.2 + 1) hnodup ?_ hr
        intro kv' hkv'
        -- The keys to come are other keys, so they are still there.
        have hne : kv'.1 ≠ kv.1 := fun he => hnew (he ▸ List.mem_keys_of_mem hkv')
        rw [AList.lookup_erase_ne hne]
        exact hin' kv' hkv'
      · rw [if_neg hexp] at hround hr
        exact .step hround (ih acc hnodup hin' hr)

/-- **The sweep** goes through the shard as `sweep` folds over it. -/
theorem sweepRun (g : ReplayGuard) (j : Fin replayShardCount) (now : Int) :
    SweepRun j g ⟨now, (g.shards j).keys, false⟩ (g.sweep j now) := by
  have hstart : g.withShard j (g.shards j) (g.count - ((0 : Nat) : Int)) = g := by
    rw [Int.natCast_zero, Int.sub_zero, withShard_self]
  have hrun : SweepRun j (g.withShard j (g.shards j) (g.count - ((0 : Nat) : Int)))
      ⟨now, (g.shards j).keys, false⟩ (g.sweep j now) :=
    sweepRun_entries (g.shards j, 0) (g.shards j).nodupKeys
      (fun kv hkv => AList.mem_lookup_iff.mpr hkv) rfl
  rw [hstart] at hrun
  exact hrun

/-- **The dropping loop** goes through the shard as `dropSome` does. -/
theorem dropRun (seed i : UInt64) (order : List Bytes) (acc : ReplayShard × Int) :
    DropRun j (g.withShard j acc.1 acc.2) ⟨seed, i, order, false⟩
      (g.withShard j (dropSome seed order i acc).1 (dropSome seed order i acc).2) := by
  induction order generalizing i acc with
  | nil => exact .done rfl
  | cons k order ih =>
      by_cases hk : k ∈ acc.1
      · by_cases hhit : (seed + (i + 1) * 0x85ebca6b) % 10 = 0
        · have hround : (g.withShard j acc.1 acc.2).dropStep j ⟨seed, i, k :: order, false⟩
              = (g.withShard j (acc.1.erase k) acc.2, some ⟨seed, i + 1, order, true⟩) := by
            rw [← deleteKey_withShard]
            simp [dropStep, hk, hhit]
          refine .step hround (.step rfl ?_)
          rw [addCount_withShard, dropSome, if_pos hk]
          dsimp only
          rw [if_pos hhit]
          exact ih (i + 1) (acc.1.erase k, acc.2 - 1)
        · have hround : (g.withShard j acc.1 acc.2).dropStep j ⟨seed, i, k :: order, false⟩
              = (g.withShard j acc.1 acc.2, some ⟨seed, i + 1, order, false⟩) := by
            simp [dropStep, hk, hhit]
          refine .step hround ?_
          rw [dropSome, if_pos hk]
          dsimp only
          rw [if_neg hhit]
          exact ih (i + 1) acc
      · have hround : (g.withShard j acc.1 acc.2).dropStep j ⟨seed, i, k :: order, false⟩
            = (g.withShard j acc.1 acc.2, some ⟨seed, i, order, false⟩) := by
          simp [dropStep, hk]
        refine .step hround ?_
        rw [dropSome, if_neg hk]
        exact ih i acc

theorem evictOneShard_eq (g : ReplayGuard) (now : Int) (order : List Bytes) :
    g.evictOneShard now order =
      if (g.evictSwept now).count < g.maxEntries then g.evictSwept now
      else (g.evictSwept now).dropFrom g.evictIndex (g.evictSwept now).nextSeed order := rfl

end ReplayGuard

/-! ## The call -/

variable {ι : Type} {i : ι} {s s' s'' : GuardShared ι} {p p' p'' : MarkPc}

/-- Steps of one call by itself, none of which is its return. -/
def Goes (i : ι) (s : GuardShared ι) (p : MarkPc) (s' : GuardShared ι) (p' : MarkPc) : Prop :=
  ∃ tr, Solo markStep i s p tr s' p' ∧ tr.filterMap Prod.snd = []

theorem Goes.one {a : GuardAct} (h : markStep i s p a = some (s', p', none)) : Goes i s p s' p' :=
  ⟨_, .step h .refl, rfl⟩

theorem Goes.trans (h : Goes i s p s' p') (h' : Goes i s' p' s'' p'') : Goes i s p s'' p'' := by
  obtain ⟨tr, hsolo, hnone⟩ := h
  obtain ⟨tr', hsolo', hnone'⟩ := h'
  exact ⟨tr ++ tr', hsolo.trans hsolo', by rw [List.filterMap_append, hnone, hnone']; rfl⟩

theorem goes_sweep {q : Bytes} {j : Fin replayShardCount} {g g' : ReplayGuard} {l : SweepLoop}
    (h : ReplayGuard.SweepRun j g l g') (s : GuardShared ι) :
    Goes i (s.setGuard g) (.evictSweep q j l) (s.setGuard g') (.evictCheck q j) := by
  induction h with
  | done h =>
      refine .one (a := .go) ?_
      simp only [markStep, GuardShared.setGuard, h]
  | step h _ ih =>
      refine Goes.trans (.one (a := .go) ?_) ih
      simp only [markStep, GuardShared.setGuard, h]

theorem goes_drop {q : Bytes} {j : Fin replayShardCount} {g g' : ReplayGuard} {l : DropLoop}
    (h : ReplayGuard.DropRun j g l g') (s : GuardShared ι) :
    Goes i (s.setGuard g) (.evictDrop q j l) (s.setGuard g') (.evictUnlock q j) := by
  induction h with
  | done h =>
      refine .one (a := .go) ?_
      simp only [markStep, GuardShared.setGuard, h]
  | step h _ ih =>
      refine Goes.trans (.one (a := .go) ?_) ih
      simp only [markStep, GuardShared.setGuard, h]

/-- The state of the call while it evicts: its shard is locked, and it has read
the clock. -/
def GuardShared.evicting (s : GuardShared ι) (i : ι) (evictNow : Int) (g : ReplayGuard) :
    GuardShared ι :=
  { s with
    guard := g
    locks := Function.update s.locks s.guard.evictIndex (some (some i))
    clock := evictNow }

section Evict

variable {q : Bytes} {evictNow : Int} {order : List Bytes}

/-- Up to the sweep. -/
theorem goes_swept (hlocks : ∀ j, s.locks j = none) (evictNow : Int) :
    Goes i s (.cursor q) (s.evicting i evictNow (s.guard.evictSwept evictNow))
      (.evictCheck q s.guard.evictIndex) := by
  have hcursor : Goes i s (.cursor q)
      (s.setGuard { s.guard with evictCursor := s.guard.evictCursor + 1 })
      (.evictLock q s.guard.evictIndex) := .one (a := .go) rfl
  refine hcursor.trans (Goes.trans (.one (a := .go) (if_pos (hlocks _))) ?_)
  refine Goes.trans (.one (a := .clock evictNow (s.guard.shards s.guard.evictIndex).keys)
    (if_pos (.refl _))) ?_
  exact goes_sweep (ReplayGuard.sweepRun
    { s.guard with evictCursor := s.guard.evictCursor + 1 } s.guard.evictIndex evictNow)
    (s.evicting i evictNow s.guard)

/-- Behind the loops. -/
theorem goes_unlocked (hlocks : ∀ j, s.locks j = none) (g : ReplayGuard) :
    Goes i (s.evicting i evictNow g) (.evictUnlock q s.guard.evictIndex)
      { s with guard := g, clock := evictNow } (.regate q) := by
  have hfree : Function.update (Function.update s.locks s.guard.evictIndex (some (some i)))
      s.guard.evictIndex none = s.locks := by
    rw [Function.update_idem, ← hlocks s.guard.evictIndex, Function.update_eq_self]
  refine .one (a := .go) ?_
  simp only [markStep, GuardShared.setLock, GuardShared.evicting, hfree]

/-- The loop that drops some. -/
theorem goes_dropped {g : ReplayGuard} (hfull : g.count ≥ g.maxEntries)
    (horder : order.Perm (g.shards s.guard.evictIndex).keys) :
    Goes i (s.evicting i evictNow g) (.evictCheck q s.guard.evictIndex)
      (s.evicting i evictNow (g.dropFrom s.guard.evictIndex g.nextSeed order))
      (.evictUnlock q s.guard.evictIndex) := by
  have hcheck : Goes i (s.evicting i evictNow g) (.evictCheck q s.guard.evictIndex)
      (s.evicting i evictNow g) (.evictSeed q s.guard.evictIndex) := by
    refine .one (a := .go) ?_
    simp [markStep, GuardShared.full, GuardShared.evicting, hfull]
  refine hcheck.trans (Goes.trans (.one (a := .order order) (if_pos horder)) ?_)
  have hrun := ReplayGuard.dropRun (g := { g with evictSeed := g.nextSeed })
    (j := s.guard.evictIndex) g.nextSeed 0 order (g.shards s.guard.evictIndex, g.count)
  have hself := ReplayGuard.withShard_self { g with evictSeed := g.nextSeed } s.guard.evictIndex
  dsimp only at hself
  rw [hself] at hrun
  exact goes_drop hrun (s.evicting i evictNow g)

/-- **An eviction by itself** is `evictOneShard`. -/
theorem goes_evict (hlocks : ∀ j, s.locks j = none)
    (horder : order.Perm (s.guard.sweptShard evictNow).keys) :
    Goes i s (.cursor q)
      { s with guard := s.guard.evictOneShard evictNow order, clock := evictNow } (.regate q) := by
  have hkeys : (s.guard.evictSwept evictNow).shards s.guard.evictIndex
      = s.guard.sweptShard evictNow := Function.update_self ..
  refine (goes_swept hlocks evictNow).trans (Goes.trans ?_ (goes_unlocked hlocks _))
  rw [ReplayGuard.evictOneShard_eq]
  by_cases hroom : (s.guard.evictSwept evictNow).count < s.guard.maxEntries
  · rw [if_pos hroom]
    refine .one (a := .go) ?_
    have hmax : (s.guard.evictSwept evictNow).maxEntries = s.guard.maxEntries := rfl
    simp [markStep, GuardShared.full, GuardShared.evicting, hmax, hroom]
  · rw [if_neg hroom]
    exact goes_dropped (not_lt.mp hroom) (by rw [hkeys]; exact horder)

end Evict

/-! ## The verdict -/

/-- A call by itself from where it is to its return. -/
def Answers (i : ι) (s : GuardShared ι) (p : MarkPc) (s' : GuardShared ι) (v : Verdict) : Prop :=
  ∃ tr, Solo markStep i s p tr s' .idle ∧ tr.filterMap Prod.snd = [v]

theorem Goes.answers {v : Verdict} (h : Goes i s p s' p') (h' : Answers i s' p' s'' v) :
    Answers i s p s'' v := by
  obtain ⟨tr, hsolo, hnone⟩ := h
  obtain ⟨tr', hsolo', hv⟩ := h'
  exact ⟨tr ++ tr', hsolo.trans hsolo', by rw [List.filterMap_append, hnone, hv]; rfl⟩

theorem answers_now {v : Verdict} {a : GuardAct} (h : markStep i s p a = some (s', .idle, some v)) :
    Answers i s p s' v := ⟨_, .step h .refl, rfl⟩

/-- The state of the call while it marks: the shard of its prefix is locked, and
it has read the clock. -/
def GuardShared.marking (s : GuardShared ι) (i : ι) (q : Bytes) (now : Int) (g : ReplayGuard) :
    GuardShared ι :=
  { s with
    guard := g
    locks := Function.update s.locks (shardFor q) (some (some i))
    clock := now }

section Mark

variable {q : Bytes} {now evictNow : Int} {order : List Bytes}

/-- Behind the mark: the lock is given back, and the call returns. -/
theorem answers_unlock (hlocks : ∀ j, s.locks j = none) (g : ReplayGuard) (ok : Bool) :
    Answers i (s.marking i q now g) (.unlock q now ok) { s with guard := g, clock := now }
      ⟨q, some now, ok⟩ := by
  have hfree : Function.update (Function.update s.locks (shardFor q) (some (some i)))
      (shardFor q) none = s.locks := by
    rw [Function.update_idem, ← hlocks (shardFor q), Function.update_eq_self]
  have hunlock : Goes i (s.marking i q now g) (.unlock q now ok)
      { s with guard := g, clock := now } (.leave q now ok) := by
    refine .one (a := .go) ?_
    simp only [markStep, GuardShared.setLock, GuardShared.marking, hfree]
  exact hunlock.answers (answers_now (a := .go) rfl)

/-- **The part under the lock** is `mark`. -/
theorem answers_mark (hlocks : ∀ j, s.locks j = none) (q : Bytes) (now : Int) :
    Answers i s (.lock q) { s with guard := (s.guard.mark q now).1, clock := now }
      ⟨q, some now, (s.guard.mark q now).2⟩ := by
  have hlock : Goes i s (.lock q) (s.marking i q now s.guard) (.judge q now) :=
    Goes.trans (.one (a := .go) (if_pos (hlocks _))) (.one (a := .clock now []) rfl)
  refine hlock.answers ?_
  unfold ReplayGuard.mark
  cases hseen : s.guard.seen q with
  | none =>
      have hput : Goes i (s.marking i q now s.guard) (.judge q now)
          (s.marking i q now (s.guard.put q now)) (.added q now) := by
        refine .one (a := .go) ?_
        simp [markStep, GuardShared.marking, GuardShared.setGuard, hseen]
      have hcount : Goes i (s.marking i q now (s.guard.put q now)) (.added q now)
          (s.marking i q now ((s.guard.put q now).addCount 1)) (.unlock q now true) :=
        .one (a := .go) rfl
      exact (hput.trans hcount).answers (answers_unlock hlocks _ true)
  | some existing =>
      dsimp only
      by_cases hexp : s.guard.expired now existing = true
      · rw [if_pos hexp]
        have hput : Goes i (s.marking i q now s.guard) (.judge q now)
            (s.marking i q now (s.guard.put q now)) (.unlock q now true) := by
          refine .one (a := .go) ?_
          simp [markStep, GuardShared.marking, GuardShared.setGuard, hseen, hexp]
        exact hput.answers (answers_unlock hlocks _ true)
      · rw [if_neg hexp]
        have hkeep : Goes i (s.marking i q now s.guard) (.judge q now)
            (s.marking i q now s.guard) (.unlock q now false) := by
          refine .one (a := .go) ?_
          simp [markStep, GuardShared.marking, hseen, hexp]
        exact hkeep.answers (answers_unlock hlocks _ false)

/-- **A call by itself computes `checkAndMark`**, and leaves locks and `gcLoop` as
they were. -/
theorem answers_checkAndMark (hlocks : ∀ j, s.locks j = none) (q : Bytes) (now : Int)
    (horder : s.full = true → order.Perm (s.guard.sweptShard evictNow).keys) :
    ∃ s' v, Answers i s .idle s' v ∧
      s'.guard = (s.guard.checkAndMark q evictNow now order).1 ∧
      v.ok = (s.guard.checkAndMark q evictNow now order).2 ∧ v.randomPrefix = q ∧
      s'.locks = s.locks ∧ s'.gc = s.gc := by
  have hcall : Goes i s .idle s (.gate q) := .one (a := .call q) rfl
  unfold ReplayGuard.checkAndMark
  by_cases hfull : s.guard.count ≥ s.guard.maxEntries
  · have hgate : Goes i s (.gate q) s (.cursor q) := by
      refine .one (a := .go) ?_
      simp [markStep, GuardShared.full, hfull]
    rw [if_pos hfull]
    have hevict := goes_evict (i := i) (q := q) hlocks (horder (decide_eq_true hfull))
    by_cases hstill : (s.guard.evictOneShard evictNow order).count ≥
        (s.guard.evictOneShard evictNow order).maxEntries
    · -- Nothing was freed: the call gives up before it reads the clock for a mark.
      rw [if_pos hstill]
      have hans : Answers i
          { s with guard := s.guard.evictOneShard evictNow order, clock := evictNow } (.regate q)
          { s with guard := s.guard.evictOneShard evictNow order, clock := evictNow }
          ⟨q, none, false⟩ := by
        refine answers_now (a := .go) ?_
        simp [markStep, GuardShared.full, hstill]
      exact ⟨_, _, ((hcall.trans hgate).trans hevict).answers hans, rfl, rfl, rfl, rfl, rfl⟩
    · have hregate : Goes i
          { s with guard := s.guard.evictOneShard evictNow order, clock := evictNow } (.regate q)
          { s with guard := s.guard.evictOneShard evictNow order, clock := evictNow }
          (.lock q) := by
        refine .one (a := .go) ?_
        simp [markStep, GuardShared.full, hstill]
      have hmark := answers_mark (i := i)
        (s := { s with guard := s.guard.evictOneShard evictNow order, clock := evictNow })
        hlocks q now
      have hans := (((hcall.trans hgate).trans hevict).trans hregate).answers hmark
      rw [if_neg hstill]
      exact ⟨_, _, hans, rfl, rfl, rfl, rfl, rfl⟩
  · have hgate : Goes i s (.gate q) s (.lock q) := by
      refine .one (a := .go) ?_
      simp [markStep, GuardShared.full, hfull]
    have hans := (hcall.trans hgate).answers (answers_mark hlocks q now)
    rw [if_neg hfull]
    exact ⟨_, _, hans, rfl, rfl, rfl, rfl, rfl⟩

end Mark

/-- The same as a run of the machine in which nobody else takes a step. -/
theorem checkAndMark_run [DecidableEq ι] {s : GuardThreads ι} (hidle : s.pc i = .idle)
    (hlocks : ∀ j, s.shared.locks j = none) (q : Bytes) (evictNow now : Int) {order : List Bytes}
    (horder : s.shared.full = true → order.Perm (s.shared.guard.sweptShard evictNow).keys) :
    ∃ tr s' v, (guardMachine ι).Run s tr s' ∧ (∀ x ∈ tr, x.1.1 = some i) ∧
      tr.filterMap Prod.snd = [v] ∧ s'.pc = s.pc ∧
      s'.shared.guard = (s.shared.guard.checkAndMark q evictNow now order).1 ∧
      v.ok = (s.shared.guard.checkAndMark q evictNow now order).2 := by
  obtain ⟨sh', v, ⟨tr, hsolo, hv⟩, hguard, hok, -⟩ :=
    answers_checkAndMark (i := i) hlocks q now horder
  have hrun := hsolo.append_run (guardMachine ι) (fun a => (some i, a)) (fun _ _ => rfl) rfl hidle
    .nil
  rw [← hidle, Function.update_eq_self, List.nil_append] at hrun
  refine ⟨_, _, v, hrun, ?_, ?_, rfl, hguard, hok⟩
  · intro x hx
    obtain ⟨y, -, rfl⟩ := List.mem_map.mp hx
    rfl
  · rw [List.filterMap_map]
    exact hv

/-! ## A tick of `gcLoop` -/

section Tick

variable [DecidableEq ι]

/-- A run in which only `gcLoop` takes steps. -/
def GcRuns (s s' : GuardThreads ι) : Prop :=
  ∃ tr, (guardMachine ι).Run s tr s' ∧ ∀ x ∈ tr, x.1.1 = none

theorem GcRuns.snoc {s s₁ : GuardThreads ι} {sh : GuardShared ι} {a : GuardAct}
    (h : GcRuns s s₁) (hs : gcStep s₁.shared a = some sh) : GcRuns s ⟨sh, s₁.pc⟩ := by
  obtain ⟨tr, hrun, hgc⟩ := h
  have hstep : (guardMachine ι).step s₁ (none, a) = some (⟨sh, s₁.pc⟩, none) := by
    show (gcStep s₁.shared a).map _ = _
    rw [hs]
    rfl
  refine ⟨_, hrun.snoc hstep, ?_⟩
  intro x hx
  rcases List.mem_append.mp hx with hx | hx
  · exact hgc x hx
  · cases List.mem_singleton.mp hx
    rfl

theorem GcRuns.sweep {j : Fin replayShardCount} {g g' : ReplayGuard} {l : SweepLoop}
    (h : ReplayGuard.SweepRun j g l g') {s : GuardThreads ι} {sh : GuardShared ι} {pc : ι → MarkPc}
    (hrun : GcRuns s ⟨{ sh with guard := g, gc := .sweep j l }, pc⟩) :
    GcRuns s ⟨{ sh with guard := g', gc := .unlock j }, pc⟩ := by
  induction h with
  | done h =>
      refine hrun.snoc (a := .go) ?_
      simp only [gcStep, GuardShared.setGuard, h]
  | step h _ ih =>
      refine ih (hrun.snoc (a := .go) ?_)
      simp only [gcStep, GuardShared.setGuard, h]

/-- **A tick by itself** is `gcTick`. -/
theorem gcTick_run {s : GuardThreads ι} (hidle : s.shared.gc = .idle)
    (hlock : s.shared.locks (shardAt s.shared.guard.gcCursor) = none) (now : Int) :
    GcRuns s ⟨{ s.shared with guard := s.shared.guard.gcTick now, clock := now }, s.pc⟩ := by
  obtain ⟨⟨g, locks, clock, gc⟩, pc⟩ := s
  subst hidle
  have hfree : Function.update (Function.update locks (shardAt g.gcCursor) (some none))
      (shardAt g.gcCursor) none = locks := by
    rw [Function.update_idem, ← hlock, Function.update_eq_self]
  have htick : GcRuns ⟨⟨g, locks, clock, .idle⟩, pc⟩ ⟨⟨{ g with gcCursor := g.gcCursor + 1 }, locks,
      clock, .lock (shardAt g.gcCursor)⟩, pc⟩ :=
    GcRuns.snoc (a := .tick) ⟨[], .nil, by simp⟩ rfl
  have hlocked := htick.snoc (a := .go) (if_pos hlock)
  have hread := hlocked.snoc (a := .clock now (g.shards (shardAt g.gcCursor)).keys)
    (if_pos (.refl _))
  have hswept : GcRuns _ ⟨⟨g.gcTick now, Function.update locks (shardAt g.gcCursor) (some none),
      now, .unlock (shardAt g.gcCursor)⟩, pc⟩ :=
    GcRuns.sweep (ReplayGuard.sweepRun { g with gcCursor := g.gcCursor + 1 } _ now) hread
  have hdone := hswept.snoc (a := .go) rfl
  simp only [GuardShared.setLock, hfree] at hdone
  exact hdone

end Tick

end Reality
