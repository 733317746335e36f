import Reality.Auth.Interleaved
import Reality.Kit.Stride

/-!
# Eviction from a full replay guard

Calls of `CheckAndMark` one after the other, on a guard that is full. Each call
evicts from the NEXT shard, and about one in ten of it: entry `i` of the loop
goes when `seed + i * 0x85ebca6b`, modulo `2 ^ 64`, is a multiple of ten. The
multiplier has no factor in common with ten, so this is every tenth entry, with
one phase before the sum wraps and one after.

A shard of nineteen entries or more therefore loses one, and a guard for 320
entries that is full has such a shard among its sixteen.
-/

namespace Reality

open Kit

namespace ReplayGuard

/-! ## The dropping loop -/

/-- Entry `i` of the dropping loop goes. -/
def dropHit (seed : UInt64) (i : Nat) : Prop := (seed + UInt64.ofNat i * 0x85ebca6b) % 10 = 0

instance (seed : UInt64) : DecidablePred (dropHit seed) := fun _ => instDecidableEqUInt64 _ _

theorem dropHit_iff (seed : UInt64) {i : Nat} (hi : i < 2 ^ 32) :
    dropHit seed i ↔ (seed.toNat + i * 0x85ebca6b) % 2 ^ 64 % 10 = 0 := by
  have hmul : (UInt64.ofNat i * 0x85ebca6b).toNat = i * 0x85ebca6b := by
    rw [UInt64.toNat_mul, UInt64.toNat_ofNat']
    show i % 2 ^ 64 * 0x85ebca6b % 2 ^ 64 = _
    omega
  rw [dropHit, ← UInt64.toNat_inj, UInt64.toNat_mod, UInt64.toNat_add, hmul]
  rfl

/-- How many of `n` entries go, the first being entry `i + 1`. -/
def dropHits (seed : UInt64) (i n : Nat) : Nat := Nat.count (fun t => dropHit seed (i + t + 1)) n

theorem dropHits_succ (seed : UInt64) (i n : Nat) :
    dropHits seed i (n + 1)
      = dropHits seed (i + 1) n + (if dropHit seed (i + 1) then 1 else 0) := by
  have hshift : (fun t => dropHit seed (i + (t + 1) + 1))
      = fun t => dropHit seed (i + 1 + t + 1) := by
    funext t
    rw [show i + (t + 1) + 1 = i + 1 + t + 1 by omega]
  rw [dropHits, Nat.count_succ', dropHits]
  simp only [hshift, Nat.add_zero]

/-- **One in ten, and two more**, and of nineteen at least one. -/
theorem dropHits_bounds (seed : UInt64) {n : Nat} (hn : n < 2 ^ 32) :
    dropHits seed 0 n ≤ n / 10 + 2 ∧ (19 ≤ n → 0 < dropHits seed 0 n) := by
  have hcount : dropHits seed 0 n
      = Nat.count (fun t => (seed.toNat + (t + 1) * 0x85ebca6b) % 2 ^ 64 % 10 = 0) n := by
    refine count_congr_of_lt fun t ht => ?_
    rw [Nat.zero_add]
    exact dropHit_iff seed (by omega)
  have hseed := seed.toNat_lt
  have hbounds := count_wrapped_stride (c := 0x85ebca6b) (d := 10) (by decide) (by decide)
    (by decide) hseed (n := n) (by omega)
  rw [hcount]
  exact hbounds

/-- One round of the loop at an entry that is there. -/
theorem dropSome_cons (seed : UInt64) {k : Bytes} (order : List Bytes) (i : Nat)
    {acc : ReplayShard × Int} (hk : k ∈ acc.1) :
    dropSome seed (k :: order) (UInt64.ofNat i) acc
      = dropSome seed order (UInt64.ofNat (i + 1))
          (if dropHit seed (i + 1) then (acc.1.erase k, acc.2 - 1) else acc) := by
  have hnext : UInt64.ofNat i + 1 = UInt64.ofNat (i + 1) := (UInt64.ofNat_add i 1).symm
  rw [dropSome, if_pos hk, hnext]
  rfl

/-- What the dropping loop did: `n` of the entries it visited are gone, and the
count with them. -/
structure Dropped (order : List Bytes) (n : Nat) (acc r : ReplayShard × Int) : Prop where
  count : r.2 = acc.2 - n
  size : size r.1 + n = size acc.1
  gone : (order.filter (· ∉ r.1)).length = n
  lookup : ∀ k, r.1.lookup k = acc.1.lookup k ∨ k ∈ order ∧ r.1.lookup k = none

theorem Dropped.keep {order : List Bytes} {n : Nat} {acc r : ReplayShard × Int} {k : Bytes}
    (h : Dropped order n acc r) (hk : k ∈ acc.1) (hnew : k ∉ order) :
    Dropped (k :: order) n acc r where
  count := h.count
  size := h.size
  gone := by
    have hstays : k ∈ r.1 := by
      rcases h.lookup k with hsame | ⟨hmem, -⟩
      · rw [← AList.lookup_isSome, hsame]
        exact AList.lookup_isSome.mpr hk
      · exact absurd hmem hnew
    rw [List.filter_cons_of_neg (by simpa using hstays)]
    exact h.gone
  lookup := fun k' => (h.lookup k').imp id fun ⟨hmem, hnone⟩ =>
    ⟨List.mem_cons_of_mem k hmem, hnone⟩

theorem Dropped.drop {order : List Bytes} {n : Nat} {acc r : ReplayShard × Int} {k : Bytes}
    (h : Dropped order n (acc.1.erase k, acc.2 - 1) r) (hk : k ∈ acc.1) :
    Dropped (k :: order) (n + 1) acc r where
  count := by
    have hcount := h.count
    push_cast
    omega
  size := by
    have hsize := h.size
    have herase := size_erase hk
    dsimp only at hsize
    omega
  gone := by
    have hgone : k ∉ r.1 := by
      rw [← AList.lookup_eq_none]
      rcases h.lookup k with hsame | ⟨-, hnone⟩
      · rw [hsame]
        exact AList.lookup_erase k acc.1
      · exact hnone
    rw [List.filter_cons_of_pos (by simpa using hgone), List.length_cons, h.gone]
  lookup := fun k' => by
    by_cases hk' : k' = k
    · subst hk'
      refine .inr ⟨List.mem_cons_self, ?_⟩
      rcases h.lookup k' with hsame | ⟨-, hnone⟩
      · rw [hsame]
        exact AList.lookup_erase k' acc.1
      · exact hnone
    · rcases h.lookup k' with hsame | ⟨hmem, hnone⟩
      · left
        rw [hsame]
        exact AList.lookup_erase_ne hk'
      · exact .inr ⟨List.mem_cons_of_mem k hmem, hnone⟩

/-- **The dropping loop** over entries that are all there. -/
theorem dropSome_dropped (seed : UInt64) {order : List Bytes} (i : Nat)
    {acc : ReplayShard × Int} (hnodup : order.Nodup) (hin : ∀ k ∈ order, k ∈ acc.1) :
    Dropped order (dropHits seed i order.length) acc
      (dropSome seed order (UInt64.ofNat i) acc) := by
  induction order generalizing i acc with
  | nil => exact ⟨(Int.sub_zero _).symm, rfl, rfl, fun _ => .inl rfl⟩
  | cons k order ih =>
      obtain ⟨hnew, hnodup⟩ := List.nodup_cons.mp hnodup
      have hk := hin k List.mem_cons_self
      rw [dropSome_cons seed order i hk, List.length_cons, dropHits_succ]
      split
      · refine Dropped.drop (ih (i + 1) hnodup fun k' hk' => ?_) hk
        refine AList.mem_erase.mpr ⟨?_, hin k' (List.mem_cons_of_mem k hk')⟩
        rintro rfl
        exact hnew hk'
      · exact Dropped.keep
          (ih (i + 1) hnodup fun k' hk' => hin k' (List.mem_cons_of_mem k hk')) hk hnew

/-! ## One eviction -/

variable {g : ReplayGuard} {now : Int} {order : List Bytes}

/-- The shard the next eviction is from. -/
def evictIndex (g : ReplayGuard) : Fin replayShardCount :=
  shardAt (g.evictCursor + 1)

/-- What an eviction at `now` sweeps that shard to. -/
def sweptShard (g : ReplayGuard) (now : Int) : ReplayShard :=
  (deleteWhere (fun _ v => g.expired now v) (g.shards g.evictIndex)).1

/-- The guard when the eviction has swept, and not dropped. -/
def evictSwept (g : ReplayGuard) (now : Int) : ReplayGuard :=
  { g with evictCursor := g.evictCursor + 1 }.sweep g.evictIndex now

/-- The guard when it has dropped some, with `seed`. -/
def dropFrom (g : ReplayGuard) (j : Fin replayShardCount) (seed : UInt64) (order : List Bytes) :
    ReplayGuard :=
  { g with
    evictSeed := seed
    shards := Function.update g.shards j (dropSome seed order 0 (g.shards j, g.count)).1
    count := (dropSome seed order 0 (g.shards j, g.count)).2 }

theorem evictOneShard_cases (g : ReplayGuard) (now : Int) (order : List Bytes) :
    (g.evictSwept now).count < g.maxEntries ∧ g.evictOneShard now order = g.evictSwept now ∨
      ∃ seed, g.evictOneShard now order = (g.evictSwept now).dropFrom g.evictIndex seed order := by
  unfold evictOneShard
  dsimp only
  split
  next hroom => exact .inl ⟨hroom, rfl⟩
  · exact .inr ⟨_, rfl⟩

theorem sweep_total (g : ReplayGuard) (j : Fin replayShardCount) (now : Int) :
    (g.sweep j now).count - (g.sweep j now).total = g.count - g.total := by
  have hupdate : (g.sweep j now).total + _ = _ := total_update rfl
  have hsize := size_deleteWhere (fun _ v => g.expired now v) (g.shards j)
  show g.count - ((deleteWhere (fun _ v => g.expired now v) (g.shards j)).2 : Int) - _ = _
  omega

theorem sweep_count_le (g : ReplayGuard) (j : Fin replayShardCount) (now : Int) :
    (g.sweep j now).count ≤ g.count := by
  show g.count - ((deleteWhere (fun _ v => g.expired now v) (g.shards j)).2 : Int) ≤ g.count
  omega

theorem size_le_total (g : ReplayGuard) (j : Fin replayShardCount) :
    (size (g.shards j) : Int) ≤ g.total :=
  Finset.single_le_sum (f := fun j => (size (g.shards j) : Int)) (fun _ _ => Int.natCast_nonneg _)
    (Finset.mem_univ j)

/-- What an eviction at `now` comes to. -/
structure Evicted (g : ReplayGuard) (now : Int) (r : ReplayGuard) : Prop where
  settled : r.count = r.total
  count_le : r.count ≤ g.count
  maxEntries : r.maxEntries = g.maxEntries
  cursor : r.evictCursor = g.evictCursor + 1
  others : ∀ i, i ≠ g.evictIndex → r.shards i = g.shards i
  size_le : size (r.shards g.evictIndex) ≤ size (g.shards g.evictIndex)
  kept : ∀ k v, (r.shards g.evictIndex).lookup k = some v →
    (g.shards g.evictIndex).lookup k = some v
  room : r.count < g.maxEntries ∨ size (r.shards g.evictIndex) ≤ 18
  removed : ((g.sweptShard now).keys.filter (· ∉ r.shards g.evictIndex)).length
    ≤ size (g.sweptShard now) / 10 + 2

theorem evictSwept_shards (g : ReplayGuard) (now : Int) :
    (g.evictSwept now).shards = Function.update g.shards g.evictIndex (g.sweptShard now) := rfl

theorem kept_sweptShard {k : Bytes} {v : Int} (h : (g.sweptShard now).lookup k = some v) :
    (g.shards g.evictIndex).lookup k = some v := by
  rw [sweptShard, lookup_deleteWhere, Option.filter_eq_some_iff] at h
  exact h.1

theorem size_sweptShard_le (g : ReplayGuard) (now : Int) :
    size (g.sweptShard now) ≤ size (g.shards g.evictIndex) := by
  have hsize := size_deleteWhere (fun _ v => g.expired now v) (g.shards g.evictIndex)
  rw [sweptShard]
  omega

theorem evictSwept_settled (hsettled : g.count = g.total) (now : Int) :
    (g.evictSwept now).count = (g.evictSwept now).total := by
  have hsweep := sweep_total { g with evictCursor := g.evictCursor + 1 } g.evictIndex now
  have hstart : ({ g with evictCursor := g.evictCursor + 1 } : ReplayGuard).total = g.total := rfl
  rw [hstart] at hsweep
  rw [evictSwept]
  dsimp only at hsweep
  omega

/-- An eviction that made room by sweeping alone. -/
theorem evicted_swept (hsettled : g.count = g.total)
    (hroom : (g.evictSwept now).count < g.maxEntries) : Evicted g now (g.evictSwept now) where
  settled := evictSwept_settled hsettled now
  count_le := sweep_count_le _ _ _
  maxEntries := rfl
  cursor := rfl
  others := fun i hi => Function.update_of_ne hi ..
  size_le := by
    rw [evictSwept_shards, Function.update_self]
    exact size_sweptShard_le g now
  kept := fun k v h => by
    rw [evictSwept_shards, Function.update_self] at h
    exact kept_sweptShard h
  room := .inl hroom
  removed := by
    rw [evictSwept_shards, Function.update_self]
    have hnone : (g.sweptShard now).keys.filter (· ∉ g.sweptShard now) = [] := by
      rw [List.filter_eq_nil_iff]
      intro k hk hgone
      exact of_decide_eq_true hgone hk
    rw [hnone]
    exact Nat.zero_le _

/-- The dropping loop of an eviction. -/
theorem dropped_swept (horder : order.Perm (g.sweptShard now).keys) (seed : UInt64) :
    Dropped order (dropHits seed 0 (size (g.sweptShard now)))
      (g.sweptShard now, (g.evictSwept now).count)
      (dropSome seed order 0
        ((g.evictSwept now).shards g.evictIndex, (g.evictSwept now).count)) := by
  have hlength : order.length = size (g.sweptShard now) := horder.length_eq
  rw [evictSwept_shards, Function.update_self, ← hlength]
  exact dropSome_dropped seed 0 (horder.nodup_iff.mpr (AList.keys_nodup _))
    fun k hk => horder.subset hk

theorem evicted_dropped (hsettled : g.count = g.total) (hcap : g.count ≤ g.maxEntries)
    (hmax : g.maxEntries < 2 ^ 32) (horder : order.Perm (g.sweptShard now).keys) (seed : UInt64) :
    Evicted g now ((g.evictSwept now).dropFrom g.evictIndex seed order) := by
  have hdrop := dropped_swept horder seed
  have hswept := evictSwept_settled hsettled now
  have hle : (g.evictSwept now).count ≤ g.count := sweep_count_le _ _ _
  have hsmall : size (g.sweptShard now) < 2 ^ 32 := by
    have := size_le_total g g.evictIndex
    have := size_sweptShard_le g now
    omega
  obtain ⟨hfew, hsome⟩ := dropHits_bounds seed hsmall
  generalize hr : dropSome seed order 0
    ((g.evictSwept now).shards g.evictIndex, (g.evictSwept now).count) = r at hdrop
  have hshards : ((g.evictSwept now).dropFrom g.evictIndex seed order).shards
      = Function.update (g.evictSwept now).shards g.evictIndex r.1 := by rw [← hr]; rfl
  have hcount : ((g.evictSwept now).dropFrom g.evictIndex seed order).count
      = (g.evictSwept now).count - dropHits seed 0 (size (g.sweptShard now)) := by
    rw [← hdrop.count, ← hr]
    rfl
  have hsize := hdrop.size
  dsimp only at hsize
  refine ⟨?_, by omega, rfl, rfl, ?_, ?_, ?_, ?_, ?_⟩
  · have hupdate := total_update hshards
    rw [evictSwept_shards, Function.update_self] at hupdate
    omega
  · intro i hi
    rw [hshards, Function.update_of_ne hi, evictSwept_shards, Function.update_of_ne hi]
  · rw [hshards, Function.update_self]
    have := size_sweptShard_le g now
    omega
  · intro k v hv
    rw [hshards, Function.update_self] at hv
    rcases hdrop.lookup k with hsame | ⟨-, hnone⟩
    · exact kept_sweptShard (hsame.symm.trans hv)
    · rw [hnone] at hv
      cases hv
  · -- Nineteen entries or more: at least one is dropped.
    rw [hcount, hshards, Function.update_self]
    by_cases hbig : 19 ≤ size (g.sweptShard now)
    · left
      have := hsome hbig
      omega
    · right
      omega
  · rw [hshards, Function.update_self, (horder.symm.filter _).length_eq, hdrop.gone]
    exact hfew

/-- **One eviction**, from a guard whose count is right and within the limit. -/
theorem evictOneShard_evicted (hsettled : g.count = g.total) (hcap : g.count ≤ g.maxEntries)
    (hmax : g.maxEntries < 2 ^ 32) (horder : order.Perm (g.sweptShard now).keys) :
    Evicted g now (g.evictOneShard now order) := by
  rcases evictOneShard_cases g now order with ⟨hroom, heq⟩ | ⟨seed, heq⟩
  · rw [heq]
    exact evicted_swept hsettled hroom
  · rw [heq]
    exact evicted_dropped hsettled hcap hmax horder seed

/-! ## Calls one after the other -/

/-- The count is the number of entries, and within the limit. -/
structure Settled (g : ReplayGuard) : Prop where
  settled : g.count = g.total
  cap : g.count ≤ g.maxEntries

theorem Settled.mark (h : g.Settled) (hroom : g.count < g.maxEntries) (p : Bytes) :
    (g.mark p now).1.Settled := by
  have hput := total_put g p now
  have hsettled := h.settled
  unfold ReplayGuard.mark
  cases hseen : g.seen p with
  | none =>
      rw [if_pos hseen] at hput
      refine ⟨?_, ?_⟩
      · show g.count + 1 = (g.put p now).total
        omega
      · show g.count + 1 ≤ g.maxEntries
        omega
  | some v =>
      rw [if_neg (by simp [hseen])] at hput
      dsimp only
      split
      · refine ⟨?_, h.cap⟩
        show g.count = (g.put p now).total
        omega
      · exact h

theorem mark_new {p : Bytes} (h : g.seen p = none) : (g.mark p now).2 = true := by
  rw [mark, h]

theorem mark_maxEntries (g : ReplayGuard) (p : Bytes) (now : Int) :
    (g.mark p now).1.maxEntries = g.maxEntries := by
  unfold mark
  split
  · rfl
  · split <;> rfl

theorem Evicted.settled_guard {r : ReplayGuard} (h : g.Settled) (he : Evicted g now r) :
    r.Settled :=
  ⟨he.settled, by rw [he.maxEntries]; exact he.count_le.trans h.cap⟩

theorem Evicted.size_le_all {r : ReplayGuard} (he : Evicted g now r) (j : Fin replayShardCount) :
    size (r.shards j) ≤ size (g.shards j) := by
  by_cases hj : j = g.evictIndex
  · rw [hj]
    exact he.size_le
  · rw [he.others j hj]

theorem Evicted.seen_none {r : ReplayGuard} (he : Evicted g now r) {p : Bytes}
    (h : g.seen p = none) : r.seen p = none := by
  by_cases hj : shardFor p = g.evictIndex
  · rw [seen, hj] at h ⊢
    cases hv : (r.shards g.evictIndex).lookup p with
    | none => rfl
    | some v =>
        rw [he.kept p v hv] at h
        cases h
  · rw [seen, he.others _ hj]
    exact h

/-- **A call for a new prefix is refused** only when its eviction freed nothing:
the table stays full, and the shard it looked at is a small one. -/
theorem checkAndMark_refused {p : Bytes} {evictNow : Int} (h : g.Settled)
    (hmax : g.maxEntries < 2 ^ 32) (horder : order.Perm (g.sweptShard evictNow).keys)
    (hnew : g.seen p = none) (hno : (g.checkAndMark p evictNow now order).2 = false) :
    Evicted g evictNow (g.checkAndMark p evictNow now order).1 ∧
      g.maxEntries ≤ (g.checkAndMark p evictNow now order).1.count := by
  have hevict := evictOneShard_evicted h.settled h.cap hmax horder
  unfold checkAndMark at hno ⊢
  split at hno
  next hfull =>
    rw [if_pos hfull]
    dsimp only at hno ⊢
    split at hno
    next hstill =>
      rw [if_pos hstill]
      exact ⟨hevict, hevict.maxEntries ▸ hstill⟩
    · rw [mark_new (hevict.seen_none hnew)] at hno
      cases hno
  · rw [mark_new hnew] at hno
    cases hno

theorem checkAndMark_settled {p : Bytes} {evictNow : Int} (h : g.Settled)
    (hmax : g.maxEntries < 2 ^ 32) (horder : order.Perm (g.sweptShard evictNow).keys) :
    (g.checkAndMark p evictNow now order).1.Settled ∧
      (g.checkAndMark p evictNow now order).1.maxEntries = g.maxEntries := by
  have hevict := evictOneShard_evicted h.settled h.cap hmax horder
  unfold checkAndMark
  split
  · dsimp only
    split
    · exact ⟨hevict.settled_guard h, hevict.maxEntries⟩
    next hroom =>
      exact ⟨(hevict.settled_guard h).mark (by omega) p,
        (mark_maxEntries _ p now).trans hevict.maxEntries⟩
  next hroom => exact ⟨h.mark (by omega) p, mark_maxEntries g p now⟩

theorem Settled.sweep (h : g.Settled) (j : Fin replayShardCount) (now : Int) :
    (g.sweep j now).Settled := by
  have htotal := sweep_total g j now
  have hle := sweep_count_le g j now
  have hsettled := h.settled
  have hcap := h.cap
  refine ⟨by omega, ?_⟩
  show _ ≤ g.maxEntries
  omega

/-! ## The round robin -/

/-- The last `n` evictions since the cursor was at `c` left small shards. -/
structure Cramped (c : UInt64) (n : Nat) (g : ReplayGuard) : Prop where
  cursor : g.evictCursor = c + UInt64.ofNat n
  small : ∀ r, 1 ≤ r → r ≤ n →
    size (g.shards (shardAt (c + UInt64.ofNat r))) ≤ 18

theorem Cramped.shrink {c : UInt64} {n : Nat} {r : ReplayGuard} (h : Cramped c n g)
    (hcursor : r.evictCursor = g.evictCursor) (hsize : ∀ j, size (r.shards j) ≤ size (g.shards j)) :
    Cramped c n r :=
  ⟨hcursor.trans h.cursor, fun i h1 hi => (hsize _).trans (h.small i h1 hi)⟩

theorem Cramped.evict {c : UInt64} {n : Nat} {r : ReplayGuard} (h : Cramped c n g)
    (he : Evicted g now r) (hfull : g.maxEntries ≤ r.count) : Cramped c (n + 1) r := by
  have hcursor : g.evictCursor + 1 = c + UInt64.ofNat (n + 1) := by
    rw [h.cursor, UInt64.ofNat_add, UInt64.add_assoc]
    rfl
  refine ⟨he.cursor.trans hcursor, fun i h1 hi => ?_⟩
  rcases Nat.lt_or_ge n i with hlast | hold
  · have hi : i = n + 1 := by omega
    have hindex : shardAt (c + UInt64.ofNat i) = g.evictIndex := by
      rw [evictIndex, hcursor, hi]
    rw [hindex]
    rcases he.room with hroom | hsmall
    · omega
    · exact hsmall
  · exact (he.size_le_all _).trans (h.small i h1 hold)

/-- Sixteen evictions in a row look at every shard. -/
theorem exists_visit (c : UInt64) (j : Fin replayShardCount) :
    ∃ r, 1 ≤ r ∧ r ≤ 16 ∧ shardAt (c + UInt64.ofNat r) = j := by
  have hj : j.val < 16 := j.isLt
  refine ⟨(j.val + 16 - (c.toNat + 1) % 16) % 16 + 1, by omega, by omega, ?_⟩
  ext
  show (c + UInt64.ofNat _).toNat % 16 = j.val
  rw [UInt64.toNat_add, UInt64.toNat_ofNat']
  omega

/-- Sixteen small shards do not fill a guard for 320 entries. -/
theorem Cramped.total_le {c : UInt64} (h : Cramped c 16 g) : g.total ≤ 288 := by
  have hsmall : ∀ j ∈ Finset.univ, (size (g.shards j) : Int) ≤ 18 := by
    intro j _
    obtain ⟨r, h1, h16, hr⟩ := exists_visit c j
    have := h.small r h1 h16
    rw [hr] at this
    omega
  have hsum := Finset.sum_le_card_nsmul Finset.univ _ 18 hsmall
  simpa [total] using hsum

/-- The keys of a shard that are not expired at `now`. -/
def unexpired (g : ReplayGuard) (j : Fin replayShardCount) (now : Int) : List Bytes :=
  (g.shards j).keys.filter fun k => ((g.shards j).lookup k).any fun v => !g.expired now v

theorem unexpired_perm (g : ReplayGuard) (now : Int) :
    (g.unexpired g.evictIndex now).Perm (g.sweptShard now).keys := by
  unfold unexpired
  refine (List.perm_ext_iff_of_nodup ((AList.keys_nodup _).filter _) (AList.keys_nodup _)).mpr
    fun k => ?_
  have hmem : k ∈ (g.sweptShard now).keys ↔ ((g.sweptShard now).lookup k).isSome :=
    AList.lookup_isSome.symm
  have hold : k ∈ (g.shards g.evictIndex).keys
      ↔ ((g.shards g.evictIndex).lookup k).isSome := AList.lookup_isSome.symm
  rw [List.mem_filter, hmem, hold, sweptShard, lookup_deleteWhere]
  cases (g.shards g.evictIndex).lookup k with
  | none => simp
  | some v =>
      rw [Option.filter_some]
      cases hexp : g.expired now v <;> simp [hexp]

end ReplayGuard

/-! ## Runs of calls -/

/-- What happens to a guard: calls, and sweeps between them. -/
inductive GuardOp where
  | checkAndMark (p : Bytes) (evictNow now : Int) (order : List Bytes)
  | gcTick (now : Int)

/-- `order` is the order in which the dropping loop goes through the shard. -/
def guardOpStep (g : ReplayGuard) : GuardOp → Option (ReplayGuard × Option Bool)
  | .checkAndMark p evictNow now order =>
      if order.Perm (g.sweptShard evictNow).keys then
        some ((g.checkAndMark p evictNow now order).1,
          some (g.checkAndMark p evictNow now order).2)
      else none
  | .gcTick now => some (g.gcTick now, none)

def guardOpMachine : Machine ReplayGuard GuardOp (Option Bool) := ⟨guardOpStep⟩

def GuardOp.isCall : GuardOp → Bool
  | .checkAndMark .. => true
  | .gcTick _ => false

/-- A call is for a prefix that is not in the guard. -/
def GuardOp.isNew (g : ReplayGuard) : GuardOp → Prop
  | .checkAndMark p .. => g.seen p = none
  | .gcTick _ => True

section Runs

open ReplayGuard

variable {g g' : ReplayGuard} {op : GuardOp} {out : Option Bool}

theorem guardOpStep_settled (h : g.Settled) (hmax : g.maxEntries < 2 ^ 32)
    (hstep : guardOpStep g op = some (g', out)) :
    g'.Settled ∧ g'.maxEntries = g.maxEntries := by
  cases op with
  | checkAndMark p evictNow now order =>
      simp only [guardOpStep] at hstep
      split at hstep
      next horder =>
        cases hstep
        exact checkAndMark_settled h hmax horder
      · cases hstep
  | gcTick now =>
      cases hstep
      have hsweep := Settled.sweep (g := { g with gcCursor := g.gcCursor + 1 })
        ⟨h.settled, h.cap⟩ (Fin.ofNat replayShardCount g.gcCursor.toNat) now
      exact ⟨hsweep, rfl⟩

theorem gcTick_size_le (g : ReplayGuard) (now : Int) (j : Fin replayShardCount) :
    size ((g.gcTick now).shards j) ≤ size (g.shards j) := by
  rw [gcTick]
  generalize Fin.ofNat replayShardCount g.gcCursor.toNat = i
  have hsize := size_deleteWhere (fun _ v => g.expired now v) (g.shards j)
  show size (Function.update g.shards i _ j) ≤ _
  by_cases hj : j = i
  · subst hj
    rw [Function.update_self]
    show size (deleteWhere (fun _ v => g.expired now v) (g.shards j)).1 ≤ _
    omega
  · rw [Function.update_of_ne hj]

/-- No call was let through yet, and there were fewer than sixteen. -/
structure LockedOut (c : UInt64) (M : Int) (tr : List (GuardOp × Option Bool))
    (g : ReplayGuard) : Prop where
  settled : g.Settled
  limit : g.maxEntries = M
  refused : (∀ x ∈ tr, x.2 ≠ some true) → tr.countP (·.1.isCall) < 16 ∧
    Cramped c (tr.countP (·.1.isCall)) g

theorem LockedOut.step {c : UInt64} {M : Int} (hlo : 320 ≤ M) (hhi : M < 2 ^ 32)
    {tr : List (GuardOp × Option Bool)} (h : LockedOut c M tr g) (hnew : op.isNew g)
    (hstep : guardOpStep g op = some (g', out)) : LockedOut c M (tr ++ [(op, out)]) g' := by
  obtain ⟨hsettled, hlimit⟩ := guardOpStep_settled h.settled (h.limit ▸ hhi) hstep
  refine ⟨hsettled, hlimit.trans h.limit, fun hno => ?_⟩
  obtain ⟨hfew, hcramped⟩ := h.refused fun x hx => hno x (List.mem_append_left _ hx)
  have hlast : out ≠ some true := hno (op, out) (List.mem_append_right _ List.mem_cons_self)
  rw [List.countP_append, List.countP_singleton]
  cases op with
  | checkAndMark p evictNow now order =>
      simp only [guardOpStep] at hstep
      split at hstep
      next horder =>
        cases hstep
        have hrefused : (g.checkAndMark p evictNow now order).2 = false := by
          cases hb : (g.checkAndMark p evictNow now order).2 with
          | false => rfl
          | true => rw [hb] at hlast; exact absurd rfl hlast
        obtain ⟨hevict, hfull⟩ :=
          checkAndMark_refused h.settled (h.limit ▸ hhi) horder hnew hrefused
        have hnext := hcramped.evict hevict hfull
        refine ⟨?_, hnext⟩
        -- The sixteenth refusal would leave a full guard of small shards.
        by_contra hmany
        have hmany : ¬ tr.countP (·.1.isCall) + 1 < 16 := hmany
        have h16 : tr.countP (·.1.isCall) + 1 = 16 := by omega
        rw [h16] at hnext
        have htotal := hnext.total_le
        rw [← hevict.settled] at htotal
        have hM := h.limit
        omega
      · cases hstep
  | gcTick now =>
      cases hstep
      exact ⟨hfew, hcramped.shrink rfl (gcTick_size_le g now)⟩

theorem reached_settled {window maxEntries start : Int} (hhi : maxEntries < 2 ^ 32)
    (hlo : 320 ≤ maxEntries) {tr : List (GuardOp × Option Bool)}
    (hrun : guardOpMachine.Run (newReplayGuard window maxEntries start) tr g) :
    g.Settled ∧ g.maxEntries = maxEntries := by
  refine hrun.invariant (I := fun _ g => g.Settled ∧ g.maxEntries = maxEntries) ?_ ?_
  · have hmax : (newReplayGuard window maxEntries start).maxEntries = maxEntries := by
      show (if maxEntries ≤ 0 then defaultReplayGuardMaxEntries else maxEntries) = maxEntries
      rw [if_neg (by omega)]
    refine ⟨⟨(total_new window maxEntries start).symm, ?_⟩, hmax⟩
    rw [hmax]
    show 0 ≤ maxEntries
    omega
  · intro tr g op g' out hinv hstep
    obtain ⟨hsettled, hlimit⟩ := guardOpStep_settled hinv.1 (hinv.2 ▸ hhi) hstep
    exact ⟨hsettled, hlimit.trans hinv.2⟩

/-- **A full guard locks nobody out**: of any sixteen calls in a row for prefixes
that are not in the guard, at least one is let through, and an eviction takes
from one shard, besides what is expired, at most one entry in ten and two more. -/
theorem never_locked_out (window maxEntries start : Int) (hlo : 320 ≤ maxEntries)
    (hhi : maxEntries < 2 ^ 32) {tr : List (GuardOp × Option Bool)} {g : ReplayGuard}
    (hrun : guardOpMachine.Run (newReplayGuard window maxEntries start) tr g) :
    (∀ calls g', guardOpMachine.Meets (fun _ g op => op.isNew g) g calls g' →
      16 ≤ calls.countP (·.1.isCall) → ∃ x ∈ calls, x.2 = some true) ∧
    ∀ now order, order.Perm (g.sweptShard now).keys →
      (∀ j, j ≠ g.evictIndex → (g.evictOneShard now order).shards j = g.shards j) ∧
      (∀ k v, ((g.evictOneShard now order).shards g.evictIndex).lookup k = some v →
        (g.shards g.evictIndex).lookup k = some v) ∧
      ((g.unexpired g.evictIndex now).filter
          (· ∉ (g.evictOneShard now order).shards g.evictIndex)).length
        ≤ (g.unexpired g.evictIndex now).length / 10 + 2 := by
  obtain ⟨hsettled, hlimit⟩ := reached_settled hhi hlo hrun
  refine ⟨fun calls g' hcalls hmany => ?_, fun now order horder => ?_⟩
  · have hinv : LockedOut g.evictCursor maxEntries calls g' := by
      refine hcalls.invariant (I := LockedOut g.evictCursor maxEntries) ?_ ?_
      · refine ⟨hsettled, hlimit, fun _ => ⟨by decide, ?_, ?_⟩⟩
        · exact (UInt64.add_zero _).symm
        · intro r h1 h0
          simp only [List.countP_nil] at h0
          omega
      · intro tr g op g' out hi hc hs
        exact hi.step hlo hhi hc hs
    by_contra hnone
    have hfew := (hinv.refused fun x hx htrue => hnone ⟨x, hx, htrue⟩).1
    omega
  · have hevict := evictOneShard_evicted hsettled.settled hsettled.cap (hlimit ▸ hhi) horder
    have hperm := unexpired_perm g now
    refine ⟨hevict.others, hevict.kept, ?_⟩
    rw [(hperm.filter _).length_eq, hperm.length_eq]
    exact hevict.removed

end Runs

/-! ## A full guard

320 prefixes that all fall into one shard, and sixteen more: fifteen evictions
find an empty shard, and the sixteenth is from the one that has them all. -/

namespace ReplayGuard

/-- A prefix of the first shard for every number. -/
def crowdPrefix (n : Nat) : Bytes :=
  [0, 0, 0, 0, UInt8.ofNat (n / 256), UInt8.ofNat n] ++ List.replicate 14 0

/-- A guard for 320 entries after `n` prefixes of the crowd, all at time 0, and
`k` evictions. -/
structure Crowded (n k : Nat) (g : ReplayGuard) : Prop where
  count : g.count = n
  limit : g.maxEntries = 320
  window : g.window = 90
  cursor : g.evictCursor = UInt64.ofNat k
  others : ∀ j, j ≠ shardAt 0 → g.shards j = ∅
  sized : size (g.shards (shardAt 0)) = n
  zero : ∀ p v, (g.shards (shardAt 0)).lookup p = some v → v = 0
  fresh : ∀ i, n ≤ i → i < 336 → g.seen (crowdPrefix i) = none

variable {g : ReplayGuard} {n k : Nat}

theorem shardFor_crowdPrefix (n : Nat) : shardFor (crowdPrefix n) = shardAt 0 := by
  simp [shardFor, crowdPrefix, shardAt]

theorem crowdPrefix_ne {i j : Nat} (hi : i < 336) (hj : j < i) :
    crowdPrefix i ≠ crowdPrefix j := by
  intro heq
  have hbytes : UInt8.ofNat (i / 256) = UInt8.ofNat (j / 256) ∧ UInt8.ofNat i = UInt8.ofNat j := by
    simpa [crowdPrefix] using heq
  have hhigh := congrArg UInt8.toNat hbytes.1
  have hlow := congrArg UInt8.toNat hbytes.2
  simp only [UInt8.toNat_ofNat'] at hhigh hlow
  omega

theorem crowded_new : Crowded 0 0 (newReplayGuard 90 320 0) where
  count := rfl
  limit := rfl
  window := rfl
  cursor := rfl
  others := fun _ _ => rfl
  sized := rfl
  zero := fun _ _ h => by cases h
  fresh := fun _ _ _ => rfl

theorem Crowded.index_empty (h : Crowded n k g) (hk : k < 15) : g.shards g.evictIndex = ∅ := by
  refine h.others _ fun hzero => ?_
  have hval := congrArg Fin.val hzero
  rw [evictIndex, h.cursor] at hval
  have hmod : (UInt64.ofNat k + 1).toNat % 16 = 0 := hval
  rw [UInt64.toNat_add, UInt64.toNat_ofNat'] at hmod
  have hone : UInt64.toNat 1 = 1 := rfl
  omega

theorem Crowded.order_nil (h : Crowded n k g) (hk : k < 15) (now : Int) :
    [].Perm (g.sweptShard now).keys := by
  rw [sweptShard, h.index_empty hk]
  exact .nil

/-- An eviction that finds an empty shard moves the cursor and the seed. -/
theorem evictOneShard_empty (h : g.shards g.evictIndex = ∅) (now : Int) :
    ∃ seed, g.evictOneShard now []
      = { g with evictCursor := g.evictCursor + 1, evictSeed := seed } := by
  have hswept : g.evictSwept now = { g with evictCursor := g.evictCursor + 1 } := by
    have hdelete : deleteWhere (fun _ v => g.expired now v) (g.shards g.evictIndex)
        = (g.shards g.evictIndex, 0) := by
      rw [h]
      rfl
    show ({ g with
      evictCursor := g.evictCursor + 1
      shards := Function.update g.shards g.evictIndex
        (deleteWhere (fun _ v => g.expired now v) (g.shards g.evictIndex)).1
      count := g.count - (deleteWhere (fun _ v => g.expired now v) (g.shards g.evictIndex)).2 } :
        ReplayGuard) = _
    rw [hdelete, Function.update_eq_self]
    simp
  rcases evictOneShard_cases g now [] with ⟨-, heq⟩ | ⟨seed, heq⟩
  · exact ⟨g.evictSeed, heq.trans hswept⟩
  · refine ⟨seed, heq.trans ?_⟩
    rw [hswept]
    show ({ g with
      evictCursor := g.evictCursor + 1
      evictSeed := seed
      shards := Function.update g.shards g.evictIndex (g.shards g.evictIndex) } :
        ReplayGuard) = _
    rw [Function.update_eq_self]

theorem put_crowdPrefix_shards (g : ReplayGuard) (n : Nat) :
    (g.put (crowdPrefix n) 0).shards = Function.update g.shards (shardAt 0)
      ((g.shards (shardAt 0)).insert (crowdPrefix n) 0) := by
  rw [put, shardFor_crowdPrefix]

/-- The next prefix of the crowd, let in. -/
theorem Crowded.put (h : Crowded n 0 g) (hn : n < 320) :
    Crowded (n + 1) 0 { g.put (crowdPrefix n) 0 with count := g.count + 1 } := by
  have hnew : g.seen (crowdPrefix n) = none := h.fresh n le_rfl (by omega)
  have hshards := put_crowdPrefix_shards g n
  refine ⟨?_, h.limit, h.window, h.cursor, ?_, ?_, ?_, ?_⟩ <;> dsimp only
  · rw [h.count]
    rfl
  · intro j hj
    rw [hshards, Function.update_of_ne hj]
    exact h.others j hj
  · rw [seen, shardFor_crowdPrefix] at hnew
    rw [hshards, Function.update_self, size_insert_new (AList.lookup_eq_none.mp hnew), h.sized]
  · intro p v hv
    rw [hshards, Function.update_self] at hv
    by_cases hp : p = crowdPrefix n
    · rw [hp, AList.lookup_insert] at hv
      exact (Option.some.inj hv).symm
    · rw [AList.lookup_insert_ne hp] at hv
      exact h.zero p v hv
  · intro i hle hlt
    show (g.put (crowdPrefix n) 0).seen (crowdPrefix i) = none
    rw [seen_put, if_neg (crowdPrefix_ne hlt hle)]
    exact h.fresh i (by omega) hlt

/-- A call of the crowd. -/
def crowdCall (n : Nat) (order : List Bytes) : GuardOp :=
  .checkAndMark (crowdPrefix n) 0 0 order

theorem step_crowdCall {order : List Bytes} (horder : order.Perm (g.sweptShard 0).keys)
    (n : Nat) : guardOpMachine.step g (crowdCall n order)
      = some ((g.checkAndMark (crowdPrefix n) 0 0 order).1,
        some (g.checkAndMark (crowdPrefix n) 0 0 order).2) :=
  if_pos horder

theorem Crowded.fill (h : Crowded n 0 g) (hn : n < 320) :
    ∃ g', guardOpMachine.step g (crowdCall n []) = some (g', some true) ∧
      Crowded (n + 1) 0 g' := by
  have hroom : ¬ g.count ≥ g.maxEntries := by
    rw [h.count, h.limit]
    omega
  have hcall : g.checkAndMark (crowdPrefix n) 0 0 []
      = ({ g.put (crowdPrefix n) 0 with count := g.count + 1 }, true) := by
    rw [checkAndMark, if_neg hroom, mark, h.fresh n le_rfl (by omega)]
  refine ⟨_, ?_, h.put hn⟩
  rw [step_crowdCall (h.order_nil (by decide) 0), hcall]

/-- A full guard whose next shard is empty refuses. -/
theorem Crowded.refuse (h : Crowded 320 k g) (hk : k < 15) (n : Nat) :
    ∃ g', guardOpMachine.step g (crowdCall n []) = some (g', some false) ∧
      Crowded 320 (k + 1) g' := by
  obtain ⟨seed, hevict⟩ := evictOneShard_empty (h.index_empty hk) 0
  have hfull : g.count ≥ g.maxEntries := by
    rw [h.count, h.limit]
    decide
  have hcall : g.checkAndMark (crowdPrefix n) 0 0 []
      = ({ g with evictCursor := g.evictCursor + 1, evictSeed := seed }, false) := by
    rw [checkAndMark, if_pos hfull, hevict]
    exact if_pos hfull
  refine ⟨{ g with evictCursor := g.evictCursor + 1, evictSeed := seed }, ?_, ?_⟩
  · rw [step_crowdCall (h.order_nil hk 0), hcall]
  · refine ⟨h.count, h.limit, h.window, ?_, h.others, h.sized, h.zero, h.fresh⟩
    show g.evictCursor + 1 = _
    rw [h.cursor, UInt64.ofNat_add]
    rfl

theorem exists_crowded (hn : n ≤ 320) :
    ∃ tr g, guardOpMachine.Run (newReplayGuard 90 320 0) tr g ∧ Crowded n 0 g := by
  induction n with
  | zero => exact ⟨[], _, .nil, crowded_new⟩
  | succ n ih =>
      obtain ⟨tr, g, hrun, hcrowd⟩ := ih (by omega)
      obtain ⟨g', hstep, hcrowd'⟩ := hcrowd.fill (by omega)
      exact ⟨_, g', hrun.snoc hstep, hcrowd'⟩

theorem Crowded.isNew (h : Crowded 320 k g) {i : Nat} (hle : 320 ≤ i) (hlt : i < 336)
    (order : List Bytes) : (crowdCall i order).isNew g := h.fresh i hle hlt

theorem Crowded.exists_refused (h : Crowded 320 0 g) (hk : k ≤ 15) :
    ∃ calls g', guardOpMachine.Meets (fun _ g op => op.isNew g) g calls g' ∧
      calls.countP (·.1.isCall) = k ∧ Crowded 320 k g' := by
  induction k with
  | zero => exact ⟨[], g, .nil, rfl, h⟩
  | succ k ih =>
      obtain ⟨calls, g', hcalls, hcount, hcrowd⟩ := ih (by omega)
      obtain ⟨g'', hstep, hcrowd'⟩ := hcrowd.refuse (by omega) (320 + k)
      have hnew := hcrowd.isNew (i := 320 + k) (by omega) (by omega) []
      refine ⟨_, g'', hcalls.snoc hnew hstep, ?_, hcrowd'⟩
      rw [List.countP_append, hcount]
      rfl

/-- After fifteen refusals it is the turn of the crowded shard. -/
theorem Crowded.evictIndex_eq (h : Crowded n 15 g) : g.evictIndex = shardAt 0 := by
  rw [evictIndex, h.cursor]
  rfl

theorem Crowded.length_unexpired (h : Crowded n 15 g) :
    (g.unexpired g.evictIndex 0).length = n := by
  have hall : ∀ p ∈ (g.shards (shardAt 0)).keys,
      (((g.shards (shardAt 0)).lookup p).any fun v => !g.expired 0 v) = true := by
    intro p hp
    obtain ⟨v, hv⟩ := Option.isSome_iff_exists.mp (AList.lookup_isSome.mpr hp)
    rw [hv, h.zero p v hv, Option.any_some, expired, h.window]
    rfl
  rw [h.evictIndex_eq, unexpired, List.filter_eq_self.mpr hall]
  exact h.sized

end ReplayGuard

/-- Fifteen calls are refused, and the guarantee is about the sixteenth. -/
theorem never_locked_out_crowded :
    (320 : Int) ≤ 320 ∧ (320 : Int) < 2 ^ 32 ∧
      ∃ tr g refused g₁ call g₂,
        guardOpMachine.Run (newReplayGuard 90 320 0) tr g ∧ g.count = g.maxEntries ∧
        guardOpMachine.Meets (fun _ g op => op.isNew g) g refused g₁ ∧
        guardOpMachine.Meets (fun _ g op => op.isNew g) g (refused ++ [call]) g₂ ∧
        (refused ++ [call]).countP (·.1.isCall) = 16 ∧
        (∃ x ∈ refused ++ [call], x.2 = some true) ∧
        (g₁.unexpired g₁.evictIndex 0).length = 320 ∧
        ((g₁.unexpired g₁.evictIndex 0).filter (· ∉ (g₁.evictOneShard 0
          (g₁.sweptShard 0).keys).shards g₁.evictIndex)).length ≤ 34 := by
  obtain ⟨tr, g, hrun, hcrowd⟩ := ReplayGuard.exists_crowded (n := 320) le_rfl
  obtain ⟨refused, g₁, hrefused, hcount, hturn⟩ := hcrowd.exists_refused (k := 15) le_rfl
  have hperm : (g₁.sweptShard 0).keys.Perm (g₁.sweptShard 0).keys := .refl _
  -- The sixteenth call evicts from the crowded shard.
  have hcalls := hrefused.snoc (hturn.isNew (i := 335) (by decide) (by decide) _)
    (ReplayGuard.step_crowdCall hperm 335)
  have hsixteen (b : Option Bool) : (refused
      ++ [(ReplayGuard.crowdCall 335 (g₁.sweptShard 0).keys, b)]).countP (·.1.isCall) = 16 := by
    rw [List.countP_append, hcount]
    rfl
  have hpass :=
    (never_locked_out 90 320 0 (by decide) (by decide) hrun).1 _ _ hcalls (hsixteen _).ge
  have hfew := ((never_locked_out 90 320 0 (by decide) (by decide)
    (hrun.trans hrefused.run)).2 0 _ hperm).2.2
  rw [hturn.length_unexpired] at hfew
  have hfull : g.count = g.maxEntries := by
    rw [hcrowd.count, hcrowd.limit]
    rfl
  exact ⟨by decide, by decide, tr, g, refused, g₁, _, _, hrun, hfull, hrefused, hcalls,
    hsixteen _, hpass, hturn.length_unexpired, hfew⟩

end Reality
