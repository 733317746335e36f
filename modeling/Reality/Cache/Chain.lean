import Reality.Cache.Lookup

/-!
# The chain of keys

A lookup tries the exact, the soft and the legacy key and takes the FIRST
entry that answers. Whether an entry answers is a matter of that entry, the
arguments and the time alone, so a lookup is a search through the list of its
keys: ageing one entry on the way does not change what the later keys say.

What the search rests on besides the cache is the live cipher suite and group.
Learning them can only take answers away, so a second lookup stops at the same
key as the first or goes on behind it.
-/

namespace Reality

open Kit

/-- The keys a lookup tries, in order. -/
def Query.keys (q : Query) : List Bytes :=
  (if q.chClass ≠ [] then [q.exactKey] else []) ++
    ((if q.softChClass ≠ [] && q.softChClass ≠ q.chClass then [q.softKey] else []) ++
      [q.legacyKey])

namespace ProfileEntry

/-- Negative or quarantined, by the state or by its lock-free copy. -/
def rejected (e : ProfileEntry) : Bool :=
  e.atomicState = .negative || e.atomicState = .quarantined ||
    (e.state = .negative || e.state = .quarantined)

/-- The entry answers under `key`: its profile is complete and goes zero-dial, or
does not contradict the arguments. -/
def answers (e : ProfileEntry) (q : Query) (now : Int) (key : Bytes) : Bool :=
  !e.rejected && e.profile.any fun p =>
    validateRecordLens p.recordLens &&
      (l2Allowed (resolveAmortizeMode q.mode) q now key (e.state = .suspect)
          (e.state = .stale || timeSub now p.capturedAt ≥ e.ttl) p ||
        !l1Conflict q p)

theorem Ageable.not_rejected {e : ProfileEntry} (h : e.Ageable) : e.rejected = false := by
  simp [rejected, h.1, h.2.1, h.2.2]

/-- An entry that did not answer does not answer once it is stale. -/
theorem Ageable.answers_stale {e : ProfileEntry} {q : Query} {now : Int} {key : Bytes}
    (h : e.Ageable) (hno : e.answers q now key = false) :
    (e.setState .stale).answers q now key = false := by
  rw [answers, h.not_rejected] at hno
  rw [answers]
  cases hp : e.profile with
  | none => simp [setState, hp]
  | some p =>
      rw [hp] at hno
      simp only [Bool.not_false, Bool.true_and, Option.any_some, Bool.and_eq_false_iff,
        Bool.or_eq_false_iff] at hno
      rcases hno with hlens | ⟨-, hconf⟩
      · simp [setState, hp, hlens]
      · simp [setState, hp, hconf, l2Allowed]

end ProfileEntry

namespace CacheManager

variable {m m' : CacheManager} {q : Query} {now : Int} {key k : Bytes}

def answers (m : CacheManager) (q : Query) (now : Int) (key : Bytes) : Bool :=
  (m.load key).any (·.answers q now key)

/-- The key a lookup stops at. -/
def firstAnswer (m : CacheManager) (q : Query) (now : Int) : Option Bytes :=
  if resolveAmortizeMode q.mode = .l0 then none else q.keys.find? (m.answers q now)

theorem serving_mode {mode : AmortizeMode} (h : resolveAmortizeMode mode ≠ .l0) :
    (decide (resolveAmortizeMode mode = .l1) || decide (resolveAmortizeMode mode = .auto) ||
      decide (resolveAmortizeMode mode = .l2)) = true := by
  rcases resolveAmortizeMode_cases mode with h' | h' | h' | h'
  · exact absurd h' h
  · simp [h']
  · simp [h']
  · simp [h']

/-- A probe answers when the entry does. -/
theorem probe_isSome (hmode : resolveAmortizeMode q.mode ≠ .l0) :
    (m.probe (resolveAmortizeMode q.mode) q now key).2.isSome = m.answers q now key := by
  have hserving := serving_mode hmode
  unfold probe answers ProfileEntry.answers ProfileEntry.rejected
  cases m.load key with
  | none => rfl
  | some e =>
      dsimp only [Option.any_some]
      split
      next hr => simp [hr]
      next hr =>
        split
        next hs => simp [hs]
        next hs =>
          simp only [Bool.not_eq_true] at hr hs
          rw [hr, hs]
          cases e.profile with
          | none => rfl
          | some p =>
              dsimp only [Option.any_some]
              cases hlens : validateRecordLens p.recordLens with
              | false => rfl
              | true =>
                  simp only [Bool.not_true, Bool.false_eq_true, if_false, Bool.or_false,
                    Bool.not_false, Bool.true_and]
                  split
                  next hl2 => simp [hl2]
                  next hl2 =>
                    simp only [Bool.not_eq_true] at hl2
                    rw [hl2]
                    cases l1Conflict q p <;> rfl

/-- A probe without an answer does not change what any key says. -/
theorem probe_answers (hmode : resolveAmortizeMode q.mode ≠ .l0)
    (h : (m.probe (resolveAmortizeMode q.mode) q now key).2 = none) (k : Bytes) :
    (m.probe (resolveAmortizeMode q.mode) q now key).1.answers q now k = m.answers q now k := by
  have hno : m.answers q now key = false := by rw [← probe_isSome hmode, h]; rfl
  rcases probe_fst m (resolveAmortizeMode q.mode) q now key with hsame | ⟨e, he, hage, hput⟩
  · rw [hsame]
  · rw [hput]
    -- Only the probed entry changes, and it was one that did not answer.
    by_cases hk : k = key
    · subst hk
      have hold : e.answers q now k = false := by simpa [answers, he] using hno
      rw [hno, answers, load_put_self]
      exact hage.answers_stale hold
    · rw [answers, answers, load_put_ne m hk]

/-- One link of the chain: `key` is tried when `c` holds. -/
def attempt (m : CacheManager) (q : Query) (now : Int) (c : Prop) [Decidable c] (key : Bytes) :
    CacheManager × Option LookupResult :=
  if c then m.probe (resolveAmortizeMode q.mode) q now key else (m, none)

/-- ... and the lookup goes on with `next` when it does not answer. -/
def link (m : CacheManager) (q : Query) (now : Int) (c : Prop) [Decidable c] (key : Bytes)
    (next : CacheManager → CacheManager × LookupResult) : CacheManager × LookupResult :=
  match (m.attempt q now c key).2 with
  | some r => ((m.attempt q now c key).1, r)
  | none => next (m.attempt q now c key).1

theorem lookupAmortize_eq_link (hmode : resolveAmortizeMode q.mode ≠ .l0) :
    m.lookupAmortize q now =
      m.link q now (q.chClass ≠ []) q.exactKey fun m =>
        m.link q now ((q.softChClass ≠ [] && q.softChClass ≠ q.chClass) = true) q.softKey fun m =>
          m.link q now True q.legacyKey fun m => (m, {}) := by
  rw [lookupAmortize, if_neg hmode]
  rfl

section Attempt

variable {c : Prop} [Decidable c]

/-- `r` is what a search through `keys` finds. -/
def Finds (m : CacheManager) (q : Query) (now : Int) (keys : List Bytes) (r : LookupResult) :
    Prop :=
  r = {} ∧ keys.find? (m.answers q now) = none ∨
    r.path ≠ .l0 ∧ keys.find? (m.answers q now) = some r.key

theorem attempt_some {r : LookupResult} (hmode : resolveAmortizeMode q.mode ≠ .l0)
    (h : (m.attempt q now c key).2 = some r) :
    (if c then [key] else []).find? (m.answers q now) = some r.key ∧ r.path ≠ .l0 := by
  unfold attempt at h
  split at h
  next hc =>
    obtain ⟨e, p, -, hans⟩ := probe_some h
    have hyes : m.answers q now key = true := by rw [← probe_isSome hmode, h]; rfl
    refine ⟨?_, ?_⟩
    · rw [if_pos hc, List.find?_cons, hyes, hans.key_eq]
    · rcases hans.path with ⟨hp, -⟩ | ⟨hp, -⟩
      · rw [hp]; decide
      · rw [hp]; decide
  · cases h

theorem attempt_none (hmode : resolveAmortizeMode q.mode ≠ .l0)
    (h : (m.attempt q now c key).2 = none) :
    (if c then [key] else []).find? (m.answers q now) = none ∧
      (m.attempt q now c key).1.answers q now = m.answers q now := by
  unfold attempt at h ⊢
  by_cases hc : c
  · rw [if_pos hc] at h
    have hno : m.answers q now key = false := by rw [← probe_isSome hmode, h]; rfl
    rw [if_pos hc, if_pos hc, List.find?_cons, hno]
    exact ⟨rfl, funext fun k => probe_answers hmode h k⟩
  · rw [if_neg hc, if_neg hc]
    exact ⟨rfl, rfl⟩

/-- A link in front of a search. -/
theorem Finds.link {next : CacheManager → CacheManager × LookupResult} {keys : List Bytes}
    (hmode : resolveAmortizeMode q.mode ≠ .l0) (h : ∀ m', Finds m' q now keys (next m').2) :
    Finds m q now ((if c then [key] else []) ++ keys) (m.link q now c key next).2 := by
  unfold Finds CacheManager.link
  rw [List.find?_append]
  cases hr : (m.attempt q now c key).2 with
  | some r =>
      obtain ⟨hfind, hpath⟩ := attempt_some hmode hr
      rw [hfind]
      exact .inr ⟨hpath, rfl⟩
  | none =>
      obtain ⟨hfind, hans⟩ := attempt_none hmode hr
      rw [hfind, Option.none_or, ← hans]
      exact h _

end Attempt

/-- **A lookup is a search**: it answers from the first key whose entry answers. -/
theorem lookupAmortize_finds (m : CacheManager) (hmode : resolveAmortizeMode q.mode ≠ .l0)
    (now : Int) : Finds m q now q.keys (m.lookupAmortize q now).2 := by
  have hlast : ∀ m : CacheManager, Finds m q now ((if True then [q.legacyKey] else []) ++ [])
      (m.link q now True q.legacyKey fun m => (m, {})).2 :=
    fun m => Finds.link hmode fun m₃ => .inl ⟨rfl, rfl⟩
  rw [lookupAmortize_eq_link hmode]
  exact Finds.link hmode fun m₁ => Finds.link hmode fun m₂ => hlast m₂

theorem lookupAmortize_first (m : CacheManager) (q : Query) (now : Int) :
    (m.lookupAmortize q now).2 = {} ∧ m.firstAnswer q now = none ∨
      (m.lookupAmortize q now).2.path ≠ .l0 ∧
        m.firstAnswer q now = some (m.lookupAmortize q now).2.key := by
  unfold firstAnswer
  by_cases hmode : resolveAmortizeMode q.mode = .l0
  · rw [if_pos hmode, lookupAmortize, if_pos hmode]
    exact .inl ⟨rfl, rfl⟩
  · rw [if_neg hmode]
    exact lookupAmortize_finds m hmode now

theorem ne_nil_of_firstAnswer (h : m.firstAnswer q now = some key) : key ≠ [] := by
  unfold firstAnswer at h
  split at h
  · cases h
  · have hmem := List.mem_of_find?_eq_some h
    simp only [Query.keys, List.mem_append, List.mem_ite_nil_right, List.mem_singleton] at hmem
    rcases hmem with ⟨-, rfl⟩ | ⟨-, rfl⟩ | rfl
    · simp [Query.exactKey, cacheKeyV2_eq]
    · simp [Query.softKey, cacheKeyV2_eq]
    · simp [Query.legacyKey, cacheKey_eq]

/-! ## Two lookups of one cache -/

/-- Two searches through one list whose answers each satisfies the other's test. -/
theorem find?_unique {α : Type*} {p p' : α → Bool} {a b : α} : ∀ {l : List α},
    l.find? p = some a → l.find? p' = some b → p b = true → p' a = true → a = b := by
  intro l
  induction l with
  | nil => intro h; cases h
  | cons x l ih =>
      intro ha hb hpb hpa
      rw [List.find?_cons] at ha hb
      -- A head that one test accepts is that search's answer, and then the other's too.
      cases hx : p x <;> cases hx' : p' x <;> rw [hx] at ha <;> rw [hx'] at hb
      · exact ih ha hb hpb hpa
      · cases hb; rw [hx] at hpb; cases hpb
      · cases ha; rw [hx'] at hpa; cases hpa
      · exact (Option.some.inj ha).symm.trans (Option.some.inj hb)

end CacheManager

/-- The entry serves its lengths to a handshake with the arguments of `q`. -/
def ProfileEntry.serves (e : ProfileEntry) (q : Query) : Bool :=
  !e.rejected && e.profile.any fun p => validateRecordLens p.recordLens && !l1Conflict q p

/-- The arguments before the ServerHello has been seen. -/
def Query.unknown (q : Query) : Query := { q with liveCipher := 0, liveGroup := 0 }

theorem l1Conflict_unknown {q : Query} {p : RealityProfile} (h : l1Conflict q p = false) :
    l1Conflict q.unknown p = false := by
  simp only [l1Conflict, Bool.or_eq_false_iff] at h
  exact h.2

namespace ProfileEntry

variable {e : ProfileEntry} {q : Query}

theorem serves_answers (h : e.serves q = true) (now : Int) (key : Bytes) :
    e.answers q now key = true := by
  simp only [serves, Bool.and_eq_true, Option.any_eq_true] at h
  obtain ⟨hr, p, hp, hlens, hconf⟩ := h
  simp [answers, hr, hp, hlens, hconf]

theorem serves_unknown (h : e.serves q = true) : e.serves q.unknown = true := by
  simp only [serves, Bool.and_eq_true, Option.any_eq_true, Bool.not_eq_true'] at h ⊢
  obtain ⟨hr, p, hp, hlens, hconf⟩ := h
  exact ⟨hr, p, hp, hlens, l1Conflict_unknown hconf⟩

theorem Ageable.serves_stale (h : e.Ageable) : (e.setState .stale).serves q = e.serves q := by
  have hr : (e.setState .stale).rejected = false := by simp [rejected, setState]
  rw [serves, serves, hr, h.not_rejected]
  rfl

end ProfileEntry

namespace CacheManager

variable {m m' : CacheManager} {q : Query} {now now' : Int} {key k : Bytes}

def serves (m : CacheManager) (q : Query) (key : Bytes) : Bool := (m.load key).any (·.serves q)

theorem serves_answers (h : m.serves q key = true) (now : Int) :
    m.answers q now key = true := by
  simp only [serves, Option.any_eq_true] at h
  obtain ⟨e, he, hs⟩ := h
  simp [answers, he, ProfileEntry.serves_answers hs]

theorem serves_unknown (h : m.serves q key = true) : m.serves q.unknown key = true := by
  simp only [serves, Option.any_eq_true] at h ⊢
  obtain ⟨e, he, hs⟩ := h
  exact ⟨e, he, ProfileEntry.serves_unknown hs⟩

theorem Aged.serves_eq (h : Aged m m') (q : Query) (key : Bytes) :
    m'.serves q key = m.serves q key := by
  unfold serves
  rcases h.1 key with hsame | ⟨e, he, hage, hs⟩
  · rw [hsame]
  · rw [hs, he, Option.any_some, Option.any_some, hage.serves_stale]

theorem find?_answers (h : (m.lookupAmortize q now).2.path = .l1) :
    resolveAmortizeMode q.mode ≠ .l0 ∧
      q.keys.find? (m.answers q now) = some (m.lookupAmortize q now).2.key := by
  by_cases hmode : resolveAmortizeMode q.mode = .l0
  · rw [lookupAmortize, if_pos hmode] at h
    cases h
  · refine ⟨hmode, ?_⟩
    rcases lookupAmortize_finds m hmode now with ⟨h0, -⟩ | ⟨-, hfind⟩
    · rw [h0] at h
      cases h
    · exact hfind

/-- An answer on path L1 comes from an entry that serves. -/
theorem serves_of_lookup (h : (m.lookupAmortize q now).2.path = .l1) :
    m.serves q (m.lookupAmortize q now).2.key = true := by
  obtain ⟨key, e, p, -, he, hans⟩ := lookupAmortize_answered rfl (by rw [h]; decide)
  have hconf : l1Conflict q p = false := by
    rcases hans.path with ⟨hl2, -⟩ | ⟨-, hconf⟩
    · rw [h] at hl2
      cases hl2
    · exact hconf
  have hr : e.rejected = false := by
    simp [ProfileEntry.rejected, hans.atomicNeg, hans.atomicQuar, hans.stateNeg, hans.stateQuar]
  rw [hans.key_eq]
  simp [serves, ProfileEntry.serves, he, hr, hans.holds, hans.lens, hconf]

/-- ... and it is the first that serves. -/
theorem find?_serves (h : (m.lookupAmortize q now).2.path = .l1) :
    q.keys.find? (m.serves q) = some (m.lookupAmortize q now).2.key := by
  have hserves := serves_of_lookup h
  obtain ⟨hmode, hfind⟩ := find?_answers h
  rw [List.find?_eq_some_iff_append] at hfind ⊢
  obtain ⟨-, before, after, hkeys, hbefore⟩ := hfind
  refine ⟨hserves, before, after, hkeys, ?_⟩
  intro k hk
  have hno := hbefore k hk
  cases hs : m.serves q k with
  | false => rfl
  | true => rw [serves_answers hs now] at hno; exact hno

/-- **Where the second lookup stops.** With no write in between, a lookup that
knows the live values and answers on path L1 stops where the one that did not
know them stopped, unless the entry there contradicts them. -/
theorem firstAnswer_unknown_iff (haged : Aged m m')
    (h : (m'.lookupAmortize q now').2.path = .l1) :
    m.firstAnswer q.unknown now = some (m'.lookupAmortize q now').2.key ↔
      ∀ k, m.firstAnswer q.unknown now = some k → m.serves q k = true := by
  have hserves : m.serves q (m'.lookupAmortize q now').2.key = true := by
    rw [← haged.serves_eq]
    exact serves_of_lookup h
  obtain ⟨hmode, hfirst⟩ := find?_answers h
  constructor
  · intro hsame k hk
    rw [hsame] at hk
    cases hk
    exact hserves
  · intro hk
    have hback : m.answers q.unknown now (m'.lookupAmortize q now').2.key = true :=
      serves_answers (serves_unknown hserves) now
    have hmode' : resolveAmortizeMode q.unknown.mode ≠ .l0 := hmode
    unfold firstAnswer at hk ⊢
    rw [if_neg hmode'] at hk ⊢
    cases hf : q.unknown.keys.find? (m.answers q.unknown now) with
    | none =>
        -- The entry that answers now would have answered without the live values.
        have hmem := List.mem_of_find?_eq_some hfirst
        exact absurd hback (List.find?_eq_none.mp hf _ hmem)
    | some k =>
        have hforth : m'.answers q now' k = true :=
          serves_answers ((haged.serves_eq q k).trans (hk k hf)) now'
        rw [find?_unique hf hfirst hback hforth]

end CacheManager

end Reality
