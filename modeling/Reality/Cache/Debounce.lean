import Reality.Cache.Ops

/-!
# The two-observation rule

`StoreObservation` says that a mismatch is DEBOUNCED: the profile at a key gives
way to another only after two consecutive observations of the other. There is
no slot for the candidate, though: the first mismatching observation is put in
the place of the profile it contradicts, and the entry turns suspect.

A lookup does not go zero-dial on a suspect entry, but it serves its lengths on
path L1. So one outlier reaches every client until the next observation. What
keeps the rule is only that nobody looks: an entry that is NOT suspect holds
the shape it began with, or one that was observed twice in a row.
-/

namespace Reality

open Kit

/-- Cipher suite and R0..R5. -/
abbrev WireShape := UInt16 × (Fin 6 → Int)

def RealityProfile.shape (p : RealityProfile) : WireShape :=
  (p.cipherSuite, fun i => p.recordLens i.castSucc)

/-- Profiles that match have one shape. -/
theorem profilesMatch_shape {a b : RealityProfile} (h : profilesMatch a b = true) :
    a.shape = b.shape := by
  simp only [profilesMatch, Bool.if_false_left, Bool.and_eq_true, Bool.not_eq_true',
    decide_eq_false_iff_not, ne_eq, not_not] at h
  obtain ⟨hsuite, -, -, -, hlens, -⟩ := h
  simp only [Bool.not_eq_false, List.all_eq_true, List.mem_range, decide_eq_true_eq] at hlens
  refine Prod.ext hsuite (funext fun i => ?_)
  have hi : Fin.ofNat 7 i = i.castSucc := by
    ext
    simp only [Fin.val_ofNat, Fin.val_castSucc]
    omega
  have hlen := hlens i i.isLt
  rwa [hi] at hlen

@[simp] theorem shape_normalizeObs (obs : RealityProfile) :
    (normalizeObs obs).shape = obs.shape := by
  unfold normalizeObs
  dsimp only
  split <;> split <;> rfl

@[simp] theorem shape_stampFirst (obs : RealityProfile) : (stampFirst obs).shape = obs.shape := by
  unfold stampFirst
  split <;> rfl

@[simp] theorem shape_mergeObs (cur obs : RealityProfile) :
    (mergeObs cur obs).shape = obs.shape := rfl

/-! ## Observations in a row -/

/-- `X` comes twice in a row in `l`, behind every `P`. -/
def TwiceSince {α : Type*} (P X : α) (l : List α) : Prop :=
  ∃ a b, l = a ++ [X, X] ++ b ∧ P ∉ b

namespace TwiceSince

variable {α : Type*} {P X Y : α} {l : List α}

theorem snoc (h : TwiceSince P X l) (hY : P ≠ Y) : TwiceSince P X (l ++ [Y]) := by
  obtain ⟨a, b, rfl, hb⟩ := h
  refine ⟨a, b ++ [Y], (List.append_assoc ..), ?_⟩
  rw [List.mem_append, List.mem_singleton]
  exact not_or.mpr ⟨hb, hY⟩

theorem of_getLast (h : l.getLast? = some X) : TwiceSince P X (l ++ [X]) := by
  obtain ⟨a, rfl⟩ := List.getLast?_eq_some_iff.mp h
  exact ⟨a, [], by simp, List.not_mem_nil⟩

end TwiceSince

/-- The shape an operation stored at `k`, if it did. -/
def storedShape (k : Bytes) : CacheOp × CacheOut → Option WireShape
  | (.storeObservation key obs _ _, .stored o) =>
      if key = k && o ≠ .ignored then some obs.shape else none
  | _ => none

/-- The shapes of the observations stored at `k`, in order. -/
def shapesAt (k : Bytes) (tr : List (CacheOp × CacheOut)) : List WireShape :=
  tr.filterMap (storedShape k)

theorem shapesAt_snoc (k : Bytes) (tr : List (CacheOp × CacheOut)) (x : CacheOp × CacheOut) :
    shapesAt k (tr ++ [x]) = shapesAt k tr ++ (storedShape k x).toList := by
  unfold shapesAt
  rw [List.filterMap_append]
  cases hx : storedShape k x <;> simp [hx]

/-- A lookup keeps the rule at `k`: a shape other than `P` was stored there twice
in a row since `P` was last. -/
def Debounced (k : Bytes) (P : WireShape) (tr : List (CacheOp × CacheOut)) (r : LookupResult) :
    Prop :=
  r.key = k → r.path ≠ .l0 → ∀ p, r.profile = some p → p.shape ≠ P →
    TwiceSince P p.shape (shapesAt k tr)

/-! ## What an entry holds -/

/-- The calls the rule is about: observations at `k`, and lookups, which do not try
`k` while the entry there is suspect and holds another shape than `P`. -/
def DebounceOp (k : Bytes) (P : WireShape) (_ : List (CacheOp × CacheOut)) (m : CacheManager) :
    CacheOp → Prop
  | .storeObservation key _ _ _ => key = k
  | .lookup q _ => CacheManager.Tries q k → ∀ e p, m.load k = some e → e.profile = some p →
      e.state = .suspect → p.shape = P
  | _ => False

/-- An entry after the observations `l`: a suspect one holds the last of them,
any other `P` or what came twice. -/
structure Holding (P : WireShape) (l : List WireShape) (e : ProfileEntry)
    (p : RealityProfile) : Prop where
  profile : e.profile = some p
  state : e.state = .valid ∨ e.state = .stale ∨ e.state = .suspect
  suspect : e.state = .suspect → l.getLast? = some p.shape
  settled : e.state ≠ .suspect → p.shape = P ∨ TwiceSince P p.shape l

namespace Holding

variable {P : WireShape} {l : List WireShape} {e : ProfileEntry} {p : RealityProfile}

theorem not_quarantined (h : Holding P l e p) : e.state ≠ .quarantined := by
  rcases h.state with hs | hs | hs <;> rw [hs] <;> decide

/-- An entry that holds a matching profile is settled afterwards. -/
theorem merged (h : Holding P l e p) {obs : RealityProfile} (hm : p.shape = obs.shape) :
    obs.shape = P ∨ TwiceSince P obs.shape (l ++ [obs.shape]) := by
  -- A suspect entry was put there by the observation before this one.
  by_cases hs : e.state = .suspect
  · right
    apply TwiceSince.of_getLast
    rw [← hm]
    exact h.suspect hs
  · by_cases hP : obs.shape = P
    · exact .inl hP
    · have htwice := (h.settled hs).resolve_left (hm ▸ hP)
      rw [hm] at htwice
      exact .inr (htwice.snoc (Ne.symm hP))

/-- **The observation step.** -/
theorem observe (h : Holding P l e p) (obs : RealityProfile) (ttl now : Int) :
    (e.observe obs ttl now).2 ≠ .ignored ∧
      ∃ p', Holding P (l ++ [obs.shape]) (e.observe obs ttl now).1 p' := by
  rcases e.observe_cases obs ttl now with
    ⟨hq, -⟩ | ⟨hq, -⟩ | ⟨-, hout, hstate, q, hq, hmatch, hprofile⟩ | ⟨-, hout, hstate, hprofile⟩
  · exact absurd hq h.not_quarantined
  · exact absurd hq h.not_quarantined
  · cases h.profile.symm.trans hq
    refine ⟨by rw [hout]; decide, mergeObs p obs, hprofile, .inl hstate, ?_, ?_⟩
    · intro hs
      rw [hstate] at hs
      cases hs
    · intro _
      rw [shape_mergeObs]
      exact h.merged (profilesMatch_shape hmatch)
  · refine ⟨by rw [hout]; decide, stampFirst obs, hprofile, .inr (.inr hstate), ?_, ?_⟩
    · intro _
      simp
    · intro hs
      exact absurd hstate hs

theorem aged (h : Holding P l e p) (hage : e.Ageable) : Holding P l (e.setState .stale) p := by
  refine ⟨h.profile, .inr (.inl rfl), (fun hs => by cases hs), fun _ => h.settled ?_⟩
  rw [hage.1]
  decide

end Holding

/-- The entry at `k` after the trace. -/
def HoldingAt (k : Bytes) (P : WireShape) (tr : List (CacheOp × CacheOut))
    (m : CacheManager) : Prop :=
  ∃ e p, m.load k = some e ∧ Holding P (shapesAt k tr) e p

namespace HoldingAt

variable {k : Bytes} {P : WireShape} {tr : List (CacheOp × CacheOut)} {m : CacheManager}

theorem store (h : HoldingAt k P tr m) (obs : RealityProfile) (now : Int) (order : List Bytes) :
    HoldingAt k P (tr ++ [(.storeObservation k obs now order,
      .stored (m.storeRecovered k obs now order).2)]) (m.storeRecovered k obs now order).1 := by
  obtain ⟨e, p, he, hold⟩ := h
  unfold HoldingAt CacheManager.storeRecovered CacheManager.storeObservation
  rw [shapesAt_snoc]
  by_cases hl : validateRecordLens obs.recordLens = true
  · obtain ⟨hne, p', hold'⟩ := hold.observe (normalizeObs obs) m.baseTTL now
    rw [shape_normalizeObs] at hold'
    simp only [hl, Bool.not_true, Bool.false_eq_true, if_false, he, if_neg hne]
    refine ⟨_, p', CacheManager.load_put_self .., ?_⟩
    simpa [storedShape, hne] using hold'
  · simp only [hl, Bool.not_false, if_true]
    exact ⟨e, p, he, by simpa [storedShape] using hold⟩

theorem lookup (h : HoldingAt k P tr m) (q : Query) (now : Int) :
    HoldingAt k P (tr ++ [(.lookup q now, .found (m.lookupAmortize q now).2)])
      (m.lookupAmortize q now).1 := by
  obtain ⟨e, p, he, hold⟩ := h
  unfold HoldingAt
  have hnone : storedShape k (.lookup q now, .found (m.lookupAmortize q now).2) = none := rfl
  rw [shapesAt_snoc, hnone, Option.toList_none, List.append_nil]
  rcases (CacheManager.lookupAmortize_aged m q now).1 k with hsame | ⟨e', he', hage, hs⟩
  · exact ⟨e, p, hsame.trans he, hold⟩
  · cases he.symm.trans he'
    exact ⟨_, p, hs, hold.aged hage⟩

/-- One call keeps it. -/
theorem step {m' : CacheManager} {op : CacheOp} {out : CacheOut} (h : HoldingAt k P tr m)
    (hop : DebounceOp k P tr m op) (hs : cacheStep m op = some (m', out)) :
    HoldingAt k P (tr ++ [(op, out)]) m' := by
  cases op with
  | storeObservation key obs now order =>
      have hk : key = k := hop
      subst hk
      cases hs
      exact h.store obs now order
  | lookup q now =>
      cases hs
      exact h.lookup q now
  | _ => exact absurd hop id

end HoldingAt

/-- **The two-observation rule, where nobody looks at a suspect.** An entry that is
valid or stale and has shape `P`, any observations at its key and any lookups, but
none of that key while the entry is suspect with another shape: every lookup serves
from the key the shape `P`, or one that was stored there twice in a row since. -/
theorem debounced {m₀ m : CacheManager} {k : Bytes} {e : ProfileEntry} {p : RealityProfile}
    {tr : List (CacheOp × CacheOut)} (he : m₀.load k = some e) (hp : e.profile = some p)
    (hstate : e.state = .valid ∨ e.state = .stale)
    (hrun : cacheMachine.Meets (DebounceOp k p.shape) m₀ tr m) (q : Query) (now : Int)
    (hlook : DebounceOp k p.shape tr m (.lookup q now)) :
    Debounced k p.shape tr (m.lookupAmortize q now).2 := by
  have hinv : HoldingAt k p.shape tr m := by
    refine hrun.invariant (I := HoldingAt k p.shape) ⟨e, p, he, hp, ?_, ?_, ?_⟩ ?_
    · exact hstate.imp_right .inl
    · intro hs
      rcases hstate with h | h <;> rw [hs] at h <;> cases h
    · exact fun _ => .inl rfl
    · intro tr s a s' b hI hC hs
      exact hI.step hC hs
  obtain ⟨e', p', he', hold⟩ := hinv
  intro hkey hpath q' hq' hne
  obtain ⟨key, e'', p'', htries, he'', hans⟩ := CacheManager.lookupAmortize_answered rfl hpath
  rw [hans.key_eq] at hkey
  subst hkey
  cases he'.symm.trans he''
  cases hold.profile.symm.trans hans.holds
  cases hans.profile.symm.trans hq'
  -- The lookup met an entry that is not suspect: the condition leaves no other.
  refine (hold.settled ?_).resolve_left hne
  intro hsuspect
  exact hne (hlook htries e' p' he' hold.profile hsuspect)

/-! ## One outlier -/

def outlierQuery : Query :=
  { mode := .l2, dest := str "d:443", serverName := str "a.io", alpn := str "h2"
    chClass := str "1f", softChClass := str "s:1f" }

/-- The key of a valid entry that holds the ready profile. -/
def outlierKey : Bytes := outlierQuery.exactKey

def steady : RealityProfile := CacheManager.readyProfile outlierQuery

def steadyCache : CacheManager := CacheManager.readyCache outlierQuery outlierKey

/-- An observation whose R3 is one byte longer. -/
def outlier : RealityProfile :=
  { steady with recordLens := ![127, 6, 41, 901, 281, 58, 0] }

def outlierStore : CacheOp := .storeObservation outlierKey outlier 0 []

theorem steadyCache_load : steadyCache.load outlierKey = some (freshEntry steady profileTTL) :=
  CacheManager.load_put_self ..

/-- Two outliers in a row are served, as the rule wants it. -/
theorem debounced_twice :
    ∃ tr m, cacheMachine.Meets (DebounceOp outlierKey steady.shape) steadyCache tr m ∧
      (m.lookupAmortize outlierQuery 0).2.profile.map (·.shape) = some outlier.shape ∧
      Debounced outlierKey steady.shape tr (m.lookupAmortize outlierQuery 0).2 := by
  have hrun : cacheMachine.Meets (DebounceOp outlierKey steady.shape) steadyCache _ _ :=
    .snoc (a := outlierStore) (.snoc (a := outlierStore) .nil rfl rfl) rfl rfl
  refine ⟨_, _, hrun, by decide +kernel, ?_⟩
  refine debounced steadyCache_load rfl (.inl rfl) hrun outlierQuery 0 ?_
  intro _ e p he hp hs
  have hvalid : (((steadyCache.storeRecovered outlierKey outlier 0 []).1.storeRecovered
      outlierKey outlier 0 []).1.load outlierKey).any (·.state ≠ .suspect) = true := by
    decide +kernel
  rw [he, Option.any_some, hs] at hvalid
  cases hvalid

theorem not_twiceSince_singleton {α : Type*} (P X : α) : ¬ TwiceSince P X [X] := by
  rintro ⟨a, b, h, -⟩
  have hlen := congrArg List.length h
  simp at hlen
  omega

/-- ONE is served as well. -/
theorem outlier_served :
    ∃ tr m, cacheMachine.Run steadyCache tr m ∧
      (∀ x ∈ tr, ∃ obs now order, x.1 = .storeObservation outlierKey obs now order) ∧
      (m.lookupAmortize outlierQuery 0).2.path = .l1 ∧
      ¬ Debounced outlierKey steady.shape tr (m.lookupAmortize outlierQuery 0).2 := by
  have hrun : cacheMachine.Run steadyCache _ _ := .single (a := outlierStore) rfl
  refine ⟨_, _, hrun, ?_, by decide +kernel, ?_⟩
  · intro x hx
    rw [List.mem_singleton] at hx
    exact ⟨_, _, _, by rw [hx]; rfl⟩
  · intro hd
    have hshape : (((steadyCache.storeRecovered outlierKey outlier 0 []).1.lookupAmortize
        outlierQuery 0).2.profile.map (·.shape)) = some outlier.shape := by decide +kernel
    obtain ⟨p, hp, hps⟩ := Option.map_eq_some_iff.mp hshape
    have htwice := hd (by decide +kernel) (by decide +kernel) p hp (by rw [hps]; decide +kernel)
    rw [hps] at htwice
    exact not_twiceSince_singleton _ _ htwice

end Reality
