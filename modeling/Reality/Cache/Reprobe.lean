import Reality.Cache.Marked

/-!
# Removing by parsed key

`InvalidateAndReprobe` (amortize_cache.go) finds the entries of a server by
parsing the keys of the cache back into their fields. Parsing splits at every
`|`, building a key escapes nothing: an ALPN that has a separator is parsed as
two fields, and a legacy key whose ALPN has two as a V2 key.

Which keys this gets wrong can be listed (`Mistaken`), and a call is exact when
the cache holds none of them, and only then.
-/

namespace Reality

open Kit

/-! ## Splitting what was joined -/

theorem splitKey_cacheKey {serverName : Bytes} (hs : sep ∉ serverName) (alpn : Bytes)
    (v : UInt16) :
    splitKey (cacheKey serverName alpn v) = serverName :: (alpn.splitOn sep ++ [hex16 v]) := by
  rw [splitKey_eq, cacheKey_eq, splitOn_append_sep, splitOn_append_sep,
    List.splitOn_eq_singleton hs, List.splitOn_eq_singleton (sep_notMem_hex16 v)]
  rfl

theorem sep_notMem_classField {c : Bytes} (h : sep ∉ c) : sep ∉ classField c := by
  unfold classField
  split
  · decide
  · exact h

theorem splitKey_cacheKeyV2 {dest serverName c : Bytes} (hd : sep ∉ dest)
    (hs : sep ∉ serverName) (hc : sep ∉ c) (alpn : Bytes) (v : UInt16) :
    splitKey (cacheKeyV2 dest serverName alpn v c)
      = dest :: serverName :: (alpn.splitOn sep ++ [hex16 v, classField c]) := by
  rw [splitKey_eq, cacheKeyV2_eq, splitOn_append_sep, splitOn_append_sep, splitOn_append_sep,
    splitOn_append_sep, List.splitOn_eq_singleton hd, List.splitOn_eq_singleton hs,
    List.splitOn_eq_singleton (sep_notMem_hex16 v),
    List.splitOn_eq_singleton (sep_notMem_classField hc)]
  rfl

theorem count_sep_cacheKeyV2_eq {dest serverName c : Bytes} (hd : sep ∉ dest)
    (hs : sep ∉ serverName) (hc : sep ∉ c) (alpn : Bytes) (v : UInt16) :
    (cacheKeyV2 dest serverName alpn v c).count sep = alpn.count sep + 4 := by
  rw [cacheKeyV2_eq]
  simp only [List.count_append, List.count_cons_self, List.count_eq_zero.mpr hd,
    List.count_eq_zero.mpr hs, List.count_eq_zero.mpr (sep_notMem_hex16 v),
    List.count_eq_zero.mpr (sep_notMem_classField hc)]
  omega

/-! ## Which keys are collected -/

/-- A key of the cache. The ALPN is the client's, and may be anything. -/
inductive BuiltKey : Bytes → Prop
  | v2 {dest serverName c : Bytes} (alpn : Bytes) (v : UInt16) (hd : sep ∉ dest)
      (hs : sep ∉ serverName) (hc : sep ∉ c) : BuiltKey (cacheKeyV2 dest serverName alpn v c)
  | legacy {serverName : Bytes} (alpn : Bytes) (v : UInt16) (hs : sep ∉ serverName) :
      BuiltKey (cacheKey serverName alpn v)

/-- The keys of a server and an ALPN: V2 keys of the dest, and legacy keys. -/
def KeyOf (dest serverName alpn key : Bytes) : Prop :=
  (∃ v c, sep ∉ c ∧ key = cacheKeyV2 dest serverName alpn v c)
    ∨ ∃ v, key = cacheKey serverName alpn v

/-- The keys a call gets wrong. When its ALPN has a separator no parsed ALPN is
equal to it: its own keys are missed, but for the one that is not looked up by
parsing. When it has none, keys of other ALPNs that only start with it go. -/
inductive Mistaken (dest serverName alpn : Bytes) : Bytes → Prop
  | missedV2 {c : Bytes} (v : UInt16) (ha : sep ∈ alpn) (hc : sep ∉ c) :
      Mistaken dest serverName alpn (cacheKeyV2 dest serverName alpn v c)
  | missedLegacy {v : UInt16} (ha : sep ∈ alpn) (hv : v ≠ versionTLS13) :
      Mistaken dest serverName alpn (cacheKey serverName alpn v)
  | longerV2 {c : Bytes} (x : Bytes) (v : UInt16) (ha : sep ∉ alpn) (hc : sep ∉ c) :
      Mistaken dest serverName alpn (cacheKeyV2 dest serverName (alpn ++ sep :: x) v c)
  | longerLegacy {x : Bytes} (v : UInt16) (ha : sep ∉ alpn) (hx : sep ∉ x) :
      Mistaken dest serverName alpn (cacheKey serverName (alpn ++ sep :: x) v)
  /-- A legacy key that is parsed as a V2 key, one field further on. -/
  | shifted {x : Bytes} (v : UInt16) (ha : sep ∉ alpn) (hx : ∀ v', x ≠ hex16 v') :
      Mistaken dest serverName alpn
        (cacheKey dest (serverName ++ sep :: (alpn ++ sep :: x)) v)

section Fields

variable {dest serverName alpn : Bytes}

/-- The part up to the first separator. -/
theorem firstPart_eq_iff {p : Bytes} (hp : sep ∉ p) (ha : sep ∉ alpn) (x : Bytes) :
    p = alpn ↔ p ++ sep :: x = alpn ∨ ∃ y, p ++ sep :: x = alpn ++ sep :: y := by
  constructor
  · rintro rfl
    exact .inr ⟨x, rfl⟩
  · rintro (rfl | ⟨y, heq⟩)
    · exact absurd (by simp) ha
    · exact (append_sep_inj hp ha heq).1

theorem not_longer {a : Bytes} (h : sep ∉ a) (x : Bytes) : a ≠ alpn ++ sep :: x := by
  rintro rfl
  exact h (by simp)

theorem reprobeMatches_cacheKeyV2 {d s c : Bytes} (hdest : dest ≠ []) (ha : sep ∉ alpn)
    (hd : sep ∉ d) (hs : sep ∉ s) (hc : sep ∉ c) (a : Bytes) (v : UInt16) :
    CacheManager.reprobeMatches dest serverName alpn (cacheKeyV2 d s a v c) = true
      ↔ d = dest ∧ s = serverName ∧ (a = alpn ∨ ∃ x, a = alpn ++ sep :: x) := by
  rw [CacheManager.reprobeMatches, parseCacheKeyV2, splitKey_cacheKeyV2 hd hs hc]
  by_cases hsep : sep ∈ a
  · obtain ⟨p, x, rfl, hp⟩ := List.eq_append_cons_of_mem hsep
    obtain ⟨q, qs, hx⟩ := List.exists_cons_of_ne_nil (List.splitOn_ne_nil sep x)
    rw [splitOn_append_sep, List.splitOn_eq_singleton hp, hx, ← firstPart_eq_iff hp ha x]
    cases qs <;> simp [hdest, and_assoc]
  · rw [List.splitOn_eq_singleton hsep]
    simp [hdest, and_assoc, not_longer hsep]

/-- A legacy key of at most one separator more is parsed as such. -/
theorem reprobeMatches_short {s p x : Bytes} (ha : sep ∉ alpn) (hs : sep ∉ s) (hp : sep ∉ p)
    (hx : sep ∉ x) (v : UInt16) :
    CacheManager.reprobeMatches dest serverName alpn (cacheKey s (p ++ sep :: x) v) = true
      ↔ s = serverName ∧ ∃ y, sep ∉ y ∧ p ++ sep :: x = alpn ++ sep :: y := by
  rw [CacheManager.reprobeMatches, parseCacheKeyV2, parseCacheKey, splitKey_cacheKey hs,
    splitOn_append_sep, List.splitOn_eq_singleton hp, List.splitOn_eq_singleton hx]
  simp only [List.cons_append, List.nil_append, Bool.and_eq_true, decide_eq_true_eq]
  refine and_congr_right fun _ => ⟨?_, ?_⟩
  · rintro rfl
    exact ⟨x, hx, rfl⟩
  · rintro ⟨y, -, heq⟩
    exact (append_sep_inj hp ha heq).1

/-- One of two separators more is parsed as a V2 key. -/
theorem reprobeMatches_long {s p q : Bytes} (hdest : dest ≠ []) (hn : sep ∉ serverName)
    (ha : sep ∉ alpn) (hs : sep ∉ s) (hp : sep ∉ p) (hq : sep ∉ q) (y : Bytes) (v : UInt16) :
    CacheManager.reprobeMatches dest serverName alpn
        (cacheKey s (p ++ sep :: (q ++ sep :: y)) v) = true
      ↔ s = dest ∧ ∃ x, p ++ sep :: (q ++ sep :: y) = serverName ++ sep :: (alpn ++ sep :: x) := by
  obtain ⟨r, rs, hy⟩ := List.exists_cons_of_ne_nil (List.splitOn_ne_nil sep y)
  rw [CacheManager.reprobeMatches, parseCacheKeyV2, splitKey_cacheKey hs, splitOn_append_sep,
    splitOn_append_sep, List.splitOn_eq_singleton hp, List.splitOn_eq_singleton hq, hy]
  have hfields : p = serverName ∧ q = alpn
      ↔ ∃ x, p ++ sep :: (q ++ sep :: y) = serverName ++ sep :: (alpn ++ sep :: x) := by
    constructor
    · rintro ⟨rfl, rfl⟩
      exact ⟨y, rfl⟩
    · rintro ⟨x, heq⟩
      obtain ⟨hfirst, hrest⟩ := append_sep_inj hp hn heq
      exact ⟨hfirst, (append_sep_inj hq ha hrest).1⟩
  rw [← hfields]
  cases rs <;> simp [hdest, and_assoc]

theorem reprobeMatches_cacheKey {s : Bytes} (hdest : dest ≠ []) (hn : sep ∉ serverName)
    (ha : sep ∉ alpn) (hs : sep ∉ s) (a : Bytes) (v : UInt16) :
    CacheManager.reprobeMatches dest serverName alpn (cacheKey s a v) = true
      ↔ s = serverName ∧ (a = alpn ∨ ∃ x, sep ∉ x ∧ a = alpn ++ sep :: x)
        ∨ s = dest ∧ ∃ x, a = serverName ++ sep :: (alpn ++ sep :: x) := by
  by_cases hsep : sep ∈ a
  · obtain ⟨p, x, rfl, hp⟩ := List.eq_append_cons_of_mem hsep
    have hne : p ++ sep :: x ≠ alpn := fun h => ha (h ▸ hsep)
    by_cases hx : sep ∈ x
    · obtain ⟨q, y, rfl, hq⟩ := List.eq_append_cons_of_mem hx
      have hnone : ¬ ∃ z, sep ∉ z ∧ p ++ sep :: (q ++ sep :: y) = alpn ++ sep :: z := by
        rintro ⟨z, hz, heq⟩
        exact hz ((append_sep_inj hp ha heq).2 ▸ hx)
      rw [reprobeMatches_long hdest hn ha hs hp hq]
      simp [hne, hnone]
    · have hnone : ¬ ∃ z, p ++ sep :: x = serverName ++ sep :: (alpn ++ sep :: z) := by
        rintro ⟨z, heq⟩
        exact not_longer hx z (append_sep_inj hp hn heq).2
      rw [reprobeMatches_short ha hs hp hx]
      simp [hne, hnone]
  · have hshort : ∀ z, a ≠ alpn ++ sep :: z := not_longer hsep
    have hlong : ∀ z, a ≠ serverName ++ sep :: (alpn ++ sep :: z) := fun z => not_longer hsep _
    rw [CacheManager.reprobeMatches, parseCacheKeyV2, parseCacheKey, splitKey_cacheKey hs,
      List.splitOn_eq_singleton hsep]
    simp [hshort, hlong]

theorem sep_notMem_parseCacheKeyV2 {key d s a c : Bytes} {v : UInt16}
    (h : parseCacheKeyV2 key = some (d, s, a, v, c)) : sep ∉ a := by
  unfold parseCacheKeyV2 at h
  split at h
  next hsplit =>
    cases h
    exact sep_notMem_part (s := key) (by simp [hsplit])
  · cases h

theorem sep_notMem_parseCacheKey (key : Bytes) : sep ∉ (parseCacheKey key).2.1 := by
  unfold parseCacheKey
  split
  next hsplit => exact sep_notMem_part (s := key) (by simp [hsplit])
  next hsplit => exact sep_notMem_part (s := key) (by simp [hsplit])
  next hsplit => exact sep_notMem_part (s := key) (by simp [hsplit])
  · exact List.not_mem_nil
  · exact List.not_mem_nil

/-- No key is parsed to an ALPN with a separator. -/
theorem reprobeMatches_piped (ha : sep ∈ alpn) (key : Bytes) :
    CacheManager.reprobeMatches dest serverName alpn key = false := by
  rw [Bool.eq_false_iff]
  intro hm
  unfold CacheManager.reprobeMatches at hm
  split at hm
  next hparse =>
    simp only [Bool.and_eq_true, decide_eq_true_eq] at hm
    exact sep_notMem_parseCacheKeyV2 hparse (hm.2 ▸ ha)
  · simp only [Bool.and_eq_true, decide_eq_true_eq] at hm
    exact sep_notMem_parseCacheKey key (hm.2 ▸ ha)

/-! ## The mistakes -/

/-- The keys that a call removes. -/
def Removes (dest serverName alpn key : Bytes) : Prop :=
  key = cacheKey serverName alpn versionTLS13
    ∨ CacheManager.reprobeMatches dest serverName alpn key = true

theorem KeyOf.count_sep (hd : sep ∉ dest) (hs : sep ∉ serverName) (ha : sep ∉ alpn) {key : Bytes}
    (h : KeyOf dest serverName alpn key) :
    key.count sep = 2 ∨ key.count sep = 4 ∧ ∃ v c, sep ∉ c ∧
      key = cacheKeyV2 dest serverName alpn v c := by
  rcases h with ⟨v, c, hc, rfl⟩ | ⟨v, rfl⟩
  · refine .inr ⟨?_, v, c, hc, rfl⟩
    rw [count_sep_cacheKeyV2_eq hd hs hc, List.count_eq_zero.mpr ha]
  · left
    rw [count_sep_cacheKey, List.count_eq_zero.mpr hs, List.count_eq_zero.mpr ha]

/-- Each of the keys listed is removed and no key of the call, or the other way
round. -/
theorem Mistaken.wrong (hdest : dest ≠ []) (hd : sep ∉ dest) (hs : sep ∉ serverName) {key : Bytes}
    (h : Mistaken dest serverName alpn key) :
    ¬ (KeyOf dest serverName alpn key ↔ Removes dest serverName alpn key) := by
  intro hiff
  cases h with
  | missedV2 v ha hc =>
      rcases hiff.mp (.inl ⟨v, _, hc, rfl⟩) with heq | hm
      · have hcount := congrArg (List.count sep) heq
        rw [count_sep_cacheKeyV2_eq hd hs hc, count_sep_cacheKey, List.count_eq_zero.mpr hs]
          at hcount
        omega
      · rw [reprobeMatches_piped ha] at hm
        cases hm
  | @missedLegacy v ha hv =>
      rcases hiff.mp (.inr ⟨v, rfl⟩) with heq | hm
      · rw [cacheKey_eq, cacheKey_eq] at heq
        have hrest := (append_sep_inj hs hs heq).2
        have hhex := (append_sep_inj_right (sep_notMem_hex16 _) (sep_notMem_hex16 _) hrest).2
        exact hv (hex16_inj hhex)
      · rw [reprobeMatches_piped ha] at hm
        cases hm
  | longerV2 x v ha hc =>
      have hof : KeyOf dest serverName alpn _ := hiff.mpr
        (.inr ((reprobeMatches_cacheKeyV2 hdest ha hd hs hc _ v).mpr ⟨rfl, rfl, .inr ⟨x, rfl⟩⟩))
      have hcount := hof.count_sep hd hs ha
      rw [count_sep_cacheKeyV2_eq hd hs hc, List.count_append, List.count_cons_self] at hcount
      omega
  | @longerLegacy x v ha hx =>
      have hof : KeyOf dest serverName alpn _ := hiff.mpr
        (.inr ((reprobeMatches_cacheKey hdest hs ha hs _ v).mpr (.inl ⟨rfl, .inr ⟨x, hx, rfl⟩⟩)))
      have hcount := hof.count_sep hd hs ha
      rw [count_sep_cacheKey, List.count_append, List.count_cons_self, List.count_eq_zero.mpr hs,
        List.count_eq_zero.mpr ha, List.count_eq_zero.mpr hx] at hcount
      omega
  | @shifted x v ha hx =>
      have hof : KeyOf dest serverName alpn _ := hiff.mpr
        (.inr ((reprobeMatches_cacheKey hdest hs ha hd _ v).mpr (.inr ⟨rfl, x, rfl⟩)))
      rcases hof.count_sep hd hs ha with hcount | ⟨-, v', c, hc, heq⟩
      · simp only [count_sep_cacheKey, List.count_append, List.count_cons_self] at hcount
        omega
      · rw [cacheKey_eq, cacheKeyV2_eq] at heq
        have hrest : x ++ sep :: hex16 v = hex16 v' ++ sep :: classField c := by
          simpa using heq
        exact hx v' (append_sep_inj_right (sep_notMem_hex16 v) (sep_notMem_classField hc) hrest).1

theorem KeyOf.matches (hdest : dest ≠ []) (hd : sep ∉ dest) (hs : sep ∉ serverName)
    (ha : sep ∉ alpn) {key : Bytes} (h : KeyOf dest serverName alpn key) :
    CacheManager.reprobeMatches dest serverName alpn key = true := by
  rcases h with ⟨v, c, hc, rfl⟩ | ⟨v, rfl⟩
  · exact (reprobeMatches_cacheKeyV2 hdest ha hd hs hc alpn v).mpr ⟨rfl, rfl, .inl rfl⟩
  · exact (reprobeMatches_cacheKey hdest hs ha hs alpn v).mpr (.inl ⟨rfl, .inl rfl⟩)

/-- A V2 key whose class looks like a version is a legacy key as well. -/
theorem cacheKey_shifted (v v' : UInt16) :
    cacheKey dest (serverName ++ sep :: (alpn ++ sep :: hex16 v')) v
      = cacheKeyV2 dest serverName alpn v' (hex16 v) := by
  have hclass : classField (hex16 v) = hex16 v := by
    obtain ⟨t, ht⟩ := hex16_head v
    rw [ht]
    rfl
  rw [cacheKey_eq, cacheKeyV2_eq, hclass]
  simp

theorem keyOf_of_matches (hdest : dest ≠ []) (hs : sep ∉ serverName) (ha : sep ∉ alpn)
    {key : Bytes} (hk : BuiltKey key) (hnot : ¬ Mistaken dest serverName alpn key)
    (hm : CacheManager.reprobeMatches dest serverName alpn key = true) :
    KeyOf dest serverName alpn key := by
  cases hk with
  | v2 a v hd' hs' hc =>
      rw [reprobeMatches_cacheKeyV2 hdest ha hd' hs' hc] at hm
      obtain ⟨rfl, rfl, rfl | ⟨x, rfl⟩⟩ := hm
      · exact .inl ⟨v, _, hc, rfl⟩
      · exact absurd (.longerV2 x v ha hc) hnot
  | legacy a v hs' =>
      rw [reprobeMatches_cacheKey hdest hs ha hs'] at hm
      obtain ⟨rfl, rfl | ⟨x, hx, rfl⟩⟩ | ⟨rfl, x, rfl⟩ := hm
      · exact .inr ⟨v, rfl⟩
      · exact absurd (.longerLegacy v ha hx) hnot
      · by_cases hx : ∃ v', x = hex16 v'
        · obtain ⟨v', rfl⟩ := hx
          exact .inl ⟨v', hex16 v, sep_notMem_hex16 v, cacheKey_shifted v v'⟩
        · exact absurd (.shifted v ha fun v' hv' => hx ⟨v', hv'⟩) hnot

/-- **Every other key is told right.** -/
theorem keyOf_iff_removes (hdest : dest ≠ []) (hd : sep ∉ dest) (hs : sep ∉ serverName)
    {key : Bytes} (hk : BuiltKey key) (hnot : ¬ Mistaken dest serverName alpn key) :
    KeyOf dest serverName alpn key ↔ Removes dest serverName alpn key := by
  by_cases ha : sep ∈ alpn
  · constructor
    · rintro (⟨v, c, hc, rfl⟩ | ⟨v, rfl⟩)
      · exact absurd (.missedV2 v ha hc) hnot
      · by_cases hv : v = versionTLS13
        · exact .inl (by rw [hv])
        · exact absurd (.missedLegacy ha hv) hnot
    · rintro (rfl | hm)
      · exact .inr ⟨_, rfl⟩
      · rw [reprobeMatches_piped ha] at hm
        cases hm
  · constructor
    · intro hof
      exact .inr (hof.matches hdest hd hs ha)
    · rintro (rfl | hm)
      · exact .inr ⟨_, rfl⟩
      · exact keyOf_of_matches hdest hs ha hk hnot hm

end Fields

/-! ## What is left -/

namespace CacheManager

theorem load_invalidateProfile (m : CacheManager) (key k : Bytes) :
    (m.invalidateProfile key).load k = if k = key then none else m.load k := by
  unfold invalidateProfile
  split
  next hl =>
    split
    next hk => rw [hk, hl]
    next => rfl
  next => rw [load_markDirty, load_addEntries, load_delete]

theorem load_foldl_invalidateProfile (keys : List Bytes) (m : CacheManager) (k : Bytes) :
    (keys.foldl invalidateProfile m).load k = if k ∈ keys then none else m.load k := by
  induction keys generalizing m with
  | nil => simp
  | cons k' keys ih =>
      rw [List.foldl_cons, ih, load_invalidateProfile]
      by_cases hk : k = k' <;> by_cases hks : k ∈ keys <;> simp [hk, hks]

/-- Whatever the visiting order, the entries gone are the legacy one and those
whose key is collected. -/
theorem load_invalidateAndReprobe (m : CacheManager) (dest serverName alpn : Bytes)
    (order : List Bytes) (k : Bytes) :
    (m.invalidateAndReprobe dest serverName alpn order).load k
      = if k = cacheKey serverName alpn versionTLS13
          ∨ reprobeMatches dest serverName alpn k = true then none else m.load k := by
  rw [invalidateAndReprobe, load_foldl_invalidateProfile, load_invalidateProfile]
  by_cases hleg : k = cacheKey serverName alpn versionTLS13
  · rw [if_pos hleg, ite_self, if_pos (Or.inl hleg)]
  · have hmem : k ∈ ((m.invalidateProfile (cacheKey serverName alpn versionTLS13)).visitOrder
        order).filter (reprobeMatches dest serverName alpn)
          ↔ (∃ e, m.load k = some e) ∧ reprobeMatches dest serverName alpn k = true := by
      rw [List.mem_filter, mem_visitOrder, load_invalidateProfile, if_neg hleg]
    rw [if_neg hleg]
    by_cases hm : reprobeMatches dest serverName alpn k = true
    · rw [if_pos (Or.inr hm)]
      cases hl : m.load k with
      | none => exact ite_self _
      | some e => exact if_pos (hmem.mpr ⟨⟨e, hl⟩, hm⟩)
    · rw [if_neg (fun h => hm (hmem.mp h).2), if_neg (fun h => h.elim hleg hm)]

end CacheManager

open CacheManager in
/-- **A call removes exactly the entries of the server and the ALPN**, whatever
their version and class, if and only if the cache holds none of the keys listed
in `Mistaken`. -/
theorem invalidateAndReprobe_exact_iff {m : CacheManager} {dest serverName alpn : Bytes}
    (hkeys : ∀ k, m.load k ≠ none → BuiltKey k) (hdest : dest ≠ []) (hd : sep ∉ dest)
    (hs : sep ∉ serverName) (order : List Bytes) :
    (∀ k, (KeyOf dest serverName alpn k →
          (m.invalidateAndReprobe dest serverName alpn order).load k = none)
        ∧ (¬ KeyOf dest serverName alpn k →
          (m.invalidateAndReprobe dest serverName alpn order).load k = m.load k))
      ↔ ∀ k, Mistaken dest serverName alpn k → m.load k = none := by
  have hload := load_invalidateAndReprobe m dest serverName alpn order
  constructor
  · intro hexact k hmistaken
    by_contra hk
    refine hmistaken.wrong hdest hd hs ⟨fun hof => ?_, fun hr => ?_⟩
    · by_contra hr
      exact hk ((if_neg hr).symm.trans ((hload k).symm.trans ((hexact k).1 hof)))
    · by_contra hof
      exact hk (((hexact k).2 hof).symm.trans ((hload k).trans (if_pos hr)))
  · intro hnone k
    rw [hload]
    by_cases hk : m.load k = none
    · rw [hk, ite_self]
      exact ⟨fun _ => rfl, fun _ => rfl⟩
    · have hiff := keyOf_iff_removes hdest hd hs (hkeys k hk) fun h => hk (hnone k h)
      exact ⟨fun hof => if_pos (hiff.mp hof), fun hof => if_neg fun hr => hof (hiff.mpr hr)⟩

/-- A cache that holds one V2 entry. -/
def CacheManager.holdingV2 (alpn : Bytes) : CacheManager :=
  newCacheManager.hotSwapProfile
    (cacheKeyV2 (str "d:443") (str "s") alpn versionTLS13 (str "c")) {}

/-- The same with an entry of another dest, for an ALPN with a separator. -/
def CacheManager.holdingBoth : CacheManager :=
  (holdingV2 (str "h2")).hotSwapProfile
    (cacheKeyV2 (str "e:443") (str "s") (str "h2|x") versionTLS13 (str "c")) {}

theorem load_holdingBoth {k : Bytes} (h : CacheManager.holdingBoth.load k ≠ none) :
    k = cacheKeyV2 (str "d:443") (str "s") (str "h2") versionTLS13 (str "c")
      ∨ k = cacheKeyV2 (str "e:443") (str "s") (str "h2|x") versionTLS13 (str "c") := by
  rw [CacheManager.holdingBoth, CacheManager.hotSwapProfile, CacheManager.load_markDirty,
    CacheManager.load_put] at h
  split at h
  next heq => exact .inr heq
  next =>
    rw [CacheManager.holdingV2, CacheManager.hotSwapProfile, CacheManager.load_markDirty,
      CacheManager.load_put, CacheManager.load_newCacheManager] at h
    split at h
    next heq => exact .inl heq
    next => exact absurd rfl h

theorem not_mistaken_holdingBoth {k : Bytes} (h : CacheManager.holdingBoth.load k ≠ none) :
    ¬ Mistaken (str "d:443") (str "s") (str "h2") k := by
  intro hmistaken
  refine hmistaken.wrong (by decide) (by decide) (by decide) ?_
  rcases load_holdingBoth h with rfl | rfl
  · exact ⟨fun _ => .inr (by decide +kernel), fun _ => .inl ⟨_, _, by decide, rfl⟩⟩
  · constructor
    · intro hof
      have hcount := hof.count_sep (by decide) (by decide) (by decide)
      exact absurd (hcount.imp_right And.left) (by decide +kernel)
    · intro hr
      exact absurd hr (by unfold Removes; decide +kernel)

open CacheManager in
/-- The entry of the dest goes, the one with the separator stays. -/
theorem invalidateAndReprobe_exact_iff_h2 :
    (holdingBoth.invalidateAndReprobe (str "d:443") (str "s") (str "h2") []).load
        (cacheKeyV2 (str "d:443") (str "s") (str "h2") versionTLS13 (str "c")) = none
      ∧ (holdingBoth.invalidateAndReprobe (str "d:443") (str "s") (str "h2") []).load
        (cacheKeyV2 (str "e:443") (str "s") (str "h2|x") versionTLS13 (str "c")) ≠ none := by
  have hkeys : ∀ k, holdingBoth.load k ≠ none → BuiltKey k := by
    intro k hk
    rcases load_holdingBoth hk with rfl | rfl
    · exact .v2 _ _ (by decide) (by decide) (by decide)
    · exact .v2 _ _ (by decide) (by decide) (by decide)
  have hexact := (invalidateAndReprobe_exact_iff hkeys (by decide) (by decide) (by decide) []).mpr
    fun k hmistaken => by_contra fun hk => not_mistaken_holdingBoth hk hmistaken
  refine ⟨(hexact _).1 (.inl ⟨versionTLS13, str "c", by decide, rfl⟩), ?_⟩
  rw [(hexact _).2 fun hof => ?_]
  · rw [holdingBoth, hotSwapProfile, load_markDirty, load_put_self]
    exact Option.some_ne_none _
  · have hcount := hof.count_sep (by decide) (by decide) (by decide)
    exact absurd (hcount.imp_right And.left) (by decide +kernel)

open CacheManager in
/-- An ALPN with a separator is parsed as the part before it: the entry of
`h2|x` stays when that ALPN is invalidated, and goes when `h2` is. -/
theorem invalidateAndReprobe_piped :
    (∀ order : List Bytes, ((holdingV2 (str "h2|x")).invalidateAndReprobe (str "d:443") (str "s")
        (str "h2|x") order).load
          (cacheKeyV2 (str "d:443") (str "s") (str "h2|x") versionTLS13 (str "c")) ≠ none)
      ∧ ∀ order : List Bytes, ((holdingV2 (str "h2|x")).invalidateAndReprobe (str "d:443")
        (str "s") (str "h2") order).load
          (cacheKeyV2 (str "d:443") (str "s") (str "h2|x") versionTLS13 (str "c")) = none := by
  have hload : (holdingV2 (str "h2|x")).load
      (cacheKeyV2 (str "d:443") (str "s") (str "h2|x") versionTLS13 (str "c")) ≠ none := by
    rw [holdingV2, hotSwapProfile, load_markDirty, load_put_self]
    exact Option.some_ne_none _
  constructor
  · intro order
    rw [load_invalidateAndReprobe, if_neg (by decide +kernel)]
    exact hload
  · intro order
    rw [load_invalidateAndReprobe]
    exact if_pos (Or.inr (by decide +kernel))

end Reality
