import Mathlib.Data.List.GetD
import Mathlib.Data.Nat.Digits.Defs
import Reality.Profile

/-!
# Cache keys

The string keys of the profile cache (cache_key.go). A legacy key is
`serverName|alpn|version`; a V2 key is `dest|serverName|alpn|version|class`.
Whether a key is legacy or soft is decided by COUNTING and LOCATING `|` in
the finished string, while the ALPN part comes from the client and may
contain that byte.
-/

namespace Reality

open Kit

/-- The separator byte `|`. -/
def sep : UInt8 := 0x7c

def hexdigits : Bytes := str "0123456789abcdef"

/-- One nibble of `appendUint16Hex`: leading zeros are skipped. -/
def appendNibble (v : UInt16) (acc : Bytes × Bool) (shift : UInt16) : Bytes × Bool :=
  let nibble := (v >>> shift) &&& 0xf
  if !acc.2 && nibble = 0 then acc
  else (acc.1 ++ [hexdigits.getD nibble.toNat 0], true)

def appendUint16Hex (b : Bytes) (v : UInt16) : Bytes :=
  let b := b ++ str "0x"
  if v = 0 then b ++ str "0"
  else (([12, 8, 4, 0] : List UInt16).foldl (appendNibble v) (b, false)).1

/-- `CacheKey` -/
def cacheKey (serverName alpn : Bytes) (tlsVersion : UInt16) : Bytes :=
  appendUint16Hex (serverName ++ [sep] ++ alpn ++ [sep]) tlsVersion

/-- `CacheKeyV2` -/
def cacheKeyV2 (dest serverName alpn : Bytes) (tlsVersion : UInt16) (chClass : Bytes) :
    Bytes :=
  let chClass := if chClass = [] then str "-" else chClass
  let b := dest ++ [sep] ++ serverName ++ [sep] ++ alpn ++ [sep]
  appendUint16Hex b tlsVersion ++ [sep] ++ chClass

/-- `IsLegacyCacheKey` -/
def isLegacyCacheKey (key : Bytes) : Bool := key.count sep < 4

def isSoftCacheKey (key : Bytes) : Bool :=
  if key.count sep < 4 then false
  else
    match lastIndexByte key sep with
    | none => false
    | some idx =>
        if idx + 1 ≥ key.length then false
        else
          let ch := key.drop (idx + 1)
          ch.length ≥ 2 && ch.take 2 = str "s:"

/-! ## Taking a key apart -/

/-- The inner loop of `splitKey`, entered at the sixth separator. -/
def splitRest (cur : Bytes) : Bytes → List Bytes
  | [] => [cur]
  | c :: cs => if c = sep then cur :: splitRest [] cs else splitRest (cur ++ [c]) cs

/-- The outer loop: five parts go to the fixed buffer, `cur` is `s[start:i]`. -/
def splitLoop (buf : List Bytes) (cur : Bytes) : Bytes → List Bytes
  | [] =>
      -- `s[start:]` has a slot of its own, or comes behind the five.
      if buf.length < 5 then buf ++ [cur] else buf ++ [cur]
  | c :: cs =>
      if c = sep then
        if buf.length < 5 then splitLoop (buf ++ [cur]) [] cs
        else buf ++ [cur] ++ splitRest [] cs
      else splitLoop buf (cur ++ [c]) cs

def splitKey (s : Bytes) : List Bytes := splitLoop [] [] s

def trimPrefix (s pre : Bytes) : Bytes :=
  if s.length ≥ pre.length && s.take pre.length = pre then s.drop pre.length else s

def hexDigit (c : UInt8) : Option Nat :=
  if 0x30 ≤ c && c ≤ 0x39 then some (c.toNat - 0x30)
  else if 0x61 ≤ c && c ≤ 0x66 then some (c.toNat - 0x61 + 10)
  else if 0x41 ≤ c && c ≤ 0x46 then some (c.toNat - 0x41 + 10)
  else none

/-- `strconv.ParseUint(s, 16, 16)` without its error: a bad digit gives 0,
an overflow the largest value. -/
def parseHex16 (n : Nat) : Bytes → Nat
  | [] => n
  | c :: cs =>
      match hexDigit c with
      | none => 0
      | some d => if n * 16 + d > 65535 then 65535 else parseHex16 (n * 16 + d) cs

def hexToUint16 (s : Bytes) : UInt16 := UInt16.ofNat (parseHex16 0 (trimPrefix s (str "0x")))

/-- `ParseCacheKey`: server name, ALPN, version. -/
def parseCacheKey (key : Bytes) : Bytes × Bytes × UInt16 :=
  match splitKey key with
  | _ :: sn :: alpn :: ver :: _ :: _ => (sn, alpn, hexToUint16 ver)
  | sn :: alpn :: ver :: _ => (sn, alpn, hexToUint16 ver)
  | [sn, alpn] => (sn, alpn, versionTLS13)
  | [sn] => (sn, [], versionTLS13)
  | [] => ([], [], 0)

/-- `ParseCacheKeyV2`: dest, server name, ALPN, version, class. -/
def parseCacheKeyV2 (key : Bytes) : Option (Bytes × Bytes × Bytes × UInt16 × Bytes) :=
  match splitKey key with
  | dest :: sn :: alpn :: ver :: chClass :: _ =>
      some (dest, sn, alpn, hexToUint16 ver, chClass)
  | _ => none

/-! ## The parts are those of the plain split -/

theorem splitRest_eq (cur s : Bytes) :
    splitRest cur s = (s.splitOn sep).modifyHead (cur ++ ·) := by
  induction s generalizing cur with
  | nil => simp [splitRest]
  | cons c s ih =>
      rw [splitRest]
      split
      next h =>
        rw [h, splitOn_cons_self, ih, List.modifyHead_cons, List.append_nil,
          modifyHead_nil_append]
      next h =>
        rw [splitOn_cons_of_ne h, ih, List.modifyHead_modifyHead]
        congr 1
        funext part
        simp

/-- Whatever is in the buffer, the loop appends the parts of the rest, the
first of them continuing `cur`. -/
theorem splitLoop_eq (buf : List Bytes) (cur s : Bytes) :
    splitLoop buf cur s = buf ++ (s.splitOn sep).modifyHead (cur ++ ·) := by
  induction s generalizing buf cur with
  | nil => simp [splitLoop]
  | cons c s ih =>
      rw [splitLoop]
      split
      next h =>
        rw [h, splitOn_cons_self, List.modifyHead_cons, List.append_nil]
        split
        · rw [ih, modifyHead_nil_append, List.append_assoc, List.singleton_append]
        · rw [splitRest_eq, modifyHead_nil_append, List.append_assoc, List.singleton_append]
      next h =>
        rw [splitOn_cons_of_ne h, ih, List.modifyHead_modifyHead]
        congr 2
        funext part
        simp

theorem splitKey_eq (s : Bytes) : splitKey s = s.splitOn sep := by
  rw [splitKey, splitLoop_eq, modifyHead_nil_append, List.nil_append]

theorem sep_notMem_part {s part : Bytes} (h : part ∈ splitKey s) : sep ∉ part := by
  rw [splitKey_eq] at h
  exact notMem_of_mem_splitOn h

theorem parseCacheKeyV2_isSome (key : Bytes) :
    (parseCacheKeyV2 key).isSome ↔ 5 ≤ (splitKey key).length := by
  unfold parseCacheKeyV2
  split
  next h => simp [h]
  next hshort =>
    rcases hk : splitKey key with _ | ⟨a, _ | ⟨b, _ | ⟨c, _ | ⟨d, _ | ⟨e, l⟩⟩⟩⟩⟩
    all_goals first | exact absurd hk (hshort _ _ _ _ _ _) | simp

/-- The five slots, the overflow inside the loop and the one after it make no
difference: a key is split at every separator. The key is legacy exactly when
that gives too few parts for a V2 key. -/
theorem splitKey_splits :
    (∀ s, splitKey s = s.splitOn sep ∧ [sep].intercalate (splitKey s) = s
        ∧ ∀ part ∈ splitKey s, sep ∉ part)
      ∧ ∀ k, (parseCacheKeyV2 k).isSome ↔ isLegacyCacheKey k = false := by
  refine ⟨fun s => ?_, fun k => ?_⟩
  · refine ⟨splitKey_eq s, ?_, fun part hpart => sep_notMem_part hpart⟩
    rw [splitKey_eq]
    exact List.intercalate_splitOn sep
  · rw [parseCacheKeyV2_isSome, splitKey_eq, length_splitOn]
    simp only [isLegacyCacheKey, decide_eq_false_iff_not]
    omega

/-! ## The shape of the version field -/

/-- The version field on its own. -/
def hex16 (v : UInt16) : Bytes := appendUint16Hex [] v

theorem hexdigits_getD_ne_sep (n : Nat) : hexdigits.getD n 0 ≠ sep := by
  by_cases h : n < 16
  · have hall : ∀ m ∈ List.range 16, hexdigits.getD m 0 ≠ sep := by decide
    exact hall n (List.mem_range.mpr h)
  · rw [List.getD_eq_default _ _ (by change 16 ≤ n; omega)]
    decide

theorem appendNibble_fst (v : UInt16) (b c : Bytes) (started : Bool) (shift : UInt16) :
    appendNibble v (b ++ c, started) shift
      = (b ++ (appendNibble v (c, started) shift).1,
          (appendNibble v (c, started) shift).2) := by
  simp only [appendNibble]
  split <;> simp

theorem foldl_appendNibble_fst (v : UInt16) (b : Bytes) (shifts : List UInt16) :
    ∀ (c : Bytes) (started : Bool),
      (shifts.foldl (appendNibble v) (b ++ c, started)).1
        = b ++ (shifts.foldl (appendNibble v) (c, started)).1 := by
  induction shifts with
  | nil => intro c started; rfl
  | cons s shifts ih =>
      intro c started
      rw [List.foldl_cons, List.foldl_cons, appendNibble_fst, ih]

/-- `appendUint16Hex` appends, whatever the buffer holds already. -/
theorem appendUint16Hex_eq (b : Bytes) (v : UInt16) :
    appendUint16Hex b v = b ++ hex16 v := by
  simp only [hex16, appendUint16Hex, List.nil_append]
  split
  · simp
  · exact foldl_appendNibble_fst v b _ _ _

theorem sep_notMem_appendNibble {v : UInt16} {acc : Bytes × Bool} {shift : UInt16}
    (h : sep ∉ acc.1) : sep ∉ (appendNibble v acc shift).1 := by
  simp only [appendNibble]
  split
  · exact h
  · simp only [List.mem_append, List.mem_singleton, not_or]
    exact ⟨h, fun he => hexdigits_getD_ne_sep _ he.symm⟩

theorem sep_notMem_foldl_appendNibble {v : UInt16} (shifts : List UInt16)
    {acc : Bytes × Bool} (h : sep ∉ acc.1) :
    sep ∉ (shifts.foldl (appendNibble v) acc).1 := by
  induction shifts generalizing acc with
  | nil => exact h
  | cons s shifts ih => exact ih (sep_notMem_appendNibble h)

theorem sep_notMem_hex16 (v : UInt16) : sep ∉ hex16 v := by
  simp only [hex16, appendUint16Hex, List.nil_append]
  split
  · decide
  · exact sep_notMem_foldl_appendNibble _ (by decide)

/-- The version field starts with `0x`. -/
theorem hex16_head (v : UInt16) : ∃ t, hex16 v = 0x30 :: 0x78 :: t := by
  simp only [hex16, appendUint16Hex, List.nil_append]
  split
  · exact ⟨_, rfl⟩
  · rw [show str "0x" = [0x30, 0x78] ++ [] from rfl, foldl_appendNibble_fst]
    exact ⟨_, rfl⟩

/-! ## The version field determines the version -/

def digitValue (c : UInt8) : Nat := (hexDigit c).getD 0

/-- The number a string of hexadecimal digits stands for. -/
def hexValue (s : Bytes) : Nat := Nat.ofDigits 16 (s.reverse.map digitValue)

theorem digitValue_hexdigits {n : Nat} (h : n < 16) : digitValue (hexdigits.getD n 0) = n := by
  have hall : ∀ m ∈ List.range 16, digitValue (hexdigits.getD m 0) = m := by decide
  exact hall n (List.mem_range.mpr h)

@[simp] theorem hexValue_nil : hexValue [] = 0 := rfl

@[simp] theorem hexValue_snoc (s : Bytes) (c : UInt8) :
    hexValue (s ++ [c]) = 16 * hexValue s + digitValue c := by
  simp only [hexValue, List.reverse_append, List.reverse_cons, List.reverse_nil, List.nil_append,
    List.singleton_append, List.map_cons, Nat.ofDigits_cons]
  omega

theorem hexValue_cons (c : UInt8) (s : Bytes) :
    hexValue (c :: s) = digitValue c * 16 ^ s.length + hexValue s := by
  simp only [hexValue, List.reverse_cons, List.map_append, Nat.ofDigits_append, List.length_map,
    List.length_reverse, List.map_cons, List.map_nil, Nat.ofDigits_singleton]
  ring

theorem nibble_toNat (v shift : UInt16) (h : shift.toNat < 16) :
    ((v >>> shift) &&& 0xf).toNat = v.toNat / 2 ^ shift.toNat % 16 := by
  rw [UInt16.toNat_and, UInt16.toNat_shiftRight, Nat.mod_eq_of_lt h, Nat.shiftRight_eq_div_pow]
  exact Nat.and_two_pow_sub_one_eq_mod _ 4

/-- Whether or not the nibble is written, the digits so far count it. -/
theorem hexValue_appendNibble (v : UInt16) {acc : Bytes × Bool} (shift : UInt16)
    (hs : shift.toNat < 16) (h : acc.2 = false → acc.1 = []) :
    hexValue (appendNibble v acc shift).1 = 16 * hexValue acc.1 + v.toNat / 2 ^ shift.toNat % 16
      ∧ ((appendNibble v acc shift).2 = false → (appendNibble v acc shift).1 = []) := by
  have hn := nibble_toNat v shift hs
  simp only [appendNibble]
  split
  next hz =>
    simp only [Bool.and_eq_true, Bool.not_eq_eq_eq_not, Bool.not_true, decide_eq_true_eq] at hz
    rw [hz.2] at hn
    rw [h hz.1, ← hn]
    exact ⟨rfl, fun _ => rfl⟩
  next =>
    refine ⟨?_, fun hf => absurd hf (by simp)⟩
    rw [hexValue_snoc, digitValue_hexdigits (by omega), hn]

/-- The four nibbles together are the version. -/
theorem hexValue_nibbles (v : UInt16) :
    hexValue (([12, 8, 4, 0] : List UInt16).foldl (appendNibble v) ([], false)).1 = v.toNat := by
  have start : (([], false) : Bytes × Bool).2 = false → (([], false) : Bytes × Bool).1 = [] :=
    fun _ => rfl
  obtain ⟨h12, i12⟩ := hexValue_appendNibble v 12 (by decide) start
  obtain ⟨h8, i8⟩ := hexValue_appendNibble v 8 (by decide) i12
  obtain ⟨h4, i4⟩ := hexValue_appendNibble v 4 (by decide) i8
  obtain ⟨h0, _⟩ := hexValue_appendNibble v 0 (by decide) i4
  have hv := v.toNat_lt
  simp only [List.foldl_cons, List.foldl_nil]
  rw [h0, h4, h8, h12, hexValue_nil]
  change 16 * (16 * (16 * (16 * 0 + v.toNat / 4096 % 16) + v.toNat / 256 % 16)
    + v.toNat / 16 % 16) + v.toNat / 1 % 16 = v.toNat
  omega

theorem hexValue_hex16 (v : UInt16) : hexValue ((hex16 v).drop 2) = v.toNat := by
  simp only [hex16, appendUint16Hex, List.nil_append]
  split
  next h =>
    rw [h]
    rfl
  next =>
    rw [show str "0x" = str "0x" ++ [] from rfl, foldl_appendNibble_fst]
    exact hexValue_nibbles v

theorem hex16_inj {v v' : UInt16} (h : hex16 v = hex16 v') : v = v' := by
  have := hexValue_hex16 v
  rw [h, hexValue_hex16 v'] at this
  exact UInt16.toNat_inj.mp this.symm

/-! ## The keys as fields -/

theorem cacheKey_eq (serverName alpn : Bytes) (v : UInt16) :
    cacheKey serverName alpn v = serverName ++ sep :: (alpn ++ sep :: hex16 v) := by
  simp [cacheKey, appendUint16Hex_eq]

/-- The class field a V2 key ends with. -/
def classField (chClass : Bytes) : Bytes := if chClass = [] then str "-" else chClass

theorem cacheKeyV2_eq (dest serverName alpn : Bytes) (v : UInt16) (chClass : Bytes) :
    cacheKeyV2 dest serverName alpn v chClass
      = dest ++ sep :: (serverName ++ sep :: (alpn ++ sep :: (hex16 v ++
          sep :: classField chClass))) := by
  simp [cacheKeyV2, appendUint16Hex_eq, classField]

theorem count_sep_cacheKey (serverName alpn : Bytes) (v : UInt16) :
    (cacheKey serverName alpn v).count sep
      = serverName.count sep + alpn.count sep + 2 := by
  rw [cacheKey_eq]
  simp only [List.count_append, List.count_cons_self,
    List.count_eq_zero.mpr (sep_notMem_hex16 v)]
  omega

theorem count_sep_cacheKeyV2 (dest serverName alpn : Bytes) (v : UInt16) (c : Bytes) :
    4 ≤ (cacheKeyV2 dest serverName alpn v c).count sep := by
  rw [cacheKeyV2_eq]
  simp only [List.count_append, List.count_cons_self]
  omega

/-- A V2 key is never taken for a legacy one. -/
theorem isLegacyCacheKey_cacheKeyV2 (dest serverName alpn : Bytes) (v : UInt16)
    (c : Bytes) : isLegacyCacheKey (cacheKeyV2 dest serverName alpn v c) = false := by
  have := count_sep_cacheKeyV2 dest serverName alpn v c
  simp only [isLegacyCacheKey, decide_eq_false_iff_not]
  omega

/-- A legacy key counts as legacy unless its names carry separators. -/
theorem isLegacyCacheKey_cacheKey {serverName : Bytes} (h : sep ∉ serverName)
    (alpn : Bytes) (v : UInt16) :
    isLegacyCacheKey (cacheKey serverName alpn v) = decide (alpn.count sep < 2) := by
  rw [isLegacyCacheKey, count_sep_cacheKey, List.count_eq_zero.mpr h]
  congr 1
  simp only [eq_iff_iff]
  omega

theorem isSoftCacheKey_eq {key : Bytes} (h : 4 ≤ key.count sep) :
    isSoftCacheKey key = decide (str "s:" <+: lastField sep key) := by
  have hmem : sep ∈ key := List.count_pos_iff.mp (by omega)
  obtain ⟨a, b, rfl, hb⟩ := split_last hmem
  have hc : ¬ (a ++ sep :: b).count sep < 4 := by omega
  rw [isSoftCacheKey, if_neg hc, lastIndexByte_append hb, lastField_append hb]
  match b with
  | [] => simp [str]
  | [x] => simp [str, List.prefix_iff_eq_take]
  | x :: y :: t => simp [str, List.prefix_iff_eq_take, eq_comm]

/-- The last field of a V2 key is the last field of its class. -/
theorem isSoftCacheKey_cacheKeyV2 (dest serverName alpn : Bytes) (v : UInt16)
    (c : Bytes) :
    isSoftCacheKey (cacheKeyV2 dest serverName alpn v c)
      = decide (str "s:" <+: lastField sep (classField c)) := by
  rw [isSoftCacheKey_eq (count_sep_cacheKeyV2 ..), cacheKeyV2_eq]
  simp only [lastField_prepend]

/-- A legacy key ends with its version field, which is no soft class. -/
theorem isSoftCacheKey_cacheKey (serverName alpn : Bytes) (v : UInt16) :
    isSoftCacheKey (cacheKey serverName alpn v) = false := by
  by_cases h : (cacheKey serverName alpn v).count sep < 4
  · simp [isSoftCacheKey, h]
  · rw [isSoftCacheKey_eq (by omega), cacheKey_eq]
    simp only [lastField_prepend, lastField_of_notMem (sep_notMem_hex16 v)]
    obtain ⟨t, ht⟩ := hex16_head v
    rw [ht]
    simp [str]

/-- A legacy key is shorter than any V2 key of the same names. -/
theorem cacheKey_ne_cacheKeyV2 (dest serverName alpn : Bytes) (v : UInt16) (c : Bytes) :
    cacheKey serverName alpn v ≠ cacheKeyV2 dest serverName alpn v c := by
  intro h
  have := congrArg List.length h
  rw [cacheKey_eq, cacheKeyV2_eq] at this
  simp only [List.length_append, List.length_cons] at this
  omega

/-! ## Telling keys apart -/

/-- What a class field looks like: no separator, and no version field. -/
structure ClassLike (c : Bytes) : Prop where
  ne_nil : c ≠ []
  noSep : sep ∉ c
  notVersion : ¬ str "0x" <+: c

theorem lastField_cacheKeyV2 {c : Bytes} (hc : ClassLike c) (dest serverName alpn : Bytes)
    (v : UInt16) : lastField sep (cacheKeyV2 dest serverName alpn v c) = c := by
  rw [cacheKeyV2_eq, classField, if_neg hc.ne_nil]
  simp only [lastField_prepend, lastField_of_notMem hc.noSep]

theorem lastField_cacheKey (serverName alpn : Bytes) (v : UInt16) :
    lastField sep (cacheKey serverName alpn v) = hex16 v := by
  rw [cacheKey_eq]
  simp only [lastField_prepend, lastField_of_notMem (sep_notMem_hex16 v)]

/-- A legacy key is no V2 key with a class, whatever the names. -/
theorem cacheKey_ne_of_class {c : Bytes} (hc : ClassLike c) (serverName alpn : Bytes)
    (v : UInt16) (dest' serverName' alpn' : Bytes) (v' : UInt16) :
    cacheKey serverName alpn v ≠ cacheKeyV2 dest' serverName' alpn' v' c := by
  intro h
  have hlast := congrArg (lastField sep) h
  rw [lastField_cacheKey, lastField_cacheKeyV2 hc] at hlast
  obtain ⟨t, ht⟩ := hex16_head v
  refine hc.notVersion ⟨t, ?_⟩
  rw [← hlast, ht]
  rfl

theorem cacheKey_inj {serverName serverName' alpn alpn' : Bytes} {v v' : UInt16}
    (h : sep ∉ serverName) (h' : sep ∉ serverName')
    (heq : cacheKey serverName alpn v = cacheKey serverName' alpn' v') :
    serverName = serverName' ∧ alpn = alpn' := by
  rw [cacheKey_eq, cacheKey_eq] at heq
  obtain ⟨rfl, hrest⟩ := append_sep_inj h h' heq
  exact ⟨rfl, (append_sep_inj_right (sep_notMem_hex16 v) (sep_notMem_hex16 v') hrest).1⟩

theorem cacheKeyV2_dest_inj {dest dest' serverName serverName' alpn alpn' : Bytes}
    {v v' : UInt16} {c c' : Bytes} (h : sep ∉ dest) (h' : sep ∉ dest')
    (heq : cacheKeyV2 dest serverName alpn v c = cacheKeyV2 dest' serverName' alpn' v' c') :
    dest = dest' := by
  rw [cacheKeyV2_eq, cacheKeyV2_eq] at heq
  exact (append_sep_inj h h' heq).1

/-- A V2 key determines its whole tuple; the ALPN may contain anything. -/
theorem cacheKeyV2_fields_inj {dest dest' serverName serverName' alpn alpn' : Bytes}
    {v v' : UInt16} {c c' : Bytes} (hd : sep ∉ dest) (hd' : sep ∉ dest') (hs : sep ∉ serverName)
    (hs' : sep ∉ serverName') (hc : c ≠ []) (hc' : c' ≠ []) (hn : sep ∉ c) (hn' : sep ∉ c')
    (heq : cacheKeyV2 dest serverName alpn v c = cacheKeyV2 dest' serverName' alpn' v' c') :
    dest = dest' ∧ serverName = serverName' ∧ alpn = alpn' ∧ v = v' ∧ c = c' := by
  rw [cacheKeyV2_eq, cacheKeyV2_eq, classField, classField, if_neg hc, if_neg hc'] at heq
  obtain ⟨hdest, hrest⟩ := append_sep_inj hd hd' heq
  obtain ⟨hname, htail⟩ := append_sep_inj hs hs' hrest
  -- The class and the version are split off from the right.
  have hright : (alpn ++ sep :: hex16 v) ++ sep :: c = (alpn' ++ sep :: hex16 v') ++ sep :: c' := by
    simpa only [List.append_assoc, List.cons_append] using htail
  obtain ⟨hleft, hclass⟩ := append_sep_inj_right hn hn' hright
  obtain ⟨halpn, hver⟩ := append_sep_inj_right (sep_notMem_hex16 v) (sep_notMem_hex16 v') hleft
  exact ⟨hdest, hname, halpn, hex16_inj hver, hclass⟩

theorem cacheKeyV2_inj {dest dest' serverName serverName' alpn alpn' : Bytes} {v v' : UInt16}
    {c c' : Bytes} (hd : sep ∉ dest) (hd' : sep ∉ dest') (hs : sep ∉ serverName)
    (hs' : sep ∉ serverName') (hc : ClassLike c) (hc' : ClassLike c')
    (heq : cacheKeyV2 dest serverName alpn v c = cacheKeyV2 dest' serverName' alpn' v' c') :
    dest = dest' ∧ serverName = serverName' ∧ alpn = alpn' ∧ c = c' := by
  obtain ⟨hdest, hname, halpn, _, hclass⟩ := cacheKeyV2_fields_inj hd hd' hs hs' hc.ne_nil
    hc'.ne_nil hc.noSep hc'.noSep heq
  exact ⟨hdest, hname, halpn, hclass⟩

/-- The tuple is recovered from a V2 key by reading it from both ends, and a
legacy key of separator-free names has too few separators to be one. -/
theorem cacheKeyV2_tuple_inj :
    (∀ {dest dest' serverName serverName' alpn alpn' : Bytes} {v v' : UInt16} {c c' : Bytes},
      sep ∉ dest → sep ∉ dest' → sep ∉ serverName → sep ∉ serverName' →
      c ≠ [] → c' ≠ [] → sep ∉ c → sep ∉ c' →
      cacheKeyV2 dest serverName alpn v c = cacheKeyV2 dest' serverName' alpn' v' c' →
      dest = dest' ∧ serverName = serverName' ∧ alpn = alpn' ∧ v = v' ∧ c = c')
    ∧ ∀ {serverName alpn : Bytes}, sep ∉ serverName → sep ∉ alpn →
      ∀ (v : UInt16) (dest' serverName' alpn' : Bytes) (v' : UInt16) (c' : Bytes),
        cacheKeyV2 dest' serverName' alpn' v' c' ≠ cacheKey serverName alpn v := by
  refine ⟨cacheKeyV2_fields_inj, ?_⟩
  intro serverName alpn hs ha v dest' serverName' alpn' v' c' heq
  have hcount := count_sep_cacheKeyV2 dest' serverName' alpn' v' c'
  rw [heq, count_sep_cacheKey, List.count_eq_zero.mpr hs, List.count_eq_zero.mpr ha] at hcount
  omega

/-- An ALPN that holds a separator is told apart from the fields beside it. -/
theorem cacheKeyV2_tuple_inj_piped :
    cacheKeyV2 (str "d") (str "s") (str "h2|0x304") 0x304 (str "c")
        ≠ cacheKeyV2 (str "d") (str "s") (str "h2") 0x304 (str "c")
      ∧ cacheKeyV2 (str "d") (str "s") (str "h2") 0x304 (str "c")
        ≠ cacheKey (str "s") (str "h2") 0x304 := by
  refine ⟨fun h => ?_, cacheKeyV2_tuple_inj.2 (by decide) (by decide) _ _ _ _ _ _⟩
  have := (cacheKeyV2_tuple_inj.1 (by decide) (by decide) (by decide) (by decide) (by decide)
    (by decide) (by decide) (by decide) h).2.2.1
  exact absurd this (by decide)

end Reality
