import Mathlib.Data.Finset.Basic
import Mathlib.Data.List.Nodup
import Reality.Classify
import Reality.Kit.Shuffle

/-!
# What a class says of a ClientHello

`ClassifyClientHello` (amortize.go) is meant to be a function of a few
features of the hello. `Features` is that tuple, in order-independent terms;
`Features.encode` is the byte sequence it stands for. The source feeds FNV-1a
exactly the encoding of the hello's features, and the encoding is injective:
it is taken apart from its right end, so the zero bytes an ALPN may hold
cannot be mistaken for the separator after it.
-/

namespace Reality

open Kit

/-! ## The tuple -/

/-- The extension-presence bits, lowest first. -/
@[ext] structure ExtensionBits where
  serverName : Bool
  alpn : Bool
  supportedVersions : Bool
  keyShare : Bool
  psk : Bool
  ech : Bool
  sct : Bool
  ocsp : Bool
  deriving DecidableEq, Repr

/-- The suites the classifier looks for. -/
def suites13 : List UInt16 := [0x1301, 0x1302, 0x1303]

@[ext] structure Features where
  alpn : Bytes
  suites : Finset UInt16
  suites_sub : ∀ v ∈ suites, v ∈ suites13
  x25519 : Bool
  mlkem768 : Bool
  p256 : Bool
  ed25519 : Bool
  ecdsa : Bool
  rsaPss : Bool
  exts : ExtensionBits
  tls13 : Bool

/-- The group occurs in the key shares or in supported_groups. -/
def namesGroup (ch : ClientHelloMsg) (group : CurveID) : Bool :=
  decide (group ∈ ch.keyShares.map (·.group) ∨ group ∈ ch.supportedCurves)

def namesScheme (ch : ClientHelloMsg) (schemes : List UInt16) : Bool :=
  schemes.any (· ∈ ch.supportedSignatureAlgorithms)

def extensionBits (ch : ClientHelloMsg) : ExtensionBits where
  serverName := ch.serverName ≠ []
  alpn := ch.alpnProtocols ≠ []
  supportedVersions := ch.supportedVersions ≠ []
  keyShare := ch.keyShares ≠ []
  psk := ch.pskIdentities ≠ [] || ch.pskModes ≠ []
  ech := ch.encryptedClientHello ≠ []
  sct := ch.scts
  ocsp := ch.ocspStapling

def features (ch : ClientHelloMsg) : Features where
  alpn := clientALPN ch
  suites := suites13.toFinset.filter (· ∈ ch.cipherSuites)
  suites_sub := by
    intro v hv
    exact List.mem_toFinset.mp (Finset.mem_filter.mp hv).1
  x25519 := namesGroup ch x25519
  mlkem768 := namesGroup ch x25519MLKEM768
  p256 := namesGroup ch curveP256
  ed25519 := namesScheme ch [0x0807]
  ecdsa := namesScheme ch [0x0403, 0x0503, 0x0603]
  rsaPss := namesScheme ch [0x0804, 0x0805, 0x0806]
  exts := extensionBits ch
  tls13 := versionTLS13 ∈ ch.supportedVersions

/-! ## The bytes that are hashed -/

/-- The two bytes of `mixU16`. -/
def u16Bytes (v : UInt16) : Bytes := [(v >>> 8).toUInt8, (v &&& 0xff).toUInt8]

/-- The byte of `mixFlag`. -/
def flagByte (b : Bool) : UInt8 := if b then 1 else 0

/-- The bytes `ClassifyClientHello` feeds to FNV-1a, in the order it does. -/
def classBytes (ch : ClientHelloMsg) : Bytes :=
  let suites := (tls13Suites ch.cipherSuites).insertionSort (· ≤ ·)
  [chClassVersion] ++ clientALPN ch ++ [0] ++ suites.flatMap u16Bytes ++
    [UInt8.ofNat suites.length] ++
    [flagByte (offersGroup ch x25519), flagByte (offersGroup ch x25519MLKEM768),
      flagByte (offersGroup ch curveP256), flagByte (offersScheme ch [0x0807]),
      flagByte (offersScheme ch [0x0403, 0x0503, 0x0603]),
      flagByte (offersScheme ch [0x0804, 0x0805, 0x0806]), extBits ch] ++
    if ch.supportedVersions.any (· = versionTLS13) then u16Bytes versionTLS13 else []

theorem foldl_mixByte_u16 (suites : List UInt16) (h : UInt64) :
    (suites.flatMap u16Bytes).foldl mixByte h = suites.foldl mixU16 h := by
  induction suites generalizing h with
  | nil => rfl
  | cons v suites ih =>
      rw [List.flatMap_cons, List.foldl_append, ih]
      rfl

theorem classHash_eq (ch : ClientHelloMsg) :
    classHash ch = (classBytes ch).foldl mixByte fnv64Offset := by
  simp only [classHash, classBytes, List.foldl_append, foldl_mixByte_u16, List.foldl_cons,
    List.foldl_nil, mixFlag, flagByte]
  split <;> rfl

def ExtensionBits.byte (e : ExtensionBits) : UInt8 :=
  let bit (b : Bool) (n : UInt8) : UInt8 := if b then 1 <<< n else 0
  bit e.serverName 0 ||| bit e.alpn 1 ||| bit e.supportedVersions 2 ||| bit e.keyShare 3 |||
    bit e.psk 4 ||| bit e.ech 5 ||| bit e.sct 6 ||| bit e.ocsp 7

namespace Features

/-- The suites in ascending order. -/
def suiteList (f : Features) : List UInt16 := suites13.filter (· ∈ f.suites)

/-- Everything before the flags. -/
def front (f : Features) : Bytes :=
  (chClassVersion :: f.alpn ++ [0]) ++ f.suiteList.flatMap u16Bytes

/-- The seven bytes that are always there. -/
def flags (f : Features) : Bytes :=
  [flagByte f.x25519, flagByte f.mlkem768, flagByte f.p256, flagByte f.ed25519,
    flagByte f.ecdsa, flagByte f.rsaPss, f.exts.byte]

def tail (f : Features) : Bytes := if f.tls13 then u16Bytes versionTLS13 else []

def encode (f : Features) : Bytes :=
  f.front ++ [UInt8.ofNat f.suiteList.length] ++ f.flags ++ f.tail

end Features

/-! ## The hello's bytes are the encoding of its features -/

theorem offersGroup_eq (ch : ClientHelloMsg) {group : CurveID} (h : isGREASE group = false) :
    offersGroup ch group = namesGroup ch group := by
  rw [Bool.eq_iff_iff]
  simp only [offersGroup, namesGroup, Bool.or_eq_true, List.any_eq_true, decide_eq_true_eq,
    Bool.and_eq_true, List.mem_map]
  refine or_congr Iff.rfl ?_
  constructor
  · rintro ⟨g, hg, _, rfl⟩
    exact hg
  · intro hg
    exact ⟨group, hg, by rw [h]; rfl, rfl⟩

theorem isGREASE_of_any {l : List UInt16} (h : l.any isGREASE = false) {v : UInt16}
    (hv : v ∈ l) : isGREASE v = false :=
  Bool.eq_false_iff.mpr (List.any_eq_false.mp h v hv)

theorem suites13_any_isGREASE : suites13.any isGREASE = false := rfl

theorem offersScheme_eq (ch : ClientHelloMsg) {schemes : List UInt16}
    (h : schemes.any isGREASE = false) : offersScheme ch schemes = namesScheme ch schemes := by
  rw [Bool.eq_iff_iff]
  simp only [offersScheme, namesScheme, List.any_eq_true, decide_eq_true_eq, Bool.and_eq_true]
  constructor
  · rintro ⟨sa, hsa, _, hin⟩
    exact ⟨sa, hin, hsa⟩
  · rintro ⟨sa, hin, hsa⟩
    exact ⟨sa, hsa, by rw [isGREASE_of_any h hin]; rfl, hin⟩

theorem noteSuite_eq (seen : List UInt16) (cs : UInt16) :
    noteSuite seen cs = if cs ∈ suites13 ∧ cs ∉ seen then seen ++ [cs] else seen := by
  have hsuite : (cs = 0x1301 || cs = 0x1302 || cs = 0x1303) = decide (cs ∈ suites13) := by
    simp [suites13, Bool.or_assoc]
  unfold noteSuite
  rw [hsuite]
  by_cases hs : cs ∈ suites13
  · simp [hs, isGREASE_of_any suites13_any_isGREASE hs]
  · simp [hs]

theorem mem_noteSuite {seen : List UInt16} {cs v : UInt16} :
    v ∈ noteSuite seen cs ↔ v ∈ seen ∨ (v ∈ suites13 ∧ v = cs) := by
  rw [noteSuite_eq]
  split
  next h =>
    simp only [List.mem_append, List.mem_singleton]
    refine or_congr Iff.rfl ⟨?_, And.right⟩
    rintro rfl
    exact ⟨h.1, rfl⟩
  next h =>
    refine ⟨Or.inl, ?_⟩
    rintro (hv | ⟨hv, rfl⟩)
    · exact hv
    · by_contra hn
      exact h ⟨hv, hn⟩

theorem nodup_noteSuite {seen : List UInt16} (h : seen.Nodup) (cs : UInt16) :
    (noteSuite seen cs).Nodup := by
  rw [noteSuite_eq]
  split
  next hc =>
    rw [← List.concat_eq_append]
    exact h.concat hc.2
  next => exact h

theorem foldl_noteSuite (suites : List UInt16) :
    ∀ {seen : List UInt16}, seen.Nodup →
      (suites.foldl noteSuite seen).Nodup
        ∧ ∀ v, v ∈ suites.foldl noteSuite seen ↔ v ∈ seen ∨ (v ∈ suites13 ∧ v ∈ suites) := by
  induction suites with
  | nil =>
      intro seen h
      exact ⟨h, by simp⟩
  | cons cs suites ih =>
      intro seen h
      obtain ⟨hn, hm⟩ := ih (nodup_noteSuite h cs)
      refine ⟨hn, fun v => (hm v).trans ?_⟩
      rw [mem_noteSuite, List.mem_cons]
      tauto

/-- Sorting the suites seen gives the suites offered in ascending order. -/
theorem sorted_tls13Suites (suites : List UInt16) :
    (tls13Suites suites).insertionSort (· ≤ ·) = suites13.filter (· ∈ suites) := by
  have hempty : ([] : List UInt16).Nodup := List.nodup_nil
  obtain ⟨hn, hm⟩ := foldl_noteSuite suites hempty
  have hsorted : suites13.Pairwise (· ≤ ·) := by decide
  have hnodup : suites13.Nodup := by decide
  refine List.Perm.eq_of_pairwise (fun a b _ _ => UInt16.le_antisymm)
    (List.pairwise_insertionSort (· ≤ ·) _) (hsorted.filter _) ?_
  refine (List.perm_insertionSort _ _).trans ?_
  rw [tls13Suites, List.perm_ext_iff_of_nodup hn (hnodup.filter _)]
  intro v
  rw [hm v]
  simp

theorem suiteList_features (ch : ClientHelloMsg) :
    (features ch).suiteList = suites13.filter (· ∈ ch.cipherSuites) := by
  refine List.filter_congr fun v hv => ?_
  simp [features, hv]

theorem extBits_eq (ch : ClientHelloMsg) : extBits ch = (extensionBits ch).byte := rfl

theorem classBytes_eq (ch : ClientHelloMsg) : classBytes ch = (features ch).encode := by
  have htls : ch.supportedVersions.any (· = versionTLS13)
      = decide (versionTLS13 ∈ ch.supportedVersions) := by
    rw [Bool.eq_iff_iff]
    simp
  simp only [classBytes, sorted_tls13Suites, ← suiteList_features, Features.encode,
    Features.front, Features.flags, Features.tail, htls, extBits_eq]
  rw [offersGroup_eq ch (by decide), offersGroup_eq ch (by decide), offersGroup_eq ch (by decide),
    offersScheme_eq ch (by decide), offersScheme_eq ch (by decide), offersScheme_eq ch (by decide)]
  rfl

/-! ## The encoding is injective -/

theorem u16Bytes_inj {v v' : UInt16} (h : u16Bytes v = u16Bytes v') : v = v' := by
  have hvalue : ∀ w : UInt16,
      (w >>> 8).toUInt8.toNat = w.toNat / 256 ∧ (w &&& 0xff).toUInt8.toNat = w.toNat % 256 := by
    intro w
    have hw := w.toNat_lt
    have hhi : (w >>> 8).toNat = w.toNat / 256 := by
      rw [UInt16.toNat_shiftRight]
      exact Nat.shiftRight_eq_div_pow _ 8
    have hlo : (w &&& 0xff).toNat = w.toNat % 256 := by
      rw [UInt16.toNat_and]
      exact Nat.and_two_pow_sub_one_eq_mod _ 8
    rw [UInt16.toNat_toUInt8, UInt16.toNat_toUInt8, hhi, hlo]
    omega
  simp only [u16Bytes, List.cons.injEq, and_true] at h
  have hhi := congrArg UInt8.toNat h.1
  have hlo := congrArg UInt8.toNat h.2
  rw [(hvalue v).1, (hvalue v').1] at hhi
  rw [(hvalue v).2, (hvalue v').2] at hlo
  exact UInt16.toNat_inj.mp (by omega)

theorem flatMap_u16Bytes_length (l : List UInt16) : (l.flatMap u16Bytes).length = 2 * l.length := by
  induction l with
  | nil => rfl
  | cons v l ih =>
      rw [List.flatMap_cons, List.length_append, ih, List.length_cons]
      simp only [u16Bytes, List.length_cons, List.length_nil]
      omega

theorem flatMap_u16Bytes_inj {l : List UInt16} :
    ∀ {l' : List UInt16}, l.flatMap u16Bytes = l'.flatMap u16Bytes → l = l' := by
  induction l with
  | nil =>
      intro l' h
      have hlen := congrArg List.length h
      rw [flatMap_u16Bytes_length, flatMap_u16Bytes_length] at hlen
      exact (List.length_eq_zero_iff.mp (by simpa using hlen.symm)).symm
  | cons v l ih =>
      intro l' h
      cases l' with
      | nil =>
          have hlen := congrArg List.length h
          rw [flatMap_u16Bytes_length, flatMap_u16Bytes_length] at hlen
          simp at hlen
      | cons v' l' =>
          rw [List.flatMap_cons, List.flatMap_cons] at h
          obtain ⟨hv, hl⟩ := List.append_inj h rfl
          rw [u16Bytes_inj hv, ih hl]

theorem flagByte_inj {b b' : Bool} (h : flagByte b = flagByte b') : b = b' := by
  revert b b'
  decide

theorem flagByte_ne_three (b : Bool) : flagByte b ≠ 3 := by
  revert b
  decide

/-- The bits read back from the byte. -/
def ExtensionBits.ofByte (b : UInt8) : ExtensionBits where
  serverName := b &&& 1 ≠ 0
  alpn := b &&& 2 ≠ 0
  supportedVersions := b &&& 4 ≠ 0
  keyShare := b &&& 8 ≠ 0
  psk := b &&& 16 ≠ 0
  ech := b &&& 32 ≠ 0
  sct := b &&& 64 ≠ 0
  ocsp := b &&& 128 ≠ 0

theorem ExtensionBits.ofByte_byte (e : ExtensionBits) : ofByte e.byte = e := by
  obtain ⟨a, b, c, d, f, g, i, j⟩ := e
  revert a b c d f g i j
  decide +kernel

theorem ExtensionBits.byte_inj {e e' : ExtensionBits} (h : e.byte = e'.byte) : e = e' := by
  rw [← ofByte_byte e, h, ofByte_byte]

namespace Features

theorem suiteList_length_le (f : Features) : f.suiteList.length ≤ 3 :=
  List.length_filter_le _ _

theorem suites_eq_of_suiteList {f g : Features} (h : f.suiteList = g.suiteList) :
    f.suites = g.suites := by
  have hmem : ∀ (k : Features) (v : UInt16), v ∈ k.suites ↔ v ∈ k.suiteList := by
    intro k v
    simp only [suiteList, List.mem_filter, decide_eq_true_eq]
    exact ⟨fun hv => ⟨k.suites_sub v hv, hv⟩, And.right⟩
  ext v
  rw [hmem f v, hmem g v, h]

/-- The last byte but one before the tail is a flag, so it is no version byte. -/
theorem tls13_eq {f g : Features} (h : f.encode = g.encode) : f.tls13 = g.tls13 := by
  have hne : ∀ {f g : Features}, f.encode = g.encode → f.tls13 = true → g.tls13 ≠ false := by
    intro f g h hf hg
    have hlast := congrArg (fun s => s.reverse[1]?) h
    simp only [encode, flags, tail, hf, hg] at hlast
    simp [u16Bytes] at hlast
    exact flagByte_ne_three _ hlast.symm
  cases hf : f.tls13 <;> cases hg : g.tls13
  · rfl
  · exact absurd hf (hne h.symm hg)
  · exact absurd hg (hne h hf)
  · rfl

theorem flags_inj {f g : Features} (h : f.flags = g.flags) :
    (f.x25519 = g.x25519 ∧ f.mlkem768 = g.mlkem768 ∧ f.p256 = g.p256)
      ∧ (f.ed25519 = g.ed25519 ∧ f.ecdsa = g.ecdsa ∧ f.rsaPss = g.rsaPss) ∧ f.exts = g.exts := by
  simp only [flags, List.cons.injEq, and_true] at h
  obtain ⟨h1, h2, h3, h4, h5, h6, h7⟩ := h
  exact ⟨⟨flagByte_inj h1, flagByte_inj h2, flagByte_inj h3⟩,
    ⟨flagByte_inj h4, flagByte_inj h5, flagByte_inj h6⟩, ExtensionBits.byte_inj h7⟩

/-- The count says how many bytes before it are suites, and the rest is the ALPN. -/
theorem front_inj {f g : Features} (h : f.front = g.front)
    (hcount : UInt8.ofNat f.suiteList.length = UInt8.ofNat g.suiteList.length) :
    f.alpn = g.alpn ∧ f.suites = g.suites := by
  have hf := f.suiteList_length_le
  have hg := g.suiteList_length_le
  have hlen : f.suiteList.length = g.suiteList.length := by
    have := congrArg UInt8.toNat hcount
    rw [UInt8.toNat_ofNat', UInt8.toNat_ofNat'] at this
    omega
  have hbytes : (f.suiteList.flatMap u16Bytes).length = (g.suiteList.flatMap u16Bytes).length := by
    rw [flatMap_u16Bytes_length, flatMap_u16Bytes_length, hlen]
  obtain ⟨halpn, hsuites⟩ := List.append_inj' h hbytes
  refine ⟨?_, suites_eq_of_suiteList (flatMap_u16Bytes_inj hsuites)⟩
  obtain ⟨hname, _⟩ := List.append_inj' halpn rfl
  exact (List.cons.inj hname).2

/-- The encoding is taken apart from the right. -/
theorem encode_inj {f g : Features} (h : f.encode = g.encode) : f = g := by
  have htls := tls13_eq h
  have htail : f.tail = g.tail := by rw [tail, tail, htls]
  rw [encode, encode, htail] at h
  have hbody := List.append_cancel_right h
  obtain ⟨hcounted, hflags⟩ := List.append_inj' hbody rfl
  obtain ⟨hfront, hcount⟩ := List.append_inj' hcounted rfl
  obtain ⟨halpn, hsuites⟩ := front_inj hfront (List.cons.inj hcount).1
  obtain ⟨⟨h1, h2, h3⟩, ⟨h4, h5, h6⟩, hexts⟩ := flags_inj hflags
  exact Features.ext halpn hsuites h1 h2 h3 h4 h5 h6 hexts htls

end Features

/-! ## The class -/

/-- The class of a feature tuple. -/
def Features.chClass (f : Features) : Bytes :=
  formatUint64Hex (f.encode.foldl mixByte fnv64Offset)

theorem classifyClientHello_eq (ch : ClientHelloMsg) :
    classifyClientHello ch = (features ch).chClass := by
  rw [classifyClientHello, classHash_eq, classBytes_eq, Features.chClass]

theorem hexValue_hexLoop (n : Nat) (v : UInt64) (acc : Bytes) (h : v.toNat < 16 ^ n) :
    hexValue (hexLoop n v acc) = v.toNat * 16 ^ acc.length + hexValue acc := by
  induction n generalizing v acc with
  | zero =>
      have hz : v.toNat = 0 := by omega
      rw [hexLoop, hz]
      omega
  | succ n ih =>
      rw [hexLoop]
      split
      next hv =>
        rw [hv]
        simp
      next =>
        have hshift : (v >>> 4).toNat = v.toNat / 16 := by
          rw [UInt64.toNat_shiftRight]
          exact Nat.shiftRight_eq_div_pow _ 4
        have hlow : (v &&& 0xf).toNat = v.toNat % 16 := by
          rw [UInt64.toNat_and]
          exact Nat.and_two_pow_sub_one_eq_mod _ 4
        have hfits : (v >>> 4).toNat < 16 ^ n := by
          rw [hshift, Nat.div_lt_iff_lt_mul (by decide), ← Nat.pow_succ]
          exact h
        rw [ih _ _ hfits, hexValue_cons, digitValue_hexdigits (by omega), hshift, hlow,
          List.length_cons, Nat.pow_succ]
        calc v.toNat / 16 * (16 ^ acc.length * 16) + (v.toNat % 16 * 16 ^ acc.length + hexValue acc)
            = (16 * (v.toNat / 16) + v.toNat % 16) * 16 ^ acc.length + hexValue acc := by ring
          _ = v.toNat * 16 ^ acc.length + hexValue acc := by rw [Nat.div_add_mod]

theorem hexValue_formatUint64Hex (v : UInt64) : hexValue (formatUint64Hex v) = v.toNat := by
  unfold formatUint64Hex
  split
  next h =>
    rw [h]
    rfl
  next =>
    rw [hexValue_hexLoop 16 v [] v.toNat_lt]
    simp

theorem formatUint64Hex_inj {v v' : UInt64} (h : formatUint64Hex v = formatUint64Hex v') :
    v = v' := by
  have := hexValue_formatUint64Hex v
  rw [h, hexValue_formatUint64Hex v'] at this
  exact UInt64.toNat_inj.mp this.symm

/-! ## Moves that keep the features -/

/-- The two hellos differ only in the order, the repetitions and the GREASE
values of their lists, in the ALPN names after the first, and in what the
classifier does not read. -/
structure Rearranged (ch ch' : ClientHelloMsg) : Prop where
  suites : Shuffled (isGREASE · = true) ch.cipherSuites ch'.cipherSuites
  groups : Shuffled (isGREASE · = true) ch.supportedCurves ch'.supportedCurves
  schemes : Shuffled (isGREASE · = true) ch.supportedSignatureAlgorithms
    ch'.supportedSignatureAlgorithms
  alpn : ch.alpnProtocols.head? = ch'.alpnProtocols.head?
  shares : Shuffled (isGREASE · = true) (ch.keyShares.map (·.group)) (ch'.keyShares.map (·.group))
  shares_nil : ch.keyShares = [] ↔ ch'.keyShares = []
  serverName : ch.serverName = ch'.serverName
  supportedVersions : ch.supportedVersions = ch'.supportedVersions
  pskModes : ch.pskModes = ch'.pskModes
  pskIdentities : ch.pskIdentities = ch'.pskIdentities
  ech : ch.encryptedClientHello = ch'.encryptedClientHello
  scts : ch.scts = ch'.scts
  ocspStapling : ch.ocspStapling = ch'.ocspStapling

theorem mem_of_shuffled {l l' : List UInt16} (h : Shuffled (isGREASE · = true) l l') {v : UInt16}
    (hv : isGREASE v = false) : v ∈ l ↔ v ∈ l' :=
  h.mem_iff (by rw [hv]; exact Bool.false_ne_true)

namespace Rearranged

variable {ch ch' : ClientHelloMsg}

theorem namesGroup_eq (h : Rearranged ch ch') {group : CurveID} (hg : isGREASE group = false) :
    namesGroup ch group = namesGroup ch' group :=
  decide_eq_decide.mpr (or_congr (mem_of_shuffled h.shares hg) (mem_of_shuffled h.groups hg))

theorem namesScheme_eq (h : Rearranged ch ch') {schemes : List UInt16}
    (hs : schemes.any isGREASE = false) :
    namesScheme ch schemes = namesScheme ch' schemes := by
  rw [namesScheme, namesScheme, Bool.eq_iff_iff, List.any_eq_true, List.any_eq_true]
  refine exists_congr fun s => and_congr_right fun hm => ?_
  rw [decide_eq_true_iff, decide_eq_true_iff]
  exact mem_of_shuffled h.schemes (isGREASE_of_any hs hm)

theorem suites_eq (h : Rearranged ch ch') : (features ch).suites = (features ch').suites := by
  refine Finset.filter_congr fun v hv => mem_of_shuffled h.suites ?_
  exact isGREASE_of_any suites13_any_isGREASE (List.mem_toFinset.mp hv)

theorem extensionBits_eq (h : Rearranged ch ch') : extensionBits ch = extensionBits ch' := by
  have halpn : ch.alpnProtocols = [] ↔ ch'.alpnProtocols = [] := by
    rw [← List.head?_eq_none_iff, h.alpn, List.head?_eq_none_iff]
  simp only [extensionBits, h.serverName, h.supportedVersions, h.pskModes, h.pskIdentities, h.ech,
    h.scts, h.ocspStapling, ne_eq, halpn, h.shares_nil]

theorem features_eq (h : Rearranged ch ch') : features ch = features ch' := by
  have halpn : clientALPN ch = clientALPN ch' := by
    rw [clientALPN, clientALPN, List.headD_eq_head?_getD, List.headD_eq_head?_getD, h.alpn]
  refine Features.ext halpn h.suites_eq (h.namesGroup_eq (by decide)) (h.namesGroup_eq (by decide))
    (h.namesGroup_eq (by decide)) (h.namesScheme_eq (by decide)) (h.namesScheme_eq (by decide))
    (h.namesScheme_eq (by decide)) h.extensionBits_eq ?_
  simp only [features, h.supportedVersions]

end Rearranged

/-- A class is a function of the features; moves that keep the features keep
the class; and hellos of different features are told apart by the bytes that
are hashed, so that one class for both is a collision of the hash. -/
theorem classifyClientHello_features :
    (∀ ch ch' : ClientHelloMsg, features ch = features ch' →
      classifyClientHello ch = classifyClientHello ch')
    ∧ (∀ ch ch' : ClientHelloMsg, Rearranged ch ch' →
      classifyClientHello ch = classifyClientHello ch')
    ∧ (∀ ch ch' : ClientHelloMsg, classBytes ch = classBytes ch' → features ch = features ch')
    ∧ (∀ ch : ClientHelloMsg, classHash ch = (classBytes ch).foldl mixByte fnv64Offset)
    ∧ ∀ ch ch' : ClientHelloMsg, features ch ≠ features ch' →
      classifyClientHello ch = classifyClientHello ch' →
      classBytes ch ≠ classBytes ch'
        ∧ (classBytes ch).foldl mixByte fnv64Offset
          = (classBytes ch').foldl mixByte fnv64Offset := by
  have hbytes : ∀ ch ch' : ClientHelloMsg, classBytes ch = classBytes ch' →
      features ch = features ch' := by
    intro ch ch' h
    rw [classBytes_eq, classBytes_eq] at h
    exact Features.encode_inj h
  have hclass : ∀ ch ch' : ClientHelloMsg, features ch = features ch' →
      classifyClientHello ch = classifyClientHello ch' := by
    intro ch ch' h
    rw [classifyClientHello_eq, classifyClientHello_eq, h]
  refine ⟨hclass, fun ch ch' h => hclass ch ch' h.features_eq, hbytes, classHash_eq, ?_⟩
  intro ch ch' hne h
  refine ⟨fun hb => hne (hbytes ch ch' hb), ?_⟩
  rw [← classHash_eq, ← classHash_eq]
  exact formatUint64Hex_inj h

/-- A hello that offers the given suites and ALPN names, and nothing else. -/
def offering (suites : List UInt16) (alpn : List Bytes) : ClientHelloMsg :=
  { original := [], vers := 0, random := [], sessionId := ⟨0, []⟩, cipherSuites := suites,
    alpnProtocols := alpn }

/-- Swapped suites with a GREASE value between them give one class; names that
differ in their zero bytes do not give one byte sequence. -/
theorem classifyClientHello_features_swapped :
    classifyClientHello (offering [0x1301, 0x1302] [str "h2", str "h3"])
        = classifyClientHello (offering [0x0a0a, 0x1302, 0x1301] [str "h2"])
      ∧ classBytes (offering [] [[0]]) ≠ classBytes (offering [] [[0, 0]]) := by
  constructor
  · refine classifyClientHello_features.2.1 _ _ ?_
    refine ⟨.trans (.reorder (.swap _ _ _)) (.insert (by decide)), .reorder .nil, .reorder .nil,
      rfl, .reorder .nil, Iff.rfl, rfl, rfl, rfl, rfl, rfl, rfl, rfl⟩
  · intro h
    have halpn := congrArg Features.alpn (classifyClientHello_features.2.2.1 _ _ h)
    exact absurd halpn (by decide)

/-! ## The soft class -/

/-- The tuple with ECH ignored and the two certificate extensions merged. -/
def Features.soft (f : Features) : Features :=
  { f with exts := { f.exts with ech := false, sct := f.exts.sct || f.exts.ocsp, ocsp := false } }

/-- The soft class is the class of the softened features, on both paths. -/
theorem softClassifyClientHello_eq (ch : ClientHelloMsg) :
    softClassifyClientHello ch = str "s:" ++ (features ch).soft.chClass := by
  unfold softClassifyClientHello
  split
  next h =>
    -- Nothing is collapsed: softening is the identity here.
    simp only [Bool.and_eq_true, Bool.not_eq_eq_eq_not, Bool.not_true, decide_eq_true_eq] at h
    obtain ⟨⟨hs, ho⟩, he⟩ := h
    have hsoft : (features ch).soft = features ch := by
      refine Features.ext rfl rfl rfl rfl rfl rfl rfl rfl ?_ rfl
      simp [Features.soft, features, extensionBits, hs, ho, he]
    rw [classifyClientHello_eq, hsoft]
  next => rw [classifyClientHello_eq]; rfl

/-- `ClassifyClientHello` of a pointer. -/
def classifyPointer : Option ClientHelloMsg → Bytes
  | none => str "empty"
  | some ch => classifyClientHello ch

/-- `SoftClassifyClientHello` of a pointer. -/
def softClassifyPointer : Option ClientHelloMsg → Bytes
  | none => []
  | some ch => softClassifyClientHello ch

/-- `SoftClassifyFromExact` of a pointer. -/
def softClassifyFromExactPointer : Option ClientHelloMsg → Bytes → Bytes
  | none, _ => []
  | some ch, exactClass => softClassifyFromExact ch exactClass

theorem softClassifyFromExact_exact (ch : ClientHelloMsg) :
    softClassifyFromExact ch (classifyClientHello ch) = softClassifyClientHello ch := by
  unfold softClassifyFromExact
  split
  next h =>
    simp only [Bool.and_eq_true] at h
    rw [softClassifyClientHello, if_pos]
    simp only [Bool.and_eq_true]
    exact ⟨⟨h.1.1.2, h.1.2⟩, h.2⟩
  next => rfl

theorem softClassify_ne_classify (ch ch' : Option ClientHelloMsg) :
    softClassifyPointer ch ≠ classifyPointer ch' := by
  cases ch' with
  | none =>
      cases ch with
      | none => decide
      | some ch =>
          rw [softClassifyPointer, softClassifyClientHello_eq]
          simp [classifyPointer, str]
  | some ch' =>
      have hhex := classifyClientHello_isHex ch'
      cases ch with
      | none => exact hhex.ne_nil.symm
      | some ch =>
          rw [softClassifyPointer, softClassifyClientHello_eq]
          exact (hhex.ne_soft _).symm

/-- The shortcut agrees with the soft class; the soft class does not see ECH,
nor which of SCT and OCSP is there; it is a function of the features; and no
soft class is an exact one. A nil hello is included. -/
theorem softClassifyClientHello_collapses :
    (∀ ch : Option ClientHelloMsg,
      softClassifyFromExactPointer ch (classifyPointer ch) = softClassifyPointer ch)
    ∧ (∀ (ch : ClientHelloMsg) (ech : Bytes),
      softClassifyClientHello { ch with encryptedClientHello := ech } = softClassifyClientHello ch)
    ∧ (∀ (ch : ClientHelloMsg) (sct ocsp : Bool), (sct || ocsp) = (ch.scts || ch.ocspStapling) →
      softClassifyClientHello { ch with scts := sct, ocspStapling := ocsp }
        = softClassifyClientHello ch)
    ∧ (∀ ch ch' : Option ClientHelloMsg, ch.map features = ch'.map features →
      softClassifyPointer ch = softClassifyPointer ch')
    ∧ ∀ ch ch' : Option ClientHelloMsg, softClassifyPointer ch ≠ classifyPointer ch' := by
  refine ⟨?_, ?_, ?_, ?_, softClassify_ne_classify⟩
  · intro ch
    cases ch with
    | none => rfl
    | some ch => exact softClassifyFromExact_exact ch
  · intro ch ech
    rw [softClassifyClientHello_eq, softClassifyClientHello_eq]
    rfl
  · intro ch sct ocsp h
    have hsoft : (features { ch with scts := sct, ocspStapling := ocsp }).soft
        = (features ch).soft := by
      refine Features.ext rfl rfl rfl rfl rfl rfl rfl rfl ?_ rfl
      exact ExtensionBits.ext rfl rfl rfl rfl rfl rfl h rfl
    rw [softClassifyClientHello_eq, softClassifyClientHello_eq, hsoft]
  · intro ch ch' h
    cases ch with
    | none =>
        cases ch' with
        | none => rfl
        | some ch' => exact absurd h (by simp)
    | some ch =>
        cases ch' with
        | none => exact absurd h (by simp)
        | some ch' =>
            have hf : features ch = features ch' := Option.some.inj h
            rw [softClassifyPointer, softClassifyPointer, softClassifyClientHello_eq,
              softClassifyClientHello_eq, hf]

/-- OCSP in place of SCT, with a hello that takes the general path. -/
theorem softClassifyClientHello_collapses_ocsp :
    softClassifyClientHello { offering [0x1301] [] with scts := false, ocspStapling := true }
      = softClassifyClientHello { offering [0x1301] [] with scts := true } :=
  softClassifyClientHello_collapses.2.2.1 { offering [0x1301] [] with scts := true } false true rfl

end Reality
