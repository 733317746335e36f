import Mathlib.Data.List.Sort
import Reality.CacheKey
import Reality.Tls.ClientHello

/-!
# ClientHello classes

`ClassifyClientHello` (amortize.go) hashes the features of a ClientHello that
are meant to decide the target's flight; the hash, in hexadecimal, is the last
field of the exact cache key. The SOFT class (dest_cert_meta.go) is the class
of a hello with some extension bits collapsed, marked by `s:`.

What the cache needs of the two is only their shape: a class is a hexadecimal
number, so it has no separator, is no soft class and no version field.
-/

namespace Reality

open Kit

/-! ## The hash -/

def isGREASE (v : UInt16) : Bool := v &&& 0x0f0f = 0x0a0a && v >>> 8 = v &&& 0xff

/-- `mixByte(1)` or `mixByte(0)` -/
def mixFlag (h : UInt64) (b : Bool) : UInt64 := mixByte h (if b then 1 else 0)

/-- One round of the suite loop. -/
def noteSuite (seen : List UInt16) (cs : UInt16) : List UInt16 :=
  if isGREASE cs then seen
  else if (cs = 0x1301 || cs = 0x1302 || cs = 0x1303) && cs ∉ seen then seen ++ [cs]
  else seen

/-- The TLS 1.3 suites offered, each once, in the order they are offered. -/
def tls13Suites (suites : List UInt16) : List UInt16 := suites.foldl noteSuite []

/-- The group is named by a key share or by supported_groups. -/
def offersGroup (ch : ClientHelloMsg) (group : CurveID) : Bool :=
  ch.keyShares.any (·.group = group) ||
    ch.supportedCurves.any (fun g => !isGREASE g && g = group)

def offersScheme (ch : ClientHelloMsg) (schemes : List UInt16) : Bool :=
  ch.supportedSignatureAlgorithms.any (fun sa => !isGREASE sa && sa ∈ schemes)

def extBits (ch : ClientHelloMsg) : UInt8 :=
  let bit (b : Bool) (n : UInt8) : UInt8 := if b then 1 <<< n else 0
  bit (ch.serverName ≠ []) 0 ||| bit (ch.alpnProtocols ≠ []) 1 |||
    bit (ch.supportedVersions ≠ []) 2 ||| bit (ch.keyShares ≠ []) 3 |||
    bit (ch.pskIdentities ≠ [] || ch.pskModes ≠ []) 4 |||
    bit (ch.encryptedClientHello ≠ []) 5 ||| bit ch.scts 6 ||| bit ch.ocspStapling 7

/-- The hash `ClassifyClientHello` computes. -/
def classHash (ch : ClientHelloMsg) : UInt64 :=
  let h := mixByte fnv64Offset chClassVersion
  let h := mixByte ((clientALPN ch).foldl mixByte h) 0
  let suites := (tls13Suites ch.cipherSuites).insertionSort (· ≤ ·)
  let h := mixByte (suites.foldl mixU16 h) (UInt8.ofNat suites.length)
  let h := mixFlag h (offersGroup ch x25519)
  let h := mixFlag h (offersGroup ch x25519MLKEM768)
  let h := mixFlag h (offersGroup ch curveP256)
  let h := mixFlag h (offersScheme ch [0x0807])
  let h := mixFlag h (offersScheme ch [0x0403, 0x0503, 0x0603])
  let h := mixFlag h (offersScheme ch [0x0804, 0x0805, 0x0806])
  let h := mixByte h (extBits ch)
  if ch.supportedVersions.any (· = versionTLS13) then mixU16 h versionTLS13 else h

/-! ## The class -/

/-- The loop of `formatUint64Hex`, low digit first; sixteen rounds empty any
value. -/
def hexLoop : Nat → UInt64 → Bytes → Bytes
  | 0, _, acc => acc
  | n + 1, v, acc =>
      if v = 0 then acc
      else hexLoop n (v >>> 4) (hexdigits.getD (v &&& 0xf).toNat 0 :: acc)

def formatUint64Hex (v : UInt64) : Bytes := if v = 0 then str "0" else hexLoop 16 v []

/-- `ClassifyClientHello` of a hello that was read. -/
def classifyClientHello (ch : ClientHelloMsg) : Bytes := formatUint64Hex (classHash ch)

def softClassifyClientHello (ch : ClientHelloMsg) : Bytes :=
  if !ch.scts && !ch.ocspStapling && ch.encryptedClientHello = [] then
    str "s:" ++ classifyClientHello ch
  else
    str "s:" ++ classifyClientHello
      { ch with
        scts := ch.scts || ch.ocspStapling, ocspStapling := false
        encryptedClientHello := [] }

def softClassifyFromExact (ch : ClientHelloMsg) (exactClass : Bytes) : Bytes :=
  if exactClass ≠ [] && !ch.scts && !ch.ocspStapling && ch.encryptedClientHello = [] then
    str "s:" ++ exactClass
  else softClassifyClientHello ch

/-! ## Its shape -/

/-- A non-empty string of hexadecimal digits. -/
structure IsHex (c : Bytes) : Prop where
  ne_nil : c ≠ []
  digits : ∀ b ∈ c, b ∈ hexdigits

theorem hexLoop_digits (n : Nat) (v : UInt64) {acc : Bytes} (h : ∀ b ∈ acc, b ∈ hexdigits) :
    ∀ b ∈ hexLoop n v acc, b ∈ hexdigits := by
  induction n generalizing v acc with
  | zero => exact h
  | succ n ih =>
      rw [hexLoop]
      split
      · exact h
      · refine ih (v >>> 4) ?_
        intro b hb
        rcases List.mem_cons.mp hb with rfl | hb
        · have hlt : (v &&& 0xf).toNat < 16 := by
            rw [UInt64.toNat_and]
            exact Nat.and_lt_two_pow _ (n := 4) (by decide)
          have hall : ∀ m ∈ List.range 16, hexdigits.getD m 0 ∈ hexdigits := by decide
          exact hall _ (List.mem_range.mpr hlt)
        · exact h b hb

theorem hexLoop_ne_nil (n : Nat) (v : UInt64) {acc : Bytes} (h : acc ≠ []) :
    hexLoop n v acc ≠ [] := by
  induction n generalizing v acc with
  | zero => exact h
  | succ n ih =>
      rw [hexLoop]
      split
      · exact h
      · exact ih _ (List.cons_ne_nil _ _)

theorem formatUint64Hex_isHex (v : UInt64) : IsHex (formatUint64Hex v) := by
  unfold formatUint64Hex
  split
  · exact ⟨by decide, by decide +kernel⟩
  next h =>
    refine ⟨?_, hexLoop_digits 16 v (by simp)⟩
    rw [hexLoop, if_neg h]
    exact hexLoop_ne_nil _ _ (List.cons_ne_nil _ _)

theorem IsHex.classLike {c : Bytes} (h : IsHex c) : ClassLike c := by
  refine ⟨h.ne_nil, fun hs => absurd (h.digits _ hs) (by decide), ?_⟩
  rintro ⟨t, rfl⟩
  exact absurd (h.digits 0x78 (by simp [str])) (by decide)

theorem IsHex.ne_soft {c : Bytes} (h : IsHex c) (t : Bytes) : c ≠ str "s:" ++ t := by
  rintro rfl
  exact absurd (h.digits 0x73 (by simp [str])) (by decide)

theorem IsHex.soft_classLike {c : Bytes} (h : IsHex c) : ClassLike (str "s:" ++ c) := by
  refine ⟨by simp [str], ?_, by simp [str]⟩
  simp only [List.mem_append, not_or]
  exact ⟨by decide, h.classLike.noSep⟩

theorem classifyClientHello_isHex (ch : ClientHelloMsg) : IsHex (classifyClientHello ch) :=
  formatUint64Hex_isHex _

/-- The soft class is a marked class. -/
theorem softClassifyFromExact_eq (ch : ClientHelloMsg) :
    ∃ c, IsHex c ∧ softClassifyFromExact ch (classifyClientHello ch) = str "s:" ++ c := by
  unfold softClassifyFromExact
  split
  · exact ⟨_, classifyClientHello_isHex ch, rfl⟩
  · unfold softClassifyClientHello
    split
    · exact ⟨_, classifyClientHello_isHex _, rfl⟩
    · exact ⟨_, classifyClientHello_isHex _, rfl⟩

end Reality
