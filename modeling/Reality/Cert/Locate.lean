import Reality.Cert.Fit
import Reality.Kit.Search

/-!
# Where the ML-DSA signature goes

`locateMLDSAOffset` (cert_plan.go) finds the REALITY extension in the DER of a leaf
by SEARCHING for its first 32 bytes. They are zeros, and the bytes just before
them are the length of the value: a length whose low byte is zero makes the run of
zeros start one byte early, at that length byte. The signature then goes over it.
-/

namespace Reality

open Kit

def realityAuthOID : List Nat := [1, 3, 6, 1, 4, 1, 20226, 1, 1]

/-- An extension of a parsed certificate. -/
structure Extension where
  id : List Nat
  value : Bytes
  deriving DecidableEq

section

variable (parseCertificate : Bytes → Option (List Extension))

def indexBytes (s sub : Bytes) : Option Nat := if sub = [] then some 0 else firstMatch s sub

def locateMLDSAOffset (der : Bytes) : Option Nat :=
  match parseCertificate der with
  | none => none
  | some exts =>
      match exts.find? fun e => e.id = realityAuthOID && mldsa65SigSize ≤ e.value.length with
      | some e => indexBytes der (e.value.take (min 32 e.value.length))
      -- Legacy: the first extension, whatever it is.
      | none =>
          match exts with
          | [] => none
          | e :: _ =>
              if mldsa65SigSize ≤ e.value.length then
                indexBytes der (e.value.take (min 32 e.value.length))
              else none

/-- The library with this search. -/
def X509.locating (x : X509) : X509 :=
  { x with locateMLDSAOffset := Reality.locateMLDSAOffset parseCertificate }

/-- An OCTET STRING of `n` zeros, its length in two bytes. -/
def zeroOctets (n : Nat) : Bytes :=
  [0x04, 0x82, UInt8.ofNat (n / 256), UInt8.ofNat n] ++ List.replicate n 0

/-- The extension lengths of ML-DSA leaves: the plain one, and those the growth
search tries. -/
def LeafExtLen (n : Nat) : Prop := n = mldsa65SigSize ∨ 3317 ≤ n ∧ n ≤ 7309

/-- How the DER of a leaf holds a REALITY extension of `n` zeros. -/
structure ZeroExtension (der : Bytes) (n : Nat) where
  before : Bytes
  after : Bytes
  der_eq : der = before ++ (zeroOctets n ++ after)
  exts : List Extension
  parsed : parseCertificate der = some exts
  found : exts.find? (fun e => e.id = realityAuthOID && mldsa65SigSize ≤ e.value.length)
    = some ⟨realityAuthOID, List.replicate n 0⟩
  no_run : ∀ j < before.length, (der.drop j).take 32 ≠ List.replicate 32 0

end

/-- The first byte of the value. -/
def ZeroExtension.valueAt {parseCertificate : Bytes → Option (List Extension)} {der : Bytes}
    {n : Nat} (z : ZeroExtension parseCertificate der n) : Nat := z.before.length + 4

section

variable {parseCertificate : Bytes → Option (List Extension)} {der : Bytes} {n : Nat}

theorem LeafExtLen.bounds (h : LeafExtLen n) : 3309 ≤ n ∧ n ≤ 7309 := by
  rcases h with rfl | ⟨hlo, hhi⟩
  · decide
  · omega

theorem LeafExtLen.high_ne_zero (h : LeafExtLen n) : UInt8.ofNat (n / 256) ≠ 0 := by
  have hb := h.bounds
  intro hz
  have := congrArg UInt8.toNat hz
  rw [UInt8.toNat_ofNat'] at this
  change n / 256 % 256 = 0 at this
  omega

theorem low_eq_zero_iff : UInt8.ofNat n = 0 ↔ n % 256 = 0 := by
  rw [← UInt8.toNat_inj, UInt8.toNat_ofNat']
  rfl

namespace ZeroExtension

theorem drop_before (z : ZeroExtension parseCertificate der n) (j : Nat) :
    der.drop (z.before.length + j) = (zeroOctets n ++ z.after).drop j := by
  refine (congrArg (List.drop _) z.der_eq).trans ?_
  rw [List.drop_append, List.drop_eq_nil_of_le (by omega), List.nil_append, Nat.add_sub_cancel_left]

/-- Tag, length form and high length byte are not zero, so no run starts there. -/
theorem no_run_in_header (z : ZeroExtension parseCertificate der n) (hn : LeafExtLen n) {j : Nat}
    (hj : j < 3) : (der.drop (z.before.length + j)).take 32 ≠ List.replicate 32 0 := by
  rw [z.drop_before]
  have hcases : j = 0 ∨ j = 1 ∨ j = 2 := by omega
  rcases hcases with rfl | rfl | rfl
  · exact take_ne_replicate_of_ne (by decide) _ 31
  · exact take_ne_replicate_of_ne (by decide) _ 31
  · exact take_ne_replicate_of_ne hn.high_ne_zero _ 31

theorem run_at_low_iff (z : ZeroExtension parseCertificate der n) (hn : LeafExtLen n) :
    (der.drop (z.before.length + 3)).take 32 = List.replicate 32 0 ↔ n % 256 = 0 := by
  have hb := hn.bounds
  rw [z.drop_before, ← low_eq_zero_iff]
  change ((UInt8.ofNat n :: (List.replicate n 0 ++ z.after)).take (31 + 1)
    = List.replicate 32 0) ↔ _
  constructor
  · intro h
    by_contra hne
    exact take_ne_replicate_of_ne hne _ 31 h
  · intro h
    rw [h, List.take_succ_cons, take_replicate_append (by omega)]
    rfl

theorem run_at_value (z : ZeroExtension parseCertificate der n) (hn : LeafExtLen n) :
    (der.drop (z.before.length + 4)).take 32 = List.replicate 32 0 := by
  have hb := hn.bounds
  rw [z.drop_before]
  exact take_replicate_append (by omega) z.after

theorem length_le (z : ZeroExtension parseCertificate der n) :
    z.before.length + 4 + n ≤ der.length := by
  have hlen := congrArg List.length z.der_eq
  simp only [zeroOctets, List.length_append, List.length_cons, List.length_nil,
    List.length_replicate] at hlen
  omega

/-- The search stops at the value, or one byte before it when the low length byte is
zero. -/
theorem locate_eq (z : ZeroExtension parseCertificate der n) (hn : LeafExtLen n) :
    locateMLDSAOffset parseCertificate der
      = some (z.before.length + if n % 256 = 0 then 3 else 4) := by
  have hb := hn.bounds
  have hlen := z.length_le
  have hsub : (List.replicate n (0 : UInt8)).take (min 32 (List.replicate n (0 : UInt8)).length)
      = List.replicate 32 0 := by
    rw [List.length_replicate, Nat.min_eq_left (by omega), List.take_replicate,
      Nat.min_eq_left (by omega)]
  have hbefore : ∀ j < z.before.length + 3, (der.drop j).take 32 ≠ List.replicate 32 0 := by
    intro j hj
    by_cases hlt : j < z.before.length
    · exact z.no_run j hlt
    · have := z.no_run_in_header hn (j := j - z.before.length) (by omega)
      rwa [Nat.add_sub_cancel' (Nat.not_lt.mp hlt)] at this
  unfold locateMLDSAOffset
  rw [z.parsed]
  dsimp only
  rw [z.found]
  dsimp only
  rw [hsub, indexBytes, if_neg (by decide)]
  split
  next hz =>
    exact firstMatch_eq_some ((z.run_at_low_iff hn).mpr hz) hbefore
      (by rw [List.length_replicate]; omega)
  next hz =>
    refine firstMatch_eq_some (z.run_at_value hn) (fun j hj => ?_)
      (by rw [List.length_replicate]; omega)
    by_cases hlow : j = z.before.length + 3
    · rw [hlow]
      exact fun h => hz ((z.run_at_low_iff hn).mp h)
    · exact hbefore j (by omega)

end ZeroExtension

/-! ## The signature in the leaf -/

/-- With an offset in range the signature is written there, over the HMAC'd leaf. -/
theorem materializeCert_signed {plan : CertPlan} {off : Nat} (hoff : plan.mldsaOffset = some off)
    (hroom : off + mldsa65SigSize ≤ plan.leafDER.length) (mac sig : Bytes) :
    materializeCert plan mac (some sig)
      = some (overwrite (overwrite plan.leafDER plan.hmacOffset 64 mac) off mldsa65SigSize sig
          :: plan.chainDERs) := by
  unfold materializeCert
  rw [hoff]
  refine if_neg ?_
  rw [overwrite_length _ plan.hmac_room]
  omega

end

/-- **The signature goes into the extension value** if and only if the length of the
value is no multiple of 256: the offset is that of the first value byte, and signing
changes nothing outside of the value. -/
theorem locateMLDSAOffset_value_iff {parseCertificate : Bytes → Option (List Extension)}
    {der : Bytes} {n : Nat} (z : ZeroExtension parseCertificate der n) (hn : LeafExtLen n)
    (x : X509) (mode : UInt8) (budget : Int) (chain : List Bytes) (hder : 64 ≤ der.length)
    {mac sig : Bytes} (hmac : mac.length = 64) (hsig : sig.length = mldsa65SigSize) :
    (locateMLDSAOffset parseCertificate der = some z.valueAt
      ∧ ∃ plain signed,
        materializeCert (certPlan (x.locating parseCertificate) true mode budget der chain hder)
          mac none = some (plain :: chain)
        ∧ materializeCert (certPlan (x.locating parseCertificate) true mode budget der chain hder)
          mac (some sig) = some (signed :: chain)
        ∧ (signed.drop z.valueAt).take mldsa65SigSize = sig
        ∧ (∀ i, (i < z.valueAt ∨ z.valueAt + n ≤ i) → signed[i]? = plain[i]?)
        ∧ ∀ i, (i < z.valueAt ∨ z.valueAt + n ≤ i) →
          (i < x.locateHMACOffset der ∨ x.locateHMACOffset der + 64 ≤ i) → signed[i]? = der[i]?)
      ↔ n % 256 ≠ 0 := by
  constructor
  · rintro ⟨hloc, -⟩ hlow
    rw [z.locate_eq hn, if_pos hlow, ZeroExtension.valueAt, Option.some.injEq] at hloc
    omega
  intro hlow
  have hb := hn.bounds
  have hlen := z.length_le
  have hsize : mldsa65SigSize = 3309 := rfl
  have hloc : locateMLDSAOffset parseCertificate der = some z.valueAt := by
    rw [z.locate_eq hn, if_neg hlow]
    rfl
  have hvalue : z.valueAt = z.before.length + 4 := rfl
  let plan := certPlan (x.locating parseCertificate) true mode budget der chain hder
  have hoff : plan.mldsaOffset = some z.valueAt := hloc
  have hplain : (overwrite der plan.hmacOffset 64 mac).length = der.length :=
    overwrite_length mac plan.hmac_room
  have hroom : z.valueAt + mldsa65SigSize ≤ (overwrite der plan.hmacOffset 64 mac).length := by
    rw [hplain]
    omega
  have houtside : ∀ i, (i < z.valueAt ∨ z.valueAt + n ≤ i) →
      (overwrite (overwrite der plan.hmacOffset 64 mac) z.valueAt mldsa65SigSize sig)[i]?
        = (overwrite der plan.hmacOffset 64 mac)[i]? := by
    intro i hi
    exact getElem?_overwrite_of_outside hroom hsig (by omega)
  refine ⟨hloc, overwrite der plan.hmacOffset 64 mac, _, rfl, materializeCert_signed hoff
    (hplain ▸ hroom) mac sig, slot_overwrite hroom hsig, houtside, fun i hi hh => ?_⟩
  exact (houtside i hi).trans (getElem?_overwrite_of_outside plan.hmac_room hmac hh)

/-! ## Leaves of which nothing but the extension matters -/

/-- A certificate that is its extension, with 64 bytes behind it. -/
def hollowLeaf (n : Nat) : Bytes := 0x30 :: (zeroOctets n ++ List.replicate 64 1)

/-- Reads the extension of such a certificate. -/
def hollowParse (der : Bytes) : Option (List Extension) :=
  some [⟨realityAuthOID, (der.drop 5).take (der.length - 69)⟩]

/-- A library that makes such certificates. -/
def hollowX509 : X509 where
  createCertificate _ template :=
    match template with
    | .leaf extLen _ _ => some (hollowLeaf extLen)
    | .filler .. => none
  signature _ := none
  locateMLDSAOffset := locateMLDSAOffset hollowParse

theorem hollowLeaf_length (n : Nat) : (hollowLeaf n).length = n + 69 := by
  simp only [hollowLeaf, zeroOctets, List.length_cons, List.length_append, List.length_nil,
    List.length_replicate]
  omega

theorem hollowParse_leaf (n : Nat) :
    hollowParse (hollowLeaf n) = some [⟨realityAuthOID, List.replicate n 0⟩] := by
  rw [hollowParse, hollowLeaf_length, Nat.add_sub_cancel]
  change some [Extension.mk realityAuthOID
    ((List.replicate n (0 : UInt8) ++ List.replicate 64 1).take n)] = _
  rw [take_replicate_append (Nat.le_refl n)]

def hollowZero {n : Nat} (h : mldsa65SigSize ≤ n) :
    ZeroExtension hollowParse (hollowLeaf n) n where
  before := [0x30]
  after := List.replicate 64 1
  der_eq := rfl
  exts := [⟨realityAuthOID, List.replicate n 0⟩]
  parsed := hollowParse_leaf n
  found := by
    rw [List.find?_cons_of_pos]
    rw [List.length_replicate, decide_eq_true h]
    rfl
  no_run := by
    intro j hj
    have hj0 : j = 0 := Nat.lt_one_iff.mp hj
    rw [hj0]
    exact take_ne_replicate_of_ne (by decide) _ 31

/-- The plain leaf, whose length 3309 is 0x0ced. -/
theorem locateMLDSAOffset_value_iff_plain :
    locateMLDSAOffset hollowParse (hollowLeaf mldsa65SigSize) = some 5 :=
  ((locateMLDSAOffset_value_iff (hollowZero (Nat.le_refl _)) (Or.inl rfl) hollowX509 0 0 []
    (by rw [hollowLeaf_length]; decide) (List.length_replicate (a := 2))
    (List.length_replicate (a := 3))).mpr (by decide)).1

open Calls in
/-- When every length in the range fits, the search ends at the longest. -/
theorem padExtension_longest {x : X509} {target : Int} {certMeta : Option DestCertMeta}
    {chain : List Bytes} {leafOf : Nat → Bytes} {lo hi : Int} {best : Bytes}
    (hask : ∀ k e, x.createCertificate k (.leaf e 0 certMeta) = some (leafOf e))
    (hfits : ∀ e, lo ≤ e → e ≤ hi → x.locateMLDSAOffset (leafOf e.toNat) ≠ none
      ∧ estimateCertMsgLen (leafOf e.toNat) chain ≤ target)
    (hbest : lo ≤ hi ∨ lo = hi + 1 ∧ best = leafOf hi.toNat) :
    Returns (padExtension x true target certMeta chain lo hi best) (· = leafOf hi.toNat) := by
  fun_induction padExtension x true target certMeta chain lo hi best with
  | case1 lo hi best hle mid _ ih =>
      have hmid : lo ≤ mid ∧ mid ≤ hi := by omega
      have hleaf : Returns (createLeaf x mid.toNat 0 certMeta) (· = some (leafOf mid.toNat)) :=
        fun k => hask k _
      refine .bind hleaf fun nl hnl => ?_
      rw [hnl]
      obtain ⟨hfound, hfit⟩ := hfits mid hmid.1 hmid.2
      refine .ite (fun h => absurd h.2 hfound) fun _ => .ite (fun _ => ?_) fun h => absurd hfit h
      refine ih (leafOf mid.toNat) (fun e he => hfits e (by omega)) ?_
      by_cases hlast : mid = hi
      · exact Or.inr ⟨by omega, by rw [hlast]⟩
      · exact Or.inl (by omega)
  | case2 lo hi best hgt =>
      exact .pure (hbest.resolve_left hgt).2

theorem estimate_hollowLeaf (n : Nat) : estimateCertMsgLen (hollowLeaf n) [] = n + 82 := by
  rw [estimateCertMsgLen_nil, hollowLeaf_length]
  push_cast
  omega

theorem located_hollowLeaf {n : Nat} (h : LeafExtLen n) :
    hollowX509.locateMLDSAOffset (hollowLeaf n) ≠ none := by
  have hloc := (hollowZero h.bounds.1).locate_eq h
  intro hnone
  rw [show hollowX509.locateMLDSAOffset (hollowLeaf n) = _ from hloc] at hnone
  cases hnone

open Calls in
/-- No filler is tried for less than 96 bytes. -/
theorem fillChain_short {x : X509} {leaf : Bytes} {target : Int} {certMeta : Option DestCertMeta}
    {shape : Option CertShapeHint} {chain : List Bytes}
    (h : target - estimateCertMsgLen leaf chain < 96) (n : Nat) :
    Returns (fillChain x leaf target certMeta shape n chain) (· = chain) := by
  cases n with
  | zero => exact .pure rfl
  | succ n => exact .ite (fun _ => .pure rfl) fun hn => absurd (Or.inr h) hn

open Calls in
/-- A leaf that lacks few bytes is grown to the extension that leaves eight. -/
theorem grown_hollowLeaf {n : Nat} (hlo : 3317 < n) (hhi : n < 3397) (certMeta : DestCertMeta) :
    Returns (growCertsToward hollowX509 (hollowLeaf mldsa65SigSize) true (n + 90) (some certMeta)
      none) (· = (hollowLeaf n, [])) := by
  have hleaf := estimate_hollowLeaf mldsa65SigSize
  have hsize : (mldsa65SigSize : Int) = 3309 := rfl
  refine .ite (fun h => absurd h (by omega)) fun _ => .ite (fun h => absurd h (by simp)) fun _ => ?_
  refine .bind (fillChain_short (by omega) _) fun chain hc => ?_
  rw [hc]
  refine .ite (fun _ => ?_) fun h => absurd (by omega) h
  have hbounds : extensionBounds true (n + 90 - estimateCertMsgLen (hollowLeaf mldsa65SigSize) [])
      = (3317, (n : Int)) := by
    simp only [extensionBounds, if_true, hleaf, hsize, Prod.mk.injEq]
    omega
  rw [hbounds]
  have hpad : Returns (padExtension hollowX509 true (n + 90) (some certMeta) [] 3317 n
      (hollowLeaf mldsa65SigSize)) (· = hollowLeaf (n : Int).toNat) := by
    refine padExtension_longest (fun k e => rfl) (fun e hl hh => ?_) (Or.inl (by omega))
    have hrange : LeafExtLen e.toNat := Or.inr (by omega)
    refine ⟨located_hollowLeaf hrange, ?_⟩
    rw [estimate_hollowLeaf]
    omega
  exact .bind hpad fun leaf hl => .pure (by rw [hl, Int.toNat_natCast])

/-- What signing does to the low length byte, at index 4, of a value whose length is a
multiple of 256. -/
theorem signed_hollowLeaf {n : Nat} (hn : LeafExtLen n) (hlow : n % 256 = 0)
    (h64 : 64 ≤ (hollowLeaf n).length) {b : UInt8} {mac : Bytes} :
    locateMLDSAOffset hollowParse (hollowLeaf n) = some 4
      ∧ ∃ signed, materializeCert (certPlan hollowX509 true 0 0 (hollowLeaf n) [] h64) mac
          (some (List.replicate mldsa65SigSize b)) = some [signed] ∧ signed[4]? = some b := by
  have hlen := hollowLeaf_length n
  have hb := hn.bounds
  have hsize : mldsa65SigSize = 3309 := rfl
  have hloc : locateMLDSAOffset hollowParse (hollowLeaf n) = some 4 := by
    rw [(hollowZero hb.1).locate_eq hn, if_pos hlow]
    rfl
  have hroom : 4 + mldsa65SigSize ≤ (hollowLeaf n).length := by omega
  let plan := certPlan hollowX509 true 0 0 (hollowLeaf n) [] h64
  have hplain : (overwrite (hollowLeaf n) plan.hmacOffset 64 mac).length = (hollowLeaf n).length :=
    overwrite_length _ plan.hmac_room
  have hoff : plan.mldsaOffset = some 4 := hloc
  refine ⟨hloc, _, materializeCert_signed hoff hroom mac _, ?_⟩
  have hslot := slot_overwrite (hplain ▸ hroom)
    (List.length_replicate (n := mldsa65SigSize) (a := b))
  have hbyte := congrArg (·[0]?) hslot
  simp only [List.getElem?_take_of_lt (show 0 < mldsa65SigSize by decide), List.getElem?_drop,
    Nat.add_zero, List.getElem?_replicate_of_lt (show 0 < mldsa65SigSize by decide)] at hbyte
  exact hbyte

/-- **A signature over a length byte**: the search grows the extension to 3328 bytes,
which is 0x0d00; the run of zeros is found at the low length byte, one byte
before the value, and that byte is overwritten. -/
theorem locateMLDSAOffset_early :
    LeafExtLen 3328
      ∧ (∀ k, (growCertsToward hollowX509 (hollowLeaf mldsa65SigSize) true 3418 (some {}) none
        k).1 = (hollowLeaf 3328, []))
      ∧ (hollowZero (show mldsa65SigSize ≤ 3328 by decide)).valueAt = 5
      ∧ locateMLDSAOffset hollowParse (hollowLeaf 3328) = some 4
      ∧ ∃ h64 signed, materializeCert (certPlan hollowX509 true 0 0 (hollowLeaf 3328) [] h64)
          (List.replicate 64 2) (some (List.replicate mldsa65SigSize 3)) = some [signed]
        ∧ (hollowLeaf 3328)[4]? = some 0 ∧ signed[4]? = some 3 := by
  have hn : LeafExtLen 3328 := Or.inr (by decide)
  have h64 : 64 ≤ (hollowLeaf 3328).length := by
    rw [hollowLeaf_length]
    decide
  have hgrown := grown_hollowLeaf (n := 3328) (by decide) (by decide) {}
  obtain ⟨hloc, signed, hsigned, hbyte⟩ := signed_hollowLeaf hn (by decide) h64
  exact ⟨hn, hgrown, rfl, hloc, h64, signed, hsigned, rfl, hbyte⟩

end Reality
