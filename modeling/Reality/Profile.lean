import Mathlib.Data.Fin.VecNotation
import Mathlib.Data.Fintype.Pi
import Reality.Kit.Bytes
import Reality.Kit.Clock

/-!
# Handshake profiles

The data a cache entry holds (`RealityProfile`, tls.go) and the checks on
its record-length vector (fidelity.go). A length vector has one slot for
each record of the target's flight: ServerHello, ChangeCipherSpec,
EncryptedExtensions, Certificate, CertificateVerify, Finished and the
optional NewSessionTicket.
-/

namespace Reality

open Kit

/-- A TLS version, cipher suite or group number. -/
abbrev CurveID := UInt16

def versionTLS10 : UInt16 := 0x0301

def versionTLS11 : UInt16 := 0x0302

def versionTLS12 : UInt16 := 0x0303

def versionTLS13 : UInt16 := 0x0304

def recordHeaderLen : Nat := 5

/-- `maxTLSRecordPayload`; the code compares whole record lengths with it. -/
def maxTLSRecordPayload : Nat := 16384

instance neZero_slots : NeZero 7 := ⟨by decide⟩

/-- `[7]int`. Persisted files may hold any integers. -/
abbrev RecordLens := Fin 7 → Int

def recordModeSplit : UInt8 := 0

def recordModeCoalesced : UInt8 := 1

/-- `CHClassVersion` -/
def chClassVersion : UInt8 := 3

/-- Display-only certificate shape (`DestCertMeta`). -/
structure DestCertMeta where
  cn : Bytes := []
  dnsNames : List Bytes := []
  organization : Bytes := []
  notBefore : Int := zeroTime
  notAfter : Int := zeroTime
  chainDepth : Int := 0
  chainLens : List Int := []
  leafLen : Int := 0
  updated : Int := zeroTime
  issuerCN : Bytes := []
  issuerOrg : Bytes := []
  issuerCountry : Bytes := []
  intermediateNames : List Bytes := []
  deriving DecidableEq

structure RealityProfile where
  recordLens : RecordLens := 0
  fingerprint : UInt64 := 0
  cipherSuite : UInt16 := 0
  alpn : Bytes := []
  tlsVersion : UInt16 := 0
  recordCount : Int := 0
  capturedAt : Int := zeroTime
  recordMode : UInt8 := 0
  dest : Bytes := []
  serverName : Bytes := []
  chClass : Bytes := []
  keyShareGroup : CurveID := 0
  acceptsHRR : Bool := false
  shapeHash : UInt64 := 0
  serverHelloTemplate : Bytes := []
  evidence : Int := 0
  liveEvidence : Int := 0
  stability : Int := 0
  source : Bytes := []
  chClassVer : UInt8 := 0
  certMeta : Option DestCertMeta := none
  deriving DecidableEq

/-! ## Record lengths -/

def inferRecordMode (lens : RecordLens) : UInt8 :=
  if lens 2 > 512 then recordModeCoalesced else recordModeSplit

/-- One slot of the range loop. Every zero slot passes: the three zero
branches of the source all `continue`. -/
def recordLenInRange (l : Int) : Bool :=
  l = 0 || !(l < recordHeaderLen || l > maxTLSRecordPayload)

theorem recordLenInRange_iff {l : Int} :
    recordLenInRange l = true ↔ l = 0 ∨ recordHeaderLen ≤ l ∧ l ≤ maxTLSRecordPayload := by
  simp [recordLenInRange]

def validateRecordLensMode (lens : RecordLens) (mode : UInt8) : Bool :=
  if !(List.finRange 7).all (fun i => recordLenInRange (lens i)) then false
  else if lens 0 ≠ 0 && (lens 0 < recordHeaderLen || lens 0 > maxTLSRecordPayload) then false
  else if lens 1 ≠ 0 && lens 1 ≠ 6 then false
  else if mode = recordModeCoalesced && lens 2 ≠ 0 && lens 2 ≤ 512 then false
  else true

def validateRecordLens (lens : RecordLens) : Bool :=
  validateRecordLensMode lens (inferRecordMode lens)

theorem validateRecordLens_le {lens : RecordLens} (h : validateRecordLens lens = true)
    (i : Fin 7) : lens i ≤ maxTLSRecordPayload := by
  unfold validateRecordLens validateRecordLensMode at h
  split at h
  · cases h
  next hall =>
    simp only [Bool.not_eq_true', Bool.not_eq_false, List.all_eq_true] at hall
    rcases recordLenInRange_iff.mp (hall i (List.mem_finRange i)) with h0 | h0
    · rw [h0]
      decide
    · exact h0.2

/-! ## FNV-1a and the profile hashes -/

def fnv64Offset : UInt64 := 14695981039346656037

def fnv64Prime : UInt64 := 1099511628211

def mixByte (h : UInt64) (b : UInt8) : UInt64 :=
  (h ^^^ b.toUInt64) * fnv64Prime

def mixU16 (h : UInt64) (v : UInt16) : UInt64 :=
  mixByte (mixByte h (v >>> 8).toUInt8) (v &&& 0xff).toUInt8

/-- `uint16(n)` of a Go `int`. -/
def toUint16 (n : Int) : UInt16 := UInt16.ofNat (n % 65536).toNat

def computeFingerprint (cipherSuite : UInt16) (alpn : Bytes)
    (serverHelloLen extensionsLen : Int) : UInt64 :=
  let h := mixU16 fnv64Offset cipherSuite
  let h := alpn.foldl mixByte h
  mixU16 (mixU16 h (toUint16 serverHelloLen)) (toUint16 extensionsLen)

def computeShapeHash (cipherSuite : UInt16) (group : CurveID) (r0Len templateLen : Int) :
    UInt64 :=
  let h := mixU16 (mixU16 fnv64Offset cipherSuite) group
  mixU16 (mixU16 h (toUint16 r0Len)) (toUint16 templateLen)

/-! ## Provenance of an observation -/

def sourceLive : Bytes := str "live"

def sourceProbe : Bytes := str "probe"

def sourcePersist : Bytes := str "persist"

/-- `profile.IsExpired()`, against `ProfileTTL`. -/
def profileTTL : Int := 30 * minute

def RealityProfile.isExpired (p : RealityProfile) (now : Int) : Bool :=
  timeSub now p.capturedAt > profileTTL

end Reality
