import Mathlib.Logic.Function.Basic
import Reality.Cache.Amortize
import Reality.Tls.Record

/-!
# Probing a target

What a probe reads off the bytes a target sent (`parseRecordLens`), the
profile it makes of them, and the refresh step that compares it with the
cache (probe_common.go, prebuild.go, refresh_manager.go). A probe's dial and
TLS client are outside the model: its outcome is the captured byte string.
-/

namespace Reality

open Kit

/-! ## Record lengths of a capture -/

/-- The two nested loops of `parseRecordLens`: `i` records have been read. A
record that is not all there ends the loops with what was read; a record
that is wrong makes the parse fail. -/
def parseRecords : Nat → Nat → Bytes → RecordLens → UInt16 →
    Option (RecordLens × UInt16 × Nat)
  | 0, i, _, lens, suite => some (lens, suite, i)
  | n + 1, i, saved, lens, suite =>
      if saved.length ≤ recordHeaderLen then some (lens, suite, i)
      else if !headerOk i saved then none
      else
        let len := recordLenAt saved
        if !lengthOk i len then none
        else if saved.length < len then some (lens, suite, i)
        else
          let lens := Function.update lens (Fin.ofNat 7 i) (len : Int)
          if i = 0 then
            match unmarshalServerHello ((saved.take len).drop recordHeaderLen) with
            | none => none
            | some hello => parseRecords n (i + 1) (saved.drop len) lens hello.cipherSuite
          else parseRecords n (i + 1) (saved.drop len) lens suite

/-- `parseRecordLens`: lengths and cipher suite when at least one record was
read. A truncated capture is accepted. -/
def parseRecordLens (data : Bytes) : Option (RecordLens × UInt16) :=
  match parseRecords 7 0 data 0 0 with
  | none => none
  | some (lens, suite, i) => if i > 0 then some (lens, suite) else none

structure ProbeResult where
  cipherSuite : UInt16
  recordLens : RecordLens
  recordCount : Int
  certMeta : Option DestCertMeta := none
  deriving DecidableEq

def countRecords (lens : RecordLens) : Int :=
  ((List.finRange 7).filter (fun i => lens i > 0)).length

/-- `ProbeTargetViaUTLS` on the captured bytes. -/
def probeResult (data : Bytes) (certMeta : Option DestCertMeta) : Option ProbeResult :=
  (parseRecordLens data).map fun r =>
    { cipherSuite := r.2, recordLens := r.1, recordCount := countRecords r.1
      certMeta := certMeta }

/-! ## The profile of a probe -/

def alpnToInt (alpn : Bytes) : Nat :=
  if alpn = str "http/1.1" then 1 else if alpn = str "h2" then 2 else 0

def intToALPN (index : Nat) : Bytes :=
  if index = 1 then str "http/1.1" else if index = 2 then str "h2" else []

/-- The profile `probeTargetRaw` returns. It has no group, shape hash or
template. -/
def probeProfile (dest serverName : Bytes) (alpnIndex : Nat) (result : ProbeResult)
    (now : Int) : RealityProfile :=
  { recordLens := result.recordLens
    fingerprint := computeFingerprint result.cipherSuite (intToALPN alpnIndex)
      (result.recordLens 0) (result.recordLens 2)
    cipherSuite := result.cipherSuite
    alpn := intToALPN alpnIndex
    tlsVersion := versionTLS13
    recordCount := result.recordCount
    capturedAt := now
    recordMode := inferRecordMode result.recordLens
    dest := dest
    serverName := serverName
    source := sourceProbe
    chClassVer := chClassVersion
    certMeta := result.certMeta }

/-- The observation an asynchronous reprobe of `captureTargetRecords` stores
under the exact key of the handshake that asked for it. -/
def reprobeProfile (dest serverName alpn chClass : Bytes) (result : ProbeResult)
    (now : Int) : RealityProfile :=
  let p :=
    { probeProfile dest serverName (alpnToInt alpn) result now with
      source := sourceProbe, dest := dest, serverName := serverName, alpn := alpn,
      tlsVersion := versionTLS13, chClass := chClass }
  if p.recordMode = 0 then { p with recordMode := inferRecordMode p.recordLens } else p

/-! ## Refresh -/

/-- The fields of a `refreshEntry` that `probeTarget` reads. -/
structure RefreshEntry where
  dest : Bytes
  serverName : Bytes
  alpn : Bytes
  cacheKey : Bytes
  lastProbeLens : RecordLens := 0
  lastProbeCipherSuite : UInt16 := 0
  stableCount : Nat := 0
  deriving DecidableEq

/-- `AddTarget` -/
def newRefreshEntry (dest serverName alpn : Bytes) : RefreshEntry :=
  { dest := dest, serverName := serverName, alpn := alpn
    cacheKey := cacheKey serverName alpn versionTLS13 }

def recordLensMatch (a b : RecordLens) : Bool :=
  (List.range 6).all (fun i => a (Fin.ofNat 7 i) = b (Fin.ofNat 7 i)) &&
    (a 6 - b 6).natAbs ≤ 64

/-- The profile a confirmed change is swapped to. -/
def refreshProfile (entry : RefreshEntry) (result : ProbeResult) (now : Int) :
    RealityProfile :=
  { recordLens := result.recordLens
    fingerprint := computeFingerprint result.cipherSuite entry.alpn
      (result.recordLens 0) (result.recordLens 2)
    cipherSuite := result.cipherSuite
    alpn := entry.alpn
    recordCount := result.recordCount
    capturedAt := now }

/-- The debouncing counters after a differing probe. -/
def RefreshEntry.noteChange (entry : RefreshEntry) (result : ProbeResult) : RefreshEntry :=
  if entry.lastProbeCipherSuite = result.cipherSuite &&
      entry.lastProbeLens = result.recordLens then
    { entry with stableCount := entry.stableCount + 1 }
  else
    { entry with
      stableCount := 1, lastProbeCipherSuite := result.cipherSuite,
      lastProbeLens := result.recordLens }

/-- `probeTarget` after its probe: phase A trusts suite, R1 and R2; phase B
compares everything and swaps after two identical differing probes. -/
def probeTarget (m : CacheManager) (entry : RefreshEntry) (outcome : Option ProbeResult)
    (now : Int) : Except Panic (CacheManager × RefreshEntry) :=
  match outcome with
  | none => .ok (m.markNegative entry.cacheKey now, entry)
  | some result => do
      let (m, profile, _) ← m.getProfile entry.cacheKey now
      let unchanged := (m.markStale entry.cacheKey, { entry with stableCount := 0 })
      match profile with
      | none => .ok unchanged
      | some p =>
          if p.isExpired now then .ok unchanged
          else if p.cipherSuite = result.cipherSuite &&
              result.recordLens 1 = p.recordLens 1 && result.recordLens 2 = p.recordLens 2 then
            .ok (m.markStale entry.cacheKey, entry)
          else if p.cipherSuite ≠ result.cipherSuite ||
              !recordLensMatch p.recordLens result.recordLens then
            let entry := entry.noteChange result
            if entry.stableCount ≥ 2 then
              let entry := { entry with stableCount := 0 }
              if !validateRecordLens result.recordLens then
                .ok (m.markNegative entry.cacheKey now, entry)
              else
                .ok (m.hotSwapProfile entry.cacheKey (refreshProfile entry result now), entry)
            else .ok (m, entry)
          else .ok unchanged

end Reality
