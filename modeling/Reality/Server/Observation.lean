import Reality.Probe
import Reality.Server.Capture

/-!
# Observations

The profile `buildObservationProfile` (server_amortize.go) makes of a
handshake: the length vector and template of the capture, suite and group of
the ServerHello it kept.
-/

namespace Reality

open Kit

/-- `buildObservationProfile` at time `now`; `certMeta` is what
`ResolveDestCertMeta` found for the dest. -/
def buildObservationProfile (dest serverName : Bytes) (hello : Option ServerHelloMsg)
    (vers : UInt16) (usedLen : RecordLens) (chClass alpn r0Template source : Bytes)
    (certMeta : Option DestCertMeta) (now : Int) : RealityProfile :=
  let group := match hello with
    | some h => h.serverShare.group
    | none => 0
  let suite := match hello with
    | some h => h.cipherSuite
    | none => 0
  { recordLens := usedLen
    fingerprint := computeFingerprint suite alpn (usedLen 0) (usedLen 2)
    cipherSuite := suite
    alpn := alpn
    tlsVersion := vers
    recordCount := countRecords usedLen
    capturedAt := now
    recordMode := inferRecordMode usedLen
    dest := dest
    serverName := serverName
    chClass := chClass
    keyShareGroup := group
    acceptsHRR := false
    shapeHash := computeShapeHash suite group (usedLen 0) r0Template.length
    serverHelloTemplate := r0Template
    evidence := if source = sourceProbe then 0 else 1
    liveEvidence := if source = sourceLive then 1 else 0
    source := source
    chClassVer := chClassVersion
    certMeta := certMeta }

end Reality
