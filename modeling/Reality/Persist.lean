import Reality.Cache.Manager

/-!
# Restoring persisted profiles

The on-disk form of a profile and the body of `load` (profile_persist.go)
for one entry of the file. JSON decoding is taken as given: a
`PersistProfileEntry` is any value the decoder can produce, so its integers
are unconstrained.
-/

namespace Reality

open Kit

structure PersistCertMeta where
  cn : Bytes := []
  dnsNames : List Bytes := []
  organization : Bytes := []
  notBefore : Int := 0
  notAfter : Int := 0
  chainDepth : Int := 0
  chainLens : List Int := []
  leafLen : Int := 0
  issuerCN : Bytes := []
  issuerOrg : Bytes := []
  issuerCountry : Bytes := []
  intermediateNames : List Bytes := []
  deriving DecidableEq

def destCertMetaFromPersist (p : PersistCertMeta) : DestCertMeta :=
  { cn := p.cn, dnsNames := p.dnsNames, organization := p.organization
    notBefore := if p.notBefore ≠ 0 then p.notBefore * second else zeroTime
    notAfter := if p.notAfter ≠ 0 then p.notAfter * second else zeroTime
    chainDepth := p.chainDepth, chainLens := p.chainLens, leafLen := p.leafLen
    issuerCN := p.issuerCN, issuerOrg := p.issuerOrg, issuerCountry := p.issuerCountry
    intermediateNames := p.intermediateNames }

structure PersistProfileEntry where
  recordLens : RecordLens := 0
  fingerprint : UInt64 := 0
  cipherSuite : UInt16 := 0
  alpn : Bytes := []
  tlsVersion : UInt16 := 0
  recordCount : Int := 0
  capturedAt : Int := 0
  recordMode : UInt8 := 0
  liveEvidence : Int := 0
  evidence : Int := 0
  chClassVer : UInt8 := 0
  source : Bytes := []
  dest : Bytes := []
  serverName : Bytes := []
  certMeta : Option PersistCertMeta := none
  deriving DecidableEq

/-- `migrateProfileFile` on one entry: files before version 2 get a mode. -/
def migrateProfileEntry (version : Int) (e : PersistProfileEntry) : PersistProfileEntry :=
  if version < 2 && e.recordMode = 0 then
    { e with recordMode := inferRecordMode e.recordLens }
  else e

/-- `Dest` and `ServerName`, recovered from the key when the entry has none. -/
def recoverNames (key : Bytes) (e : PersistProfileEntry) : Bytes × Bytes :=
  if e.dest = [] || e.serverName = [] then
    match parseCacheKeyV2 key with
    | some (d, sn, _) =>
        (if e.dest = [] then d else e.dest, if e.serverName = [] then sn else e.serverName)
    | none =>
        (e.dest, if e.serverName = [] then (parseCacheKey key).1 else e.serverName)
  else (e.dest, e.serverName)

/-- The profile `load` hands to `StoreProfile`. Only a POSITIVE
`live_evidence` is reset; group, shape and template are not persisted. -/
def restoreProfile (key : Bytes) (e : PersistProfileEntry) : RealityProfile :=
  { recordLens := e.recordLens
    fingerprint := e.fingerprint
    cipherSuite := e.cipherSuite
    alpn := e.alpn
    tlsVersion := e.tlsVersion
    recordCount := e.recordCount
    capturedAt := e.capturedAt
    recordMode := if e.recordMode = 0 then inferRecordMode e.recordLens else e.recordMode
    liveEvidence := if e.liveEvidence > 0 then 0 else e.liveEvidence
    evidence := e.evidence
    chClassVer := e.chClassVer
    source := if e.source = [] then sourcePersist else e.source
    dest := (recoverNames key e).1
    serverName := (recoverNames key e).2
    certMeta := e.certMeta.map destCertMetaFromPersist }

/-- One round of `load`'s loop at time `now`. -/
def loadEntry (m : CacheManager) (version : Int) (key : Bytes) (e : PersistProfileEntry)
    (now : Int) (order : List Bytes) : Except Panic CacheManager :=
  let e := migrateProfileEntry version e
  if timeSub now e.capturedAt > profileTTL then .ok m
  else do
    let r ← m.storeProfile key (restoreProfile key e) order
    .ok r.1

end Reality
