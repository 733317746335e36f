import Reality.Cache.Provenance
import Reality.Classify
import Reality.Server.Complete
import Reality.Server.Observation
import Reality.Server.ZeroDial

/-!
# The server and its cache

`Server` (server_amortize.go) from path selection on, for any number of
connections at once, with everything that writes the cache they SHARE: the
stores of finished handshakes under the exact and the soft key, the event
handler that stores every profile once more under the legacy key
(handlers.go), the reprobes of captures the cache did not answer, and the
refresh of registered targets.

A step is what one goroutine does between two points where another may come
in, so a run is an interleaving. Reading and authenticating the ClientHello
comes before; key agreement and the client's Finished are an outcome each step
is told.
-/

namespace Reality

open Kit

/-- An authenticated ClientHello, with the dest and mode of its config and
what `DestAllowsAmortize` says of that dest. -/
structure Request where
  dest : Bytes
  amortizeMode : AmortizeMode := .default
  allowsAmortize : Bool := true
  ch : ClientHelloMsg
  deriving DecidableEq

namespace Request

def serverName (r : Request) : Bytes := r.ch.serverName

def alpn (r : Request) : Bytes := clientALPN r.ch

def chClass (r : Request) : Bytes := classifyClientHello r.ch

def softClass (r : Request) : Bytes := softClassifyFromExact r.ch r.chClass

/-- The mode in force; an offline or unsuitable dest forces L0. -/
def mode (r : Request) : AmortizeMode :=
  if r.allowsAmortize then resolveAmortizeMode r.amortizeMode else .l0

/-- The arguments of `LookupAmortizeSoft`; zero stands for "not known yet". -/
def query (r : Request) (liveCipher : UInt16) (liveGroup : CurveID) : Query :=
  { mode := r.mode, dest := r.dest, serverName := r.serverName, alpn := r.alpn
    chClass := r.chClass, softChClass := r.softClass
    liveCipher := liveCipher, liveGroup := liveGroup }

def exactKey (r : Request) : Bytes :=
  cacheKeyV2 r.dest r.serverName r.alpn versionTLS13 r.chClass

def softKey (r : Request) : Bytes :=
  cacheKeyV2 r.dest r.serverName r.alpn versionTLS13 r.softClass

theorem chClass_isHex (r : Request) : IsHex r.chClass := classifyClientHello_isHex r.ch

theorem softClass_eq (r : Request) : ∃ c, IsHex c ∧ r.softClass = str "s:" ++ c :=
  softClassifyFromExact_eq r.ch

theorem chClass_classLike (r : Request) : ClassLike r.chClass := r.chClass_isHex.classLike

theorem softClass_classLike (r : Request) : ClassLike r.softClass := by
  obtain ⟨c, hc, heq⟩ := r.softClass_eq
  rw [heq]
  exact hc.soft_classLike

end Request

/-- The path `Server` commits to after it checked an L2 answer against the
ClientHello. -/
def selectPath (ch : ClientHelloMsg) (pre : LookupResult) : AmortizePath :=
  if pre.path = .l2 then
    match pre.profile with
    | none => .l0
    | some p =>
        if !clientOffersCipher ch p.cipherSuite || !clientHasKeyShare ch p.keyShareGroup ||
          p.acceptsHRR then .l1 else .l2
  else pre.path

/-- How far a connection is. -/
inductive Stage where
  | zeroDial (profile : RealityProfile)
  | dialing
  | observed (res : CaptureResult)
  | stored (obs : RealityProfile)
  deriving DecidableEq

/-- The stage a connection starts in. -/
def selectStage (path : AmortizePath) (profile : Option RealityProfile) : Stage :=
  match path, profile with
  | .l2, some p => .zeroDial p
  | _, _ => .dialing

structure Session where
  req : Request
  profileKey : Bytes
  stage : Stage
  deriving DecidableEq

/-- The fields of an `EventHandshakeComplete` that its handlers read. -/
structure HandshakeEvent where
  dest : Bytes
  serverName : Bytes
  alpn : Bytes
  tlsVersion : UInt16
  profile : RealityProfile
  deriving DecidableEq

/-- The event of a handshake that ended with profile `p`. -/
def Request.event (r : Request) (p : RealityProfile) : HandshakeEvent :=
  { dest := r.dest, serverName := r.serverName, alpn := r.alpn, tlsVersion := versionTLS13
    profile := p }

structure System where
  cache : CacheManager := newCacheManager
  sessions : Nat → Option Session := fun _ => none
  events : List HandshakeEvent := []
  reprobes : List Request := []
  targets : List RefreshEntry := []

/-- What a step lets an observer see: the path committed to, the lookups made,
the capture with the request it was made for. -/
structure SysOut where
  path : Option AmortizePath := none
  lookups : List (Query × LookupResult) := []
  captured : Option (Request × CaptureResult) := none

namespace System

def setSession (s : System) (id : Nat) (x : Option Session) : System :=
  { s with sessions := Function.update s.sessions id x }

/-- `emitHandshakeComplete`; a full queue drops the event. -/
def emit (s : System) (queued : Bool) (e : HandshakeEvent) : System :=
  if queued then { s with events := s.events ++ [e] } else s

/-- Path selection, on connection `id`. -/
def accept (s : System) (id : Nat) (req : Request) (now : Int) : Option (System × SysOut) :=
  match s.sessions id with
  | some _ => none
  | none =>
      -- Cipher and group are not known before the target has answered.
      let q := req.query 0 0
      let r := s.cache.lookupAmortize q now
      let path := selectPath req.ch r.2
      -- A miss names no key; failures are then noted under the exact one.
      let key := if r.2.key = [] then req.exactKey else r.2.key
      some ({ s with cache := r.1 }.setSession id
          (some ⟨req, key, selectStage path r.2.profile⟩),
        { path := some path, lookups := [(q, r.2)] })

/-- `runL2Handshake`: what it sends is settled by the template; `ok` says
whether the handshake and the client's Finished succeeded. -/
def runZeroDial (s : System) (id : Nat) (random : Bytes) (ok queued : Bool) (now : Int) :
    Option (System × SysOut) :=
  match s.sessions id with
  | some ⟨req, key, .zeroDial p⟩ =>
      match l2ServerHello p req.ch random now, ok with
      | .ok _, true => some ((s.setSession id none).emit queued (req.event p), {})
      | _, _ =>
          some ({ s with cache := s.cache.noteHandshakeFailure key .l2 now }.setSession id none,
            {})
  | _ => none

/-- `captureTargetRecords` on the reads of the dialed target, and what follows
from its result. A capture the cache did not answer starts a reprobe; a failed
one ends in the mirror, which does not touch the cache. -/
def capture (s : System) (id : Nat) (reads : List Read) (now : Int) :
    Option (System × SysOut) :=
  match s.sessions id with
  | some ⟨req, key, .dialing⟩ =>
      let look := fun suite group => (s.cache.lookupAmortize (req.query suite group) now).2
      let res := (captureTargetRecords ⟨req.mode, look⟩ reads).1
      let asked := res.asked.bind fun _ =>
        res.hello.map fun h => req.query h.cipherSuite h.serverShare.group
      let cache := match asked with
        | some q => (s.cache.lookupAmortize q now).1
        | none => s.cache
      let reprobes := if res.asked.any (fun r => r.path = .l0 || r.profile.isNone)
        then s.reprobes ++ [req] else s.reprobes
      let failed := res.err.isSome || res.hello.isNone || res.usedLen 0 = 0
      some ({ s with cache := cache, reprobes := reprobes }.setSession id
          (if failed then none else some ⟨req, key, .observed res⟩),
        { lookups := asked.toList.map fun q => (q, (s.cache.lookupAmortize q now).2)
          captured := some (req, res) })
  | _ => none

/-- `handshake` and `readClientFinished`, then the store under the exact key. -/
def finish (s : System) (id : Nat) (ok : Bool) (certMeta : Option DestCertMeta)
    (now : Int) (order : List Bytes) : Option (System × SysOut) :=
  match s.sessions id with
  | some ⟨req, key, .observed res⟩ =>
      if ok then
        let obs := buildObservationProfile req.dest req.serverName res.hello versionTLS13
          res.usedLen req.chClass req.alpn res.template sourceLive certMeta now
        let cache := (s.cache.storeRecovered req.exactKey obs now order).1
        some ({ s with cache := cache }.setSession id (some ⟨req, key, .stored obs⟩), {})
      else
        some ({ s with cache := s.cache.noteHandshakeFailure key res.path now }.setSession id
          none, {})
  | _ => none

/-- The observation as it is indexed under the soft class. -/
def softObs (req : Request) (obs : RealityProfile) : RealityProfile :=
  { obs with
    chClass := req.softClass
    liveEvidence := if obs.liveEvidence > 1 then 1 else obs.liveEvidence
    evidence := if obs.evidence > 1 then 1 else obs.evidence }

/-- The store under the soft key, and the event. -/
def index (s : System) (id : Nat) (queued : Bool) (now : Int) (order : List Bytes) :
    Option (System × SysOut) :=
  match s.sessions id with
  | some ⟨req, _, .stored obs⟩ =>
      let cache :=
        if req.softClass ≠ [] && req.softClass ≠ req.chClass then
          (s.cache.storeRecovered req.softKey (softObs req obs) now order).1
        else s.cache
      some (({ s with cache := cache }.setSession id none).emit queued (req.event obs), {})
  | _ => none

/-- `AddTarget`: one target for each dest. -/
def addTarget (s : System) (dest serverName alpn : Bytes) : System :=
  if s.targets.any (·.dest = dest) then s
  else { s with targets := s.targets ++ [newRefreshEntry dest serverName alpn] }

/-- The handlers of event `j`: the cache handler stores its profile under the
LEGACY key, the refresh handler registers the target. -/
def deliver (s : System) (j : Nat) (now : Int) (order : List Bytes) :
    Option (System × SysOut) :=
  match s.events[j]? with
  | none => none
  | some e =>
      let key := cacheKey e.serverName e.alpn e.tlsVersion
      let cache := (s.cache.storeRecovered key e.profile now order).1
      some ({ s with cache := cache, events := s.events.eraseIdx j }.addTarget e.dest
        e.serverName e.alpn, {})

/-- The reprobe of a capture has ended, with a result or without. -/
def reprobed (s : System) (j : Nat) (outcome : Option ProbeResult) (now : Int)
    (order : List Bytes) : Option (System × SysOut) :=
  match s.reprobes[j]? with
  | none => none
  | some req =>
      let cache := match outcome with
        | none => s.cache
        | some result =>
            (s.cache.storeRecovered req.exactKey
              (reprobeProfile req.dest req.serverName req.alpn req.chClass result now) now
              order).1
      some ({ s with cache := cache, reprobes := s.reprobes.eraseIdx j }, {})

/-- `probeTarget` for target `j`. -/
def refresh (s : System) (j : Nat) (outcome : Option ProbeResult) (now : Int) :
    Option (System × SysOut) :=
  match s.targets[j]? with
  | none => none
  | some entry =>
      match probeTarget s.cache entry outcome now with
      | .error _ => none
      | .ok (cache, entry) => some ({ s with cache := cache, targets := s.targets.set j entry }, {})

/-- A cache operation from elsewhere: restoring a file, a lookup, maintenance. -/
def cacheOp (s : System) (op : CacheOp) : Option (System × SysOut) :=
  match cacheStep s.cache op with
  | none => none
  | some (cache, out) =>
      let lookups := match op, out with
        | .lookup q _, .found r => [(q, r)]
        | _, _ => []
      some ({ s with cache := cache }, { lookups := lookups })

end System

inductive SysOp where
  | accept (id : Nat) (req : Request) (now : Int)
  | zeroDial (id : Nat) (random : Bytes) (ok queued : Bool) (now : Int)
  | capture (id : Nat) (reads : List Read) (now : Int)
  | finish (id : Nat) (ok : Bool) (certMeta : Option DestCertMeta) (now : Int)
      (order : List Bytes)
  | index (id : Nat) (queued : Bool) (now : Int) (order : List Bytes)
  | deliver (j : Nat) (now : Int) (order : List Bytes)
  | reprobed (j : Nat) (outcome : Option ProbeResult) (now : Int) (order : List Bytes)
  | refresh (j : Nat) (outcome : Option ProbeResult) (now : Int)
  | cache (op : CacheOp)

def sysStep (s : System) : SysOp → Option (System × SysOut)
  | .accept id req now => s.accept id req now
  | .zeroDial id random ok queued now => s.runZeroDial id random ok queued now
  | .capture id reads now => s.capture id reads now
  | .finish id ok certMeta now order => s.finish id ok certMeta now order
  | .index id queued now order => s.index id queued now order
  | .deliver j now order => s.deliver j now order
  | .reprobed j outcome now order => s.reprobed j outcome now order
  | .refresh j outcome now => s.refresh j outcome now
  | .cache op => s.cacheOp op

def sysMachine : Machine System SysOp SysOut := ⟨sysStep⟩

/-! ## A sample handshake -/

/-- A ClientHello for `a.io` that offers what the sample flight selects. -/
def sampleClientHello : ClientHelloMsg :=
  { serverName := str "a.io", alpnProtocols := [str "h2"], supportedVersions := [versionTLS13]
    keyShares := [⟨x25519, List.replicate 32 1⟩], original := [], vers := versionTLS12
    random := List.replicate 32 2, sessionId := ⟨39, List.replicate 32 3⟩
    cipherSuites := [0x1301] }

/-- A whole handshake of `req` on connection `id` over the sample flight, and
the delivery of its event. -/
def sampleHandshake (id : Nat) (req : Request) : List SysOp :=
  [.accept id req 0, .capture id [⟨sampleFlight, none⟩] 0, .finish id true none 0 [],
    .index id true 0 [], .deliver 0 0 []]

end Reality
