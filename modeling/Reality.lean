import Reality.Kit.Bytes
import Reality.Kit.Clock
import Reality.Kit.Run
import Reality.Kit.Cryptobyte
import Reality.Kit.Feed
import Reality.Profile
import Reality.CacheKey
import Reality.Cache.Manager
import Reality.Cache.Amortize
import Reality.Cache.Lookup
import Reality.Persist
import Reality.Cache.Ops
import Reality.Cache.Provenance
import Reality.Tls.ServerHello
import Reality.Tls.ClientHello
import Reality.Classify
import Reality.Tls.Record
import Reality.Tls.Encrypt
import Reality.Probe
import Reality.Server.Capture
import Reality.Server.Rounds
import Reality.Server.Complete
import Reality.Server.CutJoin
import Reality.Server.Cuts
import Reality.Server.Observation
import Reality.Server.ZeroDial
import Reality.Server.System
import Reality.Server.Steps
import Reality.Cache.Coherence
import Reality.Cache.Complete
import Reality.Cache.Evidence
import Reality.Cache.Quarantine
import Reality.Server.FirstHand
import Reality.Server.Isolation
import Reality.Auth.Authenticate
import Reality.Auth.Replay
import Reality.Kit.Counter
import Reality.Server.CertMode
import Reality.Server.KeyAgreement
import Reality.Server.Mirror
import Reality.Server.WholeRecords
import Reality.Tls.Seal
import Reality.Cache.Chain
import Reality.Cache.Debounce
import Reality.Cache.NilProfile
import Reality.Cert.Fit
import Reality.Server.Charged
import Reality.Server.LiveCount
import Reality.Auth.Count
import Reality.Auth.Eviction
import Reality.Auth.Separation
import Reality.Server.Slots
import Reality.Cache.Capacity
import Reality.Cache.Marked
import Reality.Store.Save
import Reality.Cache.Concurrent
import Reality.Cache.Drift
import Reality.Store.Epoch
import Reality.Kit.Oldest
import Reality.Store.Load
import Reality.Store.Restart
import Reality.Auth.Solo
import Reality.Cache.Solo
import Reality.Cache.Confirm
import Reality.Cache.FailCount
import Reality.Cache.Flight
import Reality.Cache.Refresh
import Reality.Refresh.Scheduler
import Reality.Refresh.Moves
import Reality.Refresh.Tokens
import Reality.Refresh.Delays
import Reality.Cache.Synced
import Reality.Kit.FixedWindow
import Reality.Kit.Streak
import Reality.Server.DestCap
import Reality.Server.Throttle
import Reality.Store.Decoded
import Reality.Store.Request
import Reality.Kit.Buffers
import Reality.Kit.Builder
import Reality.Kit.Search
import Reality.Kit.Shuffle
import Reality.Features
import Reality.Cache.Reprobe
import Reality.Cert.Calibration
import Reality.Cert.Locate
import Reality.Cert.Marshal
import Reality.Cert.Materialize
import Reality.Server.Parsers
import Reality.Server.Restriction
import Reality.Kit.Ring
import Reality.Kit.SwapSort
import Reality.Cache.Victim
import Reality.Cert.Recent
import Reality.Cert.Filler
import Reality.Tls.Fragments
import Reality.Tls.Replay
import Reality.Server.Echo
import Reality.Kit.Transit
import Reality.Kit.Triple
import Reality.Tls.PostHandshake
import Reality.Tls.Useless
import Reality.Tls.Channel
import Reality.Tls.Delivery
import Reality.Tls.Duplex
import Reality.Tls.Conversation
