import Bluetape.Base.AsciiDecimal
import Bluetape.Base.Run
import Bluetape.Base.FencedLease
import Bluetape.Base.OrderedDict
import Bluetape.Base.Mealy
import Bluetape.Base.Proc
import Bluetape.Base.Recording
import Bluetape.Base.Interview
import Bluetape.Base.DecimalArithmetic
import Bluetape.Base.DecimalText
import Bluetape.Base.Binary64
import Bluetape.Base.Dialogue
import Bluetape.Base.Evaluation
import Bluetape.Base.StreamDecoder
import Bluetape.Base.Lockstep
import Bluetape.Base.Ledger
import Bluetape.Base.WaitQueue
import Bluetape.Base.TextCodec
import Bluetape.Base.BinaryReader
import Bluetape.Base.Radix
import Bluetape.Base.Base64
import Bluetape.Base.LuaPattern
import Bluetape.Base.RedisKeyspace
import Bluetape.Base.JsonText
import Bluetape.Base.Json
import Bluetape.Base.JsonReading
import Bluetape.Base.JsonDepth
import Bluetape.Base.JsonNesting
import Bluetape.Base.JsonAscii
import Bluetape.LeaderRedis.Support
import Bluetape.LeaderRedis.Scripts
import Bluetape.LeaderRedis.LuaRecord
import Bluetape.LeaderRedis.ScriptSpec
import Bluetape.LeaderRedis.Fencing
import Bluetape.LeaderRedis.Acquisition
import Bluetape.LeaderRedis.AcquisitionTrace
import Bluetape.LeaderRedis.AcquisitionSoundness
import Bluetape.LeaderRedis.Options
import Bluetape.LeaderRedis.Responses
import Bluetape.LeaderRedis.LockHandle
import Bluetape.LeaderRedis.HandleStates
import Bluetape.LeaderRedis.HandleSystem
import Bluetape.LeaderRedis.HandleRefusals
import Bluetape.LeaderRedis.HandleRuns
import Bluetape.LeaderRedis.AsyncHandle
import Bluetape.LeaderRedis.AsyncAcquisition
import Bluetape.LeaderRedis.AcquisitionBudget
import Bluetape.LeaderRedis.HandleAgreement
import Bluetape.LeaderRedis.HandleSequences
import Bluetape.LeaderRedis.RenewalTiming
import Bluetape.LeaderRedis.AutoRenew
import Bluetape.Cache.Core
import Bluetape.Cache.Expiry
import Bluetape.Cache.Reference
import Bluetape.Cache.Serving
import Bluetape.Cache.Metadata
import Bluetape.Cache.FlightBounds
import Bluetape.Cache.FlightInvariant
import Bluetape.Cache.Flights
import Bluetape.Cache.Conservation
import Bluetape.Cache.FlightProgress
import Bluetape.Cache.Waiters
import Bluetape.Cache.Callers
import Bluetape.Cache.WaiterAccounts
import Bluetape.Cache.Publication
import Bluetape.Cache.Abandonment
import Bluetape.Cache.LoadScope
import Bluetape.Serde.Contracts
import Bluetape.Serde.Json
import Bluetape.Serde.JsonDecode
import Bluetape.Serde.JsonPreflight
import Bluetape.Serde.JsonScan
import Bluetape.Serde.JsonGuard
import Bluetape.Serde.JsonRoundTrip
import Bluetape.Serde.JsonCompact
import Bluetape.Serde.JsonWalk
import Bluetape.CacheRedis.Contracts
import Bluetape.CacheRedis.BinaryFormat
import Bluetape.CacheRedis.JsonFormat
import Bluetape.CacheRedis.JsonErrors
import Bluetape.CacheRedis.FormatAgreement
import Bluetape.CacheRedis.EnvelopeCodec
import Bluetape.CacheRedis.Coordination
import Bluetape.CacheRedis.CoordinationBudget
import Bluetape.CacheRedis.ProviderLifecycle
import Bluetape.CacheRedis.CoordinationScripts
import Bluetape.CacheRedis.ProviderClose
import Bluetape.CacheRedis.CoordinationServer
import Bluetape.CacheRedis.OwnerCleanup
import Bluetape.CacheRedis.CleanupRuns
import Bluetape.CacheRedis.LoadProvenance
import Bluetape.CacheRedis.CoordinationProtocol
import Bluetape.Resilience.Core
import Bluetape.Resilience.PolicyLogic
import Bluetape.Resilience.Retry
import Bluetape.Resilience.RetryRuns
import Bluetape.Resilience.RetryAgreement
import Bluetape.Resilience.Bulkhead
import Bluetape.Resilience.BulkheadSections
import Bluetape.Resilience.BulkheadPermits
import Bluetape.Resilience.Circuit
import Bluetape.Resilience.CircuitSlots
import Bluetape.Resilience.CircuitCalls
import Bluetape.Resilience.CircuitHistory
import Bluetape.Resilience.CircuitTransitions
import Bluetape.Jwt.Core
import Bluetape.Jwt.FrozenJson
import Bluetape.Jwt.Claims
import Bluetape.Jwt.NumericDate
import Bluetape.Jwt.Payload
import Bluetape.Jwt.Profiles
import Bluetape.Jwt.Issuance
import Bluetape.Jwt.Repository
import Bluetape.Jwt.Provider
import Bluetape.Jwt.Lifecycle
import Bluetape.Jwt.TokenCache
import Bluetape.Jwt.CacheTransparency
import Bluetape.Compression.Core
import Bluetape.Compression.Chunks
import Bluetape.Compression.Zlib
import Bluetape.Compression.ChunkInvariance
import Bluetape.Id.Core
import Bluetape.Id.Generator
import Bluetape.Id.Uuid
import Bluetape.Id.Ulid
import Bluetape.Id.Monotonic
import Bluetape.Id.UlidOrder
import Bluetape.Asyncio.MapBounded
import Bluetape.Asyncio.MapOrder
import Bluetape.Monetary.Currency
import Bluetape.Monetary.Core
import Bluetape.Monetary.Arithmetic
import Bluetape.Monetary.Exchange
import Bluetape.Monetary.Notation
import Bluetape.Benchmark.Contracts
import Bluetape.Benchmark.Comparison
import Bluetape.Base.Triples
import Bluetape.LeaderRedis.Election
import Bluetape.LeaderRedis.ElectionMethods
import Bluetape.LeaderRedis.ElectionOutcome
import Bluetape.Base.NearestRank
import Bluetape.Base.RoundingError
import Bluetape.Base.StructFormat
import Bluetape.Benchmark.Timing
import Bluetape.Jwt.IssuedTokens
import Bluetape.Serde.ForyAdapter
import Bluetape.Codec.Core
