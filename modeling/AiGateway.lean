import AiGateway.Library.Runs
import AiGateway.Library.MachineInt
import AiGateway.Library.Parties
import AiGateway.Core.Json
import AiGateway.Core.Executor
import AiGateway.Core.LastAttempt
import AiGateway.Storage.MemoryCounter
import AiGateway.Api.RateLimit
import AiGateway.Api.LimitCall
import AiGateway.Api.LimitRules
import AiGateway.Api.RateRuns
import AiGateway.Library.TtlStore
import AiGateway.Storage.SqliteKv
import AiGateway.Storage.RedisConcurrency
import AiGateway.Storage.LogBatch
import AiGateway.Library.PrefixCode
import AiGateway.Library.CharBoundary
import AiGateway.Core.Fingerprint
import AiGateway.Core.CachePolicy
import AiGateway.Api.CacheKey
import AiGateway.Api.Tokens
import AiGateway.Api.Transcripts
import AiGateway.Api.StreamMetering
import AiGateway.Api.StreamTask
import AiGateway.Api.StreamUsage
import AiGateway.Api.Proxy
import AiGateway.Api.Settlement
import AiGateway.Library.HashMap
import AiGateway.Library.F64
import AiGateway.Core.GatewayKeys
import AiGateway.Storage.MemoryMetadata
import AiGateway.Api.KeyAuth
import AiGateway.Api.Config
import AiGateway.Api.SeedKeys
import AiGateway.Api.KeyHashes
import AiGateway.Api.Reload
import AiGateway.Core.Engine
import AiGateway.Core.Pricing
import AiGateway.Core.OpenRouter
import AiGateway.Core.PriceList
import AiGateway.Core.PriceRules
import AiGateway.Api.PricingAdmin
import AiGateway.Api.CacheWrites
import AiGateway.Storage.SqliteKvRaces
import AiGateway.Api.RequestLog
import AiGateway.Api.RequestIds
import AiGateway.Api.Slices
import AiGateway.Library.Decimal
import AiGateway.Core.CanonicalJson
import AiGateway.Core.JsonText
import AiGateway.Api.ConcurrencySlots
import AiGateway.Api.RpmBound
import AiGateway.Storage.LogWorker
import AiGateway.Library.Keyset
import AiGateway.Storage.LogQuery
import AiGateway.Library.StableSort
import AiGateway.Library.GroupBy
import AiGateway.Storage.LogBackends
import AiGateway.Storage.LogAggregates
import AiGateway.Library.Calendar
import AiGateway.Core.Budgets
import AiGateway.Api.Budget
import AiGateway.Api.BudgetRuns
import AiGateway.Api.BudgetAlerts
import AiGateway.Api.Replay
import AiGateway.Core.ChainShape
import AiGateway.Api.SeedFrame
import AiGateway.Storage.MemoryKv
import AiGateway.Api.CacheTtl
import AiGateway.Api.AdminAuth
import AiGateway.Api.ConfigOutput
import AiGateway.Api.UpstreamRequest
import AiGateway.Api.ContentCoding
import AiGateway.Core.Costs
import AiGateway.Storage.MemoryLogs
import AiGateway.Storage.SqlCosts
import AiGateway.Api.Recompute
import AiGateway.Api.SweepRows
import AiGateway.Library.Counters
import AiGateway.Api.TokenArithmetic
import AiGateway.Api.ForwardedUrl
import AiGateway.Api.PeriodStart
import AiGateway.Api.RedactedJson
import AiGateway.Api.LogBody
import AiGateway.Api.LogFronts
import AiGateway.Api.Redaction
import AiGateway.Api.ClientIp
import AiGateway.Api.Captures
import AiGateway.Api.LoggedBodies
import AiGateway.Storage.SqliteRows
import AiGateway.Library.ExpiringCounters
import AiGateway.Storage.RedisCounters
import AiGateway.Api.RedisLimits
import AiGateway.Api.RedisBudgets
import AiGateway.Storage.KvBackends
import AiGateway.Api.CacheRuns
import AiGateway.Library.Programs
import AiGateway.Library.SqlTables
import AiGateway.Storage.SqlMetadata
import AiGateway.Api.SharedKeys
import AiGateway.Api.SqliteKeys
import AiGateway.Api.KeyRevocation
import AiGateway.Api.KeySeeding
import AiGateway.Api.KeyRefinement
import AiGateway.Storage.LogPipeline
import AiGateway.Storage.LogPaging
import AiGateway.Storage.FlushedLogs
import AiGateway.Api.CostSweep
