import WorldInfra.Lib.Table
import WorldInfra.Lib.Expiring
import WorldInfra.Lib.Machine
import WorldInfra.Lib.SharedHandle
import WorldInfra.Lib.InjectiveFold
import WorldInfra.Lib.Iterate
import WorldInfra.Lib.Scanner
import WorldInfra.Lib.Streak
import WorldInfra.Lib.Lines
import WorldInfra.Lib.SlidingWindow
import WorldInfra.Lib.SortedMap
import WorldInfra.Lib.Chain
import WorldInfra.Lib.UndoLog
import WorldInfra.Lib.Tally
import WorldInfra.Lib.InsertionMap
import WorldInfra.Lib.Framing
import WorldInfra.Lib.Footprint
import WorldInfra.Rust.Text
import WorldInfra.Rust.Utf8
import WorldInfra.Rust.Hex
import WorldInfra.Rust.Bytes
import WorldInfra.Rust.Num
import WorldInfra.Rust.Numeral
import WorldInfra.Rust.Net
import WorldInfra.Rust.Time
import WorldInfra.Rust.Pattern
import WorldInfra.Rust.Lines
import WorldInfra.Rust.Case
import WorldInfra.Rust.Ipv4Text
import WorldInfra.Rust.Ipv6Text
import WorldInfra.Rust.Halving
import WorldInfra.Rust.Token
import WorldInfra.Rust.Truncate
import WorldInfra.Pg.Lexer
import WorldInfra.Rfc.SetCookie
import WorldInfra.Rfc.Forwarded
import WorldInfra.Rfc.Node
import WorldInfra.Rust.Ipv6Grammar
import WorldInfra.RateLimit.Agreement
import WorldInfra.RateLimit.Basic
import WorldInfra.RateLimit.InProcess
import WorldInfra.RateLimit.OutOfOrder
import WorldInfra.RateLimit.RedisBackend
import WorldInfra.RateLimit.SubjectKey
import WorldInfra.RateLimit.Cleanup
import WorldInfra.RateLimit.RetryAfter
import WorldInfra.RateLimit.LimitText
import WorldInfra.RateLimit.Catalog
import WorldInfra.Refresh.Basic
import WorldInfra.Refresh.InMemory
import WorldInfra.Refresh.SingleUse
import WorldInfra.Redis.Keyspace
import WorldInfra.Refresh.RedisStore
import WorldInfra.Refresh.Stored
import WorldInfra.Refresh.Agreement
import WorldInfra.Redis.Footprint
import WorldInfra.Redis.Connections
import WorldInfra.Refresh.Isolation
import WorldInfra.Refresh.Connection
import WorldInfra.Refresh.Sessions
import WorldInfra.Refresh.Lineage
import WorldInfra.Idempotency.Basic
import WorldInfra.Idempotency.InMemory
import WorldInfra.Idempotency.Exclusive
import WorldInfra.Idempotency.RedisStore
import WorldInfra.Idempotency.Agreement
import WorldInfra.Idempotency.Cleanup
import WorldInfra.Idempotency.Connection
import WorldInfra.IdempotencyCore.Key
import WorldInfra.Tenant.SetLocal
import WorldInfra.Tenant.Injection
import WorldInfra.Http.ClientIp
import WorldInfra.Http.Spoofing
import WorldInfra.Http.Networks
import WorldInfra.Http.PublicBind
import WorldInfra.Http.NodeText
import WorldInfra.Http.ForwardedParts
import WorldInfra.Http.ForwardedGrammar
import WorldInfra.Http.Origin
import WorldInfra.Password.BreachFile
import WorldInfra.Password.SortedLookup
import WorldInfra.Password.SearchSafety
import WorldInfra.Password.Policy
import WorldInfra.Password.CommonPasswords
import WorldInfra.Json.Value
import WorldInfra.Json.Cover
import WorldInfra.Json.Canonical
import WorldInfra.Json.Text
import WorldInfra.Billing.Redaction
import WorldInfra.Billing.KeyNames
import WorldInfra.Billing.Passes
import WorldInfra.AuthHttp.Cookie
import WorldInfra.AuthHttp.SetCookie
import WorldInfra.AuthHttp.Origin
import WorldInfra.AuthHttp.TrustedOrigin
import WorldInfra.Upload.ObjectKey
import WorldInfra.Upload.Request
import WorldInfra.StaticWeb.PublicUrl
import WorldInfra.StaticWeb.Ipv4Spelling
import WorldInfra.StaticWeb.HostRejection
import WorldInfra.StaticWeb.Headers
import WorldInfra.Ws.ControlLimit
import WorldInfra.Notification.Lifecycle
import WorldInfra.Notification.Versions
import WorldInfra.Delivery.Backoff
import WorldInfra.WorldCycle.Backoff
import WorldInfra.WorldCycle.Lease
import WorldInfra.WorldCycle.Cutoffs
import WorldInfra.Operator.RunReport
import WorldInfra.Delivery.RunReport
import WorldInfra.Notification.ProviderOutcome
import WorldInfra.Auth.Bearer
import WorldInfra.Ws.Handshake
import WorldInfra.Device.Hash
import WorldInfra.Device.Preimage
import WorldInfra.WorldClock.Cadence
import WorldInfra.WorldIdentity.WorldRef
import WorldInfra.WorldClock.Seed
import WorldInfra.Fanout.Failure
import WorldInfra.Contract.JsonContract
import WorldInfra.Contract.Paths
import WorldInfra.Contract.Security
import WorldInfra.ScopedSql.Identifiers
import WorldInfra.ScopedSql.Comments
import WorldInfra.ScopedSql.Scan
import WorldInfra.ScopedSql.CommentLexing
import WorldInfra.Telemetry.Once
import WorldInfra.Env.Parse
import WorldInfra.Env.Texts
import WorldInfra.Event.Metadata
import WorldInfra.Rust.Ascii
import WorldInfra.Rust.Base64
import WorldInfra.Recovery.Token
import WorldInfra.Recovery.Padding
import WorldInfra.TestLite.EnvVarGuard
