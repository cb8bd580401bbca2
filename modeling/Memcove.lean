import Memcove.Python
import Memcove.Json
import Memcove.Core.Settings
import Memcove.Core.Naming
import Memcove.Core.Tenancy
import Memcove.Core.Provisioning
import Memcove.Core.PrivateMode
import Memcove.Core.EntryPoints
import Memcove.Lib.Trees
import Memcove.Sql.Syntax
import Memcove.Sql.Guard
import Memcove.Sql.ReadOnly
import Memcove.Sql.Scoping
import Memcove.Lib.Runs
import Memcove.Lib.Sequential
import Memcove.Lib.Watched
import Memcove.Lib.Transactions
import Memcove.Flight.Tickets
import Memcove.Flight.Verification
import Memcove.Flight.Server
import Memcove.Flight.Authority
import Memcove.Flight.Lifetime
import Memcove.Lib.Quoting
import Memcove.Lib.SqlLexer
import Memcove.Lib.SqlText
import Memcove.Arrow
import Memcove.Scratch.Builder
import Memcove.Scratch.Injection
import Memcove.Lib.Programs
import Memcove.Lib.Interleaving
import Memcove.Lib.KeyedTables
import Memcove.Core.Models
import Memcove.Core.Registry
import Memcove.Core.RegistryMap
import Memcove.Core.RegistryBackends
import Memcove.Core.Statements
import Memcove.Core.Sessions
import Memcove.Core.GuardedWrites
import Memcove.Core.Shape
import Memcove.Core.Folding
import Memcove.Core.Iceberg
import Memcove.Core.Outlines
import Memcove.Core.SchemaGuard
import Memcove.Core.Calls
import Memcove.Core.Clients
import Memcove.Scratch.Store
import Memcove.Scratch.Engine
import Memcove.Tools.Query
import Memcove.Tools.Objects
import Memcove.Tools.Ingest
import Memcove.Lib.Paths
import Memcove.Core.Storage
import Memcove.Core.Locations
import Memcove.Tools.Sources
import Memcove.Scratch.Texts
import Memcove.Identifiers
import Memcove.Tools.Derive
import Memcove.Scratch.Writes
import Memcove.Scratch.Replace
import Memcove.Scratch.Bootstrap
import Memcove.Tools.FrontEnds
import Memcove.Tools.Export
import Memcove.Tools.JsonExport
import Memcove.Lib.Generators
import Memcove.Tools.Streaming
import Memcove.Tools.Replay
import Memcove.Flight.Upload
import Memcove.Flight.Commits
import Memcove.Reconciler
import Memcove.Drift.Operations
import Memcove.Drift.Atomicity
import Memcove.Drift.Discipline
import Memcove.Drift.Backfill
import Memcove.Drift.Deletion
import Memcove.Drift.Racing
import Memcove.Drift.Creators
import Memcove.Tools.ByName
import Memcove.Tools.MintedTickets
import Memcove.Drift.Creation
import Memcove.Drift.Parents
import Memcove.Drift.Serial
import Memcove.Drift.Sweeps
import Memcove.Drift.Isolation
import Memcove.Drift.TenantKeys
import Memcove.Drift.Writes
import Memcove.Drift.Uploads
import Memcove.Drift.Outcomes
import Memcove.Drift.Forget
import Memcove.Drift.Service
import Memcove.Drift.Provenance
import Memcove.Drift.Shapes
import Memcove.Drift.Recovery
import Memcove.Drift.Convergence
import Memcove.Drift.Healing
import Memcove.Drift.Tombstones
import Memcove.Drift.GracePeriod
import Memcove.Server.Unwinding
import Memcove.Server.Isolation
import Memcove.Core.Sqlite
import Memcove.Drift.SweepReport
import Memcove.Tools.ObjectPlane
import Memcove.Lib.Turns
import Memcove.Server.Acts
import Memcove.Server.Effects
import Memcove.Server.TakingTurns
