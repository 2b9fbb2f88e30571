import Executr.Go
import Executr.Store.Rows
import Executr.Store.Queries
import Executr.Store.Lifecycle
import Executr.Server.Handlers
import Executr.Server.System
import Executr.Server.Invariant
import Executr.Server.Transitions
import Executr.Server.Claim
import Executr.Server.Ownership
import Executr.Server.Ticks
import Executr.Server.Responses
import Executr.Server.Listing
import Executr.Server.Routing
import Executr.Server.Bulk
import Executr.Server.Stats
import Executr.Client.Retry
import Executr.Executor.Runner
import Executr.Executor.Path
import Executr.Executor.Cache
import Executr.Executor.Eviction
import Executr.Executor.Jobs
import Executr.Executor.CacheDir
import Executr.Executor.Start
import Executr.Executor.Poll
import Executr.Server.Endpoints
import Executr.Server.Middleware
import Executr.Client.Errors
import Executr.Executor.Report
import Executr.Cli.Submit
