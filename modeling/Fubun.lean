import Fubun.Bridge.Sequence
import Fubun.Cli.BrowserHost
import Fubun.Cli.Installed
import Fubun.Cli.Since
import Fubun.Concurrency.Hiding
import Fubun.Core.Answers
import Fubun.Core.Writer
import Fubun.Encoding.Cost
import Fubun.Encoding.Framing
import Fubun.Encoding.Incremental
import Fubun.Encoding.Schema
import Fubun.Encoding.Value
import Fubun.Events.Emission
import Fubun.Events.Frames
import Fubun.Events.Provenance
import Fubun.Events.Suppression
import Fubun.Executions.Dispatched
import Fubun.Executions.Locks
import Fubun.Executions.Records
import Fubun.Executions.Recovery
import Fubun.Executions.Redaction
import Fubun.Executions.Transcript
import Fubun.Extensions.Hello
import Fubun.Extensions.Quiet
import Fubun.Extensions.Results
import Fubun.Extensions.Workspace
import Fubun.Frames.Chunks
import Fubun.Frames.Divisions
import Fubun.Frames.Reader
import Fubun.LinuxAdapter.Commands
import Fubun.LinuxAdapter.Requests
import Fubun.Manager.Backpressure
import Fubun.Manager.Registry
import Fubun.Manager.Responses
import Fubun.Manager.Selection
import Fubun.NativeHost.Moves
import Fubun.NativeHost.Rest
import Fubun.NativeHost.Routing
import Fubun.NativeHost.State
import Fubun.Relational.Ignores
import Fubun.Relational.Rollback
import Fubun.Resources.FixedPoint
import Fubun.Resources.Scopes
import Fubun.Rituals.Lifecycle
import Fubun.Rituals.Readiness
import Fubun.Rituals.Sizes
import Fubun.Rituals.Versions
import Fubun.Schemas
import Fubun.Storage.Aside
import Fubun.Storage.Instances
import Fubun.Storage.Migration
import Fubun.Vscode.CoreClient
import Fubun.Vscode.Extension
import Fubun.Vscode.Frames
import Fubun.Vscode.Moves
import Fubun.Vscode.Session
import Fubun.Vscode.Stopping
