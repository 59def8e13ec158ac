import Heimdall.PublicRoutes.Rows
import Heimdall.Deployments.EventStream
import Heimdall.Edge.Recovery
import Heimdall.Edge.Contract
import Heimdall.Edge.Reading
import Heimdall.Runtime.LogStream
import Heimdall.Runtime.Diagnostics
import Heimdall.Projects.DeletionAuthorization
import Heimdall.Projects.DeletionGate
import Heimdall.Projects.DeletionWorker
import Heimdall.Runtime.ReconciliationClaims
import Heimdall.Deployments.Service
import Heimdall.Deployments.Discipline
import Heimdall.ProjectDatabase.Provisioning
import Heimdall.Effect.Embed
import Heimdall.Effect.Pool
import Heimdall.Secrets.Create
import Heimdall.Runtime.Cleanup
import Heimdall.Runtime.Gateway
import Heimdall.Runtime.ProjectResources
import Heimdall.Runtime.Snapshot
import Heimdall.PublicRoutes.Canonical
import Heimdall.Runtime.Redaction
import Heimdall.Effect.Record
import Heimdall.Runtime.ProjectTeardown
import Heimdall.Runtime.ProcessStream
import Heimdall.Git.Client
import Heimdall.Runtime.Collector
import Heimdall.Runtime.LogOrder
import Heimdall.Text.Wire
import Heimdall.Runtime.LogStreamBroker
import Heimdall.Text.Datetime
import Heimdall.Runtime.LogBroker
import Heimdall.Secrets.Concurrent
import Heimdall.FileTree
import Heimdall.Secrets.SubtreeDeletion
import Heimdall.Projects.Finalization
import Heimdall.Projects.SettingsHistory
import Heimdall.Runtime.Submitted
