import FocalDesk.Connector.Replay
import FocalDesk.Connector.Convergence
import FocalDesk.Routine.Limits
import FocalDesk.Package.Activation
import FocalDesk.Agent.LeaseWindow
import FocalDesk.Agent.TriggerEviction
import FocalDesk.Mission.Pause
import FocalDesk.Workflow.Completion
import FocalDesk.Context.Release
import FocalDesk.Permission.Manager
import FocalDesk.Agent.Containment
import FocalDesk.Registry.Lock
import FocalDesk.Registry.Rollback
import FocalDesk.Scenario.Agreement
import FocalDesk.Secret.BrokerMap
import FocalDesk.Secret.Sync
import FocalDesk.Secret.SessionLimits
import FocalDesk.Keyring.Stability
import FocalDesk.Archive.RoundTrip
import FocalDesk.Transfer.Exact
import FocalDesk.Capture.Stopping
import FocalDesk.Notifications.Lifecycle
import FocalDesk.Clipboard.History
import FocalDesk.Calendar.Sync
import FocalDesk.Memory.Embeddings
import FocalDesk.Memory.Catalog
import FocalDesk.Memory.Pruning
import FocalDesk.Memory.Hybrid
import FocalDesk.Launcher.Calculator
import FocalDesk.Launcher.Calls
import FocalDesk.Connector.Supervision
import FocalDesk.Connector.Adapters
import FocalDesk.Remoted.Reader
import FocalDesk.DisplayManager.Conversation
import FocalDesk.DisplayManager.Supervise
import FocalDesk.DisplayManager.Backoff
import FocalDesk.Session.Sleep
import FocalDesk.Session.Rollback
import FocalDesk.Session.Input
import FocalDesk.Session.Keys
import FocalDesk.Window.Presets
import FocalDesk.Window.Homing
import FocalDesk.Window.Renumber
import FocalDesk.Calendar.Registry
import FocalDesk.Calendar.CloudRounds
import FocalDesk.Retrieval.Chunks
import FocalDesk.Retrieval.Compaction
import FocalDesk.Workflow.Acyclic
import FocalDesk.Agent.ContextRequest
import FocalDesk.Agent.Rollback
import FocalDesk.Mcp.Gate
import FocalDesk.Settings.Owners
import FocalDesk.Secret.Import
import FocalDesk.Keyboard.Shortcuts
import FocalDesk.Calendar.Ics
import FocalDesk.Files.Modes
