import PaCopilot.Lib.Remote
import PaCopilot.Lib.Rounding
import PaCopilot.Lib.Compensation
import PaCopilot.Lib.Triple
import PaCopilot.Lib.Table
import PaCopilot.Lib.Run
import PaCopilot.Lib.Interleave
import PaCopilot.Lib.IPAddress
import PaCopilot.Lib.Json
import PaCopilot.Lib.Bfs
import PaCopilot.Lib.BfsPath
import PaCopilot.Lib.Window
import PaCopilot.Lib.Parts
import PaCopilot.Lib.Dedup
import PaCopilot.Lib.Records
import PaCopilot.Lib.Alike
import PaCopilot.Lib.Ancestry
import PaCopilot.Lib.Words
import PaCopilot.Lib.Cover
import PaCopilot.Lib.Keyring
import PaCopilot.Lib.Reader
import PaCopilot.Python
import PaCopilot.Errors
import PaCopilot.Auth.Permissions
import PaCopilot.Auth.Sessions
import PaCopilot.Auth.Revocation
import PaCopilot.Auth.TemporaryPassword
import PaCopilot.Auth.RefreshRace
import PaCopilot.Auth.ResetLinks
import PaCopilot.Core.RateLimit
import PaCopilot.Core.SlidingWindow
import PaCopilot.Tm1.Addressing
import PaCopilot.Tm1.Connection
import PaCopilot.Tm1.Destination
import PaCopilot.Tm1.Server
import PaCopilot.Tm1.Resilience
import PaCopilot.Tm1.Breaker
import PaCopilot.Tm1.Relay
import PaCopilot.Tm1.Services
import PaCopilot.Change.Row
import PaCopilot.Tm1.Governance
import PaCopilot.Tm1.Connections
import PaCopilot.Tm1.Endpoint
import PaCopilot.Tm1.KeyRotation
import PaCopilot.Change.Content
import PaCopilot.Change.Execute
import PaCopilot.Change.Atomic
import PaCopilot.Tm1.Undo
import PaCopilot.Change.Rollback
import PaCopilot.Change.Left
import PaCopilot.Change.Identity
import PaCopilot.Change.Drift
import PaCopilot.Change.Request
import PaCopilot.Change.Draft
import PaCopilot.Change.Create
import PaCopilot.Change.OpenDrafts
import PaCopilot.Change.Current
import PaCopilot.Change.Writing
import PaCopilot.Change.Concurrency
import PaCopilot.Change.Proposed
import PaCopilot.Change.Routes
import PaCopilot.Change.TiAnalysis
import PaCopilot.Change.Legitimate
import PaCopilot.Reports.Errors
import PaCopilot.Reports.Execution
import PaCopilot.Reports.Executions
import PaCopilot.Reports.Lineage
import PaCopilot.Reports.Lifecycle
import PaCopilot.Reports.Rows
import PaCopilot.Reports.Timeout
import PaCopilot.Reports.Claimable
import PaCopilot.Reports.Admission
import PaCopilot.Reports.Sweep
import PaCopilot.Reports.Concurrency
import PaCopilot.Reports.Artifacts
import PaCopilot.Reports.ExactlyOnce
import PaCopilot.Reports.Workers
import PaCopilot.Reports.WorkerTokens
import PaCopilot.Reports.WorkerConcurrency
import PaCopilot.Metadata.Graph
import PaCopilot.Metadata.ShortestPath
import PaCopilot.Metadata.Paths
import PaCopilot.Metadata.Writer
import PaCopilot.Metadata.History
import PaCopilot.Metadata.Extractor
import PaCopilot.Metadata.Index
import PaCopilot.Metadata.Extracted
import PaCopilot.Metadata.Refresh
import PaCopilot.Metadata.InStep
import PaCopilot.Impact.Analyzer
import PaCopilot.Impact.Severity
import PaCopilot.Monitoring.Rules
import PaCopilot.Monitoring.Runs
import PaCopilot.Monitoring.Performance
import PaCopilot.Monitoring.ProcessFailure
import PaCopilot.Monitoring.Security
import PaCopilot.Monitoring.ModelChange
import PaCopilot.Monitoring.Neighbourhood
import PaCopilot.Monitoring.Incident
import PaCopilot.Ai.Chat
import PaCopilot.Ai.Loop
import PaCopilot.Ai.Stream
import PaCopilot.Ai.Accounting
import PaCopilot.Ai.Quota
import PaCopilot.Ai.DraftTools
import PaCopilot.Ai.ApplyChange
import PaCopilot.Tm1.Environments
import PaCopilot.Tm1.ClientCache
import PaCopilot.Tm1.Rules.Parser
import PaCopilot.Tm1.Rules.Analysis
import PaCopilot.Tm1.Rules.Feeders
import PaCopilot.Tm1.Rules.Spelling
import PaCopilot.Tm1.Rules.Names
import PaCopilot.Tm1.Rules.Statements
import PaCopilot.Tm1.Rules.Arrows
import PaCopilot.Tm1.Rules.Areas
import PaCopilot.Metadata.References
import PaCopilot.Ai.Provenance
import PaCopilot.Memory.Service
import PaCopilot.Memory.Concurrency
import PaCopilot.WorkItems.Timeline
import PaCopilot.TaskMemory.Service
import PaCopilot.TaskMemory.Update
import PaCopilot.TaskMemory.Refresh
import PaCopilot.TaskMemory.Actions
import PaCopilot.TaskMemory.Turn
import PaCopilot.Tm1.Ti.Noise
import PaCopilot.Tm1.Ti.Comments
import PaCopilot.Tm1.Ti.Format
import PaCopilot.Tm1.Ti.Arguments
import PaCopilot.Tm1.Query.Builder
import PaCopilot.Tm1.Query.Naming
import PaCopilot.Tm1.Query.Reading
import PaCopilot.Tm1.Query.Search
import PaCopilot.Reports.Storage
import PaCopilot.Reports.KeepAlive
import PaCopilot.Knowledge.Chunking
import PaCopilot.Knowledge.VisualIndex
import PaCopilot.Lib.Utf8
import PaCopilot.Lib.Frames
import PaCopilot.Core.Sse
import PaCopilot.Ai.Delivery
import PaCopilot.Ai.Routing
import PaCopilot.Auth.Administration
import PaCopilot.Auth.Deeds
import PaCopilot.Auth.Workspaces
import PaCopilot.Change.Promotions
import PaCopilot.Change.Stages
import PaCopilot.Core.Fleet
