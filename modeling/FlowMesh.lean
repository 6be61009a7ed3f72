import FlowMesh.Library.Async
import FlowMesh.Library.Table
import FlowMesh.Library.Fifo
import FlowMesh.Library.Pool
import FlowMesh.Library.Machine
import FlowMesh.Library.Crew
import FlowMesh.Library.JsonText
import FlowMesh.Python.Value
import FlowMesh.Python.Encoder
import FlowMesh.Workflow.Schema
import FlowMesh.Workflow.Registry
import FlowMesh.Workflow.Versions
import FlowMesh.StateStore.Memory
import FlowMesh.StateStore.Redis
import FlowMesh.StateStore.KeyValue
import FlowMesh.StateStore.Interleaving
import FlowMesh.Engine.Template
import FlowMesh.Engine.Errors
import FlowMesh.Engine.World
import FlowMesh.Engine.Execute
import FlowMesh.Engine.Ledger
import FlowMesh.Engine.NodeSpec
import FlowMesh.Engine.Traversal
import FlowMesh.Engine.Session
import FlowMesh.Engine.Settling
import FlowMesh.Engine.Gates
import FlowMesh.Engine.ExactlyOnce
import FlowMesh.Engine.Retry
import FlowMesh.Engine.FastFail
import FlowMesh.Repositories.Isolation
import FlowMesh.Engine.Order
import FlowMesh.Engine.Resume
import FlowMesh.Api.Routers
import FlowMesh.Engine.Calls
import FlowMesh.Api.Concurrency
import FlowMesh.Api.Ingress
import FlowMesh.Api.Pinning
import FlowMesh.Api.Rejection
import FlowMesh.Agent.Command
import FlowMesh.Agent.Policy
import FlowMesh.Agent.Process
import FlowMesh.Agent.Delivery
import FlowMesh.Commands.Signing
import FlowMesh.Api.Agents
import FlowMesh.Commands.HandOut
import FlowMesh.Commands.LifeCycle
import FlowMesh.Commands.EdgeSteps
import FlowMesh.Auth.Context
import FlowMesh.Auth.ApiKeys
import FlowMesh.Auth.Sessions
import FlowMesh.Engine.Decision
import FlowMesh.Api.Parking
import FlowMesh.Api.DeadLetters
import FlowMesh.Repositories.Requests
import FlowMesh.Repositories.Incidents
import FlowMesh.Auth.Envelope
import FlowMesh.Api.Connections
import FlowMesh.Api.Baselines
import FlowMesh.Api.Rotation
import FlowMesh.Api.Disabling
import FlowMesh.Engine.DirectConnector
import FlowMesh.Workflow.Validation
import FlowMesh.Library.Kahn
import FlowMesh.Workflow.Acceptance
import FlowMesh.Api.Scope
import FlowMesh.Library.Dict
import FlowMesh.Library.Bisect
import FlowMesh.Python.DateTime
import FlowMesh.Python.JsonStream
import FlowMesh.Search.Document
import FlowMesh.Search.Index
import FlowMesh.Search.Engine
import FlowMesh.Search.Deletion
import FlowMesh.Events.EventBus
import FlowMesh.Enterprise.Outbox
import FlowMesh.Enterprise.Transactions
import FlowMesh.Enterprise.Cache
import FlowMesh.Enterprise.Locks
import FlowMesh.Library.Budget
import FlowMesh.Engine.Attempts
import FlowMesh.Policy.Engine
import FlowMesh.Policy.Deployment
import FlowMesh.Library.Unwinding
import FlowMesh.Api.Tenancy
import FlowMesh.Api.Separation
import FlowMesh.Api.Interference
import FlowMesh.Engine.Completion
import FlowMesh.Engine.Reachability
import FlowMesh.Engine.Accounting
import FlowMesh.Library.LongestPath
import FlowMesh.Workflow.Depth
import FlowMesh.Engine.Categories
import FlowMesh.Engine.Backoff
import FlowMesh.Library.Scanner
import FlowMesh.Python.Holes
import FlowMesh.Engine.Expressions
import FlowMesh.Engine.Recognition
import FlowMesh.Engine.Expansion
import FlowMesh.Policy.Secrets
import FlowMesh.Policy.Growth
import FlowMesh.Schema.Drift
import FlowMesh.Enterprise.Contracts
import FlowMesh.Library.SlidingWindow
import FlowMesh.Api.RateLimiter
import FlowMesh.Repositories.Routing
import FlowMesh.Library.ReadModifyWrite
import FlowMesh.Repositories.Timelines
import FlowMesh.Python.Words
import FlowMesh.Engine.Cron
import FlowMesh.Engine.Scheduler
import FlowMesh.Enterprise.TokenBucket
import FlowMesh.Enterprise.Refills
import FlowMesh.Agent.Rules
import FlowMesh.Agent.Draining
import FlowMesh.Search.Fusion
import FlowMesh.Search.Ranking
import FlowMesh.Library.Alignment
import FlowMesh.Search.Typo
import FlowMesh.Search.Tokens
import FlowMesh.Search.Retrieval
import FlowMesh.Search.Terms
import FlowMesh.Python.JsonLetters
import FlowMesh.Python.JsonTexts
import FlowMesh.Python.Canonical
import FlowMesh.Python.Base64
import FlowMesh.Auth.Crypto
import FlowMesh.Library.Retention
import FlowMesh.Observability.Tracing
import FlowMesh.Connectors.Postgres
import FlowMesh.Transform.CleanRecords
import FlowMesh.Library.Markup
import FlowMesh.Search.Highlights
import FlowMesh.Library.Regex
import FlowMesh.Scripting.Guardrails
import FlowMesh.Scripting.Unconstrained
import FlowMesh.Library.Comments
import FlowMesh.Scripting.Generate
import FlowMesh.Scripting.Injection
import FlowMesh.Library.Monitor
import FlowMesh.Enterprise.Striping
import FlowMesh.Enterprise.Reconciliation
import FlowMesh.Search.Semantic
import FlowMesh.Search.Hybrid
import FlowMesh.Agent.Polling
import FlowMesh.Api.Enrolment
import FlowMesh.Observability.Propagation
import FlowMesh.Events.Delivery
import FlowMesh.Search.Sync
