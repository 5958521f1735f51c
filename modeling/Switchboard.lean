import Switchboard.CallLog
import Switchboard.Capability
import Switchboard.CommandLine.Grammar
import Switchboard.CommandLine.Invocation
import Switchboard.CommandLine.Program
import Switchboard.Config.Basic
import Switchboard.Config.Environment
import Switchboard.Config.File
import Switchboard.Config.Options
import Switchboard.Config.Profile
import Switchboard.Config.Step
import Switchboard.Conversation
import Switchboard.Decimal.Reading
import Switchboard.Decimal.Shortest
import Switchboard.Events.Audience
import Switchboard.Events.Channel
import Switchboard.Events.Event
import Switchboard.Failure
import Switchboard.Failure.Json
import Switchboard.FileSystem.Basic
import Switchboard.FileSystem.Path
import Switchboard.Json.Basic
import Switchboard.Json.Draft
import Switchboard.Json.Printer
import Switchboard.Json.Reader
import Switchboard.Keyed
import Switchboard.Main
import Switchboard.Memory.Backend
import Switchboard.Memory.FileStore
import Switchboard.Memory.Knowledge
import Switchboard.Memory.Store
import Switchboard.Model.Basic
import Switchboard.Model.Provider
import Switchboard.Model.Registry
import Switchboard.Model.Scripted
import Switchboard.Model.Selection
import Switchboard.Orchestration.Account
import Switchboard.Orchestration.Execution
import Switchboard.Orchestration.InFlight
import Switchboard.Orchestration.Journal
import Switchboard.Orchestration.Orchestrator
import Switchboard.Orchestration.Prompt
import Switchboard.Orchestration.Schedule
import Switchboard.Orchestration.Setup
import Switchboard.Orchestration.Status
import Switchboard.Relevance
import Switchboard.Request.Basic
import Switchboard.Request.Fresh
import Switchboard.Request.Id
import Switchboard.Response
import Switchboard.Text
import Switchboard.Timer
import Switchboard.Timestamp
import Switchboard.Toml.Document
import Switchboard.Toml.Scalar
import Switchboard.Tool.Basic
import Switchboard.Tool.Eligibility
import Switchboard.Tool.Registry
import Switchboard.Tool.Scripted
import Switchboard.Tool.WorkspaceListing
import Switchboard.Unicode.Alphanumeric
import Switchboard.Unicode.Lowercase
import Switchboard.Unicode.Ranges
import Switchboard.Proofs.Orchestration.InFlight
import Switchboard.Proofs.Orchestration.Move
import Switchboard.Proofs.Orchestration.Failure
import Switchboard.Proofs.Orchestration.Turn
import Switchboard.Proofs.Orchestration.Consistent
import Switchboard.Proofs.Orchestration.Run
import Switchboard.Proofs.Tool.Dispatch
import Switchboard.Proofs.Tool.Listing
import Switchboard.Proofs.Orchestration.Progress
import Switchboard.Proofs.Orchestration.Lifecycle
import Switchboard.Proofs.Orchestration.Admission
import Switchboard.Proofs.Orchestration.Cancellation
import Switchboard.Proofs.Memory.History
import Switchboard.Proofs.Orchestration.Exchange
import Switchboard.Proofs.Orchestration.Continuity
import Switchboard.Proofs.Orchestration.Plain
import Switchboard.Proofs.Orchestration.Sight
import Switchboard.Proofs.Orchestration.Instants
import Switchboard.Proofs.Orchestration.Isolation
import Switchboard.Proofs.Outcome
import Switchboard.Proofs.Decimal.Digits
import Switchboard.Proofs.Decimal.Order
import Switchboard.Proofs.Decimal.Quotient
import Switchboard.Proofs.Relevance
import Switchboard.Proofs.Words
import Switchboard.Proofs.Tokens
import Switchboard.Proofs.Unicode.Lowercase
import Switchboard.Proofs.Matching
import Switchboard.Proofs.Keyed
import Switchboard.Proofs.Config.Layers
import Switchboard.Proofs.Config.Layering
import Switchboard.Proofs.Config.Sections
import Switchboard.Proofs.Config.Validity
import Switchboard.Proofs.Model.Preference
import Switchboard.Proofs.Timestamp.Calendar
import Switchboard.Proofs.Timestamp.Text
import Switchboard.Proofs.Json.Scalars
import Switchboard.Proofs.Json.Text
import Switchboard.Proofs.Json.Readers
import Switchboard.Proofs.Json.Values
import Switchboard.Proofs.Memory.Format
import Switchboard.Proofs.FileSystem.Walk
import Switchboard.Proofs.FileSystem.Names
import Switchboard.Proofs.FileSystem.Links
import Switchboard.Proofs.FileSystem.Files
import Switchboard.Proofs.Memory.FileStore
import Switchboard.Proofs.Memory.Durability
import Switchboard.Proofs.Memory.Retention
import Switchboard.Proofs.Memory.Atomicity
import Switchboard.Proofs.Model.Selection
import Switchboard.Proofs.Model.Outage
import Switchboard.Proofs.Orchestration.Silence
import Switchboard.Proofs.Orchestration.Punctual
import Switchboard.Proofs.Orchestration.Timing
import Switchboard.Proofs.Registration
import Switchboard.Proofs.Tool.Records
import Switchboard.Proofs.Tool.Waits
import Switchboard.Proofs.Events.Tagged
import Switchboard.Proofs.Tool.Survival
import Switchboard.Proofs.Tool.Confinement
import Switchboard.Proofs.Model.Call
import Switchboard.Proofs.Model.Race
import Switchboard.Proofs.Orchestration.Verdict
import Switchboard.Proofs.Orchestration.Absorption
import Switchboard.Proofs.Orchestration.Deeds
import Switchboard.Proofs.Orchestration.Ledger
import Switchboard.Proofs.Orchestration.WellFormed
import Switchboard.Proofs.Orchestration.Agreement
import Switchboard.Proofs.Bytes
import Switchboard.Proofs.Orchestration.Status
import Switchboard.Proofs.Orchestration.Accounting
import Switchboard.Proofs.Request.Fidelity
import Switchboard.Proofs.Memory.Recollection
import Switchboard.Proofs.Memory.Bound
import Switchboard.Proofs.Json.Printable
import Switchboard.Proofs.Tool.Summary
import Switchboard.Proofs.Memory.Backup
import Switchboard.Proofs.Config.Unordered
import Switchboard.Proofs.Orchestration.Opening
import Switchboard.Proofs.Events.Recording
import Switchboard.Proofs.Request.Identifiers
import Switchboard.Proofs.Tool.Resolution
import Switchboard.Proofs.Config.CommaLists
