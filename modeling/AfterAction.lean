import AfterAction.Api.Response
import AfterAction.Api.Route
import AfterAction.Binary64
import AfterAction.Binary64.Shortest
import AfterAction.Breaker
import AfterAction.Correlation
import AfterAction.Crash
import AfterAction.Detection
import AfterAction.Evidence
import AfterAction.Fallback
import AfterAction.Files.Disk
import AfterAction.Files.Memory
import AfterAction.Files.Path
import AfterAction.Files.Store
import AfterAction.Json.Numeral
import AfterAction.Json.Scan
import AfterAction.Json.Shape
import AfterAction.Json.Value
import AfterAction.Json.Writing
import AfterAction.Lifecycle
import AfterAction.Main
import AfterAction.Operation
import AfterAction.Percent
import AfterAction.Rehearsal.Action
import AfterAction.Rehearsal.Chores
import AfterAction.Rehearsal.Script
import AfterAction.Rehearsal.Stage
import AfterAction.Remote.Base64
import AfterAction.Remote.Engine
import AfterAction.Remote.Exchange
import AfterAction.Remote.Fault
import AfterAction.Remote.Host
import AfterAction.Remote.Punycode
import AfterAction.Remote.Store
import AfterAction.Remote.Url
import AfterAction.Report.Document
import AfterAction.Report.Drawing
import AfterAction.Report.Job
import AfterAction.Report.Layout
import AfterAction.Report.Pdf
import AfterAction.Report.Registry
import AfterAction.Run
import AfterAction.Run.Wire
import AfterAction.RunId
import AfterAction.Service
import AfterAction.Settings
import AfterAction.Slots
import AfterAction.Startup
import AfterAction.Table
import AfterAction.Tactic
import AfterAction.TagDocument
import AfterAction.Tagging
import AfterAction.TaskGroup
import AfterAction.Technique
import AfterAction.Text.Alphanumeric
import AfterAction.Text.Blank
import AfterAction.Text.Cleaned
import AfterAction.Text.Columns
import AfterAction.Text.Digits
import AfterAction.Text.Display
import AfterAction.Text.Escape
import AfterAction.Text.Quoted
import AfterAction.Text.Ranges
import AfterAction.Time.Date
import AfterAction.Time.Instant
import AfterAction.Time.Moment
import AfterAction.Time.Reading
import AfterAction.Time.Writing
import AfterAction.Proofs.Breaker.Admissions
import AfterAction.Proofs.Breaker.Cooldown
import AfterAction.Proofs.Breaker.Loans
import AfterAction.Proofs.Files.Names
import AfterAction.Proofs.Files.Tree
import AfterAction.Proofs.Files.Disk
import AfterAction.Proofs.Files.View
import AfterAction.Proofs.Fallback.Records
import AfterAction.Proofs.Tagging.Holding
import AfterAction.Proofs.Tagging.Ending
import AfterAction.Proofs.Tagging.History
import AfterAction.Proofs.Tagging.Account
import AfterAction.Proofs.Report.Moves
import AfterAction.Proofs.Report.Requests
import AfterAction.Proofs.Report.World
import AfterAction.Proofs.Report.Standing
import AfterAction.Proofs.Report.Tracking
import AfterAction.Proofs.Report.Output
import AfterAction.Proofs.Report.Naming
import AfterAction.Proofs.Report.Labels
import AfterAction.Proofs.Report.Sharing
import AfterAction.Proofs.Correlation.World
import AfterAction.Proofs.Correlation.Recovery
import AfterAction.Proofs.Tagging.Dealings
import AfterAction.Proofs.Tagging.Recovery
import AfterAction.Proofs.Recovery
import AfterAction.Proofs.Tagging.Documents
import AfterAction.Proofs.Service.World
import AfterAction.Proofs.Service.Retagging
import AfterAction.Proofs.FirstAppearance
import AfterAction.Proofs.Correlation.Verdicts
import AfterAction.Proofs.Correlation.Agreement
import AfterAction.Proofs.Report.Summary
import AfterAction.Proofs.Files.Calls
import AfterAction.Proofs.Service.System
import AfterAction.Proofs.Service.Guards
import AfterAction.Proofs.Service.Gates
import AfterAction.Proofs.Report.Course
import AfterAction.Proofs.Report.Pool
import AfterAction.Proofs.Report.Smooth
import AfterAction.Proofs.Tagging.Secrecy
import AfterAction.Proofs.Tagging.Smooth
import AfterAction.Proofs.Service.Host
import AfterAction.Proofs.Service.Shutdown
import AfterAction.Proofs.Service.Startup
import AfterAction.Proofs.Service.Delivery
import AfterAction.Proofs.Service.Redelivery
import AfterAction.Proofs.Breaker.Outage
import AfterAction.Proofs.Tagging.Outage
import AfterAction.Proofs.Report.Sections
import AfterAction.Proofs.Report.Pages
import AfterAction.Proofs.Report.Footers
import AfterAction.Proofs.Report.Marks
import AfterAction.Proofs.Report.Sheets
import AfterAction.Proofs.Report.Columns
import AfterAction.Proofs.Report.Notice
import AfterAction.Proofs.Report.Partials
import AfterAction.Proofs.Service.Partials
import AfterAction.Proofs.Json.Tokens
import AfterAction.Proofs.Json.Spelling
import AfterAction.Proofs.Json.Records
import AfterAction.Proofs.Time.Calendar
import AfterAction.Proofs.Time.Reading
import AfterAction.Proofs.Report.JobIds
import AfterAction.Proofs.RoundTrip
import AfterAction.Proofs.Correlation.Classification
import AfterAction.Proofs.Correlation.Window
import AfterAction.Proofs.Correlation.Counts
import AfterAction.Proofs.Report.Lookup
import AfterAction.Proofs.Service.Routes
import AfterAction.Proofs.Service.Lookup
import AfterAction.Proofs.Time.Stamps
import AfterAction.Proofs.Files.Naming
import AfterAction.Proofs.Files.Places
import AfterAction.Proofs.Text.Trimming
import AfterAction.Proofs.Text.Cleaning
import AfterAction.Proofs.Service.Quantities
import AfterAction.Proofs.Tagging.Contents
import AfterAction.Proofs.Fallback.Naming
import AfterAction.Proofs.OutputNames
import AfterAction.Proofs.Files.Failing
import AfterAction.Proofs.Fallback.Durability
import AfterAction.Proofs.Tagging.Script
import AfterAction.Proofs.Tagging.Retrying
import AfterAction.Proofs.Tagging.RetryLoop
import AfterAction.Proofs.Files.Writes
import AfterAction.Proofs.Service.Drains
import AfterAction.Proofs.Report.Retention
import AfterAction.Proofs.Report.Coverage
