import GpuMon.Library.Runs
import GpuMon.Library.Dict
import GpuMon.Library.PyNum
import GpuMon.Library.PyText
import GpuMon.Library.Timeline
import GpuMon.Models
import GpuMon.Rollup
import GpuMon.CardTime
import GpuMon.Account.Requests
import GpuMon.Account.Sessions
import GpuMon.Account.Enrollment
import GpuMon.Account.OneTimeCodes
import GpuMon.Alerts.Rules
import GpuMon.Alerts.Recovery
import GpuMon.IdleState
import GpuMon.Library.SerialHistory
import GpuMon.IdleSharing
import GpuMon.Detectors
import GpuMon.Library.PyFloat
import GpuMon.Mdstat
import GpuMon.GpuQuery
import GpuMon.Kernel.Log
import GpuMon.Kernel.Store
import GpuMon.Kernel.RiskScores
import GpuMon.Kernel.Polls
import GpuMon.Library.BatchLoop
import GpuMon.Retention.Archive
import GpuMon.Retention.Restore
import GpuMon.Retention.Resume
import GpuMon.Retention.RoundTrip
import GpuMon.Detectors.Keys
import GpuMon.Detectors.OpenTexts
import GpuMon.Detectors.Ipmi
import GpuMon.Detectors.MissingGpus
import GpuMon.IdleRuns
import GpuMon.Detectors.Overlap
import GpuMon.Alerts.Notices
import GpuMon.Alerts.Stranded
import GpuMon.Detectors.IpmiSections
import GpuMon.Detectors.Records
import GpuMon.Account.Csrf
import GpuMon.Ssh.HostKeys
import GpuMon.Secrets.Fernet
import GpuMon.Secrets.Rotation
import GpuMon.Retention.ArchiveCrypto
import GpuMon.Servers.Credentials
import GpuMon.Servers.Edits
import GpuMon.Account.Administrators
import GpuMon.Servers.Deletion
import GpuMon.Cache.InMemory
import GpuMon.Cache.SingleFlight
import GpuMon.StatusPage.Payload
import GpuMon.StatusPage.Publishing
import GpuMon.Scheduler.Cycle
import GpuMon.Hourly.Report
import GpuMon.Hourly.Aggregate
import GpuMon.Hourly.Cadence
import GpuMon.Hourly.IdlePredicates
import GpuMon.Alerts.Summary
import GpuMon.Cockpit.Power
import GpuMon.Alerts.Durations
import GpuMon.Hourly.Rerun
import GpuMon.Kernel.XidLines
import GpuMon.Detectors.IdleGpus
import GpuMon.Library.Commits
import GpuMon.Settings.Updates
import GpuMon.Cockpit.History
import GpuMon.Cockpit.Energy
import GpuMon.Library.Lockout
import GpuMon.Account.RateLimit
import GpuMon.Frontend.RequestState
import GpuMon.IdleBackfill
import GpuMon.Http.BodyLimit
import GpuMon.Library.PyIp
import GpuMon.Http.ClientAddress
import GpuMon.Collector.Rates
import GpuMon.Kernel.RiskBatch
import GpuMon.Library.Json
import GpuMon.Alerts.Templates
import GpuMon.Import.Sqlite
import GpuMon.Frontend.Redirect
import GpuMon.Collector.Text
import GpuMon.Collector.Gpus
import GpuMon.Collector.Counters
import GpuMon.Collector.Cpu
import GpuMon.Collector.FileSystems
import GpuMon.Collector.FastOutput
import GpuMon.Collector.Sections
import GpuMon.Retention.Members
import GpuMon.Metrics.History
import GpuMon.Mcp.GpuHistory
import GpuMon.Frontend.CsvExport
import GpuMon.Mcp.Client
import GpuMon.Processes.Actions
import GpuMon.Library.Redo
import GpuMon.Migrations
import GpuMon.Hourly.Legacy
import GpuMon.Detectors.Findings
import GpuMon.Detectors.Faults
import GpuMon.Library.Slots
import GpuMon.Scheduler.Flights
import GpuMon.Library.PyJson
import GpuMon.Mcp.Tools
import GpuMon.Mcp.Privacy
import GpuMon.Library.FloatOrder
