import Gregg.RustStd
import Gregg.Protocol.Scheduler
import Gregg.Protocol.ValidateScheduler
import Gregg.Greggd.Schedule
import Gregg.Greggd.Config
import Gregg.Greggd.Observation
import Gregg.Lib.Machine
import Gregg.Lib.Loop
import Gregg.Greggd.Scheduler
import Gregg.Greggd.SchedulerRun
import Gregg.Lib.Ledger
import Gregg.Greggd.Conservation
import Gregg.Greggd.WakeUp
import Gregg.Greggd.Publication
import Gregg.Greggd.Rows
import Gregg.Greggd.RunLoop
import Gregg.Lib.SortedMap
import Gregg.Lib.Window
import Gregg.Fleet.Cron
import Gregg.Fleet.CronBounds
import Gregg.Fleet.CronWindow
import Gregg.Lib.Framing
import Gregg.Lib.Outbox
import Gregg.Clientd.Protocol
import Gregg.Clientd.Connection
import Gregg.Clientd.Inbound
import Gregg.Clientd.Outbound
import Gregg.Clientd.Documents
import Gregg.Clientd.Frontend
import Gregg.Clientd.Serve
import Gregg.Clientd.Forwarding
import Gregg.Lib.Mailbox
import Gregg.Clientd.PollPlane
import Gregg.Clientd.Reload
import Gregg.Clientd.Snapshot
import Gregg.Tui.State
import Gregg.Tui.Adopt
import Gregg.Tui.Action
import Gregg.Tui.EventLoop
import Gregg.Tui.CronIntent
import Gregg.Tui.EggpoolIntent
import Gregg.Tui.ActivePane
import Gregg.Clientd.Timestamps
import Gregg.Clientd.Intents
import Gregg.Clientd.Daemon
import Gregg.Clientd.HandshakeGate
import Gregg.Clientd.Departure
import Gregg.Lib.FileTree
import Gregg.ConfigIdentity
import Gregg.Clientd.Engine
import Gregg.Clientd.EggpoolConvergence
import Gregg.Clientd.Attach
import Gregg.Clientd.Launch
import Gregg.Clientd.Replacement
import Gregg.Clientd.Endpoint
import Gregg.Clientd.Stop
import Gregg.Clientd.StopReport
import Gregg.Clientd.Bind
import Gregg.Clientd.OneDaemon
import Gregg.Eggpool.Convergence
import Gregg.Fleet.Config
import Gregg.Fleet.State
import Gregg.Fleet.Reload
import Gregg.Fleet.CronWorker
import Gregg.Fleet.CronRounds
import Gregg.Fleet.CronObserved
import Gregg.Fleet.CronCoherence
import Gregg.Fleet.CronGate
import Gregg.Tui.Window
import Gregg.Tui.Selection
import Gregg.Tui.SelectionRepair
import Gregg.Tui.LoadGate
import Gregg.Greggd.GateRows
import Gregg.Greggd.Revisions
import Gregg.Lib.Json
import Gregg.Protocol.SchedulerJson
import Gregg.Greggd.BodyBounds
import Gregg.Lib.Search
import Gregg.Lib.Lines
import Gregg.Startup.Path
import Gregg.Startup.ServiceFiles
import Gregg.Startup.ServiceConfig
import Gregg.Startup.Cron
import Gregg.Startup.CronBlocks
import Gregg.Startup.Watchdog
import Gregg.Startup.UninstallPlan
import Gregg.Greggd.NextOccurrence
import Gregg.Greggd.Calendar
import Gregg.Greggd.ScheduleFields
import Gregg.Greggd.Satisfiability
import Gregg.Greggd.TickSelection
import Gregg.Clientd.CronTable
import Gregg.Clientd.CronCycle
import Gregg.Clientd.StartupFiles
import Gregg.Clientd.StartupOwnership
import Gregg.ConfigFile.Endpoint
import Gregg.ConfigFile.EggpoolEndpoint
import Gregg.ConfigFile.Store
import Gregg.ConfigFile.NormalHost
import Gregg.ConfigFile.Reread
import Gregg.ConfigFile.RemoveAdded
import Gregg.ConfigFile.WriteAtomic
import Gregg.Greggd.CapturedOutput
import Gregg.Tui.Sanitize
import Gregg.Lib.Eviction
import Gregg.Fleet.CronReapply
import Gregg.Tui.InertText
import Gregg.Tui.CronRows
import Gregg.Tui.CronPane
import Gregg.Tui.JobRows
import Gregg.Protocol.Status
import Gregg.Protocol.Health
import Gregg.Greggd.Server
import Gregg.Greggd.HealthMemo
import Gregg.Fleet.Normalized
import Gregg.Fleet.Batches
import Gregg.ConfigFile.EndpointParity
import Gregg.ConfigFile.HostIdentity
import Gregg.Tui.ClockLabel
import Gregg.Tui.ScheduleLabel
import Gregg.Tui.EggpoolFooter
import Gregg.Tui.DriveTable
import Gregg.Tui.DriveHeading
import Gregg.Tui.MetricBars
import Gregg.Tui.LiveView
import Gregg.Tui.Viewport
import Gregg.Fleet.CronPublication
import Gregg.Tui.ByteCounts
import Gregg.Clientd.LengthPrefix
import Gregg.Host.CpuList
import Gregg.Host.Rate
import Gregg.Tui.JobNames
import Gregg.Tui.Presentation
import Gregg.Protocol.ValidateStatus
import Gregg.Protocol.WellFormedStatus
import Gregg.Greggd.Sampler
import Gregg.Greggd.SamplerRun
import Gregg.Greggd.ServedSamples
import Gregg.Fleet.Poller
import Gregg.Lib.TaskPool
import Gregg.Fleet.PollGeneration
import Gregg.Clientd.MetricsPlane
import Gregg.Clientd.ShownSnapshots
import Gregg.Clientd.ServedFleet
import Gregg.Lib.Script
import Gregg.Update.Version
import Gregg.Update.Release
import Gregg.Update.Steps
import Gregg.Update.Candidate
import Gregg.Update.Evidence
import Gregg.Update.SelfUpdate
import Gregg.Update.Restart
import Gregg.Update.DaemonUpdate
import Gregg.Update.ClientUpdate
