import Faultline.Lib.Bytes
import Faultline.Lib.Crc
import Faultline.Lib.Decimal
import Faultline.Lib.Disk
import Faultline.Lib.Exact
import Faultline.Lib.Frames
import Faultline.Lib.Handover
import Faultline.Lib.Layout
import Faultline.Lib.Prog
import Faultline.Lib.Ring
import Faultline.Lib.Stores
import Faultline.Lib.Syscall
import Faultline.Lib.Trace
import Faultline.JobQueue
import Faultline.Log
import Faultline.Protocol.Message
import Faultline.Protocol.Codec
import Faultline.Cli.Arguments
import Faultline.Cli.Printing
import Faultline.Cli.Query
import Faultline.Net
import Faultline.Cli.Main
import Faultline.Scheduler
import Faultline.WorkerRegistry
import Faultline.Wal.Format
import Faultline.Wal.Replay
import Faultline.Store
import Faultline.Coordinator.Loop
import Faultline.Worker.Loop
import Faultline.Worker.Task
import Faultline.Abstract.History
import Faultline.Abstract.LogImage
import Faultline.Abstract.LogDisk
import Faultline.Proofs.DecimalParsers
import Faultline.Proofs.PrimeCount
import Faultline.Proofs.Escaping
import Faultline.Proofs.QueueRefines
import Faultline.Proofs.RegistryRuns
import Faultline.Proofs.StatsValidation
import Faultline.Proofs.StatsCounts
import Faultline.Proofs.MessageLayouts
import Faultline.Proofs.MessageCodec
import Faultline.Proofs.Framing
import Faultline.Proofs.StreamVerdicts
import Faultline.Proofs.SchedulerRefines
import Faultline.Proofs.WorkerIndex
import Faultline.Proofs.WorkerAllocations
import Faultline.Proofs.ReplayRecords
import Faultline.Proofs.ReplayLoop
import Faultline.Proofs.ReplayScan
import Faultline.Proofs.WriterSteps
import Faultline.Proofs.ReplayOpen
import Faultline.Proofs.AcceptedLogs
import Faultline.Proofs.SchedulerSafety
import Faultline.Proofs.SchedulerProgress
import Faultline.Proofs.StorePlans
import Faultline.Proofs.StoreHistory
import Faultline.Proofs.StoreSteps
import Faultline.Proofs.StoreRecovery
import Faultline.Proofs.StartupRecovery
import Faultline.Proofs.Sessions
import Faultline.Proofs.WriterContent
import Faultline.Proofs.SessionRuns
import Faultline.Proofs.CrashConsistency
import Faultline.Proofs.SessionIdentities
import Faultline.Proofs.Corruption
import Faultline.Proofs.StoreOutcomes
import Faultline.Proofs.StoreActs
import Faultline.Proofs.LoopSteps
import Faultline.Proofs.LoopTurns
import Faultline.Proofs.LoopLive
import Faultline.Proofs.LoopActs
import Faultline.Proofs.ConnectionMoves
import Faultline.Proofs.OutputFraming
import Faultline.Proofs.SchedulingPass
import Faultline.Proofs.InputFraming
import Faultline.Proofs.WorkerMoves
import Faultline.Proofs.AssignmentFraming
import Faultline.Proofs.Segmentation
import Faultline.Proofs.ConnectionLinks
import Faultline.Proofs.ViewRows
import Faultline.Proofs.ViewsAgree
import Faultline.Proofs.PollTimeout
import Faultline.Proofs.ReplyChecks
import Faultline.Proofs.Replies
import Faultline.Proofs.PeerStreams
import Faultline.Proofs.WorkerReports
import Faultline.Proofs.ActiveJobs
import Faultline.Proofs.AssignmentTalk
import Faultline.Proofs.Agreement
import Faultline.Proofs.TaskResults
import Faultline.Proofs.JobsEvolve
import Faultline.Proofs.LoopEvents
import Faultline.Proofs.WorkerResults
import Faultline.Proofs.ResultIntegrity
import Faultline.Proofs.SocketWaiting
import Faultline.Proofs.SocketTransfers
import Faultline.Proofs.Visits
import Faultline.Proofs.CliReceiving
import Faultline.Proofs.CliSessions
import Faultline.Proofs.Commands
import Faultline.Proofs.LoopStops
import Faultline.Proofs.KeptHistories
import Faultline.Proofs.KeptTurns
import Faultline.Proofs.Service
import Faultline.Proofs.Errands
