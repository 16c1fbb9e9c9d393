import HpcTelemetry.Transitions
import HpcTelemetry.KeyedTable
import HpcTelemetry.Framing
import HpcTelemetry.Store
import HpcTelemetry.IngestServer
import HpcTelemetry.StreamDecoding
import HpcTelemetry.Desynchronisation
import HpcTelemetry.Accounting
import HpcTelemetry.StoreEffects
import HpcTelemetry.Isolation
import HpcTelemetry.SenderQueue
import HpcTelemetry.Sender
import HpcTelemetry.Delivery
import HpcTelemetry.ProcReader
import HpcTelemetry.Jobs
import HpcTelemetry.PhaseBarrier
import HpcTelemetry.DoubleArithmetic
import HpcTelemetry.OrderStatistics
import HpcTelemetry.Straggler
import HpcTelemetry.StragglerReport
import HpcTelemetry.Finality
import HpcTelemetry.Redelivery
import HpcTelemetry.FrameCodecs
import HpcTelemetry.ArrivalOrder
import HpcTelemetry.Transmission
import HpcTelemetry.JobOutcome
import HpcTelemetry.FaultDispatch
import HpcTelemetry.TrialExclusion
import HpcTelemetry.AgentLifetime
import HpcTelemetry.SeriesWindows
import HpcTelemetry.RootCauseDrift
import HpcTelemetry.Rollups
import HpcTelemetry.RollupRefresh
import HpcTelemetry.Median
import HpcTelemetry.Ranking
import HpcTelemetry.RankingRobustness
import HpcTelemetry.RankingScale
import HpcTelemetry.RootCauseTag
import HpcTelemetry.GroupSums
import HpcTelemetry.RootCauseRule
import HpcTelemetry.RollupPartition
import HpcTelemetry.RollupResolutions
import HpcTelemetry.ImplicitTransaction
import HpcTelemetry.RollupTransaction
import HpcTelemetry.ProcFiles
import HpcTelemetry.CounterResets
import HpcTelemetry.CpuRange
import HpcTelemetry.MemInfo
import HpcTelemetry.JsonText
import HpcTelemetry.Logging
import HpcTelemetry.QueueBounds
import HpcTelemetry.Eratosthenes
import HpcTelemetry.PythonSequences
import HpcTelemetry.PrimeSieve
import HpcTelemetry.Interpolation
import HpcTelemetry.Percentile
import HpcTelemetry.ScoreInterval
import HpcTelemetry.WilsonInterval
import HpcTelemetry.Decisions
import HpcTelemetry.TrialSummary
import HpcTelemetry.PhaseRunner
import HpcTelemetry.Rack
import HpcTelemetry.RackPhases
import HpcTelemetry.RackFaults
import HpcTelemetry.ReportStreams
import HpcTelemetry.TrialBatch
import HpcTelemetry.AgentShutdown
import HpcTelemetry.TelemetryPath
import HpcTelemetry.JsonPrefix
import HpcTelemetry.JsonDumps
import HpcTelemetry.LogLines
import HpcTelemetry.JobHistory
import HpcTelemetry.JsonCodec
import HpcTelemetry.TrialFiles
