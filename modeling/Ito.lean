import Ito.Library.Machine
import Ito.Library.CheckedInt
import Ito.Protocol
import Ito.RiskEngine
import Ito.RiskGuards
import Ito.RiskEvaluate
import Ito.RiskBooking
import Ito.ExecutionEngine
import Ito.ExecutionEffects
import Ito.ExecutionLimits
import Ito.ExecutionUncertainty
import Ito.ExchangeSimulator
import Ito.Library.Greedy
import Ito.Library.Index
import Ito.ExchangeMatching
import Ito.ExchangeBook
import Ito.ExchangeInvariant
import Ito.ExchangePriority
import Ito.ExchangeConservation
import Ito.Library.WideSum
import Ito.RiskAccelerator
import Ito.RiskHardware
import Ito.PreTradeGate
import Ito.GateMirror
import Ito.EndpointConnector
import Ito.NetworkAdapter
import Ito.SessionManager
import Ito.SmartOrderRouter
import Ito.NetworkEffects
import Ito.RouterRetry
import Ito.Portfolio
import Ito.PortfolioAccounting
import Ito.JournalFile
import Ito.Library.ByteLines
import Ito.JournalRecovery
import Ito.Library.PythonText
import Ito.Library.Json
import Ito.Library.JsonScan
import Ito.Replay
import Ito.JournalReplay
import Ito.JournalReconcile
import Ito.JournalCodes
import Ito.Framing
import Ito.NetworkRuns
import Ito.NetworkIdentity
import Ito.NetworkUncertainty
import Ito.MicrostructureEngine
import Ito.MicrostructureRuns
import Ito.LimitProtection
import Ito.TradedVolume
import Ito.ExecutionBreaker
import Ito.BreakerInvariant
import Ito.BreakerProbe
import Ito.ExecutionIdentity
import Ito.GateEquivalence
import Ito.Library.LittleEndian
import Ito.WireFrame
import Ito.WireCodec
import Ito.PortfolioRisk
import Ito.PortfolioValidation
import Ito.PortfolioEnforcement
import Ito.Library.QueueFlow
import Ito.QueueTracker
import Ito.QueueAgreement
import Ito.HardwareFrame
import Ito.ReasonCodes
import Ito.Library.WrappingInt
import Ito.RiskPolicy
import Ito.PolicyEngine
import Ito.RiskAgreement
import Ito.CircuitBreaker
import Ito.CircuitBreakerRuns
import Ito.ManualClear
import Ito.SharedJournal
import Ito.Library.WrapCounter
import Ito.SpscRingBuffer
import Ito.SpscFifo
import Ito.LeaseStore
import Ito.FencingTokens
import Ito.LeaseFencer
import Ito.ItchHandler
import Ito.ItchRoundTrip
import Ito.CaptureRoundTrip
import Ito.Library.GroupedTotals
import Ito.OrderBookTracker
import Ito.LadderConsistency
import Ito.RouterFallback
import Ito.SimulatorAdapter
import Ito.SimulatorEffects
import Ito.SimulatorOrphans
import Ito.SimulatorReports
import Ito.FillJournal
import Ito.Library.Files
import Ito.Library.Fallible
import Ito.BackupRestore
import Ito.BackupArchive
import Ito.BackupStaging
import Ito.BackupRoundTrip
import Ito.RestoreEffects
import Ito.HsmSimulator
import Ito.HsmRoundTrip
import Ito.HsmDisabled
import Ito.HsmRuns
import Ito.Library.NumberedTable
import Ito.KeyStore
import Ito.KeyVersions
import Ito.KeyRevocation
import Ito.DurableStore
import Ito.DurableRecovery
import Ito.RiskLedger
import Ito.Library.FixedWindow
import Ito.OrderRate
import Ito.ExchangeCancel
import Ito.OrderStateMachine
import Ito.OrderLifecycle
import Ito.Library.FixedArray
import Ito.ZeroAllocBook
import Ito.BookWalk
import Ito.QueueConservation
import Ito.EngineLedger
import Ito.MicrostructureErrors
import Ito.PositionInvariant
import Ito.LimitRemainder
import Ito.PortfolioLocates
import Ito.FactorVariance
import Ito.PortfolioRejections
import Ito.Reconciler
import Ito.OrderEncoding
import Ito.MoldParsing
import Ito.RecordReconcile
import Ito.Library.Clocked
import Ito.RateLimiter
import Ito.OrderSequencer
import Ito.LatencyCounter
import Ito.Library.Ranks
import Ito.MetricsRegistry
import Ito.ReplayValidation
import Ito.ItchParsing
import Ito.TornCapture
import Ito.Library.OStream
import Ito.JournalEscaping
import Ito.Library.Resettable
import Ito.FramePipeline
import Ito.SequencerHalts
import Ito.Library.StableSort
import Ito.BacktestSimulation
import Ito.ReplayBacktest
import Ito.Library.Layout
import Ito.RegisterMap
import Ito.Library.JsonPretty
import Ito.ReleaseBinding
import Ito.Library.NumberedChannel
import Ito.VenueSession
import Ito.SimulatedHsm
import Ito.Library.PrefixCode
import Ito.SourceDigest
import Ito.PolicyValidator
import Ito.ConnectivityLogger
import Ito.EvidenceInspection
import Ito.LimitSnapshotGuard
import Ito.CheckpointStore
import Ito.RouteRecommendation
import Ito.FailoverDrill
import Ito.HealthExport
