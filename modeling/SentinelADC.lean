import SentinelADC.AttemptOutcomes
import SentinelADC.Connections
import SentinelADC.CacheProtection
import SentinelADC.RateBound
import SentinelADC.BucketAgreement
import SentinelADC.ClockSkew
import SentinelADC.Enforcement
import SentinelADC.CacheBodies
import SentinelADC.OwnHeaders
import SentinelADC.CachePurge
import SentinelADC.Rollups
import SentinelADC.AppPipeline
import SentinelADC.RetrySafety
import SentinelADC.RoutingSoundness
import SentinelADC.FailureRuns
import SentinelADC.RingWalk
import SentinelADC.WeightedDescent
import SentinelADC.DrainTimers
import SentinelADC.StatusPoll
import SentinelADC.CacheSharing
import SentinelADC.HealthRuns
import SentinelADC.WaitTimes
import SentinelADC.AlgorithmSwitch
import SentinelADC.MetricsWindow
import SentinelADC.Scores
import SentinelADC.LeastConnections
import SentinelADC.DrainDeadline
import SentinelADC.ErrorPaths
import SentinelADC.SteadyTraffic
import SentinelADC.PatternPurge
import SentinelADC.IpHashing
import SentinelADC.HopByHop
import SentinelADC.ForwardedChain
import SentinelADC.BackendSplit
import SentinelADC.RetryBudget
import SentinelADC.CacheStore
import SentinelADC.CacheStats
import SentinelADC.ControlPlane
import SentinelADC.OperatorSettings
import SentinelADC.AnonymousCalls
import SentinelADC.HealthFigures
import SentinelADC.AttemptMetrics
import SentinelADC.Lib.Aggregation
import SentinelADC.AnalyticsPipelines
import SentinelADC.AnalyticsService
import SentinelADC.AnalyticsModes
import SentinelADC.RollupSnapshots
import SentinelADC.Lib.Noninterference
import SentinelADC.ClientIsolation
import SentinelADC.Lib.Periodic
import SentinelADC.HealthMonitor
import SentinelADC.DetectionTime
