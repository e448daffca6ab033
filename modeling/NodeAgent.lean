import NodeAgent.Transition
import NodeAgent.Tally
import NodeAgent.UnixTime
import NodeAgent.Traffic
import NodeAgent.TrafficQueue
import NodeAgent.ReportHandoff
import NodeAgent.FiniteMap
import NodeAgent.Api
import NodeAgent.Credential
import NodeAgent.Registry
import NodeAgent.Cells
import NodeAgent.RegistryCoherence
import NodeAgent.RegistryRuns
import NodeAgent.RegistryReaders
import NodeAgent.Draining
import NodeAgent.ReplayLineages
import NodeAgent.AddressOwnership
import NodeAgent.Fallible
import NodeAgent.Receipts
import NodeAgent.EngineTable
import NodeAgent.Shapes
import NodeAgent.Runtime
import NodeAgent.RuntimeCalls
import NodeAgent.Listeners
import NodeAgent.Transaction
import NodeAgent.Rollback
import NodeAgent.Upkeep
import NodeAgent.EngineSound
import NodeAgent.Apply
import NodeAgent.Differences
import NodeAgent.Commit
import NodeAgent.Recovery
import NodeAgent.Consistency
import NodeAgent.Endurance
import NodeAgent.PendingRoom
import NodeAgent.Recoverable
import NodeAgent.Topology
import NodeAgent.KeyedLists
import NodeAgent.TopologyMutation
import NodeAgent.TopologyDigest
import NodeAgent.DeltaReplay
import NodeAgent.AggregatorAges
import NodeAgent.TopologyManager
import NodeAgent.TopologyRuns
import NodeAgent.PublishedTopology
import NodeAgent.TopologyFetches
import NodeAgent.TopologyAdapter
import NodeAgent.AdapterCalls
import NodeAgent.AdapterInStep
import NodeAgent.RollbackReports
import NodeAgent.CommandExecutor
import NodeAgent.CommandConvergence
import NodeAgent.KeyedGates
import NodeAgent.FifoCache
import NodeAgent.AckStore
import NodeAgent.ControlWorker
import NodeAgent.WorkerAccounts
import NodeAgent.ControlAcks
import NodeAgent.IdempotentExecution
import NodeAgent.AnalysisRows
import NodeAgent.AnalysisBatches
import NodeAgent.AnalysisFlows
import NodeAgent.AnalysisMinutes
import NodeAgent.AnalysisSampling
import NodeAgent.AnalysisBudget
import NodeAgent.AnalysisCollector
import NodeAgent.WireLengths
import NodeAgent.AnalysisSealing
import NodeAgent.AnalysisHoldings
import NodeAgent.AnalysisClosing
import NodeAgent.UserListing
import NodeAgent.Json
import NodeAgent.JsonTexts
import NodeAgent.OutboundAdapter
import NodeAgent.Outbounds
import NodeAgent.OutboundGraph
import NodeAgent.ReferenceGraphs
import NodeAgent.ClientChains
import NodeAgent.ChainImages
import NodeAgent.GraphVerdicts
import NodeAgent.ProjectionImages
import NodeAgent.ProjectionBudget
import NodeAgent.ProjectionPlans
import NodeAgent.ProjectionCosts
import NodeAgent.Projections
import NodeAgent.RouteRules
import NodeAgent.DnsServers
import NodeAgent.DnsCompilation
import NodeAgent.Inbounds
import NodeAgent.Compile
import NodeAgent.CompiledSurfaces
import NodeAgent.ConfigurationCosts
import NodeAgent.Utf8Bytes
import NodeAgent.TagPadding
import NodeAgent.PaddedRuntimes
import NodeAgent.ForwardingPlans
import NodeAgent.NftRules
import NodeAgent.NftTables
import NodeAgent.NftBackend
import NodeAgent.NftCleanup
import NodeAgent.TrimmedTexts
import NodeAgent.Intervals
import NodeAgent.PortRanges
import NodeAgent.PlanBuilding
import NodeAgent.Delimiters
import NodeAgent.PlanIdentity
import NodeAgent.GuardedWalks
import NodeAgent.ForeignRules
import NodeAgent.SignedPayloads
import NodeAgent.Disks
import NodeAgent.RuleSetFiles
import NodeAgent.CachePublication
import NodeAgent.CharBoundaries
import NodeAgent.BoundedLines
import NodeAgent.RuleMarkers
import NodeAgent.ClientSubnets
import NodeAgent.LogRotation
import NodeAgent.RemoteBroker
import NodeAgent.LogWriter
import NodeAgent.TelemetrySampling
import NodeAgent.RuleSetSnapshots
import NodeAgent.SnapshotCrashes
import NodeAgent.RemoteController
import NodeAgent.ControllerTruth
import NodeAgent.ControllerWakes
import NodeAgent.Backoff
import NodeAgent.PanelSessions
import NodeAgent.StreamGroups
import NodeAgent.Frames
import NodeAgent.PreparedContents
import NodeAgent.RuleSetReferences
import NodeAgent.NodeByNode
import NodeAgent.RouteMeaning
import NodeAgent.RemoteRequests
import NodeAgent.RemoteAnswers
