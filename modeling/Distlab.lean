import Distlab.Clients.CheckerExactness
import Distlab.Clients.CheckerVerdicts
import Distlab.Clients.ClientHistory
import Distlab.Clients.ClientRecovery
import Distlab.Clients.HistoryMinimality
import Distlab.Clients.HistoryMinimizer
import Distlab.Clients.HistoryMutators
import Distlab.Clients.HistoryRuns
import Distlab.Clients.LinearizabilityChecker
import Distlab.Clients.LongHistories
import Distlab.Clients.MultiKeyChecker
import Distlab.Clients.MultiKeyLocality
import Distlab.Clients.OperationHistory
import Distlab.Clients.Projections
import Distlab.Foundations.BallotVoting
import Distlab.Foundations.Deduplication
import Distlab.Foundations.Dict
import Distlab.Foundations.Draining
import Distlab.Foundations.ExecutedRequests
import Distlab.Foundations.Json
import Distlab.Foundations.JsonGrammar
import Distlab.Foundations.JsonText
import Distlab.Foundations.LeaderLogSteps
import Distlab.Foundations.LeaderLogs
import Distlab.Foundations.Linearizability
import Distlab.Foundations.Looping
import Distlab.Foundations.MemoSearch
import Distlab.Foundations.Outcome
import Distlab.Foundations.PlacementSearch
import Distlab.Foundations.Raising
import Distlab.Foundations.RequestBatches
import Distlab.Foundations.RequestOrder
import Distlab.Foundations.Selection
import Distlab.Foundations.SlottedOrders
import Distlab.MultiPaxos.Agreement
import Distlab.MultiPaxos.ApplicationArtifact
import Distlab.MultiPaxos.ApplicationCalls
import Distlab.MultiPaxos.ApplicationCodec
import Distlab.MultiPaxos.ApplicationRoundTrip
import Distlab.MultiPaxos.ApplicationTexts
import Distlab.MultiPaxos.AppliedPrefix
import Distlab.MultiPaxos.CampaignCodecs
import Distlab.MultiPaxos.CampaignRoundTrip
import Distlab.MultiPaxos.Client
import Distlab.MultiPaxos.ClientCalls
import Distlab.MultiPaxos.ClientChronicle
import Distlab.MultiPaxos.ClientLinearizability
import Distlab.MultiPaxos.ClientMoves
import Distlab.MultiPaxos.Cluster
import Distlab.MultiPaxos.Deployment
import Distlab.MultiPaxos.DepthScanner
import Distlab.MultiPaxos.DurableAnswers
import Distlab.MultiPaxos.Evidence
import Distlab.MultiPaxos.Exactness
import Distlab.MultiPaxos.HandlerCosts
import Distlab.MultiPaxos.Invariant
import Distlab.MultiPaxos.JournalCheckpoint
import Distlab.MultiPaxos.JournalFields
import Distlab.MultiPaxos.JournalRoundTrip
import Distlab.MultiPaxos.JournalValidity
import Distlab.MultiPaxos.Node
import Distlab.MultiPaxos.Oracle
import Distlab.MultiPaxos.Preservation
import Distlab.MultiPaxos.Quiescence
import Distlab.MultiPaxos.Recording
import Distlab.MultiPaxos.Requests
import Distlab.MultiPaxos.Runner
import Distlab.MultiPaxos.Runs
import Distlab.MultiPaxos.Spending
import Distlab.MultiPaxos.StateMachine
import Distlab.MultiPaxos.TrialArtifact
import Distlab.MultiPaxos.TrialRoundTrip
import Distlab.Paxos.Agreement
import Distlab.Paxos.Cluster
import Distlab.Paxos.Evidence
import Distlab.Paxos.Harness
import Distlab.Paxos.Invariant
import Distlab.Paxos.Node
import Distlab.Paxos.Preservation
import Distlab.Paxos.ProposalNumber
import Distlab.Paxos.Runs
import Distlab.Raft.Accounts
import Distlab.Raft.AppliedLogs
import Distlab.Raft.BackedCommits
import Distlab.Raft.Batching
import Distlab.Raft.BookKeeping
import Distlab.Raft.Books
import Distlab.Raft.Cluster
import Distlab.Raft.Command
import Distlab.Raft.CommitFrontier
import Distlab.Raft.CommitRecovery
import Distlab.Raft.CommittedLog
import Distlab.Raft.CompactedViews
import Distlab.Raft.Convergence
import Distlab.Raft.Delivery
import Distlab.Raft.Deployment
import Distlab.Raft.DriverOperations
import Distlab.Raft.ElectionSafety
import Distlab.Raft.ElectionTimers
import Distlab.Raft.Events
import Distlab.Raft.ExactApplication
import Distlab.Raft.FreshAnswers
import Distlab.Raft.FullLogs
import Distlab.Raft.Harness
import Distlab.Raft.Images
import Distlab.Raft.LeaderCompleteness
import Distlab.Raft.LeaderContact
import Distlab.Raft.LeaderLiveness
import Distlab.Raft.LeaderTenure
import Distlab.Raft.Leadership
import Distlab.Raft.LeadershipTransfer
import Distlab.Raft.Lifecycle
import Distlab.Raft.LinearizableRead
import Distlab.Raft.LogElections
import Distlab.Raft.LogIndex
import Distlab.Raft.LogInvariant
import Distlab.Raft.LogOperations
import Distlab.Raft.LogPreservation
import Distlab.Raft.LogWrites
import Distlab.Raft.Membership
import Distlab.Raft.Moves
import Distlab.Raft.Node
import Distlab.Raft.Operations
import Distlab.Raft.PreVotes
import Distlab.Raft.Quiet
import Distlab.Raft.QuorumRounds
import Distlab.Raft.ReadFreshness
import Distlab.Raft.Recovery
import Distlab.Raft.ReplicaCalls
import Distlab.Raft.ReplicaRefinement
import Distlab.Raft.Replicas
import Distlab.Raft.Replication
import Distlab.Raft.ReplicationProgress
import Distlab.Raft.Runs
import Distlab.Raft.SafeCheckpoints
import Distlab.Raft.SliceMerging
import Distlab.Raft.Snapshot
import Distlab.Raft.SnapshotBoundaries
import Distlab.Raft.SnapshotHistory
import Distlab.Raft.SnapshotRecovery
import Distlab.Raft.SnapshotValidity
import Distlab.Raft.Sparing
import Distlab.Raft.Stages
import Distlab.Raft.StateMachine
import Distlab.Raft.TimerHandlers
import Distlab.Raft.TimerOperations
import Distlab.Raft.TimerQueue
import Distlab.Raft.TimerRuns
import Distlab.Raft.Timers
import Distlab.Raft.TransferAuthority
import Distlab.Raft.TransferMoves
import Distlab.Raft.TransferTransport
import Distlab.Raft.Transition
import Distlab.Scenarios.DeletionMinimality
import Distlab.Scenarios.JointMinimality
import Distlab.Scenarios.Minimizers
import Distlab.Scenarios.Schedules
import Distlab.Service.Chronicle
import Distlab.Service.DurableWrites
import Distlab.Service.LeaderService
import Distlab.Service.OvertakenWrites
import Distlab.Service.ServiceLinearizability
import Distlab.Service.ServiceMoves
import Distlab.Service.ServiceRuns
import Distlab.Service.ServiceStages
import Distlab.Simulation.DeliveryOrder
import Distlab.Simulation.Queue
import Distlab.Simulation.Slices
import Distlab.Simulation.Tracing
