import TokenRevoker.Library.Transition
import TokenRevoker.Library.Text
import TokenRevoker.Library.Fields
import TokenRevoker.Library.TornLines
import TokenRevoker.Library.DoubleRounding
import TokenRevoker.Library.SignatureFilter
import TokenRevoker.Library.KeyedLog
import TokenRevoker.Library.Positions
import TokenRevoker.Library.SharedStore
import TokenRevoker.Core.BloomFilter
import TokenRevoker.Core.TargetError
import TokenRevoker.Core.Item
import TokenRevoker.Core.Manager
import TokenRevoker.Core.Rotation
import TokenRevoker.Core.Middleware
import TokenRevoker.Core.FailClosed
import TokenRevoker.Core.RotationClock
import TokenRevoker.Core.RotationTimer
import TokenRevoker.Core.BackupManager
import TokenRevoker.Core.BlobGeometry
import TokenRevoker.Core.WriteBuffer
import TokenRevoker.Core.Store
import TokenRevoker.Core.WalReplay
import TokenRevoker.Core.JobOrder
import TokenRevoker.Core.CrashSafety
import TokenRevoker.Core.FailedBackup
import TokenRevoker.Core.GenerationGuard
import TokenRevoker.Core.Teardown
import TokenRevoker.Core.Reset
import TokenRevoker.Core.ResetSafety
import TokenRevoker.Core.Containment
import TokenRevoker.Core.ResetClears
import TokenRevoker.Core.Saturation
import TokenRevoker.Server.CanonicalEvent
import TokenRevoker.Server.CanonicalWal
import TokenRevoker.Server.CanonicalLog
import TokenRevoker.Server.TornLine
import TokenRevoker.Server.TornTail
import TokenRevoker.Server.LogRoundTrip
import TokenRevoker.Server.WalDirectory
import TokenRevoker.Server.WalSeparation
import TokenRevoker.Server.GenerationStamps
import TokenRevoker.Server.Coordinator
import TokenRevoker.Server.LsnContiguity
import TokenRevoker.Server.CanonicalHistory
import TokenRevoker.Server.CoordinatorRestart
import TokenRevoker.Server.CoordinatorLives
import TokenRevoker.Server.Delivery
import TokenRevoker.Server.DistributedServer
import TokenRevoker.Server.RegistryAgreement
import TokenRevoker.Server.RunningDrain
import TokenRevoker.Server.SnapshotTail
import TokenRevoker.Node.SnapshotInstall
import TokenRevoker.Node.SyncEngine
import TokenRevoker.Node.SyncEngineProcess
import TokenRevoker.Node.SyncEngineSafety
import TokenRevoker.Node.CoordinatedRotation
import TokenRevoker.Node.RotationPeriod
import TokenRevoker.Node.FiredEngine
import TokenRevoker.Node.RevokerNode
import TokenRevoker.Node.Backlog
import TokenRevoker.Node.ServingGate
import TokenRevoker.Node.NodeLife
import TokenRevoker.Node.FinalShutdown
import TokenRevoker.Node.SelfRotation
import TokenRevoker.Node.RotationHook
import TokenRevoker.Node.RotateCrash
import TokenRevoker.Node.Replica
import TokenRevoker.Node.Channels
import TokenRevoker.Node.CatchUp
import TokenRevoker.Node.AheadCursor
import TokenRevoker.Node.DegradedContract
import TokenRevoker.Node.Replication
import TokenRevoker.Node.ReplicaFeed
import TokenRevoker.Node.ReplicaRefinement
import TokenRevoker.Node.Tombstones
import TokenRevoker.Node.RebootstrapRequests
import TokenRevoker.Node.CoordinatorClient
import TokenRevoker.Core.GrpcAdmin
import TokenRevoker.Core.GrpcAdminSafety
import TokenRevoker.Server.WalDirectoryRefinement
import TokenRevoker.Node.StreamWatchdog
import TokenRevoker.Node.DegradedPolling
import TokenRevoker.Core.BloomHash
import TokenRevoker.Core.BloomCount
import TokenRevoker.Server.MetaFile
import TokenRevoker.Node.SyncStateFile
import TokenRevoker.Server.CanonicalReplay
import TokenRevoker.Server.RetentionWindow
import TokenRevoker.Node.NodeHealth
import TokenRevoker.Core.AdminResets
import TokenRevoker.Server.FailedStart
import TokenRevoker.Server.NodeProgress
