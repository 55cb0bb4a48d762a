import VirtioScsi.ByteOrder
import VirtioScsi.RingWindow
import VirtioScsi.LinkWalk
import VirtioScsi.GuardedRun
import VirtioScsi.ResourceTrace
import VirtioScsi.Placement
import VirtioScsi.Alignment
import VirtioScsi.Virtqueue
import VirtioScsi.AddBufRollback
import VirtioScsi.DescriptorChains
import VirtioScsi.RequestQueue
import VirtioScsi.QueueOperations
import VirtioScsi.QueueInvariant
import VirtioScsi.QueueSteps
import VirtioScsi.QueueRuns
import VirtioScsi.ArbitraryDevice
import VirtioScsi.DeviceView
import VirtioScsi.ScsiCommand
import VirtioScsi.DeviceCommands
import VirtioScsi.BlockCdb
import VirtioScsi.BlockAddressing
import VirtioScsi.ReadTrace
import VirtioScsi.DiskGeometry
import VirtioScsi.RigidDiskBlock
import VirtioScsi.BlockRequests
import VirtioScsi.SgArray
import VirtioScsi.UnitTasks
import VirtioScsi.Custody
import VirtioScsi.UnitMoves
import VirtioScsi.UnitRuns
import VirtioScsi.UnitSlots
import VirtioScsi.Ownership
import VirtioScsi.OwnershipMoves
import VirtioScsi.SlotBooks
import VirtioScsi.Completions
import VirtioScsi.UnitChains
import VirtioScsi.BufferExclusion
import VirtioScsi.Answers
import VirtioScsi.SyncTimeout
import VirtioScsi.PipelineRuns
import VirtioScsi.InterruptMask
import VirtioScsi.Coalescing
import VirtioScsi.Notifications
import VirtioScsi.Lifetime
import VirtioScsi.LifetimeMoves
import VirtioScsi.LifetimeBooks
import VirtioScsi.LastClose
import VirtioScsi.PollingFallback
import VirtioScsi.WakeUps
import VirtioScsi.SubmitRollback
import VirtioScsi.UnitService
import VirtioScsi.UnitServiceRuns
import VirtioScsi.CellMemory
import VirtioScsi.DoioAttempts
import VirtioScsi.PipelineFallback
import VirtioScsi.TransferPaths
import VirtioScsi.CylinderCounts
import VirtioScsi.DoioReports
import VirtioScsi.ScsiHandlers
import VirtioScsi.ScsiBuffers
import VirtioScsi.CdbReads
import VirtioScsi.Autosense
import VirtioScsi.FailedReplies
import VirtioScsi.UnitDma
import VirtioScsi.PhysicalRanges
import VirtioScsi.IndirectTables
import VirtioScsi.StartHandshake
import VirtioScsi.StartStages
import VirtioScsi.StartMoves
import VirtioScsi.StartRuns
import VirtioScsi.DeviceOpens
import VirtioScsi.OpenRuns
import VirtioScsi.VringLayout
import VirtioScsi.ModernDetection
import VirtioScsi.DeviceInit
import VirtioScsi.TransportChoice
import VirtioScsi.Simulation
import VirtioScsi.AtomicObject
import VirtioScsi.RequestFormat
import VirtioScsi.ChainContents
import VirtioScsi.BlockStore
import VirtioScsi.DataPath
import VirtioScsi.DataPathSteps
import VirtioScsi.DataPathRuns
import VirtioScsi.VirtioTransport
import VirtioScsi.InitHandshake
import VirtioScsi.InitAgreement
import VirtioScsi.WorkBound
import VirtioScsi.ResourceNeeds
import VirtioScsi.ManagerLife
import VirtioScsi.ManagerSteps
import VirtioScsi.ManagerBooks
import VirtioScsi.ManagerRuns
import VirtioScsi.UnitTable
import VirtioScsi.RequestAccounts
import VirtioScsi.Quiescence
