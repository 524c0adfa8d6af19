import Microbus.Foundation.Transition
import Microbus.Foundation.Cyclic
import Microbus.Foundation.GoBackN
import Microbus.Foundation.Ring
import Microbus.Foundation.Rotation
import Microbus.Foundation.Announce
import Microbus.Foundation.Bytes
import Microbus.Foundation.BitField
import Microbus.Types
import Microbus.Common
import Microbus.TxManager
import Microbus.RxManager
import Microbus.Scheduler
import Microbus.NetworkManager
import Microbus.MasterRx
import Microbus.MasterTx
import Microbus.Master
import Microbus.Node
import Microbus.SeqNum
import Microbus.TxInvariant
import Microbus.TxOps
import Microbus.TxTransmit
import Microbus.TxAck
import Microbus.Link
import Microbus.Sender
import Microbus.LinkInvariant
import Microbus.Delivery
import Microbus.Progress
import Microbus.Arrival
import Microbus.NodeOps
import Microbus.RxStore
import Microbus.RingRemoval
import Microbus.LifeTime
import Microbus.NodeTx
import Microbus.Submission
import Microbus.Transfer
import Microbus.MasterOps
import Microbus.MasterRun
import Microbus.NodeRun
import Microbus.CleanSlate
import Microbus.MasterSlots
import Microbus.Cover
import Microbus.CoverRun
import Microbus.MasterStore
import Microbus.QueuedPackets
import Microbus.ResetCredits
import Microbus.Network
import Microbus.Reception
import Microbus.ReceptionMaster
import Microbus.ReceptionNode
import Microbus.Acceptance
import Microbus.Membership
import Microbus.ConnectedNodes
import Microbus.NodeLevels
import Microbus.PeekPop
import Microbus.ReceivedFrames
import Microbus.AcceptedPackets
import Microbus.NodeFrames
import Microbus.NodeSound
import Microbus.MasterFrames
import Microbus.Bus
import Microbus.BusIds
import Microbus.MasterParts
import Microbus.Schedule
import Microbus.SingleChannel
import Microbus.MasterTurns
import Microbus.InStep
import Microbus.Turn
import Microbus.Window
import Microbus.TxRun
import Microbus.SlidingWindow
import Microbus.TxCounts
import Microbus.TxSound
import Microbus.CumulativeAck
import Microbus.RoundRobin
import Microbus.Emission
import Microbus.EmissionMaster
import Microbus.EmissionNode
import Microbus.FrameStability
import Microbus.NodeQueue
import Microbus.AckSearch
import Microbus.SchedulerRun
import Microbus.ServiceSlots
import Microbus.MasterQueues
import Microbus.FrameLookups
import Microbus.BufferLevels
import Microbus.AckSpacing
import Microbus.AllocationGap
import Microbus.BackOff
import Microbus.NewNodeTable
import Microbus.DualChannel
import Microbus.LostFrames
import Microbus.UniqueIds
import Microbus.OneSender
import Microbus.Outbox
import Microbus.NodeReplies
import Microbus.NodeOutbox
import Microbus.FrameOwners
import Microbus.Inbox
import Microbus.MasterInbox
import Microbus.EndToEnd
import Microbus.Upstream
