import Microbus.MasterRx
import Microbus.MasterTx

/-! `master.c`: the slots of the master and its application interface. -/
namespace Microbus

/-- `tMaster`, without the statistics. `activeNodes` and `activeTxNodes` lie in the managers
that point to them. -/
structure Master where
  scheduler : SchedulerState
  nwManager : NetworkManager
  rx : MasterRx
  tx : MasterTx
  currentTxNodeId : TNodeIndex
  nextTxNodeId : Nat → TNodeIndex
  masterNodeTimeToLive : TimeToLive
  nodeTxNodes : NodeQueue

def masterUpdateSchedule (master : Master) : Except Fault Master := do
  if master.tx.masterResetCycles > 0 then
    return { master with
      currentTxNodeId := masterNodeId
      nextTxNodeId := fun i =>
        if 1 ≤ i ∧ i < master.scheduler.numTxNodesScheduled + 1 then masterNodeId
        else master.nextTxNodeId i }
  let currentTxNodeId := master.nextTxNodeId 0
  let txBufferLevel := getNumAllBufferedTxPackets master.tx.txManager
  let queues : SchedulerQueues := {
    activeNodes := master.nwManager.activeNodes
    activeTxNodes := master.tx.txManager.activeTxNodes
    nodeTxNodes := master.nodeTxNodes }
  let (nextTxNodeId, scheduler, queues) ← schedulerUpdateAndCalcNextTxNodes master.scheduler queues
    master.nextTxNodeId txBufferLevel.toNat
  return { master with
    currentTxNodeId, nextTxNodeId, scheduler
    nwManager := { master.nwManager with activeNodes := queues.activeNodes }
    tx := { master.tx with
      txManager := { master.tx.txManager with activeTxNodes := queues.activeTxNodes } }
    nodeTxNodes := queues.nodeTxNodes }

/-- The body of the loop of `masterRemoveAnyTimeoutNodes` for one id. -/
def masterRemoveIfTimedOut (master : Master) (nodeId : TNodeIndex) : Except Fault (Nat × Master) := do
  if master.masterNodeTimeToLive nodeId = removeNodeTTL then
    let (_, nwManager) ← networkManagerRemoveNewNodeRequest master.nwManager nodeId
    let (numTxPacketsFreed, txManager) ← masterTxManagerRemoveNode master.tx.txManager nodeId
    let rxPacketManager ← rxManagerRemoveAllPackets master.rx.rxPacketManager nodeId
    return (numTxPacketsFreed,
      { master with
        masterNodeTimeToLive := Function.update master.masterNodeTimeToLive nodeId 0
        nwManager := { nwManager with
          activeNodes := nodeQueueRemoveIfExists nwManager.activeNodes nodeId }
        nodeTxNodes := nodeQueueRemoveIfExists master.nodeTxNodes nodeId
        tx := { master.tx with txManager }
        rx := { master.rx with rxPacketManager } })
  return (0, master)

def masterRemoveTimeoutLoop : List Nat → Nat → Master → Except Fault (Nat × Master)
  | [], numTxPacketsFreed, master => .ok (numTxPacketsFreed, master)
  | nodeId :: rest, numTxPacketsFreed, master => do
      let (freed, master) ← masterRemoveIfTimedOut master (UInt8.ofNat nodeId)
      masterRemoveTimeoutLoop rest (numTxPacketsFreed + freed) master

def masterRemoveAnyTimeoutNodes (master : Master) : Except Fault (Nat × Master) :=
  masterRemoveTimeoutLoop (List.range' firstNodeId (maxNodes - firstNodeId)) 0 master

/-! The parts of a slot as functions of the whole master. -/

def masterQuickRx (master : Master) (crcError : Bool) : Except Fault Master := do
  let (rx, nwManager, txManager, masterNodeTimeToLive) ← masterQuickProcessPrevRx master.rx
    master.nwManager master.tx.txManager master.masterNodeTimeToLive crcError
  return { master with rx, nwManager, masterNodeTimeToLive, tx := { master.tx with txManager } }

def Master.rxContext (master : Master) : MasterRxContext where
  rx := master.rx
  nwManager := master.nwManager
  scheduler := master.scheduler
  nodeTxNodes := master.nodeTxNodes
  txManager := master.tx.txManager
  masterNodeTimeToLive := master.masterNodeTimeToLive

def masterRx (master : Master) : Except Fault (Nat × Master) := do
  let (numTxFreed, c) ← masterProcessRx master.rxContext
  return (numTxFreed,
    { master with
      rx := c.rx
      nwManager := c.nwManager
      scheduler := c.scheduler
      nodeTxNodes := c.nodeTxNodes
      tx := { master.tx with txManager := c.txManager }
      masterNodeTimeToLive := c.masterNodeTimeToLive })

def masterTx (master : Master) : Except Fault Master := do
  return { master with tx := ← masterProcessTx master.tx master.nwManager }

def masterQuickTx (master : Master) (stray : TNodeIndex → UInt8) : Master :=
  { master with
    tx := masterQuickUpdateTxPacket master.tx master.scheduler.numTxNodesScheduled
      master.nextTxNodeId stray }

/-- Returns the master and the frame that it sends. -/
def masterDualChannelPipelinedPreProcess (master : Master) (crcError : Bool)
    (stray : TNodeIndex → UInt8) : Except Fault (Master × Option Packet) := do
  let master ← masterUpdateSchedule master
  let master ← masterQuickRx master crcError
  let master := masterQuickTx master stray
  return (master, masterTxGetNextTxPacket master.tx)

def masterDualChannelPipelinedPostProcess (master : Master) : Except Fault (Nat × Master) := do
  let (numTxFreed, master) ← masterRx master
  let master ← masterTx master
  let (numRemoved, master) ← masterRemoveAnyTimeoutNodes master
  return (numTxFreed + numRemoved, master)

def masterNoDelaySingleChannelProcessRx (master : Master) (crcError : Bool) :
    Except Fault (Nat × Master) := do
  let master ← masterUpdateSchedule master
  let master ← masterQuickRx master crcError
  masterRx master

/-- Returns the number of packets freed, the master and the frame that it sends. -/
def masterNoDelaySingleChannelProcessTx (master : Master) (stray : TNodeIndex → UInt8) :
    Except Fault (Nat × Master × Option Packet) := do
  let master ← masterTx master
  let master ← masterUpdateSchedule master
  let master := masterQuickTx master stray
  let frame := masterTxGetNextTxPacket master.tx
  let (numTxFreed, master) ← masterRemoveAnyTimeoutNodes master
  return (numTxFreed, master, frame)

def masterUpdateTimeUs (master : Master) (usIncr : UInt32) : Master :=
  let (nwManager, masterNodeTimeToLive) :=
    networkManagerUpdateTimeUs master.nwManager master.masterNodeTimeToLive usIncr
  { master with nwManager, masterNodeTimeToLive }

/-- A frame arrives in the memory that `masterGetRxPacketMemory` returns. -/
def Master.receive (master : Master) (frame : Packet) : Master :=
  { master with rx := master.rx.receive frame }

def masterInit (numTxNodesScheduled maxTxPacketEntries : UInt8) (txPacketEntries : Nat → PacketEntry)
    (maxRxPacketEntries : UInt8) : Except Fault Master := do
  let rx ← masterRxInit maxRxPacketEntries
  return {
    scheduler := schedulerInit numTxNodesScheduled 80
    nwManager := networkManagerInit
    rx
    tx := { masterTxInit maxTxPacketEntries txPacketEntries with masterResetCycles := 20 }
    currentTxNodeId := 0
    nextTxNodeId := fun _ => 0
    masterNodeTimeToLive := fun _ => 0
    nodeTxNodes := NodeQueue.empty }

/-- Returns the master and the ids that are set in the bit field. -/
def getConnectedNodesBitField (master : Master) : Except Fault (Master × (Nat → Bool)) := do
  let masterNodeTimeToLive := Function.update master.masterNodeTimeToLive 0 1
  let newNodes := (List.range master.nwManager.numNewNodes).map master.nwManager.newNodeId
  microbusAssert (∀ node ∈ newNodes, node ≠ 0) .getConnectedNodesBitField
  return ({ master with masterNodeTimeToLive },
    fun node => node < maxNodes ∧ masterNodeTimeToLive (UInt8.ofNat node) > 0 ∧
      UInt8.ofNat node ∉ newNodes)

def masterResetTxCredits (master : Master) : Master :=
  { master with tx := { master.tx with txManager := masterTxClearBuffers master.tx.txManager } }

def masterPeekNextRxDataPacket (master : Master) : Except Fault (Option RxData × Master) := do
  let (entry, rxPacketManager) ← peekNextRxDataPacket master.rx.rxPacketManager
  let master := { master with rx := { master.rx with rxPacketManager } }
  match entry with
  | none => return (none, master)
  | some i =>
      let packet := master.rx.packetAt i
      return (some ⟨packet.srcNodeId, packet.getPacketDataSize, packet.data⟩, master)

def masterPopNextDataPacket (master : Master) : Except Fault Master := do
  let rxPacketManager ← popNextDataPacket master.rx.rxPacketManager
  return { master with rx := { master.rx with rxPacketManager } }

/-- Returns the index of the allocated packet, or `none` when the store is full. -/
def masterAllocateTxPacket (master : Master) : Except Fault (Option Nat × Master) := do
  let (packet, txManager) ← allocateTxPacket master.tx.txManager
  return (packet, { master with tx := { master.tx with txManager } })

def masterWriteAllocatedPacket (master : Master) (data : PacketData) : Master :=
  { master with tx := { master.tx with txManager := writeAllocatedPacket master.tx.txManager data } }

def masterSubmitAllocatedTxPacket (master : Master) (dstNodeId : TNodeIndex) (numBytes : UInt16) :
    Except Fault Master := do
  microbusAssert (numBytes.toNat ≤ masterPacketDataSize) .masterSubmitAllocatedTxPacket
  microbusAssert (master.tx.txManager.allocatedPacket.isSome) .masterSubmitAllocatedTxPacket
  checkIndex maxNodes dstNodeId .masterSubmitAllocatedTxPacket
  let txManager ← submitAllocatedTxPacket master.tx.txManager true
    (master.masterNodeTimeToLive dstNodeId) masterNodeId dstNodeId .masterData numBytes
  return { master with tx := { master.tx with txManager } }

end Microbus
