import Microbus.TxManager
import Microbus.RxManager
import Microbus.Scheduler
import Microbus.NetworkManager

/-! `masterRx.c`: a received frame is checked quickly before the next slot starts and
processed during it. -/
namespace Microbus

/-- `tMasterRx`, without its pointer to the statistics. -/
structure MasterRx where
  rxPacketManager : RxPacketManager
  nextRxPacketEntry : Nat
  prevRxPacketEntry : Option Nat
  validRxPacket : Bool
  validRxSeqNum : Bool

def MasterRx.packetAt (rx : MasterRx) (i : Nat) : Packet := (rx.rxPacketManager.rxPacketEntries i).packet

/-- The checks of `masterQuickProcessPrevRx` and `nodeQuickProcessPrevRx` on the first byte:
an idle line reads as all zeros or all ones. -/
def Packet.isIdle (p : Packet) : Prop :=
  p.protocolVersionAndPacketType = 0 ∨ p.protocolVersionAndPacketType = 255

instance (p : Packet) : Decidable p.isIdle := by unfold Packet.isIdle; infer_instance

/-- The frames that `masterQuickProcessPrevRx` counts as valid. -/
def masterAcceptsFrame (rxPacket : Packet) (rxCrcError : Bool) : Prop :=
  ¬ rxPacket.isIdle ∧ rxCrcError = false ∧ rxPacket.getProtocolVersion = microbusVersion ∧
    rxPacket.getPacketDataSize < maxPacketDataSize

instance (p : Packet) (e : Bool) : Decidable (masterAcceptsFrame p e) := by
  unfold masterAcceptsFrame; infer_instance

/-- The time to live is refreshed before a buffer is looked for. -/
def masterRecordHeard (nwManager : NetworkManager) (masterNodeTimeToLive : TimeToLive)
    (rxPacket : Packet) : Except Fault (NetworkManager × TimeToLive) := do
  if rxPacket.getPacketType = some .nodeData ∨ rxPacket.getPacketType = some .nodeEmpty then
    checkIndex maxNodes rxPacket.srcNodeId .masterQuickProcessPrevRx
    if masterNodeTimeToLive rxPacket.srcNodeId > 0 then
      return ← networkManagerRecordRxPacket nwManager masterNodeTimeToLive rxPacket.srcNodeId
  return (nwManager, masterNodeTimeToLive)

def masterQuickProcessPrevRx (rx : MasterRx) (nwManager : NetworkManager) (txManager : TxManager)
    (masterNodeTimeToLive : TimeToLive) (rxCrcError : Bool) :
    Except Fault (MasterRx × NetworkManager × TxManager × TimeToLive) := do
  let rxPacket := rx.packetAt rx.nextRxPacketEntry
  let rx := { rx with prevRxPacketEntry := some rx.nextRxPacketEntry, validRxPacket := false }
  if ¬ masterAcceptsFrame rxPacket rxCrcError then
    return (rx, nwManager, txManager, masterNodeTimeToLive)
  let rx := { rx with validRxPacket := true }
  let (nwManager, masterNodeTimeToLive) ← masterRecordHeard nwManager masterNodeTimeToLive rxPacket
  match findFreeRxPacket rx.rxPacketManager with
  | none =>
      -- the buffers are full: the packet is dropped and its memory used again
      return ({ rx with validRxPacket := false }, nwManager, txManager, masterNodeTimeToLive)
  | some (freeEntry, rxPacketManager) =>
      let rx := { rx with rxPacketManager, nextRxPacketEntry := freeEntry }
      if rxPacket.getPacketType = some .nodeData then
        let (validRxSeqNum, txManager) ←
          rxPacketCheckAndUpdateSeqNum txManager rxPacket.srcNodeId rxPacket.txSeqNum
        return ({ rx with validRxSeqNum }, nwManager, txManager, masterNodeTimeToLive)
      return (rx, nwManager, txManager, masterNodeTimeToLive)

/-- The parts of the master that `masterProcessRx` works on; `nodeTxNodes` is the queue that
the scheduler points to. -/
structure MasterRxContext where
  rx : MasterRx
  nwManager : NetworkManager
  scheduler : SchedulerState
  nodeTxNodes : NodeQueue
  txManager : TxManager
  masterNodeTimeToLive : TimeToLive

/-- The switch of `masterProcessRx` on the packet type: is the packet stored, how many
transmit packets are freed, and what changes. -/
def masterProcessRxPacket (c : MasterRxContext) (rxPacketEntry : Nat) (rxPacket : Packet) :
    Except Fault (Bool × Nat × MasterRxContext) := do
  match rxPacket.getPacketType with
  | some .nodeEmpty =>
      let (numTxPacketsFreed, txManager) ←
        rxAckSeqNum c.txManager rxPacket.srcNodeId rxPacket.ackSeqNum true
      return (false, numTxPacketsFreed, { c with txManager })
  | some .nodeData =>
      let (numTxPacketsFreed, txManager) ←
        rxAckSeqNum c.txManager rxPacket.srcNodeId rxPacket.ackSeqNum true
      let c := { c with txManager }
      if c.rx.validRxSeqNum then
        microbusAssert (rxPacket.dataSize1 > 0 ∨ rxPacket.dataSize2 > 0) .masterProcessRx
        let (scheduler, nodeTxNodes) ← schedulerUpdateNodeTxBufferLevel c.scheduler c.nodeTxNodes
          rxPacket.srcNodeId rxPacket.bufferLevel
        let rxPacketManager ← addRxDataPacket c.rx.rxPacketManager rxPacketEntry
        return (true, numTxPacketsFreed,
          { c with scheduler, nodeTxNodes, rx := { c.rx with rxPacketManager } })
      return (false, numTxPacketsFreed, c)
  | some .newNodeRequest =>
      let (nwManager, masterNodeTimeToLive) ←
        rxNewNodePacketRequest c.nwManager c.masterNodeTimeToLive rxPacket
      return (false, 0,
        { c with
          nwManager, masterNodeTimeToLive
          scheduler := newNodeHeardUpdateScheduler c.scheduler })
  | _ => return (false, 0, c)

def masterProcessRx (c : MasterRxContext) : Except Fault (Nat × MasterRxContext) := do
  if c.rx.validRxPacket = false then
    return (0, c)
  let some rxPacketEntry := c.rx.prevRxPacketEntry | throw (.nullPointer .masterProcessRx)
  let (packetStored, numTxPacketsFreed, c) ←
    masterProcessRxPacket c rxPacketEntry (c.rx.packetAt rxPacketEntry)
  let rxPacketManager :=
    if packetStored then c.rx.rxPacketManager
    else c.rx.rxPacketManager.setInUse rxPacketEntry false
  return (numTxPacketsFreed,
    { c with rx := { c.rx with rxPacketManager, validRxPacket := false, validRxSeqNum := false } })

/-- The memory that `masterRxGetNextPacketMemory` hands to the receive hardware is written. -/
def MasterRx.receive (rx : MasterRx) (frame : Packet) : MasterRx :=
  { rx with rxPacketManager := rx.rxPacketManager.receive rx.nextRxPacketEntry frame }

def masterRxInit (maxRxPacketEntries : UInt8) : Except Fault MasterRx := do
  microbusAssert (maxRxPacketEntries > 2) .masterRxInit
  match findFreeRxPacket (rxManagerInit maxRxPacketEntries) with
  | none => throw (.assertFailed .masterRxInit)
  | some (nextRxPacketEntry, rxPacketManager) =>
      return {
        rxPacketManager, nextRxPacketEntry
        prevRxPacketEntry := none
        validRxPacket := false
        validRxSeqNum := false }

end Microbus
