import Microbus.MasterRx
import Microbus.MasterTx

/-! `node.c`: the slots of a node and its application interface. -/
namespace Microbus

/-- `tNode`, without the statistics other than the two counters that a reset keeps. `seed` is
the state of `customRand` on this device. -/
structure Node where
  initialised : Bool
  txManager : TxManager
  rxPacketManager : RxPacketManager
  uniqueId : UInt64
  nodeId : TNodeIndex
  currentTxNodeId : TNodeIndex
  nextTxNodeId : Nat → TNodeIndex
  timeToLive : Int
  sentNewNodeRequest : Bool
  nextNewNodeResponseCountdown : Nat
  nextRxPacketEntry : Nat
  prevRxPacketEntry : Option Nat
  nextTxPacket : Option TxRef
  savedRxAckValid : Bool
  savedRxAck : UInt8
  validRxSeqNum : Bool
  validRxPacket : Bool
  nodeLeftNw : Nat
  nodeJoinedNw : Nat
  tmpPacketCycle : Nat
  tmpEmptyPacketHeader : Nat → Packet
  tmpPacket : Packet
  seed : UInt32

def customSrand (s : UInt32) : UInt32 := if s ≠ 0 then s else 1

def customRand (seed : UInt32) : UInt32 × Nat :=
  let seed := seed * 1103515245 + 12345
  (seed, ((seed >>> 16) &&& 0x7FFF).toNat)

namespace Node

def deref (node : Node) : TxRef → Packet
  | .entry i => (node.txManager.packetStore.entries i).packet
  | .tmpPacket => node.tmpPacket
  | .tmpEmptyPacketHeader i => node.tmpEmptyPacketHeader i

def assign (node : Node) (r : TxRef) (p : Packet) : Node :=
  match r with
  | .entry i =>
      { node with
        txManager := { node.txManager with packetStore := node.txManager.packetStore.setPacket i p } }
  | .tmpPacket => { node with tmpPacket := p }
  | .tmpEmptyPacketHeader i =>
      { node with tmpEmptyPacketHeader := Function.update node.tmpEmptyPacketHeader i p }

def packetAt (node : Node) (i : Nat) : Packet := (node.rxPacketManager.rxPacketEntries i).packet

/-- A frame arrives in the memory that `nodeGetRxPacketMemory` returns. -/
def receive (node : Node) (frame : Packet) : Node :=
  { node with rxPacketManager := node.rxPacketManager.receive node.nextRxPacketEntry frame }

end Node

/-- The packet memory of the transmit store keeps its bytes; that of the receive store is
zeroed. -/
def nodeInit (uniqueId : UInt64) (maxTxPacketEntries : UInt8) (txPacketEntries : Nat → PacketEntry)
    (maxRxPacketEntries : UInt8) : Except Fault Node := do
  microbusAssert (maxRxPacketEntries > 2) .nodeInit
  match findFreeRxPacket (rxManagerInit maxRxPacketEntries) with
  | none => throw (.assertFailed .nodeInit)
  | some (nextRxPacketEntry, rxPacketManager) =>
      return {
        initialised := true
        txManager := initTxManager 1 none maxTxPacketEntries txPacketEntries
        rxPacketManager
        uniqueId
        nodeId := unallocatedNodeId
        currentTxNodeId := 0
        nextTxNodeId := fun _ => 0
        timeToLive := 0
        sentNewNodeRequest := false
        nextNewNodeResponseCountdown := 0
        nextRxPacketEntry
        prevRxPacketEntry := none
        nextTxPacket := some .tmpPacket
        savedRxAckValid := false
        savedRxAck := 0
        validRxSeqNum := false
        validRxPacket := false
        nodeLeftNw := 0
        nodeJoinedNw := 0
        tmpPacketCycle := 0
        tmpEmptyPacketHeader := fun _ => Packet.zero
        tmpPacket := Packet.zero
        seed := customSrand (uniqueId.toUInt32 ^^^ (uniqueId >>> 32).toUInt32) }

def nodeReset (node : Node) : Except Fault Node :=
  nodeInit node.uniqueId node.txManager.packetStore.maxEntries node.txManager.packetStore.entries
    (UInt8.ofNat node.rxPacketManager.maxRxPacketEntries)

def nodeRemoveFromNetwork (node : Node) : Except Fault Node := do
  if node.nodeId ≠ unallocatedNodeId then
    return { ← nodeReset node with
      nodeLeftNw := node.nodeLeftNw + 1
      nodeJoinedNw := node.nodeJoinedNw }
  return node

/-- The schedule of a frame, and the last acknowledgement in it that is for this node. -/
def nodeRecordSchedule (node : Node) (rxPacket : Packet) : Node :=
  let node := { node with
    nextTxNodeId := fun i =>
      if h : i < maxTxNodesScheduled then rxPacket.nextTxNodeId ⟨i, h⟩ else node.nextTxNodeId i }
  if node.nodeId ≠ unallocatedNodeId then
    (List.finRange maxTxNodesScheduled).foldl
      (fun node i =>
        if rxPacket.nextTxNodeId i = node.nodeId then
          { node with savedRxAckValid := true, savedRxAck := rxPacket.nextTxNodeAckSeqNum i }
        else node) node
  else node

/-- The end of `nodeQuickProcessPrevRx`, for a frame that is for this node. -/
def nodeQuickAccept (node : Node) (rxPacket : Packet) : Except Fault Node := do
  match findFreeRxPacket node.rxPacketManager with
  | none => return { node with validRxPacket := false }
  | some (freeEntry, rxPacketManager) =>
      let node := { node with
        validRxPacket := true
        rxPacketManager
        nextRxPacketEntry := freeEntry
        validRxSeqNum := true }
      if node.nodeId ≠ unallocatedNodeId ∧ rxPacket.getPacketType = some .masterData then
        let (validRxSeqNum, txManager) ←
          rxPacketCheckAndUpdateSeqNum node.txManager masterNodeId rxPacket.txSeqNum
        return { node with validRxSeqNum, txManager }
      return node

def nodeQuickProcessPrevRx (node : Node) (rxCrcError : Bool) : Except Fault Node := do
  if node.initialised = false then
    return node
  let rxPacket := node.packetAt node.nextRxPacketEntry
  let node := { node with
    prevRxPacketEntry := some node.nextRxPacketEntry
    validRxPacket := false
    savedRxAckValid := false }
  if rxCrcError ∨ rxPacket.isIdle ∨ rxPacket.getProtocolVersion ≠ microbusVersion then
    return node
  if rxPacket.getPacketType = some .masterReset then
    return ← nodeRemoveFromNetwork node
  let node := nodeRecordSchedule node rxPacket
  if rxPacket.dstNodeId ≠ node.nodeId then
    return node
  nodeQuickAccept node rxPacket

def nodeProcessRxData (node : Node) (packetEntry : Nat) : Except Fault Node := do
  let packet := node.packetAt packetEntry
  let freed := { node with rxPacketManager := node.rxPacketManager.setInUse packetEntry false }
  if node.nodeId = unallocatedNodeId then
    if packet.getPacketType = some .newNodeResponse ∧ node.sentNewNodeRequest = true then
      let m ← rxNewNodePacketResponse packet node.uniqueId
        ⟨node.nodeId, node.timeToLive, node.nodeJoinedNw⟩
      return { freed with
        nodeId := m.nodeId
        timeToLive := m.timeToLive
        nodeJoinedNw := m.nodeJoinedNw }
    return freed
  if packet.dstNodeId = node.nodeId ∧ packet.getPacketType = some .masterData then
    microbusAssert (packet.dataSize1 > 0 ∨ packet.dataSize2 > 0) .nodeProcessRxData
    if node.validRxSeqNum then
      return { node with rxPacketManager := ← addRxDataPacket node.rxPacketManager packetEntry }
  return freed

def nodeProcessRx (node : Node) : Except Fault Node := do
  let node ←
    if node.savedRxAckValid then do
      let (_, txManager) ← rxAckSeqNum node.txManager masterNodeId node.savedRxAck false
      pure { node with txManager }
    else pure node
  if node.validRxPacket then
    let some packetEntry := node.prevRxPacketEntry | throw (.nullPointer .nodeProcessRxData)
    nodeProcessRxData node packetEntry
  else return node

def nodeUpdateSchedule (node : Node) : Node :=
  { node with
    currentTxNodeId := node.nextTxNodeId 0
    nextTxNodeId := fun i =>
      if i < maxTxNodesScheduled - 1 then node.nextTxNodeId (i + 1)
      else if i = maxTxNodesScheduled - 1 then invalidNodeId
      else node.nextTxNodeId i }

/-- The packet of a node that has an id: its next data packet, or an empty one. -/
def nodeProcessTxAllocated (node : Node) : Except Fault Node := do
  let (txPacket, txManager) ← nodeGetNextTxDataPacket node.txManager
  let node := { node with txManager }
  let bufferLevel := getNumInTxBuffer node.txManager masterNodeId
  match txPacket with
  | some i =>
      let node := node.assign (.entry i) ((node.deref (.entry i)).setBufferLevel bufferLevel)
      return { node with nextTxPacket := some (.entry i) }
  | none =>
      let tmpPacketCycle := if node.tmpPacketCycle + 1 ≥ 2 then 0 else node.tmpPacketCycle + 1
      let header := (node.tmpEmptyPacketHeader tmpPacketCycle).setProtocolVersionAndPacketType .nodeEmpty
      let header := ((header.setPacketDataSize 0).setSrcNodeId node.nodeId).setAckSeqNum
        (node.txManager.rxSeqNum masterNodeId)
      let header := { header with txSeqNum := invalidSequenceNum }.setBufferLevel bufferLevel
      return { node with
        tmpPacketCycle
        tmpEmptyPacketHeader := Function.update node.tmpEmptyPacketHeader tmpPacketCycle header
        nextTxPacket := some (.tmpEmptyPacketHeader tmpPacketCycle) }

/-- The request of a node that has no id, after its back-off. -/
def nodeProcessTxUnallocated (node : Node) : Node :=
  if node.nextNewNodeResponseCountdown = 0 then
    let (seed, rand) := customRand node.seed
    { node with
      sentNewNodeRequest := true
      tmpPacket := txNewNodeRequest node.tmpPacket node.uniqueId
      nextTxPacket := some .tmpPacket
      nextNewNodeResponseCountdown := rand % maxNewNodeBackoff
      seed }
  else
    { node with
      nextNewNodeResponseCountdown := node.nextNewNodeResponseCountdown - 1
      nextTxPacket := none }

/-- A data packet or a request that is not sent yet is kept. -/
def Node.keepsTxPacket (node : Node) : Prop :=
  ∃ r, node.nextTxPacket = some r ∧
    ((node.deref r).getPacketType = some .nodeData ∨
      (node.deref r).getPacketType = some .newNodeRequest)

instance (node : Node) : Decidable node.keepsTxPacket :=
  match h : node.nextTxPacket with
  | none => isFalse (by rintro ⟨r, hr, -⟩; rw [h] at hr; cases hr)
  | some r =>
      if hp : (node.deref r).getPacketType = some .nodeData ∨
          (node.deref r).getPacketType = some .newNodeRequest then
        isTrue ⟨r, h, hp⟩
      else isFalse (by rintro ⟨r', hr, h'⟩; rw [h] at hr; cases hr; exact hp h')

def nodeProcessTx (node : Node) : Except Fault Node := do
  if node.keepsTxPacket then
    return node
  if node.nodeId ≠ unallocatedNodeId then
    nodeProcessTxAllocated node
  else
    return nodeProcessTxUnallocated node

def nodeQuickUpdateTxPacket (node : Node) : Node :=
  match node.nextTxPacket with
  | none => node
  | some r => node.assign r ((node.deref r).setAckSeqNum (node.txManager.rxSeqNum masterNodeId))

/-- The second half of `nodeGetTxPacket`: the frame goes out. -/
def nodeSendTxPacket (node : Node) : Node × Option Packet :=
  let node := nodeQuickUpdateTxPacket node
  let frame := node.nextTxPacket.map node.deref
  ({ node with nextTxPacket := none, timeToLive := nodeNwRecordTxPacketSent }, frame)

def nodeGetTxPacket (node : Node) : Node × Option Packet :=
  if node.nextTxPacket = none then (node, none)
  else if node.nodeId = unallocatedNodeId then
    if node.nextNewNodeResponseCountdown = 0 then
      let (seed, rand) := customRand node.seed
      nodeSendTxPacket { node with seed, nextNewNodeResponseCountdown := rand % maxNewNodeBackoff }
    else
      ({ node with nextNewNodeResponseCountdown := node.nextNewNodeResponseCountdown - 1 }, none)
  else nodeSendTxPacket node

def nodeCheckIfTimedOut (node : Node) : Except Fault Node :=
  if nodeNwHasNodeTimedOut node.timeToLive then nodeRemoveFromNetwork node else .ok node

/-- Returns the node and the frame that it sends. -/
def nodeDualChannelPipelinedPreProcess (node : Node) (crcError : Bool) :
    Except Fault (Node × Option Packet) := do
  if node.initialised = false then
    return (node, none)
  let node ← nodeQuickProcessPrevRx node crcError
  let node := nodeUpdateSchedule node
  if node.currentTxNodeId = node.nodeId ∧ node.nextTxPacket ≠ none then
    return nodeGetTxPacket node
  return (node, none)

def nodeDualChannelPipelinedPostProcess (node : Node) : Except Fault Node := do
  if node.initialised = false then
    return node
  let node ← nodeCheckIfTimedOut node
  let node ← nodeProcessRx node
  nodeProcessTx node

def nodeIsTxMode (node : Node) : Except Fault (Bool × Node) := do
  if node.initialised = false then
    return (false, node)
  let isTx := node.currentTxNodeId == node.nodeId
  let node ← nodeCheckIfTimedOut node
  return (isTx, nodeUpdateSchedule node)

def nodeNoDelaySingleChannelProcessRx (node : Node) (crcError : Bool) : Except Fault Node := do
  if node.initialised = false then
    return node
  let node ← nodeQuickProcessPrevRx node crcError
  nodeProcessRx node

def nodeNoDelaySingleChannelProcessTx (node : Node) : Except Fault (Node × Option Packet) := do
  if node.initialised = false then
    return (node, none)
  let node ← nodeProcessTx node
  return nodeGetTxPacket node

def nodeUpdateTimeUs (node : Node) (usIncr : UInt32) : Node :=
  { node with timeToLive := nodeNwUpdateTimeUs node.timeToLive usIncr }

/-- Returns the index of the allocated packet, or `none` when the store is full. -/
def nodeAllocateTxPacket (node : Node) : Except Fault (Option Nat × Node) := do
  let (packet, txManager) ← allocateTxPacket node.txManager
  return (packet, { node with txManager })

def nodeWriteAllocatedPacket (node : Node) (data : PacketData) : Node :=
  { node with txManager := writeAllocatedPacket node.txManager data }

def nodeSubmitAllocatedTxPacket (node : Node) (numBytes : UInt16) : Except Fault Node := do
  microbusAssert (numBytes.toNat ≤ nodePacketDataSize) .nodeSubmitAllocatedTxPacket
  microbusAssert (node.txManager.allocatedPacket.isSome) .nodeSubmitAllocatedTxPacket
  let txManager ← submitAllocatedTxPacket node.txManager false 0 node.nodeId masterNodeId .nodeData numBytes
  return { node with txManager }

def nodePeekNextRxDataPacket (node : Node) : Except Fault (Option RxData) := do
  if node.rxPacketManager.isEmpty then
    return none
  let some i := node.rxPacketManager.rxPacketQueue node.rxPacketManager.start
    | throw (.nullPointer .nodePeekNextRxDataPacket)
  let packet := node.packetAt i
  microbusAssert (packet.getPacketDataSize > 0) .nodePeekNextRxDataPacket
  return some ⟨masterNodeId, packet.getPacketDataSize, packet.data⟩

def nodePopNextDataPacket (node : Node) : Except Fault Node := do
  return { node with rxPacketManager := ← popNextDataPacket node.rxPacketManager }

end Microbus
