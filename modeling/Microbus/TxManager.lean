import Microbus.Common

/-! `txManager.c`: the packet store and the sliding window that the master and the
nodes share. A pointer to a packet of the store is its index. -/
namespace Microbus

structure PacketStore where
  entries : Nat → PacketEntry
  maxEntries : UInt8
  numStored : UInt32
  numFreed : UInt32

/-- `tTxManager`. `activeTxNodes` is `none` where the source passes a null pointer, on a
node; on the master it is the queue itself, which the scheduler also walks. -/
structure TxManager where
  allocatedPacket : Option Nat
  packetStore : PacketStore
  txSeqNumStart : TNodeIndex → UInt8
  txSeqNumEnd : TNodeIndex → UInt8
  txSeqNumNext : TNodeIndex → UInt8
  txSeqNumPauseCount : TNodeIndex → Nat
  rxSeqNum : TNodeIndex → UInt8
  maxTxNodes : Nat
  maxTxBufferLevel : UInt8
  txBufferLevel : UInt8
  activeTxNodes : Option NodeQueue
  lastTxQueueIndex : Nat
  lastTxQueueCount : Nat

/-- `INCR_SEQUENCE_NUM` -/
def incrSequenceNum (seqNum : UInt8) : UInt8 :=
  let seqNum := seqNum + 1
  if seqNum ≥ maxSequenceNum then 0 else seqNum

def PacketEntry.isMatch (packetEntry : PacketEntry) (dstNodeId : TNodeIndex) (seqNum : UInt8)
    (isMaster : Bool) : Bool :=
  let dstNodeIdMatches := if isMaster then packetEntry.packet.dstNodeId == dstNodeId else true
  packetEntry.inUse && dstNodeIdMatches && packetEntry.packet.txSeqNum == seqNum

def findPacketEntry (store : PacketStore) (dstNodeId : TNodeIndex) (seqNum : UInt8)
    (isMaster : Bool) : Except Fault Nat :=
  match (List.range store.maxEntries.toNat).find?
      (fun i => (store.entries i).isMatch dstNodeId seqNum isMaster) with
  | some packetIndex => .ok packetIndex
  | none => .error (.assertFailed .findPacketEntry)

def PacketStore.setInUse (store : PacketStore) (i : Nat) (inUse : Bool) : PacketStore :=
  { store with entries := Function.update store.entries i { store.entries i with inUse } }

def PacketStore.setPacket (store : PacketStore) (i : Nat) (packet : Packet) : PacketStore :=
  { store with entries := Function.update store.entries i { store.entries i with packet } }

def allocatePacketEntry (store : PacketStore) : Option (Nat × PacketStore) :=
  match (List.range store.maxEntries.toNat).find? (fun i => !(store.entries i).inUse) with
  | some packetIndex =>
      some (packetIndex,
        { store.setInUse packetIndex true with numStored := store.numStored + 1 })
  | none => none

def freePacket (store : PacketStore) (dstNodeId : TNodeIndex) (seqNum : UInt8) (isMaster : Bool) :
    Except Fault PacketStore := do
  let entry ← findPacketEntry store dstNodeId seqNum isMaster
  return { store.setInUse entry false with numFreed := store.numFreed + 1 }

def getNumAllBufferedTxPackets (manager : TxManager) : UInt8 :=
  (List.range manager.packetStore.maxEntries.toNat).foldl
    (fun count i => if (manager.packetStore.entries i).inUse then count + 1 else count) 0

def allocateTxPacket (manager : TxManager) : Except Fault (Option Nat × TxManager) :=
  match allocatePacketEntry manager.packetStore with
  | none => .ok (none, manager)
  | some (packet, packetStore) =>
      let manager := { manager with packetStore }
      if manager.allocatedPacket.isSome then
        .error (.assertFailed .allocateTxPacket)
      else if manager.activeTxNodes.any (fun q => q.numNodes ≥ maxNodes) then
        -- the entry taken above stays in use
        .ok (none, manager)
      else
        .ok (some packet, { manager with allocatedPacket := some packet })

def writeAllocatedPacket (manager : TxManager) (data : PacketData) : TxManager :=
  match manager.allocatedPacket with
  | none => manager
  | some i =>
      { manager with
        packetStore := manager.packetStore.setPacket i
          { (manager.packetStore.entries i).packet with data } }

/-- Returns the number of packets freed and the manager. -/
def masterTxManagerRemoveNode (manager : TxManager) (nodeId : TNodeIndex) :
    Except Fault (Nat × TxManager) := do
  checkIndex manager.maxTxNodes nodeId .masterTxManagerRemoveNode
  let store := manager.packetStore
  let isFreed := fun i => i < store.maxEntries.toNat ∧
    (store.entries i).packet.dstNodeId = nodeId ∧ (store.entries i).inUse = true
  let numFreed := (List.range store.maxEntries.toNat).countP (fun i => isFreed i)
  return (numFreed,
    { manager with
      activeTxNodes := manager.activeTxNodes.map (nodeQueueRemoveIfExists · nodeId)
      packetStore :=
        { store with
          entries := fun i =>
            if isFreed i then { store.entries i with inUse := false } else store.entries i
          numFreed := store.numFreed + UInt32.ofNat numFreed }
      txSeqNumStart := Function.update manager.txSeqNumStart nodeId 0
      txSeqNumEnd := Function.update manager.txSeqNumEnd nodeId 0
      txSeqNumNext := Function.update manager.txSeqNumNext nodeId 0
      txSeqNumPauseCount := Function.update manager.txSeqNumPauseCount nodeId 0
      rxSeqNum := Function.update manager.rxSeqNum nodeId nullSequenceNum })

/-- The header that `submitAllocatedTxPacket` writes. -/
def fillHeader (packet : Packet) (isMaster : Bool) (srcNodeId dstNodeId : TNodeIndex)
    (packetType : PacketType) (dataSize : UInt16) (txSeqNum : UInt8) : Packet :=
  let packet := (packet.setProtocolVersionAndPacketType packetType).setPacketDataSize dataSize
  let packet := if isMaster then { packet with dstNodeId } else packet.setSrcNodeId srcNodeId
  { packet with txSeqNum }

def addActiveTxNode (manager : TxManager) (isMaster : Bool) (dstNodeId : TNodeIndex) :
    Except Fault (Option NodeQueue) :=
  if isMaster ∧ manager.txSeqNumEnd dstNodeId = manager.txSeqNumStart dstNodeId then
    match manager.activeTxNodes with
    | none => .error (.nullPointer .submitAllocatedTxPacket)
    | some queue => do
        let queue ← nodeQueueAdd queue dstNodeId
        return some queue
  else .ok manager.activeTxNodes

/-- The manager once the packet of entry `i` is submitted. -/
def TxManager.submitEntry (manager : TxManager) (i : Nat) (packet : Packet) (dstNodeId : TNodeIndex)
    (activeTxNodes : Option NodeQueue) : TxManager :=
  let txSeqNumEnd :=
    Function.update manager.txSeqNumEnd dstNodeId (incrSequenceNum (manager.txSeqNumEnd dstNodeId))
  let txBufferLevel := txSeqNumEnd dstNodeId - manager.txSeqNumStart dstNodeId
  { manager with
    packetStore := manager.packetStore.setPacket i packet
    txSeqNumEnd
    activeTxNodes
    txBufferLevel
    maxTxBufferLevel := max manager.maxTxBufferLevel txBufferLevel
    allocatedPacket := none }

/-- Only the master passes a time to live, and only the master has the queue. -/
def submitAllocatedTxPacket (manager : TxManager) (isMaster : Bool) (masterDstNodeTTL : Nat)
    (srcNodeId dstNodeId : TNodeIndex) (packetType : PacketType) (dataSize : UInt16) :
    Except Fault TxManager := do
  if isMaster ∧ masterDstNodeTTL ≤ 0 then
    return { manager with allocatedPacket := none }
  microbusAssert (srcNodeId.toNat < maxNodes ∧ dstNodeId.toNat < maxNodes) .submitAllocatedTxPacket
  let some i := manager.allocatedPacket | throw (.nullPointer .submitAllocatedTxPacket)
  microbusAssert (isMaster = false → dstNodeId = 0 ∧ packetType ≠ .masterData) .submitAllocatedTxPacket
  checkIndex manager.maxTxNodes dstNodeId .submitAllocatedTxPacket
  let packet := fillHeader (manager.packetStore.entries i).packet isMaster srcNodeId dstNodeId
    packetType dataSize (manager.txSeqNumEnd dstNodeId)
  let activeTxNodes ← addActiveTxNode manager isMaster dstNodeId
  let manager := manager.submitEntry i packet dstNodeId activeTxNodes
  -- the node may have been removed while this function was interrupted
  if isMaster ∧ masterDstNodeTTL = 0 then
    let (_, manager) ← masterTxManagerRemoveNode manager dstNodeId
    return manager
  return manager

/-- The assertion of `getNextTxPacketForNode` on the three counters. -/
def nextInRange (start endSeq next : UInt8) : Prop :=
  if endSeq ≥ start then next ≥ start ∧ next ≤ endSeq else next ≥ start ∨ next ≤ endSeq

instance (start endSeq next : UInt8) : Decidable (nextInRange start endSeq next) := by
  unfold nextInRange; infer_instance

def getNextTxPacketForNode (manager : TxManager) (isMaster : Bool) (dstNodeId : TNodeIndex) :
    Except Fault (Option Nat × TxManager) := do
  checkIndex manager.maxTxNodes dstNodeId .getNextTxPacketForNode
  let start := manager.txSeqNumStart dstNodeId
  let endSeq := manager.txSeqNumEnd dstNodeId
  let next := manager.txSeqNumNext dstNodeId
  if manager.txSeqNumPauseCount dstNodeId > 0 then
    return (none, manager)
  if start = endSeq then
    return (none, manager)
  microbusAssert (nextInRange start endSeq next) .getNextTxPacketForNode
  let windowEnd := start + slidingWindowSize
  if next = endSeq ∨ next = windowEnd then
    return (none,
      { manager with
        txSeqNumPauseCount := Function.update manager.txSeqNumPauseCount dstNodeId 2 })
  let packetEntry ← findPacketEntry manager.packetStore dstNodeId next isMaster
  return (some packetEntry,
    { manager with
      txSeqNumNext := Function.update manager.txSeqNumNext dstNodeId (incrSequenceNum next) })

def nodeGetNextTxDataPacket (manager : TxManager) : Except Fault (Option Nat × TxManager) := do
  if manager.txSeqNumStart masterNodeId = manager.txSeqNumEnd masterNodeId then
    return (none, manager)
  let (packetEntry, manager) ← getNextTxPacketForNode manager false masterNodeId
  match packetEntry with
  | none => return (none, manager)
  | some i =>
      let packet := (manager.packetStore.entries i).packet.setAckSeqNum (manager.rxSeqNum masterNodeId)
      return (some i, { manager with packetStore := manager.packetStore.setPacket i packet })

/-- The do-while loop of `masterGetNextTxDataPacket`: `i` is the index last looked at. -/
def nextTxPacketLoop (lastQueueIndex : Nat) (queue : NodeQueue) :
    Nat → Nat → TxManager → Except Fault (Option Nat × Nat × TxManager)
  | 0, _, _ => .error (.outOfFuel .masterGetNextTxDataPacket)
  | fuel + 1, i, manager => do
      let i := if i + 1 ≥ queue.numNodes then 0 else i + 1
      let (packetEntry, manager) ← getNextTxPacketForNode manager true (queue.nodeIds i)
      if i ≠ lastQueueIndex ∧ packetEntry = none then
        nextTxPacketLoop lastQueueIndex queue fuel i manager
      else
        return (packetEntry, i, manager)

def masterGetNextTxDataPacket (manager : TxManager) (burstSize : Nat) :
    Except Fault (Option Nat × TxManager) := do
  let some activeTxNodes := manager.activeTxNodes
    | throw (.nullPointer .masterGetNextTxDataPacket)
  if activeTxNodes.numNodes = 0 then
    return (none, manager)
  let lastQueueIndex :=
    if manager.lastTxQueueIndex ≥ activeTxNodes.numNodes then activeTxNodes.numNodes - 1
    else manager.lastTxQueueIndex
  let (packetEntry, manager) ←
    if burstSize > 1 ∧ manager.lastTxQueueCount < burstSize then
      getNextTxPacketForNode manager true (activeTxNodes.nodeIds lastQueueIndex)
    else pure (none, manager)
  if packetEntry.isSome then
    return (packetEntry, { manager with lastTxQueueCount := manager.lastTxQueueCount + 1 })
  let (packetEntry, i, manager) ←
    nextTxPacketLoop lastQueueIndex activeTxNodes activeTxNodes.numNodes lastQueueIndex manager
  let manager := { manager with lastTxQueueIndex := i }
  if packetEntry.isSome then
    return (packetEntry, { manager with lastTxQueueCount := 1 })
  return (none, manager)

/-- Is the acknowledged number among those that wait for an acknowledgement? -/
def validAckSeqNum (start endSeq ackSeqNum : UInt8) : Bool :=
  let wrapped := endSeq < start
  if wrapped then ackSeqNum ≥ start || ackSeqNum < endSeq
  else ackSeqNum ≥ start && ackSeqNum < endSeq

/-- The loop of `rxAckSeqNum` from `seqNum` up to `newStart`. -/
def freeAckedPackets (srcNodeId : TNodeIndex) (newStart : UInt8) (isMaster : Bool) :
    Nat → UInt8 → Nat → TxManager → Except Fault (Nat × TxManager)
  | 0, _, _, _ => .error (.outOfFuel .rxAckSeqNum)
  | fuel + 1, seqNum, packetsFreed, manager =>
      if seqNum ≠ newStart then do
        let packetStore ← freePacket manager.packetStore srcNodeId seqNum isMaster
        let txSeqNumNext :=
          if seqNum = manager.txSeqNumNext srcNodeId then
            Function.update manager.txSeqNumNext srcNodeId newStart
          else manager.txSeqNumNext
        freeAckedPackets srcNodeId newStart isMaster fuel (incrSequenceNum seqNum)
          (packetsFreed + 1) { manager with packetStore, txSeqNumNext }
      else
        .ok (packetsFreed, manager)

/-- Returns the number of packets freed and the manager. -/
def rxAckSeqNum (manager : TxManager) (srcNodeId : TNodeIndex) (ackSeqNum : UInt8)
    (isMaster : Bool) : Except Fault (Nat × TxManager) := do
  if ackSeqNum = invalidSequenceNum then
    return (0, manager)
  checkIndex manager.maxTxNodes srcNodeId .rxAckSeqNum
  let start := manager.txSeqNumStart srcNodeId
  let endSeq := manager.txSeqNumEnd srcNodeId
  if validAckSeqNum start endSeq ackSeqNum then
    let newStart := incrSequenceNum ackSeqNum
    let (packetsFreed, manager) ← freeAckedPackets srcNodeId newStart isMaster 256 start 0 manager
    let manager :=
      { manager with
        txSeqNumStart := Function.update manager.txSeqNumStart srcNodeId newStart
        txSeqNumPauseCount := Function.update manager.txSeqNumPauseCount srcNodeId 0 }
    if newStart = endSeq ∧ isMaster then
      match manager.activeTxNodes with
      | none => throw (.nullPointer .rxAckSeqNum)
      | some queue =>
          let queue ← nodeQueueRemove queue srcNodeId
          return (packetsFreed, { manager with activeTxNodes := some queue })
    return (packetsFreed, manager)
  else
    let pauseCount := manager.txSeqNumPauseCount srcNodeId
    if pauseCount > 0 then
      let manager :=
        { manager with
          txSeqNumPauseCount :=
            Function.update manager.txSeqNumPauseCount srcNodeId (pauseCount - 1) }
      if pauseCount - 1 = 0 then
        -- restart the window
        return (0,
          { manager with txSeqNumNext := Function.update manager.txSeqNumNext srcNodeId start })
      return (0, manager)
    return (0, manager)

/-- The number a receiver accepts next. -/
def expectedSeqNum (rxSeqNum : UInt8) : UInt8 :=
  if rxSeqNum = nullSequenceNum then 0 else incrSequenceNum rxSeqNum

def rxPacketCheckAndUpdateSeqNum (manager : TxManager) (srcNodeId : TNodeIndex)
    (packetTxSeqNum : UInt8) : Except Fault (Bool × TxManager) := do
  checkIndex manager.maxTxNodes srcNodeId .rxPacketCheckAndUpdateSeqNum
  if packetTxSeqNum = expectedSeqNum (manager.rxSeqNum srcNodeId) then
    return (true,
      { manager with rxSeqNum := Function.update manager.rxSeqNum srcNodeId packetTxSeqNum })
  return (false, manager)

def getNumInTxBuffer (manager : TxManager) (dstNodeId : TNodeIndex) : UInt8 :=
  manager.txSeqNumEnd dstNodeId - manager.txSeqNumStart dstNodeId

def masterTxClearBuffers (manager : TxManager) : TxManager :=
  let store := manager.packetStore
  let isFreed := fun i => i < store.maxEntries.toNat ∧ (store.entries i).inUse = true
  let numFreed := (List.range store.maxEntries.toNat).countP (fun i => isFreed i)
  { manager with
    packetStore :=
      { store with
        entries := fun i =>
          if isFreed i then { store.entries i with inUse := false } else store.entries i
        numFreed := store.numFreed + UInt32.ofNat numFreed } }

/-- The packet memory passed in keeps its bytes; only the `inUse` flags are cleared. -/
def initTxManager (maxTxNodes : Nat) (activeTxNodes : Option NodeQueue) (maxPacketEntries : UInt8)
    (packetEntries : Nat → PacketEntry) : TxManager where
  allocatedPacket := none
  packetStore :=
    { entries := fun i =>
        if i < maxPacketEntries.toNat then { packetEntries i with inUse := false }
        else packetEntries i
      maxEntries := maxPacketEntries
      numStored := 0
      numFreed := 0 }
  txSeqNumStart := fun _ => 0
  txSeqNumEnd := fun _ => 0
  txSeqNumNext := fun _ => 0
  txSeqNumPauseCount := fun _ => 0
  rxSeqNum := fun _ => nullSequenceNum
  maxTxNodes := maxTxNodes
  maxTxBufferLevel := 0
  txBufferLevel := 0
  activeTxNodes := activeTxNodes
  lastTxQueueIndex := 0
  lastTxQueueCount := 0

end Microbus
