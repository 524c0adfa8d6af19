import Microbus.Common

/-! `networkManager.c`: how nodes join and how long they stay. The counters of the
statistics record are left out, except the join count that a node keeps. -/
namespace Microbus

def nodeTimeoutUs : Nat := 2 * 2 * 6 * maxNodes * slotTimeUs
def masterTimeoutUs : Nat := nodeTimeoutUs + 100 * slotTimeUs
def masterMaxTimeToLive : Nat := 128
def timeToLiveUpdateTimeUs : Nat := masterTimeoutUs / masterMaxTimeToLive
def maxNewNodeBackoff : Nat := maxNodes / 2
def maxNodesAllocatedAtOnce : Nat := 10
def removeNodeTTL : Nat := 0xFF
def newNodeResponseEntrySize : Nat := 9

abbrev TimeToLive := TNodeIndex → Nat

/-- `tNetworkManager`, with the queue its pointer `activeNodes` refers to. -/
structure NetworkManager where
  newNodeUniqueId : Nat → UInt64
  newNodeId : Nat → TNodeIndex
  numNewNodes : Nat
  activeNodes : NodeQueue
  timeToLiveTimeUs : Nat

/-- `*timeToLive = NODE_TIMEOUT_US` -/
def nodeNwRecordTxPacketSent : Int := nodeTimeoutUs

/-- `int32_t -= uint32_t`, which wraps. -/
def nodeNwUpdateTimeUs (timeToLive : Int) (usIncr : UInt32) : Int :=
  if timeToLive > 0 then (timeToLive - usIncr.toNat).bmod (2 ^ 32) else timeToLive

def nodeNwHasNodeTimedOut (timeToLive : Int) : Bool := timeToLive ≤ 0

def getNextFreeNodeId (masterNodeTimeToLive : TimeToLive) : TNodeIndex :=
  match (List.range' firstNodeId (maxNodes - firstNodeId)).find?
      (fun nodeId => masterNodeTimeToLive (UInt8.ofNat nodeId) == 0) with
  | some nodeId => UInt8.ofNat nodeId
  | none => invalidNodeId

def networkManagerRegisterNewNode (nwManager : NetworkManager) (masterNodeTimeToLive : TimeToLive)
    (uniqueId : UInt64) : Except Fault (NetworkManager × TimeToLive) := do
  microbusAssert (uniqueId ≠ 0) .networkManagerRegisterNewNode
  if nwManager.numNewNodes = maxNodesAllocatedAtOnce then
    return (nwManager, masterNodeTimeToLive)
  if (List.range nwManager.numNewNodes).any (fun i => nwManager.newNodeUniqueId i == uniqueId) then
    return (nwManager, masterNodeTimeToLive)
  let nodeId := getNextFreeNodeId masterNodeTimeToLive
  if nodeId = invalidNodeId then
    return (nwManager, masterNodeTimeToLive)
  let index := nwManager.numNewNodes
  let activeNodes ← nodeQueueAdd nwManager.activeNodes nodeId
  return ({ nwManager with
      newNodeUniqueId := Function.update nwManager.newNodeUniqueId index uniqueId
      newNodeId := Function.update nwManager.newNodeId index nodeId
      numNewNodes := index + 1
      activeNodes },
    Function.update masterNodeTimeToLive nodeId masterMaxTimeToLive)

/-- The loop that closes the gap at index `i` of the table of new nodes. -/
def shiftNewNodes (i numNewNodes : Nat) (nwManager : NetworkManager) : NetworkManager :=
  (List.range' i (numNewNodes - 1 - i)).foldl
    (fun nw j =>
      { nw with
        newNodeUniqueId := Function.update nw.newNodeUniqueId j (nw.newNodeUniqueId (j + 1))
        newNodeId := Function.update nw.newNodeId j (nw.newNodeId (j + 1)) }) nwManager

def networkManagerRemoveNewNodeRequest (nwManager : NetworkManager) (rxNodeId : TNodeIndex) :
    Except Fault (Bool × NetworkManager) := do
  match (List.range nwManager.numNewNodes).find? (fun i => nwManager.newNodeId i == rxNodeId) with
  | none => return (false, nwManager)
  | some i =>
      microbusAssert (nwManager.newNodeUniqueId i > 0) .networkManagerRemoveNewNodeRequest
      return (true,
        { shiftNewNodes i nwManager.numNewNodes nwManager with
          numNewNodes := nwManager.numNewNodes - 1 })

def networkManagerRecordRxPacket (nwManager : NetworkManager) (masterNodeTimeToLive : TimeToLive)
    (rxNodeId : TNodeIndex) : Except Fault (NetworkManager × TimeToLive) := do
  microbusAssert (rxNodeId.toNat < maxNodes) .networkManagerRecordRxPacket
  let (_, nwManager) ← networkManagerRemoveNewNodeRequest nwManager rxNodeId
  return (nwManager, Function.update masterNodeTimeToLive rxNodeId masterMaxTimeToLive)

def decrementTimeToLive (ttl : Nat) : Nat :=
  if ttl > 0 ∧ ttl ≠ removeNodeTTL then
    if ttl - 1 = 0 then removeNodeTTL else ttl - 1
  else ttl

def networkManagerUpdateTimeUs (nwManager : NetworkManager) (masterNodeTimeToLive : TimeToLive)
    (usIncr : UInt32) : NetworkManager × TimeToLive :=
  let timeToLiveTimeUs := (nwManager.timeToLiveTimeUs + usIncr.toNat) % 2 ^ 32
  if timeToLiveTimeUs ≥ timeToLiveUpdateTimeUs then
    ({ nwManager with timeToLiveTimeUs := timeToLiveTimeUs - timeToLiveUpdateTimeUs },
      fun nodeId =>
        if firstNodeId ≤ nodeId.toNat ∧ nodeId.toNat < maxNodes then
          decrementTimeToLive (masterNodeTimeToLive nodeId)
        else masterNodeTimeToLive nodeId)
  else
    ({ nwManager with timeToLiveTimeUs }, masterNodeTimeToLive)

def Packet.setData (p : Packet) (i : Nat) (v : UInt8) : Packet :=
  { p with data := fun j => if j.val = i then v else p.data j }

/-- Byte `i` of a `uint64_t` in memory, least significant first. -/
def uniqueIdByte (uniqueId : UInt64) (i : Nat) : UInt8 := UInt8.ofNat (uniqueId.toNat / 256 ^ i)

/-- `memcpy` of a `uint64_t` to the data field at `offset`. -/
def Packet.setUniqueId (p : Packet) (offset : Nat) (uniqueId : UInt64) : Packet :=
  { p with
    data := fun j =>
      if offset ≤ j.val ∧ j.val < offset + 8 then uniqueIdByte uniqueId (j.val - offset)
      else p.data j }

def Packet.readData (p : Packet) (i : Nat) (s : Site) : Except Fault UInt8 :=
  if h : i < masterPacketDataSize then .ok (p.data ⟨i, h⟩) else .error (.outOfBounds s)

/-- The `uint64_t` whose bytes in memory are `bytes`. -/
def uniqueIdOfBytes (bytes : List UInt8) : UInt64 :=
  UInt64.ofNat (bytes.foldr (fun b acc => b.toNat + 256 * acc) 0)

/-- `memcpy` of a `uint64_t` from the data field at `offset`. -/
def Packet.getUniqueId (p : Packet) (offset : Nat) (s : Site) : Except Fault UInt64 := do
  let bytes ← (List.range 8).mapM (fun i => p.readData (offset + i) s)
  return uniqueIdOfBytes bytes

def txNewNodeRequest (packet : Packet) (uniqueId : UInt64) : Packet :=
  let packet := packet.setProtocolVersionAndPacketType .newNodeRequest
  let packet := packet.setSrcNodeId unallocatedNodeId
  { packet with dataSize1 := 0, dataSize2 := 9 }.setUniqueId 0 uniqueId

def rxNewNodePacketRequest (nwManager : NetworkManager) (masterNodeTimeToLive : TimeToLive)
    (packet : Packet) : Except Fault (NetworkManager × TimeToLive) := do
  microbusAssert (packet.dataSize2 = 9) .rxNewNodePacketRequest
  let uniqueId ← packet.getUniqueId 0 .rxNewNodePacketRequest
  networkManagerRegisterNewNode nwManager masterNodeTimeToLive uniqueId

/-- The loop of `txNewNodeResponse` over the table from index `i`; `num` entries are
written so far. -/
def newNodeResponseLoop (nwManager : NetworkManager) (maxNum : Nat) :
    Nat → Nat → Nat → Packet → Nat × Packet
  | 0, _, num, packet => (num, packet)
  | fuel + 1, i, num, packet =>
      if nwManager.newNodeUniqueId i > 0 then
        let packet := packet.setUniqueId (num * newNodeResponseEntrySize) (nwManager.newNodeUniqueId i)
        let packet := packet.setData (8 + num * newNodeResponseEntrySize) (nwManager.newNodeId i)
        if num + 1 = maxNum then (num + 1, packet)
        else newNodeResponseLoop nwManager maxNum fuel (i + 1) (num + 1) packet
      else newNodeResponseLoop nwManager maxNum fuel (i + 1) num packet

def txNewNodeResponse (nwManager : NetworkManager) (packet : Packet) : Packet :=
  let packet := packet.setProtocolVersionAndPacketType .newNodeResponse
  let packet := { packet with dstNodeId := unallocatedNodeId }
  let maxNum := min nwManager.numNewNodes (masterPacketDataSize / newNodeResponseEntrySize)
  let (num, packet) := newNodeResponseLoop nwManager maxNum maxNodesAllocatedAtOnce 0 0 packet
  packet.setPacketDataSize (UInt16.ofNat (num * newNodeResponseEntrySize))

/-- What `rxNewNodePacketResponse` writes through its pointers. -/
structure NodeMembership where
  nodeId : TNodeIndex
  timeToLive : Int
  nodeJoinedNw : Nat

/-- The loop of `rxNewNodePacketResponse` with `fuel` entries left. -/
def newNodeResponseSearch (packet : Packet) (uniqueId : UInt64) :
    Nat → Nat → NodeMembership → Except Fault NodeMembership
  | 0, _, node => .ok node
  | fuel + 1, i, node => do
      let rxUniqueId ← packet.getUniqueId (i * newNodeResponseEntrySize) .rxNewNodePacketResponse
      let tmpNodeId ← packet.readData (i * newNodeResponseEntrySize + 8) .rxNewNodePacketResponse
      if rxUniqueId = uniqueId then
        return {
          nodeId := tmpNodeId
          timeToLive := nodeTimeoutUs
          nodeJoinedNw := node.nodeJoinedNw + 1 }
      newNodeResponseSearch packet uniqueId fuel (i + 1) node

def rxNewNodePacketResponse (packet : Packet) (uniqueId : UInt64) (node : NodeMembership) :
    Except Fault NodeMembership :=
  let numEntries := (packet.getPacketDataSize / newNodeResponseEntrySize) % 256
  newNodeResponseSearch packet uniqueId numEntries 0 node

def networkManagerInit : NetworkManager where
  newNodeUniqueId := fun _ => 0
  newNodeId := fun _ => 0
  numNewNodes := 0
  activeNodes := NodeQueue.empty
  timeToLiveTimeUs := 0

end Microbus
