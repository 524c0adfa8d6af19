import Microbus.Common

/-! `scheduler.c`: which node transmits in which slot. The three queues that the state
points to are passed beside it. -/
namespace Microbus

def maxMasterSlotsBetweenAcks : Nat := 4
def maxSlotsBetweenServicing : Nat := 6
def minSlotsBetweenUnallocated : Nat := 2
def numSlotsBeforeAllocationChanged : Nat := 128

/-- `eSchedulerTurn` -/
inductive SchedulerTurn
  | masterTx | masterRxAck | nodeTx
  deriving DecidableEq, Repr

/-- `MAX_TURN` -/
def maxTurn : Nat := 3

/-- `nextTurn++`, wrapped at `MAX_TURN`. -/
def SchedulerTurn.succ : SchedulerTurn → SchedulerTurn
  | .masterTx => .masterRxAck
  | .masterRxAck => .nodeTx
  | .nodeTx => .masterTx

/-- `tSchedulerState` -/
structure SchedulerState where
  numTxNodesScheduled : Nat
  maxSlotsBetweenUnallocated : Nat
  unallocatedSlotGapUpdateCount : Nat
  unallocatedSlotGap : Nat
  countTillNextAllocation : Nat
  countTillNextService : Nat
  nextTurn : SchedulerTurn
  recentScheduledNodes : Nat → TNodeIndex
  nodeTxBufferLevel : TNodeIndex → UInt8

structure SchedulerQueues where
  activeNodes : NodeQueue
  activeTxNodes : Option NodeQueue
  nodeTxNodes : NodeQueue

/-- `NEW_NODE_HEARD_UPDATE_SCHEDULER` -/
def newNodeHeardUpdateScheduler (scheduler : SchedulerState) : SchedulerState :=
  { scheduler with
    unallocatedSlotGap := minSlotsBetweenUnallocated
    countTillNextAllocation := minSlotsBetweenUnallocated }

def nodeRecentlySent (scheduler : SchedulerState) (node : TNodeIndex) : Bool :=
  (List.range (maxMasterSlotsBetweenAcks - 1)).any
    (fun i => node == scheduler.recentScheduledNodes i)

/-- The loop of `getNextMasterRxAckNode` with `fuel` nodes left to look at. -/
def masterRxAckLoop (scheduler : SchedulerState) :
    Nat → Nat → NodeQueue → Except Fault (TNodeIndex × NodeQueue)
  | 0, _, queue => .ok (invalidNodeId, queue)
  | fuel + 1, i, queue => do
      let (nodeId, queue) := getNextNodeInQueue queue
      if !nodeRecentlySent scheduler nodeId then
        return (nodeId, queue)
      microbusAssert (i < maxMasterSlotsBetweenAcks) .getNextMasterRxAckNode
      masterRxAckLoop scheduler fuel (i + 1) queue

def getNextMasterRxAckNode (scheduler : SchedulerState) (activeTxNodes : Option NodeQueue) :
    Except Fault (TNodeIndex × Option NodeQueue) :=
  match activeTxNodes with
  | none => .ok (invalidNodeId, none)
  | some queue => do
      let (nodeId, queue) ← masterRxAckLoop scheduler queue.numNodes 0 queue
      return (nodeId, some queue)

def getNextNodeTxNode (nodeTxNodes : NodeQueue) : TNodeIndex × NodeQueue :=
  if nodeTxNodes.numNodes > 0 then getNextNodeInQueue nodeTxNodes
  else (invalidNodeId, nodeTxNodes)

def getNextServiceNode (scheduler : SchedulerState) (activeNodes : NodeQueue)
    (avoidRecentlyScheduled : Bool) : TNodeIndex × SchedulerState × NodeQueue :=
  let scheduler := { scheduler with countTillNextService := maxSlotsBetweenServicing }
  if activeNodes.numNodes > 0 then
    let (nodeId, activeNodes) := getNextNodeInQueue activeNodes
    if avoidRecentlyScheduled then
      if !nodeRecentlySent scheduler nodeId then (nodeId, scheduler, activeNodes)
      else (invalidNodeId, scheduler, activeNodes)
    else (nodeId, scheduler, activeNodes)
  else (invalidNodeId, scheduler, activeNodes)

/-- The loop of `scheduleNextAllocatedNode` with `fuel` turns left to try. -/
def turnLoop (masterTxBufferLevel : Nat) :
    Nat → SchedulerState → SchedulerQueues → Except Fault (TNodeIndex × SchedulerState × SchedulerQueues)
  | 0, scheduler, queues =>
      -- no slot is needed for an acknowledgement or for data, so use it for servicing
      let (node, scheduler, activeNodes) := getNextServiceNode scheduler queues.activeNodes false
      .ok (node, scheduler, { queues with activeNodes })
  | fuel + 1, scheduler, queues => do
      let (node, queues) ← match scheduler.nextTurn with
        | .masterTx =>
            if scheduler.numTxNodesScheduled > 1 ∧ masterTxBufferLevel > 0 then
              pure (masterNodeId, queues)
            else pure (invalidNodeId, queues)
        | .masterRxAck => do
            let (node, activeTxNodes) ← getNextMasterRxAckNode scheduler queues.activeTxNodes
            pure (node, { queues with activeTxNodes })
        | .nodeTx =>
            let (node, nodeTxNodes) := getNextNodeTxNode queues.nodeTxNodes
            pure (node, { queues with nodeTxNodes })
      let scheduler := { scheduler with nextTurn := scheduler.nextTurn.succ }
      if node ≠ invalidNodeId then
        return (node, scheduler, queues)
      turnLoop masterTxBufferLevel fuel scheduler queues

def scheduleNextAllocatedNode (scheduler : SchedulerState) (queues : SchedulerQueues)
    (masterTxBufferLevel : Nat) : Except Fault (TNodeIndex × SchedulerState × SchedulerQueues) :=
  if scheduler.countTillNextService = 0 then
    let (node, scheduler, activeNodes) := getNextServiceNode scheduler queues.activeNodes true
    let queues := { queues with activeNodes }
    if node ≠ invalidNodeId then .ok (node, scheduler, queues)
    else turnLoop masterTxBufferLevel maxTurn scheduler queues
  else turnLoop masterTxBufferLevel maxTurn scheduler queues

/-- The branch of `scheduleNextNode` that schedules an unallocated slot. The counters are
8-bit. -/
def scheduleUnallocatedSlot (scheduler : SchedulerState) : SchedulerState :=
  let scheduler :=
    if scheduler.unallocatedSlotGap ≠ scheduler.maxSlotsBetweenUnallocated then
      let scheduler :=
        { scheduler with
          unallocatedSlotGapUpdateCount := (scheduler.unallocatedSlotGapUpdateCount + 1) % 256 }
      if scheduler.unallocatedSlotGapUpdateCount = numSlotsBeforeAllocationChanged then
        let gap := (scheduler.unallocatedSlotGap * 2) % 256
        { scheduler with
          unallocatedSlotGap :=
            if gap > scheduler.maxSlotsBetweenUnallocated then scheduler.maxSlotsBetweenUnallocated
            else gap }
      else scheduler
    else scheduler
  { scheduler with countTillNextAllocation := (scheduler.unallocatedSlotGap + 255) % 256 }

/-- Shift the scheduled nodes down by one and record the new one. -/
def recordScheduledNode (recent : Nat → TNodeIndex) (node : TNodeIndex) : Nat → TNodeIndex :=
  Function.update (fun i => if i < maxMasterSlotsBetweenAcks - 1 then recent (i + 1) else recent i)
    (maxMasterSlotsBetweenAcks - 1) node

def scheduleNextNode (scheduler : SchedulerState) (queues : SchedulerQueues)
    (masterTxBufferLevel : Nat) : Except Fault (TNodeIndex × SchedulerState × SchedulerQueues) := do
  if scheduler.countTillNextAllocation = 0 then
    return (unallocatedNodeId, scheduleUnallocatedSlot scheduler, queues)
  let (node, scheduler, queues) ← scheduleNextAllocatedNode scheduler queues masterTxBufferLevel
  microbusAssert (scheduler.countTillNextAllocation > 0) .scheduleNextNode
  microbusAssert (scheduler.countTillNextService > 0) .scheduleNextNode
  let scheduler :=
    { scheduler with
      countTillNextAllocation := scheduler.countTillNextAllocation - 1
      countTillNextService := scheduler.countTillNextService - 1
      recentScheduledNodes := recordScheduledNode scheduler.recentScheduledNodes node }
  let node := if node = invalidNodeId then unallocatedNodeId else node
  return (node, scheduler, queues)

def shiftSchedule : Nat → Nat → (Nat → TNodeIndex) → Nat → Bool → (Nat → TNodeIndex) × Nat × Bool
  | 0, _, nodesToTx, level, oneMasterTx => (nodesToTx, level, oneMasterTx)
  | fuel + 1, i, nodesToTx, level, oneMasterTx =>
      let nodesToTx := Function.update nodesToTx i (nodesToTx (i + 1))
      if nodesToTx i = masterNodeId then shiftSchedule fuel (i + 1) nodesToTx (level - 1) true
      else shiftSchedule fuel (i + 1) nodesToTx level oneMasterTx

def schedulerUpdateAndCalcNextTxNodes (scheduler : SchedulerState) (queues : SchedulerQueues)
    (nodesToTx : Nat → TNodeIndex) (masterTxBufferLevel : Nat) :
    Except Fault ((Nat → TNodeIndex) × SchedulerState × SchedulerQueues) := do
  if scheduler.numTxNodesScheduled = 1 then
    let (node, scheduler, queues) ← scheduleNextNode scheduler queues 0
    return (Function.update nodesToTx 0 node, scheduler, queues)
  let last := scheduler.numTxNodesScheduled - 1
  let (nodesToTx, level, oneMasterTx) := shiftSchedule last 0 nodesToTx masterTxBufferLevel false
  if oneMasterTx then
    let (node, scheduler, queues) ← scheduleNextNode scheduler queues level
    return (Function.update nodesToTx last node, scheduler, queues)
  -- the master has to be scheduled so that the next schedule gets sent out
  return (Function.update nodesToTx last masterNodeId, scheduler, queues)

def schedulerUpdateNodeTxBufferLevel (scheduler : SchedulerState) (nodeTxNodes : NodeQueue)
    (srcNodeId : TNodeIndex) (bufferLevel : UInt8) : Except Fault (SchedulerState × NodeQueue) := do
  checkIndex maxNodes srcNodeId .schedulerUpdateNodeTxBufferLevel
  let level := scheduler.nodeTxBufferLevel srcNodeId
  let nodeTxNodes ←
    if level = 0 ∧ bufferLevel > 0 then nodeQueueAdd nodeTxNodes srcNodeId
    else if level > 0 ∧ bufferLevel = 0 then nodeQueueRemove nodeTxNodes srcNodeId
    else pure nodeTxNodes
  return ({ scheduler with
    nodeTxBufferLevel := Function.update scheduler.nodeTxBufferLevel srcNodeId bufferLevel }, nodeTxNodes)

def schedulerInit (numTxNodesScheduled maxSlotsBetweenUnallocated : UInt8) : SchedulerState where
  numTxNodesScheduled := numTxNodesScheduled.toNat
  maxSlotsBetweenUnallocated := maxSlotsBetweenUnallocated.toNat
  unallocatedSlotGapUpdateCount := 0
  unallocatedSlotGap := minSlotsBetweenUnallocated
  countTillNextAllocation := minSlotsBetweenUnallocated
  countTillNextService := 0
  nextTurn := .masterTx
  recentScheduledNodes := fun _ => 0
  nodeTxBufferLevel := fun _ => 0

end Microbus
