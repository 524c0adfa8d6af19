import Microbus.NodeOps
import Microbus.MasterRun

/-! The runs of a node: slots, frames, the timer and the application in any order. -/
namespace Microbus

open Transition

inductive NodeAction : ChannelMode → Type
  | preProcess (frame : Packet) (crcError : Bool) : NodeAction .dual
  | postProcess : NodeAction .dual
  | isTxMode : NodeAction .single
  | processRx (frame : Packet) (crcError : Bool) : NodeAction .single
  | processTx : NodeAction .single
  | updateTimeUs {mode : ChannelMode} (usIncr : UInt32) : NodeAction mode
  | allocate {mode : ChannelMode} : NodeAction mode
  | write {mode : ChannelMode} (data : PacketData) : NodeAction mode
  | submit {mode : ChannelMode} (numBytes : UInt16) : NodeAction mode
  | peek {mode : ChannelMode} : NodeAction mode
  | pop {mode : ChannelMode} : NodeAction mode
  | reset {mode : ChannelMode} : NodeAction mode

def Node.step {mode : ChannelMode} (node : Node) : NodeAction mode → Except Fault Node
  | .preProcess frame crcError => do
      let (node, _) ← nodeDualChannelPipelinedPreProcess (node.receive frame) crcError
      return node
  | .postProcess => nodeDualChannelPipelinedPostProcess node
  | .isTxMode => do
      let (_, node) ← nodeIsTxMode node
      return node
  | .processRx frame crcError => nodeNoDelaySingleChannelProcessRx (node.receive frame) crcError
  | .processTx => do
      let (node, _) ← nodeNoDelaySingleChannelProcessTx node
      return node
  | .updateTimeUs usIncr => .ok (nodeUpdateTimeUs node usIncr)
  | .allocate => do
      let (_, node) ← nodeAllocateTxPacket node
      return node
  | .write data => .ok (nodeWriteAllocatedPacket node data)
  | .submit numBytes => nodeSubmitAllocatedTxPacket node numBytes
  | .peek => do
      let _ ← nodePeekNextRxDataPacket node
      return node
  | .pop => nodePopNextDataPacket node
  | .reset => nodeReset node

structure NodeConfig where
  mode : ChannelMode
  uniqueId : UInt64
  maxTxPacketEntries : UInt8
  maxRxPacketEntries : UInt8

/-- The packet memory may hold anything at the start. -/
def nodeSystem (cfg : NodeConfig) : System Node (NodeAction cfg.mode) Fault where
  init node := ∃ entries, nodeInit cfg.uniqueId cfg.maxTxPacketEntries entries cfg.maxRxPacketEntries = .ok node
  step := Node.step

/-- The frame that arrives makes a node that has an id leave the network. -/
def Node.resetBy (node : Node) (frame : Packet) (crcError : Bool) : Prop :=
  node.nodeId ≠ unallocatedNodeId ∧ nodeReadsFrame frame crcError ∧ frame.getPacketType = some .masterReset

/-- A node that has an id has not sent for too long. -/
def Node.timedOut (node : Node) : Prop :=
  node.nodeId ≠ unallocatedNodeId ∧ nodeNwHasNodeTimedOut node.timeToLive = true

instance (node : Node) (frame : Packet) (crcError : Bool) : Decidable (node.resetBy frame crcError) := by
  unfold Node.resetBy; infer_instance

instance (node : Node) : Decidable node.timedOut := by unfold Node.timedOut; infer_instance

/-- The action initialises the node anew. -/
def Node.resets {mode : ChannelMode} (node : Node) : NodeAction mode → Prop
  | .preProcess frame crcError => node.resetBy frame crcError
  | .postProcess => node.timedOut
  | .isTxMode => node.timedOut
  | .processRx frame crcError => node.resetBy frame crcError
  | .reset => True
  | _ => False

instance {mode : ChannelMode} (node : Node) (a : NodeAction mode) : Decidable (node.resets a) := by
  cases a <;> unfold Node.resets <;> infer_instance

/-- The node that a slot comes to when it works through the frame that was received. -/
inductive Node.Processes (node : Node) : {mode : ChannelMode} → NodeAction mode → Node → Prop
  | postProcess {n} : nodeCheckIfTimedOut node = .ok n → node.Processes .postProcess n
  | processRx {frame crcError n} : nodeQuickProcessPrevRx (node.receive frame) crcError = .ok n →
      node.Processes (.processRx frame crcError) n

section Actions

variable {node node' : Node}

theorem nodeCheckIfTimedOut_ok (h : nodeCheckIfTimedOut node = .ok node') :
    (¬ node.timedOut ∧ node' = node) ∨ (node.timedOut ∧ node'.Fresh ∧ node'.uniqueId = node.uniqueId) := by
  unfold nodeCheckIfTimedOut at h
  split at h
  · rename_i httl
    rcases nodeRemoveFromNetwork_ok h with ⟨hid, rfl⟩ | ⟨hid, hfresh, huid⟩
    · exact Or.inl ⟨fun hc => hc.1 hid, rfl⟩
    · exact Or.inr ⟨⟨hid, httl⟩, hfresh, huid⟩
  · rename_i httl
    cases h
    exact Or.inl ⟨fun hc => httl hc.2, rfl⟩

theorem nodePreProcess_ok (hinit : node.initialised = true) {crcError : Bool} {frame : Option Packet}
    (h : nodeDualChannelPipelinedPreProcess node crcError = .ok (node', frame)) :
    ∃ n, nodeQuickProcessPrevRx node crcError = .ok n ∧ (nodeUpdateSchedule n).SameReception node' ∧
      (frame ≠ none → (nodeUpdateSchedule n).currentTxNodeId = n.nodeId) := by
  unfold nodeDualChannelPipelinedPreProcess at h
  rw [if_neg (by rw [hinit]; decide)] at h
  obtain ⟨n, hquick, h⟩ := bind_eq_ok.mp h
  refine ⟨n, hquick, ?_⟩
  dsimp only at h
  split at h
  · rename_i hturn
    have hsame := nodeGetTxPacket_same (nodeUpdateSchedule n)
    rw [pure_eq_ok.mp h] at hsame
    exact ⟨hsame, fun _ => hturn.1⟩
  · cases h
    exact ⟨.refl _, fun hc => absurd rfl hc⟩

theorem nodePostProcess_ok (hinit : node.initialised = true)
    (h : nodeDualChannelPipelinedPostProcess node = .ok node') :
    ∃ n₁ n₂, nodeCheckIfTimedOut node = .ok n₁ ∧ nodeProcessRx n₁ = .ok n₂ ∧
      nodeProcessTx n₂ = .ok node' := by
  unfold nodeDualChannelPipelinedPostProcess at h
  rw [if_neg (by rw [hinit]; decide)] at h
  obtain ⟨n₁, h₁, h⟩ := bind_eq_ok.mp h
  obtain ⟨n₂, h₂, h⟩ := bind_eq_ok.mp h
  exact ⟨n₁, n₂, h₁, h₂, h⟩

theorem nodeIsTxMode_ok (hinit : node.initialised = true) {isTx : Bool} (h : nodeIsTxMode node = .ok (isTx, node')) :
    ∃ n, nodeCheckIfTimedOut node = .ok n ∧ isTx = (node.currentTxNodeId == node.nodeId) ∧
      node' = nodeUpdateSchedule n := by
  unfold nodeIsTxMode at h
  rw [if_neg (by rw [hinit]; decide)] at h
  obtain ⟨n, hn, h⟩ := bind_eq_ok.mp h
  cases h
  exact ⟨n, hn, rfl, rfl⟩

theorem nodeNoDelayProcessRx_ok (hinit : node.initialised = true) {crcError : Bool}
    (h : nodeNoDelaySingleChannelProcessRx node crcError = .ok node') :
    ∃ n, nodeQuickProcessPrevRx node crcError = .ok n ∧ nodeProcessRx n = .ok node' := by
  unfold nodeNoDelaySingleChannelProcessRx at h
  rw [if_neg (by rw [hinit]; decide)] at h
  exact bind_eq_ok.mp h

theorem nodeNoDelayProcessTx_ok (hinit : node.initialised = true) {frame : Option Packet}
    (h : nodeNoDelaySingleChannelProcessTx node = .ok (node', frame)) : node.SameReception node' := by
  unfold nodeNoDelaySingleChannelProcessTx at h
  rw [if_neg (by rw [hinit]; decide)] at h
  obtain ⟨n, hn, h⟩ := bind_eq_ok.mp h
  have hsame := nodeGetTxPacket_same n
  rw [pure_eq_ok.mp h] at hsame
  exact (nodeProcessTx_same hn).trans hsame

theorem nodeUpdateTimeUs_same (node : Node) (usIncr : UInt32) : node.SameReception (nodeUpdateTimeUs node usIncr) := by
  constructor <;> rfl

end Actions

def freshNode (uniqueId : UInt64) (entries : Nat → PacketEntry) : Node where
  initialised := true
  txManager := initTxManager 1 none 4 entries
  rxPacketManager := (rxManagerInit 4).setInUse 0 true
  uniqueId
  nodeId := unallocatedNodeId
  currentTxNodeId := 0
  nextTxNodeId := fun _ => 0
  timeToLive := 0
  sentNewNodeRequest := false
  nextNewNodeResponseCountdown := 0
  nextRxPacketEntry := 0
  prevRxPacketEntry := none
  nextTxPacket := some .tmpPacket
  savedRxAckValid := false
  savedRxAck := 0
  validRxSeqNum := false
  validRxPacket := false
  nodeLeftNw := 0
  nodeJoinedNw := 0
  tmpPacketCycle := 0
  tmpEmptyPacketHeader := fun _ => Packet.zero
  tmpPacket := Packet.zero
  seed := customSrand (uniqueId.toUInt32 ^^^ (uniqueId >>> 32).toUInt32)

def dualNodeConfig : NodeConfig := ⟨.dual, 7, 4, 4⟩

def singleNodeConfig : NodeConfig := ⟨.single, 7, 4, 4⟩

def blankNode : Node := freshNode 7 fun _ => ⟨false, Packet.zero⟩

theorem blankNode_init : (nodeSystem dualNodeConfig).init blankNode := ⟨_, rfl⟩

def nodeSlot (frame : Packet) : List (NodeAction .dual) := [.preProcess frame false, .postProcess]

def responseFrame : Packet :=
  txNewNodeResponse
    { networkManagerInit with newNodeUniqueId := fun _ => 7, newNodeId := fun _ => 1, numNewNodes := 1 } Packet.zero

def firstMasterFrame : Packet := fillHeader Packet.zero true masterNodeId 1 .masterData 1 0

/-- A frame without data for node 1 that is scheduled at position `i`, with an acknowledgement. -/
def scheduledFrame (i : Nat) (ackSeqNum : UInt8) : Packet :=
  { fillHeader Packet.zero true masterNodeId 1 .masterEmpty 0 0 with
    nextTxNodeId := fun j => if j.val = i then 1 else invalidNodeId
    nextTxNodeAckSeqNum := fun j => if j.val = i then ackSeqNum else 0 }

end Microbus
