import Microbus.Arrival

/-! What each part of a slot of a node does. -/
namespace Microbus

open Transition

/-- A node that has just been initialised. -/
structure Node.Fresh (node : Node) : Prop where
  initialised : node.initialised = true
  nodeId : node.nodeId = unallocatedNodeId
  currentTxNodeId : node.currentTxNodeId = 0
  nextTxNodeId : node.nextTxNodeId = fun _ => 0
  timeToLive : node.timeToLive = 0
  sentNewNodeRequest : node.sentNewNodeRequest = false
  prevRxPacketEntry : node.prevRxPacketEntry = none
  savedRxAckValid : node.savedRxAckValid = false
  validRxPacket : node.validRxPacket = false
  tx : ∃ maxEntries entries, node.txManager = initTxManager 1 none maxEntries entries
  rx : ∃ maxEntries : UInt8, maxEntries > 2 ∧
    findFreeRxPacket (rxManagerInit maxEntries) = some (node.nextRxPacketEntry, node.rxPacketManager)

theorem nodeInit_ok {uniqueId : UInt64} {maxTx maxRx : UInt8} {entries : Nat → PacketEntry} {node : Node}
    (h : nodeInit uniqueId maxTx entries maxRx = .ok node) : node.Fresh ∧ node.uniqueId = uniqueId := by
  obtain ⟨_, hmax, h⟩ := bind_eq_ok.mp h
  split at h
  · cases h
  · rename_i next rpm hfind
    cases h
    refine ⟨?_, rfl⟩
    constructor
    case tx => exact ⟨_, _, rfl⟩
    case rx => exact ⟨_, microbusAssert_ok.mp hmax, hfind⟩
    all_goals rfl

theorem nodeReset_ok {node node' : Node} (h : nodeReset node = .ok node') :
    node'.Fresh ∧ node'.uniqueId = node.uniqueId :=
  nodeInit_ok h

theorem nodeRemoveFromNetwork_ok {node node' : Node} (h : nodeRemoveFromNetwork node = .ok node') :
    (node.nodeId = unallocatedNodeId ∧ node' = node) ∨
      (node.nodeId ≠ unallocatedNodeId ∧ node'.Fresh ∧ node'.uniqueId = node.uniqueId) := by
  unfold nodeRemoveFromNetwork at h
  split at h
  · rename_i hid
    obtain ⟨fresh, hreset, h⟩ := bind_eq_ok.mp h
    cases h
    obtain ⟨hfresh, huid⟩ := nodeReset_ok hreset
    exact Or.inr ⟨hid, { hfresh with }, huid⟩
  · rename_i hid
    cases h
    exact Or.inl ⟨not_not.mp hid, rfl⟩

/-- The frames that a node reads. -/
def nodeReadsFrame (rxPacket : Packet) (rxCrcError : Bool) : Prop :=
  rxCrcError = false ∧ ¬ rxPacket.isIdle ∧ rxPacket.getProtocolVersion = microbusVersion

instance (p : Packet) (e : Bool) : Decidable (nodeReadsFrame p e) := by unfold nodeReadsFrame; infer_instance

/-- The node once it has turned to the frame that arrived last. -/
def Node.opened (node : Node) : Node :=
  { node with
    prevRxPacketEntry := some node.nextRxPacketEntry
    validRxPacket := false
    savedRxAckValid := false }

/-- What the quick part makes of `frame`, which arrived last. A frame that is kept waits for
`nodeProcessRx` and another buffer takes the next one; a data frame in order moves the sequence
number of the master. -/
inductive NodeQuickRxResult (node : Node) (frame : Packet) (rxCrcError : Bool) : Node → Prop
  | unread : ¬ nodeReadsFrame frame rxCrcError → NodeQuickRxResult node frame rxCrcError node.opened
  | reset {node'} : nodeReadsFrame frame rxCrcError → frame.getPacketType = some .masterReset →
      nodeRemoveFromNetwork node.opened = .ok node' → NodeQuickRxResult node frame rxCrcError node'
  | dropped : nodeReadsFrame frame rxCrcError → frame.getPacketType ≠ some .masterReset →
      (frame.dstNodeId = node.nodeId → findFreeRxPacket node.rxPacketManager = none) →
      NodeQuickRxResult node frame rxCrcError (nodeRecordSchedule node.opened frame)
  | kept {free rxPacketManager validRxSeqNum} : nodeReadsFrame frame rxCrcError →
      frame.getPacketType ≠ some .masterReset → frame.dstNodeId = node.nodeId →
      findFreeRxPacket node.rxPacketManager = some (free, rxPacketManager) →
      (node.nodeId ≠ unallocatedNodeId → frame.getPacketType = some .masterData → validRxSeqNum = false ∧
        frame.txSeqNum ≠ expectedSeqNum (node.txManager.rxSeqNum masterNodeId)) →
      NodeQuickRxResult node frame rxCrcError
        { nodeRecordSchedule node.opened frame with
          validRxPacket := true
          rxPacketManager
          nextRxPacketEntry := free
          validRxSeqNum }
  | inOrder {free rxPacketManager} : nodeReadsFrame frame rxCrcError → frame.dstNodeId = node.nodeId →
      findFreeRxPacket node.rxPacketManager = some (free, rxPacketManager) → node.nodeId ≠ unallocatedNodeId →
      frame.getPacketType = some .masterData →
      frame.txSeqNum = expectedSeqNum (node.txManager.rxSeqNum masterNodeId) →
      NodeQuickRxResult node frame rxCrcError
        { nodeRecordSchedule node.opened frame with
          validRxPacket := true
          rxPacketManager
          nextRxPacketEntry := free
          validRxSeqNum := true
          txManager := node.txManager.withRxSeqNum
            (Function.update node.txManager.rxSeqNum masterNodeId frame.txSeqNum) }

theorem nodeQuickAccept_ok {node node' : Node} {frame : Packet} (hvalid : node.validRxPacket = false)
    (h : nodeQuickAccept node frame = .ok node') :
    (findFreeRxPacket node.rxPacketManager = none ∧ node' = node) ∨
      ∃ free rxPacketManager, findFreeRxPacket node.rxPacketManager = some (free, rxPacketManager) ∧
        ((∃ validRxSeqNum, (node.nodeId ≠ unallocatedNodeId → frame.getPacketType = some .masterData →
            validRxSeqNum = false ∧ frame.txSeqNum ≠ expectedSeqNum (node.txManager.rxSeqNum masterNodeId)) ∧
          node' = { node with
            validRxPacket := true, rxPacketManager, nextRxPacketEntry := free, validRxSeqNum }) ∨
        (node.nodeId ≠ unallocatedNodeId ∧ frame.getPacketType = some .masterData ∧
          frame.txSeqNum = expectedSeqNum (node.txManager.rxSeqNum masterNodeId) ∧
          node' = { node with
            validRxPacket := true
            rxPacketManager
            nextRxPacketEntry := free
            validRxSeqNum := true
            txManager := node.txManager.withRxSeqNum
              (Function.update node.txManager.rxSeqNum masterNodeId frame.txSeqNum) })) := by
  unfold nodeQuickAccept at h
  split at h
  · rename_i hfind
    cases h
    exact Or.inl ⟨hfind, by cases node; cases hvalid; rfl⟩
  · rename_i free rpm hfind
    refine Or.inr ⟨free, rpm, hfind, ?_⟩
    dsimp only at h
    split at h
    · rename_i hdata
      obtain ⟨⟨taken, m⟩, hcheck, h⟩ := bind_eq_ok.mp h
      cases h
      unfold rxPacketCheckAndUpdateSeqNum at hcheck
      obtain ⟨_, -, hcheck⟩ := bind_eq_ok.mp hcheck
      split at hcheck
      · rename_i hseq
        cases hcheck
        exact Or.inr ⟨hdata.1, hdata.2, hseq, rfl⟩
      · rename_i hseq
        cases hcheck
        exact Or.inl ⟨false, fun _ _ => ⟨rfl, hseq⟩, rfl⟩
    · rename_i hdata
      cases h
      exact Or.inl ⟨true, fun hid hmaster => absurd ⟨hid, hmaster⟩ hdata, rfl⟩

theorem nodeQuickProcessPrevRx_ok {node node' : Node} {rxCrcError : Bool} (hinit : node.initialised = true)
    (h : nodeQuickProcessPrevRx node rxCrcError = .ok node') :
    NodeQuickRxResult node (node.packetAt node.nextRxPacketEntry) rxCrcError node' := by
  unfold nodeQuickProcessPrevRx at h
  rw [if_neg (by rw [hinit]; decide)] at h
  generalize node.packetAt node.nextRxPacketEntry = frame at h ⊢
  dsimp only at h
  split at h
  · rename_i hunread
    cases h
    refine .unread ?_
    rintro ⟨hcrc, hidle, hversion⟩
    rcases hunread with hc | hc | hc
    · exact Bool.false_ne_true (hcrc.symm.trans hc)
    · exact hidle hc
    · exact hc hversion
  · rename_i hread
    have hreads : nodeReadsFrame frame rxCrcError := by
      simp only [not_or, Bool.not_eq_true, not_not] at hread
      exact ⟨hread.1, hread.2.1, hread.2.2⟩
    split at h
    · rename_i htype
      exact .reset hreads htype h
    · rename_i htype
      change (if frame.dstNodeId ≠ (nodeRecordSchedule node.opened frame).nodeId then
        pure (nodeRecordSchedule node.opened frame)
        else nodeQuickAccept (nodeRecordSchedule node.opened frame) frame) = .ok node' at h
      rw [nodeRecordSchedule_nodeId] at h
      split at h
      · rename_i hdst
        cases h
        exact .dropped hreads htype (fun hc => absurd hc hdst)
      · rename_i hdst
        have hvalid : (nodeRecordSchedule node.opened frame).validRxPacket = false := by
          obtain ⟨_, _, heq⟩ := nodeRecordSchedule_eq node.opened frame
          rw [heq]
          rfl
        have hid : (nodeRecordSchedule node.opened frame).nodeId = node.nodeId := nodeRecordSchedule_nodeId _ _
        have hrpm : (nodeRecordSchedule node.opened frame).rxPacketManager = node.rxPacketManager :=
          nodeRecordSchedule_rxPacketManager _ _
        have htx : (nodeRecordSchedule node.opened frame).txManager = node.txManager :=
          nodeRecordSchedule_txManager _ _
        rcases nodeQuickAccept_ok hvalid h with
          ⟨hfind, rfl⟩ | ⟨free, rpm, hfind, ⟨valid, hseq, rfl⟩ | ⟨hjoined, hdata, hseq, rfl⟩⟩
        · exact .dropped hreads htype (fun _ => hrpm ▸ hfind)
        · rw [hid, htx] at hseq
          exact .kept hreads htype (not_not.mp hdst) (hrpm ▸ hfind) hseq
        · rw [htx] at hseq ⊢
          exact .inOrder hreads (not_not.mp hdst) (hrpm ▸ hfind) (hid ▸ hjoined) hdata hseq

/-- What the long part does with the frame of entry `e`: it queues the data of a frame in order, or
joins the network. A frame that is not queued is freed. -/
inductive NodeRxDataResult (node : Node) (e : Nat) : Node → Prop
  | freed : (node.nodeId ≠ unallocatedNodeId → (node.packetAt e).dstNodeId = node.nodeId →
        (node.packetAt e).getPacketType = some .masterData →
        0 < (node.packetAt e).getPacketDataSize ∧ node.validRxSeqNum = false) →
      NodeRxDataResult node e { node with rxPacketManager := node.rxPacketManager.setInUse e false }
  | joined {m} : node.nodeId = unallocatedNodeId → (node.packetAt e).getPacketType = some .newNodeResponse →
      node.sentNewNodeRequest = true →
      rxNewNodePacketResponse (node.packetAt e) node.uniqueId ⟨node.nodeId, node.timeToLive, node.nodeJoinedNw⟩ =
        .ok m →
      NodeRxDataResult node e
        { node with
          rxPacketManager := node.rxPacketManager.setInUse e false
          nodeId := m.nodeId
          timeToLive := m.timeToLive
          nodeJoinedNw := m.nodeJoinedNw }
  | stored {rxPacketManager} : node.nodeId ≠ unallocatedNodeId → (node.packetAt e).dstNodeId = node.nodeId →
      (node.packetAt e).getPacketType = some .masterData → 0 < (node.packetAt e).getPacketDataSize →
      node.validRxSeqNum = true → addRxDataPacket node.rxPacketManager e = .ok rxPacketManager →
      NodeRxDataResult node e { node with rxPacketManager }

theorem nodeProcessRxData_ok {node node' : Node} {e : Nat} (h : nodeProcessRxData node e = .ok node') :
    NodeRxDataResult node e node' := by
  unfold nodeProcessRxData at h
  dsimp only at h
  split at h
  · rename_i hid
    split at h
    · rename_i hresponse
      obtain ⟨m, hm, h⟩ := bind_eq_ok.mp h
      cases h
      exact .joined hid hresponse.1 hresponse.2 hm
    · cases h
      exact .freed (fun hc => absurd hid hc)
  · rename_i hid
    split at h
    · rename_i hdata
      obtain ⟨_, hsize, h⟩ := bind_eq_ok.mp h
      have hpos := (Packet.dataSize_pos_iff _).mp (microbusAssert_ok.mp hsize)
      split at h
      · rename_i hseq
        obtain ⟨rpm, hadd, h⟩ := bind_eq_ok.mp h
        cases h
        exact .stored hid hdata.1 hdata.2 hpos hseq hadd
      · rename_i hseq
        cases h
        exact .freed (fun _ _ _ => ⟨hpos, Bool.not_eq_true _ ▸ hseq⟩)
    · rename_i hdata
      cases h
      exact .freed (fun _ hdst hmaster => absurd ⟨hdst, hmaster⟩ hdata)

/-- What `nodeProcessRx` does once the acknowledgement is dealt with. -/
def nodeProcessRxFrame (node : Node) : Except Fault Node :=
  if node.validRxPacket = true then
    match node.prevRxPacketEntry with
    | some e => nodeProcessRxData node e
    | _ => throw (.nullPointer .nodeProcessRxData)
  else pure node

theorem nodeProcessRxFrame_ok {node node' : Node} (h : nodeProcessRxFrame node = .ok node') :
    (node.validRxPacket = false ∧ node' = node) ∨ ∃ e, node.validRxPacket = true ∧
    node.prevRxPacketEntry = some e ∧
      NodeRxDataResult node e node' := by
  unfold nodeProcessRxFrame at h
  split at h
  · rename_i hvalid
    split at h
    · rename_i e he
      exact Or.inr ⟨e, hvalid, he, nodeProcessRxData_ok h⟩
    · cases h
  · rename_i hvalid
    cases h
    exact Or.inl ⟨Bool.not_eq_true _ ▸ hvalid, rfl⟩

theorem nodeProcessRx_ok {node node' : Node} (h : nodeProcessRx node = .ok node') :
    ∃ txManager, ((node.savedRxAckValid = false ∧ txManager = node.txManager) ∨
      ∃ k, node.savedRxAckValid = true ∧
        rxAckSeqNum node.txManager masterNodeId node.savedRxAck false = .ok (k, txManager)) ∧
      ((node.validRxPacket = false ∧ node' = { node with txManager }) ∨ ∃ e, node.validRxPacket = true ∧
        node.prevRxPacketEntry = some e ∧ NodeRxDataResult { node with txManager } e node') := by
  unfold nodeProcessRx at h
  split at h
  · rename_i hack
    obtain ⟨⟨k, m⟩, hm, h⟩ := bind_eq_ok.mp h
    exact ⟨m, Or.inr ⟨k, hack, hm⟩, nodeProcessRxFrame_ok h⟩
  · rename_i hack
    exact ⟨node.txManager, Or.inl ⟨Bool.not_eq_true _ ▸ hack, rfl⟩, nodeProcessRxFrame_ok h⟩

/-- The sending side, the back-off and the time to live may differ. -/
structure Node.SameReception (node node' : Node) : Prop where
  initialised : node'.initialised = node.initialised
  uniqueId : node'.uniqueId = node.uniqueId
  nodeId : node'.nodeId = node.nodeId
  currentTxNodeId : node'.currentTxNodeId = node.currentTxNodeId
  nextTxNodeId : node'.nextTxNodeId = node.nextTxNodeId
  rxPacketManager : node'.rxPacketManager = node.rxPacketManager
  nextRxPacketEntry : node'.nextRxPacketEntry = node.nextRxPacketEntry
  prevRxPacketEntry : node'.prevRxPacketEntry = node.prevRxPacketEntry
  savedRxAckValid : node'.savedRxAckValid = node.savedRxAckValid
  savedRxAck : node'.savedRxAck = node.savedRxAck
  validRxSeqNum : node'.validRxSeqNum = node.validRxSeqNum
  validRxPacket : node'.validRxPacket = node.validRxPacket
  rxSeqNum : node'.txManager.rxSeqNum = node.txManager.rxSeqNum

namespace Node.SameReception

variable {node node' node'' : Node}

theorem refl (node : Node) : node.SameReception node := by constructor <;> rfl

theorem trans (h : node.SameReception node') (h' : node'.SameReception node'') : node.SameReception node'' := by
  constructor
  · exact h'.initialised.trans h.initialised
  · exact h'.uniqueId.trans h.uniqueId
  · exact h'.nodeId.trans h.nodeId
  · exact h'.currentTxNodeId.trans h.currentTxNodeId
  · exact h'.nextTxNodeId.trans h.nextTxNodeId
  · exact h'.rxPacketManager.trans h.rxPacketManager
  · exact h'.nextRxPacketEntry.trans h.nextRxPacketEntry
  · exact h'.prevRxPacketEntry.trans h.prevRxPacketEntry
  · exact h'.savedRxAckValid.trans h.savedRxAckValid
  · exact h'.savedRxAck.trans h.savedRxAck
  · exact h'.validRxSeqNum.trans h.validRxSeqNum
  · exact h'.validRxPacket.trans h.validRxPacket
  · exact h'.rxSeqNum.trans h.rxSeqNum

theorem withTxManager {m : TxManager} (h : m.rxSeqNum = node.txManager.rxSeqNum) :
    node.SameReception { node with txManager := m } := by
  constructor
  case rxSeqNum => exact h
  all_goals rfl

theorem assign (node : Node) (r : TxRef) (p : Packet) : node.SameReception (node.assign r p) := by
  cases r <;> constructor <;> rfl

end Node.SameReception

theorem nodeProcessTx_same {node node' : Node} (h : nodeProcessTx node = .ok node') : node.SameReception node' := by
  unfold nodeProcessTx at h
  split at h
  · cases h
    exact .refl node
  · split at h
    · obtain ⟨⟨r, m⟩, hget, h⟩ := bind_eq_ok.mp h
      have hm := Node.SameReception.withTxManager (nodeGetNext_rxSeqNum hget)
      cases r with
      | none =>
          cases h
          refine hm.trans ?_
          constructor <;> rfl
      | some i =>
          cases h
          refine hm.trans ?_
          constructor <;> rfl
    · cases h
      unfold nodeProcessTxUnallocated
      split <;> constructor <;> rfl

theorem nodeSendTxPacket_same (node : Node) : node.SameReception (nodeSendTxPacket node).1 := by
  have hack : node.SameReception (nodeQuickUpdateTxPacket node) := by
    unfold nodeQuickUpdateTxPacket
    split
    · exact .refl node
    · exact .assign node _ _
  unfold nodeSendTxPacket
  refine hack.trans ?_
  constructor <;> rfl

theorem nodeGetTxPacket_same (node : Node) : node.SameReception (nodeGetTxPacket node).1 := by
  unfold nodeGetTxPacket
  split
  · exact .refl node
  · split
    · split
      · refine Node.SameReception.trans ?_ (nodeSendTxPacket_same _)
        constructor <;> rfl
      · constructor <;> rfl
    · exact nodeSendTxPacket_same node

theorem nodeAllocateTxPacket_same {node node' : Node} {r : Option Nat}
    (h : nodeAllocateTxPacket node = .ok (r, node')) :
    node.SameReception node' := by
  obtain ⟨⟨r', m⟩, halloc, h⟩ := bind_eq_ok.mp h
  cases h
  apply Node.SameReception.withTxManager
  unfold allocateTxPacket at halloc
  split at halloc
  · cases halloc
    rfl
  · dsimp only at halloc
    split at halloc
    · cases halloc
    · split at halloc
      · cases halloc
        rfl
      · cases halloc
        rfl

theorem nodeWriteAllocatedPacket_same (node : Node) (data : PacketData) :
    node.SameReception (nodeWriteAllocatedPacket node data) := by
  apply Node.SameReception.withTxManager
  unfold writeAllocatedPacket
  split <;> rfl

theorem nodeSubmitAllocatedTxPacket_same {node node' : Node} {numBytes : UInt16}
    (h : nodeSubmitAllocatedTxPacket node numBytes = .ok node') : node.SameReception node' := by
  obtain ⟨_, -, h⟩ := bind_eq_ok.mp h
  obtain ⟨_, -, h⟩ := bind_eq_ok.mp h
  obtain ⟨m, hm, h⟩ := bind_eq_ok.mp h
  cases h
  apply Node.SameReception.withTxManager
  rcases submitAllocatedTxPacket_ok hm with ⟨hc, -, -⟩ | ⟨i, q, -, -, -, -, -, -, rfl⟩
  · cases hc
  · rfl

end Microbus
