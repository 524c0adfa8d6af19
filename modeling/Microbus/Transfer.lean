import Microbus.Arrival

/-! Which submitted packets reach the application of the other side. -/
namespace Microbus

open Transition

theorem filledAs_submitEntry {isMaster : Bool} {src dst : TNodeIndex} {type : PacketType} {size : UInt16}
    (m : TxManager) (i : Nat) (q : Option NodeQueue) :
    FilledAs isMaster (if isMaster then dst else src) type size (m.txSeqNumEnd dst) (m.entry i).packet.data
      ((m.submitEntry i (fillHeader (m.entry i).packet isMaster src dst type size (m.txSeqNumEnd dst)) dst q).entry
        i).packet := by
  rw [entry_submit, if_pos rfl]
  exact filledAs_fillHeader _

section MasterSends

variable {tx : MasterTx} {nw : NetworkManager} {i : Nat} {m : TxManager}

structure MasterTx.DataTurn (tx : MasterTx) (nw : NetworkManager) : Prop where
  noReset : tx.masterResetCycles = 0
  noNewNodes : ¬ (nw.numNewNodes > 0 ∧ (if tx.tmpPacketCycle + 1 ≥ 4 then 0 else tx.tmpPacketCycle + 1) = 1)

instance (tx : MasterTx) (nw : NetworkManager) : Decidable (tx.DataTurn nw) :=
  decidable_of_iff (tx.masterResetCycles = 0 ∧
      ¬ (nw.numNewNodes > 0 ∧ (if tx.tmpPacketCycle + 1 ≥ 4 then 0 else tx.tmpPacketCycle + 1) = 1))
    ⟨fun h => ⟨h.1, h.2⟩, fun h => ⟨h.noReset, h.noNewNodes⟩⟩

/-- The chosen packet is sent unless it fills the whole data field: that stops the master. -/
theorem masterProcessTx_data (hturn : tx.DataTurn nw)
    (hget : masterGetNextTxDataPacket tx.txManager masterBurstSize = .ok (some i, m)) :
    ((tx.txManager.entry i).packet.getPacketDataSize < maxPacketDataSize → ∃ tx',
      masterProcessTx tx nw = .ok tx' ∧
      tx'.nextTxPacket = some (.entry i) ∧ tx'.txManager = m) ∧
    (¬ (tx.txManager.entry i).packet.getPacketDataSize < maxPacketDataSize →
      masterProcessTx tx nw = .error (.assertFailed .masterProcessTx)) := by
  obtain ⟨queue, -, hround⟩ := masterGetNextTxDataPacket_ok hget
  have hentry : m.packetStore.entries i = tx.txManager.entry i := hround.sameStore.entry i
  have hreset : ¬ tx.masterResetCycles > 0 := by
    rw [hturn.noReset]
    exact Nat.lt_irrefl 0
  have hnew := hturn.noNewNodes
  unfold masterProcessTx
  rw [if_neg hreset]
  simp only [hnew, if_false, hget, bind, Except.bind, hentry, microbusAssert]
  constructor
  · intro hsize
    rw [if_pos hsize]
    exact ⟨_, rfl, rfl, rfl⟩
  · intro hsize
    rw [if_neg hsize]

theorem masterSubmit_ok {master master' : Master} {dst : TNodeIndex} {size : UInt16}
    (h : masterSubmitAllocatedTxPacket master dst size = .ok master') :
    size.toNat ≤ masterPacketDataSize ∧ dst.toNat < maxNodes ∧
      ∃ m, submitAllocatedTxPacket master.tx.txManager true
        (master.masterNodeTimeToLive dst) masterNodeId dst .masterData
          size = .ok m ∧ master' = { master with tx := { master.tx with txManager := m } } := by
  unfold masterSubmitAllocatedTxPacket at h
  obtain ⟨_, hsize, h⟩ := bind_eq_ok.mp h
  obtain ⟨_, -, h⟩ := bind_eq_ok.mp h
  obtain ⟨_, hdst, h⟩ := bind_eq_ok.mp h
  obtain ⟨m, hm, h⟩ := bind_eq_ok.mp h
  exact ⟨microbusAssert_ok.mp hsize, checkIndex_ok.mp hdst, m, hm, (pure_eq_ok.mp h).symm⟩

theorem fillSchedule_sameMessage (m : TxManager) (num : Nat) (next : Nat → TNodeIndex) (stray : TNodeIndex → UInt8)
    (p : Packet) : p.SameMessage true (fillSchedule m num next stray p) := ⟨rfl, rfl, rfl, rfl, rfl, rfl⟩

end MasterSends

section NodeSends

variable {node : Node} {i : Nat} {m : TxManager}

theorem nodeGetNext_some (h : nodeGetNextTxDataPacket node.txManager = .ok (some i, m)) :
    m.entry i = { node.txManager.entry i with
        packet := (node.txManager.entry i).packet.setAckSeqNum (node.txManager.rxSeqNum masterNodeId) } ∧
      getNumInTxBuffer m masterNodeId ≠ 0 := by
  unfold nodeGetNextTxDataPacket at h
  split at h
  · cases h
  · rename_i hne
    obtain ⟨⟨e, m₁⟩, hnext, h⟩ := bind_eq_ok.mp h
    obtain ⟨-, ⟨rfl, -, -⟩ | ⟨rfl, -, -, -⟩ | ⟨j, rfl, -, -, -, rfl⟩⟩ := getNext_ok hnext
    · cases h
    · cases h
    · cases h
      constructor
      · change (node.txManager.packetStore.setPacket i _).entries i = _
        rw [entry_setPacket, if_pos rfl]
        rfl
      · intro hc
        have heq : node.txManager.txSeqNumEnd masterNodeId = 0 + node.txManager.txSeqNumStart masterNodeId :=
          UInt8.sub_eq_iff_eq_add.mp hc
        rw [UInt8.zero_add] at heq
        exact hne heq.symm

/-- The frame carries the chosen packet, with a buffer level that is not zero. -/
theorem nodeSends_data (hkeep : ¬ node.keepsTxPacket) (hid : node.nodeId ≠ unallocatedNodeId)
    (hget : nodeGetNextTxDataPacket node.txManager = .ok (some i, m)) :
    ∃ node', nodeProcessTx node = .ok node' ∧ ∃ frame, (nodeGetTxPacket node').2 = some frame ∧
      (node.txManager.entry i).packet.SameMessage false frame ∧ frame.bufferLevel > 0 ∧
      frame.ackSeqNum = node.txManager.rxSeqNum masterNodeId := by
  obtain ⟨hentry, hlevel⟩ := nodeGetNext_some hget
  have hrx : m.rxSeqNum = node.txManager.rxSeqNum := nodeGetNext_rxSeqNum hget
  have hread : (m.packetStore.entries i).packet =
      (node.txManager.entry i).packet.setAckSeqNum (node.txManager.rxSeqNum masterNodeId) :=
    congrArg PacketEntry.packet hentry
  obtain ⟨node', hnode'⟩ : ∃ node', node' = ({ node with
      txManager := { m with
        packetStore := m.packetStore.setPacket i
          ((m.packetStore.entries i).packet.setBufferLevel (getNumInTxBuffer m masterNodeId)) }
      nextTxPacket := some (.entry i) } : Node) := ⟨_, rfl⟩
  have hprocess : nodeProcessTx node = .ok node' := by
    unfold nodeProcessTx
    rw [if_neg hkeep, if_pos hid]
    unfold nodeProcessTxAllocated
    simp only [hget, bind, Except.bind]
    rw [hnode']
    rfl
  have hid' : ¬ node'.nodeId = unallocatedNodeId := by
    rw [hnode']
    exact hid
  have hnext : node'.nextTxPacket = some (.entry i) := by rw [hnode']
  have hpacket : node'.deref (.entry i) =
      ((node.txManager.entry i).packet.setAckSeqNum (node.txManager.rxSeqNum masterNodeId)).setBufferLevel
        (getNumInTxBuffer m masterNodeId) := by
    rw [hnode']
    change ((m.packetStore.setPacket i _).entries i).packet = _
    rw [entry_setPacket, if_pos rfl, hread]
  have hframe : (nodeGetTxPacket node').2 =
      some ((node'.deref (.entry i)).setAckSeqNum (node'.txManager.rxSeqNum masterNodeId)) := by
    unfold nodeGetTxPacket
    rw [if_neg (by rw [hnext]; exact Option.some_ne_none _), if_neg hid']
    unfold nodeSendTxPacket nodeQuickUpdateTxPacket
    simp only [hnext, Node.assign, Option.map_some, Node.deref]
    rw [show (node'.txManager.packetStore.setPacket i _).entries i = _ from entry_setPacket node'.txManager i _ i,
      if_pos rfl]
  refine ⟨node', hprocess, _, hframe, ?_, ?_, ?_⟩
  · rw [hpacket]
    exact ⟨rfl, rfl, rfl, rfl, rfl, rfl⟩
  · rw [hpacket]
    change getNumInTxBuffer m masterNodeId > 0
    rw [gt_iff_lt, UInt8.lt_iff_toNat_lt]
    exact Nat.pos_of_ne_zero fun hc => hlevel (UInt8.toNat_inj.mp hc)
  · change node'.txManager.rxSeqNum masterNodeId = _
    rw [hnode']
    exact congrFun hrx masterNodeId

end NodeSends

end Microbus
