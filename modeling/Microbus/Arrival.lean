import Microbus.Sender
import Microbus.Master
import Microbus.Node

/-! One packet from its submission to the application of the other side. -/
namespace Microbus

open Transition

/-- The station that a frame names: its destination from the master, its source from a node. -/
def Packet.station (p : Packet) (isMaster : Bool) : TNodeIndex := if isMaster then p.dstNodeId else p.srcNodeId

/-- Two packets that differ at most in the acknowledgements, the schedule and the buffer level,
which are filled in anew for every transmission. -/
structure Packet.SameMessage (isMaster : Bool) (p p' : Packet) : Prop where
  type : p'.protocolVersionAndPacketType = p.protocolVersionAndPacketType
  txSeqNum : p'.txSeqNum = p.txSeqNum
  dataSize1 : p'.dataSize1 = p.dataSize1
  dataSize2 : p'.dataSize2 = p.dataSize2
  station : p'.station isMaster = p.station isMaster
  data : p'.data = p.data

namespace Packet

theorem SameMessage.trans {isMaster : Bool} {p p' p'' : Packet} (h : SameMessage isMaster p p')
    (h' : SameMessage isMaster p' p'') : SameMessage isMaster p p'' :=
  ⟨h'.type.trans h.type, h'.txSeqNum.trans h.txSeqNum, h'.dataSize1.trans h.dataSize1, h'.dataSize2.trans h.dataSize2,
    h'.station.trans h.station, h'.data.trans h.data⟩

theorem dataSize_pos_iff (p : Packet) : (p.dataSize1 > 0 ∨ p.dataSize2 > 0) ↔ 0 < p.getPacketDataSize := by
  have hzero : ∀ b : UInt8, b > 0 ↔ b.toNat ≠ 0 := by
    intro b
    rw [gt_iff_lt, UInt8.lt_iff_toNat_lt]
    exact Nat.pos_iff_ne_zero
  unfold getPacketDataSize
  rw [Nat.pos_iff_ne_zero, Ne, Nat.or_eq_zero_iff, Nat.shiftLeft_eq, hzero, hzero]
  omega

/-- What the receivers read from the first byte. -/
structure IsType (p : Packet) (t : PacketType) : Prop where
  notIdle : ¬ p.isIdle
  version : p.getProtocolVersion = microbusVersion
  type : p.getPacketType = some t

theorem isType_of_byte {p : Packet} {t : PacketType}
    (h : p.protocolVersionAndPacketType = (microbusVersion <<< 4) ||| (t.code &&& 0xF)) : p.IsType t := by
  constructor
  · unfold isIdle
    rw [h]
    cases t <;> decide
  · unfold getProtocolVersion
    rw [h]
    cases t <;> decide
  · unfold getPacketType
    rw [h]
    cases t <;> decide

end Packet

/-- A filled header, whatever is filled in for a transmission. -/
structure FilledAs (isMaster : Bool) (station : TNodeIndex) (type : PacketType) (size : UInt16) (q : UInt8)
    (data : PacketData) (p : Packet) : Prop where
  isType : p.IsType type
  size : p.getPacketDataSize = size.toNat
  txSeqNum : p.txSeqNum = q
  station : p.station isMaster = station
  data : p.data = data

theorem filledAs_fillHeader {isMaster : Bool} {src dst : TNodeIndex} {type : PacketType} {size : UInt16} {q : UInt8}
    (p : Packet) : FilledAs isMaster (if isMaster then dst else src) type size q p.data
      (fillHeader p isMaster src dst type size q) := by
  have hsize := p.getPacketDataSize_set size
  cases isMaster with
  | true => exact ⟨Packet.isType_of_byte rfl, hsize, rfl, rfl, rfl⟩
  | false => exact ⟨Packet.isType_of_byte rfl, hsize, rfl, rfl, rfl⟩

theorem FilledAs.of_sameMessage {isMaster : Bool} {station : TNodeIndex} {type : PacketType} {size : UInt16} {q : UInt8}
    {data : PacketData} {p p' : Packet} (h : FilledAs isMaster station type size q data p)
    (t : p.SameMessage isMaster p') : FilledAs isMaster station type size q data p' := by
  have hidle : p'.isIdle ↔ p.isIdle := by
    unfold Packet.isIdle
    rw [t.type]
  refine ⟨⟨fun hc => h.isType.notIdle (hidle.mp hc), ?_, ?_⟩, ?_, t.txSeqNum.trans h.txSeqNum,
    t.station.trans h.station, t.data.trans h.data⟩
  · have hv := h.isType.version
    unfold Packet.getProtocolVersion at hv ⊢
    rw [t.type, hv]
  · have ht := h.isType.type
    unfold Packet.getPacketType at ht ⊢
    rw [t.type, ht]
  · have hs := h.size
    unfold Packet.getPacketDataSize at hs ⊢
    rw [t.dataSize1, t.dataSize2, hs]

namespace RxPacketManager

variable {rpm rpm' : RxPacketManager}

theorem incrAndWrap_one_ne {i max : Nat} (h : 1 < max) : incrAndWrap i 1 max ≠ i := by
  unfold incrAndWrap
  split <;> omega

/-- The slot that was filled last is at the head once the packets before it are popped. -/
def afterOlder (rpm : RxPacketManager) (start : Nat) : RxPacketManager := { rpm with start }

/-- A packet is queued behind those that are there. -/
structure Queued (rpm rpm' : RxPacketManager) (e : Nat) : Prop where
  slot : rpm'.rxPacketQueue rpm.endIndex = some e
  endIndex : rpm'.endIndex = incrAndWrap rpm.endIndex 1 rpm.maxRxPacketEntries
  start : rpm'.start = rpm.start
  maxRxPacketEntries : rpm'.maxRxPacketEntries = rpm.maxRxPacketEntries
  entries : rpm'.rxPacketEntries = rpm.rxPacketEntries

theorem addRxDataPacket_ok {e : Nat} (hf : ¬ rpm.isFull) :
    ∃ rpm', addRxDataPacket rpm e = .ok rpm' ∧ rpm.Queued rpm' e := by
  unfold addRxDataPacket
  rw [if_neg hf]
  exact ⟨_, rfl, Function.update_self _ _ _, rfl, rfl, rfl, rfl⟩

theorem findFreeRxPacket_some {e : Nat} (h : findFreeRxPacket rpm = some (e, rpm')) :
    ¬ rpm.isFull ∧ rpm' = rpm.setInUse e true := by
  unfold findFreeRxPacket at h
  split at h
  · cases h
  · rename_i hf
    refine ⟨hf, ?_⟩
    split at h
    · cases h
      rfl
    · cases h

theorem packet_setInUse (i : Nat) (b : Bool) (j : Nat) :
    ((rpm.setInUse i b).rxPacketEntries j).packet = (rpm.rxPacketEntries j).packet := by
  by_cases hj : j = i
  · subst hj
    simp [setInUse]
  · simp [setInUse, hj]

theorem packet_receive (i : Nat) (p : Packet) : ((rpm.receive i p).rxPacketEntries i).packet = p := by
  simp [receive]

theorem findFreeRxPacket_receive (i : Nat) (p : Packet) (h : (findFreeRxPacket rpm).isSome) :
    (findFreeRxPacket (rpm.receive i p)).isSome := by
  have huse : ∀ j, ((rpm.receive i p).rxPacketEntries j).inUse = (rpm.rxPacketEntries j).inUse := by
    intro j
    by_cases hj : j = i
    · subst hj
      simp [receive]
    · simp [receive, hj]
  have hmax : (rpm.receive i p).maxRxPacketEntries = rpm.maxRxPacketEntries := rfl
  unfold findFreeRxPacket at h ⊢
  by_cases hf : rpm.isFull
  · rw [if_pos hf] at h
    cases h
  · have hf' : ¬ (rpm.receive i p).isFull := hf
    rw [if_neg hf] at h
    rw [if_neg hf']
    simp only [huse, hmax]
    cases hfind : (List.range rpm.maxRxPacketEntries).find? fun i => !(rpm.rxPacketEntries i).inUse with
    | some j => rfl
    | none =>
        rw [hfind] at h
        cases h

end RxPacketManager

/-- What every node keeps: its ring is set up and its window is in its store. -/
structure NodeOk (node : Node) : Prop where
  size : 1 < node.rxPacketManager.maxRxPacketEntries
  tx : ∃ g, StoreInv false node.txManager g ∧ Unshadowed false node.txManager
  table : masterNodeId.toNat < node.txManager.maxTxNodes

/-- The receiver's side of the manager, which its sender's side does not read. -/
def TxManager.withRxSeqNum (m : TxManager) (rxSeqNum : TNodeIndex → UInt8) : TxManager := { m with rxSeqNum }

theorem StoreInv.withRxSeqNum {isMaster : Bool} {m : TxManager} {g : Ledger} (h : StoreInv isMaster m g)
    (f : TNodeIndex → UInt8) : StoreInv isMaster (m.withRxSeqNum f) g :=
  h.congr rfl rfl rfl rfl (SameStore.live ⟨rfl, rfl⟩) (fun _ _ => rfl) h.allocated

theorem Unshadowed.withRxSeqNum {isMaster : Bool} {m : TxManager} (h : Unshadowed isMaster m)
    (f : TNodeIndex → UInt8) : Unshadowed isMaster (m.withRxSeqNum f) :=
  have t : SameStore m (m.withRxSeqNum f) := ⟨rfl, rfl⟩
  t.unshadowed h

section NodeReceives

variable {node : Node} {frame : Packet} {d : TNodeIndex} {n : UInt16} {q : UInt8} {data : PacketData}

theorem foldl_savedRxAck {α : Type} {f : Node → α → Node}
    (hf : ∀ node i, ∃ valid ack, f node i = { node with savedRxAckValid := valid, savedRxAck := ack })
    (l : List α) (node : Node) :
    ∃ valid ack, l.foldl f node = { node with savedRxAckValid := valid, savedRxAck := ack } := by
  induction l generalizing node with
  | nil => exact ⟨_, _, rfl⟩
  | cons i l ih =>
      obtain ⟨valid, ack, hi⟩ := hf node i
      rw [List.foldl_cons, hi]
      obtain ⟨valid', ack', h⟩ := ih { node with savedRxAckValid := valid, savedRxAck := ack }
      exact ⟨valid', ack', h⟩

theorem nodeRecordSchedule_eq (node : Node) (p : Packet) : ∃ valid ack, nodeRecordSchedule node p =
    { node with
      nextTxNodeId := fun i => if h : i < maxTxNodesScheduled then p.nextTxNodeId ⟨i, h⟩ else node.nextTxNodeId i
      savedRxAckValid := valid
      savedRxAck := ack } := by
  unfold nodeRecordSchedule
  dsimp only
  split
  · exact foldl_savedRxAck (f := fun (node : Node) (i : Fin maxTxNodesScheduled) =>
        if p.nextTxNodeId i = node.nodeId then
          { node with savedRxAckValid := true, savedRxAck := p.nextTxNodeAckSeqNum i }
        else node) (fun node i => by split <;> exact ⟨_, _, rfl⟩) (List.finRange maxTxNodesScheduled)
      { node with
        nextTxNodeId := fun i =>
          if h : i < maxTxNodesScheduled then p.nextTxNodeId ⟨i, h⟩ else node.nextTxNodeId i }
  · exact ⟨_, _, rfl⟩

@[simp] theorem nodeRecordSchedule_nodeId (node : Node) (p : Packet) :
    (nodeRecordSchedule node p).nodeId = node.nodeId := by
  obtain ⟨_, _, h⟩ := nodeRecordSchedule_eq node p
  rw [h]

@[simp] theorem nodeRecordSchedule_rxPacketManager (node : Node) (p : Packet) :
    (nodeRecordSchedule node p).rxPacketManager = node.rxPacketManager := by
  obtain ⟨_, _, h⟩ := nodeRecordSchedule_eq node p
  rw [h]

@[simp] theorem nodeRecordSchedule_txManager (node : Node) (p : Packet) :
    (nodeRecordSchedule node p).txManager = node.txManager := by
  obtain ⟨_, _, h⟩ := nodeRecordSchedule_eq node p
  rw [h]

@[simp] theorem nodeRecordSchedule_prevRxPacketEntry (node : Node) (p : Packet) :
    (nodeRecordSchedule node p).prevRxPacketEntry = node.prevRxPacketEntry := by
  obtain ⟨_, _, h⟩ := nodeRecordSchedule_eq node p
  rw [h]

/-- A node that has taken a data frame in order and is about to process it. -/
structure NodeTaken (node : Node) (frame : Packet) (node₁ : Node) : Prop where
  nodeId : node₁.nodeId = node.nodeId
  prev : node₁.prevRxPacketEntry = some node.nextRxPacketEntry
  validRxPacket : node₁.validRxPacket = true
  validRxSeqNum : node₁.validRxSeqNum = true
  ring : node₁.rxPacketManager.endIndex = node.rxPacketManager.endIndex ∧
    node₁.rxPacketManager.maxRxPacketEntries = node.rxPacketManager.maxRxPacketEntries
  notFull : ¬ node₁.rxPacketManager.isFull
  packet : node₁.packetAt node.nextRxPacketEntry = frame
  tx : ∃ f, node₁.txManager = node.txManager.withRxSeqNum f

theorem nodeQuickProcessPrevRx_data (hok : NodeOk node) (hinit : node.initialised = true) (hid : node.nodeId = d)
    (hd : d ≠ unallocatedNodeId) (hf : FilledAs true d .masterData n q data frame)
    (hexp : expectedSeqNum (node.txManager.rxSeqNum masterNodeId) = q)
    (hfree : (findFreeRxPacket node.rxPacketManager).isSome) :
    ∃ node₁, nodeQuickProcessPrevRx (node.receive frame) false = .ok node₁ ∧ NodeTaken node frame node₁ := by
  have hpacket : (node.receive frame).packetAt node.nextRxPacketEntry = frame :=
    RxPacketManager.packet_receive _ _
  obtain ⟨⟨e, rpm⟩, hfind⟩ := Option.isSome_iff_exists.mp
    (RxPacketManager.findFreeRxPacket_receive node.nextRxPacketEntry frame hfree)
  obtain ⟨hfull, rfl⟩ := RxPacketManager.findFreeRxPacket_some hfind
  have hdst : frame.dstNodeId = node.nodeId := hf.station.trans hid.symm
  unfold nodeQuickProcessPrevRx
  rw [if_neg (by simp only [Node.receive, hinit, Bool.true_eq_false, not_false_eq_true])]
  simp only [show (node.receive frame).nextRxPacketEntry = node.nextRxPacketEntry from rfl, hpacket]
  rw [if_neg (by simp [hf.isType.notIdle, hf.isType.version]), if_neg (by rw [hf.isType.type]; decide)]
  have hid' : node.nodeId ≠ unallocatedNodeId := by
    rw [hid]
    exact hd
  have hq : frame.txSeqNum = expectedSeqNum (node.txManager.rxSeqNum masterNodeId) := hf.txSeqNum.trans hexp.symm
  simp only [nodeRecordSchedule_nodeId, nodeRecordSchedule_rxPacketManager, nodeRecordSchedule_txManager,
    nodeQuickAccept, Node.receive, hdst, hfind, hid', hf.isType.type, rxPacketCheck hok.table, hq, ne_eq,
    not_true_eq_false, not_false_eq_true, and_self, if_true, if_false]
  refine ⟨_, rfl, ?_, ?_, rfl, rfl, ⟨rfl, rfl⟩, hfull, ?_, _, rfl⟩
  · rfl
  · simp only [nodeRecordSchedule_prevRxPacketEntry]
  · exact (RxPacketManager.packet_setInUse _ _ _).trans hpacket

theorem nodeProcessRxData_data {e : Nat} (hid : node.nodeId = d) (hd : d ≠ unallocatedNodeId)
    (hpacket : node.packetAt e = frame) (hf : FilledAs true d .masterData n q data frame)
    (hvalid : node.validRxSeqNum = true) (hfull : ¬ node.rxPacketManager.isFull) :
    (0 < n.toNat → ∃ node', nodeProcessRxData node e = .ok node' ∧
      node.rxPacketManager.Queued node'.rxPacketManager e) ∧
    (n.toNat = 0 → nodeProcessRxData node e = .error (.assertFailed .nodeProcessRxData)) := by
  have hid' : node.nodeId ≠ unallocatedNodeId := by
    rw [hid]
    exact hd
  have hdst : frame.dstNodeId = node.nodeId ∧ frame.getPacketType = some .masterData :=
    ⟨hf.station.trans hid.symm, hf.isType.type⟩
  have hsize := frame.dataSize_pos_iff
  rw [hf.size] at hsize
  unfold nodeProcessRxData
  rw [hpacket, if_neg hid', if_pos hdst, microbusAssert]
  constructor
  · intro hn
    obtain ⟨rpm', hadd, hqueued⟩ := RxPacketManager.addRxDataPacket_ok (e := e) hfull
    rw [if_pos (hsize.mpr hn), if_pos hvalid, hadd]
    exact ⟨_, rfl, hqueued⟩
  · intro hn
    rw [if_neg (fun hc => absurd (hsize.mp hc) (by omega))]
    rfl

theorem nodeProcessRx_eq {node₁ : Node} (hok : NodeOk node) (ht : NodeTaken node frame node₁) :
    ∃ m, nodeProcessRx node₁ = nodeProcessRxData { node₁ with txManager := m } node.nextRxPacketEntry := by
  obtain ⟨f, htx⟩ := ht.tx
  obtain ⟨g, hstore, hunshadowed⟩ := hok.tx
  obtain ⟨k, m, g', hack, -⟩ := StoreInv.rxAck (d := masterNodeId) (hstore.withRxSeqNum f)
    (hunshadowed.withRxSeqNum f) node₁.savedRxAck (fun _ => ⟨hok.table, fun _ => rfl⟩)
    (fun hm => by cases hm)
  unfold nodeProcessRx
  by_cases hs : node₁.savedRxAckValid = true
  · rw [if_pos hs, htx, hack]
    refine ⟨m, ?_⟩
    change (if node₁.validRxPacket = true then _ else _) = _
    rw [if_pos ht.validRxPacket]
    split
    · rename_i e he
      obtain rfl : e = node.nextRxPacketEntry := Option.some.inj (he.symm.trans ht.prev)
      rfl
    · rename_i hnone
      exact absurd ht.prev (hnone _)
  · rw [if_neg hs]
    refine ⟨node₁.txManager, ?_⟩
    change (if node₁.validRxPacket = true then _ else _) = _
    rw [if_pos ht.validRxPacket]
    split
    · rename_i e he
      obtain rfl : e = node.nextRxPacketEntry := Option.some.inj (he.symm.trans ht.prev)
      rfl
    · rename_i hnone
      exact absurd ht.prev (hnone _)

/-- The frame is queued exactly when it is not empty: an empty one stops the node. -/
theorem nodeProcessRx_data {node₁ : Node} (hok : NodeOk node) (ht : NodeTaken node frame node₁)
    (hid : node.nodeId = d) (hd : d ≠ unallocatedNodeId) (hf : FilledAs true d .masterData n q data frame) :
    (0 < n.toNat → ∃ node₂, nodeProcessRx node₁ = .ok node₂ ∧
      node₁.rxPacketManager.Queued node₂.rxPacketManager node.nextRxPacketEntry) ∧
    (n.toNat = 0 → nodeProcessRx node₁ = .error (.assertFailed .nodeProcessRxData)) := by
  obtain ⟨m, heq⟩ := nodeProcessRx_eq hok ht
  rw [heq]
  have hpacket : ({ node₁ with txManager := m } : Node).packetAt node.nextRxPacketEntry = frame := ht.packet
  have hid' : ({ node₁ with txManager := m } : Node).nodeId = d := ht.nodeId.trans hid
  exact nodeProcessRxData_data hid' hd hpacket hf ht.validRxSeqNum ht.notFull

theorem nodePeek_queued {rpm : RxPacketManager} {e : Nat} (hsize : 1 < rpm.maxRxPacketEntries)
    (hqueued : rpm.Queued node.rxPacketManager e) (hpacket : (rpm.rxPacketEntries e).packet = frame)
    (hf : FilledAs true d .masterData n q data frame) (hn : 0 < n.toNat) :
    nodePeekNextRxDataPacket { node with rxPacketManager := node.rxPacketManager.afterOlder rpm.endIndex } =
      .ok (some ⟨masterNodeId, n.toNat, data⟩) := by
  have hpacket' : (node.rxPacketManager.rxPacketEntries e).packet = frame := by
    rw [hqueued.entries]
    exact hpacket
  have hne : ¬ (node.rxPacketManager.afterOlder rpm.endIndex).isEmpty := by
    intro hc
    have hc' : rpm.endIndex = node.rxPacketManager.endIndex := hc
    rw [hqueued.endIndex] at hc'
    exact RxPacketManager.incrAndWrap_one_ne hsize hc'.symm
  unfold nodePeekNextRxDataPacket
  rw [if_neg hne]
  simp only [RxPacketManager.afterOlder, hqueued.slot, Node.packetAt, hpacket', hf.size, hf.data, microbusAssert, hn,
    if_true]
  rfl

end NodeReceives

section MasterReceives

variable {master : Master} {frame : Packet} {src : TNodeIndex} {n : UInt16} {q : UInt8} {data : PacketData}

theorem masterRx_tooLong (master : Master) (hf : FilledAs false src .nodeData n q data frame)
    (hn : ¬ n.toNat < maxPacketDataSize) :
    ∃ m₁, masterQuickRx (master.receive frame) false = .ok m₁ ∧ masterRx m₁ = .ok (0, m₁) ∧
      m₁.rx.rxPacketManager.endIndex = master.rx.rxPacketManager.endIndex := by
  have hpacket : (master.rx.receive frame).packetAt master.rx.nextRxPacketEntry = frame :=
    RxPacketManager.packet_receive _ _
  have hnext : (master.rx.receive frame).nextRxPacketEntry = master.rx.nextRxPacketEntry := rfl
  have hreject : ¬ masterAcceptsFrame frame false := fun hc => hn (by rw [← hf.size]; exact hc.2.2.2)
  obtain ⟨m₁, hm₁⟩ : ∃ m₁, m₁ = ({ master with
      rx := { master.rx.receive frame with
        prevRxPacketEntry := some master.rx.nextRxPacketEntry
        validRxPacket := false } } : Master) := ⟨_, rfl⟩
  refine ⟨m₁, ?_, ?_, ?_⟩
  · unfold masterQuickRx masterQuickProcessPrevRx
    simp only [Master.receive, hnext, hpacket, hreject, not_false_eq_true, if_true, bind, Except.bind]
    rw [hm₁]
    rfl
  · rw [hm₁]
    rfl
  · rw [hm₁]
    rfl

/-- The master once its application has popped what was queued before slot `start`. -/
def Master.afterOlder (master : Master) (start : Nat) : Master :=
  { master with rx := { master.rx with rxPacketManager := master.rx.rxPacketManager.afterOlder start } }

theorem masterPeek_queued {rpm : RxPacketManager} {e : Nat} (hsize : 1 < rpm.maxRxPacketEntries)
    (hqueued : rpm.Queued master.rx.rxPacketManager e) (hpacket : (rpm.rxPacketEntries e).packet = frame)
    (hf : FilledAs false src .nodeData n q data frame) :
    masterPeekNextRxDataPacket (master.afterOlder rpm.endIndex) =
      .ok (some ⟨src, n.toNat, data⟩, master.afterOlder rpm.endIndex) := by
  have hpacket' : (master.rx.rxPacketManager.rxPacketEntries e).packet = frame := by
    rw [hqueued.entries]
    exact hpacket
  have hstation : frame.srcNodeId = src := hf.station
  have hne : ¬ (master.rx.rxPacketManager.afterOlder rpm.endIndex).isEmpty := by
    intro hc
    have hc' : rpm.endIndex = master.rx.rxPacketManager.endIndex := hc
    rw [hqueued.endIndex] at hc'
    exact RxPacketManager.incrAndWrap_one_ne hsize hc'.symm
  have hpeek : peekNextRxDataPacket (master.rx.rxPacketManager.afterOlder rpm.endIndex) =
      .ok (some e, master.rx.rxPacketManager.afterOlder rpm.endIndex) := by
    unfold peekNextRxDataPacket
    rw [show (master.rx.rxPacketManager.afterOlder rpm.endIndex).maxRxPacketEntries = rpm.maxRxPacketEntries from
      hqueued.maxRxPacketEntries]
    obtain ⟨k, hk⟩ : ∃ k, rpm.maxRxPacketEntries = k + 1 := ⟨rpm.maxRxPacketEntries - 1, by omega⟩
    rw [hk]
    unfold peekLoop
    rw [if_neg hne]
    simp only [RxPacketManager.afterOlder, hqueued.slot]
  have hread : (master.afterOlder rpm.endIndex).rx.packetAt e = frame := hpacket'
  unfold masterPeekNextRxDataPacket
  rw [show peekNextRxDataPacket (master.afterOlder rpm.endIndex).rx.rxPacketManager = _ from hpeek]
  change (Except.ok (some ⟨((master.afterOlder rpm.endIndex).rx.packetAt e).srcNodeId,
    ((master.afterOlder rpm.endIndex).rx.packetAt e).getPacketDataSize,
    ((master.afterOlder rpm.endIndex).rx.packetAt e).data⟩, _) : Except Fault (Option RxData × Master)) = _
  rw [hread, hstation, hf.size, hf.data]
  rfl

end MasterReceives

end Microbus
