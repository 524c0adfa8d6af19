import Microbus.ReceivedFrames
import Microbus.Acceptance
import Microbus.PeekPop

/-! The frames that the receive path of a node gets through, and what they leave behind. -/
namespace Microbus

open Transition

/-- The entries that the data field has room for. -/
def maxResponseEntries : Nat := masterPacketDataSize / newNodeResponseEntrySize

namespace Packet

def numEntries (p : Packet) : Nat := (p.getPacketDataSize / newNodeResponseEntrySize) % 256

def entryNodeId (p : Packet) (i : Nat) : TNodeIndex :=
  if h : i * newNodeResponseEntrySize + 8 < masterPacketDataSize then p.data ⟨_, h⟩ else unallocatedNodeId

/-- Entry `i` of a response is for the node with this unique id. -/
def entryFor (p : Packet) (uniqueId : UInt64) (i : Nat) : Prop :=
  p.getUniqueId (i * newNodeResponseEntrySize) .rxNewNodePacketResponse = .ok uniqueId

instance (p : Packet) (uniqueId : UInt64) (i : Nat) : Decidable (p.entryFor uniqueId i) := by
  unfold entryFor; infer_instance

/-- The first entry for a node among those that lie in the data field. -/
def findEntry (p : Packet) (uniqueId : UInt64) : Option Nat :=
  (List.range (min p.numEntries maxResponseEntries)).find? fun i => p.entryFor uniqueId i

end Packet

section Response

variable {p : Packet} {uniqueId : UInt64}

theorem readData_entry {i : Nat} (hi : i < maxResponseEntries) :
    p.readData (i * newNodeResponseEntrySize + 8) .rxNewNodePacketResponse = .ok (p.entryNodeId i) := by
  have hlt : i * newNodeResponseEntrySize + 8 < masterPacketDataSize := by
    change i < 19 at hi
    change i * 9 + 8 < 178
    omega
  unfold Packet.readData Packet.entryNodeId
  rw [dif_pos hlt, dif_pos hlt]

/-- The search from entry `i` on ends with the first entry for the node, and at the end of the data field
it fails. -/
theorem newNodeResponseSearch_eq (fuel : Nat) : ∀ i (m m' : NodeMembership), i ≤ maxResponseEntries →
    (newNodeResponseSearch p uniqueId fuel i m = .ok m' ↔
      match (List.range' i (min fuel (maxResponseEntries - i))).find? fun i => p.entryFor uniqueId i with
      | some j => m' = ⟨p.entryNodeId j, nodeTimeoutUs, m.nodeJoinedNw + 1⟩
      | none => i + fuel ≤ maxResponseEntries ∧ m' = m) := by
  induction fuel with
  | zero =>
      intro i m m' hi
      rw [Nat.zero_min]
      unfold newNodeResponseSearch
      constructor
      · intro h
        cases h
        exact ⟨hi, rfl⟩
      · rintro ⟨-, rfl⟩
        rfl
  | succ fuel ih =>
      intro i m m' hi
      unfold newNodeResponseSearch
      by_cases hlast : i = maxResponseEntries
      · -- the entry that would come next reaches beyond the frame
        have hnone : ∀ uid, p.getUniqueId (i * newNodeResponseEntrySize) .rxNewNodePacketResponse ≠ .ok uid := by
          intro uid hc
          have := completes_getUniqueId.mp ⟨uid, hc⟩
          rw [hlast] at this
          exact absurd this (by decide)
        rw [hlast, Nat.sub_self, Nat.min_zero]
        refine iff_of_false ?_ ?_
        · intro hc
          obtain ⟨uid, huid, -⟩ := bind_eq_ok.mp hc
          rw [← hlast] at huid
          exact hnone uid huid
        · rintro ⟨hc, -⟩
          omega
      · have hi' : i < maxResponseEntries := Nat.lt_of_le_of_ne hi hlast
        obtain ⟨uid, huid⟩ : Completes (p.getUniqueId (i * newNodeResponseEntrySize) .rxNewNodePacketResponse) := by
          refine completes_getUniqueId.mpr ?_
          change i < 19 at hi'
          change i * 9 + 8 ≤ 178
          omega
        have hcount : min (fuel + 1) (maxResponseEntries - i) = min fuel (maxResponseEntries - (i + 1)) + 1 := by omega
        rw [huid, readData_entry hi', hcount, List.range'_succ]
        by_cases heq : uid = uniqueId
        · have hfor : p.entryFor uniqueId i := by
            unfold Packet.entryFor
            rw [huid, heq]
          rw [List.find?_cons_of_pos (by simpa using hfor)]
          change (if uid = uniqueId then _ else _) = _ ↔ _
          rw [if_pos heq]
          constructor
          · intro h
            cases h
            rfl
          · rintro rfl
            rfl
        · have hfor : ¬ p.entryFor uniqueId i := by
            unfold Packet.entryFor
            rw [huid]
            exact fun hc => heq (Except.ok.inj hc)
          rw [List.find?_cons_of_neg (by simpa using hfor)]
          change (if uid = uniqueId then _ else _) = _ ↔ _
          rw [if_neg heq, ih (i + 1) m m' hi', Nat.add_right_comm, Nat.add_assoc i fuel 1]

theorem rxNewNodePacketResponse_iff {m m' : NodeMembership} :
    rxNewNodePacketResponse p uniqueId m = .ok m' ↔
      match p.findEntry uniqueId with
      | some i => m' = ⟨p.entryNodeId i, nodeTimeoutUs, m.nodeJoinedNw + 1⟩
      | none => p.numEntries ≤ maxResponseEntries ∧ m' = m := by
  unfold rxNewNodePacketResponse Packet.findEntry
  refine (newNodeResponseSearch_eq _ 0 m m' (Nat.zero_le _)).trans ?_
  rw [Nat.sub_zero, Nat.zero_add, ← List.range_eq_range']
  rfl

def ValidNodeId (nodeId : TNodeIndex) : Prop := nodeId = unallocatedNodeId ∨ Station nodeId

/-- A response that is read inside its data field and gives the node, if it names it, an id of a
station. -/
def Packet.Admits (p : Packet) (uniqueId : UInt64) : Prop :=
  match p.findEntry uniqueId with
  | some i => ValidNodeId (p.entryNodeId i)
  | none => p.numEntries ≤ maxResponseEntries

/-- A response is read to the end and leaves a valid id exactly when it admits the node. -/
theorem admits_iff {m : NodeMembership} (hm : ValidNodeId m.nodeId) :
    (∃ m', rxNewNodePacketResponse p uniqueId m = .ok m' ∧ ValidNodeId m'.nodeId) ↔ p.Admits uniqueId := by
  unfold Packet.Admits
  cases hfind : p.findEntry uniqueId with
  | some i =>
      constructor
      · rintro ⟨m', h, hid⟩
        rw [rxNewNodePacketResponse_iff, hfind] at h
        rw [h] at hid
        exact hid
      · intro hid
        refine ⟨⟨p.entryNodeId i, nodeTimeoutUs, m.nodeJoinedNw + 1⟩, ?_, hid⟩
        rw [rxNewNodePacketResponse_iff, hfind]
  | none =>
      constructor
      · rintro ⟨m', h, -⟩
        rw [rxNewNodePacketResponse_iff, hfind] at h
        exact h.1
      · intro hnum
        refine ⟨m, ?_, hm⟩
        rw [rxNewNodePacketResponse_iff, hfind]
        exact ⟨hnum, rfl⟩

end Response

/-- The last pair of a frame that names a node. -/
def Packet.lastPair (p : Packet) (nodeId : TNodeIndex) : Option (Fin maxTxNodesScheduled) :=
  (List.finRange maxTxNodesScheduled).reverse.find? fun (i : Fin maxTxNodesScheduled) => p.nextTxNodeId i = nodeId

def Node.ackIn (node : Node) (p : Packet) : Option UInt8 :=
  if node.nodeId ≠ unallocatedNodeId then
    (p.lastPair node.nodeId).map fun (i : Fin maxTxNodesScheduled) => p.nextTxNodeAckSeqNum i
  else none

/-- The loop over the pairs keeps the last one that matches. -/
theorem foldl_savedRxAck_eq (p : Packet) (pairs : List (Fin maxTxNodesScheduled)) (node : Node) :
    pairs.foldl (fun (node : Node) (i : Fin maxTxNodesScheduled) =>
      if p.nextTxNodeId i = node.nodeId then
        { node with savedRxAckValid := true, savedRxAck := p.nextTxNodeAckSeqNum i }
      else node) node =
    match pairs.reverse.find? fun (i : Fin maxTxNodesScheduled) => p.nextTxNodeId i = node.nodeId with
    | some i => { node with savedRxAckValid := true, savedRxAck := p.nextTxNodeAckSeqNum i }
    | none => node := by
  induction pairs generalizing node with
  | nil => rfl
  | cons i pairs ih =>
      rw [List.foldl_cons, List.reverse_cons, List.find?_append]
      by_cases hi : p.nextTxNodeId i = node.nodeId
      · rw [if_pos hi, ih, List.find?_cons_of_pos (by simpa using hi)]
        dsimp only
        cases pairs.reverse.find? fun (i : Fin maxTxNodesScheduled) => p.nextTxNodeId i = node.nodeId <;> rfl
      · rw [if_neg hi, ih, List.find?_cons_of_neg (by simpa using hi)]
        cases pairs.reverse.find? fun (i : Fin maxTxNodesScheduled) => p.nextTxNodeId i = node.nodeId <;> rfl

theorem nodeRecordSchedule_eq_ackIn (node : Node) (p : Packet) :
    nodeRecordSchedule node p =
      { node with
        nextTxNodeId := fun i => if h : i < maxTxNodesScheduled then p.nextTxNodeId ⟨i, h⟩ else node.nextTxNodeId i
        savedRxAckValid := node.savedRxAckValid || (node.ackIn p).isSome
        savedRxAck := (node.ackIn p).getD node.savedRxAck } := by
  unfold nodeRecordSchedule Node.ackIn Packet.lastPair
  dsimp only
  split
  · refine (foldl_savedRxAck_eq p (List.finRange maxTxNodesScheduled) _).trans ?_
    dsimp only
    split
    · rename_i hfind
      rw [hfind, Option.map_some, Option.isSome_some, Bool.or_true]
      rfl
    · rename_i hfind
      rw [hfind, Option.map_none, Option.isSome_none, Bool.or_false]
      rfl
  · rw [Option.isSome_none, Bool.or_false]
    rfl

/-- The counters are sequence numbers, the table has one entry and the receive store more than two. -/
structure Node.Ready (node : Node) : Prop where
  initialised : node.initialised = true
  proper : node.txManager.Proper
  table : node.txManager.maxTxNodes = 1
  buffers : ∃ n : UInt8, n > 2 ∧ node.rxPacketManager.maxRxPacketEntries = n.toNat

section Ready

variable {node node' : Node}

theorem Node.Ready.withTxManager (h : node.Ready) {m : TxManager} (hproper : m.Proper)
    (htable : m.maxTxNodes = node.txManager.maxTxNodes) : ({ node with txManager := m } : Node).Ready :=
  ⟨h.initialised, hproper, htable.trans h.table, h.buffers⟩

theorem Node.Ready.congr (h : node.Ready) (hinit : node'.initialised = node.initialised)
    (htx : node'.txManager = node.txManager)
    (hrx : node'.rxPacketManager.maxRxPacketEntries = node.rxPacketManager.maxRxPacketEntries) : node'.Ready where
  initialised := hinit.trans h.initialised
  proper := by rw [htx]; exact h.proper
  table := by rw [htx]; exact h.table
  buffers := by rw [hrx]; exact h.buffers

theorem Node.Fresh.ready (h : node.Fresh) : node.Ready where
  initialised := h.initialised
  proper := by
    obtain ⟨_, _, htx⟩ := h.tx
    have hzero : (0 : UInt8) ≠ nullSequenceNum := by decide
    rw [htx]
    exact ⟨fun _ => hzero, fun _ => hzero, fun _ => hzero⟩
  table := by
    obtain ⟨_, _, htx⟩ := h.tx
    rw [htx]
    rfl
  buffers := by
    obtain ⟨n, hmax, hfind⟩ := h.rx
    obtain ⟨-, heq⟩ := RxPacketManager.findFreeRxPacket_some hfind
    rw [heq]
    exact ⟨n, hmax, rfl⟩

theorem completes_nodeInit {uniqueId : UInt64} {maxTx maxRx : UInt8} {entries : Nat → PacketEntry}
    (hmax : maxRx > 2) :
    Completes (nodeInit uniqueId maxTx entries maxRx) := by
  unfold nodeInit
  refine (Completes.bind_iff_left fun _ _ => ?_).mpr (completes_assert.mpr hmax)
  split
  · rename_i hnone
    have hpos : 2 < maxRx.toNat := UInt8.lt_iff_toNat_lt.mp hmax
    have hempty : ¬ (rxManagerInit maxRx).isFull := by
      unfold RxPacketManager.isFull rxManagerInit incrAndWrap
      dsimp only
      rw [if_neg (by omega)]
      omega
    unfold findFreeRxPacket at hnone
    rw [if_neg hempty] at hnone
    split at hnone
    · cases hnone
    · rename_i hfind
      exact absurd rfl (List.find?_eq_none.mp hfind 0 (List.mem_range.mpr (by change 0 < maxRx.toNat; omega)))
  · exact .ok _

theorem Node.Ready.completes_remove (h : node.Ready) : Completes (nodeRemoveFromNetwork node) := by
  obtain ⟨n, hmax, hn⟩ := h.buffers
  unfold nodeRemoveFromNetwork
  split
  · refine (Completes.bind_iff_left fun _ _ => .ok _).mpr (completes_nodeInit ?_)
    rw [hn, UInt8.ofNat_toNat]
    exact hmax
  · exact .ok _

theorem Node.Ready.quickRx (h : node.Ready) {crcError : Bool} (hq : nodeQuickProcessPrevRx node crcError = .ok node') :
    node'.Ready := by
  have hresult := nodeQuickProcessPrevRx_ok h.initialised hq
  cases hresult with
  | unread _ => exact h.congr rfl rfl rfl
  | reset _ _ hremove =>
      rcases nodeRemoveFromNetwork_ok hremove with ⟨-, rfl⟩ | ⟨-, hfresh, -⟩
      · exact h.congr rfl rfl rfl
      · exact hfresh.ready
  | dropped _ _ _ =>
      rw [nodeRecordSchedule_eq_ackIn]
      exact h.congr rfl rfl rfl
  | kept _ _ _ hfind _ =>
      rw [nodeRecordSchedule_eq_ackIn]
      obtain ⟨-, rfl⟩ := RxPacketManager.findFreeRxPacket_some hfind
      exact h.congr rfl rfl rfl
  | inOrder _ _ hfind _ _ _ =>
      rw [nodeRecordSchedule_eq_ackIn]
      obtain ⟨-, rfl⟩ := RxPacketManager.findFreeRxPacket_some hfind
      exact ⟨h.initialised, ⟨h.proper.start, h.proper.next, h.proper.stop⟩, h.table, h.buffers⟩

theorem Node.Ready.processRx (h : node.Ready) (hrx : nodeProcessRx node = .ok node') : node'.Ready := by
  obtain ⟨m, hack, hframe⟩ := nodeProcessRx_ok hrx
  have hm : ({ node with txManager := m } : Node).Ready := by
    rcases hack with ⟨-, rfl⟩ | ⟨k, -, hack⟩
    · exact h
    · obtain ⟨hproper, htable⟩ := h.proper.rxAck hack
      exact h.withTxManager hproper htable
  rcases hframe with ⟨-, rfl⟩ | ⟨e, -, -, hresult⟩
  · exact hm
  · cases hresult with
    | freed _ => exact hm.congr rfl rfl rfl
    | joined _ _ _ _ => exact hm.congr rfl rfl rfl
    | stored _ _ _ _ _ hadd => exact hm.congr rfl rfl (RxPacketManager.addRxDataPacket_fields hadd).1

theorem Node.Ready.processTx (h : node.Ready) (htx : nodeProcessTx node = .ok node') : node'.Ready := by
  unfold nodeProcessTx at htx
  split at htx
  · cases htx
    exact h
  · split at htx
    · obtain ⟨⟨r, m⟩, hget, htx⟩ := bind_eq_ok.mp htx
      have hm : m.Proper ∧ m.maxTxNodes = node.txManager.maxTxNodes := by
        unfold nodeGetNextTxDataPacket at hget
        split at hget
        · cases hget
          exact ⟨h.proper, rfl⟩
        · obtain ⟨⟨e, m₁⟩, hnext, hget⟩ := bind_eq_ok.mp hget
          have hm₁ : m₁.Proper ∧ m₁.maxTxNodes = node.txManager.maxTxNodes := by
            obtain ⟨-, ⟨-, -, rfl⟩ | ⟨-, -, -, rfl⟩ | ⟨i, -, -, -, -, rfl⟩⟩ := getNext_ok hnext
            · exact ⟨h.proper, rfl⟩
            · exact ⟨⟨h.proper.start, h.proper.next, h.proper.stop⟩, rfl⟩
            · exact ⟨⟨h.proper.start, update_ne_null h.proper.next (incrSequenceNum_ne_null _) _, h.proper.stop⟩,
                rfl⟩
          cases e with
          | none => cases hget; exact hm₁
          | some i => cases hget; exact ⟨⟨hm₁.1.start, hm₁.1.next, hm₁.1.stop⟩, hm₁.2⟩
      have hready := h.withTxManager hm.1 hm.2
      cases r with
      | none => cases htx; exact hready.congr rfl rfl rfl
      | some i =>
          cases htx
          exact ⟨hready.initialised, ⟨hready.proper.start, hready.proper.next, hready.proper.stop⟩, hready.table,
            hready.buffers⟩
    · cases htx
      unfold nodeProcessTxUnallocated
      split <;> exact h.congr rfl rfl rfl

theorem Node.Ready.getTxPacket (h : node.Ready) : (nodeGetTxPacket node).1.Ready := by
  have hassign : ∀ {n : Node} (r : TxRef) (p : Packet), n.Ready → (n.assign r p).Ready := by
    intro n r p hn
    cases r with
    | entry i =>
        exact ⟨hn.initialised, ⟨hn.proper.start, hn.proper.next, hn.proper.stop⟩, hn.table, hn.buffers⟩
    | tmpPacket => exact hn.congr rfl rfl rfl
    | tmpEmptyPacketHeader i => exact hn.congr rfl rfl rfl
  have hsend : ∀ {n : Node}, n.Ready → (nodeSendTxPacket n).1.Ready := by
    intro n hn
    unfold nodeSendTxPacket nodeQuickUpdateTxPacket
    dsimp only
    split
    · exact hn.congr rfl rfl rfl
    · exact (hassign _ _ hn).congr rfl rfl rfl
  unfold nodeGetTxPacket
  split
  · exact h
  · split
    · split
      · exact hsend (h.congr rfl rfl rfl)
      · exact h.congr rfl rfl rfl
    · exact hsend h

theorem Node.Ready.checkIfTimedOut (h : node.Ready) (hc : nodeCheckIfTimedOut node = .ok node') : node'.Ready := by
  rcases nodeCheckIfTimedOut_ok hc with ⟨-, rfl⟩ | ⟨-, hfresh, -⟩
  · exact h
  · exact hfresh.ready

theorem Node.Ready.step {mode : ChannelMode} (h : node.Ready) {a : NodeAction mode} (hs : node.step a = .ok node') :
    node'.Ready := by
  have hreceive : ∀ frame, (node.receive frame).Ready := fun frame => h.congr rfl rfl rfl
  cases a with
  | preProcess frame crcError =>
      obtain ⟨⟨n', f⟩, hpre, hs⟩ := bind_eq_ok.mp hs
      cases hs
      unfold nodeDualChannelPipelinedPreProcess at hpre
      rw [if_neg (by rw [(hreceive frame).initialised]; decide)] at hpre
      obtain ⟨n, hq, hpre⟩ := bind_eq_ok.mp hpre
      have hn : (nodeUpdateSchedule n).Ready := ((hreceive frame).quickRx hq).congr rfl rfl rfl
      dsimp only at hpre
      split at hpre
      · have hget := hn.getTxPacket
        rw [pure_eq_ok.mp hpre] at hget
        exact hget
      · cases hpre
        exact hn
  | postProcess =>
      obtain ⟨n₁, n₂, h₁, h₂, h₃⟩ := nodePostProcess_ok h.initialised hs
      exact ((h.checkIfTimedOut h₁).processRx h₂).processTx h₃
  | isTxMode =>
      obtain ⟨⟨isTx, n'⟩, htx, hs⟩ := bind_eq_ok.mp hs
      cases hs
      obtain ⟨n, hn, -, rfl⟩ := nodeIsTxMode_ok h.initialised htx
      exact (h.checkIfTimedOut hn).congr rfl rfl rfl
  | processRx frame crcError =>
      obtain ⟨n, hq, hrx⟩ := nodeNoDelayProcessRx_ok (hreceive frame).initialised hs
      exact ((hreceive frame).quickRx hq).processRx hrx
  | processTx =>
      obtain ⟨⟨n', f⟩, htx, hs⟩ := bind_eq_ok.mp hs
      cases hs
      unfold nodeNoDelaySingleChannelProcessTx at htx
      rw [if_neg (by rw [h.initialised]; decide)] at htx
      obtain ⟨n, hn, htx⟩ := bind_eq_ok.mp htx
      have hget := (h.processTx hn).getTxPacket
      rw [pure_eq_ok.mp htx] at hget
      exact hget
  | updateTimeUs usIncr =>
      cases hs
      exact h.congr rfl rfl rfl
  | allocate =>
      obtain ⟨⟨r, n⟩, halloc, hs⟩ := bind_eq_ok.mp hs
      cases hs
      obtain ⟨⟨r', m⟩, hone, halloc⟩ := bind_eq_ok.mp halloc
      cases halloc
      rcases allocateTxPacket_ok hone with ⟨-, rfl⟩ | ⟨i, -, -, ⟨-, rfl, -⟩ | ⟨-, rfl⟩⟩
      · exact h
      · exact h.withTxManager ⟨h.proper.start, h.proper.next, h.proper.stop⟩ rfl
      · exact h.withTxManager ⟨h.proper.start, h.proper.next, h.proper.stop⟩ rfl
  | write data =>
      cases hs
      have ht : Touched false node.txManager (writeAllocatedPacket node.txManager data) := touched_write _ data
      refine h.withTxManager ⟨?_, ?_, ?_⟩ ht.maxTxNodes
      · rw [ht.start]
        exact h.proper.start
      · rw [ht.next]
        exact h.proper.next
      · rw [ht.stop]
        exact h.proper.stop
  | submit numBytes =>
      obtain ⟨_, -, hs⟩ := bind_eq_ok.mp hs
      obtain ⟨_, -, hs⟩ := bind_eq_ok.mp hs
      obtain ⟨m, hm, hs⟩ := bind_eq_ok.mp hs
      cases hs
      rcases submitAllocatedTxPacket_ok hm with ⟨hc, -, -⟩ | ⟨i, q, -, -, -, -, -, -, rfl⟩
      · cases hc
      · exact h.withTxManager ⟨h.proper.start, h.proper.next,
          update_ne_null h.proper.stop (incrSequenceNum_ne_null _) _⟩ rfl
  | peek =>
      obtain ⟨r, -, hs⟩ := bind_eq_ok.mp hs
      cases hs
      exact h
  | pop =>
      obtain ⟨rpm, hpop, hs⟩ := bind_eq_ok.mp hs
      cases hs
      exact h.congr rfl rfl (popNextDataPacket_ok hpop).1
  | reset => exact (nodeReset_ok hs).1.ready

theorem ready_of_reachable {cfg : NodeConfig} (h : (nodeSystem cfg).Reachable node) : node.Ready := by
  refine System.ReachableWhen.invariant h ?_ fun _ _ _ hready _ hs => hready.step hs
  rintro node ⟨entries, hinit⟩
  exact (nodeInit_ok hinit).1.ready

end Ready

end Microbus
