import Microbus.TxRun
import Microbus.NodeRun

/-! What the counters of a window tell about the packets that wait for an acknowledgement. -/
namespace Microbus

open Transition

section Counters

variable {isMaster : Bool} {maxPacketEntries : UInt8} {s s' : TxRun} {g : Ledger} {d : TNodeIndex}

namespace TxRun.Counted

theorem length_unacked (h : s.Counted g) (d : TNodeIndex) : (s.unacked d).length = g.stop d - g.start d := by
  rw [h.unacked, List.length_map, List.length_range']

theorem nodup_unacked (h : s.Counted g) (d : TNodeIndex) : (s.unacked d).Nodup := by
  have hle := h.counters.window_le_255 d
  rw [h.unacked]
  refine List.Nodup.map_on ?_ List.nodup_range'
  intro a ha b hb hab
  rw [List.mem_range'_1] at ha hb
  exact Cyclic.eq_of_mod_eq (seq_eq_iff.mp hab) (by omega) (by omega)

theorem start_eq_end_iff (h : s.Counted g) (d : TNodeIndex) :
    s.manager.txSeqNumStart d = s.manager.txSeqNumEnd d ↔ s.unacked d = [] ∨ (s.unacked d).length = 255 := by
  have hc := h.counters.at d
  have hle := hc.start_le_stop
  rw [hc.start_eq, hc.stop_eq, seq_start_eq_end hle hc.window_le_255, ← List.length_eq_zero_iff, h.length_unacked]
  omega

/-- The difference of the counters, unless the numbers start again within the window. -/
theorem getNumInTxBuffer_iff (h : s.Counted g) (hfull : g.stop d < g.start d + 255) :
    (getNumInTxBuffer s.manager d).toNat = (s.unacked d).length ↔
    s.manager.txSeqNumStart d ≤ s.manager.txSeqNumEnd d := by
  have hc := h.counters.at d
  have hle := hc.start_le_stop
  have hstart : g.start d % 255 < 255 := Nat.mod_lt _ (by decide)
  have hstop : g.stop d % 255 < 255 := Nat.mod_lt _ (by decide)
  unfold getNumInTxBuffer
  rw [h.length_unacked, hc.start_eq, hc.stop_eq, UInt8.le_iff_toNat_le, UInt8.toNat_sub, seq_toNat, seq_toNat]
  omega

theorem step_size (h : s.Counted g) {a : TxAction} (hs : s.step isMaster a = .ok s') :
    s'.manager.size = s.manager.size := by
  cases a with
  | allocate =>
      obtain ⟨⟨r, m⟩, halloc, hs⟩ := bind_eq_ok.mp hs
      cases hs
      rcases allocateTxPacket_ok halloc with ⟨-, rfl⟩ | ⟨i, -, -, ⟨-, rfl, -⟩ | ⟨-, rfl⟩⟩
      · rfl
      · rfl
      · rfl
  | write data =>
      cases hs
      have t : Touched isMaster s.manager (writeAllocatedPacket s.manager data) := touched_write s.manager data
      exact t.size
  | submit ttl src dst type size =>
      obtain ⟨m, hsubmit, hs⟩ := bind_eq_ok.mp hs
      have hm : m.size = s.manager.size := by
        rcases submitAllocatedTxPacket_ok hsubmit with ⟨-, -, rfl⟩ | ⟨i, q, -, -, -, -, -, -, rfl⟩
        · rfl
        · rfl
      split at hs
      · cases hs
        exact hm
      · cases hs
        exact hm
  | transmit burstSize =>
      obtain ⟨m, hm, rfl⟩ := TxRun.transmit_ok hs
      exact hm.size
  | ack src a =>
      obtain ⟨⟨n, m⟩, hack, hs⟩ := bind_eq_ok.mp hs
      cases hs
      exact congrArg UInt8.toNat (h.counters.rxAck_frees hack).maxEntries

end TxRun.Counted

theorem size_of_reachable (h : (txSystem isMaster maxPacketEntries).Reachable s) :
    s.manager.size = maxPacketEntries.toNat := by
  have hall : (∃ g, s.Counted g) ∧ s.manager.size = maxPacketEntries.toNat := by
    refine System.ReachableWhen.invariant (P := fun s => (∃ g, TxRun.Counted s g) ∧
      s.manager.size = maxPacketEntries.toNat) h
      ?_ ?_
    · rintro s ⟨packetEntries, rfl⟩
      refine ⟨⟨_, .start isMaster maxPacketEntries packetEntries⟩, ?_⟩
      cases isMaster with
      | true => rfl
      | false => rfl
    · rintro s a s' ⟨⟨g, hg⟩, hsize⟩ - hs
      exact ⟨hg.step hs, (hg.step_size hs).trans hsize⟩
  exact hall.2

/-- Equal counters tell that no packet of `d` waits, and the packets that wait have different numbers, exactly
unless the store holds 255 packets of `d`. -/
theorem empty_counters_iff (h : (txSystem isMaster maxPacketEntries).Reachable s) (d : TNodeIndex) :
    ((s.manager.txSeqNumStart d = s.manager.txSeqNumEnd d ↔ s.unacked d = []) ∧ (s.unacked d).Nodup) ↔
      (s.unacked d).length ≠ 255 := by
  obtain ⟨g, hg⟩ := counted_of_reachable h
  rw [hg.start_eq_end_iff, and_iff_left (hg.nodup_unacked d)]
  constructor
  · intro hiff hfull
    have hempty := hiff.mp (Or.inr hfull)
    rw [hempty] at hfull
    cases hfull
  · exact fun hfull => ⟨fun hc => hc.resolve_right hfull, Or.inl⟩

/-- Of four packets the first one is acknowledged: the numbers of the three that wait are distinct, and the counters
differ. -/
theorem empty_counters_iff_three : ∃ s, (txSystem true 255).Reachable s ∧ s.unacked 1 = [1, 2, 3] ∧
    (s.manager.txSeqNumStart 1 = s.manager.txSeqNumEnd 1 ↔ s.unacked 1 = []) ∧ (s.unacked 1).Nodup := by
  obtain ⟨s, hrun, hunacked⟩ := System.exists_of_holdsAfter
    (x := (txSystem true 255).run (.start true 255 fun _ => ⟨false, Packet.zero⟩)
      ((List.replicate 4 [TxAction.allocate, .submit 1 0 1 .masterData 4]).flatten ++ [.transmit 1, .ack 1 0]))
    (p := fun s => s.unacked 1 == [1, 2, 3]) (by decide +kernel)
  have hs : (txSystem true 255).Reachable s := System.Reachable.run (.init ⟨_, rfl⟩) hrun
  refine ⟨s, hs, eq_of_beq hunacked, (empty_counters_iff hs 1).mpr ?_⟩
  rw [eq_of_beq hunacked]
  decide

/-- A node has submitted `k` packets, and none of them is freed. -/
structure TxRun.Holds (s : TxRun) (k : Nat) : Prop where
  reachable : (txSystem false 255).Reachable s
  allocated : s.manager.allocatedPacket = none
  queue : s.manager.activeTxNodes = none
  table : s.manager.maxTxNodes = 1
  used : s.manager.packetStore.usedEntries.card = k
  given : (s.given masterNodeId).length = k
  freed : s.freed masterNodeId = 0

theorem TxRun.Holds.start : (TxRun.start false 255 fun _ => ⟨false, Packet.zero⟩).Holds 0 := by
  refine ⟨.init ⟨_, rfl⟩, rfl, rfl, rfl, ?_, rfl, rfl⟩
  rw [Finset.card_eq_zero, Finset.eq_empty_iff_forall_notMem]
  intro i hi
  obtain ⟨hlt, huse⟩ := PacketStore.mem_usedEntries.mp hi
  exact not_live_init i ⟨hlt, huse, nofun⟩

theorem TxRun.Holds.submit {k : Nat} (h : s.Holds k) (hk : k < 255) : ∃ s' : TxRun, s'.Holds (k + 1) := by
  have hsize : s.manager.size = 255 := size_of_reachable h.reachable
  obtain ⟨j, hj, hfree⟩ : ∃ j ∈ Finset.range s.manager.size, j ∉ s.manager.packetStore.usedEntries := by
    refine Finset.exists_mem_notMem_of_card_lt_card ?_
    rw [h.used, Finset.card_range, hsize]
    exact hk
  have hjlt := Finset.mem_range.mp hj
  have hjfree : (s.manager.entry j).inUse = false := by
    rw [Bool.eq_false_iff]
    exact fun hc => hfree (PacketStore.mem_usedEntries.mpr ⟨hjlt, hc⟩)
  obtain ⟨i, hi, halloc⟩ := allocateTxPacket_of_free h.allocated h.queue hjlt hjfree
  generalize hm₁ : ({ s.manager.takeEntry i with allocatedPacket := some i } : TxManager) = m₁ at halloc
  have hallocated : m₁.allocatedPacket = some i := by rw [← hm₁]
  have hqueue : m₁.activeTxNodes = none := by
    rw [← hm₁]
    exact h.queue
  have htable : m₁.maxTxNodes = 1 := by
    rw [← hm₁]
    exact h.table
  have hused : m₁.packetStore.usedEntries.card = k + 1 := by
    rw [← hm₁, ← h.used]
    exact TxManager.usedEntries_takeEntry hi
  have hadd : addActiveTxNode m₁ false masterNodeId = .ok m₁.activeTxNodes := if_neg fun hc => Bool.noConfusion hc.1
  obtain ⟨m₂, hsubmit⟩ : ∃ m₂, submitAllocatedTxPacket m₁ false 0 1 masterNodeId .nodeData 1 = .ok m₂ :=
    submitAllocatedTxPacket_total hallocated ⟨by decide, by decide⟩ (htable ▸ Nat.one_pos)
      (fun _ => ⟨rfl, nofun⟩) hadd
  have hstep₁ : (txSystem false 255).step s .allocate = .ok { s with manager := m₁ } :=
    bind_eq_ok.mpr ⟨_, halloc, rfl⟩
  have hstep₂ : (txSystem false 255).step { s with manager := m₁ } (.submit 0 1 masterNodeId .nodeData 1) = .ok
      ⟨m₂, Function.update s.given masterNodeId (s.given masterNodeId ++ [(m₂.entry i).packet.txSeqNum]),
        s.freed⟩ := by
    refine bind_eq_ok.mpr ⟨m₂, hsubmit, ?_⟩
    rw [if_neg fun hc => Bool.noConfusion hc.1, hallocated]
    rfl
  rcases submitAllocatedTxPacket_ok hsubmit with ⟨hc, -⟩ | ⟨i', q, -, -, -, -, -, hadd', rfl⟩
  · cases hc
  · obtain rfl := addActiveTxNode_node hadd'
    have hreach₁ : (txSystem false 255).Reachable { s with manager := m₁ } :=
      .step h.reachable trivial hstep₁
    refine ⟨_, ⟨.step hreach₁ trivial hstep₂, rfl, hqueue, htable, ?_, ?_,
      h.freed⟩⟩
    · rw [TxManager.usedEntries_submitEntry]
      exact hused
    · have hgiven := h.given
      dsimp only
      rw [Function.update_self, List.length_append, hgiven]
      rfl

theorem exists_holds : ∀ k, k ≤ 255 → ∃ s : TxRun, s.Holds k
  | 0, _ => ⟨_, .start⟩
  | k + 1, hk => by
      obtain ⟨s, hs⟩ := exists_holds k (by omega)
      exact hs.submit hk

/-- With 255 packets submitted the counters are equal again. -/
theorem full_store_looks_empty : ∃ s, (txSystem false 255).Reachable s ∧
    s.manager.txSeqNumStart masterNodeId = s.manager.txSeqNumEnd masterNodeId ∧
    (s.unacked masterNodeId).length = 255 := by
  obtain ⟨s, hs⟩ := exists_holds 255 (Nat.le_refl _)
  obtain ⟨g, hg⟩ := counted_of_reachable hs.reachable
  have hlength : (s.unacked masterNodeId).length = 255 := by
    unfold TxRun.unacked
    rw [hs.freed, List.drop_zero, hs.given]
  exact ⟨s, hs.reachable, (hg.start_eq_end_iff masterNodeId).mpr (Or.inr hlength), hlength⟩

theorem nodeProcessTx_bufferLevel {node node' : Node} {r : TxRef} (hkeep : ¬ node.keepsTxPacket)
    (hid : node.nodeId ≠ unallocatedNodeId) (h : nodeProcessTx node = .ok node') (hr : node'.nextTxPacket = some r) :
    (node'.deref r).bufferLevel = getNumInTxBuffer node.txManager masterNodeId := by
  unfold nodeProcessTx at h
  rw [if_neg hkeep, if_pos hid] at h
  obtain ⟨⟨e, m⟩, hget, h⟩ := bind_eq_ok.mp h
  have hmoves := TxManager.nodeGetNext_moves hget 0
  have hlevel : getNumInTxBuffer m masterNodeId = getNumInTxBuffer node.txManager masterNodeId := by
    unfold getNumInTxBuffer
    rw [hmoves.start, hmoves.stop]
  cases e with
  | some i =>
      cases h
      cases hr
      rw [← hlevel]
      change ((m.packetStore.setPacket i _).entries i).packet.bufferLevel = _
      rw [entry_setPacket, if_pos rfl]
      rfl
  | none =>
      cases h
      cases hr
      rw [← hlevel]
      change (Function.update node.tmpEmptyPacketHeader _ _ _).bufferLevel = _
      rw [Function.update_self]
      rfl

/-- The number of packets that the node counts is right exactly as long as the numbers do not start again within
the window. -/
theorem buffer_count_iff {node : Node} (hsize : maxPacketEntries.toNat ≤ 254)
    (h : (txSystem false maxPacketEntries).Reachable s)
    (hstart : node.txManager.txSeqNumStart masterNodeId = s.manager.txSeqNumStart masterNodeId)
    (hend : node.txManager.txSeqNumEnd masterNodeId = s.manager.txSeqNumEnd masterNodeId) :
    ((getNumInTxBuffer s.manager masterNodeId).toNat = (s.unacked masterNodeId).length ↔
        s.manager.txSeqNumStart masterNodeId ≤ s.manager.txSeqNumEnd masterNodeId) ∧
      ∀ node' r, ¬ node.keepsTxPacket → node.nodeId ≠ unallocatedNodeId → nodeProcessTx node = .ok node' →
        node'.nextTxPacket = some r →
        ((node'.deref r).bufferLevel.toNat = (s.unacked masterNodeId).length ↔
          s.manager.txSeqNumStart masterNodeId ≤ s.manager.txSeqNumEnd masterNodeId) := by
  obtain ⟨g, hg⟩ := counted_of_reachable h
  have hcount : (getNumInTxBuffer s.manager masterNodeId).toNat = (s.unacked masterNodeId).length ↔
      s.manager.txSeqNumStart masterNodeId ≤ s.manager.txSeqNumEnd masterNodeId := by
    refine hg.getNumInTxBuffer_iff ?_
    have hwindow := g.window_le_numQueued masterNodeId
    have hbacked := hg.backed
    have hcard := s.manager.packetStore.card_usedEntries_le
    have hstore : s.manager.packetStore.maxEntries.toNat = maxPacketEntries.toNat := size_of_reachable h
    omega
  refine ⟨hcount, fun node' r hkeep hid hprocess hr => ?_⟩
  have hsame : getNumInTxBuffer node.txManager masterNodeId = getNumInTxBuffer s.manager masterNodeId := by
    unfold getNumInTxBuffer
    rw [hstart, hend]
  rw [nodeProcessTx_bufferLevel hkeep hid hprocess hr, hsame]
  exact hcount

end Counters

/-- A node that has joined and taken a packet of the master has three packets to send. -/
def joinedWithThree : List (NodeAction .dual) :=
  nodeSlot Packet.zero ++ nodeSlot responseFrame ++ nodeSlot (scheduledFrame 0 invalidSequenceNum) ++
    nodeSlot firstMasterFrame ++ (List.replicate 3 [.allocate, .submit 4]).flatten

/-- The frame that it prepares reports three packets. -/
theorem buffer_count_iff_three : ∃ (s : TxRun) (node node' : Node), (txSystem false 4).Reachable s ∧
    (nodeSystem dualNodeConfig).Reachable node ∧ node.txManager.rxSeqNum masterNodeId = 0 ∧
    (s.unacked masterNodeId).length = 3 ∧ nodeProcessTx node = .ok node' ∧
    node'.nextTxPacket = some (.entry 0) ∧ (getNumInTxBuffer s.manager masterNodeId).toNat = 3 ∧
    (node'.deref (.entry 0)).bufferLevel.toNat = 3 := by
  obtain ⟨s, hrun, hs⟩ := System.exists_of_holdsAfter
    (x := (txSystem false 4).run (.start false 4 fun _ => ⟨false, Packet.zero⟩)
      (List.replicate 3 [TxAction.allocate, .submit 0 1 masterNodeId .nodeData 4]).flatten)
    (p := fun s => decide ((s.unacked masterNodeId).length = 3 ∧ s.manager.txSeqNumStart masterNodeId = 0 ∧
      s.manager.txSeqNumEnd masterNodeId = 3)) (by decide +kernel)
  obtain ⟨hlength, hstart, hend⟩ := of_decide_eq_true hs
  obtain ⟨node, hjoined, hnode⟩ := System.exists_of_holdsAfter
    (x := (nodeSystem dualNodeConfig).run blankNode joinedWithThree)
    (p := fun node => decide (node.txManager.rxSeqNum masterNodeId = 0 ∧ ¬ node.keepsTxPacket ∧
        node.nodeId ≠ unallocatedNodeId ∧ node.txManager.txSeqNumStart masterNodeId = 0 ∧
        node.txManager.txSeqNumEnd masterNodeId = 3) &&
      System.holdsAfter (nodeProcessTx node) fun node' => node'.nextTxPacket == some (.entry 0)) (by decide +kernel)
  obtain ⟨hnode, hprocess⟩ := Bool.and_eq_true_iff.mp hnode
  obtain ⟨hrx, hkeep, hid, hstart', hend'⟩ := of_decide_eq_true hnode
  obtain ⟨node', hprocess, hnext⟩ := System.exists_of_holdsAfter hprocess
  have hs : (txSystem false 4).Reachable s := System.Reachable.run (.init ⟨_, rfl⟩) hrun
  have hle : s.manager.txSeqNumStart masterNodeId ≤ s.manager.txSeqNumEnd masterNodeId := by
    rw [hstart, hend]
    decide
  obtain ⟨hcount, hlevel⟩ := buffer_count_iff (by decide) hs (hstart'.trans hstart.symm) (hend'.trans hend.symm)
  refine ⟨s, node, node', hs, System.Reachable.run (.init blankNode_init) hjoined, hrx, hlength, hprocess,
    eq_of_beq hnext, ?_, ?_⟩
  · rw [hcount.mpr hle, hlength]
  · rw [(hlevel node' _ hkeep hid hprocess (eq_of_beq hnext)).mpr hle, hlength]

/-- After 254 packets one by one the window starts at number 254, and the next packet makes it end at 0. -/
theorem buffer_count_wraps : ∃ s, (txSystem false 8).Reachable s ∧
    getNumInTxBuffer s.manager masterNodeId = 2 ∧ (s.unacked masterNodeId).length = 1 := by
  obtain ⟨s, hrun, hcheck⟩ := System.exists_of_holdsAfter
    (x := (txSystem false 8).run (.start false 8 fun _ => ⟨false, Packet.zero⟩)
      ((List.range 254).flatMap sendAndAck ++ [.allocate, .submit 0 1 masterNodeId .nodeData 1]))
    (p := fun s => getNumInTxBuffer s.manager masterNodeId == 2 && (s.unacked masterNodeId).length == 1)
    (by decide +kernel)
  obtain ⟨hlevel, hlength⟩ := Bool.and_eq_true_iff.mp hcheck
  exact ⟨s, System.Reachable.run (.init ⟨_, rfl⟩) hrun, eq_of_beq hlevel, eq_of_beq hlength⟩

end Microbus
