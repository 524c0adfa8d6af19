import Microbus.EmissionMaster
import Microbus.NodeTx

/-! The frames of a node on the wire. -/
namespace Microbus

open Transition

/-- An acknowledgement of number `a` names the packet of entry `i` or a later one. -/
def TxManager.Acknowledges (m : TxManager) (a : UInt8) (i : Nat) : Prop :=
  m.InWindow masterNodeId a ∧
    cyclicLength (m.txSeqNumStart masterNodeId) (m.entry i).packet.txSeqNum ≤
      cyclicLength (m.txSeqNumStart masterNodeId) a

instance (m : TxManager) (a : UInt8) (i : Nat) : Decidable (m.Acknowledges a i) := by
  unfold TxManager.Acknowledges; infer_instance

/-- The packet of entry `i` was chosen and is not acknowledged yet. -/
def TxManager.Chosen (m : TxManager) (i : Nat) : Prop := ∃ g, NodeTxInv.ChosenBy m g i

section Chosen

variable {m m' : TxManager} {g : Ledger} {i : Nat}

namespace NodeTxInv.ChosenBy

theorem touched (h : ChosenBy m g i) (t : Touched false m m') (hqueue : m'.activeTxNodes = m.activeTxNodes)
    (hpause : m'.txSeqNumPauseCount = m.txSeqNumPauseCount) : ChosenBy m' g i :=
  ⟨h.inv.touched t hqueue, (t.live i).mpr h.live, h.before, by rw [hpause]; exact h.notPaused⟩

theorem allocate (h : ChosenBy m g i) {r : Option Nat} (ha : allocateTxPacket m = .ok (r, m')) : ChosenBy m' g i := by
  rcases h.inv.allocate ha with ⟨-, rfl⟩ | ⟨u, -, hfree, hnone, rfl, hinv⟩
  · exact h
  · exact ⟨hinv, (live_allocate hfree hnone i).mpr h.live, h.before, h.notPaused⟩

theorem submit (h : ChosenBy m g i) {u : Nat} {src : TNodeIndex} {type : PacketType} {size : UInt16}
    {q : Option NodeQueue} (ha : m.allocatedPacket = some u) (hadd : addActiveTxNode m false masterNodeId = .ok q) :
    ChosenBy (m.submitEntry u (fillHeader (m.entry u).packet false src masterNodeId type size
      (m.txSeqNumEnd masterNodeId)) masterNodeId q) (g.submit u masterNodeId) i where
  inv := h.inv.submit ha hadd
  live := (live_submit ha (h.inv.store.allocated u ha) i).mpr (Or.inr h.live)
  before := by
    have hne : i ≠ u := fun hc => h.live.notAllocated (by rw [hc, ha])
    change (Function.update g.owner u _ i).2 < g.next masterNodeId
    rw [Function.update_of_ne hne]
    exact h.before
  notPaused := h.notPaused

theorem owner_fst (h : ChosenBy m g i) : (g.owner i).1 = masterNodeId :=
  (congrArg Prod.fst (h.inv.store.owner_key i h.live)).symm

theorem acknowledges_iff (h : ChosenBy m g i) {a : UInt8} : m.Acknowledges a i ↔
    g.stop masterNodeId < g.start masterNodeId + 255 ∧
      ∃ k, g.start masterNodeId ≤ k ∧ k < g.stop masterNodeId ∧ a = seq k ∧ (g.owner i).2 ≤ k := by
  have hc := h.inv.store.counters
  have hseq : (m.entry i).packet.txSeqNum = seq (g.owner i).2 := congrArg Prod.snd (h.inv.store.owner_key i h.live)
  obtain ⟨hstart, hstop⟩ := h.inv.store.owner_mem i h.live
  rw [h.owner_fst] at hstart hstop
  unfold TxManager.Acknowledges
  rw [hc.inWindow_iff, hseq, hc.start_eq]
  constructor
  · rintro ⟨⟨hfull, k, hs, he, rfl⟩, hle⟩
    rw [cyclicLength_seq hstart, cyclicLength_seq hs, Nat.mod_eq_of_lt (by omega), Nat.mod_eq_of_lt (by omega)] at hle
    exact ⟨hfull, k, hs, he, rfl, by omega⟩
  · rintro ⟨hfull, k, hs, he, rfl, hle⟩
    refine ⟨⟨hfull, k, hs, he, rfl⟩, ?_⟩
    rw [cyclicLength_seq hstart, cyclicLength_seq hs, Nat.mod_eq_of_lt (by omega), Nat.mod_eq_of_lt (by omega)]
    omega

theorem ack (h : ChosenBy m g i) {a : UInt8} {n : Nat} (hack : rxAckSeqNum m masterNodeId a false = .ok (n, m')) :
    (m.Acknowledges a i ∧ (m'.entry i).inUse = false) ∨ (¬ m.Acknowledges a i ∧ m'.Chosen i) := by
  obtain ⟨g', hresult, hinv⟩ := h.inv.ack hack
  rw [h.acknowledges_iff]
  cases hresult with
  | null ha =>
      refine Or.inr ⟨?_, g, h⟩
      rintro ⟨-, k, -, -, hk, -⟩
      exact seq_ne_null k (hk.symm.trans ha)
  | missed _ hmiss =>
      have hsame : m.missAck masterNodeId = m := by
        unfold TxManager.missAck
        rw [if_neg (by rw [h.notPaused]; exact Nat.lt_irrefl 0)]
      rw [hsame]
      refine Or.inr ⟨?_, g, h⟩
      rintro ⟨hfull, k, hs, he, hk, -⟩
      exact hmiss hfull k hs he hk
  | @valid k s hs he hfull ha hrel =>
      have hused := hrel.inUse i
      by_cases hle : (g.owner i).2 ≤ k
      · refine Or.inl ⟨⟨hfull, k, hs, he, ha, hle⟩, ?_⟩
        change (s.entries i).inUse = false
        exact Bool.not_eq_true _ ▸ fun huse => (hused.mp huse).2 ⟨h.live, h.owner_fst, Nat.lt_succ_of_le hle⟩
      · refine Or.inr ⟨?_, g.acknowledge masterNodeId (k + 1), hinv, ?_, ?_, ?_⟩
        · rintro ⟨-, j, hj, hj', hk, hle'⟩
          have := Cyclic.eq_of_mod_eq (seq_eq_iff.mp (ha.symm.trans hk)) (by omega) (by omega)
          omega
        · refine ⟨?_, hused.mpr ⟨h.live.inUse, fun hc => hle (Nat.le_of_lt_succ hc.2.2)⟩, h.live.notAllocated⟩
          exact h.live.lt.trans_eq (congrArg UInt8.toNat hrel.maxEntries).symm
        · change (g.owner i).2 < Function.update g.next masterNodeId (max (g.next masterNodeId) (k + 1)) masterNodeId
          rw [Function.update_self]
          exact h.before.trans_le (Nat.le_max_left _ _)
        · exact Function.update_self masterNodeId 0 m.txSeqNumPauseCount

theorem ne_next (h : ChosenBy m g i) {j : Nat} (hget : nodeGetNextTxDataPacket m = .ok (some j, m')) : j ≠ i := by
  obtain ⟨g', -, hnext⟩ := h.inv.choose hget
  rintro rfl
  have hnumber := (hnext j rfl).1
  exact absurd h.before (Nat.not_lt.mpr hnumber.ge)

end NodeTxInv.ChosenBy

theorem TxManager.Chosen.inUse (h : m.Chosen i) : (m.entry i).inUse = true := by
  obtain ⟨g, h⟩ := h
  exact h.live.inUse

end Chosen

section Requests

variable (p : Packet) (uniqueId : UInt64)

theorem txNewNodeRequest_isType : (txNewNodeRequest p uniqueId).IsType .newNodeRequest := Packet.isType_of_byte rfl

theorem txNewNodeRequest_idem :
    txNewNodeRequest (txNewNodeRequest p uniqueId) uniqueId = txNewNodeRequest p uniqueId := by
  unfold txNewNodeRequest Packet.setUniqueId Packet.setSrcNodeId Packet.setProtocolVersionAndPacketType
  dsimp only
  congr 1
  · exact Function.update_idem _ _ _
  · funext j
    split <;> rfl

theorem txNewNodeRequest_setAckSeqNum (v : UInt8) :
    txNewNodeRequest (p.setAckSeqNum v) uniqueId = (txNewNodeRequest p uniqueId).setAckSeqNum v := by
  unfold txNewNodeRequest Packet.setUniqueId Packet.setSrcNodeId Packet.setProtocolVersionAndPacketType
    Packet.setAckSeqNum
  dsimp only
  congr 1
  exact Function.update_comm (by decide) _ _ _

end Requests

structure Node.SameFrames (node node' : Node) : Prop where
  nextTxPacket : node'.nextTxPacket = node.nextTxPacket
  tmpPacketCycle : node'.tmpPacketCycle = node.tmpPacketCycle
  tmpPacket : node'.tmpPacket = node.tmpPacket
  tmpEmptyPacketHeader : node'.tmpEmptyPacketHeader = node.tmpEmptyPacketHeader
  sentNewNodeRequest : node'.sentNewNodeRequest = node.sentNewNodeRequest
  uniqueId : node'.uniqueId = node.uniqueId

theorem Node.SameFrames.refl (node : Node) : node.SameFrames node := ⟨rfl, rfl, rfl, rfl, rfl, rfl⟩

theorem Node.SameFrames.deref {node node' : Node} (h : node.SameFrames node')
    (hpackets : ∀ i, (node'.txManager.entry i).packet = (node.txManager.entry i).packet) (r : TxRef) :
    node'.deref r = node.deref r := by
  cases r with
  | entry i => exact hpackets i
  | tmpPacket => exact h.tmpPacket
  | tmpEmptyPacketHeader i => exact congrFun h.tmpEmptyPacketHeader i

/-- A node that was started anew has nothing but the zeroed shared buffer to send. -/
structure Node.Blank (node : Node) : Prop where
  fresh : node.Fresh
  nextTxPacket : node.nextTxPacket = some .tmpPacket
  tmpPacketCycle : node.tmpPacketCycle = 0
  tmpPacket : node.tmpPacket = Packet.zero
  tmpEmptyPacketHeader : node.tmpEmptyPacketHeader = fun _ => Packet.zero
  countdown : node.nextNewNodeResponseCountdown = 0

section Blank

variable {node node' : Node}

theorem nodeInit_blank {uniqueId : UInt64} {maxTx maxRx : UInt8} {entries : Nat → PacketEntry}
    (h : nodeInit uniqueId maxTx entries maxRx = .ok node) :
    node.Blank ∧ ∀ i, (node.txManager.entry i).packet = (entries i).packet := by
  have hfresh := (nodeInit_ok h).1
  obtain ⟨_, -, h⟩ := bind_eq_ok.mp h
  split at h
  · cases h
  · cases h
    refine ⟨⟨hfresh, rfl, rfl, rfl, rfl, rfl⟩, fun i => ?_⟩
    change (if _ then _ else _ : PacketEntry).packet = _
    split <;> rfl

theorem nodeReset_blank (h : nodeReset node = .ok node') :
    node'.Blank ∧ ∀ i, (node'.txManager.entry i).packet = (node.txManager.entry i).packet := nodeInit_blank h

theorem nodeRemoveFromNetwork_blank (hid : node.nodeId ≠ unallocatedNodeId)
    (h : nodeRemoveFromNetwork node = .ok node') :
    node'.Blank ∧ ∀ i, (node'.txManager.entry i).packet = (node.txManager.entry i).packet := by
  unfold nodeRemoveFromNetwork at h
  rw [if_pos hid] at h
  obtain ⟨n, hreset, h⟩ := bind_eq_ok.mp h
  obtain ⟨⟨hfresh, hnext, hcycle, htmp, hheader, hcount⟩, hpacket⟩ := nodeReset_blank hreset
  cases h
  exact ⟨⟨{ hfresh with }, hnext, hcycle, htmp, hheader, hcount⟩, hpacket⟩

theorem nodeCheckIfTimedOut_cases (h : nodeCheckIfTimedOut node = .ok node') :
    (¬ node.timedOut ∧ node' = node) ∨
      (node.timedOut ∧ node'.Blank ∧ ∀ i, (node'.txManager.entry i).packet =
        (node.txManager.entry i).packet) := by
  unfold nodeCheckIfTimedOut at h
  split at h
  · rename_i httl
    by_cases hid : node.nodeId = unallocatedNodeId
    · unfold nodeRemoveFromNetwork at h
      rw [if_neg (not_not.mpr hid)] at h
      cases h
      exact Or.inl ⟨fun hc => hc.1 hid, rfl⟩
    · exact Or.inr ⟨⟨hid, httl⟩, nodeRemoveFromNetwork_blank hid h⟩
  · rename_i httl
    cases h
    exact Or.inl ⟨fun hc => httl hc.2, rfl⟩

theorem nodeQuickProcessPrevRx_frames (hinit : node.initialised = true) {crcError : Bool}
    (h : nodeQuickProcessPrevRx node crcError = .ok node') :
    node'.Blank ∨ (node.SameFrames node' ∧ node'.nodeId = node.nodeId ∧
      ∃ rxSeqNum, node'.txManager = node.txManager.withRxSeqNum rxSeqNum) := by
  have hresult := nodeQuickProcessPrevRx_ok hinit h
  have hkeep : ∀ m : TxManager, m = m.withRxSeqNum m.rxSeqNum := fun _ => rfl
  cases hresult with
  | unread _ => exact Or.inr ⟨⟨rfl, rfl, rfl, rfl, rfl, rfl⟩, rfl, _, hkeep _⟩
  | reset _ _ hremove =>
      by_cases hid : node.opened.nodeId = unallocatedNodeId
      · unfold nodeRemoveFromNetwork at hremove
        rw [if_neg (not_not.mpr hid)] at hremove
        cases hremove
        exact Or.inr ⟨⟨rfl, rfl, rfl, rfl, rfl, rfl⟩, rfl, _, hkeep _⟩
      · exact Or.inl (nodeRemoveFromNetwork_blank hid hremove).1
  | dropped _ _ _ =>
      rw [nodeRecordSchedule_eq_ackIn]
      exact Or.inr ⟨⟨rfl, rfl, rfl, rfl, rfl, rfl⟩, rfl, _, hkeep _⟩
  | kept _ _ _ _ _ =>
      rw [nodeRecordSchedule_eq_ackIn]
      exact Or.inr ⟨⟨rfl, rfl, rfl, rfl, rfl, rfl⟩, rfl, _, hkeep _⟩
  | inOrder _ _ _ _ _ _ =>
      rw [nodeRecordSchedule_eq_ackIn]
      exact Or.inr ⟨⟨rfl, rfl, rfl, rfl, rfl, rfl⟩, rfl, _, rfl⟩

/-- The long part of reception leaves the frames and all packets. Only a node that asked for an id joins. -/
theorem nodeProcessRx_frames (h : nodeProcessRx node = .ok node') : node.SameFrames node' ∧
    (node'.nodeId = node.nodeId ∨ (node.nodeId = unallocatedNodeId ∧ node.sentNewNodeRequest = true)) ∧
    node'.nextNewNodeResponseCountdown = node.nextNewNodeResponseCountdown ∧
    ((node.savedRxAckValid = false ∧ node'.txManager = node.txManager) ∨ ∃ k, node.savedRxAckValid = true ∧
      rxAckSeqNum node.txManager masterNodeId node.savedRxAck false = .ok (k, node'.txManager)) := by
  obtain ⟨m, hack, hframe⟩ := nodeProcessRx_ok h
  rcases hframe with ⟨-, rfl⟩ | ⟨e, -, -, hresult⟩
  · exact ⟨⟨rfl, rfl, rfl, rfl, rfl, rfl⟩, Or.inl rfl, rfl, hack⟩
  · cases hresult with
    | freed _ => exact ⟨⟨rfl, rfl, rfl, rfl, rfl, rfl⟩, Or.inl rfl, rfl, hack⟩
    | joined hid _ hsent _ => exact ⟨⟨rfl, rfl, rfl, rfl, rfl, rfl⟩, Or.inr ⟨hid, hsent⟩, rfl, hack⟩
    | stored _ _ _ _ _ _ => exact ⟨⟨rfl, rfl, rfl, rfl, rfl, rfl⟩, Or.inl rfl, rfl, hack⟩

theorem nodeProcessRx_deref (h : nodeProcessRx node = .ok node') (r : TxRef) : node'.deref r = node.deref r := by
  obtain ⟨hsame, -, -, hack⟩ := nodeProcessRx_frames h
  refine hsame.deref (fun i => ?_) r
  rcases hack with ⟨-, heq⟩ | ⟨k, -, hack⟩
  · rw [heq]
  · exact (rxAckSeqNum_packets hack).packet i

end Blank

/-- What `nodeProcessTx` chooses. -/
inductive Node.Next (node : Node) : Node → Prop
  | kept : node.keepsTxPacket → node.Next node
  | data {i txManager} (packet : Packet) : ¬ node.keepsTxPacket → node.nodeId ≠ unallocatedNodeId →
      nodeGetNextTxDataPacket node.txManager = .ok (some i, txManager) →
      packet.txSeqNum = (txManager.entry i).packet.txSeqNum → node.Next
      { node with
        txManager := { txManager with packetStore := txManager.packetStore.setPacket i packet }
        nextTxPacket := some (.entry i) }
  | empty {txManager} (cycle : Nat) (header : Packet) : ¬ node.keepsTxPacket → node.nodeId ≠ unallocatedNodeId →
      nodeGetNextTxDataPacket node.txManager = .ok (none, txManager) → cycle < 2 → cycle ≠ node.tmpPacketCycle →
      header.protocolVersionAndPacketType ≠ 0 → node.Next
      { node with
        txManager
        tmpPacketCycle := cycle
        tmpEmptyPacketHeader := Function.update node.tmpEmptyPacketHeader cycle header
        nextTxPacket := some (.tmpEmptyPacketHeader cycle) }
  | request (seed : UInt32) (countdown : Nat) : ¬ node.keepsTxPacket → node.nodeId = unallocatedNodeId →
      node.nextNewNodeResponseCountdown = 0 → node.Next
      { node with
        sentNewNodeRequest := true
        tmpPacket := txNewNodeRequest node.tmpPacket node.uniqueId
        nextTxPacket := some .tmpPacket
        nextNewNodeResponseCountdown := countdown
        seed }
  | waits : ¬ node.keepsTxPacket → node.nodeId = unallocatedNodeId →
      node.nextNewNodeResponseCountdown ≠ 0 → node.Next
      { node with
        nextNewNodeResponseCountdown := node.nextNewNodeResponseCountdown - 1
        nextTxPacket := none }

theorem nodeProcessTx_next {node node' : Node} (hcycle : node.tmpPacketCycle < 2) (h : nodeProcessTx node = .ok node') :
    node.Next node' := by
  unfold nodeProcessTx at h
  split at h
  · rename_i hkeeps
    cases h
    exact .kept hkeeps
  · rename_i hkeeps
    split at h
    · rename_i hid
      obtain ⟨⟨r, m⟩, hget, h⟩ := bind_eq_ok.mp h
      cases r with
      | none =>
          cases h
          refine .empty _ _ hkeeps hid hget ?_ ?_ ?_
          · dsimp only
            split <;> omega
          · dsimp only
            split <;> omega
          · change (microbusVersion <<< 4) ||| (PacketType.nodeEmpty.code &&& 0xF) ≠ 0
            decide
      | some i =>
          cases h
          exact .data _ hkeeps hid hget rfl
    · rename_i hid
      cases h
      unfold nodeProcessTxUnallocated
      split
      · rename_i hcount
        exact .request _ _ hkeeps (not_not.mp hid) hcount
      · rename_i hcount
        exact .waits hkeeps (not_not.mp hid) hcount

theorem nodeGetNext_entry {m m' : TxManager} {r : Option Nat} (h : nodeGetNextTxDataPacket m = .ok (r, m')) {j : Nat}
    (hj : r ≠ some j) : m'.entry j = m.entry j := by
  unfold nodeGetNextTxDataPacket at h
  split at h
  · cases h
    rfl
  · obtain ⟨⟨e, m₁⟩, hnext, hret⟩ := bind_eq_ok.mp h
    obtain ⟨-, ⟨rfl, -, rfl⟩ | ⟨rfl, -, -, rfl⟩ | ⟨i, rfl, -, -, -, rfl⟩⟩ := getNext_ok hnext
    · cases hret
      rfl
    · cases hret
      rfl
    · cases hret
      exact Function.update_of_ne (fun hc => hj (congrArg some hc.symm)) _ _

/-- The headers alternate, the shared buffer holds a request once one was sent, and only then does the node join. -/
structure Node.FrameInv (node : Node) : Prop where
  requested : node.sentNewNodeRequest = true → node.tmpPacket.getPacketType = some .newNodeRequest
  request : node.tmpPacket.getPacketType = some .newNodeRequest →
    txNewNodeRequest node.tmpPacket node.uniqueId = node.tmpPacket
  notData : node.tmpPacket.getPacketType ≠ some .nodeData
  joined : node.nodeId ≠ unallocatedNodeId → node.sentNewNodeRequest = true
  waiting : node.nodeId = unallocatedNodeId → node.nextTxPacket = none ∨ node.nextTxPacket = some .tmpPacket
  cycle : node.tmpPacketCycle < 2
  header : ∀ j, node.nextTxPacket = some (.tmpEmptyPacketHeader j) → j = node.tmpPacketCycle ∧
    (node.tmpEmptyPacketHeader j).protocolVersionAndPacketType ≠ 0

/-- The packet that is to be sent next was chosen and is not acknowledged yet. -/
def Node.NextChosen (node : Node) : Prop := ∀ i, node.nextTxPacket = some (.entry i) → node.txManager.Chosen i

namespace Node

variable {node node' : Node}

theorem Blank.frameInv (h : node.Blank) : node.FrameInv where
  requested hs := Bool.noConfusion (h.fresh.sentNewNodeRequest.symm.trans hs)
  request htype := by
    rw [h.tmpPacket] at htype
    exact absurd htype (by decide)
  notData := by
    rw [h.tmpPacket]
    decide
  joined hid := absurd h.fresh.nodeId hid
  waiting _ := Or.inr h.nextTxPacket
  cycle := by
    rw [h.tmpPacketCycle]
    exact Nat.two_pos
  header j hj := by
    rw [h.nextTxPacket] at hj
    cases hj

theorem Blank.nextChosen (h : node.Blank) : node.NextChosen := by
  intro i hi
  rw [h.nextTxPacket] at hi
  cases hi

theorem FrameInv.congr (h : node.FrameInv) (hs : node.SameFrames node')
    (hid : node'.nodeId = node.nodeId ∨ (node.nodeId = unallocatedNodeId ∧ node.sentNewNodeRequest = true)) :
    node'.FrameInv where
  requested hsent := by
    rw [hs.tmpPacket]
    exact h.requested (hs.sentNewNodeRequest ▸ hsent)
  request htype := by
    rw [hs.tmpPacket, hs.uniqueId]
    exact h.request (hs.tmpPacket ▸ htype)
  notData := by
    rw [hs.tmpPacket]
    exact h.notData
  joined hjoined := by
    rw [hs.sentNewNodeRequest]
    rcases hid with hid | ⟨-, hsent⟩
    · exact h.joined (hid ▸ hjoined)
    · exact hsent
  waiting hwait := by
    rw [hs.nextTxPacket]
    rcases hid with hid | ⟨hid, -⟩
    · exact h.waiting (hid ▸ hwait)
    · exact h.waiting hid
  cycle := by
    rw [hs.tmpPacketCycle]
    exact h.cycle
  header j hj := by
    rw [hs.tmpPacketCycle, hs.tmpEmptyPacketHeader]
    exact h.header j (hs.nextTxPacket ▸ hj)

theorem FrameInv.next (h : node.FrameInv) (hn : node.Next node') : node'.FrameInv := by
  cases hn with
  | kept _ => exact h
  | data packet hkeeps hid hget _ =>
      exact ⟨h.requested, h.request, h.notData, h.joined, fun hc => absurd hc hid, h.cycle, nofun⟩
  | empty cycle header hkeeps hid hget hlt hne hbyte =>
      refine ⟨h.requested, h.request, h.notData, h.joined, fun hc => absurd hc hid, hlt, ?_⟩
      rintro j hj
      cases hj
      dsimp only
      rw [Function.update_self]
      exact ⟨rfl, hbyte⟩
  | request seed countdown hkeeps hid hcount =>
      have htype := (txNewNodeRequest_isType node.tmpPacket node.uniqueId).type
      refine ⟨fun _ => htype, fun _ => txNewNodeRequest_idem _ _, ?_, fun _ => rfl, fun _ => Or.inr rfl,
        h.cycle, nofun⟩
      rw [htype]
      nofun
  | waits hkeeps hid hcount =>
      exact ⟨h.requested, h.request, h.notData, h.joined, fun _ => Or.inl rfl, h.cycle, nofun⟩

/-- The packet that is kept is still chosen unless the acknowledgement gave it back. -/
theorem NextChosen.next (h : ¬ node.keepsTxPacket ∨ node.NextChosen) (hstore : ∃ g, NodeTxInv node.txManager g)
    (hn : node.Next node') : node'.NextChosen := by
  cases hn with
  | kept hkeeps => exact h.resolve_left (not_not.mpr hkeeps)
  | @data i m packet hkeeps hid hget hkey =>
      rintro j hj
      cases hj
      obtain ⟨g, hg⟩ := hstore
      obtain ⟨g', -, hnext⟩ := hg.choose hget
      obtain ⟨-, -, hchosen⟩ := hnext i rfl
      exact ⟨g', hchosen.touched (.setPacket m i packet (Prod.ext rfl hkey)) rfl rfl⟩
  | empty _ _ _ _ _ _ _ _ => exact nofun
  | request _ _ _ _ _ => exact nofun
  | waits _ _ _ => exact nofun

/-- The node was started anew since it sent. -/
def Anew (node : Node) : Prop := node.nodeId = unallocatedNodeId ∧ node.sentNewNodeRequest = false

/-- The frame that a node has sent: a packet that was chosen, or the header of this cycle, unless the node was started
anew. -/
def Carries (node : Node) : TxRef → Prop
  | .entry i => node.Anew ∨ (node.nodeId ≠ unallocatedNodeId ∧ node.txManager.Chosen i)
  | .tmpPacket => True
  | .tmpEmptyPacketHeader j => node.Anew ∨ (node.nodeId ≠ unallocatedNodeId ∧ j = node.tmpPacketCycle ∧
      (node.tmpEmptyPacketHeader j).protocolVersionAndPacketType ≠ 0)

theorem Blank.carries (h : node.Blank) (r : TxRef) : node.Carries r := by
  have hanew : node.Anew := ⟨h.fresh.nodeId, h.fresh.sentNewNodeRequest⟩
  cases r with
  | entry i => exact Or.inl hanew
  | tmpPacket => trivial
  | tmpEmptyPacketHeader j => exact Or.inl hanew

theorem FrameInv.carries (h : node.FrameInv) (hnext : node.NextChosen) {r : TxRef} (hr : node.nextTxPacket = some r) :
    node.Carries r := by
  have hid : r ≠ .tmpPacket → node.nodeId ≠ unallocatedNodeId := by
    intro htmp hid
    rcases h.waiting hid with hc | hc
    · cases hr.symm.trans hc
    · exact htmp (Option.some.inj (hr.symm.trans hc))
  cases r with
  | entry i => exact Or.inr ⟨hid nofun, hnext i hr⟩
  | tmpPacket => trivial
  | tmpEmptyPacketHeader j => exact Or.inr ⟨hid nofun, h.header j hr⟩

theorem Carries.congr {r : TxRef} (h : node.Carries r) (hs : node.SameFrames node') (hid : node'.nodeId = node.nodeId)
    (hchosen : ∀ i, node.txManager.Chosen i → node'.txManager.Chosen i) : node'.Carries r := by
  unfold Carries Anew at h ⊢
  rw [hs.sentNewNodeRequest, hid]
  cases r with
  | entry i => exact h.imp_right fun hc => ⟨hc.1, hchosen i hc.2⟩
  | tmpPacket => trivial
  | tmpEmptyPacketHeader j =>
      dsimp only
      rw [hs.tmpPacketCycle, hs.tmpEmptyPacketHeader]
      exact h

def sent (node : Node) (r : TxRef) : Node :=
  { node.assign r ((node.deref r).setAckSeqNum (node.txManager.rxSeqNum masterNodeId)) with nextTxPacket := none }

theorem sent_chosen {i : Nat} (h : node.txManager.Chosen i) (r : TxRef) : (node.sent r).txManager.Chosen i := by
  obtain ⟨g, h⟩ := h
  cases r with
  | entry j => exact ⟨g, h.touched (.setPacket _ _ _ rfl) rfl rfl⟩
  | tmpPacket => exact ⟨g, h⟩
  | tmpEmptyPacketHeader j => exact ⟨g, h⟩

theorem FrameInv.sent (h : node.FrameInv) (r : TxRef) : (node.sent r).FrameInv := by
  cases r with
  | entry i => exact ⟨h.requested, h.request, h.notData, h.joined, fun _ => Or.inl rfl, h.cycle, nofun⟩
  | tmpPacket =>
      refine ⟨h.requested, fun htype => ?_, h.notData, h.joined, fun _ => Or.inl rfl, h.cycle, nofun⟩
      have hsame := h.request htype
      change txNewNodeRequest (node.tmpPacket.setAckSeqNum _) node.uniqueId = node.tmpPacket.setAckSeqNum _
      rw [txNewNodeRequest_setAckSeqNum, hsame]
  | tmpEmptyPacketHeader j => exact ⟨h.requested, h.request, h.notData, h.joined, fun _ => Or.inl rfl,
      h.cycle, nofun⟩

theorem Carries.sent {r : TxRef} (h : node.Carries r) : (node.sent r).Carries r := by
  cases r with
  | entry i => exact h.imp_right fun hc => ⟨hc.1, sent_chosen hc.2 _⟩
  | tmpPacket => trivial
  | tmpEmptyPacketHeader j =>
      refine h.imp_right fun hc => ⟨hc.1, hc.2.1, ?_⟩
      change (Function.update node.tmpEmptyPacketHeader j _ j).protocolVersionAndPacketType ≠ 0
      rw [Function.update_self]
      exact hc.2.2

end Node

theorem nodeGetTxPacket_frames (node : Node) :
    ((nodeGetTxPacket node).2 = none ∧ node.SameFrames (nodeGetTxPacket node).1 ∧
      (nodeGetTxPacket node).1.nodeId = node.nodeId ∧ (nodeGetTxPacket node).1.txManager = node.txManager) ∨
    ∃ r, node.nextTxPacket = some r ∧ (nodeGetTxPacket node).2 = some ((node.sent r).deref r) ∧
      (node.sent r).SameFrames (nodeGetTxPacket node).1 ∧ (nodeGetTxPacket node).1.nodeId = (node.sent r).nodeId ∧
      (nodeGetTxPacket node).1.txManager = (node.sent r).txManager := by
  cases hr : node.nextTxPacket with
  | none =>
      unfold nodeGetTxPacket
      rw [if_pos hr]
      exact Or.inl ⟨rfl, .refl node, rfl, rfl⟩
  | some r =>
      have hsend : ∀ (seed : UInt32) (countdown : Nat),
          let n := (nodeSendTxPacket { node with seed, nextNewNodeResponseCountdown := countdown })
          n.2 = some ((node.sent r).deref r) ∧ (node.sent r).SameFrames n.1 ∧ n.1.nodeId = (node.sent r).nodeId ∧
            n.1.txManager = (node.sent r).txManager := by
        intro seed countdown
        unfold nodeSendTxPacket nodeQuickUpdateTxPacket
        dsimp only
        rw [hr]
        cases r <;> exact ⟨rfl, ⟨rfl, rfl, rfl, rfl, rfl, rfl⟩, rfl, rfl⟩
      unfold nodeGetTxPacket
      rw [if_neg (by rw [hr]; exact Option.some_ne_none r)]
      split
      · split
        · exact Or.inr ⟨r, rfl, hsend _ _⟩
        · exact Or.inl ⟨rfl, ⟨rfl, rfl, rfl, rfl, rfl, rfl⟩, rfl, rfl⟩
      · exact Or.inr ⟨r, rfl, hsend node.seed node.nextNewNodeResponseCountdown⟩

end Microbus
