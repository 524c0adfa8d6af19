import Microbus.Outbox
import Microbus.EmissionNode
import Microbus.Submission

/-! The frames with which a node answers: each carries the id of the node and the number that it
accepted last. -/
namespace Microbus

open Transition

/-- The packets in the store of a node, and the frame that it sends next, carry its id. -/
structure Node.Labelled (node : Node) : Prop where
  live : ∀ i, node.txManager.Live i → node.nodeId ≠ unallocatedNodeId ∧
    (node.txManager.entry i).packet.srcNodeId = node.nodeId
  tmpPacket : ¬ node.tmpPacket.fromNode
  next : ∀ r, node.nextTxPacket = some r → r ≠ .tmpPacket →
    node.nodeId ≠ unallocatedNodeId ∧ (node.deref r).srcNodeId = node.nodeId

namespace Node

variable {node node' : Node}

theorem Blank.labelled (h : node.Blank) : node.Labelled where
  live i hi := by
    obtain ⟨maxEntries, entries, htx⟩ := h.fresh.tx
    rw [htx] at hi
    exact absurd hi (not_live_init i)
  tmpPacket := by
    rw [h.tmpPacket]
    decide
  next r hr hne := by
    rw [h.nextTxPacket] at hr
    exact absurd (Option.some.inj hr).symm hne

theorem Labelled.congr (h : node.Labelled) (hs : node.SameFrames node')
    (hid : node'.nodeId = node.nodeId ∨ node.nodeId = unallocatedNodeId)
    (hentry : ∀ i, ((node'.txManager.entry i).packet.srcNodeId = (node.txManager.entry i).packet.srcNodeId ∧
        (node'.txManager.Live i → node.txManager.Live i)) ∨
      (node'.nodeId ≠ unallocatedNodeId ∧ (node'.txManager.entry i).packet.srcNodeId = node'.nodeId)) :
        node'.Labelled where
  live i hi := by
    rcases hentry i with ⟨heq, hlive⟩ | hsigned
    · obtain ⟨hjoined, hsrc⟩ := h.live i (hlive hi)
      rw [hid.resolve_right hjoined, heq]
      exact ⟨hjoined, hsrc⟩
    · exact hsigned
  tmpPacket := by
    rw [hs.tmpPacket]
    exact h.tmpPacket
  next r hr hne := by
    obtain ⟨hjoined, hsrc⟩ := h.next r (hs.nextTxPacket ▸ hr) hne
    have hid := hid.resolve_right hjoined
    cases r with
    | entry i =>
        rcases hentry i with ⟨heq, -⟩ | hsigned
        · rw [hid]
          exact ⟨hjoined, heq.trans hsrc⟩
        · exact hsigned
    | tmpPacket => exact absurd rfl hne
    | tmpEmptyPacketHeader j =>
        rw [hid]
        exact ⟨hjoined, (congrArg (fun header => (header j).srcNodeId) hs.tmpEmptyPacketHeader).trans hsrc⟩

theorem assign_entry_inUse (r : TxRef) (p : Packet) (i : Nat) :
    ((node.assign r p).txManager.entry i).inUse = (node.txManager.entry i).inUse := by
  cases r with
  | entry j =>
      have heq : (node.assign (.entry j) p).txManager.entry i =
          if i = j then { node.txManager.entry j with packet := p } else node.txManager.entry i :=
        entry_setPacket node.txManager j p i
      rw [heq]
      split
      · rename_i hij
        rw [hij]
      · rfl
  | tmpPacket => rfl
  | tmpEmptyPacketHeader j => rfl

theorem assign_entry_src {r : TxRef} {p : Packet} (hsrc : p.srcNodeId = (node.deref r).srcNodeId) (i : Nat) :
    ((node.assign r p).txManager.entry i).packet.srcNodeId = (node.txManager.entry i).packet.srcNodeId := by
  cases r with
  | entry j =>
      have heq : (node.assign (.entry j) p).txManager.entry i =
          if i = j then { node.txManager.entry j with packet := p } else node.txManager.entry i :=
        entry_setPacket node.txManager j p i
      rw [heq]
      split
      · rename_i hij
        rw [hij]
        exact hsrc
      · rfl
  | tmpPacket => rfl
  | tmpEmptyPacketHeader j => rfl

theorem assign_live {r : TxRef} {p : Packet} {i : Nat} (h : (node.assign r p).txManager.Live i) :
    node.txManager.Live i := by
  refine ⟨?_, assign_entry_inUse r p i ▸ h.inUse, ?_⟩
  · cases r <;> exact h.lt
  · cases r <;> exact h.notAllocated

@[simp] theorem sent_nodeId (r : TxRef) : (node.sent r).nodeId = node.nodeId := by cases r <;> rfl

theorem labelled_of_chosen {e : Nat} {p : Packet} (hid : node.nodeId ≠ unallocatedNodeId)
    (hlive : ∀ i, node.txManager.Live i → (node.txManager.entry i).packet.srcNodeId = node.nodeId)
    (htmp : ¬ node.tmpPacket.fromNode) (he : node.txManager.Live e)
    (hp : p.srcNodeId = (node.deref (.entry e)).srcNodeId) :
    ({ node.assign (.entry e) p with nextTxPacket := some (.entry e) } : Node).Labelled where
  live i hi := ⟨hid, (assign_entry_src hp i).trans (hlive i (assign_live hi))⟩
  tmpPacket := htmp
  next r hr _ := by
    cases hr
    exact ⟨hid, (assign_entry_src hp e).trans (hlive e he)⟩

theorem Labelled.sent (h : node.Labelled) (r : TxRef) : (node.sent r).Labelled where
  live i hi := by
    have hl : node.txManager.Live i := assign_live (show (node.assign r _).txManager.Live i from hi)
    obtain ⟨hjoined, hsrc⟩ := h.live i hl
    rw [sent_nodeId]
    exact ⟨hjoined, (assign_entry_src (show ((node.deref r).setAckSeqNum _).srcNodeId = _ from rfl) i).trans hsrc⟩
  tmpPacket := by
    cases r with
    | entry i => exact h.tmpPacket
    | tmpPacket => exact h.tmpPacket
    | tmpEmptyPacketHeader i => exact h.tmpPacket
  next r' hr' := nomatch hr'

theorem sent_deref (r : TxRef) :
    (node.sent r).deref r = (node.deref r).setAckSeqNum (node.txManager.rxSeqNum masterNodeId) := by
  cases r with
  | entry i =>
      have heq := entry_setPacket node.txManager i
        ((node.txManager.entry i).packet.setAckSeqNum (node.txManager.rxSeqNum masterNodeId)) i
      rw [if_pos rfl] at heq
      exact congrArg PacketEntry.packet heq
  | tmpPacket => rfl
  | tmpEmptyPacketHeader i =>
      simp only [sent, assign, deref, Function.update_self]

theorem sent_rxSeqNum (r : TxRef) : (node.sent r).txManager.rxSeqNum = node.txManager.rxSeqNum := by cases r <;> rfl

end Node

section Node

variable {node node' : Node}

theorem nodeCheckIfTimedOut_labelled (h : node.Labelled) (hc : nodeCheckIfTimedOut node = .ok node') :
    node'.Labelled := by
  rcases nodeCheckIfTimedOut_cases hc with ⟨-, rfl⟩ | ⟨-, hblank, -⟩
  · exact h
  · exact hblank.labelled

theorem nodeProcessRx_labelled (h : node.Labelled) (hr : nodeProcessRx node = .ok node') : node'.Labelled := by
  obtain ⟨hsame, hid, -, hack⟩ := nodeProcessRx_frames hr
  have hpackets : SamePackets node.txManager node'.txManager := by
    rcases hack with ⟨-, heq⟩ | ⟨k, -, hack⟩
    · exact heq ▸ .refl _
    · exact rxAckSeqNum_packets hack
  refine h.congr hsame (hid.imp_right And.left) fun i =>
    Or.inl ⟨congrArg Packet.srcNodeId (hpackets.packet i), fun hi => ?_⟩
  exact ⟨hpackets.size ▸ hi.lt, hpackets.inUse i hi.inUse, hpackets.allocated ▸ hi.notAllocated⟩

theorem nodeQuickRx_labelled (h : node.Labelled) (hinit : node.initialised = true) {crcError : Bool}
    (hq : nodeQuickProcessPrevRx node crcError = .ok node') : node'.Labelled := by
  rcases nodeQuickProcessPrevRx_frames hinit hq with hblank | ⟨hsame, hid, rxSeqNum, htx⟩
  · exact hblank.labelled
  · refine h.congr hsame (Or.inl hid) fun i => ?_
    rw [htx]
    exact Or.inl ⟨rfl, fun hi => ⟨hi.lt, hi.inUse, hi.notAllocated⟩⟩

theorem nodeGetNext_src {m m' : TxManager} {r : Option Nat} (h : nodeGetNextTxDataPacket m = .ok (r, m')) :
    (∀ i, m'.Live i → m.Live i) ∧ ∀ i, (m'.entry i).packet.srcNodeId = (m.entry i).packet.srcNodeId := by
  unfold nodeGetNextTxDataPacket at h
  split at h
  · cases h
    exact ⟨fun _ => id, fun _ => rfl⟩
  · obtain ⟨⟨e, m₁⟩, hnext, h⟩ := bind_eq_ok.mp h
    have hstore : SameStore m m₁ := by
      obtain ⟨-, ⟨-, -, rfl⟩ | ⟨-, -, -, rfl⟩ | ⟨i, -, -, -, -, rfl⟩⟩ := getNext_ok hnext <;>
        exact ⟨rfl, rfl⟩
    cases e with
    | none =>
        cases h
        exact ⟨fun i hi => (hstore.live i).mp hi, fun i => by rw [hstore.entry]⟩
    | some j =>
        cases h
        have hlive := (@Touched.setPacket false m₁ j ((m₁.packetStore.entries j).packet.setAckSeqNum
          (m₁.rxSeqNum masterNodeId)) rfl).live
        refine ⟨fun i hi => (hstore.live i).mp ((hlive i).mp hi), fun i => ?_⟩
        rw [← hstore.entry i]
        have heq := entry_setPacket m₁ j
          ((m₁.packetStore.entries j).packet.setAckSeqNum (m₁.rxSeqNum masterNodeId)) i
        unfold TxManager.entry at heq ⊢
        dsimp only
        rw [heq]
        split
        · rename_i hij
          rw [hij]
          rfl
        · rfl

theorem nodeProcessTx_labelled (h : node.Labelled) (hinv : ∃ g, NodeTxInv node.txManager g)
    (ht : nodeProcessTx node = .ok node') : node'.Labelled := by
  unfold nodeProcessTx at ht
  split at ht
  · cases ht
    exact h
  · split at ht
    · rename_i hid
      unfold nodeProcessTxAllocated at ht
      obtain ⟨⟨r, m⟩, hget, ht⟩ := bind_eq_ok.mp ht
      obtain ⟨hlive, hsrc⟩ := nodeGetNext_src hget
      have hstore : ∀ i, m.Live i → node.nodeId ≠ unallocatedNodeId ∧
        (m.entry i).packet.srcNodeId = node.nodeId := by
        intro i hi
        rw [hsrc]
        exact h.live i (hlive i hi)
      cases r with
      | none =>
          cases ht
          refine ⟨hstore, h.tmpPacket, ?_⟩
          rintro r hr -
          cases hr
          refine ⟨hid, ?_⟩
          simp only [Node.deref, Function.update_self]
          rfl
      | some e =>
          cases ht
          obtain ⟨g, hg⟩ := hinv
          obtain ⟨g', hg', hnext⟩ := hg.choose hget
          obtain ⟨-, -, hchosen⟩ := hnext e rfl
          exact Node.labelled_of_chosen hid (fun i hi => (hstore i hi).2) h.tmpPacket hchosen.live rfl
    · rename_i hid
      cases ht
      unfold nodeProcessTxUnallocated
      split
      · refine ⟨h.live, ?_, fun r hr hne => absurd (Option.some.inj hr).symm hne⟩
        have htype := (txNewNodeRequest_isType node.tmpPacket node.uniqueId).type
        dsimp only
        unfold Packet.fromNode
        rw [htype]
        decide
      · refine ⟨h.live, h.tmpPacket, ?_⟩
        rintro r hr -
        cases hr

/-- What a frame says that the node sends. -/
structure Node.Replies (node : Node) (p : Packet) : Prop where
  joined : node.nodeId ≠ unallocatedNodeId
  srcNodeId : p.srcNodeId = node.nodeId
  ackSeqNum : p.ackSeqNum = node.txManager.rxSeqNum masterNodeId

theorem Node.Labelled.replies (h : node.Labelled) {r : TxRef} (hr : node.nextTxPacket = some r) {p : Packet}
    (hp : p = (node.deref r).setAckSeqNum (node.txManager.rxSeqNum masterNodeId)) (hnode : p.fromNode) :
    node.Replies p := by
  subst hp
  have hne : r ≠ .tmpPacket := by
    rintro rfl
    exact h.tmpPacket hnode
  obtain ⟨hjoined, hsrc⟩ := h.next r hr hne
  exact ⟨hjoined, hsrc, rfl⟩

theorem nodeGetTxPacket_labelled (h : node.Labelled) : (nodeGetTxPacket node).1.Labelled ∧
    ∀ p ∈ (nodeGetTxPacket node).2, p.fromNode → (nodeGetTxPacket node).1.Replies p := by
  rcases nodeGetTxPacket_frames node with ⟨hnone, hsame, hid, hm⟩ | ⟨r, hr, hsome, hsame, hid, hm⟩
  · refine ⟨h.congr hsame (Or.inl hid) (hm ▸ fun i => Or.inl ⟨rfl, id⟩), fun p hp => ?_⟩
    rw [hnone] at hp
    cases hp
  · have hsent := h.sent r
    refine ⟨hsent.congr hsame (Or.inl hid) (hm ▸ fun i => Or.inl ⟨rfl, id⟩), fun p hp hnode => ?_⟩
    rw [hsome] at hp
    obtain rfl := Option.some.inj hp
    have hreplies := h.replies hr (node.sent_deref r) hnode
    have hid := hid.trans (node.sent_nodeId r)
    constructor
    · rw [hid]
      exact hreplies.joined
    · rw [hid]
      exact hreplies.srcNodeId
    · rw [hm, node.sent_rxSeqNum]
      exact hreplies.ackSeqNum

/-- The frame goes out at the end of a slot, if the next one is the node's own. -/
theorem Node.runDualChannel_turn (h : node.Labelled) (hready : node.Ready) (htx : ∃ g, NodeTxInv node.txManager g)
    {usIncr : UInt32} {downlink frame : Option Packet} {hearing : Hearing}
    (hs : node.runDualChannel usIncr downlink hearing = .ok (node', frame)) :
    ∃ m n, nodeDualChannelPipelinedPostProcess (nodeUpdateTimeUs node usIncr) = .ok m ∧ m.initialised = true ∧
      nodeQuickProcessPrevRx (m.receive (hearing.received downlink).1) (hearing.received downlink).2 = .ok n ∧
      (nodeUpdateSchedule n).Labelled ∧
      (nodeGetTxPacket (nodeUpdateSchedule n) = (node', frame) ∨
        (node' = nodeUpdateSchedule n ∧ frame = none)) := by
  obtain ⟨m, hpost, hpre⟩ := Node.runDualChannel_ok hs
  have hready' : (nodeUpdateTimeUs node usIncr).Ready := hready.congr rfl rfl rfl
  obtain ⟨m₁, m₂, h₁, h₂, h₃⟩ := nodePostProcess_ok hready'.initialised hpost
  have hticked : (nodeUpdateTimeUs node usIncr).Labelled := ⟨h.live, h.tmpPacket, h.next⟩
  have hticked' : ∃ g, NodeTxInv (nodeUpdateTimeUs node usIncr).txManager g := htx
  have htx₁ := KeptByNode.checkIfTimedOut (P := fun m => ∃ g, NodeTxInv m g) (fun _ => hticked')
    (fun _ => holdsAnew_txInv) h₁
  have hm₂ := nodeProcessRx_labelled (nodeCheckIfTimedOut_labelled hticked h₁) h₂
  have hm := nodeProcessTx_labelled hm₂ (keptByNode_txInv.processRx htx₁ h₂) h₃
  have hinit := (((hready'.checkIfTimedOut h₁).processRx h₂).processTx h₃).initialised
  unfold nodeDualChannelPipelinedPreProcess at hpre
  rw [if_neg (show ¬ (m.receive (hearing.received downlink).1).initialised = false from
    fun hc => Bool.noConfusion (hinit.symm.trans hc))] at hpre
  obtain ⟨n, hquick, hpre⟩ := bind_eq_ok.mp hpre
  have hreceived : (m.receive (hearing.received downlink).1).Labelled := ⟨hm.live, hm.tmpPacket, hm.next⟩
  have hn := nodeQuickRx_labelled hreceived hinit hquick
  refine ⟨m, n, hpost, hinit, hquick, ⟨hn.live, hn.tmpPacket, hn.next⟩, ?_⟩
  dsimp only at hpre
  split at hpre
  · exact Or.inl (pure_eq_ok.mp hpre)
  · cases hpre
    exact Or.inr ⟨rfl, rfl⟩

theorem Node.runDualChannel_labelled (h : node.Labelled) (hready : node.Ready) (htx : ∃ g, NodeTxInv node.txManager g)
    {usIncr : UInt32} {downlink frame : Option Packet} {hearing : Hearing}
    (hs : node.runDualChannel usIncr downlink hearing = .ok (node', frame)) :
    node'.Labelled ∧ ∀ p ∈ frame, p.fromNode → node'.Replies p := by
  obtain ⟨m, n, -, -, -, hscheduled, hsent | ⟨rfl, rfl⟩⟩ := Node.runDualChannel_turn h hready htx hs
  · have hreplies := nodeGetTxPacket_labelled hscheduled
    rw [hsent] at hreplies
    exact hreplies
  · exact ⟨hscheduled, nofun⟩

theorem Node.call_labelled (h : node.Labelled) (hready : node.Ready) (htx : ∃ g, NodeTxInv node.txManager g)
    {mode : ChannelMode} {call : NodeCall} (hs : node.step (call.action mode) = .ok node') : node'.Labelled := by
  cases call with
  | allocate =>
      obtain ⟨⟨r, n⟩, halloc, hs⟩ := bind_eq_ok.mp hs
      cases hs
      obtain ⟨⟨r', m⟩, hone, hret⟩ := bind_eq_ok.mp halloc
      cases hret
      refine h.congr ⟨rfl, rfl, rfl, rfl, rfl, rfl⟩ (Or.inl rfl) fun i => Or.inl ?_
      obtain ⟨g, hg⟩ := htx
      rcases hg.allocate hone with ⟨-, rfl⟩ | ⟨u, -, hfree, hnone, rfl, -⟩
      · exact ⟨rfl, id⟩
      · refine ⟨?_, (live_allocate hfree hnone i).mp⟩
        change ((node.txManager.takeEntry u).entry i).packet.srcNodeId = _
        rw [TxManager.entry_takeEntry]
        split
        · rename_i hiu
          rw [hiu]
        · rfl
  | write data =>
      cases hs
      have ht : Touched false node.txManager (writeAllocatedPacket node.txManager data) := touched_write _ data
      refine h.congr ⟨rfl, rfl, rfl, rfl, rfl, rfl⟩ (Or.inl rfl) fun i => Or.inl ⟨?_, (ht.live i).mp⟩
      change ((writeAllocatedPacket node.txManager data).entry i).packet.srcNodeId = _
      unfold writeAllocatedPacket
      split
      · rfl
      · rename_i u hu
        have hwrite : { (node.txManager.entry u).packet with data }.srcNodeId = (node.deref (.entry u)).srcNodeId := rfl
        exact Node.assign_entry_src hwrite i
  | submit numBytes =>
      have hid : node.nodeId ≠ unallocatedNodeId := by
        intro hid
        obtain ⟨_, hsize, -⟩ := bind_eq_ok.mp hs
        have hlt := ((completes_nodeSubmit (microbusAssert_ok.mp hsize) hready.table).mp ⟨node', hs⟩).2
        rw [hid] at hlt
        exact absurd hlt (by decide)
      obtain ⟨u, q, ha, hadd, rfl⟩ := nodeSubmit_ok hs
      obtain ⟨g, hg⟩ := htx
      refine h.congr ⟨rfl, rfl, rfl, rfl, rfl, rfl⟩ (Or.inl rfl) fun i => ?_
      dsimp only
      rw [entry_submit]
      by_cases hiu : i = u
      · rw [if_pos hiu]
        exact Or.inr ⟨hid, rfl⟩
      · rw [if_neg hiu]
        exact Or.inl ⟨rfl, fun hi => ((live_submit ha (hg.store.allocated u ha) i).mp hi).resolve_left hiu⟩
  | peek =>
      obtain ⟨r, -, hs⟩ := bind_eq_ok.mp hs
      cases hs
      exact h
  | pop =>
      obtain ⟨rpm, -, hs⟩ := bind_eq_ok.mp hs
      cases hs
      exact ⟨h.live, h.tmpPacket, h.next⟩
  | reset => exact (nodeReset_blank hs).1.labelled

end Node

end Microbus
