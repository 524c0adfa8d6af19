import Microbus.PeekPop
import Microbus.BusIds
import Microbus.NodeReplies

/-! What a node has accepted from the master for its application. -/
namespace Microbus

open Transition

def RxPacketManager.packets (rpm : RxPacketManager) : List Packet :=
  rpm.queued.map fun e => (rpm.rxPacketEntries e).packet

/-- What was accepted and is not taken yet: the queue, and the frame that the next slot puts behind it. -/
def Node.received (node : Node) : List Payload :=
  (node.rxPacketManager.packets ++ node.pendingFrames).map Packet.payload

def NodeCall.takes (node : Node) : NodeCall → List Payload
  | .pop => (node.rxPacketManager.packets.take 1).map Packet.payload
  | _ => []

/-- A node between two slots. Without an id it has accepted nothing, and expects the first packet. -/
structure Node.Inbox (node : Node) : Prop where
  keeps : NodeKeeps node
  idle : node.nodeId = unallocatedNodeId → node.received = [] ∧
    node.txManager.rxSeqNum masterNodeId = nullSequenceNum

/-- In a slot the node accepts the packet in the frame if that is the one it expects, or nothing. -/
inductive Node.Accepts (node node' : Node) (downlink : Option Packet) : Prop
  | nothing : node'.received = node.received →
      node'.txManager.rxSeqNum masterNodeId = node.txManager.rxSeqNum masterNodeId → node.Accepts node' downlink
  | packet {x} : dataTo node'.nodeId downlink = [(expectedSeqNum (node.txManager.rxSeqNum masterNodeId), x)] →
      node'.received = node.received ++ [x] →
      node'.txManager.rxSeqNum masterNodeId = expectedSeqNum (node.txManager.rxSeqNum masterNodeId) →
        node.Accepts node' downlink

namespace RxPacketManager

variable {rpm rpm' : RxPacketManager}

theorem Extends.packets_eq (h : rpm.Extends rpm') : rpm'.packets = rpm.packets ++ rpm.appended rpm' := by
  obtain ⟨added, hring⟩ := h.ring
  have hold : rpm.queued.map (fun e => (rpm'.rxPacketEntries e).packet) = rpm.packets := List.map_congr_left h.packets
  have hqueued : rpm'.queued = rpm.queued ++ added.reduceOption :=
    (congrArg List.reduceOption hring).trans (List.reduceOption_append _ _)
  have happended : rpm.appended rpm' = added.reduceOption.map fun e => (rpm'.rxPacketEntries e).packet := by
    simp only [appended, hring, List.drop_left]
  rw [happended, ← hold, ← List.map_append, ← hqueued]
  rfl

theorem Extends.packets_same (h : rpm.Extends rpm') (hring : rpm'.ring = rpm.ring) : rpm'.packets = rpm.packets := by
  rw [h.packets_eq, appended_of_ring hring, List.append_nil]

theorem packets_of_ring_nil (h : rpm.ring = []) : rpm.packets = [] := by
  unfold packets queued
  rw [h]
  rfl

theorem packets_pop {next : Nat} {waiting : Option Nat} (h : RxInv rpm next waiting)
    (hpop : popNextDataPacket rpm = .ok rpm') :
    rpm.packets.take 1 ++ rpm'.packets = rpm.packets := by
  obtain ⟨-, -, hpackets, e, hring⟩ := h.pop hpop
  have htail : rpm'.packets = rpm'.queued.map fun e => (rpm.rxPacketEntries e).packet :=
    List.map_congr_left fun i _ => hpackets i
  rw [htail]
  unfold packets queued
  rw [hring, List.reduceOption_cons_of_some]
  rfl

end RxPacketManager

section Node

variable {node node' : Node}

theorem Node.received_of_fresh (h : node.Fresh) : node.received = [] := by
  unfold received
  rw [RxPacketManager.packets_of_ring_nil h.rxInv.2, pendingFrames_of_invalid h.validRxPacket]
  rfl

theorem Node.Fresh.inbox (h : node.Fresh) : node.Inbox := ⟨h.keeps, fun _ => ⟨received_of_fresh h, h.rxSeqNum⟩⟩

theorem Node.SameReception.received (h : node.SameReception node') : node'.received = node.received := by
  unfold Node.received
  rw [h.pendingFrames, h.rxPacketManager]

theorem Node.Inbox.same (h : node.Inbox) (hs : node.SameReception node') : node'.Inbox where
  keeps := h.keeps.same hs
  idle hid := by
    rw [hs.received, hs.rxSeqNum]
    exact h.idle (hs.nodeId ▸ hid)

theorem nodeProcessRx_received (hkeeps : NodeKeeps node) (h : nodeProcessRx node = .ok node') :
    node'.initialised = true ∧ RxInv node'.rxPacketManager node'.nextRxPacketEntry none ∧
      node'.rxPacketManager.packets.map Packet.payload = node.received ∧
      node'.txManager.rxSeqNum = node.txManager.rxSeqNum := by
  obtain ⟨hinit, hstore, happended, hseq⟩ := nodeProcessRx_queues hkeeps h
  refine ⟨hinit, hstore, ?_, hseq⟩
  rw [(nodeProcessRx_extends hkeeps h).packets_eq, happended]
  rfl

/-- The quick part accepts the frame that arrived, or leaves what was accepted. -/
theorem nodeQuickRx_received (hinit : node.initialised = true)
    (hstore : RxInv node.rxPacketManager node.nextRxPacketEntry none) {downlink : Option Packet} {hearing : Hearing}
    (h : nodeQuickProcessPrevRx (node.receive (hearing.received downlink).1)
      (hearing.received downlink).2 = .ok node') :
    node'.Fresh ∨ (NodeKeeps node' ∧ node'.nodeId = node.nodeId ∧
      ((node'.received = node.rxPacketManager.packets.map Packet.payload ∧
          node'.txManager.rxSeqNum = node.txManager.rxSeqNum) ∨
        ∃ x, node.nodeId ≠ unallocatedNodeId ∧
          dataTo node.nodeId downlink = [(expectedSeqNum (node.txManager.rxSeqNum masterNodeId), x)] ∧
          node'.received = node.rxPacketManager.packets.map Packet.payload ++ [x] ∧
          node'.txManager.rxSeqNum masterNodeId = expectedSeqNum (node.txManager.rxSeqNum masterNodeId))) := by
  have hinit' : (node.receive (hearing.received downlink).1).initialised = true := hinit
  have hpacket := node.packetAt_receive (hearing.received downlink).1
  rcases nodeQuickRx_takes hinit' (hstore.receive _ _) hpacket h with ⟨-, hfresh, -⟩
    | ⟨hstays, hkeeps, hid, hring, hcase⟩
  · exact Or.inl hfresh
  · have hextends := (RxPacketManager.Extends.receive hstore.next_not_queued (hearing.received downlink).1).trans
      (nodeQuickRx_extends hinit' hpacket hstays h)
    have hpackets : node'.rxPacketManager.packets = node.rxPacketManager.packets := hextends.packets_same hring
    refine Or.inr ⟨hkeeps, hid, ?_⟩
    unfold Node.received
    rw [hpackets]
    rcases hcase with ⟨⟨hreads, hdst, hjoined, hdata, hexpected, -⟩, hframes, hseq⟩ | ⟨-, hframes, hseq⟩
    · obtain ⟨-, p, rfl, hreceived⟩ := Hearing.read hreads
      rw [hreceived] at hdst hdata hexpected hframes hseq
      have hexpected : p.txSeqNum = expectedSeqNum (node.txManager.rxSeqNum masterNodeId) := hexpected
      refine Or.inr ⟨p.payload, hjoined, ?_, ?_, ?_⟩
      · rw [← hexpected]
        exact if_pos ⟨hdata, hdst⟩
      · rw [hframes, List.map_append]
        rfl
      · rw [hseq, Function.update_self, hexpected]
    · refine Or.inl ⟨?_, hseq⟩
      rw [hframes, List.append_nil]

/-- After the post-process a node that has an id holds in its queue what it had accepted. -/
theorem nodePostProcess_received (h : node.Inbox) (hpost : nodeDualChannelPipelinedPostProcess node = .ok node') :
    node'.initialised = true ∧ RxInv node'.rxPacketManager node'.nextRxPacketEntry none ∧
      (node'.nodeId = unallocatedNodeId → node'.rxPacketManager.packets.map Packet.payload = [] ∧
        node'.txManager.rxSeqNum masterNodeId = nullSequenceNum) ∧
      (node'.nodeId ≠ unallocatedNodeId → node'.rxPacketManager.packets.map Packet.payload = node.received ∧
        node'.txManager.rxSeqNum masterNodeId = node.txManager.rxSeqNum masterNodeId) := by
  obtain ⟨m₁, m₂, h₁, h₂, h₃⟩ := nodePostProcess_ok h.keeps.initialised hpost
  have hchecked : m₁.Inbox ∧ (m₁ = node ∨ m₁.Fresh) := by
    rcases nodeCheckIfTimedOut_ok h₁ with ⟨-, rfl⟩ | ⟨-, hfresh, -⟩
    · exact ⟨h, Or.inl rfl⟩
    · exact ⟨hfresh.inbox, Or.inr hfresh⟩
  obtain ⟨hinbox, hkept⟩ := hchecked
  obtain ⟨hinit, hstore, hpackets, hseq⟩ := nodeProcessRx_received hinbox.keeps h₂
  obtain ⟨-, hid, -, -⟩ := nodeProcessRx_frames h₂
  have hsame := nodeProcessTx_same h₃
  rw [hsame.initialised, hsame.rxPacketManager, hsame.nextRxPacketEntry, hsame.nodeId, hsame.rxSeqNum, hpackets, hseq]
  refine ⟨hinit, hstore, fun hnone => ?_, fun hjoined => ?_⟩
  · rcases hid with heq | ⟨hun, -⟩
    · exact hinbox.idle (heq.symm.trans hnone)
    · exact hinbox.idle hun
  · rcases hkept with rfl | hfresh
    · exact ⟨rfl, rfl⟩
    · -- a node that was started anew takes no id in the same slot
      rcases hid with heq | ⟨-, hsent⟩
      · exact absurd (heq.trans hfresh.nodeId) hjoined
      · exact absurd (hfresh.sentNewNodeRequest.symm.trans hsent) Bool.false_ne_true

theorem Node.Inbox.runDualChannel (h : node.Inbox) {usIncr : UInt32} {downlink frame : Option Packet}
    {hearing : Hearing} (hs : node.runDualChannel usIncr downlink hearing = .ok (node', frame)) :
    node'.Inbox ∧ (node'.nodeId ≠ unallocatedNodeId → node.Accepts node' downlink) := by
  obtain ⟨m, hpost, hpre⟩ := Node.runDualChannel_ok hs
  have hticked := h.same (nodeUpdateTimeUs_same node usIncr)
  obtain ⟨hinit, hstore, hidle, hjoined⟩ := nodePostProcess_received hticked hpost
  have hinit' : (m.receive (hearing.received downlink).1).initialised = true := hinit
  obtain ⟨q, hquick, hsent, -⟩ := nodePreProcess_ok hinit' hpre
  have hsame : q.Inbox → (q.nodeId ≠ unallocatedNodeId → node.Accepts q downlink) →
      node'.Inbox ∧ (node'.nodeId ≠ unallocatedNodeId → node.Accepts node' downlink) := by
    intro hinbox haccepts
    have hscheduled : (nodeUpdateSchedule q).Inbox := ⟨hinbox.keeps.updateSchedule, hinbox.idle⟩
    refine ⟨hscheduled.same hsent, fun hid => ?_⟩
    have hreceived : node'.received = q.received := hsent.received
    have hseq : node'.txManager.rxSeqNum = q.txManager.rxSeqNum := hsent.rxSeqNum
    have hsameId : node'.nodeId = q.nodeId := hsent.nodeId
    rw [hsameId] at hid
    cases haccepts hid with
    | nothing hnothing hexpected => exact .nothing (hreceived.trans hnothing) ((congrFun hseq _).trans hexpected)
    | packet hdata happended hexpected =>
        exact .packet (hsameId ▸ hdata) (hreceived.trans happended) ((congrFun hseq _).trans hexpected)
  rcases nodeQuickRx_received hinit hstore hquick with hfresh
    | ⟨hkeeps, hid, ⟨hreceived, hseq⟩ | ⟨x, hnode, hdata, hreceived, hexpected⟩⟩
  · exact hsame hfresh.inbox fun hc => absurd hfresh.nodeId hc
  · refine hsame ⟨hkeeps, fun hun => ?_⟩ fun hnode => ?_
    · rw [hreceived, hseq]
      exact hidle (hid.symm.trans hun)
    · rw [hid] at hnode
      obtain ⟨hqueue, hkept⟩ := hjoined hnode
      exact .nothing (hreceived.trans hqueue) ((congrFun hseq _).trans hkept)
  · refine hsame ⟨hkeeps, fun hun => absurd (hid.symm.trans hun) hnode⟩ fun _ => ?_
    obtain ⟨hqueue, hkept⟩ := hjoined hnode
    rw [hkept] at hdata hexpected
    rw [hqueue] at hreceived
    exact .packet (hid ▸ hdata) hreceived hexpected

theorem Node.Inbox.call (h : node.Inbox) {mode : ChannelMode} {call : NodeCall}
    (hs : node.step (call.action mode) = .ok node') :
    node'.Inbox ∧ ((call = .reset ∧ node'.Fresh) ∨
      (node'.nodeId = node.nodeId ∧ call.takes node ++ node'.received = node.received ∧
      node'.txManager.rxSeqNum = node.txManager.rxSeqNum)) := by
  have hsame : node.SameReception node' → call.takes node = [] → node'.Inbox ∧
    ((call = .reset ∧ node'.Fresh) ∨
      (node'.nodeId = node.nodeId ∧ call.takes node ++ node'.received = node.received ∧
        node'.txManager.rxSeqNum = node.txManager.rxSeqNum)) := by
    intro hsame htakes
    refine ⟨h.same hsame, Or.inr ⟨hsame.nodeId, ?_, hsame.rxSeqNum⟩⟩
    rw [htakes, List.nil_append]
    exact hsame.received
  cases call with
  | allocate =>
      obtain ⟨⟨r, n⟩, halloc, hs⟩ := bind_eq_ok.mp hs
      cases hs
      exact hsame (nodeAllocateTxPacket_same halloc) rfl
  | write data =>
      cases hs
      exact hsame (nodeWriteAllocatedPacket_same node data) rfl
  | submit numBytes => exact hsame (nodeSubmitAllocatedTxPacket_same hs) rfl
  | peek =>
      obtain ⟨r, -, hs⟩ := bind_eq_ok.mp hs
      cases hs
      exact hsame (.refl node) rfl
  | pop =>
      have hholds : NodeHolds .dual node (some .pre) :=
        ⟨h.keeps.initialised, fun hc => absurd rfl hc, fun _ => h.keeps, fun _ => nofun, nofun⟩
      obtain ⟨hholds', hframes, hm, hid⟩ := hholds.pop hs
      have hframes : node'.pendingFrames = node.pendingFrames := hframes
      obtain ⟨rpm, hpop, hs⟩ := bind_eq_ok.mp hs
      cases hs
      have hqueue : NodeCall.pop.takes node ++ Node.received { node with rxPacketManager := rpm } = node.received := by
        have hpackets := RxPacketManager.packets_pop h.keeps.store hpop
        unfold Node.received
        rw [hframes, ← hpackets, List.map_append, List.map_append, List.map_append, List.append_assoc]
        rfl
      refine ⟨⟨hholds'.keeps rfl, fun hun => ⟨?_, (h.idle hun).2⟩⟩, Or.inr ⟨rfl, hqueue, rfl⟩⟩
      rw [(h.idle hun).1] at hqueue
      exact (List.append_eq_nil_iff.mp hqueue).2
  | reset =>
      have hfresh := (nodeReset_ok hs).1
      exact ⟨hfresh.inbox, Or.inl ⟨rfl, hfresh⟩⟩

end Node

end Microbus
