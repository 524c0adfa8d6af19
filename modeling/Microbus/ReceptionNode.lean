import Microbus.Reception
import Microbus.NodeRun
import Microbus.CleanSlate

/-! What a node accepts is what it queues, and who holds its buffers. -/
namespace Microbus

open Transition

namespace NodeAction

def part {mode : ChannelMode} : NodeAction mode → Option SlotPart
  | .preProcess .. => some .pre
  | .postProcess => some .post
  | _ => none

def received {mode : ChannelMode} : NodeAction mode → Option (Packet × Bool)
  | .preProcess frame crcError => some (frame, crcError)
  | .processRx frame crcError => some (frame, crcError)
  | _ => none

end NodeAction

/-- The frame with which the node moved to another sequence number. -/
def nodeAccepted {mode : ChannelMode} (node : Node) (a : NodeAction mode) (node' : Node) : List Packet :=
  match a.received with
  | some (frame, _) =>
      if node'.txManager.rxSeqNum masterNodeId ≠ node.txManager.rxSeqNum masterNodeId then [frame] else []
  | none => []

def nodeQueued {mode : ChannelMode} (node : Node) (a : NodeAction mode) (node' : Node) : List Packet :=
  match a with
  | .postProcess => node.rxPacketManager.appended node'.rxPacketManager
  | .processRx .. => node.rxPacketManager.appended node'.rxPacketManager
  | _ => []

def nodeReceiver (mode : ChannelMode) : Receiver Node (NodeAction mode) where
  part := NodeAction.part
  accepted := nodeAccepted
  queued := nodeQueued
  resets := fun node a => node.resets a

def Node.pending (node : Node) : Option Nat := if node.validRxPacket then node.prevRxPacketEntry else none

/-- The data frame in order that the quick part kept. -/
def Node.pendingFrames (node : Node) : List Packet :=
  (node.pending.toList.map node.packetAt).filter fun p =>
    node.validRxSeqNum && (node.nodeId != unallocatedNodeId && p.getPacketType == some .masterData)

/-- A frame waits between the two parts of a slot only: the flag stays set after them. -/
def Node.waiting (node : Node) (last : Option SlotPart) : Option Nat := if last = some .pre then node.pending else none

def Node.waitingFrames (node : Node) (last : Option SlotPart) : List Packet :=
  if last = some .pre then node.pendingFrames else []

/-- A data frame from the master with the number that is expected, for which there is a free buffer. -/
def Node.takes (node : Node) (frame : Packet) (crcError : Bool) : Prop :=
  nodeReadsFrame frame crcError ∧ frame.dstNodeId = node.nodeId ∧ node.nodeId ≠ unallocatedNodeId ∧
    frame.getPacketType = some .masterData ∧
    frame.txSeqNum = expectedSeqNum (node.txManager.rxSeqNum masterNodeId) ∧
    (findFreeRxPacket node.rxPacketManager).isSome = true

instance Node.takes.decidable (node : Node) (frame : Packet) (crcError : Bool) :
    Decidable (node.takes frame crcError) := by
  unfold Node.takes; infer_instance

def Node.taken (node : Node) {mode : ChannelMode} (a : NodeAction mode) : List Packet :=
  match a.received with
  | some (frame, crcError) => if node.takes frame crcError then [frame] else []
  | none => []

/-- A frame that was kept is for this node, and the ring has room for it. -/
structure NodeKeeps (node : Node) : Prop where
  initialised : node.initialised = true
  store : RxInv node.rxPacketManager node.nextRxPacketEntry node.pending
  room : node.validRxPacket = true → ¬ node.rxPacketManager.isFull
  dst : ∀ e ∈ node.pending, (node.packetAt e).dstNodeId = node.nodeId

section NodeParts

variable {node node' : Node}

theorem Node.pending_of_invalid (h : node.validRxPacket = false) : node.pending = none := by
  unfold pending
  rw [h]
  rfl

theorem Node.pendingFrames_of_invalid (h : node.validRxPacket = false) : node.pendingFrames = [] := by
  unfold pendingFrames
  rw [pending_of_invalid h]
  rfl

theorem Node.Fresh.rxInv (h : node.Fresh) :
    RxInv node.rxPacketManager node.nextRxPacketEntry none ∧ node.rxPacketManager.ring = [] := by
  obtain ⟨maxEntries, hmax, hfind⟩ := h.rx
  exact rxInv_init hmax hfind

theorem Node.Fresh.keeps (h : node.Fresh) : NodeKeeps node where
  initialised := h.initialised
  store := by
    rw [pending_of_invalid h.validRxPacket]
    exact h.rxInv.1
  room hc := absurd (h.validRxPacket.symm.trans hc) Bool.false_ne_true
  dst e he := by
    rw [pending_of_invalid h.validRxPacket] at he
    cases he

theorem Node.SameReception.pendingFrames (h : node.SameReception node') : node'.pendingFrames = node.pendingFrames := by
  unfold Node.pendingFrames Node.pending Node.packetAt
  rw [h.validRxPacket, h.prevRxPacketEntry, h.rxPacketManager, h.validRxSeqNum, h.nodeId]

theorem NodeKeeps.same (h : NodeKeeps node) (hs : node.SameReception node') : NodeKeeps node' where
  initialised := hs.initialised.trans h.initialised
  store := by
    have hstore := h.store
    unfold Node.pending at hstore ⊢
    rw [hs.rxPacketManager, hs.nextRxPacketEntry, hs.validRxPacket, hs.prevRxPacketEntry]
    exact hstore
  room := by
    rw [hs.rxPacketManager, hs.validRxPacket]
    exact h.room
  dst := by
    have hdst := h.dst
    unfold Node.pending Node.packetAt at hdst ⊢
    rw [hs.rxPacketManager, hs.validRxPacket, hs.prevRxPacketEntry, hs.nodeId]
    exact hdst

theorem NodeKeeps.updateSchedule (h : NodeKeeps node) : NodeKeeps (nodeUpdateSchedule node) :=
  ⟨h.initialised, h.store, h.room, h.dst⟩

theorem nodeKeeps_record {rpm : RxPacketManager} {next : Nat} (frame : Packet) (valid validSeq : Bool) (m : TxManager)
    (hinit : node.initialised = true)
    (hstore : RxInv rpm next (if valid then some node.nextRxPacketEntry else none))
    (hroom : valid = true → ¬ rpm.isFull)
    (hdst : valid = true → (rpm.rxPacketEntries node.nextRxPacketEntry).packet.dstNodeId = node.nodeId) :
    NodeKeeps { nodeRecordSchedule node.opened frame with
        validRxPacket := valid
        rxPacketManager := rpm
        nextRxPacketEntry := next
        validRxSeqNum := validSeq
        txManager := m } ∧
      ({ nodeRecordSchedule node.opened frame with
        validRxPacket := valid
        rxPacketManager := rpm
        nextRxPacketEntry := next
        validRxSeqNum := validSeq
        txManager := m } : Node).pendingFrames =
        if valid then
          [(rpm.rxPacketEntries node.nextRxPacketEntry).packet].filter fun p =>
            validSeq && (node.nodeId != unallocatedNodeId && p.getPacketType == some .masterData)
        else [] := by
  obtain ⟨_, _, heq⟩ := nodeRecordSchedule_eq node.opened frame
  rw [heq]
  cases valid with
  | false => exact ⟨⟨hinit, hstore, hroom, fun e he => (by cases he)⟩, rfl⟩
  | true =>
      refine ⟨⟨hinit, hstore, hroom, ?_⟩, rfl⟩
      intro e he
      cases he
      exact hdst rfl

/-- The quick part takes the frame that arrived last, or leaves the sequence number alone, unless the
frame resets the node. -/
theorem nodeQuickRx_takes {crcError : Bool} {frame : Packet} (hinit : node.initialised = true)
    (hstore : RxInv node.rxPacketManager node.nextRxPacketEntry none)
    (hframe : node.packetAt node.nextRxPacketEntry = frame) (h : nodeQuickProcessPrevRx node crcError = .ok node') :
    (node.resetBy frame crcError ∧ node'.Fresh ∧ node'.uniqueId = node.uniqueId) ∨
      (¬ node.resetBy frame crcError ∧ NodeKeeps node' ∧ node'.nodeId = node.nodeId ∧
        node'.rxPacketManager.ring = node.rxPacketManager.ring ∧
        ((node.takes frame crcError ∧ node'.pendingFrames = [frame] ∧ node'.txManager.rxSeqNum =
            Function.update node.txManager.rxSeqNum masterNodeId frame.txSeqNum) ∨
          (¬ node.takes frame crcError ∧ node'.pendingFrames = [] ∧
            node'.txManager.rxSeqNum = node.txManager.rxSeqNum))) := by
  have hresult := nodeQuickProcessPrevRx_ok hinit h
  rw [hframe] at hresult
  have hopened : NodeKeeps node.opened := ⟨hinit, hstore, fun hc => (by cases hc), fun e he => (by cases he)⟩
  cases hresult with
  | unread hunread =>
      exact Or.inr ⟨fun hc => hunread hc.2.1, hopened, rfl, rfl, Or.inr ⟨fun hc => hunread hc.1, rfl, rfl⟩⟩
  | reset hreads htype hremove =>
      rcases nodeRemoveFromNetwork_ok hremove with ⟨hid, rfl⟩ | ⟨hid, hfresh, huid⟩
      · exact Or.inr ⟨fun hc => hc.1 hid, hopened, rfl, rfl, Or.inr ⟨fun hc => hc.2.2.1 hid, rfl, rfl⟩⟩
      · exact Or.inl ⟨⟨hid, hreads, htype⟩, hfresh, huid⟩
  | dropped hreads htype hnone =>
      obtain ⟨_, _, heq⟩ := nodeRecordSchedule_eq node.opened frame
      rw [heq]
      refine Or.inr ⟨fun hc => htype hc.2.2,
        ⟨hinit, hstore, fun hc => (by cases hc), fun e he => (by cases he)⟩, rfl,
        rfl, Or.inr ⟨?_, rfl, rfl⟩⟩
      rintro ⟨-, hdst, -, -, -, hsome⟩
      rw [hnone hdst] at hsome
      cases hsome
  | kept hreads htype hdst hfind hseq =>
      rename_i free rpm valid
      obtain ⟨hfull, rfl⟩ := RxPacketManager.findFreeRxPacket_some hfind
      have hpacket : ((node.rxPacketManager.setInUse free true).rxPacketEntries node.nextRxPacketEntry).packet =
        frame :=
        (RxPacketManager.packet_setInUse _ _ _).trans hframe
      obtain ⟨hkeeps, hframes⟩ := nodeKeeps_record frame true valid
        (nodeRecordSchedule node.opened frame).txManager hinit (hstore.take hfind) (fun _ => hfull)
        (fun _ => by rw [hpacket]; exact hdst)
      refine Or.inr ⟨fun hc => htype hc.2.2, hkeeps, nodeRecordSchedule_nodeId _ _, rfl, Or.inr ⟨?_, ?_, ?_⟩⟩
      · rintro ⟨-, -, hid, hdata, hexpected, -⟩
        exact (hseq hid hdata).2 hexpected
      · refine hframes.trans ?_
        rw [if_pos rfl, hpacket, List.filter_cons_of_neg]
        · rfl
        · intro hc
          simp only [Bool.and_eq_true, bne_iff_ne, beq_iff_eq] at hc
          exact Bool.false_ne_true ((hseq hc.2.1 hc.2.2).1.symm.trans hc.1)
      · exact congrArg TxManager.rxSeqNum (nodeRecordSchedule_txManager _ _)
  | inOrder hreads hdst hfind hid hdata hexpected =>
      rename_i free rpm
      obtain ⟨hfull, rfl⟩ := RxPacketManager.findFreeRxPacket_some hfind
      have hpacket : ((node.rxPacketManager.setInUse free true).rxPacketEntries node.nextRxPacketEntry).packet =
        frame :=
        (RxPacketManager.packet_setInUse _ _ _).trans hframe
      obtain ⟨hkeeps, hframes⟩ := nodeKeeps_record frame true true
        (node.txManager.withRxSeqNum (Function.update node.txManager.rxSeqNum masterNodeId frame.txSeqNum)) hinit
          (hstore.take hfind) (fun _ => hfull) (fun _ => by rw [hpacket]; exact hdst)
      have htype : frame.getPacketType ≠ some .masterReset := by
        rw [hdata]
        decide
      refine Or.inr ⟨fun hc => htype hc.2.2, hkeeps, nodeRecordSchedule_nodeId _ _, rfl,
        Or.inl ⟨⟨hreads, hdst, hid, hdata, hexpected, ?_⟩, ?_, rfl⟩⟩
      · rw [hfind]
        rfl
      · refine hframes.trans ?_
        rw [if_pos rfl, hpacket, List.filter_cons_of_pos (by simp [hid, hdata])]
        rfl

theorem nodeProcessRx_queues (hkeeps : NodeKeeps node) (h : nodeProcessRx node = .ok node') :
    node'.initialised = true ∧ RxInv node'.rxPacketManager node'.nextRxPacketEntry none ∧
      node.rxPacketManager.appended node'.rxPacketManager = node.pendingFrames ∧
      node'.txManager.rxSeqNum = node.txManager.rxSeqNum := by
  obtain ⟨m, hack, hframe⟩ := nodeProcessRx_ok h
  have hseq : m.rxSeqNum = node.txManager.rxSeqNum := by
    rcases hack with ⟨-, rfl⟩ | ⟨k, -, hack⟩
    · rfl
    · exact (rxAckSeqNum_tables hack).2.1
  rcases hframe with ⟨hvalid, rfl⟩ | ⟨e, hvalid, hprev, hresult⟩
  · have hstore := hkeeps.store
    rw [Node.pending_of_invalid hvalid] at hstore
    exact ⟨hkeeps.initialised, hstore,
      (RxPacketManager.appended_of_ring rfl).trans (Node.pendingFrames_of_invalid hvalid).symm, hseq⟩
  · have hpending : node.pending = some e := by
      unfold Node.pending
      rw [hvalid, ← hprev]
      rfl
    have hframes : node.pendingFrames = [node.packetAt e].filter fun p =>
        node.validRxSeqNum && (node.nodeId != unallocatedNodeId && p.getPacketType == some .masterData) := by
      unfold Node.pendingFrames
      rw [hpending]
      rfl
    have hstore := hkeeps.store
    rw [hpending] at hstore
    have hdst := hkeeps.dst e hpending
    cases hresult with
    | freed hignored =>
        refine ⟨hkeeps.initialised, hstore.release, (RxPacketManager.appended_of_ring rfl).trans ?_, hseq⟩
        rw [hframes, List.filter_cons_of_neg]
        · rfl
        · intro hc
          simp only [Bool.and_eq_true, bne_iff_ne, beq_iff_eq] at hc
          exact Bool.false_ne_true ((hignored hc.2.1 hdst hc.2.2).2.symm.trans hc.1)
    | joined hid hresponse _ _ =>
        refine ⟨hkeeps.initialised, hstore.release, (RxPacketManager.appended_of_ring rfl).trans ?_, hseq⟩
        have hid' : node.nodeId = unallocatedNodeId := hid
        rw [hframes, List.filter_cons_of_neg (by simp [hid'])]
        rfl
    | stored hid _ hdata _ hvalidSeq hadd =>
        obtain ⟨hinv, hring⟩ := hstore.add hadd
        obtain ⟨-, -, -, hentries⟩ := RxPacketManager.addRxDataPacket_fields hadd
        refine ⟨hkeeps.initialised, hinv, (RxPacketManager.appended_add hring).trans ?_, hseq⟩
        have hid' : node.nodeId ≠ unallocatedNodeId := hid
        have hdata' : (node.packetAt e).getPacketType = some .masterData := hdata
        have hvalidSeq' : node.validRxSeqNum = true := hvalidSeq
        rw [hframes, List.filter_cons_of_pos (by simp [hid', hdata', hvalidSeq']), hentries]
        rfl

end NodeParts

/-- The buffers of a node between any two actions. -/
structure NodeHolds (mode : ChannelMode) (node : Node) (last : Option SlotPart) : Prop where
  initialised : node.initialised = true
  between : last ≠ some .pre → RxInv node.rxPacketManager node.nextRxPacketEntry none
  keeps : last = some .pre → NodeKeeps node
  start : mode = .dual → last = none → node.validRxPacket = false
  single : mode = .single → last = none

namespace NodeHolds

variable {mode : ChannelMode} {node node' : Node} {last : Option SlotPart}

theorem fresh (hfresh : node.Fresh) (hsingle : mode = .single → last = none) : NodeHolds mode node last where
  initialised := hfresh.initialised
  between _ := hfresh.rxInv.1
  keeps _ := hfresh.keeps
  start _ _ := hfresh.validRxPacket
  single := hsingle

theorem same (h : NodeHolds mode node last) (hs : node.SameReception node') : NodeHolds mode node' last where
  initialised := hs.initialised.trans h.initialised
  between hlast := by
    rw [hs.rxPacketManager, hs.nextRxPacketEntry]
    exact h.between hlast
  keeps hlast := (h.keeps hlast).same hs
  start hmode hlast := hs.validRxPacket.trans (h.start hmode hlast)
  single := h.single

theorem store (h : NodeHolds mode node last) :
    RxInv node.rxPacketManager node.nextRxPacketEntry (node.waiting last) := by
  unfold Node.waiting
  by_cases hlast : last = some .pre
  · rw [if_pos hlast]
    exact (h.keeps hlast).store
  · rw [if_neg hlast]
    exact h.between hlast

/-- The post-process finds the frame that the pre-process before it kept, if there was one. -/
theorem keeps_at_post (h : NodeHolds .dual node last) (hlast : last ≠ some .post) :
    NodeKeeps node ∧ node.waitingFrames last = node.pendingFrames := by
  unfold Node.waitingFrames
  by_cases hpre : last = some .pre
  · rw [if_pos hpre]
    exact ⟨h.keeps hpre, rfl⟩
  · have hnone : last = none := by
      cases last with
      | none => rfl
      | some p =>
          cases p with
          | pre => exact absurd rfl hpre
          | post => exact absurd rfl hlast
    have hvalid := h.start rfl hnone
    rw [if_neg hpre, Node.pendingFrames_of_invalid hvalid]
    refine ⟨⟨h.initialised, ?_, fun hc => absurd (hvalid.symm.trans hc) Bool.false_ne_true, ?_⟩, rfl⟩
    · rw [Node.pending_of_invalid hvalid]
      exact h.between hpre
    · intro e he
      rw [Node.pending_of_invalid hvalid] at he
      cases he

theorem pop (h : NodeHolds mode node last) (hp : nodePopNextDataPacket node = .ok node') :
    NodeHolds mode node' last ∧ node'.waitingFrames last = node.waitingFrames last ∧
    node'.txManager = node.txManager ∧
      node'.nodeId = node.nodeId := by
  obtain ⟨rpm, hpop, hn⟩ := bind_eq_ok.mp hp
  cases hn
  refine ⟨⟨h.initialised, fun hlast => ((h.between hlast).pop hpop).1, ?_, h.start, h.single⟩, ?_, rfl, rfl⟩
  · intro hlast
    have hkeeps := h.keeps hlast
    obtain ⟨hinv, hmax, hpackets, e, hring⟩ := hkeeps.store.pop hpop
    refine ⟨hkeeps.initialised, hinv, ?_, ?_⟩
    · intro hvalid
      exact hkeeps.store.notFull hinv (hkeeps.room hvalid) hmax (by rw [hring]; exact Nat.le_succ _)
    · intro i hi
      change (rpm.rxPacketEntries i).packet.dstNodeId = node.nodeId
      rw [hpackets i]
      exact hkeeps.dst i hi
  · obtain ⟨-, -, hpackets, -⟩ := h.store.pop hpop
    unfold Node.waitingFrames
    split
    · unfold Node.pendingFrames
      congr 1
      apply List.map_congr_left
      intro i _
      exact hpackets i
    · rfl

end NodeHolds

/-- What an action of a node that does not reset it does to the number of the master. -/
structure Node.SeqNumMoves (node node' : Node) (frames : List Packet) : Prop where
  taken : ∀ frame ∈ frames, node'.txManager.rxSeqNum masterNodeId = frame.txSeqNum
  same : frames = [] → node'.txManager.rxSeqNum masterNodeId = node.txManager.rxSeqNum masterNodeId

theorem Node.SeqNumMoves.of_eq {node node' : Node} (h : node'.txManager.rxSeqNum = node.txManager.rxSeqNum) :
    node.SeqNumMoves node' [] where
  taken _ hf := absurd hf List.not_mem_nil
  same _ := congrFun h _

theorem Node.Fresh.rxSeqNum {node : Node} (h : node.Fresh) :
    node.txManager.rxSeqNum masterNodeId = nullSequenceNum := by
  obtain ⟨_, _, htx⟩ := h.tx
  rw [htx]
  rfl

/-- What an action makes of the buffers of a node, of the frames that it takes and of the number of the master. -/
structure Node.RxStep {mode : ChannelMode} (node node' : Node) (a : NodeAction mode)
    (last : Option SlotPart) : Prop where
  holds : NodeHolds mode node' (a.part.or last)
  reset : node.resets a → node'.waitingFrames (a.part.or last) = [] ∧ node'.rxPacketManager.ring = [] ∧
    node'.txManager.rxSeqNum masterNodeId = nullSequenceNum
  kept : ¬ node.resets a → nodeAccepted node a node' = node.taken a ∧
    node.waitingFrames last ++ node.taken a = nodeQueued node a node' ++ node'.waitingFrames (a.part.or last) ∧
    node.SeqNumMoves node' (node.taken a)

namespace NodeHolds

variable {mode : ChannelMode} {node node' n : Node} {last : Option SlotPart} {frame : Packet} {crcError : Bool}

/-- An action that leaves the receive path alone. -/
theorem leavesRx (h : NodeHolds mode node last) (hs : node.SameReception node') :
    NodeHolds mode node' last ∧ node.waitingFrames last ++ [] = [] ++ node'.waitingFrames last ∧
      node.SeqNumMoves node' [] := by
  refine ⟨h.same hs, ?_, .of_eq hs.rxSeqNum⟩
  unfold Node.waitingFrames
  rw [hs.pendingFrames, List.append_nil, List.nil_append]

theorem of_post (hinit : node.initialised = true)
    (hstore : RxInv node.rxPacketManager node.nextRxPacketEntry none) : NodeHolds .dual node (some .post) where
  initialised := hinit
  between _ := hstore
  keeps hc := by cases hc
  start _ hc := by cases hc
  single hc := by cases hc

theorem of_single (hinit : node.initialised = true)
    (hstore : RxInv node.rxPacketManager node.nextRxPacketEntry none) : NodeHolds .single node none where
  initialised := hinit
  between _ := hstore
  keeps hc := by cases hc
  start hc := by cases hc
  single _ := rfl

theorem of_pre (hkeeps : NodeKeeps node) : NodeHolds .dual node (some .pre) where
  initialised := hkeeps.initialised
  between hc := absurd rfl hc
  keeps _ := hkeeps
  start _ hc := by cases hc
  single hc := by cases hc

/-- The quick part of a slot on a frame that has just arrived starts the node anew, or moves the number of the
master exactly if the frame is taken. -/
theorem quickRx (h : NodeHolds mode node last) (hlast : last ≠ some .pre)
    (hq : nodeQuickProcessPrevRx (node.receive frame) crcError = .ok n) :
    (node.resetBy frame crcError ∧ n.Fresh) ∨ (¬ node.resetBy frame crcError ∧ NodeKeeps n ∧
      n.rxPacketManager.ring = node.rxPacketManager.ring ∧
      n.pendingFrames = (if node.takes frame crcError then [frame] else []) ∧
      ∀ n' : Node, n'.txManager.rxSeqNum = n.txManager.rxSeqNum →
        (if n'.txManager.rxSeqNum masterNodeId ≠ node.txManager.rxSeqNum masterNodeId then [frame] else []) =
            (if node.takes frame crcError then [frame] else []) ∧
          node.SeqNumMoves n' (if node.takes frame crcError then [frame] else [])) := by
  have htakes : (node.receive frame).takes frame crcError ↔ node.takes frame crcError := by
    unfold Node.takes
    change _ ∧ _ ∧ _ ∧ _ ∧ _ ∧ (findFreeRxPacket (node.rxPacketManager.receive _ frame)).isSome = true ↔ _
    rw [findFreeRxPacket_receive_isSome]
    rfl
  have hstore : RxInv (node.receive frame).rxPacketManager (node.receive frame).nextRxPacketEntry none :=
    (h.between hlast).receive _ _
  have hinit : (node.receive frame).initialised = true := h.initialised
  rcases nodeQuickRx_takes hinit hstore (RxPacketManager.packet_receive _ _) hq with
    ⟨hreset, hfresh, -⟩ | ⟨hreset, hkeeps, -, hring, hcase⟩
  · exact Or.inl ⟨hreset, hfresh⟩
  · rw [htakes] at hcase
    refine Or.inr ⟨hreset, hkeeps, hring, ?_⟩
    rcases hcase with ⟨htake, hframes, hseq⟩ | ⟨htake, hframes, hseq⟩
    · rw [if_pos htake]
      refine ⟨hframes, fun n' hn' => ?_⟩
      have hself : n'.txManager.rxSeqNum masterNodeId = frame.txSeqNum := by
        rw [hn', hseq, Function.update_self]
      rw [hself, if_pos (by rw [htake.2.2.2.2.1]; exact expectedSeqNum_ne _)]
      refine ⟨rfl, ⟨?_, fun hc => by cases hc⟩⟩
      intro f hf
      rw [List.mem_singleton.mp hf, hself]
    · rw [if_neg htake]
      refine ⟨hframes, fun n' hn' => ?_⟩
      have heq : n'.txManager.rxSeqNum = node.txManager.rxSeqNum := hn'.trans hseq
      rw [heq, if_neg (fun hc => hc rfl)]
      exact ⟨rfl, .of_eq heq⟩

/-- The long part on a node that was started anew finds no frame. -/
theorem processRx_fresh (hfresh : node.Fresh) (h : nodeProcessRx node = .ok node') :
    node'.rxPacketManager.ring = [] := by
  obtain ⟨m, -, ⟨-, rfl⟩ | ⟨e, hvalid, -⟩⟩ := nodeProcessRx_ok h
  · exact hfresh.rxInv.2
  · exact absurd (hfresh.validRxPacket.symm.trans hvalid) Bool.false_ne_true

theorem preProcess (h : NodeHolds .dual node last) (hlast : last ≠ some .pre)
    (hs : node.step (.preProcess frame crcError) = .ok node') :
    node.RxStep node' (.preProcess frame crcError) last := by
  obtain ⟨⟨n', f⟩, hpre, hs⟩ := bind_eq_ok.mp hs
  cases hs
  have hinit : (node.receive frame).initialised = true := h.initialised
  obtain ⟨n, hq, hsent, -⟩ := nodePreProcess_ok hinit hpre
  rcases h.quickRx hlast hq with ⟨hreset, hfresh⟩ | ⟨hreset, hkeeps, -, hframes, hmove⟩
  · refine ⟨.of_pre (hfresh.keeps.updateSchedule.same hsent), fun _ => ⟨?_, ?_, ?_⟩,
      fun hc => absurd hreset hc⟩
    · change node'.pendingFrames = []
      rw [hsent.pendingFrames]
      exact Node.pendingFrames_of_invalid hfresh.validRxPacket
    · rw [hsent.rxPacketManager]
      exact hfresh.rxInv.2
    · have hnull := hfresh.rxSeqNum
      rw [hsent.rxSeqNum]
      exact hnull
  · obtain ⟨haccepted, hmoves⟩ := hmove node' hsent.rxSeqNum
    refine ⟨.of_pre (hkeeps.updateSchedule.same hsent), fun hc => absurd hc hreset,
      fun _ => ⟨haccepted, ?_, hmoves⟩⟩
    unfold Node.waitingFrames
    rw [if_neg hlast]
    change _ = [] ++ node'.pendingFrames
    rw [hsent.pendingFrames]
    exact hframes.symm

theorem postProcess (h : NodeHolds .dual node last) (hlast : last ≠ some .post)
    (hs : node.step .postProcess = .ok node') : node.RxStep node' .postProcess last := by
  obtain ⟨hkeeps, hframes⟩ := h.keeps_at_post hlast
  obtain ⟨n₁, n₂, h₁, h₂, h₃⟩ := nodePostProcess_ok h.initialised hs
  have hsent := nodeProcessTx_same h₃
  rcases nodeCheckIfTimedOut_ok h₁ with ⟨htime, hn⟩ | ⟨htime, hfresh, -⟩
  · rw [hn] at h₂
    obtain ⟨hinit, hinv, hqueued, hseq⟩ := nodeProcessRx_queues hkeeps h₂
    refine ⟨(of_post hinit hinv).same hsent, fun hc => absurd hc htime,
      fun _ => ⟨rfl, ?_, .of_eq (hsent.rxSeqNum.trans hseq)⟩⟩
    change node.waitingFrames last ++ [] = node.rxPacketManager.appended node'.rxPacketManager ++ []
    rw [hframes, hsent.rxPacketManager, hqueued]
  · obtain ⟨hinit, hinv, hqueued, hseq⟩ := nodeProcessRx_queues hfresh.keeps h₂
    refine ⟨(of_post hinit hinv).same hsent, fun _ => ⟨rfl, ?_, ?_⟩, fun hc => absurd htime hc⟩
    · rw [hsent.rxPacketManager]
      exact processRx_fresh hfresh h₂
    · rw [hsent.rxSeqNum, hseq]
      exact hfresh.rxSeqNum

theorem isTxMode (h : NodeHolds .single node last) (hs : node.step .isTxMode = .ok node') :
    node.RxStep node' .isTxMode last := by
  obtain ⟨⟨isTx, n'⟩, htx, hs⟩ := bind_eq_ok.mp hs
  cases hs
  obtain ⟨n, hn, -, rfl⟩ := nodeIsTxMode_ok h.initialised htx
  have hnone := h.single rfl
  subst hnone
  rcases nodeCheckIfTimedOut_ok hn with ⟨htime, rfl⟩ | ⟨htime, hfresh, -⟩
  · exact ⟨of_single h.initialised (h.between nofun), fun hc => absurd hc htime,
      fun _ => ⟨rfl, rfl, .of_eq rfl⟩⟩
  · have hnull := hfresh.rxSeqNum
    exact ⟨of_single hfresh.initialised hfresh.rxInv.1, fun _ => ⟨rfl, hfresh.rxInv.2, hnull⟩,
      fun hc => absurd htime hc⟩

theorem processRx (h : NodeHolds .single node last) (hs : node.step (.processRx frame crcError) = .ok node') :
    node.RxStep node' (.processRx frame crcError) last := by
  have hnone := h.single rfl
  subst hnone
  have hstart : (node.receive frame).initialised = true := h.initialised
  obtain ⟨n, hq, hrx⟩ := nodeNoDelayProcessRx_ok hstart hs
  rcases h.quickRx nofun hq with ⟨hreset, hfresh⟩ | ⟨hreset, hkeeps, hring, hframes, hmove⟩
  · obtain ⟨hinit, hinv, -, hseq⟩ := nodeProcessRx_queues hfresh.keeps hrx
    refine ⟨of_single hinit hinv, fun _ => ⟨rfl, processRx_fresh hfresh hrx, ?_⟩, fun hc => absurd hreset hc⟩
    rw [hseq]
    exact hfresh.rxSeqNum
  · obtain ⟨hinit, hinv, hqueued, hseq⟩ := nodeProcessRx_queues hkeeps hrx
    obtain ⟨haccepted, hmoves⟩ := hmove node' hseq
    refine ⟨of_single hinit hinv, fun hc => absurd hc hreset, fun _ => ⟨haccepted, ?_, hmoves⟩⟩
    have hsameRing : node.rxPacketManager.appended node'.rxPacketManager =
        n.rxPacketManager.appended node'.rxPacketManager := by
      unfold RxPacketManager.appended
      rw [hring]
    change [] ++ (if node.takes frame crcError then [frame] else []) =
      node.rxPacketManager.appended node'.rxPacketManager ++ []
    rw [hsameRing, hqueued, hframes, List.append_nil, List.nil_append]

theorem resetNode (h : NodeHolds mode node last) (hs : node.step (.reset : NodeAction mode) = .ok node') :
    node.RxStep node' (.reset : NodeAction mode) last := by
  obtain ⟨hfresh, -⟩ := nodeReset_ok hs
  refine ⟨.fresh hfresh h.single, fun _ => ⟨?_, hfresh.rxInv.2, hfresh.rxSeqNum⟩, fun hc => absurd trivial hc⟩
  unfold Node.waitingFrames
  split
  · exact Node.pendingFrames_of_invalid hfresh.validRxPacket
  · rfl

/-- The whole of an action of a node. -/
theorem step {a : NodeAction mode} (h : NodeHolds mode node last) (halt : Alternates last a.part)
    (hs : node.step a = .ok node') : node.RxStep node' a last := by
  cases a with
  | preProcess frame crcError => exact h.preProcess (halt .pre rfl) hs
  | postProcess => exact h.postProcess (halt .post rfl) hs
  | isTxMode => exact h.isTxMode hs
  | processRx frame crcError => exact h.processRx hs
  | processTx =>
      obtain ⟨⟨n, f⟩, htx, hs⟩ := bind_eq_ok.mp hs
      cases hs
      obtain ⟨hholds, hframes, hmoves⟩ := h.leavesRx (nodeNoDelayProcessTx_ok h.initialised htx)
      exact ⟨hholds, fun hc => hc.elim, fun _ => ⟨rfl, hframes, hmoves⟩⟩
  | updateTimeUs usIncr =>
      cases hs
      obtain ⟨hholds, hframes, hmoves⟩ := h.leavesRx (nodeUpdateTimeUs_same node usIncr)
      exact ⟨hholds, fun hc => hc.elim, fun _ => ⟨rfl, hframes, hmoves⟩⟩
  | allocate =>
      obtain ⟨⟨r, n⟩, halloc, hs⟩ := bind_eq_ok.mp hs
      cases hs
      obtain ⟨hholds, hframes, hmoves⟩ := h.leavesRx (nodeAllocateTxPacket_same halloc)
      exact ⟨hholds, fun hc => hc.elim, fun _ => ⟨rfl, hframes, hmoves⟩⟩
  | write data =>
      cases hs
      obtain ⟨hholds, hframes, hmoves⟩ := h.leavesRx (nodeWriteAllocatedPacket_same node data)
      exact ⟨hholds, fun hc => hc.elim, fun _ => ⟨rfl, hframes, hmoves⟩⟩
  | submit numBytes =>
      obtain ⟨hholds, hframes, hmoves⟩ := h.leavesRx (nodeSubmitAllocatedTxPacket_same hs)
      exact ⟨hholds, fun hc => hc.elim, fun _ => ⟨rfl, hframes, hmoves⟩⟩
  | peek =>
      obtain ⟨r, -, hs⟩ := bind_eq_ok.mp hs
      cases hs
      obtain ⟨hholds, hframes, hmoves⟩ := h.leavesRx (.refl node)
      exact ⟨hholds, fun hc => hc.elim, fun _ => ⟨rfl, hframes, hmoves⟩⟩
  | pop =>
      obtain ⟨hholds, hframes, htx, -⟩ := h.pop hs
      refine ⟨hholds, fun hc => hc.elim, fun _ => ⟨rfl, ?_, .of_eq (by rw [htx])⟩⟩
      change _ ++ [] = [] ++ node'.waitingFrames last
      rw [hframes, List.append_nil, List.nil_append]
  | reset => exact h.resetNode hs

end NodeHolds

end Microbus
