import Microbus.NodeFrames

/-! What a received frame makes of a node. -/
namespace Microbus

open Transition

/-- A packet that the application can take. -/
def Packet.Sized (p : Packet) : Prop := 0 < p.getPacketDataSize ∧ p.getPacketDataSize ≤ masterPacketDataSize

/-- The id is valid, and so is each packet that peeking returns in turn. -/
structure Node.Sound (node : Node) : Prop where
  nodeId : ValidNodeId node.nodeId
  queued : ∀ e ∈ node.rxPacketManager.queued, (node.packetAt e).Sized

/-- A frame that the long part works through without harm: a response that is waited for admits the node, a
data frame is not empty, and one in order fits. -/
def Node.Takes (node : Node) (p : Packet) : Prop :=
  (node.nodeId = unallocatedNodeId → p.getPacketType = some .newNodeResponse → node.sentNewNodeRequest = true →
    p.Admits node.uniqueId) ∧
  (node.nodeId ≠ unallocatedNodeId → p.getPacketType = some .masterData →
    0 < p.getPacketDataSize ∧ (node.validRxSeqNum = true → p.getPacketDataSize ≤ masterPacketDataSize))

section Long

variable {node node' : Node} {e : Nat}

theorem Node.Sound.peek (h : node.Sound) {next : Nat} {waiting : Option Nat}
    (hstore : RxInv node.rxPacketManager next waiting) {data : RxData}
    (hpeek : nodePeekNextRxDataPacket node = .ok (some data)) :
    0 < data.size ∧ data.size ≤ masterPacketDataSize := by
  obtain ⟨e, rfl, hhead⟩ := nodePeek_ok hstore hpeek
  exact h.queued e (RxPacketManager.queued_of_head hhead)

theorem Node.Sound.congr (h : node.Sound) (hid : ValidNodeId node'.nodeId)
    (hring : node'.rxPacketManager.ring = node.rxPacketManager.ring)
    (hpackets : ∀ i, node'.packetAt i = node.packetAt i) : node'.Sound where
  nodeId := hid
  queued i hi := by
    unfold RxPacketManager.queued at hi
    rw [hring] at hi
    rw [hpackets]
    exact h.queued i hi

theorem Node.Sound.setInUse (h : node.Sound) (hid : ValidNodeId node'.nodeId) {inUse : Bool}
    (hrx : node'.rxPacketManager = node.rxPacketManager.setInUse e inUse) : node'.Sound := by
  refine h.congr hid (by rw [hrx]; rfl) fun i => ?_
  unfold Node.packetAt
  rw [hrx]
  exact RxPacketManager.packet_setInUse _ _ _

/-- Appending a packet leaves a sound node exactly when the packet is sized. -/
theorem Node.Sound.stored_iff (h : node.Sound)
    (hs : node.rxPacketManager.start < node.rxPacketManager.maxRxPacketEntries)
    (he : node.rxPacketManager.endIndex < node.rxPacketManager.maxRxPacketEntries) {rpm : RxPacketManager}
    (hadd : addRxDataPacket node.rxPacketManager e = .ok rpm) :
    ({ node with rxPacketManager := rpm } : Node).Sound ↔ (node.packetAt e).Sized := by
  obtain ⟨-, -, -, hentries⟩ := RxPacketManager.addRxDataPacket_fields hadd
  have hqueued : ∀ i, i ∈ rpm.queued ↔ i ∈ node.rxPacketManager.queued ∨ i = e := by
    intro i
    unfold RxPacketManager.queued
    rw [RxPacketManager.ring_add hs he hadd, List.reduceOption_append, List.mem_append]
    exact or_congr_right List.mem_singleton
  have hpacket : ∀ i, ({ node with rxPacketManager := rpm } : Node).packetAt i = node.packetAt i := by
    intro i
    unfold Node.packetAt
    dsimp only
    rw [hentries]
  constructor
  · intro hsound
    have hsized := hsound.queued e ((hqueued e).mpr (Or.inr rfl))
    rw [hpacket] at hsized
    exact hsized
  · intro hsized
    refine ⟨h.nodeId, fun i hi => ?_⟩
    rw [hpacket]
    rcases (hqueued i).mp hi with hi | rfl
    · exact h.queued i hi
    · exact hsized

theorem nodeProcessRxData_sound_iff (hsound : node.Sound)
    (hs : node.rxPacketManager.start < node.rxPacketManager.maxRxPacketEntries)
    (he : node.rxPacketManager.endIndex < node.rxPacketManager.maxRxPacketEntries)
    (hroom : ¬ node.rxPacketManager.isFull) (hdst : (node.packetAt e).dstNodeId = node.nodeId) :
    (∃ node', nodeProcessRxData node e = .ok node' ∧ node'.Sound) ↔ node.Takes (node.packetAt e) := by
  unfold nodeProcessRxData
  dsimp only
  by_cases hid : node.nodeId = unallocatedNodeId
  · rw [if_pos hid]
    by_cases hresponse : (node.packetAt e).getPacketType = some .newNodeResponse ∧ node.sentNewNodeRequest = true
    · rw [if_pos hresponse]
      have hadmits : (∃ m, rxNewNodePacketResponse (node.packetAt e) node.uniqueId
          ⟨node.nodeId, node.timeToLive, node.nodeJoinedNw⟩ = .ok m ∧ ValidNodeId m.nodeId) ↔
          (node.packetAt e).Admits node.uniqueId := admits_iff hsound.nodeId
      constructor
      · rintro ⟨node', h, hnode⟩
        obtain ⟨m, hm, h⟩ := bind_eq_ok.mp h
        cases h
        exact ⟨fun _ _ _ => hadmits.mp ⟨m, hm, hnode.nodeId⟩, fun hc => absurd hid hc⟩
      · intro h
        obtain ⟨m, hm, hvalid⟩ := hadmits.mpr (h.1 hid hresponse.1 hresponse.2)
        exact ⟨_, bind_eq_ok.mpr ⟨m, hm, rfl⟩, hsound.setInUse hvalid rfl⟩
    · rw [if_neg hresponse]
      refine iff_of_true ⟨_, rfl, hsound.setInUse hsound.nodeId rfl⟩ ?_
      exact ⟨fun _ htype hsent => absurd ⟨htype, hsent⟩ hresponse, fun hc => absurd hid hc⟩
  · rw [if_neg hid]
    by_cases hdata : (node.packetAt e).getPacketType = some .masterData
    · rw [if_pos ⟨hdst, hdata⟩]
      by_cases hpos : 0 < (node.packetAt e).getPacketDataSize
      · rw [show microbusAssert _ _ = .ok () from microbusAssert_ok.mpr ((Packet.dataSize_pos_iff _).mpr hpos)]
        change (∃ node' : Node, (if node.validRxSeqNum = true then _ else _) = Except.ok node' ∧ node'.Sound) ↔ _
        by_cases hseq : node.validRxSeqNum = true
        · rw [if_pos hseq]
          obtain ⟨rpm, hadd, -⟩ := RxPacketManager.addRxDataPacket_ok (e := e) hroom
          rw [hadd]
          have hstored := hsound.stored_iff hs he hadd
          constructor
          · rintro ⟨node', h, hnode⟩
            cases h
            exact ⟨fun hc => absurd hc hid, fun _ _ => ⟨hpos, fun _ => (hstored.mp hnode).2⟩⟩
          · intro h
            exact ⟨_, rfl, hstored.mpr ⟨hpos, (h.2 hid hdata).2 hseq⟩⟩
        · rw [if_neg hseq]
          refine iff_of_true ⟨_, rfl, hsound.setInUse hsound.nodeId rfl⟩ ?_
          exact ⟨fun hc => absurd hc hid, fun _ _ => ⟨hpos, fun hc => absurd hc hseq⟩⟩
      · refine iff_of_false ?_ fun h => hpos (h.2 hid hdata).1
        rintro ⟨node', h, -⟩
        obtain ⟨_, hassert, -⟩ := bind_eq_ok.mp h
        exact hpos ((Packet.dataSize_pos_iff _).mp (microbusAssert_ok.mp hassert))
    · rw [if_neg fun hc => hdata hc.2]
      refine iff_of_true ⟨_, rfl, hsound.setInUse hsound.nodeId rfl⟩ ?_
      exact ⟨fun hc => absurd hc hid, fun _ hc => absurd hc hdata⟩

/-- The acknowledgement of a received frame that `nodeProcessRx` works through finds its packets. -/
def Node.AckWaits (node : Node) : Prop :=
  node.savedRxAckValid = true → node.txManager.AckFound false masterNodeId node.savedRxAck

theorem nodeProcessRx_sound_iff (hready : node.Ready) (hsound : node.Sound)
    (hs : node.rxPacketManager.start < node.rxPacketManager.maxRxPacketEntries)
    (he : node.rxPacketManager.endIndex < node.rxPacketManager.maxRxPacketEntries)
    (hprev : node.validRxPacket = true → node.prevRxPacketEntry ≠ none)
    (hroom : node.validRxPacket = true → ¬ node.rxPacketManager.isFull)
    (hdst : ∀ e ∈ node.pending, (node.packetAt e).dstNodeId = node.nodeId) :
    (∃ node', nodeProcessRx node = .ok node' ∧ node'.Sound) ↔
      node.AckWaits ∧ ∀ e ∈ node.pending, node.Takes (node.packetAt e) := by
  -- whatever the acknowledgement made of the transmit side
  have hframe : ∀ m : TxManager, (∃ node', nodeProcessRxFrame { node with txManager := m } = .ok node' ∧
    node'.Sound) ↔
      ∀ e ∈ node.pending, node.Takes (node.packetAt e) := by
    intro m
    have hsound' : ({ node with txManager := m } : Node).Sound := ⟨hsound.nodeId, hsound.queued⟩
    unfold nodeProcessRxFrame
    by_cases hvalid : node.validRxPacket = true
    · rw [if_pos (show ({ node with txManager := m } : Node).validRxPacket = true from hvalid)]
      split
      · rename_i e hentry
        have hpending : node.pending = some e := by
          unfold Node.pending
          rw [if_pos hvalid, hentry]
        refine (nodeProcessRxData_sound_iff hsound' hs he (hroom hvalid) (hdst e hpending)).trans ?_
        rw [hpending]
        constructor
        · intro h i hi
          cases hi
          exact h
        · intro h
          exact h e rfl
      · rename_i hnone
        obtain ⟨e, hentry⟩ := Option.ne_none_iff_exists'.mp (hprev hvalid)
        exact absurd hentry (hnone e)
    · rw [if_neg (show ¬ ({ node with txManager := m } : Node).validRxPacket = true from hvalid),
        Node.pending_of_invalid (Bool.not_eq_true _ ▸ hvalid)]
      exact iff_of_true ⟨_, rfl, hsound'⟩ fun e hc => absurd hc (Option.not_mem_none e)
  have htable : masterNodeId.toNat < node.txManager.maxTxNodes := by
    rw [hready.table]
    decide
  unfold nodeProcessRx Node.AckWaits
  by_cases hack : node.savedRxAckValid = true
  · rw [if_pos hack, forall_prop_of_true hack,
      ← completes_rxAck (hready.proper.start _) (hready.proper.stop _) htable]
    constructor
    · rintro ⟨node', h, hnode⟩
      obtain ⟨⟨k, m⟩, hm, h⟩ := bind_eq_ok.mp h
      exact ⟨⟨_, hm⟩, (hframe m).mp ⟨node', h, hnode⟩⟩
    · rintro ⟨⟨⟨k, m⟩, hm⟩, h⟩
      obtain ⟨node', hnode', hnode⟩ := (hframe m).mpr h
      exact ⟨node', bind_eq_ok.mpr ⟨(k, m), hm, hnode'⟩, hnode⟩
  · rw [if_neg hack]
    refine (hframe node.txManager).trans ?_
    exact ⟨fun h => ⟨fun hc => absurd hc hack, h⟩, fun h => h.2⟩

end Long
/-- The types of the frames that a master sends. -/
def Packet.fromMaster (p : Packet) : Prop :=
  p.getPacketType = some .masterData ∨ p.getPacketType = some .masterEmpty ∨
    p.getPacketType = some .newNodeResponse ∨
    p.getPacketType = some .masterReset

instance (p : Packet) : Decidable p.fromMaster := by unfold Packet.fromMaster; infer_instance

/-- A frame says nothing new about the schedule and acknowledges nothing. -/
def Node.Repeats (node : Node) (frame : Packet) : Prop :=
  node.ackIn frame = none ∧ ∀ i : Fin maxTxNodesScheduled, frame.nextTxNodeId i = node.nextTxNodeId i

/-- A frame for this node that the long part works through without harm. -/
def Node.TakesFrame (node : Node) (frame : Packet) : Prop :=
  (node.nodeId = unallocatedNodeId → frame.getPacketType = some .newNodeResponse →
    node.sentNewNodeRequest = true →
    frame.Admits node.uniqueId) ∧
  (node.nodeId ≠ unallocatedNodeId → frame.getPacketType = some .masterData → 0 < frame.getPacketDataSize ∧
    (frame.txSeqNum = expectedSeqNum (node.txManager.rxSeqNum masterNodeId) →
      frame.getPacketDataSize ≤ masterPacketDataSize))

/-- What a received frame has to meet. -/
def Node.Withstands (node : Node) (frame : Packet) : Prop :=
  nodeReadsFrame frame false → frame.getPacketType ≠ some .masterReset →
    (∀ a ∈ node.ackIn frame, node.txManager.AckFound false masterNodeId a) ∧
    (frame.dstNodeId = node.nodeId → (findFreeRxPacket node.rxPacketManager).isSome → node.TakesFrame frame) ∧
    (frame.fromMaster ∨ node.Repeats frame)

/-- Only a frame of a master changes the schedule or the saved acknowledgement. -/
def Node.Ignores (node : Node) (frame : Packet) (node' : Node) : Prop :=
  ¬ frame.fromMaster → node'.nextTxNodeId = node.nextTxNodeId ∧ node'.savedRxAckValid = false ∧
    node'.savedRxAck = node.savedRxAck

section Quick

variable {node node' n : Node} {frame : Packet}

theorem completes_nodeQuick (hready : node.Ready) (crcError : Bool) :
    Completes (nodeQuickProcessPrevRx node crcError) := by
  unfold nodeQuickProcessPrevRx
  rw [if_neg (by rw [hready.initialised]; decide)]
  dsimp only
  split
  · exact .ok _
  · split
    · have hopened : node.opened.Ready := hready.congr rfl rfl rfl
      exact hopened.completes_remove
    · split
      · exact .ok _
      · unfold nodeQuickAccept
        split
        · exact .ok _
        · dsimp only
          split
          · refine (Completes.bind_iff_left fun _ _ => .ok _).mpr ?_
            unfold rxPacketCheckAndUpdateSeqNum
            refine (Completes.bind_iff_left fun _ _ => ?_).mpr (completes_checkIndex.mpr ?_)
            · split
              · exact .ok _
              · exact .ok _
            · rw [nodeRecordSchedule_txManager]
              change masterNodeId.toNat < node.txManager.maxTxNodes
              rw [hready.table]
              decide
          · exact .ok _

theorem nodeProcessRx_schedule (h : nodeProcessRx node = .ok node') : node'.nextTxNodeId = node.nextTxNodeId ∧
    node'.savedRxAckValid = node.savedRxAckValid ∧ node'.savedRxAck = node.savedRxAck := by
  obtain ⟨m, -, ⟨-, rfl⟩ | ⟨e, -, -, hresult⟩⟩ := nodeProcessRx_ok h
  · exact ⟨rfl, rfl, rfl⟩
  · cases hresult with
    | freed _ => exact ⟨rfl, rfl, rfl⟩
    | joined _ _ _ _ => exact ⟨rfl, rfl, rfl⟩
    | stored _ _ _ _ _ _ => exact ⟨rfl, rfl, rfl⟩

/-- The fields of a node that has recorded a frame. -/
structure Node.Recorded (node : Node) (frame : Packet) (n : Node) : Prop where
  nextTxNodeId : n.nextTxNodeId = fun i =>
    if h : i < maxTxNodesScheduled then frame.nextTxNodeId ⟨i, h⟩ else node.nextTxNodeId i
  savedRxAckValid : n.savedRxAckValid = (node.ackIn frame).isSome
  savedRxAck : n.savedRxAck = (node.ackIn frame).getD node.savedRxAck
  ackFound : ∀ a, n.txManager.AckFound false masterNodeId a ↔ node.txManager.AckFound false masterNodeId a

theorem Node.Recorded.ackWaits_iff (h : node.Recorded frame n) :
    n.AckWaits ↔ ∀ a ∈ node.ackIn frame, node.txManager.AckFound false masterNodeId a := by
  unfold Node.AckWaits
  rw [h.savedRxAckValid, h.savedRxAck, h.ackFound]
  cases node.ackIn frame with
  | none => exact iff_of_true (fun hc => absurd hc Bool.false_ne_true) fun a hc => absurd hc (Option.not_mem_none a)
  | some a =>
      constructor
      · intro hfound b hb
        cases hb
        exact hfound rfl
      · intro hfound _
        exact hfound a rfl

theorem Node.Recorded.ignores_iff (h : node.Recorded frame n) :
    node.Ignores frame n ↔ frame.fromMaster ∨ node.Repeats frame := by
  unfold Node.Ignores Node.Repeats
  rw [h.savedRxAckValid, h.savedRxAck, h.nextTxNodeId, ← or_iff_not_imp_left]
  refine or_congr_right ?_
  constructor
  · rintro ⟨hnext, hvalid, -⟩
    refine ⟨Option.isSome_eq_false_iff.mp hvalid |> Option.isNone_iff_eq_none.mp, fun i => ?_⟩
    have hi := congrFun hnext i
    rw [dif_pos i.isLt] at hi
    exact hi
  · rintro ⟨hnone, hnext⟩
    rw [hnone]
    refine ⟨?_, rfl, rfl⟩
    funext i
    split
    · rename_i hi
      exact hnext ⟨i, hi⟩
    · rfl

/-- A node that the frame does not change, or that starts anew, has nothing to work through. -/
theorem nodeProcessRx_idle (hready : n.Ready) (hsound : n.Sound)
    (hs : n.rxPacketManager.start < n.rxPacketManager.maxRxPacketEntries)
    (he : n.rxPacketManager.endIndex < n.rxPacketManager.maxRxPacketEntries) (hack : n.savedRxAckValid = false)
    (hvalid : n.validRxPacket = false) : ∃ node', nodeProcessRx n = .ok node' ∧ node'.Sound := by
  have hinvalid : ¬ n.validRxPacket = true := by
    rw [hvalid]
    exact Bool.false_ne_true
  have hpending := Node.pending_of_invalid hvalid
  refine (nodeProcessRx_sound_iff hready hsound hs he (fun hc => absurd hc hinvalid) (fun hc => absurd hc hinvalid)
    ?_).mpr ⟨fun hc => absurd (hack.symm.trans hc) Bool.false_ne_true, ?_⟩
  · intro e hc
    rw [hpending] at hc
    cases hc
  · intro e hc
    rw [hpending] at hc
    cases hc

/-- A frame that is kept, in order or not. -/
theorem kept_sound_iff (hsound : node.Sound)
    (hs : node.rxPacketManager.start < node.rxPacketManager.maxRxPacketEntries)
    (he : node.rxPacketManager.endIndex < node.rxPacketManager.maxRxPacketEntries)
    (hframe : node.packetAt node.nextRxPacketEntry = frame) {free : Nat} {rpm : RxPacketManager} {valid : Bool}
    {m : TxManager} (hreads : nodeReadsFrame frame false) (htype : frame.getPacketType ≠ some .masterReset)
    (hdst : frame.dstNodeId = node.nodeId) (hfind : findFreeRxPacket node.rxPacketManager = some (free, rpm))
    (hn : n = { node.opened with
      nextTxNodeId := fun i => if h : i < maxTxNodesScheduled then frame.nextTxNodeId ⟨i, h⟩
        else node.nextTxNodeId i
      savedRxAckValid := node.opened.savedRxAckValid || (node.opened.ackIn frame).isSome
      savedRxAck := (node.opened.ackIn frame).getD node.savedRxAck
      validRxPacket := true
      rxPacketManager := rpm
      nextRxPacketEntry := free
      validRxSeqNum := valid
      txManager := m })
    (hready : n.Ready)
    (hfound : ∀ a, m.AckFound false masterNodeId a ↔ node.txManager.AckFound false masterNodeId a)
    (hseq : node.nodeId ≠ unallocatedNodeId → frame.getPacketType = some .masterData →
      (valid = true ↔ frame.txSeqNum = expectedSeqNum (node.txManager.rxSeqNum masterNodeId))) :
    (∃ node', nodeProcessRx n = .ok node' ∧ node'.Sound) ∧ node.Ignores frame n ↔ node.Withstands frame := by
  obtain ⟨hroom, rfl⟩ := RxPacketManager.findFreeRxPacket_some hfind
  have hpackets : ∀ i, ((node.rxPacketManager.setInUse free true).rxPacketEntries i).packet = node.packetAt i :=
    RxPacketManager.packet_setInUse free true
  have hrecorded : node.Recorded frame n := by
    rw [hn]
    exact ⟨rfl, Bool.false_or _, rfl, hfound⟩
  have hpending : n.pending = some node.nextRxPacketEntry := by
    rw [hn]
    rfl
  have hpacket : n.packetAt node.nextRxPacketEntry = frame := by
    rw [hn]
    exact (hpackets _).trans hframe
  have hnsound : n.Sound := by
    rw [hn]
    exact hsound.setInUse hsound.nodeId rfl
  have hlong := nodeProcessRx_sound_iff hready hnsound (by rw [hn]; exact hs) (by rw [hn]; exact he)
    (by rw [hn]; exact nofun) (by rw [hn]; exact fun _ => hroom) (by
      rw [hpending]
      intro e he
      cases he
      rw [hpacket, hn]
      exact hdst)
  have htakes : (∀ e ∈ n.pending, n.Takes (n.packetAt e)) ↔ node.TakesFrame frame := by
    rw [hpending]
    constructor
    · intro h
      have h := h node.nextRxPacketEntry rfl
      rw [hpacket, hn] at h
      exact ⟨h.1, fun hid hdata => ⟨(h.2 hid hdata).1, fun hexpected =>
        (h.2 hid hdata).2 ((hseq hid hdata).mpr hexpected)⟩⟩
    · intro h e he
      cases he
      rw [hpacket, hn]
      exact ⟨h.1, fun hid hdata =>
        ⟨(h.2 hid hdata).1, fun hvalid => (h.2 hid hdata).2 ((hseq hid hdata).mp hvalid)⟩⟩
  rw [hlong, htakes, hrecorded.ackWaits_iff, hrecorded.ignores_iff]
  constructor
  · rintro ⟨⟨hack, htakes⟩, hmaster⟩ - -
    exact ⟨hack, fun _ _ => htakes, hmaster⟩
  · intro h
    obtain ⟨hack, htakes, hmaster⟩ := h hreads htype
    exact ⟨⟨hack, htakes hdst (Option.isSome_of_eq_some hfind)⟩, hmaster⟩

/-- A frame that is not for the node, or for which there is no buffer. -/
theorem dropped_sound_iff (hsound : node.Sound)
    (hs : node.rxPacketManager.start < node.rxPacketManager.maxRxPacketEntries)
    (he : node.rxPacketManager.endIndex < node.rxPacketManager.maxRxPacketEntries)
    (hready : (nodeRecordSchedule node.opened frame).Ready) (hreads : nodeReadsFrame frame false)
    (htype : frame.getPacketType ≠ some .masterReset)
    (hnone : frame.dstNodeId = node.nodeId → findFreeRxPacket node.rxPacketManager = none) :
    (∃ node', nodeProcessRx (nodeRecordSchedule node.opened frame) = .ok node' ∧ node'.Sound) ∧
      node.Ignores frame (nodeRecordSchedule node.opened frame) ↔ node.Withstands frame := by
  have hrecorded : node.Recorded frame (nodeRecordSchedule node.opened frame) := by
    rw [nodeRecordSchedule_eq_ackIn]
    exact ⟨rfl, Bool.false_or _, rfl, fun _ => Iff.rfl⟩
  have hrx := nodeRecordSchedule_rxPacketManager node.opened frame
  have hvalid : (nodeRecordSchedule node.opened frame).validRxPacket = false := by
    rw [nodeRecordSchedule_eq_ackIn]
    rfl
  have hinvalid : ¬ (nodeRecordSchedule node.opened frame).validRxPacket = true := by
    rw [hvalid]
    exact Bool.false_ne_true
  have hpending := Node.pending_of_invalid hvalid
  have hsound' : (nodeRecordSchedule node.opened frame).Sound := by
    rw [nodeRecordSchedule_eq_ackIn]
    exact ⟨hsound.nodeId, hsound.queued⟩
  have hlong := nodeProcessRx_sound_iff hready hsound' (by rw [hrx]; exact hs) (by rw [hrx]; exact he)
    (fun hc => absurd hc hinvalid) (fun hc => absurd hc hinvalid) (by rw [hpending]; exact nofun)
  rw [hlong, hpending, hrecorded.ackWaits_iff, hrecorded.ignores_iff]
  constructor
  · rintro ⟨⟨hack, -⟩, hmaster⟩ - -
    refine ⟨hack, fun hdst hfree => ?_, hmaster⟩
    rw [hnone hdst] at hfree
    exact absurd hfree Bool.false_ne_true
  · intro h
    obtain ⟨hack, -, hmaster⟩ := h hreads htype
    exact ⟨⟨hack, nofun⟩, hmaster⟩

/-- The two parts on a frame that has arrived: the long part is sound after the quick one, and the frame
is ignored, exactly when the node withstands it. -/
theorem nodeQuickRx_sound_iff (hready : node.Ready) (hsound : node.Sound)
    (hs : node.rxPacketManager.start < node.rxPacketManager.maxRxPacketEntries)
    (he : node.rxPacketManager.endIndex < node.rxPacketManager.maxRxPacketEntries)
    (hframe : node.packetAt node.nextRxPacketEntry = frame) (hq : nodeQuickProcessPrevRx node false = .ok n) :
    (∃ node', nodeProcessRx n = .ok node' ∧ node'.Sound) ∧ node.Ignores frame n ↔ node.Withstands frame := by
  have hready' := hready.quickRx hq
  have hresult := nodeQuickProcessPrevRx_ok hready.initialised hq
  rw [hframe] at hresult
  cases hresult with
  | unread hunread =>
      refine iff_of_true ⟨?_, fun _ => ⟨rfl, rfl, rfl⟩⟩ fun hc => absurd hc hunread
      exact nodeProcessRx_idle hready' ⟨hsound.nodeId, hsound.queued⟩ hs he rfl rfl
  | reset hreads htype hremove =>
      refine iff_of_true ⟨?_, fun hc => absurd (Or.inr (Or.inr (Or.inr htype))) hc⟩ fun _ hc => absurd htype hc
      rcases nodeRemoveFromNetwork_ok hremove with ⟨-, rfl⟩ | ⟨-, hfresh, -⟩
      · exact nodeProcessRx_idle hready' ⟨hsound.nodeId, hsound.queued⟩ hs he rfl rfl
      · obtain ⟨hstore, hring⟩ := hfresh.rxInv
        refine nodeProcessRx_idle hready' ⟨Or.inl hfresh.nodeId, ?_⟩ hstore.start_lt hstore.end_lt
          hfresh.savedRxAckValid hfresh.validRxPacket
        intro e hc
        unfold RxPacketManager.queued at hc
        rw [hring] at hc
        cases hc
  | dropped hreads htype hnone => exact dropped_sound_iff hsound hs he hready' hreads htype hnone
  | kept hreads htype hdst hfind hseq =>
      rw [nodeRecordSchedule_eq_ackIn] at hready' ⊢
      refine kept_sound_iff hsound hs he hframe hreads htype hdst hfind rfl hready' (fun _ => Iff.rfl) ?_
      intro hid hdata
      obtain ⟨hfalse, hne⟩ := hseq hid hdata
      exact iff_of_false (fun hc => Bool.false_ne_true (hfalse.symm.trans hc)) hne
  | inOrder hreads hdst hfind hid hdata hseq =>
      rw [nodeRecordSchedule_eq_ackIn] at hready' ⊢
      have htype : frame.getPacketType ≠ some .masterReset := by
        rw [hdata]
        decide
      exact kept_sound_iff hsound hs he hframe hreads htype hdst hfind rfl hready' (fun _ => Iff.rfl)
        fun _ _ => iff_of_true rfl hseq

end Quick

/-- The frame that waits is worked through without harm. -/
def Node.WaitsSound (node : Node) : Prop := ∀ e ∈ node.pending, node.Takes (node.packetAt e)

section Runs

variable {node node' n : Node} {frame : Packet}

theorem Node.Fresh.sound (h : node.Fresh) : node.Sound ∧ node.WaitsSound := by
  obtain ⟨-, hring⟩ := h.rxInv
  refine ⟨⟨Or.inl h.nodeId, ?_⟩, ?_⟩
  · intro e hc
    unfold RxPacketManager.queued at hc
    rw [hring] at hc
    cases hc
  · intro e hc
    rw [pending_of_invalid h.validRxPacket] at hc
    cases hc

theorem Node.Sound.same (h : node.Sound) (hs : node.SameReception node') : node'.Sound := by
  refine h.congr (by rw [hs.nodeId]; exact h.nodeId) (by rw [hs.rxPacketManager]) fun i => ?_
  unfold Node.packetAt
  rw [hs.rxPacketManager]

theorem Node.WaitsSound.same (h : node.WaitsSound) (hs : node.SameReception node')
    (hsent : node'.sentNewNodeRequest = node.sentNewNodeRequest) : node'.WaitsSound := by
  unfold Node.WaitsSound Node.Takes Node.pending Node.packetAt at h ⊢
  rw [hs.validRxPacket, hs.prevRxPacketEntry, hs.rxPacketManager, hs.nodeId, hs.uniqueId, hs.validRxSeqNum, hsent]
  exact h

theorem nodeGetTxPacket_sent (node : Node) :
    (nodeGetTxPacket node).1.sentNewNodeRequest = node.sentNewNodeRequest := by
  have hsend : ∀ n : Node, (nodeSendTxPacket n).1.sentNewNodeRequest = n.sentNewNodeRequest := by
    intro n
    unfold nodeSendTxPacket nodeQuickUpdateTxPacket
    dsimp only
    split
    · rfl
    · rename_i r _
      cases r <;> rfl
  unfold nodeGetTxPacket
  split
  · rfl
  · split
    · split
      · exact hsend _
      · rfl
    · exact hsend _

/-- The quick part leaves the queue and the id alone, or starts anew. -/
theorem Node.Sound.quickRx (hsound : node.Sound) (hready : node.Ready) {crcError : Bool}
    (hq : nodeQuickProcessPrevRx node crcError = .ok n) :
    n.Sound ∧ (n.validRxPacket = true → n.prevRxPacketEntry ≠ none ∧ crcError = false) := by
  have hopened : ∀ frame, (nodeRecordSchedule node.opened frame).Sound := by
    intro frame
    rw [nodeRecordSchedule_eq_ackIn]
    exact ⟨hsound.nodeId, hsound.queued⟩
  have hresult := nodeQuickProcessPrevRx_ok hready.initialised hq
  cases hresult with
  | unread _ => exact ⟨⟨hsound.nodeId, hsound.queued⟩, fun hc => absurd hc Bool.false_ne_true⟩
  | reset hreads _ hremove =>
      rcases nodeRemoveFromNetwork_ok hremove with ⟨-, rfl⟩ | ⟨-, hfresh, -⟩
      · exact ⟨⟨hsound.nodeId, hsound.queued⟩, fun hc => absurd hc Bool.false_ne_true⟩
      · exact ⟨hfresh.sound.1, fun hc => absurd (hfresh.validRxPacket.symm.trans hc) Bool.false_ne_true⟩
  | dropped hreads _ _ => exact ⟨hopened _, fun _ =>
      ⟨by rw [nodeRecordSchedule_eq_ackIn]; exact nofun, hreads.1⟩⟩
  | kept hreads _ _ hfind _ =>
      obtain ⟨-, rfl⟩ := RxPacketManager.findFreeRxPacket_some hfind
      rw [nodeRecordSchedule_eq_ackIn]
      exact ⟨hsound.setInUse hsound.nodeId rfl, fun _ => ⟨nofun, hreads.1⟩⟩
  | inOrder hreads _ hfind _ _ _ =>
      obtain ⟨-, rfl⟩ := RxPacketManager.findFreeRxPacket_some hfind
      rw [nodeRecordSchedule_eq_ackIn]
      exact ⟨hsound.setInUse hsound.nodeId rfl, fun _ => ⟨nofun, hreads.1⟩⟩

theorem Node.Sound.processRx (hsound : node.Sound) (hready : node.Ready) (hkeeps : NodeKeeps node)
    (hwaits : node.WaitsSound) (hrx : nodeProcessRx node = .ok node') : node'.Sound := by
  have htable : masterNodeId.toNat < node.txManager.maxTxNodes := by
    rw [hready.table]
    decide
  have hack : node.AckWaits := by
    intro hvalid
    obtain ⟨m, ⟨hc, -⟩ | ⟨k, -, hack⟩, -⟩ := nodeProcessRx_ok hrx
    · exact absurd (hc.symm.trans hvalid) Bool.false_ne_true
    · exact (completes_rxAck (hready.proper.start _) (hready.proper.stop _) htable).mp ⟨_, hack⟩
  have hprev : node.validRxPacket = true → node.prevRxPacketEntry ≠ none := by
    intro hvalid
    obtain ⟨m, -, ⟨hc, -⟩ | ⟨e, -, he, -⟩⟩ := nodeProcessRx_ok hrx
    · exact absurd (hc.symm.trans hvalid) Bool.false_ne_true
    · rw [he]
      exact nofun
  obtain ⟨n, hn, hnsound⟩ := (nodeProcessRx_sound_iff hready hsound hkeeps.store.start_lt hkeeps.store.end_lt hprev
    hkeeps.room hkeeps.dst).mpr ⟨hack, hwaits⟩
  rw [hrx] at hn
  cases hn
  exact hnsound

/-- Before it receives, the node is as sound as afterwards: the hardware does not write into the queue. -/
theorem Node.Sound.receive (hsound : node.Sound) (hnext : node.nextRxPacketEntry ∉ node.rxPacketManager.queued)
    (frame : Packet) : (node.receive frame).Sound where
  nodeId := hsound.nodeId
  queued e he := by
    have hpacket : (node.receive frame).packetAt e = node.packetAt e :=
      (RxPacketManager.Extends.receive hnext frame).packets e he
    rw [hpacket]
    exact hsound.queued e he

/-- The quick part of a slot on a frame that has just arrived, as the long part finds it. -/
theorem nodeQuickRx_waits {crcError : Bool} (hready : node.Ready) (hsound : node.Sound)
    (hstore : RxInv node.rxPacketManager node.nextRxPacketEntry none)
    (hwithstands : crcError = false → node.Withstands frame)
    (hq : nodeQuickProcessPrevRx (node.receive frame) crcError = .ok n) : n.Sound ∧ n.WaitsSound ∧ NodeKeeps n := by
  have hready' : (node.receive frame).Ready := hready.congr rfl rfl rfl
  have hsound' := hsound.receive hstore.next_not_queued frame
  have hstore' : RxInv (node.receive frame).rxPacketManager (node.receive frame).nextRxPacketEntry none :=
    hstore.receive _ _
  obtain ⟨hn, hvalid⟩ := hsound'.quickRx hready' hq
  have hkeeps : NodeKeeps n := by
    rcases nodeQuickRx_takes hready'.initialised hstore' (RxPacketManager.packet_receive _ _) hq with
      ⟨-, hfresh, -⟩ | ⟨-, hkeeps, -⟩
    · exact hfresh.keeps
    · exact hkeeps
  refine ⟨hn, ?_, hkeeps⟩
  by_cases hframe : n.validRxPacket = true
  · obtain ⟨-, rfl⟩ := hvalid hframe
    have hwithstands' : (node.receive frame).Withstands frame := by
      have h := hwithstands rfl
      unfold Node.Withstands at h ⊢
      change _ → _ → _ ∧ (_ → (findFreeRxPacket (node.rxPacketManager.receive _ frame)).isSome = true → _) ∧
        _
      rw [findFreeRxPacket_receive_isSome]
      exact h
    have hlong := ((nodeQuickRx_sound_iff hready' hsound' hstore'.start_lt hstore'.end_lt
      (RxPacketManager.packet_receive _ _) hq).mpr hwithstands').1
    exact ((nodeProcessRx_sound_iff (hready'.quickRx hq) hn hkeeps.store.start_lt hkeeps.store.end_lt
      (fun hc => (hvalid hc).1) hkeeps.room hkeeps.dst).mp hlong).2
  · intro e hc
    rw [Node.pending_of_invalid (Bool.not_eq_true _ ▸ hframe)] at hc
    cases hc

theorem preProcess_sound {crcError : Bool} {last : Option SlotPart} (h : NodeHolds .dual node last)
    (hready : node.Ready) (hsound : node.Sound) (hlast : last ≠ some .pre)
    (hframe : crcError = false → node.Withstands frame) (hs : node.step (.preProcess frame crcError) = .ok node') :
    node'.Sound ∧ node'.WaitsSound := by
  obtain ⟨⟨n', f⟩, hpre, hs⟩ := bind_eq_ok.mp hs
  cases hs
  have hinit : (node.receive frame).initialised = true := h.initialised
  unfold nodeDualChannelPipelinedPreProcess at hpre
  rw [if_neg (by rw [hinit]; decide)] at hpre
  obtain ⟨n, hq, hpre⟩ := bind_eq_ok.mp hpre
  obtain ⟨hn, hwait, -⟩ := nodeQuickRx_waits hready hsound (h.between hlast) hframe hq
  have hupdate : (nodeUpdateSchedule n).Sound := ⟨hn.nodeId, hn.queued⟩
  have hwait' : (nodeUpdateSchedule n).WaitsSound := hwait
  dsimp only at hpre
  split at hpre
  · have hget := nodeGetTxPacket_same (nodeUpdateSchedule n)
    have hsent := nodeGetTxPacket_sent (nodeUpdateSchedule n)
    rw [pure_eq_ok.mp hpre] at hget hsent
    exact ⟨hupdate.same hget, hwait'.same hget hsent⟩
  · cases hpre
    exact ⟨hupdate, hwait'⟩

theorem postProcess_sound {last : Option SlotPart} (h : NodeHolds .dual node last) (hready : node.Ready)
    (hsound : node.Sound) (hwaits : last = some .pre → node.WaitsSound) (hlast : last ≠ some .post)
    (hs : node.step .postProcess = .ok node') : node'.Sound := by
  obtain ⟨hkeeps, -⟩ := h.keeps_at_post hlast
  obtain ⟨n₁, n₂, h₁, h₂, h₃⟩ := nodePostProcess_ok h.initialised hs
  have hready₁ := hready.checkIfTimedOut h₁
  refine Node.Sound.same ?_ (nodeProcessTx_same h₃)
  rcases nodeCheckIfTimedOut_ok h₁ with ⟨-, rfl⟩ | ⟨-, hfresh, -⟩
  · refine hsound.processRx hready hkeeps ?_ h₂
    by_cases hpre : last = some .pre
    · exact hwaits hpre
    · have hnone : last = none := by
        rcases last with - | (- | -)
        · rfl
        · exact absurd rfl hpre
        · exact absurd rfl hlast
      intro e hc
      rw [Node.pending_of_invalid (h.start rfl hnone)] at hc
      cases hc
  · exact hfresh.sound.1.processRx hready₁ hfresh.keeps hfresh.sound.2 h₂

theorem processRx_sound {crcError : Bool} {last : Option SlotPart} (h : NodeHolds .single node last)
    (hready : node.Ready) (hsound : node.Sound) (hframe : crcError = false → node.Withstands frame)
    (hs : node.step (.processRx frame crcError) = .ok node') : node'.Sound := by
  have hlast : last ≠ some .pre := by
    rw [h.single rfl]
    exact nofun
  have hinit : (node.receive frame).initialised = true := h.initialised
  obtain ⟨n, hq, hrx⟩ := nodeNoDelayProcessRx_ok hinit hs
  obtain ⟨hn, hwait, hkeeps⟩ := nodeQuickRx_waits hready hsound (h.between hlast) hframe hq
  have hready' : (node.receive frame).Ready := hready.congr rfl rfl rfl
  exact hn.processRx (hready'.quickRx hq) hkeeps hwait hrx

theorem pop_sound {mode : ChannelMode} {last : Option SlotPart} (h : NodeHolds mode node last)
    (hsound : node.Sound) (hwaits : last = some .pre → node.WaitsSound)
    (hs : nodePopNextDataPacket node = .ok node') :
    node'.Sound ∧ (last = some .pre → node'.WaitsSound) := by
  obtain ⟨rpm, hpop, hs⟩ := bind_eq_ok.mp hs
  cases hs
  obtain ⟨-, -, hpackets, e, hring⟩ := h.store.pop hpop
  have hpacket : ∀ i, ({ node with rxPacketManager := rpm } : Node).packetAt i = node.packetAt i := hpackets
  refine ⟨⟨hsound.nodeId, fun i hi => ?_⟩, fun hlast i hi => ?_⟩
  · rw [hpacket]
    refine hsound.queued i ?_
    unfold RxPacketManager.queued
    rw [hring, List.reduceOption_cons_of_some]
    exact List.mem_cons_of_mem e hi
  · rw [hpacket]
    exact hwaits hlast i hi

theorem sound_step {mode : ChannelMode} {a : NodeAction mode} {last : Option SlotPart} (h : NodeHolds mode node last)
    (hready : node.Ready) (hsound : node.Sound) (hwaits : last = some .pre → node.WaitsSound)
    (halt : Alternates last a.part) (hframe : ∀ frame, a.received = some (frame, false) → node.Withstands frame)
    (hs : node.step a = .ok node') : node'.Sound ∧ (a.part.or last = some .pre → node'.WaitsSound) := by
  have hsame : node.SameReception node' → node'.sentNewNodeRequest = node.sentNewNodeRequest →
      node'.Sound ∧ (last = some .pre → node'.WaitsSound) :=
    fun hs hsent => ⟨hsound.same hs, fun hlast => (hwaits hlast).same hs hsent⟩
  cases a with
  | preProcess frame crcError =>
      obtain ⟨hn, hwait⟩ := preProcess_sound h hready hsound (halt .pre rfl)
        (fun hc => hframe frame (by rw [← hc]; rfl)) hs
      exact ⟨hn, fun _ => hwait⟩
  | postProcess => exact ⟨postProcess_sound h hready hsound hwaits (halt .post rfl) hs, fun hc => (by cases hc)⟩
  | isTxMode =>
      obtain ⟨⟨isTx, n'⟩, htx, hs⟩ := bind_eq_ok.mp hs
      cases hs
      obtain ⟨n, hn, -, rfl⟩ := nodeIsTxMode_ok h.initialised htx
      refine ⟨?_, fun hc => (by rw [h.single rfl] at hc; cases hc)⟩
      rcases nodeCheckIfTimedOut_ok hn with ⟨-, rfl⟩ | ⟨-, hfresh, -⟩
      · exact ⟨hsound.nodeId, hsound.queued⟩
      · exact ⟨hfresh.sound.1.nodeId, hfresh.sound.1.queued⟩
  | processRx frame crcError =>
      refine ⟨processRx_sound h hready hsound (fun hc => hframe frame (by rw [← hc]; rfl)) hs, fun hc => ?_⟩
      rw [h.single rfl] at hc
      cases hc
  | processTx =>
      obtain ⟨⟨n, f⟩, htx, hs⟩ := bind_eq_ok.mp hs
      cases hs
      exact ⟨hsound.same (nodeNoDelayProcessTx_ok h.initialised htx), fun hc =>
        (by rw [h.single rfl] at hc; cases hc)⟩
  | updateTimeUs usIncr =>
      cases hs
      exact hsame (nodeUpdateTimeUs_same node usIncr) rfl
  | allocate =>
      obtain ⟨⟨r, n⟩, halloc, hs⟩ := bind_eq_ok.mp hs
      cases hs
      refine hsame (nodeAllocateTxPacket_same halloc) ?_
      obtain ⟨⟨r', m⟩, -, halloc⟩ := bind_eq_ok.mp halloc
      cases halloc
      rfl
  | write data =>
      cases hs
      exact hsame (nodeWriteAllocatedPacket_same node data) rfl
  | submit numBytes =>
      refine hsame (nodeSubmitAllocatedTxPacket_same hs) ?_
      obtain ⟨_, -, hs⟩ := bind_eq_ok.mp hs
      obtain ⟨_, -, hs⟩ := bind_eq_ok.mp hs
      obtain ⟨m, -, hs⟩ := bind_eq_ok.mp hs
      cases hs
      rfl
  | peek =>
      obtain ⟨r, -, hs⟩ := bind_eq_ok.mp hs
      cases hs
      exact hsame (.refl node) rfl
  | pop => exact pop_sound h hsound hwaits hs
  | reset =>
      obtain ⟨hfresh, -⟩ := nodeReset_ok hs
      exact ⟨hfresh.sound.1, fun _ => hfresh.sound.2⟩

/-- The two parts of a slot alternate, and the node withstands each frame that arrives intact. -/
def NodeWithstands {mode : ChannelMode} (r : Reception Node) (a : NodeAction mode) : Prop :=
  (nodeReceiver mode).guard r a ∧ ∀ frame, a.received = some (frame, false) → r.device.Withstands frame

theorem soundNode_of_reachable {cfg : NodeConfig} {r : Reception Node}
    (h : (nodeReceptions cfg).ReachableWhen NodeWithstands r) :
    NodeHolds cfg.mode r.device r.last ∧ r.device.Ready ∧ r.device.Sound ∧
    (r.last = some .pre → r.device.WaitsSound) := by
  refine System.ReachableWhen.invariant (P := fun r => NodeHolds cfg.mode r.device r.last ∧ r.device.Ready ∧
    r.device.Sound ∧ (r.last = some .pre → r.device.WaitsSound)) h ?_ ?_
  · rintro r ⟨⟨entries, hi⟩, hlast, -, -⟩
    obtain ⟨hfresh, -⟩ := nodeInit_ok hi
    rw [hlast]
    exact ⟨.fresh hfresh fun _ => rfl, hfresh.ready, hfresh.sound.1, fun hc => by cases hc⟩
  · rintro r a r' ⟨hholds, hready, hsound, hwaits⟩ ⟨halt, hframe⟩ hs
    obtain ⟨hs, hlast, -⟩ := Receiver.step_ok hs
    obtain ⟨hholds', -⟩ := hholds.step halt hs
    rw [hlast]
    exact ⟨hholds', hready.step hs, sound_step hholds hready hsound hwaits halt hframe hs⟩

def Node.afterFrame (node : Node) (frame : Packet) : Except Fault Node :=
  nodeQuickProcessPrevRx (node.receive frame) false >>= nodeProcessRx

/-- A node that has withstood every frame so far is sound, and it survives the next one exactly when it
withstands it. -/
theorem node_survives_iff {cfg : NodeConfig} {r : Reception Node}
    (h : (nodeReceptions cfg).ReachableWhen NodeWithstands r) :
    r.device.Sound ∧
    (∀ data, nodePeekNextRxDataPacket r.device = .ok (some data) →
      0 < data.size ∧ data.size ≤ masterPacketDataSize) ∧
    ∀ frame, (∃ node', r.device.afterFrame frame = .ok node' ∧ node'.Sound ∧ r.device.Ignores frame node') ↔
      r.device.Withstands frame := by
  obtain ⟨hholds, hready, hsound, -⟩ := soundNode_of_reachable h
  refine ⟨hsound, fun data hpeek => hsound.peek hholds.store hpeek, fun frame => ?_⟩
  have hready' : (r.device.receive frame).Ready := hready.congr rfl rfl rfl
  have hsound' := hsound.receive hholds.store.next_not_queued frame
  obtain ⟨n, hq⟩ := completes_nodeQuick hready' false
  have hreceive : (r.device.receive frame).Withstands frame ↔ r.device.Withstands frame := by
    unfold Node.Withstands
    change (_ → _ → _ ∧ (_ → (findFreeRxPacket (r.device.rxPacketManager.receive _ frame)).isSome =
      true → _) ∧ _) ↔ _
    rw [findFreeRxPacket_receive_isSome]
    exact Iff.rfl
  rw [← hreceive, ← nodeQuickRx_sound_iff hready' hsound' hholds.store.start_lt hholds.store.end_lt
    (RxPacketManager.packet_receive _ _) hq]
  have hignores : ∀ node', nodeProcessRx n = .ok node' →
      (r.device.Ignores frame node' ↔ (r.device.receive frame).Ignores frame n) := by
    intro node' hrx
    obtain ⟨hnext, hvalid, hack⟩ := nodeProcessRx_schedule hrx
    unfold Node.Ignores
    rw [hnext, hvalid, hack]
    exact Iff.rfl
  constructor
  · rintro ⟨node', hrun, hnode, hkeep⟩
    obtain ⟨n', hq', hrx⟩ := bind_eq_ok.mp hrun
    rw [hq] at hq'
    cases hq'
    exact ⟨⟨node', hrx, hnode⟩, (hignores node' hrx).mp hkeep⟩
  · rintro ⟨⟨node', hrx, hnode⟩, hkeep⟩
    exact ⟨node', bind_eq_ok.mpr ⟨n, hq, hrx⟩, hnode, (hignores node' hrx).mpr hkeep⟩

end Runs

instance (nodeId : TNodeIndex) : Decidable (ValidNodeId nodeId) := by unfold ValidNodeId Station; infer_instance

instance (p : Packet) (uniqueId : UInt64) : Decidable (p.Admits uniqueId) :=
  match h : p.findEntry uniqueId with
  | some i => decidable_of_iff (ValidNodeId (p.entryNodeId i)) (by unfold Packet.Admits; rw [h])
  | none => decidable_of_iff (p.numEntries ≤ maxResponseEntries) (by unfold Packet.Admits; rw [h])

instance (node : Node) (frame : Packet) : Decidable (node.TakesFrame frame) := by
  unfold Node.TakesFrame; infer_instance

/-- The test of `NodeWithstands` on frames of a master that acknowledge nothing. -/
def nodeWithstandsCheck {mode : ChannelMode} (r : Reception Node) (a : NodeAction mode) : Bool :=
  decide (Alternates r.last a.part) &&
    match a.received with
    | some (frame, false) => !decide (nodeReadsFrame frame false) ||
        ((r.device.ackIn frame).isNone && decide frame.fromMaster && decide (r.device.TakesFrame frame))
    | _ => true

theorem nodeWithstands_of_check {mode : ChannelMode} (r : Reception Node) (a : NodeAction mode)
    (h : nodeWithstandsCheck r a = true) : NodeWithstands r a := by
  unfold nodeWithstandsCheck at h
  rw [Bool.and_eq_true, decide_eq_true_eq] at h
  refine ⟨h.1, fun frame hframe => ?_⟩
  rw [hframe] at h
  simp only [Bool.or_eq_true, Bool.and_eq_true, Bool.not_eq_true', decide_eq_true_eq, decide_eq_false_iff_not,
    Option.isNone_iff_eq_none] at h
  intro hreads _
  obtain ⟨⟨hack, hmaster⟩, htakes⟩ := h.2.resolve_left (not_not.mpr hreads)
  refine ⟨fun a ha => ?_, fun _ _ => htakes, Or.inl hmaster⟩
  rw [hack] at ha
  cases ha

def askingSlots : List (NodeAction .dual) := nodeSlot Packet.zero

def joiningSlots : List (NodeAction .dual) := nodeSlot Packet.zero ++ nodeSlot responseFrame

/-- A node that has joined survives its first data frame. -/
theorem node_survives_iff_joined : ∃ r, (nodeReceptions dualNodeConfig).ReachableWhen NodeWithstands r ∧
    r.device.nodeId = 1 ∧ ∃ node', r.device.afterFrame firstMasterFrame = .ok node' ∧ node'.Sound ∧
      r.device.Ignores firstMasterFrame node' := by
  obtain ⟨r, hr, htest⟩ := System.exists_of_checkedRun (S := nodeReceptions dualNodeConfig) (s := .start blankNode)
    (p := fun r => r.device.nodeId == 1 && ((r.device.ackIn firstMasterFrame).isNone &&
      decide (r.device.TakesFrame firstMasterFrame))) joiningSlots
    nodeWithstands_of_check (.init ⟨blankNode_init, rfl, rfl, rfl⟩) (by decide +kernel)
  simp only [Bool.and_eq_true, beq_iff_eq, decide_eq_true_eq, Option.isNone_iff_eq_none] at htest
  obtain ⟨hid, hack, htakes⟩ := htest
  refine ⟨r, hr, hid, ((node_survives_iff hr).2.2 firstMasterFrame).mpr ?_⟩
  intro _ _
  refine ⟨fun a ha => ?_, fun _ _ => htakes, Or.inl (by decide)⟩
  rw [hack] at ha
  cases ha

def sizedFrame (size : UInt16) : Packet := fillHeader Packet.zero true masterNodeId 1 .masterData size 0

def wrongResponse : Packet :=
  txNewNodeResponse
    { networkManagerInit with newNodeUniqueId := fun _ => 7, newNodeId := fun _ => 100, numNewNodes := 1 } Packet.zero

def longResponse : Packet :=
  ({ Packet.zero with dstNodeId := unallocatedNodeId }.setProtocolVersionAndPacketType
    .newNodeResponse).setPacketDataSize
    180

/-- Frames that harm a node: an empty data frame, one that is longer than the data field, a response with an id that
is no station's, a response that is read beyond its end, and a frame of another node. -/
theorem frames_harm_node :
    (∃ r, (nodeReceptions dualNodeConfig).ReachableWhen NodeWithstands r ∧
      r.device.afterFrame (sizedFrame 0) = .error (.assertFailed .nodeProcessRxData) ∧
      ∃ node', r.device.afterFrame (sizedFrame 200) = .ok node' ∧ ¬ node'.Sound) ∧
    (∃ r, (nodeReceptions dualNodeConfig).ReachableWhen NodeWithstands r ∧
      (∃ node', r.device.afterFrame wrongResponse = .ok node' ∧ node'.nodeId = 100) ∧
      r.device.afterFrame longResponse = .error (.outOfBounds .rxNewNodePacketResponse) ∧
      ∃ node', r.device.afterFrame (ackFrame 5 0) = .ok node' ∧ node'.nextTxNodeId 1 = 5 ∧
        r.device.nextTxNodeId 1 ≠ 5) := by
  constructor
  · obtain ⟨r, hr, htest⟩ := System.exists_of_checkedRun (S := nodeReceptions dualNodeConfig)
      (s := .start blankNode)
      (p := fun r => System.faultOf (r.device.afterFrame (sizedFrame 0)) == some (.assertFailed .nodeProcessRxData) &&
        System.holdsAfter (r.device.afterFrame (sizedFrame 200)) fun node =>
          node.rxPacketManager.queued == [1] && (node.packetAt 1).getPacketDataSize == 200) joiningSlots
      nodeWithstands_of_check (.init ⟨blankNode_init, rfl, rfl, rfl⟩) (by decide +kernel)
    rw [Bool.and_eq_true, beq_iff_eq] at htest
    obtain ⟨hempty, hlong⟩ := htest
    obtain ⟨node', hnode', htest⟩ := System.exists_of_holdsAfter hlong
    rw [Bool.and_eq_true, beq_iff_eq, beq_iff_eq] at htest
    refine ⟨r, hr, System.eq_error_of_faultOf hempty, node', hnode', fun hc => ?_⟩
    have hsized := (hc.queued 1 (by rw [htest.1]; exact List.mem_singleton_self 1)).2
    rw [htest.2] at hsized
    exact absurd hsized (by decide)
  · obtain ⟨r, hr, htest⟩ := System.exists_of_checkedRun (S := nodeReceptions dualNodeConfig)
      (s := .start blankNode)
      (p := fun r => System.holdsAfter (r.device.afterFrame wrongResponse) (fun node => node.nodeId == 100) &&
        (System.faultOf (r.device.afterFrame longResponse) == some (.outOfBounds .rxNewNodePacketResponse) &&
          (System.holdsAfter (r.device.afterFrame (ackFrame 5 0)) (fun node => node.nextTxNodeId 1 == 5) &&
            r.device.nextTxNodeId 1 != 5))) askingSlots
      nodeWithstands_of_check (.init ⟨blankNode_init, rfl, rfl, rfl⟩) (by decide +kernel)
    simp only [Bool.and_eq_true, beq_iff_eq, bne_iff_ne] at htest
    obtain ⟨hwrong, hlong, hother, hnext⟩ := htest
    obtain ⟨node₁, hnode₁, hid⟩ := System.exists_of_holdsAfter hwrong
    obtain ⟨node₂, hnode₂, hchanged⟩ := System.exists_of_holdsAfter hother
    exact ⟨r, hr, ⟨node₁, hnode₁, beq_iff_eq.mp hid⟩, System.eq_error_of_faultOf hlong, node₂, hnode₂,
      beq_iff_eq.mp hchanged, hnext⟩

end Microbus
