import Microbus.Bus

/-! The ids that the nodes on a bus hold: a node has none, or that of a station. -/
namespace Microbus

open Transition

/-- The frame that waits is for this node, and a response in it names only stations. -/
def Node.Waits (node : Node) : Prop :=
  ∀ e ∈ node.pending, (node.packetAt e).dstNodeId = node.nodeId ∧ (node.packetAt e).Proposes

section Node

variable {node node' : Node}

theorem Node.waits_of_invalid (h : node.validRxPacket = false) : node.Waits := by
  intro e he
  rw [Node.pending_of_invalid h] at he
  cases he

theorem Node.Waits.congr (h : node.Waits) (hpending : node'.pending = node.pending)
    (hpackets : ∀ i, node'.packetAt i = node.packetAt i) (hid : node'.nodeId = node.nodeId) : node'.Waits := by
  intro e he
  rw [hpackets, hid]
  exact h e (hpending ▸ he)

theorem Node.SameReception.waits (hs : node.SameReception node') (h : node.Waits) : node'.Waits := by
  refine h.congr ?_ (fun i => ?_) hs.nodeId
  · unfold Node.pending
    rw [hs.validRxPacket, hs.prevRxPacketEntry]
  · unfold Node.packetAt
    rw [hs.rxPacketManager]

theorem Node.Fresh.valid (h : node.Fresh) : ValidNodeId node.nodeId := Or.inl h.nodeId

theorem Node.Fresh.waits (h : node.Fresh) : node.Waits := Node.waits_of_invalid h.validRxPacket

theorem nodeQuick_waits (hinit : node.initialised = true) (hvalid : ValidNodeId node.nodeId) {crcError : Bool}
    (hframe : nodeReadsFrame (node.packetAt node.nextRxPacketEntry) crcError →
      (node.packetAt node.nextRxPacketEntry).Proposes)
    (h : nodeQuickProcessPrevRx node crcError = .ok node') : ValidNodeId node'.nodeId ∧ node'.Waits := by
  have hresult := nodeQuickProcessPrevRx_ok hinit h
  generalize hf : node.packetAt node.nextRxPacketEntry = frame at hframe hresult
  -- a frame that is kept waits in the buffer that it came in
  have hkept : ∀ {free : Nat} {rpm : RxPacketManager}, findFreeRxPacket node.rxPacketManager = some (free, rpm) →
      nodeReadsFrame frame crcError → frame.dstNodeId = node.nodeId → ∀ n : Node, n.rxPacketManager = rpm →
      n.pending = some node.nextRxPacketEntry → n.nodeId = node.nodeId → n.Waits := by
    intro free rpm hfind hreads hdst n hrpm hpending hid e he
    rw [hpending] at he
    cases he
    have hpacket : n.packetAt node.nextRxPacketEntry = frame := by
      unfold Node.packetAt
      rw [hrpm, packetAt_findFree hfind, ← hf]
      rfl
    rw [hpacket, hid]
    exact ⟨hdst, hframe hreads⟩
  cases hresult with
  | unread _ => exact ⟨hvalid, Node.waits_of_invalid rfl⟩
  | reset _ _ hremove =>
      rcases nodeRemoveFromNetwork_ok hremove with ⟨-, rfl⟩ | ⟨-, hfresh, -⟩
      · exact ⟨hvalid, Node.waits_of_invalid rfl⟩
      · exact ⟨hfresh.valid, hfresh.waits⟩
  | dropped _ _ _ =>
      rw [nodeRecordSchedule_eq_ackIn]
      exact ⟨hvalid, Node.waits_of_invalid rfl⟩
  | kept hreads _ hdst hfind _ =>
      rw [nodeRecordSchedule_eq_ackIn]
      exact ⟨hvalid, hkept hfind hreads hdst _ rfl rfl rfl⟩
  | inOrder hreads hdst hfind _ _ _ =>
      rw [nodeRecordSchedule_eq_ackIn]
      exact ⟨hvalid, hkept hfind hreads hdst _ rfl rfl rfl⟩

/-- A node takes its id from a response only. -/
theorem nodeProcessRx_valid (hvalid : ValidNodeId node.nodeId) (hwaits : node.Waits)
    (h : nodeProcessRx node = .ok node') :
    ValidNodeId node'.nodeId := by
  obtain ⟨m, -, ⟨-, rfl⟩ | ⟨e, hrx, hprev, hresult⟩⟩ := nodeProcessRx_ok h
  · exact hvalid
  · have hpending : node.pending = some e := by
      unfold Node.pending
      rw [if_pos hrx, hprev]
    obtain ⟨hdst, hproposes⟩ := hwaits e hpending
    cases hresult with
    | freed _ => exact hvalid
    | stored _ _ _ _ _ _ => exact hvalid
    | @joined r hid htype _ hresponse =>
        change ValidNodeId r.nodeId
        have hid : node.nodeId = unallocatedNodeId := hid
        rw [rxNewNodePacketResponse_iff] at hresponse
        split at hresponse
        · rename_i j hfind
          rw [hresponse]
          have hj := List.mem_range.mp (List.mem_of_find?_eq_some hfind)
          exact Or.inr (hproposes (hdst.trans hid) htype j (Nat.lt_of_lt_of_le hj (Nat.min_le_left _ _)))
        · rw [hresponse.2]
          exact hvalid

theorem nodeCheckIfTimedOut_valid (hvalid : ValidNodeId node.nodeId) (h : nodeCheckIfTimedOut node = .ok node') :
    ValidNodeId node'.nodeId := by
  rcases nodeCheckIfTimedOut_ok h with ⟨-, rfl⟩ | ⟨-, hfresh, -⟩
  · exact hvalid
  · exact hfresh.valid

theorem nodeCheckIfTimedOut_waits (hwaits : node.Waits) (h : nodeCheckIfTimedOut node = .ok node') : node'.Waits := by
  rcases nodeCheckIfTimedOut_ok h with ⟨-, rfl⟩ | ⟨-, hfresh, -⟩
  · exact hwaits
  · exact hfresh.waits

/-- The application leaves the id and the frame that waits alone, or starts the node anew. -/
theorem Node.call_same {mode : ChannelMode} {call : NodeCall} (h : node.step (call.action mode) = .ok node') :
    (call = .reset ∧ node'.Fresh) ∨ (node'.nodeId = node.nodeId ∧ node'.currentTxNodeId = node.currentTxNodeId ∧
      node'.nextTxNodeId = node.nextTxNodeId ∧ node'.pending = node.pending ∧
      ∀ i, node'.packetAt i = node.packetAt i) := by
  have hsame : node.SameReception node' → node'.nodeId = node.nodeId ∧
    node'.currentTxNodeId = node.currentTxNodeId ∧
      node'.nextTxNodeId = node.nextTxNodeId ∧ node'.pending = node.pending ∧
      ∀ i, node'.packetAt i = node.packetAt i := by
    intro hs
    refine ⟨hs.nodeId, hs.currentTxNodeId, hs.nextTxNodeId, ?_, fun i => ?_⟩
    · unfold Node.pending
      rw [hs.validRxPacket, hs.prevRxPacketEntry]
    · unfold Node.packetAt
      rw [hs.rxPacketManager]
  cases call with
  | allocate =>
      obtain ⟨⟨r, n⟩, halloc, h⟩ := bind_eq_ok.mp h
      cases h
      exact Or.inr (hsame (nodeAllocateTxPacket_same halloc))
  | write data =>
      cases h
      exact Or.inr (hsame (nodeWriteAllocatedPacket_same node data))
  | submit numBytes => exact Or.inr (hsame (nodeSubmitAllocatedTxPacket_same h))
  | peek =>
      obtain ⟨r, -, h⟩ := bind_eq_ok.mp h
      cases h
      exact Or.inr (hsame (.refl node))
  | pop =>
      obtain ⟨rpm, hpop, h⟩ := bind_eq_ok.mp h
      cases h
      exact Or.inr ⟨rfl, rfl, rfl, rfl, (popNextDataPacket_ok hpop).2⟩
  | reset => exact Or.inl ⟨rfl, (nodeReset_ok h).1⟩

end Node

theorem Hearing.read {hearing : Hearing} {downlink : Option Packet}
    (h : nodeReadsFrame (hearing.received downlink).1 (hearing.received downlink).2) :
    hearing = .intact ∧ ∃ frame, downlink = some frame ∧ hearing.received downlink = (frame, false) := by
  have hzero : ¬ nodeReadsFrame Packet.zero false := by decide
  cases hearing with
  | lost => exact absurd h hzero
  | corrupt noise => exact absurd h.1.symm Bool.false_ne_true
  | intact =>
      cases downlink with
      | none => exact absurd h hzero
      | some frame => exact ⟨rfl, frame, rfl, rfl⟩

theorem Node.packetAt_receive (node : Node) (frame : Packet) :
    (node.receive frame).packetAt (node.receive frame).nextRxPacketEntry = frame :=
  RxPacketManager.packet_receive _ _

section Bus

variable {n : Nat} {cfg : BusConfig n} {bus bus' : Bus n}

/-- The nodes have valid ids, and what is under way to them names only stations. -/
structure Bus.ValidIds (mode : ChannelMode) (bus : Bus n) : Prop where
  nodeId : ∀ i, ValidNodeId (bus.node i).nodeId
  waits : mode = .dual → ∀ i, (bus.node i).Waits
  downlink : mode = .dual → ∀ frame ∈ bus.downlink, frame.Proposes

theorem Node.quickRx_valid {node node' : Node} (hinit : node.initialised = true) (hvalid : ValidNodeId node.nodeId)
    {downlink : Option Packet} (hdown : ∀ frame ∈ downlink, frame.Proposes) {hearing : Hearing}
    (h : nodeQuickProcessPrevRx (node.receive (hearing.received downlink).1)
      (hearing.received downlink).2 = .ok node') :
    ValidNodeId node'.nodeId ∧ node'.Waits := by
  refine nodeQuick_waits (show (node.receive (hearing.received downlink).1).initialised = true from hinit) hvalid
    (fun hreads => ?_) h
  rw [node.packetAt_receive] at hreads ⊢
  obtain ⟨-, frame, rfl, hreceived⟩ := Hearing.read hreads
  rw [hreceived]
  exact hdown frame rfl

theorem Node.runSingleChannel_valid {node node' : Node} (hready : node.Ready) (hvalid : ValidNodeId node.nodeId)
    {downlink frame : Option Packet} (hdown : ∀ frame ∈ downlink, frame.Proposes) {usIncr : UInt32}
    {hearing : Hearing}
    (h : node.runSingleChannel usIncr downlink hearing = .ok (node', frame)) : ValidNodeId node'.nodeId := by
  have hready' : (nodeUpdateTimeUs node usIncr).Ready := hready.congr rfl rfl rfl
  obtain ⟨isTx, m, hmode, hrest⟩ := Node.runSingleChannel_ok h
  obtain ⟨m', hcheck, -, rfl⟩ := nodeIsTxMode_ok hready'.initialised hmode
  have hm : ValidNodeId m'.nodeId := nodeCheckIfTimedOut_valid
    (show ValidNodeId (nodeUpdateTimeUs node usIncr).nodeId from hvalid) hcheck
  have hinit := (hready'.checkIfTimedOut hcheck).initialised
  rcases hrest with ⟨-, htx⟩ | ⟨-, hrx, -⟩
  · rw [(nodeNoDelayProcessTx_ok (show (nodeUpdateSchedule m').initialised = true from hinit) htx).nodeId]
    exact hm
  · obtain ⟨q, hquick, hrx⟩ := nodeNoDelayProcessRx_ok
      (show ((nodeUpdateSchedule m').receive (hearing.received downlink).1).initialised = true from hinit) hrx
    obtain ⟨hq, hwaits⟩ := Node.quickRx_valid
      (show (nodeUpdateSchedule m').initialised = true from hinit) hm hdown hquick
    exact nodeProcessRx_valid hq hwaits hrx

theorem Node.runDualChannel_valid {node node' : Node} (hready : node.Ready) (hvalid : ValidNodeId node.nodeId)
    (hwaits : node.Waits) {downlink frame : Option Packet} (hdown : ∀ frame ∈ downlink, frame.Proposes)
    {usIncr : UInt32} {hearing : Hearing} (h : node.runDualChannel usIncr downlink hearing = .ok (node', frame)) :
    ValidNodeId node'.nodeId ∧ node'.Waits := by
  have hready' : (nodeUpdateTimeUs node usIncr).Ready := hready.congr rfl rfl rfl
  obtain ⟨m, hpost, hpre⟩ := Node.runDualChannel_ok h
  obtain ⟨m₁, m₂, hcheck, hrx, htx⟩ := nodePostProcess_ok hready'.initialised hpost
  have hm : ValidNodeId m.nodeId := by
    rw [(nodeProcessTx_same htx).nodeId]
    have hvalid' : ValidNodeId (nodeUpdateTimeUs node usIncr).nodeId := hvalid
    have hwaits' : (nodeUpdateTimeUs node usIncr).Waits := hwaits.congr rfl (fun _ => rfl) rfl
    exact nodeProcessRx_valid (nodeCheckIfTimedOut_valid hvalid' hcheck) (nodeCheckIfTimedOut_waits hwaits' hcheck) hrx
  have hinit := (((hready'.checkIfTimedOut hcheck).processRx hrx).processTx htx).initialised
  obtain ⟨q, hquick, hsent, -⟩ := nodePreProcess_ok
    (show (m.receive (hearing.received downlink).1).initialised = true from hinit) hpre
  obtain ⟨hq, hwaits'⟩ := Node.quickRx_valid hinit hm hdown hquick
  refine ⟨?_, hsent.waits (hwaits'.congr rfl (fun _ => rfl) rfl)⟩
  rw [hsent.nodeId]
  exact hq

/-- The frame that a master sends in a slot names only stations. -/
theorem BusConfig.downlink_proposes (hmaster : cfg.master.Reaches bus.master) {input : SlotInput n}
    (hs : bus.step cfg.master.mode (.slot input) = .ok bus') : ∀ frame ∈ bus'.downlink, frame.Proposes := by
  obtain ⟨s, hreach, htime⟩ := hmaster.updateTimeUs input.masterUs
  have hassigned := assigned_of_reachable hreach
  have htable := (numbered_of_reachable hreach).table
  rw [htime] at hassigned htable
  have hfill : ∀ {m : TxManager} {num : Nat} {next : Nat → TNodeIndex} {stray : TNodeIndex → UInt8} {p : Packet}
      {downlink : Option Packet}, p.Proposes → downlink = some (fillSchedule m num next stray p) →
      ∀ frame ∈ downlink, frame.Proposes := by
    rintro m num next stray p _ hp rfl frame hframe
    cases hframe
    exact (fillSchedule_sameMessage m num next stray p).proposes hp
  cases hmode : cfg.master.mode with
  | single =>
      rw [hmode] at hs
      by_cases hslot : bus.master.currentTxNodeId = masterNodeId
      · obtain ⟨k, master, downlink, slots, htx, -, rfl⟩ := Bus.runSingleChannel_tx hslot hs
        obtain ⟨m₁, m₂, p, -, -, -, hp, hdown⟩ := processTx_frame htx
        exact hfill (hp.proposes hassigned htable) hdown
      · obtain ⟨k, master, slots, -, -, rfl⟩ := Bus.runSingleChannel_rx hslot hs
        exact fun frame hframe => absurd hframe (Option.not_mem_none frame)
  | dual =>
      rw [hmode] at hs
      obtain ⟨k, m, master, downlink, slots, hpost, hpre, -, rfl⟩ := Bus.runDualChannel_ok hs
      obtain ⟨k₁, k₂, m₁, m₂, m₃, m₄, p, hrx, -, -, -, -, -, hp, hdown⟩ := dualSlot_frame hpost hpre
      refine hfill (hp.proposes (keptByNetwork_assigned.rx hassigned hrx) ?_) hdown
      obtain ⟨heq | ⟨d, a, j, hack⟩, -, -⟩ := masterRx_part hrx
      · rw [heq]
        exact htable
      · rw [(rxAckSeqNum_packets hack).maxTxNodes]
        exact htable

theorem validIds_of_reachable (h : (busSystem cfg).Reachable bus) : bus.ValidIds cfg.master.mode := by
  have hdevices := devices_of_reachable h
  revert hdevices
  induction h with
  | init hinit =>
      rintro -
      obtain ⟨-, hnodes, hdown, -⟩ := hinit
      have hfresh : ∀ i, (Bus.node _ i).Fresh := fun i => by
        obtain ⟨entries, hnode⟩ := hnodes i
        exact (nodeInit_ok hnode).1
      refine ⟨fun i => (hfresh i).valid, fun _ i => (hfresh i).waits, fun _ frame hframe => ?_⟩
      rw [hdown] at hframe
      cases hframe
  | @step bus a bus' hreach _ hs ih =>
      rintro -
      have hdevices := devices_of_reachable hreach
      have h := ih hdevices
      have hready := fun i => ready_of_reachable (hdevices.2 i)
      cases a with
      | slot input =>
          have hdown := BusConfig.downlink_proposes hdevices.1 hs
          cases hmode : cfg.master.mode with
          | single =>
              have hs : bus.step .single (.slot input) = .ok bus' := hmode ▸ hs
              refine ⟨fun i => ?_, fun hc => (by cases hc), fun hc => (by cases hc)⟩
              by_cases hslot : bus.master.currentTxNodeId = masterNodeId
              · obtain ⟨_, _, _, slots, -, hslots, rfl⟩ := Bus.runSingleChannel_tx hslot hs
                exact Node.runSingleChannel_valid (hready i) (h.nodeId i) hdown (hslots i)
              · obtain ⟨_, _, slots, hslots, -, rfl⟩ := Bus.runSingleChannel_rx hslot hs
                exact Node.runSingleChannel_valid (hready i) (h.nodeId i) hdown (hslots i)
          | dual =>
              have hs : bus.step .dual (.slot input) = .ok bus' := hmode ▸ hs
              obtain ⟨_, _, _, _, slots, -, -, hslots, rfl⟩ := Bus.runDualChannel_ok hs
              have hnode := fun i =>
                Node.runDualChannel_valid (hready i) (h.nodeId i) (h.waits hmode i) (h.downlink hmode) (hslots i)
              exact ⟨fun i => (hnode i).1, fun _ i => (hnode i).2, fun _ => hdown⟩
      | master call =>
          obtain ⟨master, -, hs⟩ := bind_eq_ok.mp hs
          cases hs
          exact ⟨h.nodeId, h.waits, h.downlink⟩
      | node i call =>
          obtain ⟨node, hcall, hs⟩ := bind_eq_ok.mp hs
          cases hs
          have hnode : ValidNodeId node.nodeId ∧ ((bus.node i).Waits → node.Waits) := by
            rcases Node.call_same hcall with ⟨-, hfresh⟩ | ⟨hid, -, -, hpending, hpackets⟩
            · exact ⟨hfresh.valid, fun _ => hfresh.waits⟩
            · refine ⟨?_, fun hwaits => hwaits.congr hpending hpackets hid⟩
              rw [hid]
              exact h.nodeId i
          have hupdate : ∀ {P : Node → Prop}, (∀ j, P (bus.node j)) → P node →
              ∀ j, P (Function.update bus.node i node j) := by
            intro P hP hnode j
            by_cases hj : j = i
            · subst hj
              rwa [Function.update_self]
            · rw [Function.update_of_ne hj]
              exact hP j
          exact ⟨hupdate (P := fun n => ValidNodeId n.nodeId) h.nodeId hnode.1,
            fun hmode => hupdate (P := Node.Waits) (h.waits hmode) (hnode.2 (h.waits hmode i)), h.downlink⟩

end Bus

end Microbus
