import Microbus.LostFrames
import Microbus.Membership

/-! Who holds which id: no two nodes live with the same one, as long as every node gives up its id before the master
does. -/
namespace Microbus

open Transition

def Node.Holds (node : Node) (d : TNodeIndex) : Prop :=
  node.nodeId = d ∧ d ≠ unallocatedNodeId ∧ 0 < node.timeToLive

instance (node : Node) (d : TNodeIndex) : Decidable (node.Holds d) := by
  unfold Node.Holds
  infer_instance

/-- The id that a node keeps when its timer advances. -/
def Node.kept (node : Node) (usIncr : UInt32) : Option TNodeIndex :=
  if node.nodeId ≠ unallocatedNodeId ∧ 0 < nodeNwUpdateTimeUs node.timeToLive usIncr then some node.nodeId else none

/-- The id in the response that waits, if the node is going to take it. -/
def Node.offered (node : Node) : Option TNodeIndex :=
  if node.nodeId = unallocatedNodeId ∧ node.sentNewNodeRequest then
    node.pending.bind fun e =>
      if (node.packetAt e).getPacketType = some .newNodeResponse then
        ((node.packetAt e).findEntry node.uniqueId).map (node.packetAt e).entryNodeId
      else none
  else none

theorem Node.nodeId_of_kept {node : Node} {usIncr : UInt32} {d : TNodeIndex} (h : node.kept usIncr = some d) :
    node.nodeId = d := by
  unfold Node.kept at h
  split at h
  · exact Option.some.inj h
  · cases h

/-- The moments of a node in a slot of the dual channel. -/
inductive Node.At (node : Node) (usIncr : UInt32) (downlink : Option Packet) (hearing : Hearing) : Node → Prop
  | start : node.At usIncr downlink hearing node
  | ticked : node.At usIncr downlink hearing (nodeUpdateTimeUs node usIncr)
  | postProcess {m} : nodeDualChannelPipelinedPostProcess (nodeUpdateTimeUs node usIncr) = .ok m →
      node.At usIncr downlink hearing m
  | preProcess {m frame} : node.runDualChannel usIncr downlink hearing = .ok (m, frame) →
      node.At usIncr downlink hearing m

section Node

variable {node node' : Node} {d : TNodeIndex}

theorem nodeProcessTx_timeToLive (h : nodeProcessTx node = .ok node') : node'.timeToLive = node.timeToLive := by
  unfold nodeProcessTx at h
  split at h
  · cases h
    rfl
  · split at h
    · obtain ⟨⟨r, m⟩, -, h⟩ := bind_eq_ok.mp h
      cases r with
      | none =>
          cases h
          rfl
      | some i =>
          cases h
          rfl
    · cases h
      unfold nodeProcessTxUnallocated
      split <;> rfl

/-- A node that has an id after the long part of reception kept it, or was offered it. -/
theorem nodeProcessRx_holds (hlive : node.nodeId ≠ unallocatedNodeId → 0 < node.timeToLive)
    (h : nodeProcessRx node = .ok node') :
    node'.uniqueId = node.uniqueId ∧ (node'.nodeId ≠ unallocatedNodeId → 0 < node'.timeToLive ∧
      (node'.nodeId = node.nodeId ∨ node.offered = some node'.nodeId)) := by
  obtain ⟨m, -, ⟨-, rfl⟩ | ⟨e, hrx, hprev, hresult⟩⟩ := nodeProcessRx_ok h
  · exact ⟨rfl, fun hid => ⟨hlive hid, Or.inl rfl⟩⟩
  · cases hresult with
    | freed _ => exact ⟨rfl, fun hid => ⟨hlive hid, Or.inl rfl⟩⟩
    | stored _ _ _ _ _ _ => exact ⟨rfl, fun hid => ⟨hlive hid, Or.inl rfl⟩⟩
    | @joined r hid htype hasked hresponse =>
        refine ⟨rfl, fun hjoined => ?_⟩
        change r.nodeId ≠ unallocatedNodeId at hjoined
        change 0 < r.timeToLive ∧ (r.nodeId = node.nodeId ∨ node.offered = some r.nodeId)
        have hpending : node.pending = some e := by
          unfold Node.pending
          rw [if_pos hrx, hprev]
        rw [rxNewNodePacketResponse_iff] at hresponse
        have hfound : (node.packetAt e).findEntry node.uniqueId = none ∨
            ∃ j, (node.packetAt e).findEntry node.uniqueId = some j := by
          cases (node.packetAt e).findEntry node.uniqueId with
          | none => exact Or.inl rfl
          | some j => exact Or.inr ⟨j, rfl⟩
        rcases hfound with hnone | ⟨j, hj⟩
        · rw [show ({ node with txManager := m } : Node).packetAt e = node.packetAt e from rfl, hnone] at hresponse
          exact absurd (congrArg NodeMembership.nodeId hresponse.2) (fun hc => hjoined (hc.trans hid))
        · rw [show ({ node with txManager := m } : Node).packetAt e = node.packetAt e from rfl, hj] at hresponse
          rw [hresponse]
          refine ⟨show (0 : Int) < nodeTimeoutUs by decide, Or.inr ?_⟩
          have htype : (node.packetAt e).getPacketType = some .newNodeResponse := htype
          rw [Node.offered, if_pos ⟨hid, hasked⟩, hpending, Option.bind_some, if_pos htype, hj]
          rfl

theorem nodePostProcess_holds (hinit : node.initialised = true) {usIncr : UInt32}
    (h : nodeDualChannelPipelinedPostProcess (nodeUpdateTimeUs node usIncr) = .ok node') :
    node'.uniqueId = node.uniqueId ∧ (node'.nodeId ≠ unallocatedNodeId → 0 < node'.timeToLive ∧
      (node.kept usIncr = some node'.nodeId ∨ node.offered = some node'.nodeId)) := by
  obtain ⟨m₁, m₂, hcheck, hrx, htx⟩ :=
    nodePostProcess_ok (show (nodeUpdateTimeUs node usIncr).initialised = true from hinit) h
  have hsame := nodeProcessTx_same htx
  rw [hsame.uniqueId, hsame.nodeId, nodeProcessTx_timeToLive htx]
  rcases nodeCheckIfTimedOut_ok hcheck with ⟨hkeeps, rfl⟩ | ⟨-, hfresh, huid⟩
  · have hlive : node.nodeId ≠ unallocatedNodeId → 0 < nodeNwUpdateTimeUs node.timeToLive usIncr := by
      intro hid
      refine Int.not_le.mp fun hdead => hkeeps ⟨hid, ?_⟩
      exact decide_eq_true hdead
    obtain ⟨huid, hholds⟩ := nodeProcessRx_holds
      (show _ → 0 < (nodeUpdateTimeUs node usIncr).timeToLive from hlive) hrx
    refine ⟨huid, fun hid => ⟨(hholds hid).1, (hholds hid).2.imp (fun heq => ?_) id⟩⟩
    have heq : m₂.nodeId = node.nodeId := heq
    rw [heq] at hid ⊢
    exact if_pos ⟨hid, hlive hid⟩
  · -- a node that timed out has nothing waiting
    obtain ⟨huid', hholds⟩ := nodeProcessRx_holds (fun hid => absurd hfresh.nodeId hid) hrx
    refine ⟨huid'.trans huid, fun hid => ?_⟩
    rcases (hholds hid).2 with heq | hoffered
    · exact absurd (heq.trans hfresh.nodeId) hid
    · rw [Node.offered, if_neg (fun hc => Bool.false_ne_true (hfresh.sentNewNodeRequest.symm.trans hc.2))] at hoffered
      cases hoffered

/-- The time to live of a node grows only when it sends. -/
theorem nodeGetTxPacket_live (node : Node) :
    (nodeGetTxPacket node).1.timeToLive = node.timeToLive ∨ (nodeGetTxPacket node).1.timeToLive = nodeTimeoutUs := by
  unfold nodeGetTxPacket
  split
  · exact Or.inl rfl
  · split
    · split
      · exact Or.inr rfl
      · exact Or.inl rfl
    · exact Or.inr rfl

theorem nodeQuickRx_holds (hinit : node.initialised = true) {crcError : Bool}
    (h : nodeQuickProcessPrevRx node crcError = .ok node') : node'.uniqueId = node.uniqueId ∧
      (node'.nodeId = unallocatedNodeId ∨ (node'.nodeId = node.nodeId ∧ node'.timeToLive = node.timeToLive)) := by
  have hresult := nodeQuickProcessPrevRx_ok hinit h
  cases hresult with
  | unread _ => exact ⟨rfl, Or.inr ⟨rfl, rfl⟩⟩
  | reset _ _ hremove =>
      rcases nodeRemoveFromNetwork_ok hremove with ⟨-, rfl⟩ | ⟨-, hfresh, huid⟩
      · exact ⟨rfl, Or.inr ⟨rfl, rfl⟩⟩
      · exact ⟨huid, Or.inl hfresh.nodeId⟩
  | dropped _ _ _ =>
      rw [nodeRecordSchedule_eq_ackIn]
      exact ⟨rfl, Or.inr ⟨rfl, rfl⟩⟩
  | kept _ _ _ _ _ =>
      rw [nodeRecordSchedule_eq_ackIn]
      exact ⟨rfl, Or.inr ⟨rfl, rfl⟩⟩
  | inOrder _ _ _ _ _ _ =>
      rw [nodeRecordSchedule_eq_ackIn]
      exact ⟨rfl, Or.inr ⟨rfl, rfl⟩⟩

theorem nodePreProcess_holds (hinit : node.initialised = true) {crcError : Bool} {frame : Option Packet}
    (h : nodeDualChannelPipelinedPreProcess node crcError = .ok (node', frame)) : node'.uniqueId = node.uniqueId ∧
      (node'.nodeId ≠ unallocatedNodeId → node'.nodeId = node.nodeId ∧
        (0 < node.timeToLive → 0 < node'.timeToLive)) := by
  unfold nodeDualChannelPipelinedPreProcess at h
  rw [if_neg (by rw [hinit]; decide)] at h
  obtain ⟨n, hquick, h⟩ := bind_eq_ok.mp h
  obtain ⟨huid, hid⟩ := nodeQuickRx_holds hinit hquick
  have hsent : (nodeUpdateSchedule n).SameReception node' ∧
    (node'.timeToLive = n.timeToLive ∨ node'.timeToLive = nodeTimeoutUs) := by
    dsimp only at h
    split at h
    · have hsame := nodeGetTxPacket_same (nodeUpdateSchedule n)
      have hlive := nodeGetTxPacket_live (nodeUpdateSchedule n)
      rw [pure_eq_ok.mp h] at hsame hlive
      exact ⟨hsame, hlive⟩
    · cases h
      exact ⟨.refl _, Or.inl rfl⟩
  have hnodeId : node'.nodeId = n.nodeId := hsent.1.nodeId
  refine ⟨hsent.1.uniqueId.trans huid, fun hjoined => ?_⟩
  rw [hnodeId] at hjoined ⊢
  obtain ⟨hsameId, httl⟩ := hid.resolve_left hjoined
  refine ⟨hsameId, fun hpos => ?_⟩
  rcases hsent.2 with heq | heq
  · rw [heq, httl]
    exact hpos
  · rw [heq]
    decide

theorem Node.runDualChannel_holds (hready : node.Ready) {usIncr : UInt32} {downlink frame : Option Packet}
    {hearing : Hearing} (h : node.runDualChannel usIncr downlink hearing = .ok (node', frame)) :
    node'.uniqueId = node.uniqueId ∧ (node'.nodeId ≠ unallocatedNodeId → 0 < node'.timeToLive ∧
      (node.kept usIncr = some node'.nodeId ∨ node.offered = some node'.nodeId)) := by
  have hticked : (nodeUpdateTimeUs node usIncr).Ready := hready.congr rfl rfl rfl
  obtain ⟨m, hpost, hpre⟩ := Node.runDualChannel_ok h
  have hm := nodePostProcess_holds hready.initialised hpost
  obtain ⟨m₁, m₂, hcheck, hrx, htx⟩ := nodePostProcess_ok hticked.initialised hpost
  have hinit := (((hticked.checkIfTimedOut hcheck).processRx hrx).processTx htx).initialised
  obtain ⟨huid, hholds⟩ := nodePreProcess_holds
    (show (m.receive (hearing.received downlink).1).initialised = true from hinit) hpre
  refine ⟨huid.trans hm.1, fun hid => ?_⟩
  obtain ⟨heq, hlive⟩ := hholds hid
  rw [heq] at hid ⊢
  obtain ⟨hpos, hclaims⟩ := hm.2 hid
  exact ⟨hlive hpos, hclaims⟩

/-- Whoever holds an id at some moment of a slot had it before, or was offered it. -/
theorem Node.At.holds {m : Node} (hready : node.Ready) {usIncr : UInt32} {downlink : Option Packet} {hearing : Hearing}
    (hat : node.At usIncr downlink hearing m) (h : m.Holds d) : node.nodeId = d ∨ node.offered = some d := by
  obtain ⟨rfl, hjoined, -⟩ := h
  cases hat with
  | start => exact Or.inl rfl
  | ticked => exact Or.inl rfl
  | postProcess hpost => exact ((nodePostProcess_holds hready.initialised hpost).2 hjoined).2.imp Node.nodeId_of_kept id
  | preProcess hrun => exact ((Node.runDualChannel_holds hready hrun).2 hjoined).2.imp Node.nodeId_of_kept id

end Node

theorem NetworkManager.Answered.newNodes_subset {nw nw' : NetworkManager} {d : TNodeIndex} (h : nw.Answered nw' d) :
    nw'.newNodes ⊆ nw.newNodes := by
  rcases h with rfl | ⟨found, hr⟩
  · exact List.Subset.refl _
  · rw [networkManagerRemoveNewNodeRequest_newNodes hr]
    exact List.eraseP_subset

/-- The ids that were taken are taken, and a request in the table was there before or was given an id that was free. -/
structure AsksSince (start : Master) (nw : NetworkManager) (ttl : TimeToLive) : Prop where
  taken : ∀ k, Station k → start.masterNodeTimeToLive k ≠ 0 → ttl k ≠ 0
  asked : ∀ e ∈ nw.newNodes, e ∈ start.nwManager.newNodes ∨ start.masterNodeTimeToLive e.2 = 0

namespace AsksSince

variable {start : Master} {nw nw' : NetworkManager} {ttl ttl' : TimeToLive} {d : TNodeIndex}

theorem congr (h : AsksSince start nw ttl) (hnew : nw'.newNodes ⊆ nw.newNodes)
    (httl : ∀ k, Station k → (ttl' k = 0 ↔ ttl k = 0)) : AsksSince start nw' ttl' where
  taken k hk hstart hzero := h.taken k hk hstart ((httl k hk).mp hzero)
  asked e he := h.asked e (hnew he)

theorem answered (h : AsksSince start nw ttl) (ha : nw.Answered nw' d) (hheard : Heard ttl ttl' d) :
    AsksSince start nw' ttl' :=
  h.congr ha.newNodes_subset fun k _ => CleanInv.heard_zero_iff hheard k

theorem register (h : AsksSince start nw ttl) {uniqueId : UInt64}
    (hr : networkManagerRegisterNewNode nw ttl uniqueId = .ok (nw', ttl')) : AsksSince start nw' ttl' := by
  rcases networkManagerRegisterNewNode_ok hr with ⟨rfl, rfl⟩ | ⟨active, -, -, hid, -, rfl, rfl⟩
  · exact h
  · obtain ⟨hfirst, hlast, hfree⟩ := getNextFreeNodeId_free hid
    generalize getNextFreeNodeId ttl = d at *
    have hfull : masterMaxTimeToLive ≠ 0 := by decide
    constructor
    · intro k hk hstart
      by_cases hnew : k = d
      · rw [hnew, Function.update_self]
        exact hfull
      · rw [Function.update_of_ne hnew]
        exact h.taken k hk hstart
    · intro e he
      rw [newNodes_append] at he
      rcases List.mem_append.mp he with he | he
      · exact h.asked e he
      · obtain rfl := List.mem_singleton.mp he
        exact Or.inr (Classical.not_not.mp fun hc => h.taken d ⟨hfirst, hlast⟩ hc hfree)

end AsksSince

section Master

variable {master master' : Master} {d : TNodeIndex}

theorem keptBetweenTicks_asksSince (start : Master) :
    KeptBetweenTicks fun master => AsksSince start master.nwManager master.masterNodeTimeToLive where
  same h hs := by
    rw [hs.nwManager, hs.masterNodeTimeToLive]
    exact h
  updateSchedule h hs := by
    obtain ⟨_, _, _, _, -, -, rfl⟩ := masterUpdateSchedule_ok hs
    exact h.congr (List.Subset.refl _) fun _ _ => Iff.rfl
  quickRx h hq := by
    obtain ⟨_, _, _, _, rfl, hanswered, hheard, -⟩ := masterQuickRx_ok hq
    exact h.answered hanswered hheard
  rx h hr := by
    rcases masterRx_ok hr with ⟨-, rfl⟩ | ⟨_, _, _, _, _, nw, ttl, -, -, rfl, hresult⟩
    · exact h
    · cases hresult with
      | ignored _ => exact h
      | acked _ _ => exact h
      | stored _ _ _ _ _ => exact h
      | registered _ hrequest =>
          obtain ⟨_, -, hrequest⟩ := bind_eq_ok.mp hrequest
          obtain ⟨uniqueId, -, hregister⟩ := bind_eq_ok.mp hrequest
          exact h.register hregister
  connected h := h.congr (List.Subset.refl _) fun _ hk => CleanInv.connected_zero_iff _ hk

/-- The timer marks `d` as one to be removed. -/
def Master.Marks (master : Master) (usIncr : UInt32) (d : TNodeIndex) : Prop :=
  (masterUpdateTimeUs master usIncr).masterNodeTimeToLive d = removeNodeTTL

instance (master : Master) (usIncr : UInt32) (d : TNodeIndex) : Decidable (master.Marks usIncr d) := by
  unfold Master.Marks
  infer_instance

/-- In a slot an id stays taken unless it is marked, and new requests are given free ids. -/
theorem dualSlot_asksSince {usIncr : UInt32} {received : Packet} {crcError : Bool}
    {stray : TNodeIndex → UInt8} {k : Nat} {m : Master} {frame : Option Packet}
    (hpost : masterDualChannelPipelinedPostProcess (masterUpdateTimeUs master usIncr) = .ok (k, m))
    (hpre : masterDualChannelPipelinedPreProcess (m.receive received) crcError stray = .ok (master', frame)) :
    (∀ d, Station d → master.masterNodeTimeToLive d ≠ 0 → ¬ master.Marks usIncr d →
      master'.masterNodeTimeToLive d ≠ 0) ∧
      ∀ e ∈ master'.nwManager.newNodes, e ∈ master.nwManager.newNodes ∨
        master.masterNodeTimeToLive e.2 = 0 := by
  obtain ⟨us, ttl, htime, httl⟩ := masterUpdateTimeUs_eq master usIncr
  have hticked : AsksSince master (masterUpdateTimeUs master usIncr).nwManager
      (masterUpdateTimeUs master usIncr).masterNodeTimeToLive := by
    rw [htime]
    exact ⟨fun k hk hzero hc => hzero ((CleanInv.timer_zero_iff httl hk).mp hc), fun e he => Or.inl he⟩
  constructor
  · intro d hd htaken hmarks
    have hpostStep := MasterRun.step_timeToLive (s := ⟨masterUpdateTimeUs master usIncr, fun _ _ => none, []⟩)
      (a := .postProcess)
      hd (hticked.taken d hd htaken) hmarks (fun _ hc => by cases hc) (bind_eq_ok.mpr ⟨(k, m), hpost, rfl⟩)
    have hfull : masterMaxTimeToLive ≠ 0 ∧ masterMaxTimeToLive ≠ removeNodeTTL := by decide
    have hm : m.masterNodeTimeToLive d ≠ 0 ∧ m.masterNodeTimeToLive d ≠ removeNodeTTL := by
      rcases hpostStep with heq | heq
      · exact ⟨fun hc => hticked.taken d hd htaken (heq.symm.trans hc), fun hc => hmarks (heq.symm.trans hc)⟩
      · exact ⟨fun hc => hfull.1 (heq.symm.trans hc), fun hc => hfull.2 (heq.symm.trans hc)⟩
    have hpreStep := MasterRun.step_timeToLive (s := ⟨m, fun _ _ => none, []⟩)
      (a := .preProcess received crcError stray)
      hd hm.1 hm.2 (fun _ hc => by cases hc) (bind_eq_ok.mpr ⟨(master', frame), hpre, rfl⟩)
    rcases hpreStep with heq | heq
    · exact fun hc => hm.1 (heq.symm.trans hc)
    · exact fun hc => hfull.1 (heq.symm.trans hc)
  · obtain ⟨m₁, m₂, k₁, k₂, h₁, h₂, h₃⟩ := postProcess_ok hpost
    obtain ⟨m₃, m₄, h₄, h₅, rfl⟩ := preProcess_ok hpre
    have hkept := keptBetweenTicks_asksSince master
    have hremoved : m.nwManager.newNodes ⊆ m₂.nwManager.newNodes := by
      refine masterRemoveAnyTimeoutNodes_induction (P := fun m => m.nwManager.newNodes ⊆ m₂.nwManager.newNodes)
        (fun d _ _ n _ n' hp hone => ?_) (List.Subset.refl _) h₃
      rcases masterRemoveIfTimedOut_ok hone with ⟨-, rfl⟩ | ⟨_, _, nw, _, _, -, hrequest, -, -, rfl⟩
      · exact hp
      · have htable : nw.newNodes ⊆ n.nwManager.newNodes := by
          rw [networkManagerRemoveNewNodeRequest_newNodes hrequest]
          exact List.eraseP_subset
        exact fun e he => hp (htable he)
    intro e he
    refine (hkept.tx (hkept.rx hticked h₁) h₂).asked e (hremoved ?_)
    obtain ⟨tx, heq, -⟩ := masterQuickTx_eq m₄ stray
    rw [heq] at he
    obtain ⟨_, nw, _, _, rfl, hanswered, -, -⟩ := masterQuickRx_ok h₅
    obtain ⟨_, _, _, _, -, -, rfl⟩ := masterUpdateSchedule_ok h₄
    exact hanswered.newNodes_subset he

theorem KeptBetweenTicks.call {P : Master → Prop} (hP : KeptBetweenTicks P) (h : P master) {call : MasterCall}
    (hc : master.call call = .ok master') : P master' := by
  have hstep : ∃ s', (⟨master, fun _ _ => none, []⟩ : MasterRun).step (call.action .dual) = .ok s' ∧
    s'.master = master' :=
    MasterRun.step_call hc
  obtain ⟨s', hs, rfl⟩ := hstep
  refine hP.step h (fun usIncr ha => ?_) (fun hr => ?_) hs
  · cases call <;> cases ha
  · cases call <;> cases hr

end Master

theorem Node.call_holds {mode : ChannelMode} {node node' : Node} {call : NodeCall}
    (h : node.step (call.action mode) = .ok node') :
    node'.uniqueId = node.uniqueId ∧ (node'.nodeId = unallocatedNodeId ∨
      (node'.nodeId = node.nodeId ∧ node'.timeToLive = node.timeToLive)) := by
  cases call with
  | allocate =>
      obtain ⟨⟨r, n⟩, halloc, h⟩ := bind_eq_ok.mp h
      obtain ⟨⟨r', m⟩, -, halloc⟩ := bind_eq_ok.mp halloc
      cases halloc
      cases h
      exact ⟨rfl, Or.inr ⟨rfl, rfl⟩⟩
  | write data =>
      cases h
      exact ⟨rfl, Or.inr ⟨rfl, rfl⟩⟩
  | submit numBytes =>
      obtain ⟨_, -, h⟩ := bind_eq_ok.mp h
      obtain ⟨_, -, h⟩ := bind_eq_ok.mp h
      obtain ⟨m, -, h⟩ := bind_eq_ok.mp h
      cases h
      exact ⟨rfl, Or.inr ⟨rfl, rfl⟩⟩
  | peek =>
      obtain ⟨r, -, h⟩ := bind_eq_ok.mp h
      cases h
      exact ⟨rfl, Or.inr ⟨rfl, rfl⟩⟩
  | pop =>
      obtain ⟨rpm, -, h⟩ := bind_eq_ok.mp h
      cases h
      exact ⟨rfl, Or.inr ⟨rfl, rfl⟩⟩
  | reset =>
      obtain ⟨hfresh, huid⟩ := nodeReset_ok h
      exact ⟨huid, Or.inl hfresh.nodeId⟩

def Apart {n : Nat} (node : Fin n → Node) : Prop :=
  ∀ i j, i ≠ j → ∀ d, (node i).Holds d → ¬ (node j).Holds d

/-- In the slot no id is marked that a node keeps or takes, and a node takes an id only while the request is in
the table of new nodes. -/
structure Bus.GivesUpFirst {n : Nat} (bus : Bus n) (input : SlotInput n) : Prop where
  kept : ∀ i, ∀ d ∈ (bus.node i).kept (input.nodeUs i), ¬ bus.master.Marks input.masterUs d
  offered : ∀ i, ∀ d ∈ (bus.node i).offered,
    ((bus.node i).uniqueId, d) ∈ bus.master.nwManager.newNodes ∧ ¬ bus.master.Marks input.masterUs d

instance {n : Nat} (bus : Bus n) (input : SlotInput n) : Decidable (bus.GivesUpFirst input) :=
  decidable_of_iff ((∀ i, ∀ d ∈ (bus.node i).kept (input.nodeUs i), ¬ bus.master.Marks input.masterUs d) ∧
      ∀ i, ∀ d ∈ (bus.node i).offered,
        ((bus.node i).uniqueId, d) ∈ bus.master.nwManager.newNodes ∧ ¬ bus.master.Marks input.masterUs d)
    ⟨fun ⟨hkept, hoffered⟩ => ⟨hkept, hoffered⟩, fun h => ⟨h.kept, h.offered⟩⟩

/-- Every node gives up its id before the master does. -/
def NodesGiveUpFirst {n : Nat} (bus : Bus n) : BusAction n → Prop
  | .slot input => bus.GivesUpFirst input
  | _ => True

instance {n : Nat} (bus : Bus n) : (a : BusAction n) → Decidable (NodesGiveUpFirst bus a)
  | .slot input => inferInstanceAs (Decidable (bus.GivesUpFirst input))
  | .master _ => inferInstanceAs (Decidable True)
  | .node _ _ => inferInstanceAs (Decidable True)

/-- The nodes at a moment of a step: in a slot each of them is somewhere in its own part. -/
def Bus.Moment {n : Nat} (bus : Bus n) : BusAction n → (Fin n → Node) → Prop
  | .slot input, node => ∀ i, (bus.node i).At (input.nodeUs i) bus.downlink (input.hearing i) (node i)
  | _, node => node = bus.node

section Bus

variable {n : Nat} {cfg : BusConfig n} {bus bus' : Bus n} {input : SlotInput n}

/-- What keeps the nodes apart: the master counts every id that a node lives with as taken, and the table of new nodes
promises it to nobody else. -/
structure Bus.IdsApart (cfg : BusConfig n) (bus : Bus n) : Prop where
  uniqueId : ∀ i, (bus.node i).uniqueId = cfg.uniqueId i
  lives : ∀ i, (bus.node i).nodeId ≠ unallocatedNodeId → 0 < (bus.node i).timeToLive
  taken : ∀ i, (bus.node i).nodeId ≠ unallocatedNodeId → bus.master.masterNodeTimeToLive (bus.node i).nodeId ≠ 0
  asked : ∀ i, (bus.node i).nodeId ≠ unallocatedNodeId →
    ∀ e ∈ bus.master.nwManager.newNodes, e.2 = (bus.node i).nodeId → e.1 = cfg.uniqueId i
  apart : ∀ i j, (bus.node i).nodeId ≠ unallocatedNodeId → (bus.node i).nodeId = (bus.node j).nodeId → i = j

theorem members_of_bus (h : (busSystem cfg).Reachable bus) :
    Members bus.master.nwManager bus.master.masterNodeTimeToLive := by
  obtain ⟨s, hreach, hmaster⟩ := (devices_of_reachable h).1
  exact hmaster ▸ members_of_reachable hreach

theorem ready_of_bus (h : (busSystem cfg).Reachable bus) (i : Fin n) : (bus.node i).Ready :=
  ready_of_reachable ((devices_of_reachable h).2 i)

namespace Bus.IdsApart

/-- In a slot at most one node has an id or takes it. -/
theorem claims (h : bus.IdsApart cfg) (hids : Function.Injective cfg.uniqueId)
    (hmembers : Members bus.master.nwManager bus.master.masterNodeTimeToLive) (hfirst : bus.GivesUpFirst input)
    {d : TNodeIndex}
    (hd : d ≠ unallocatedNodeId) {i j : Fin n} (hi : (bus.node i).nodeId = d ∨ (bus.node i).offered = some d)
    (hj : (bus.node j).nodeId = d ∨ (bus.node j).offered = some d) : i = j := by
  have hasked : ∀ {k l}, (bus.node k).nodeId = d → (bus.node l).offered = some d → k = l := by
    intro k l hk hl
    have huid := h.asked k (hk ▸ hd) _ (hfirst.offered l d hl).1 hk.symm
    exact hids (huid.symm.trans (h.uniqueId l))
  rcases hi with hi | hi
  · rcases hj with hj | hj
    · exact h.apart i j (hi ▸ hd) (hi.trans hj.symm)
    · exact hasked hi hj
  · rcases hj with hj | hj
    · exact (hasked hj hi).symm
    · have heq := List.inj_on_of_nodup_map hmembers.nodeIds (hfirst.offered i d hi).1 (hfirst.offered j d hj).1 rfl
      have huid : (bus.node i).uniqueId = (bus.node j).uniqueId := congrArg Prod.fst heq
      rw [h.uniqueId, h.uniqueId] at huid
      exact hids huid

theorem moments (h : bus.IdsApart cfg) (hids : Function.Injective cfg.uniqueId)
    (hmembers : Members bus.master.nwManager bus.master.masterNodeTimeToLive) (hready : ∀ i, (bus.node i).Ready)
    (hfirst : bus.GivesUpFirst input) {node : Fin n → Node} (hnode : bus.Moment (.slot input) node) : Apart node := by
  intro i j hne d hi hj
  have hd := hi.2.1
  exact hne (h.claims hids hmembers hfirst hd ((hnode i).holds (hready i) hi) ((hnode j).holds (hready j) hj))

theorem holdsApart (h : bus.IdsApart cfg) : Apart bus.node := by
  rintro i j hne d ⟨hi, hd, -⟩ ⟨hj, -, -⟩
  exact hne (h.apart i j (hi ▸ hd) (hi.trans hj.symm))

theorem slot (h : bus.IdsApart cfg) (hids : Function.Injective cfg.uniqueId)
    (hmembers : Members bus.master.nwManager bus.master.masterNodeTimeToLive) (hready : ∀ i, (bus.node i).Ready)
    (hvalid : ∀ i, ValidNodeId (bus.node i).nodeId) (hfirst : bus.GivesUpFirst input)
    (hs : bus.runDualChannel input = .ok bus') : bus'.IdsApart cfg := by
  obtain ⟨_, m, master, downlink, slots, hpost, hpre, hslots, rfl⟩ := Bus.runDualChannel_ok hs
  obtain ⟨htaken, hasked⟩ := dualSlot_asksSince hpost hpre
  have hnode := fun i => Node.runDualChannel_holds (hready i) (hslots i)
  -- an id that a node has at the end was taken before, is not marked, and was promised to nobody else
  have hclaim : ∀ i, (slots i).1.nodeId ≠ unallocatedNodeId →
      ((bus.node i).nodeId = (slots i).1.nodeId ∨ (bus.node i).offered = some (slots i).1.nodeId) ∧
      Station (slots i).1.nodeId ∧ bus.master.masterNodeTimeToLive (slots i).1.nodeId ≠ 0 ∧
      ¬ bus.master.Marks input.masterUs (slots i).1.nodeId ∧
      ∀ e ∈ bus.master.nwManager.newNodes, e.2 = (slots i).1.nodeId → e.1 = cfg.uniqueId i := by
    intro i hid
    rcases ((hnode i).2 hid).2 with hkept | hoffered
    · have heq : (bus.node i).nodeId = (slots i).1.nodeId := Node.nodeId_of_kept hkept
      refine ⟨Or.inl heq, ?_, ?_, hfirst.kept i _ hkept, ?_⟩
      · exact heq ▸ (hvalid i).resolve_left (heq ▸ hid)
      · exact heq ▸ h.taken i (heq ▸ hid)
      · exact heq ▸ h.asked i (heq ▸ hid)
    · obtain ⟨hrequest, hmarks⟩ := hfirst.offered i _ hoffered
      obtain ⟨hstation, hpositive⟩ := hmembers.there _ hrequest
      refine ⟨Or.inr hoffered, hstation, hpositive, hmarks, fun e he hid => ?_⟩
      have heq := List.inj_on_of_nodup_map hmembers.nodeIds he hrequest hid
      rw [heq]
      exact h.uniqueId i
  constructor
  · exact fun i => (hnode i).1.trans (h.uniqueId i)
  · exact fun i hid => ((hnode i).2 hid).1
  · intro i hid
    obtain ⟨-, hstation, hpositive, hmarks, -⟩ := hclaim i hid
    exact htaken _ hstation hpositive hmarks
  · intro i hjoined e he hid
    obtain ⟨-, -, hpositive, -, hpromised⟩ := hclaim i hjoined
    have hid : e.2 = (slots i).1.nodeId := hid
    refine hpromised e ((hasked e he).resolve_right fun hfree => hpositive ?_) hid
    rw [← hid]
    exact hfree
  · intro i j hid heq
    have heq : (slots i).1.nodeId = (slots j).1.nodeId := heq
    exact h.claims hids hmembers hfirst hid (hclaim i hid).1 (heq ▸ (hclaim j (heq ▸ hid)).1)

theorem masterCall (h : bus.IdsApart cfg) (hvalid : ∀ i, ValidNodeId (bus.node i).nodeId) {call : MasterCall}
    {master : Master} (hc : bus.master.call call = .ok master) : Bus.IdsApart cfg { bus with master } := by
  have hsince := (keptBetweenTicks_asksSince bus.master).call ⟨fun _ _ hzero => hzero, fun e he => Or.inl he⟩ hc
  refine ⟨h.uniqueId, h.lives, fun i hid => ?_, fun i hid e he heq => ?_, h.apart⟩
  · exact hsince.taken _ ((hvalid i).resolve_left hid) (h.taken i hid)
  · refine h.asked i hid e ((hsince.asked e he).resolve_right fun hfree => h.taken i hid ?_) heq
    change e.2 = (bus.node i).nodeId at heq
    rw [← heq]
    exact hfree

theorem nodeCall (h : bus.IdsApart cfg) {mode : ChannelMode} {i : Fin n} {call : NodeCall} {node : Node}
    (hc : (bus.node i).step (call.action mode) = .ok node) :
    Bus.IdsApart cfg { bus with node := Function.update bus.node i node } := by
  obtain ⟨huid, hid⟩ := Node.call_holds hc
  have hnode : ∀ j, (Function.update bus.node i node j).uniqueId = (bus.node j).uniqueId ∧
      ((Function.update bus.node i node j).nodeId = unallocatedNodeId ∨
        ((Function.update bus.node i node j).nodeId = (bus.node j).nodeId ∧
          (Function.update bus.node i node j).timeToLive = (bus.node j).timeToLive)) := by
    intro j
    by_cases hj : j = i
    · subst hj
      rw [Function.update_self]
      exact ⟨huid, hid⟩
    · rw [Function.update_of_ne hj]
      exact ⟨rfl, Or.inr ⟨rfl, rfl⟩⟩
  have hsame := fun j hjoined => (hnode j).2.resolve_left hjoined
  constructor
  · exact fun j => (hnode j).1.trans (h.uniqueId j)
  · intro j hjoined
    obtain ⟨heq, hlive⟩ := hsame j hjoined
    exact (hlive ▸ h.lives j (heq ▸ hjoined) : 0 < (Function.update bus.node i node j).timeToLive)
  · intro j hjoined
    obtain ⟨heq, -⟩ := hsame j hjoined
    exact (heq ▸ h.taken j (heq ▸ hjoined) :
      bus.master.masterNodeTimeToLive (Function.update bus.node i node j).nodeId ≠ 0)
  · intro j hjoined e he hentry
    obtain ⟨heq, -⟩ := hsame j hjoined
    exact h.asked j (heq ▸ hjoined) e he (hentry.trans heq)
  · intro j k hjoined hjk
    obtain ⟨heq, -⟩ := hsame j hjoined
    have hjk : (Function.update bus.node i node j).nodeId = (Function.update bus.node i node k).nodeId := hjk
    obtain ⟨heq', -⟩ := hsame k (fun hc => hjoined (hjk.trans hc))
    exact h.apart j k (heq ▸ hjoined) (heq.symm.trans (hjk.trans heq'))

theorem init (h : (busSystem cfg).init bus) : bus.IdsApart cfg := by
  obtain ⟨-, hnodes, -, -⟩ := h
  have hfresh : ∀ i, (bus.node i).Fresh ∧ (bus.node i).uniqueId = cfg.uniqueId i := fun i => by
    obtain ⟨entries, hnode⟩ := hnodes i
    exact nodeInit_ok hnode
  have hnone := fun i => (hfresh i).1.nodeId
  exact ⟨fun i => (hfresh i).2, fun i hid => absurd (hnone i) hid, fun i hid => absurd (hnone i) hid,
    fun i hid => absurd (hnone i) hid, fun i _ hid => absurd (hnone i) hid⟩

theorem step (h : bus.IdsApart cfg) (hdual : cfg.master.mode = .dual) (hids : Function.Injective cfg.uniqueId)
    (hreach : (busSystem cfg).Reachable bus) {a : BusAction n} (hfirst : NodesGiveUpFirst bus a)
    (hs : (busSystem cfg).step bus a = .ok bus') : bus'.IdsApart cfg := by
  have hvalid := (validIds_of_reachable hreach).nodeId
  cases a with
  | slot input =>
      have hs : bus.step cfg.master.mode (.slot input) = .ok bus' := hs
      rw [hdual] at hs
      exact h.slot hids (members_of_bus hreach) (ready_of_bus hreach) hvalid hfirst hs
  | master call =>
      obtain ⟨master, hcall, hs⟩ := bind_eq_ok.mp hs
      cases hs
      exact h.masterCall hvalid hcall
  | node i call =>
      obtain ⟨node, hcall, hs⟩ := bind_eq_ok.mp hs
      cases hs
      exact h.nodeCall hcall

end Bus.IdsApart

/-- No two nodes ever hold the same id, at no moment of any slot, in every run in which the nodes give up their
ids first. -/
theorem node_ids_are_unique (hdual : cfg.master.mode = .dual) (hids : Function.Injective cfg.uniqueId)
    (h : (busSystem cfg).init bus) (as : List (BusAction n))
    (hfirst : (busSystem cfg).RunMeets NodesGiveUpFirst bus as) :
    (busSystem cfg).RunMeets (fun bus a => ∀ node, bus.Moment a node → Apart node) bus as ∧
      ∀ bus', (busSystem cfg).run bus as = .ok bus' → Apart bus'.node := by
  have hkeep : ∀ bus a bus', (busSystem cfg).Reachable bus ∧ bus.IdsApart cfg → NodesGiveUpFirst bus a →
      (busSystem cfg).step bus a = .ok bus' → (busSystem cfg).Reachable bus' ∧ bus'.IdsApart cfg :=
    fun bus a bus' hbus hfirst hs => ⟨.step hbus.1 trivial hs, hbus.2.step hdual hids hbus.1 hfirst hs⟩
  have hinit : (busSystem cfg).Reachable bus ∧ bus.IdsApart cfg := ⟨.init h, .init h⟩
  constructor
  · refine System.runMeets_of_kept ?_ hkeep hinit hfirst
    intro bus a hbus hfirst node hnode
    cases a with
    | slot input => exact hbus.2.moments hids (members_of_bus hbus.1) (ready_of_bus hbus.1) hfirst hnode
    | master call => exact hnode ▸ hbus.2.holdsApart
    | node i call => exact hnode ▸ hbus.2.holdsApart
  · exact fun bus' hr => (System.kept_of_run hkeep hinit hfirst hr).2.holdsApart

end Bus

def pairConfig : BusConfig 2 where
  master := ⟨.dual, 1, 4, 4⟩
  uniqueId i := if i = 0 then 137 else 0x100000088
  maxTxPacketEntries _ := 4
  maxRxPacketEntries _ := 4

def freshPair : Bus 2 where
  master := { freshMaster (fun _ => ⟨false, Packet.zero⟩) with scheduler := schedulerInit 1 80 }
  node i := freshNode (pairConfig.uniqueId i) fun _ => ⟨false, Packet.zero⟩
  downlink := none
  uplink _ := none
  heldRxSeqNum _ := 0

theorem freshPair_init : (busSystem pairConfig).init freshPair := ⟨⟨_, rfl⟩, fun _ => ⟨_, rfl⟩, rfl, rfl⟩

theorem pairConfig_distinct : Function.Injective pairConfig.uniqueId := by decide

/-- In a slot of `SLOT_TIME_US` node `i` hears the master. -/
def heardBy (i : Fin 2) (uplink : Uplink 2) : SlotInput 2 :=
  { lostSlot with hearing := fun j => if j = i then .intact else .lost, uplink }

def joinInputs : List (SlotInput 2) :=
  List.replicate 22 (heardBy 0 .lost) ++ [{ lostSlot with uplink := .intact 0 }] ++ List.replicate 2 lostSlot

/-- Node 0 hears the response, takes its id and sends; then node 1 asks for an id and takes it. -/
def bothJoinInputs : List (SlotInput 2) :=
  joinInputs ++ List.replicate 4 (heardBy 0 .lost) ++ List.replicate 2 (heardBy 1 (.intact 0)) ++
    [heardBy 1 (.intact 1)] ++ List.replicate 4 (heardBy 1 (.intact 0))

theorem node_ids_are_unique_joined :
    (busSystem pairConfig).RunMeets (fun bus a => ∀ node, bus.Moment a node → Apart node) freshPair
      (bothJoinInputs.map .slot) ∧
      ∃ bus, (busSystem pairConfig).run freshPair (bothJoinInputs.map .slot) = .ok bus ∧
        ((bus.node 0).Holds 1 ∧ (bus.node 1).Holds 2) ∧ Apart bus.node := by
  have hfirst : (busSystem pairConfig).RunMeets NodesGiveUpFirst freshPair (bothJoinInputs.map .slot) :=
    System.runMeets_of_checkedRun (fun _ _ => of_decide_eq_true) (by decide +kernel)
  obtain ⟨hmoments, hend⟩ := node_ids_are_unique rfl pairConfig_distinct freshPair_init _ hfirst
  have hjoined : System.holdsAfter ((busSystem pairConfig).run freshPair (bothJoinInputs.map .slot))
      fun bus => decide ((bus.node 0).Holds 1 ∧ (bus.node 1).Holds 2) := by decide +kernel
  obtain ⟨bus, hrun, hholds⟩ := System.exists_of_holdsAfter hjoined
  exact ⟨hmoments, bus, hrun, of_decide_eq_true hholds, hend bus hrun⟩

/-- Node 0 hears the last response before the master removes node 1, and node 1 on the bus is the next to ask. -/
def lateInputs : List (SlotInput 2) :=
  [heardBy 0 .lost] ++ List.replicate 3 lostSlot ++ [heardBy 1 .lost, { lostSlot with uplink := .intact 1 }] ++
    List.replicate 2 lostSlot ++ [heardBy 1 .lost, lostSlot]

def lateTest (bus : Bus 2) : Bool :=
  decide ((∀ i, (bus.node i).Asking) ∧ bus.master.rx.validRxPacket = false ∧
    (∀ e : Fin 64, e.val ≠ 0 → e.val ≠ 1 → bus.master.masterNodeTimeToLive (UInt8.ofNat e.val) = 0) ∧
    (bus.node 0).timeToLive = (1533 * slotUs.toNat : Nat) ∧ (bus.node 1).timeToLive = (0 * slotUs.toNat : Nat)) &&
  (bus.master.waits 1 1620).any fun master =>
    System.holdsAfter ((busSystem pairConfig).run (.afterSlot master (masterTxGetNextTxPacket master.tx) fun i =>
      ({ (bus.node i).hearNothing slotUs with timeToLive := 0 }, none)) (lateInputs.map .slot))
      fun bus => decide ((bus.node 0).Holds 1 ∧ (bus.node 1).Holds 1)

theorem joinInputs_late :
    System.holdsAfter ((busSystem pairConfig).run freshPair (joinInputs.map .slot)) lateTest = true := by
  decide +kernel

/-- In every slot every timer advances by `SLOT_TIME_US`. -/
def InStepWithSlots {n : Nat} (inputs : List (SlotInput n)) : Prop :=
  ∀ input ∈ inputs, input.masterUs = slotUs ∧ ∀ i, input.nodeUs i = slotUs

/-- The timer of the master starts when it registers a node, and that of the node when it hears of it: the
master gives the id to the next node while the first still lives with it. -/
theorem two_nodes_share_an_id : pairConfig.master.mode = .dual ∧ (busSystem pairConfig).init freshPair ∧
    Function.Injective pairConfig.uniqueId ∧ (∀ i, pairConfig.uniqueId i ≠ 0) ∧
    ∃ inputs, InStepWithSlots inputs ∧
      ∃ bus, (busSystem pairConfig).run freshPair (inputs.map .slot) = .ok bus ∧ ¬ Apart bus.node := by
  refine ⟨rfl, freshPair_init, pairConfig_distinct,
    by decide, joinInputs ++ List.replicate 1620 lostSlot ++ lateInputs, ?_, ?_⟩
  · unfold InStepWithSlots
    have hjoin : ∀ input ∈ joinInputs ++ lateInputs, input.masterUs = slotUs ∧
      ∀ i, input.nodeUs i = slotUs := by decide
    intro input hinput
    rcases List.mem_append.mp hinput with hinput | hinput
    · rcases List.mem_append.mp hinput with hinput | hinput
      · exact hjoin input (List.mem_append_left _ hinput)
      · rw [List.eq_of_mem_replicate hinput]
        exact ⟨rfl, fun _ => rfl⟩
    · exact hjoin input (List.mem_append_right _ hinput)
  · obtain ⟨joined, hjoined, hlate⟩ := System.exists_of_holdsAfter joinInputs_late
    obtain ⟨hstate, hlate⟩ := Bool.and_eq_true_iff.mp hlate
    obtain ⟨hasking, hnoFrame, hfree, htimer, htimer'⟩ := of_decide_eq_true hstate
    obtain ⟨master, hwaits, hlate⟩ := System.exists_of_any hlate
    obtain ⟨bus, hbus, hshared⟩ := System.exists_of_holdsAfter hlate
    have honly : joined.master.OnlyTaken 1 := by
      intro e ⟨hfirst, hlast⟩ hne
      have hfree := hfree ⟨e.toNat, hlast⟩ (Nat.ne_of_gt hfirst) fun hc => hne (UInt8.toNat_inj.mp hc)
      rwa [UInt8.ofNat_toNat] at hfree
    have hfine : FineIncrement slotUs := by decide
    have hrunOut : ∀ i, (fun ttl => nodeNwUpdateTimeUs ttl slotUs)^[1620] (joined.node i).timeToLive = 0 := by
      refine Fin.forall_fin_two.mpr ⟨?_, ?_⟩
      · rw [htimer]
        exact nodeNwUpdateTimeUs_iterate hfine 1620 1533 (by decide)
      · rw [htimer']
        exact nodeNwUpdateTimeUs_iterate hfine 1620 0 (by decide)
    -- the number of slots is kept closed: nothing is to count them out
    obtain ⟨k, hk⟩ : ∃ k, k + 1 = 1620 := ⟨1619, rfl⟩
    rw [← hk] at hwaits hrunOut ⊢
    have hdual : pairConfig.master.mode = .dual := rfl
    have hlost := Bus.run_lost hdual k hasking hnoFrame honly hwaits
    simp only [hrunOut] at hlost
    refine ⟨bus, ?_, ?_⟩
    · rw [List.map_append, List.map_append, System.run_append, System.run_append, hjoined, List.map_replicate]
      exact bind_eq_ok.mpr ⟨_, hlost, hbus⟩
    · obtain ⟨hholds, hholds'⟩ := of_decide_eq_true hshared
      exact fun hapart => hapart 0 1 (by decide) 1 hholds hholds'

end Microbus
