import Microbus.Transfer
import Microbus.ReceivedFrames
import Microbus.NodeTx
import Microbus.MasterParts

/-! Which submitted packets reach the application of the other side. -/
namespace Microbus

open Transition

namespace RxPacketManager

variable {rpm rpm' : RxPacketManager}

theorem peekLoop_size {fuel : Nat} {r : Option Nat} (h : peekLoop fuel rpm = .ok (r, rpm')) :
    rpm'.maxRxPacketEntries = rpm.maxRxPacketEntries := by
  induction fuel generalizing rpm with
  | zero => cases h
  | succ fuel ih =>
      unfold peekLoop at h
      split at h
      · cases h
        rfl
      · split at h
        · obtain ⟨rpm₁, hpop, h⟩ := bind_eq_ok.mp h
          unfold RxPacketManager.pop at hpop
          split at hpop
          · cases hpop
          · cases hpop
            have hsize := ih h
            exact hsize
        · cases h
          rfl

theorem removeAllPacketsLoop_size {nodeId : TNodeIndex} {fuel i : Nat}
    (h : removeAllPacketsLoop nodeId fuel i rpm = .ok rpm') : rpm'.maxRxPacketEntries = rpm.maxRxPacketEntries := by
  induction fuel generalizing i rpm with
  | zero => cases h
  | succ fuel ih =>
      unfold removeAllPacketsLoop at h
      split at h
      · dsimp only at h
        split at h
        · split at h
          · have hsize := ih h
            exact hsize
          · exact ih h
        · exact ih h
      · cases h
        rfl

theorem queued_of_add {e : Nat} (h : addRxDataPacket rpm e = .ok rpm') : rpm.Queued rpm' e := by
  have hfull : ¬ rpm.isFull := by
    intro hc
    unfold addRxDataPacket at h
    rw [if_pos hc] at h
    cases h
  obtain ⟨rpm'', hadd, hqueued⟩ := addRxDataPacket_ok (e := e) hfull
  cases hadd.symm.trans h
  exact hqueued

theorem findFreeRxPacket_size {e : Nat} (h : findFreeRxPacket rpm = some (e, rpm')) :
    rpm'.maxRxPacketEntries = rpm.maxRxPacketEntries := by
  obtain ⟨-, rfl⟩ := findFreeRxPacket_some h
  rfl

end RxPacketManager

theorem keptByParts_rxSize (n : Nat) : KeptByParts fun master => master.rx.rxPacketManager.maxRxPacketEntries = n where
  receive h _ := h
  updateSchedule h hs := by
    obtain ⟨_, _, _, queues, -, -, rfl⟩ := masterUpdateSchedule_ok hs
    exact h
  quickRx h hq := by
    obtain ⟨rx, nw, ttl, m, rfl, -, -, hresult⟩ := masterQuickRx_ok hq
    cases hresult with
    | dropped _ => exact h
    | kept _ hfind _ => exact (RxPacketManager.findFreeRxPacket_size hfind).trans h
    | inOrder _ hfind _ _ => exact (RxPacketManager.findFreeRxPacket_size hfind).trans h
  rx h hr := by
    rcases masterRx_ok hr with ⟨-, rfl⟩ | ⟨_, _, _, _, _, _, _, -, -, rfl, hresult⟩
    · exact h
    · cases hresult with
      | ignored _ => exact h
      | acked _ _ => exact h
      | stored _ _ _ _ hadd => exact (RxPacketManager.queued_of_add hadd).maxRxPacketEntries.trans h
      | registered _ _ => exact h
  tx h ht := by
    obtain ⟨tx, rfl, -⟩ := masterTx_ok ht
    exact h
  quickTx h stray := by
    rename_i master
    obtain ⟨tx, heq, -⟩ := masterQuickTx_eq master stray
    rw [heq]
    exact h
  removeIfTimedOut _ h hr := by
    rcases masterRemoveIfTimedOut_ok hr with ⟨-, rfl⟩ | ⟨_, _, _, _, _, -, -, -, hremove, rfl⟩
    · exact h
    · exact (RxPacketManager.removeAllPacketsLoop_size hremove).trans h
  updateTimeUs h usIncr := by
    rename_i master
    obtain ⟨us, ttl, heq, -⟩ := masterUpdateTimeUs_eq master usIncr
    rw [heq]
    exact h
  call h hc := by
    rename_i master master' call
    cases call with
    | allocate =>
        obtain ⟨⟨r, m⟩, halloc, hc⟩ := bind_eq_ok.mp hc
        cases hc
        obtain ⟨⟨r', tm⟩, -, halloc⟩ := bind_eq_ok.mp halloc
        cases halloc
        exact h
    | write data =>
        cases hc
        exact h
    | submit dst numBytes =>
        obtain ⟨-, -, tm, -, rfl⟩ := masterSubmit_ok hc
        exact h
    | peek =>
        obtain ⟨⟨r, m⟩, hpeek, hc⟩ := bind_eq_ok.mp hc
        cases hc
        obtain ⟨⟨e, rpm⟩, hloop, hpeek⟩ := bind_eq_ok.mp hpeek
        have hsize : rpm.maxRxPacketEntries = n := (RxPacketManager.peekLoop_size hloop).trans h
        cases e with
        | none =>
            cases hpeek
            exact hsize
        | some i =>
            cases hpeek
            exact hsize
    | pop =>
        obtain ⟨rpm, hpop, hc⟩ := bind_eq_ok.mp hc
        cases hc
        exact (popNextDataPacket_ok hpop).1.trans h
    | getConnectedNodes =>
        obtain ⟨⟨m, bits⟩, hget, hc⟩ := bind_eq_ok.mp hc
        cases hc
        obtain rfl := getConnectedNodesBitField_ok hget
        exact h
    | resetTxCredits =>
        cases hc
        exact h

theorem rxSize_of_reachable {cfg : MasterConfig} {s : MasterRun} (h : (masterSystem cfg).Reachable s) :
    1 < s.master.rx.rxPacketManager.maxRxPacketEntries := by
  have hsize : s.master.rx.rxPacketManager.maxRxPacketEntries = cfg.maxRxPacketEntries.toNat ∧
      cfg.maxRxPacketEntries > 2 := by
    refine System.ReachableWhen.invariant (P := fun s => s.master.rx.rxPacketManager.maxRxPacketEntries =
      cfg.maxRxPacketEntries.toNat ∧ cfg.maxRxPacketEntries > 2) h ?_ ?_
    · rintro s ⟨entries, hinit, -, -⟩
      obtain ⟨rx, hrx, hinit⟩ := bind_eq_ok.mp hinit
      injection hinit with hmaster
      rw [← hmaster]
      obtain ⟨_, hmax, hrx⟩ := bind_eq_ok.mp hrx
      split at hrx
      · cases hrx
      · rename_i hfind
        cases hrx
        exact ⟨RxPacketManager.findFreeRxPacket_size hfind, microbusAssert_ok.mp hmax⟩
    · rintro s a s' ⟨hs, hmax⟩ - hstep
      exact ⟨(keptByParts_rxSize _).step hs hstep, hmax⟩
  have hmax := UInt8.lt_iff_toNat_lt.mp hsize.2
  have htwo : (2 : UInt8).toNat = 2 := rfl
  omega

theorem nodeOk_of_reachable {cfg : NodeConfig} {node : Node} (h : (nodeSystem cfg).Reachable node) : NodeOk node := by
  obtain ⟨n, hn, hsize⟩ := (ready_of_reachable h).buffers
  obtain ⟨g, hg⟩ := txInv_of_reachable h
  have hmax := UInt8.lt_iff_toNat_lt.mp hn
  have htwo : (2 : UInt8).toNat = 2 := rfl
  exact ⟨by omega, ⟨g, hg.store, hg.fresh.unshadowed⟩, hg.masterNodeId_lt⟩

/-- A packet that the master submits to node `dst` from entry `entry`, the master when it chooses
this entry later, and the node that the frame reaches: any one that a run leads to. -/
structure DownlinkTransfer where
  sender : Master
  entry : Nat
  dst : TNodeIndex
  size : UInt16
  submitted : Master
  allocated : sender.tx.txManager.allocatedPacket = some entry
  registered : 0 < sender.masterNodeTimeToLive dst
  submit : masterSubmitAllocatedTxPacket sender dst size = .ok submitted
  later : Master
  held : (submitted.tx.txManager.entry entry).packet.SameMessage true (later.tx.txManager.entry entry).packet
  turn : later.tx.DataTurn later.nwManager
  chosen : ∃ m, masterGetNextTxDataPacket later.tx.txManager masterBurstSize = .ok (some entry, m)
  scheduler : SchedulerState
  nextTxNodeId : Nat → TNodeIndex
  stray : TNodeIndex → UInt8
  cfg : NodeConfig
  node : Node
  reachable : (nodeSystem cfg).Reachable node
  nodeId : node.nodeId = dst
  expects : expectedSeqNum (node.txManager.rxSeqNum masterNodeId) = (later.tx.txManager.entry entry).packet.txSeqNum
  freeBuffer : (findFreeRxPacket node.rxPacketManager).isSome

/-- The node's application gets the packet from its ring once it has popped the older ones. -/
def Node.Receives (node node' : Node) (size : Nat) (data : PacketData) : Prop :=
  node'.rxPacketManager.endIndex =
      incrAndWrap node.rxPacketManager.endIndex 1 node.rxPacketManager.maxRxPacketEntries ∧
    nodePeekNextRxDataPacket { node' with
        rxPacketManager := node'.rxPacketManager.afterOlder node.rxPacketManager.endIndex } =
      .ok (some ⟨masterNodeId, size, data⟩)

namespace DownlinkTransfer

def data (t : DownlinkTransfer) : PacketData := (t.sender.tx.txManager.entry t.entry).packet.data

/-- The master sends the frame with the schedule of its next slot, the node takes it, and no
assertion fails on the way. -/
def Arrives (t : DownlinkTransfer) : Prop :=
  ∃ m frame n₁ n₂, masterTx t.later = .ok m ∧
    masterTxGetNextTxPacket (masterQuickTx
      { m with scheduler := t.scheduler, nextTxNodeId := t.nextTxNodeId } t.stray).tx = some frame ∧
    nodeQuickProcessPrevRx (t.node.receive frame) false = .ok n₁ ∧ nodeProcessRx n₁ = .ok n₂ ∧
    t.node.Receives n₂ t.size.toNat t.data

theorem dst_lt (t : DownlinkTransfer) : t.dst.toNat < maxNodes := (masterSubmit_ok t.submit).2.1

theorem filled (t : DownlinkTransfer) : FilledAs true t.dst .masterData t.size
    (t.later.tx.txManager.entry t.entry).packet.txSeqNum t.data (t.later.tx.txManager.entry t.entry).packet := by
  obtain ⟨-, -, m, hm, hsubmitted⟩ := masterSubmit_ok t.submit
  rcases submitAllocatedTxPacket_ok hm with ⟨-, hlate, -⟩ | ⟨i, q, hi, -, -, -, -, -, rfl⟩
  · exact absurd hlate t.registered.ne'
  · obtain rfl : i = t.entry := Option.some.inj (hi.symm.trans t.allocated)
    have hheld := t.held
    rw [hsubmitted] at hheld
    have hlater := (filledAs_submitEntry t.sender.tx.txManager t.entry q).of_sameMessage hheld
    exact ⟨hlater.isType, hlater.size, rfl, hlater.station, hlater.data⟩

/-- Everything but the empty packet and the one that fills the data field. -/
theorem arrives_iff (t : DownlinkTransfer) : t.Arrives ↔ 1 ≤ t.size.toNat ∧ t.size.toNat < maxPacketDataSize := by
  have hok := nodeOk_of_reachable t.reachable
  obtain ⟨m, hget⟩ := t.chosen
  obtain ⟨hsend, hblock⟩ := masterProcessTx_data t.turn hget
  have hfilled := t.filled
  rw [hfilled.size] at hsend hblock
  have hdst := t.dst_lt
  have hd : t.dst ≠ unallocatedNodeId := by
    intro hc
    rw [hc] at hdst
    exact absurd hdst (by decide)
  have hsame : m.packetStore = t.later.tx.txManager.packetStore := by
    obtain ⟨queue, -, hround⟩ := masterGetNextTxDataPacket_ok hget
    exact hround.sameStore.packetStore
  by_cases hsize : t.size.toNat < maxPacketDataSize
  · obtain ⟨tx, htx, hnext, hm⟩ := hsend hsize
    have hmaster : masterTx t.later = .ok { t.later with tx := tx } := by
      unfold masterTx
      rw [htx]
      rfl
    -- the frame is the chosen packet with the schedule filled in
    obtain ⟨frame, hframe, hmessage⟩ : ∃ frame, masterTxGetNextTxPacket (masterQuickTx
        { t.later with tx := tx, scheduler := t.scheduler, nextTxNodeId := t.nextTxNodeId } t.stray).tx = some frame ∧
        (t.later.tx.txManager.entry t.entry).packet.SameMessage true frame := by
      refine ⟨fillSchedule m t.scheduler.numTxNodesScheduled t.nextTxNodeId t.stray
        (t.later.tx.txManager.entry t.entry).packet, ?_, fillSchedule_sameMessage _ _ _ _ _⟩
      unfold masterTxGetNextTxPacket masterQuickTx masterQuickUpdateTxPacket
      simp only [hnext, hm, MasterTx.assign, MasterTx.deref, Option.map_some]
      rw [show (m.packetStore.setPacket t.entry _).entries t.entry = _ from entry_setPacket m t.entry _ t.entry,
        if_pos rfl, hsame]
      rfl
    have hfilled' := hfilled.of_sameMessage hmessage
    obtain ⟨n₁, hquick, htaken⟩ := nodeQuickProcessPrevRx_data hok (ready_of_reachable t.reachable).initialised
      t.nodeId hd hfilled' t.expects t.freeBuffer
    obtain ⟨hqueue, hempty⟩ := nodeProcessRx_data hok htaken t.nodeId hd hfilled'
    by_cases hpos : 0 < t.size.toNat
    · obtain ⟨n₂, hprocess, hqueued⟩ := hqueue hpos
      refine ⟨fun _ => ⟨hpos, hsize⟩, fun _ =>
        ⟨_, frame, n₁, n₂, hmaster, hframe, hquick, hprocess, ?_, ?_⟩⟩
      · rw [hqueued.endIndex, htaken.ring.1, htaken.ring.2]
      · rw [← htaken.ring.1]
        refine nodePeek_queued ?_ hqueued htaken.packet hfilled' hpos
        rw [htaken.ring.2]
        exact hok.size
    · refine ⟨?_, fun hc => absurd hc.1 hpos⟩
      rintro ⟨m', frame', n₁', n₂', hm', hf', hq', hp', -⟩
      rw [hmaster] at hm'
      cases hm'
      rw [hframe] at hf'
      cases hf'
      rw [hquick] at hq'
      cases hq'
      rw [hempty (by omega)] at hp'
      cases hp'
  · refine ⟨?_, fun hc => absurd hc.2 hsize⟩
    rintro ⟨m', frame', n₁', n₂', hm', -⟩
    unfold masterTx at hm'
    rw [hblock hsize] at hm'
    cases hm'

end DownlinkTransfer

/-- The master's application gets the packet from its ring once it has popped the older ones. -/
def Master.Receives (master master' : Master) (src : TNodeIndex) (size : Nat) (data : PacketData) : Prop :=
  master'.rx.rxPacketManager.endIndex =
      incrAndWrap master.rx.rxPacketManager.endIndex 1 master.rx.rxPacketManager.maxRxPacketEntries ∧
    masterPeekNextRxDataPacket (master'.afterOlder master.rx.rxPacketManager.endIndex) =
      .ok (some ⟨src, size, data⟩, master'.afterOlder master.rx.rxPacketManager.endIndex)

section MasterReceives

variable {cfg : MasterConfig} {s : MasterRun} {master : Master} {frame : Packet} {src : TNodeIndex} {n : UInt16}
  {data : PacketData}

theorem masterRx_receives {q : UInt8} {m₁ m₂ : Master} {k : Nat}
    (hsize : 1 < master.rx.rxPacketManager.maxRxPacketEntries)
    (hf : FilledAs false src .nodeData n q data frame) (hn : n.toNat < maxPacketDataSize)
    (hexp : expectedSeqNum (master.tx.txManager.rxSeqNum src) = q)
    (hfree : (findFreeRxPacket master.rx.rxPacketManager).isSome)
    (hq : masterQuickRx (master.receive frame) false = .ok m₁) (hr : masterRx m₁ = .ok (k, m₂)) :
    master.Receives m₂ src n.toNat data := by
  have hframe : (master.receive frame).rx.packetAt (master.receive frame).rx.nextRxPacketEntry = frame :=
    RxPacketManager.packet_receive _ _
  have hfree' := RxPacketManager.findFreeRxPacket_receive master.rx.nextRxPacketEntry frame hfree
  have haccept : masterAcceptsFrame frame false :=
    ⟨hf.isType.notIdle, rfl, hf.isType.version, by rw [hf.size]; exact hn⟩
  have hinOrder : frame.txSeqNum = expectedSeqNum (master.tx.txManager.rxSeqNum frame.srcNodeId) := by
    rw [show frame.srcNodeId = src from hf.station, hf.txSeqNum, hexp]
  obtain ⟨rx, nw, ttl, m, rfl, -, -, hresult⟩ := masterQuickRx_ok hq
  rw [hframe] at hresult
  cases hresult with
  | dropped hnone =>
      have hnone' : findFreeRxPacket (master.rx.rxPacketManager.receive master.rx.nextRxPacketEntry frame) = none :=
        hnone haccept
      rw [hnone'] at hfree'
      cases hfree'
  | kept _ _ hdata => exact absurd hinOrder (hdata hf.isType.type).2
  | @inOrder free rpm _ hfind _ _ =>
      have hpacket : (rpm.rxPacketEntries master.rx.nextRxPacketEntry).packet = frame :=
        (packetAt_findFree hfind _).trans hframe
      obtain ⟨-, hsame⟩ := RxPacketManager.findFreeRxPacket_some hfind
      have hend : rpm.endIndex = master.rx.rxPacketManager.endIndex := by
        rw [hsame]
        rfl
      have hmax : rpm.maxRxPacketEntries = master.rx.rxPacketManager.maxRxPacketEntries := by
        rw [hsame]
        rfl
      rcases masterRx_ok hr with ⟨hc, -⟩ | ⟨e, rpm', _, _, _, _, _, -, hprev, rfl, hresult⟩
      · cases hc
      · cases hprev
        change RxFrameResult _ master.rx.nextRxPacketEntry (rpm.rxPacketEntries master.rx.nextRxPacketEntry).packet
          _ _ _ _ _ _ at hresult
        rw [hpacket] at hresult
        cases hresult with
        | ignored hc => exact absurd hf.isType.type hc
        | acked hc _ => cases hc hf.isType.type
        | stored _ _ _ _ hadd =>
            have hqueued := RxPacketManager.queued_of_add hadd
            refine ⟨?_, ?_⟩
            · rw [← hend, ← hmax]
              exact hqueued.endIndex
            · rw [← hend]
              exact masterPeek_queued (hmax ▸ hsize) hqueued hpacket hf
        | registered hc _ =>
            rw [hf.isType.type] at hc
            cases hc

/-- A reachable master gets a data frame in order through exactly when the frame carries data and the packets that it
acknowledges are found. -/
theorem completes_masterRx_data {q : UInt8} (h : (masterSystem cfg).Reachable s)
    (hm : master = s.master ∨ masterUpdateSchedule s.master = .ok master)
    (hsrc : src.toNat < maxNodes) (hf : FilledAs false src .nodeData n q data frame) (hn : n.toNat < maxPacketDataSize)
    (hexp : expectedSeqNum (master.tx.txManager.rxSeqNum src) = q)
    (hfree : (findFreeRxPacket master.rx.rxPacketManager).isSome) (hlevel : frame.bufferLevel > 0) :
    ∃ m₁, masterQuickRx (master.receive frame) false = .ok m₁ ∧ (Completes (masterRx m₁) ↔
      0 < n.toNat ∧ master.tx.txManager.AckFound true src frame.ackSeqNum) := by
  have hstation : frame.srcNodeId = src := hf.station
  have hfromNode : frame.fromNode := Or.inl hf.isType.type
  have haccept : masterAcceptsFrame frame false :=
    ⟨hf.isType.notIdle, rfl, hf.isType.version, by rw [hf.size]; exact hn⟩
  have hframe : (master.receive frame).rx.packetAt (master.receive frame).rx.nextRxPacketEntry = frame :=
    RxPacketManager.packet_receive _ _
  have hsrc' : frame.fromNode → frame.srcNodeId.toNat < maxNodes := fun _ => hstation ▸ hsrc
  obtain ⟨hasked, hmembers, hlevels, hnumbered⟩ := received_of_reachable h hm frame
  obtain ⟨m₁, hq⟩ := (completes_quickRx hasked hnumbered.table hframe false).mpr fun _ => hsrc'
  refine ⟨m₁, hq,
    (completes_masterRx_of_quickRx hnumbered (keptByNetwork_members.quickRx hmembers hq) hlevels hframe
    haccept hsrc' hq).trans ?_⟩
  have hfree' : (findFreeRxPacket (master.receive frame).rx.rxPacketManager).isSome :=
    RxPacketManager.findFreeRxPacket_receive master.rx.nextRxPacketEntry frame hfree
  have hdata : (master.receive frame).TakesData frame ↔ 0 < n.toNat := by
    unfold Master.TakesData
    rw [hf.size]
    refine and_iff_left fun _ hc => ?_
    rw [hc] at hlevel
    exact absurd hlevel (by decide)
  have hinOrder : frame.txSeqNum = expectedSeqNum ((master.receive frame).tx.txManager.rxSeqNum frame.srcNodeId) := by
    rw [hstation, hf.txSeqNum]
    exact hexp.symm
  constructor
  · intro hall
    obtain ⟨hack, hdata', -⟩ := hall hfree'
    rw [hstation] at hack
    exact ⟨hdata.mp (hdata' hf.isType.type hinOrder), hack hfromNode⟩
  · rintro ⟨hpos, hack⟩ -
    refine ⟨fun _ => hstation ▸ hack, fun _ _ => hdata.mpr hpos, fun hc => ?_⟩
    rw [hf.isType.type] at hc
    cases hc

end MasterReceives

theorem submitAllocatedTxPacket_src {m m' : TxManager} {src dst : TNodeIndex} {type : PacketType} {size : UInt16}
    (h : submitAllocatedTxPacket m false 0 src dst type size = .ok m') : src.toNat < maxNodes := by
  unfold submitAllocatedTxPacket at h
  rw [if_neg (fun hc => Bool.noConfusion hc.1)] at h
  obtain ⟨_, hids, -⟩ := bind_eq_ok.mp h
  exact (microbusAssert_ok.mp hids).1

/-- A packet that a node submits from entry `entry`, the node when it chooses this entry later, and the master
that the frame reaches: any one that a run leads to, between two actions or with the schedule moved on. -/
structure UplinkTransfer where
  sender : Node
  entry : Nat
  size : UInt16
  submitted : Node
  allocated : sender.txManager.allocatedPacket = some entry
  submit : nodeSubmitAllocatedTxPacket sender size = .ok submitted
  later : Node
  held : (submitted.txManager.entry entry).packet.SameMessage false (later.txManager.entry entry).packet
  joined : later.nodeId ≠ unallocatedNodeId
  turn : ¬ later.keepsTxPacket
  chosen : ∃ m, nodeGetNextTxDataPacket later.txManager = .ok (some entry, m)
  cfg : MasterConfig
  run : MasterRun
  reachable : (masterSystem cfg).Reachable run
  master : Master
  position : master = run.master ∨ masterUpdateSchedule run.master = .ok master
  expects : expectedSeqNum (master.tx.txManager.rxSeqNum sender.nodeId) = (later.txManager.entry entry).packet.txSeqNum
  freeBuffer : (findFreeRxPacket master.rx.rxPacketManager).isSome

namespace UplinkTransfer

def data (t : UplinkTransfer) : PacketData := (t.sender.txManager.entry t.entry).packet.data

/-- The node sends the frame, the master takes it, and no assertion fails on the way. -/
def Arrives (t : UplinkTransfer) : Prop :=
  ∃ n frame m₁ k m₂, nodeProcessTx t.later = .ok n ∧ (nodeGetTxPacket n).2 = some frame ∧
    masterQuickRx (t.master.receive frame) false = .ok m₁ ∧ masterRx m₁ = .ok (k, m₂) ∧
    t.master.Receives m₂ t.sender.nodeId t.size.toNat t.data

theorem filled (t : UplinkTransfer) : t.sender.nodeId.toNat < maxNodes ∧
    FilledAs false t.sender.nodeId .nodeData t.size (t.later.txManager.entry t.entry).packet.txSeqNum t.data
      (t.later.txManager.entry t.entry).packet := by
  have h := t.submit
  unfold nodeSubmitAllocatedTxPacket at h
  obtain ⟨_, -, h⟩ := bind_eq_ok.mp h
  obtain ⟨_, -, h⟩ := bind_eq_ok.mp h
  obtain ⟨m, hm, h⟩ := bind_eq_ok.mp h
  refine ⟨submitAllocatedTxPacket_src hm, ?_⟩
  rcases submitAllocatedTxPacket_ok hm with ⟨hc, -, -⟩ | ⟨i, q, hi, -, -, -, -, -, rfl⟩
  · cases hc
  · obtain rfl : i = t.entry := Option.some.inj (hi.symm.trans t.allocated)
    have hheld := t.held
    rw [← pure_eq_ok.mp h] at hheld
    have hlater := (filledAs_submitEntry t.sender.txManager t.entry q).of_sameMessage hheld
    exact ⟨hlater.isType, hlater.size, rfl, hlater.station, hlater.data⟩

/-- The master finds the packets that the frame acknowledges. -/
def AckFound (t : UplinkTransfer) : Prop :=
  t.master.tx.txManager.AckFound true t.sender.nodeId (t.later.txManager.rxSeqNum masterNodeId)

theorem arrives_iff (t : UplinkTransfer) :
    t.Arrives ↔ (1 ≤ t.size.toNat ∧ t.size.toNat < maxPacketDataSize) ∧ t.AckFound := by
  obtain ⟨m, hget⟩ := t.chosen
  obtain ⟨hsrc, hfilled⟩ := t.filled
  obtain ⟨n, hprocess, frame, hframe, hmessage, hlevel, hack⟩ := nodeSends_data t.turn t.joined hget
  have hfilled' := hfilled.of_sameMessage hmessage
  have hring : 1 < t.master.rx.rxPacketManager.maxRxPacketEntries := by
    rcases t.position with heq | hs
    · rw [heq]
      exact rxSize_of_reachable t.reachable
    · exact ((keptByParts_rxSize _).updateSchedule rfl hs).symm ▸ rxSize_of_reachable t.reachable
  by_cases hsize : t.size.toNat < maxPacketDataSize
  · obtain ⟨m₁, hquick, hrx⟩ := completes_masterRx_data t.reachable t.position hsrc hfilled' hsize t.expects
      t.freeBuffer hlevel
    rw [hack] at hrx
    constructor
    · rintro ⟨n', frame', m₁', k, m₂, hn', hf', hq', hr', -⟩
      cases hprocess.symm.trans hn'
      cases hframe.symm.trans hf'
      cases hquick.symm.trans hq'
      obtain ⟨hpos, hfound⟩ := hrx.mp ⟨_, hr'⟩
      exact ⟨⟨hpos, hsize⟩, hfound⟩
    · rintro ⟨⟨hpos, -⟩, hfound⟩
      obtain ⟨⟨k, m₂⟩, hr⟩ := hrx.mpr ⟨hpos, hfound⟩
      exact ⟨n, frame, m₁, k, m₂, hprocess, hframe, hquick, hr,
        masterRx_receives hring hfilled' hsize t.expects t.freeBuffer hquick hr⟩
  · refine ⟨?_, fun hc => absurd hc.1.2 hsize⟩
    rintro ⟨n', frame', m₁', k', m₂', hn', hf', hq', hr', hend, -⟩
    cases hprocess.symm.trans hn'
    cases hframe.symm.trans hf'
    obtain ⟨m₁, hquick, hrx, hsame⟩ := masterRx_tooLong t.master hfilled' hsize
    cases hquick.symm.trans hq'
    cases hrx.symm.trans hr'
    rw [hsame] at hend
    exact absurd hend.symm (RxPacketManager.incrAndWrap_one_ne hring)

end UplinkTransfer

/-- A packet that the interface accepts gets through in either direction exactly when it is neither
empty nor as long as the data field and, from a node, its acknowledgement names packets that the master finds. -/
theorem accepted_packet_arrives_iff (down : DownlinkTransfer) (up : UplinkTransfer) :
    (down.Arrives ↔ 1 ≤ down.size.toNat ∧ down.size.toNat < maxPacketDataSize) ∧
      (up.Arrives ↔ (1 ≤ up.size.toNat ∧ up.size.toNat < maxPacketDataSize) ∧ up.AckFound) :=
  ⟨down.arrives_iff, up.arrives_iff⟩

/-- Node 1 has joined, the packet that it was sent is on its way, and the application of the master has allocated
another one. -/
def masterInTouch : List (MasterAction .dual) :=
  slot (joinFrame 7) ++ (List.replicate 22 (slot Packet.zero)).flatten ++ slot (ackFrame 1 nullSequenceNum) ++
    [.allocate, .submit 1 1] ++ slot Packet.zero ++ [.preProcess Packet.zero false fun _ => 0, .allocate]

/-- The node has taken that packet, and its application has allocated one. -/
def nodeInTouch : List (NodeAction .dual) :=
  nodeSlot Packet.zero ++ nodeSlot responseFrame ++ nodeSlot (scheduledFrame 0 invalidSequenceNum) ++
    nodeSlot firstMasterFrame ++ [.allocate]

/-- The packet of `size` bytes that the master submits to node 1 from entry 1 is chosen next, and expected. -/
def downlinkTest (sender : Master) (node : Node) (size : UInt16) : Bool :=
  decide (sender.tx.txManager.allocatedPacket = some 1 ∧ 0 < sender.masterNodeTimeToLive 1 ∧ node.nodeId = 1 ∧
      (findFreeRxPacket node.rxPacketManager).isSome = true) &&
    System.holdsAfter (masterSubmitAllocatedTxPacket sender 1 size) fun submitted =>
      decide (submitted.tx.DataTurn submitted.nwManager ∧ expectedSeqNum (node.txManager.rxSeqNum masterNodeId) =
        (submitted.tx.txManager.entry 1).packet.txSeqNum) &&
      System.holdsAfter (masterGetNextTxDataPacket submitted.tx.txManager masterBurstSize) fun r => r.1 == some 1

theorem exists_downlink {sender : Master} {cfg : NodeConfig} {node : Node} {size : UInt16}
    (hnode : (nodeSystem cfg).Reachable node) (h : downlinkTest sender node size = true) :
    ∃ t : DownlinkTransfer, t.size = size := by
  obtain ⟨hstart, h⟩ := Bool.and_eq_true_iff.mp h
  obtain ⟨hallocated, hregistered, hid, hfree⟩ := of_decide_eq_true hstart
  obtain ⟨submitted, hsubmit, h⟩ := System.exists_of_holdsAfter h
  obtain ⟨hsent, h⟩ := Bool.and_eq_true_iff.mp h
  obtain ⟨hturn, hexpects⟩ := of_decide_eq_true hsent
  obtain ⟨⟨r, m⟩, hget, hr⟩ := System.exists_of_holdsAfter h
  obtain rfl : r = some 1 := eq_of_beq hr
  exact ⟨{
    sender, entry := 1, dst := 1, size, submitted, allocated := hallocated, registered := hregistered
    submit := hsubmit, later := submitted, held := ⟨rfl, rfl, rfl, rfl, rfl, rfl⟩, turn :=
      hturn, chosen := ⟨m, hget⟩
    scheduler := submitted.scheduler, nextTxNodeId := submitted.nextTxNodeId, stray := fun _ => 0
    cfg, node, reachable := hnode, nodeId := hid, expects := hexpects, freeBuffer := hfree }, rfl⟩

/-- The packet of `size` bytes that node 1 submits from entry 0 is chosen next, and expected. -/
def uplinkTest (sender : Node) (master : Master) (size : UInt16) : Bool :=
  decide (sender.txManager.allocatedPacket = some 0 ∧ sender.nodeId = 1 ∧
      (findFreeRxPacket master.rx.rxPacketManager).isSome = true) &&
    System.holdsAfter (nodeSubmitAllocatedTxPacket sender size) fun submitted =>
      decide (submitted.nodeId ≠ unallocatedNodeId ∧ ¬ submitted.keepsTxPacket ∧
        expectedSeqNum (master.tx.txManager.rxSeqNum 1) = (submitted.txManager.entry 0).packet.txSeqNum ∧
        submitted.txManager.rxSeqNum masterNodeId = 0) &&
      System.holdsAfter (nodeGetNextTxDataPacket submitted.txManager) fun r => r.1 == some 0

theorem exists_uplink {sender : Node} {cfg : MasterConfig} {run : MasterRun} {size : UInt16}
    (hrun : (masterSystem cfg).Reachable run) (h : uplinkTest sender run.master size = true) :
    ∃ t : UplinkTransfer, t.size = size ∧
      (t.AckFound ↔ Completes (rxAckSeqNum run.master.tx.txManager 1 0 true)) := by
  obtain ⟨hstart, h⟩ := Bool.and_eq_true_iff.mp h
  obtain ⟨hallocated, hid, hfree⟩ := of_decide_eq_true hstart
  obtain ⟨submitted, hsubmit, h⟩ := System.exists_of_holdsAfter h
  obtain ⟨hsent, h⟩ := Bool.and_eq_true_iff.mp h
  obtain ⟨hjoined, hturn, hexpects, hack⟩ := of_decide_eq_true hsent
  obtain ⟨⟨r, m⟩, hget, hr⟩ := System.exists_of_holdsAfter h
  obtain rfl : r = some 0 := eq_of_beq hr
  rw [← hid] at hexpects
  refine ⟨{
    sender, entry := 0, size, submitted, allocated := hallocated, submit := hsubmit, later := submitted
    held := ⟨rfl, rfl, rfl, rfl, rfl, rfl⟩, joined := hjoined, turn := hturn, chosen := ⟨m, hget⟩
    cfg, run, reachable := hrun, master := run.master, position := Or.inl rfl
    expects := hexpects, freeBuffer := hfree }, rfl, ?_⟩
  have hnumbered := numbered_of_reachable hrun
  unfold UplinkTransfer.AckFound
  rw [completes_rxAck (hnumbered.start 1) (hnumbered.stop 1) (by rw [hnumbered.table]; decide)]
  change run.master.tx.txManager.AckFound true sender.nodeId (submitted.txManager.rxSeqNum masterNodeId) ↔ _
  rw [hid, hack]

/-- Packets of three bytes arrive in both directions, the one to the master with an acknowledgement that it takes. -/
theorem accepted_packet_arrives_iff_three :
    ∃ down : DownlinkTransfer, ∃ up : UplinkTransfer,
      down.size = 3 ∧ up.size = 3 ∧ down.Arrives ∧ up.Arrives := by
  obtain ⟨s, hrun, hs⟩ := System.exists_of_holdsAfter (x := (masterSystem dualConfig).run blankRun masterInTouch)
    (p := fun s => System.holdsAfter (rxAckSeqNum s.master.tx.txManager 1 0 true) (fun _ => true) &&
      System.holdsAfter ((nodeSystem dualNodeConfig).run blankNode nodeInTouch) fun node =>
        downlinkTest s.master node 3 && uplinkTest node s.master 3) (by decide +kernel)
  obtain ⟨hack, hs⟩ := Bool.and_eq_true_iff.mp hs
  obtain ⟨node, hjoined, hboth⟩ := System.exists_of_holdsAfter hs
  obtain ⟨hdown, hup⟩ := Bool.and_eq_true_iff.mp hboth
  obtain ⟨r, hr, -⟩ := System.exists_of_holdsAfter hack
  obtain ⟨down, hdown⟩ := exists_downlink (System.Reachable.run (.init blankNode_init) hjoined) hdown
  obtain ⟨up, hup, hfound⟩ := exists_uplink (System.Reachable.run (.init blankRun_init) hrun) hup
  obtain ⟨hdownIff, hupIff⟩ := accepted_packet_arrives_iff down up
  refine ⟨down, up, hdown, hup, hdownIff.mpr ?_, hupIff.mpr ⟨?_, hfound.mpr ⟨r, hr⟩⟩⟩
  · rw [hdown]
    decide
  · rw [hup]
    decide

/-- In both directions an empty packet and one that fills the data field are lost. When the master has dropped its
packets, a packet of three bytes is lost too that acknowledges one of them. -/
theorem accepted_packet_lost :
    ((∃ t : DownlinkTransfer, t.size = 0 ∧ ¬ t.Arrives) ∧
      ∃ t : DownlinkTransfer, t.size = 178 ∧ ¬ t.Arrives) ∧
      ((∃ t : UplinkTransfer, t.size = 0 ∧ ¬ t.Arrives) ∧
        ∃ t : UplinkTransfer, t.size = 178 ∧ ¬ t.Arrives) ∧
      ∃ t : UplinkTransfer, t.size = 3 ∧ ¬ t.Arrives := by
  obtain ⟨s, hrun, hs⟩ := System.exists_of_holdsAfter (x := (masterSystem dualConfig).run blankRun masterInTouch)
    (p := fun s => System.holdsAfter ((nodeSystem dualNodeConfig).run blankNode nodeInTouch) fun node =>
      (downlinkTest s.master node 0 && downlinkTest s.master node 178) &&
        (uplinkTest node s.master 0 && uplinkTest node s.master 178) &&
        (System.faultOf (rxAckSeqNum (masterResetTxCredits s.master).tx.txManager 1 0 true) ==
            some (.assertFailed .findPacketEntry) &&
          uplinkTest node (masterResetTxCredits s.master) 3)) (by decide +kernel)
  obtain ⟨node, hjoined, hs⟩ := System.exists_of_holdsAfter hs
  simp only [Bool.and_eq_true] at hs
  obtain ⟨⟨⟨hdown₀, hdown₁⟩, hup₀, hup₁⟩, hfault, hup₂⟩ := hs
  have hmaster : (masterSystem dualConfig).Reachable s := System.Reachable.run (.init blankRun_init) hrun
  have hnode : (nodeSystem dualNodeConfig).Reachable node := System.Reachable.run (.init blankNode_init) hjoined
  obtain ⟨down₀, hdown₀⟩ := exists_downlink hnode hdown₀
  obtain ⟨down₁, hdown₁⟩ := exists_downlink hnode hdown₁
  obtain ⟨up₀, hup₀, -⟩ := exists_uplink hmaster hup₀
  obtain ⟨up₁, hup₁, -⟩ := exists_uplink hmaster hup₁
  have hreset : (masterSystem dualConfig).Reachable { s with master := masterResetTxCredits s.master } :=
    .step (a := .resetTxCredits) hmaster trivial rfl
  obtain ⟨up₂, hup₂, hfound⟩ := exists_uplink hreset hup₂
  refine ⟨⟨⟨down₀, hdown₀, ?_⟩, down₁, hdown₁, ?_⟩, ⟨⟨up₀, hup₀, ?_⟩, up₁, hup₁, ?_⟩,
    up₂, hup₂, ?_⟩
  · rw [DownlinkTransfer.arrives_iff, hdown₀]
    decide
  · rw [DownlinkTransfer.arrives_iff, hdown₁]
    decide
  · rw [UplinkTransfer.arrives_iff, hup₀]
    exact fun hc => absurd hc.1.1 (by decide)
  · rw [UplinkTransfer.arrives_iff, hup₁]
    exact fun hc => absurd hc.1.2 (by decide)
  · rw [UplinkTransfer.arrives_iff, hfound, System.eq_error_of_faultOf (eq_of_beq hfault)]
    exact fun hc => Completes.not_error hc.2

end Microbus
