import Microbus.MasterFrames

/-! A master and its nodes on one bus, slot by slot, as `runSingleChannel` and `runDualChannel` run
them. -/
namespace Microbus

open Transition

/-- What a device hears of a frame that was sent to it. -/
inductive Hearing
  | lost
  | corrupt (noise : Packet)
  | intact

/-- The receive memory and the `crcError` of a node. -/
def Hearing.received (downlink : Option Packet) : Hearing → Packet × Bool
  | .lost => (Packet.zero, false)
  | .corrupt noise => (noise, true)
  | .intact => (downlink.getD Packet.zero, false)

inductive Uplink (n : Nat)
  | lost
  | corrupt (noise : Packet)
  | intact (i : Fin n)

def Uplink.received {n : Nat} (uplink : Fin n → Option Packet) : Uplink n → Packet × Bool
  | .lost => (Packet.zero, false)
  | .corrupt noise => (noise, true)
  | .intact i => ((uplink i).getD Packet.zero, false)

/-- What the devices find in a slot: the time that passed, the frames that reach them, and the memory
behind the table `rxSeqNum` of the master. -/
structure SlotInput (n : Nat) where
  masterUs : UInt32
  nodeUs : Fin n → UInt32
  hearing : Fin n → Hearing
  uplink : Uplink n
  stray : TNodeIndex → UInt8

/-- The devices and the frames that they sent in the last slot. `heldRxSeqNum` is history: the table
`rxSeqNum` of the master when it built `downlink`. -/
structure Bus (n : Nat) where
  master : Master
  node : Fin n → Node
  downlink : Option Packet
  uplink : Fin n → Option Packet
  heldRxSeqNum : TNodeIndex → UInt8

/-- The part of a node in a slot of the single channel, and the frame that it sends. -/
def Node.runSingleChannel (node : Node) (usIncr : UInt32) (downlink : Option Packet) (hearing : Hearing) :
    Except Fault (Node × Option Packet) := do
  let (isTx, node) ← nodeIsTxMode (nodeUpdateTimeUs node usIncr)
  if isTx then
    nodeNoDelaySingleChannelProcessTx node
  else
    let (frame, crcError) := hearing.received downlink
    let node ← nodeNoDelaySingleChannelProcessRx (node.receive frame) crcError
    return (node, none)

/-- The part of a node in a slot of the dual channel; `downlink` is the frame of the slot before. -/
def Node.runDualChannel (node : Node) (usIncr : UInt32) (downlink : Option Packet) (hearing : Hearing) :
    Except Fault (Node × Option Packet) := do
  let node ← nodeDualChannelPipelinedPostProcess (nodeUpdateTimeUs node usIncr)
  let (frame, crcError) := hearing.received downlink
  nodeDualChannelPipelinedPreProcess (node.receive frame) crcError

namespace Bus

variable {n : Nat}

def afterSlot (master : Master) (downlink : Option Packet) (slots : Fin n → Node × Option Packet) : Bus n where
  master
  node := fun i => (slots i).1
  downlink
  uplink := fun i => (slots i).2
  heldRxSeqNum := master.tx.txManager.rxSeqNum

def runSingleChannel (bus : Bus n) (input : SlotInput n) : Except Fault (Bus n) := do
  let master := masterUpdateTimeUs bus.master input.masterUs
  if bus.master.currentTxNodeId = masterNodeId then
    let (_, master, downlink) ← masterNoDelaySingleChannelProcessTx master input.stray
    let slots ← collect fun i => (bus.node i).runSingleChannel (input.nodeUs i) downlink (input.hearing i)
    return afterSlot master downlink slots
  else
    let slots ← collect fun i => (bus.node i).runSingleChannel (input.nodeUs i) none (input.hearing i)
    let (frame, crcError) := input.uplink.received fun i => (slots i).2
    let (_, master) ← masterNoDelaySingleChannelProcessRx (master.receive frame) crcError
    return afterSlot master none slots

def runDualChannel (bus : Bus n) (input : SlotInput n) : Except Fault (Bus n) := do
  let (_, master) ← masterDualChannelPipelinedPostProcess (masterUpdateTimeUs bus.master input.masterUs)
  let (frame, crcError) := input.uplink.received bus.uplink
  let (master, downlink) ← masterDualChannelPipelinedPreProcess (master.receive frame) crcError input.stray
  let slots ← collect fun i => (bus.node i).runDualChannel (input.nodeUs i) bus.downlink (input.hearing i)
  return afterSlot master downlink slots

end Bus

inductive MasterCall
  | allocate
  | write (data : PacketData)
  | submit (dstNodeId : TNodeIndex) (numBytes : UInt16)
  | peek
  | pop
  | getConnectedNodes
  | resetTxCredits

inductive NodeCall
  | allocate
  | write (data : PacketData)
  | submit (numBytes : UInt16)
  | peek
  | pop
  | reset

def MasterCall.action (mode : ChannelMode) : MasterCall → MasterAction mode
  | .allocate => .allocate
  | .write data => .write data
  | .submit dstNodeId numBytes => .submit dstNodeId numBytes
  | .peek => .peek
  | .pop => .pop
  | .getConnectedNodes => .getConnectedNodes
  | .resetTxCredits => .resetTxCredits

def NodeCall.action (mode : ChannelMode) : NodeCall → NodeAction mode
  | .allocate => .allocate
  | .write data => .write data
  | .submit numBytes => .submit numBytes
  | .peek => .peek
  | .pop => .pop
  | .reset => .reset

def Master.call (master : Master) : MasterCall → Except Fault Master
  | .allocate => do
      let (_, master) ← masterAllocateTxPacket master
      return master
  | .write data => .ok (masterWriteAllocatedPacket master data)
  | .submit dstNodeId numBytes => masterSubmitAllocatedTxPacket master dstNodeId numBytes
  | .peek => do
      let (_, master) ← masterPeekNextRxDataPacket master
      return master
  | .pop => masterPopNextDataPacket master
  | .getConnectedNodes => do
      let (master, _) ← getConnectedNodesBitField master
      return master
  | .resetTxCredits => .ok (masterResetTxCredits master)

/-- The applications call between slots. -/
inductive BusAction (n : Nat)
  | slot (input : SlotInput n)
  | master (call : MasterCall)
  | node (i : Fin n) (call : NodeCall)

def Bus.step {n : Nat} (mode : ChannelMode) (bus : Bus n) : BusAction n → Except Fault (Bus n)
  | .slot input =>
      match mode with
      | .single => bus.runSingleChannel input
      | .dual => bus.runDualChannel input
  | .master call => do
      let master ← bus.master.call call
      return { bus with master }
  | .node i call => do
      let node ← (bus.node i).step (call.action mode)
      return { bus with node := Function.update bus.node i node }

/-- The parameters of `masterInit` and of each `nodeInit`. -/
structure BusConfig (n : Nat) where
  master : MasterConfig
  uniqueId : Fin n → UInt64
  maxTxPacketEntries : Fin n → UInt8
  maxRxPacketEntries : Fin n → UInt8

def BusConfig.node {n : Nat} (cfg : BusConfig n) (i : Fin n) : NodeConfig :=
  ⟨cfg.master.mode, cfg.uniqueId i, cfg.maxTxPacketEntries i, cfg.maxRxPacketEntries i⟩

/-- All devices are initialised before the first slot, with packet memory that may hold anything. -/
def busSystem {n : Nat} (cfg : BusConfig n) : System (Bus n) (BusAction n) Fault where
  init bus := (∃ entries, masterInit cfg.master.numTxNodesScheduled cfg.master.maxTxPacketEntries entries
      cfg.master.maxRxPacketEntries = .ok bus.master) ∧
    (∀ i, (nodeSystem (cfg.node i)).init (bus.node i)) ∧ bus.downlink = none ∧ bus.uplink = fun _ => none
  step := Bus.step cfg.master.mode

section Slots

variable {n : Nat} {bus bus' : Bus n} {input : SlotInput n}

theorem Bus.runSingleChannel_tx (hslot : bus.master.currentTxNodeId = masterNodeId)
    (h : bus.runSingleChannel input = .ok bus') :
    ∃ k master downlink slots, masterNoDelaySingleChannelProcessTx (masterUpdateTimeUs bus.master input.masterUs)
        input.stray = .ok (k, master, downlink) ∧
      (∀ i, (bus.node i).runSingleChannel (input.nodeUs i) downlink (input.hearing i) = .ok (slots i)) ∧
      bus' = .afterSlot master downlink slots := by
  unfold runSingleChannel at h
  dsimp only at h
  rw [if_pos hslot] at h
  obtain ⟨⟨k, master, downlink⟩, htx, h⟩ := bind_eq_ok.mp h
  obtain ⟨slots, hslots, h⟩ := bind_eq_ok.mp h
  cases h
  exact ⟨k, master, downlink, slots, htx, collect_eq_ok.mp hslots, rfl⟩

theorem Bus.runSingleChannel_rx (hslot : bus.master.currentTxNodeId ≠ masterNodeId)
    (h : bus.runSingleChannel input = .ok bus') :
    ∃ k master slots, (∀ i, (bus.node i).runSingleChannel (input.nodeUs i) none (input.hearing i) =
      .ok (slots i)) ∧
      masterNoDelaySingleChannelProcessRx ((masterUpdateTimeUs bus.master input.masterUs).receive
        (input.uplink.received fun i => (slots i).2).1) (input.uplink.received fun i => (slots i).2).2 =
          .ok (k, master) ∧
      bus' = .afterSlot master none slots := by
  unfold runSingleChannel at h
  dsimp only at h
  rw [if_neg hslot] at h
  obtain ⟨slots, hslots, h⟩ := bind_eq_ok.mp h
  obtain ⟨⟨k, master⟩, hrx, h⟩ := bind_eq_ok.mp h
  cases h
  exact ⟨k, master, slots, collect_eq_ok.mp hslots, hrx, rfl⟩

theorem Bus.runDualChannel_ok (h : bus.runDualChannel input = .ok bus') :
    ∃ k m master downlink slots,
      masterDualChannelPipelinedPostProcess (masterUpdateTimeUs bus.master input.masterUs) = .ok (k, m) ∧
      masterDualChannelPipelinedPreProcess (m.receive (input.uplink.received bus.uplink).1)
        (input.uplink.received bus.uplink).2 input.stray = .ok (master, downlink) ∧
      (∀ i, (bus.node i).runDualChannel (input.nodeUs i) bus.downlink (input.hearing i) = .ok (slots i)) ∧
      bus' = .afterSlot master downlink slots := by
  obtain ⟨⟨k, m⟩, hpost, h⟩ := bind_eq_ok.mp h
  obtain ⟨⟨master, downlink⟩, hpre, h⟩ := bind_eq_ok.mp h
  obtain ⟨slots, hslots, h⟩ := bind_eq_ok.mp h
  cases h
  exact ⟨k, m, master, downlink, slots, hpost, hpre, collect_eq_ok.mp hslots, rfl⟩

end Slots

def MasterConfig.Reaches (cfg : MasterConfig) (master : Master) : Prop :=
  ∃ s, (masterSystem cfg).Reachable s ∧ s.master = master

section Master

variable {cfg : MasterConfig} {master master' : Master}

theorem MasterConfig.Reaches.step (h : cfg.Reaches master) (a : MasterAction cfg.mode)
    (hs : ∀ s : MasterRun, s.master = master → ∃ s', s.step a = .ok s' ∧ s'.master = master') :
    cfg.Reaches master' := by
  obtain ⟨s, hreach, hmaster⟩ := h
  obtain ⟨s', hstep, hmaster'⟩ := hs s hmaster
  exact ⟨s', .step hreach trivial hstep, hmaster'⟩

theorem MasterConfig.Reaches.updateTimeUs (h : cfg.Reaches master) (usIncr : UInt32) :
    cfg.Reaches (masterUpdateTimeUs master usIncr) :=
  h.step (.updateTimeUs usIncr) fun s hs =>
    ⟨{ s with master := masterUpdateTimeUs s.master usIncr }, rfl, by rw [← hs]⟩

theorem MasterRun.step_call {mode : ChannelMode} {s : MasterRun} {call : MasterCall}
    (hc : s.master.call call = .ok master') :
    ∃ s', s.step (call.action mode) = .ok s' ∧ s'.master = master' := by
  cases call with
  | allocate =>
      obtain ⟨⟨r, m⟩, halloc, hc⟩ := bind_eq_ok.mp hc
      cases hc
      exact ⟨{ s with master := master' }, bind_eq_ok.mpr ⟨(r, master'), halloc, rfl⟩, rfl⟩
  | write data =>
      cases hc
      exact ⟨_, rfl, rfl⟩
  | submit dst numBytes =>
      by_cases habsent : s.master.masterNodeTimeToLive dst = 0
      · exact ⟨_, bind_eq_ok.mpr ⟨master', hc, if_pos habsent⟩, rfl⟩
      · exact ⟨_, bind_eq_ok.mpr ⟨master', hc, if_neg habsent⟩, rfl⟩
  | peek =>
      obtain ⟨⟨r, m⟩, hpeek, hc⟩ := bind_eq_ok.mp hc
      cases hc
      exact ⟨{ s with master := master' }, bind_eq_ok.mpr ⟨(r, master'), hpeek, rfl⟩, rfl⟩
  | pop => exact ⟨{ s with master := master' }, bind_eq_ok.mpr ⟨master', hc, rfl⟩, rfl⟩
  | getConnectedNodes =>
      obtain ⟨⟨m, bits⟩, hget, hc⟩ := bind_eq_ok.mp hc
      cases hc
      exact ⟨{ s with master := master' }, bind_eq_ok.mpr ⟨(master', bits), hget, rfl⟩, rfl⟩
  | resetTxCredits =>
      cases hc
      exact ⟨_, rfl, rfl⟩

theorem MasterConfig.Reaches.call (h : cfg.Reaches master) {call : MasterCall} (hc : master.call call = .ok master') :
    cfg.Reaches master' := by
  refine h.step (call.action cfg.mode) fun s hs => ?_
  subst hs
  exact MasterRun.step_call hc

end Master

section Devices

variable {n : Nat} {cfg : BusConfig n} {bus bus' : Bus n}

theorem BusConfig.master_step (h : cfg.master.Reaches bus.master) {a : BusAction n}
    (hs : bus.step cfg.master.mode a = .ok bus') : cfg.master.Reaches bus'.master := by
  obtain ⟨⟨mode, numTx, maxTx, maxRx⟩, uid, maxTxs, maxRxs⟩ := cfg
  cases a with
  | slot input =>
      have htime := h.updateTimeUs input.masterUs
      cases mode with
      | single =>
          by_cases hslot : bus.master.currentTxNodeId = masterNodeId
          · obtain ⟨k, master, downlink, slots, htx, -, rfl⟩ := Bus.runSingleChannel_tx hslot hs
            refine htime.step (.processTx input.stray) fun s hmaster => ?_
            rw [← hmaster] at htx
            exact ⟨s.afterTx master, bind_eq_ok.mpr ⟨(k, master, downlink), htx, rfl⟩, rfl⟩
          · obtain ⟨k, master, slots, -, hrx, rfl⟩ := Bus.runSingleChannel_rx hslot hs
            generalize input.uplink.received (fun i => (slots i).2) = received at hrx
            refine htime.step (.processRx received.1 received.2) fun s hmaster => ?_
            rw [← hmaster] at hrx
            exact ⟨{ s with master }, bind_eq_ok.mpr ⟨(k, master), hrx, rfl⟩, rfl⟩
      | dual =>
          obtain ⟨k, m, master, downlink, slots, hpost, hpre, -, rfl⟩ := Bus.runDualChannel_ok hs
          have hm : MasterConfig.Reaches ⟨.dual, numTx, maxTx, maxRx⟩ m := by
            refine htime.step .postProcess fun s hmaster => ?_
            rw [← hmaster] at hpost
            exact ⟨s.afterTx m, bind_eq_ok.mpr ⟨(k, m), hpost, rfl⟩, rfl⟩
          generalize input.uplink.received bus.uplink = received at hpre
          refine hm.step (.preProcess received.1 received.2 input.stray) fun s hmaster => ?_
          subst hmaster
          exact ⟨{ s with master }, bind_eq_ok.mpr ⟨(master, downlink), hpre, rfl⟩, rfl⟩
  | master call =>
      obtain ⟨master, hcall, hs⟩ := bind_eq_ok.mp hs
      cases hs
      exact h.call hcall
  | node i call =>
      obtain ⟨node, -, hs⟩ := bind_eq_ok.mp hs
      cases hs
      exact h

theorem Node.runSingleChannel_ok {node node' : Node} {usIncr : UInt32} {downlink frame : Option Packet}
    {hearing : Hearing} (h : node.runSingleChannel usIncr downlink hearing = .ok (node', frame)) :
    ∃ isTx m, nodeIsTxMode (nodeUpdateTimeUs node usIncr) = .ok (isTx, m) ∧
      ((isTx = true ∧ nodeNoDelaySingleChannelProcessTx m = .ok (node', frame)) ∨
        (isTx = false ∧ nodeNoDelaySingleChannelProcessRx (m.receive (hearing.received downlink).1)
          (hearing.received downlink).2 = .ok node' ∧ frame = none)) := by
  obtain ⟨⟨isTx, m⟩, hmode, h⟩ := bind_eq_ok.mp h
  refine ⟨isTx, m, hmode, ?_⟩
  cases isTx with
  | true => exact Or.inl ⟨rfl, h⟩
  | false =>
      obtain ⟨m', hrx, h⟩ := bind_eq_ok.mp h
      cases h
      exact Or.inr ⟨rfl, hrx, rfl⟩

theorem Node.runDualChannel_ok {node node' : Node} {usIncr : UInt32} {downlink frame : Option Packet}
    {hearing : Hearing} (h : node.runDualChannel usIncr downlink hearing = .ok (node', frame)) :
    ∃ m, nodeDualChannelPipelinedPostProcess (nodeUpdateTimeUs node usIncr) = .ok m ∧
      nodeDualChannelPipelinedPreProcess (m.receive (hearing.received downlink).1) (hearing.received downlink).2 =
        .ok (node', frame) :=
  bind_eq_ok.mp h

theorem NodeConfig.reachable_step {cfg : NodeConfig} {node node' : Node} (h : (nodeSystem cfg).Reachable node)
    (a : NodeAction cfg.mode) (hs : node.step a = .ok node') : (nodeSystem cfg).Reachable node' :=
  .step h trivial hs

theorem BusConfig.node_step {i : Fin n} (h : (nodeSystem (cfg.node i)).Reachable (bus.node i)) {a : BusAction n}
    (hs : bus.step cfg.master.mode a = .ok bus') : (nodeSystem (cfg.node i)).Reachable (bus'.node i) := by
  obtain ⟨⟨mode, numTx, maxTx, maxRx⟩, uid, maxTxs, maxRxs⟩ := cfg
  cases a with
  | slot input =>
      have htime := NodeConfig.reachable_step h (.updateTimeUs (input.nodeUs i)) rfl
      cases mode with
      | single =>
          have hslot : ∃ downlink frame, (bus.node i).runSingleChannel (input.nodeUs i) downlink (input.hearing i) =
              .ok (bus'.node i, frame) := by
            by_cases hslot : bus.master.currentTxNodeId = masterNodeId
            · obtain ⟨_, _, downlink, slots, -, hslots, rfl⟩ := Bus.runSingleChannel_tx hslot hs
              exact ⟨downlink, _, hslots i⟩
            · obtain ⟨_, _, slots, hslots, -, rfl⟩ := Bus.runSingleChannel_rx hslot hs
              exact ⟨none, _, hslots i⟩
          obtain ⟨downlink, frame, hslot⟩ := hslot
          obtain ⟨isTx, m, hmode, hrest⟩ := Node.runSingleChannel_ok hslot
          have hm := NodeConfig.reachable_step htime NodeAction.isTxMode (bind_eq_ok.mpr ⟨(isTx, m), hmode, rfl⟩)
          generalize (input.hearing i).received downlink = received at hrest
          rcases hrest with ⟨-, htx⟩ | ⟨-, hrx, -⟩
          · exact NodeConfig.reachable_step hm NodeAction.processTx (bind_eq_ok.mpr ⟨(_, frame), htx, rfl⟩)
          · exact NodeConfig.reachable_step hm (NodeAction.processRx received.1 received.2) hrx
      | dual =>
          obtain ⟨_, _, _, _, slots, -, -, hslots, rfl⟩ := Bus.runDualChannel_ok hs
          obtain ⟨m, hpost, hpre⟩ := Node.runDualChannel_ok (hslots i)
          have hm := NodeConfig.reachable_step htime NodeAction.postProcess hpost
          generalize (input.hearing i).received bus.downlink = received at hpre
          exact NodeConfig.reachable_step hm (NodeAction.preProcess received.1 received.2)
            (bind_eq_ok.mpr ⟨slots i, hpre, rfl⟩)
  | master call =>
      obtain ⟨master, -, hs⟩ := bind_eq_ok.mp hs
      cases hs
      exact h
  | node j call =>
      obtain ⟨node, hcall, hs⟩ := bind_eq_ok.mp hs
      cases hs
      by_cases hij : i = j
      · subst hij
        change (nodeSystem _).Reachable (Function.update bus.node i node i)
        rw [Function.update_self]
        exact NodeConfig.reachable_step h (call.action mode) hcall
      · change (nodeSystem _).Reachable (Function.update bus.node j node i)
        rw [Function.update_of_ne hij]
        exact h

/-- Every device on the bus is in a state that it reaches alone. -/
theorem devices_of_reachable (h : (busSystem cfg).Reachable bus) :
    cfg.master.Reaches bus.master ∧ ∀ i, (nodeSystem (cfg.node i)).Reachable (bus.node i) := by
  refine System.ReachableWhen.invariant (P := fun bus => cfg.master.Reaches bus.master ∧
    ∀ i, (nodeSystem (cfg.node i)).Reachable (bus.node i)) h ?_ ?_
  · rintro bus ⟨⟨entries, hmaster⟩, hnodes, -, -⟩
    exact ⟨⟨⟨bus.master, fun _ _ => none, []⟩, .init ⟨entries, hmaster, rfl, rfl⟩, rfl⟩, fun i =>
      .init (hnodes i)⟩
  · intro bus a bus' hp _ hs
    exact ⟨BusConfig.master_step hp.1 hs, fun i => BusConfig.node_step (hp.2 i) hs⟩

end Devices

/-- A master that announces `numTxNodesScheduled` slots, and one node whose first two back-offs are 0. -/
def oneNodeConfig (mode : ChannelMode) (numTxNodesScheduled : UInt8) : BusConfig 1 where
  master := ⟨mode, numTxNodesScheduled, 4, 4⟩
  uniqueId _ := 137
  maxTxPacketEntries _ := 4
  maxRxPacketEntries _ := 4

/-- The devices as they are initialised; `entries` is what the packet memory of the master holds. -/
def freshBus (numTxNodesScheduled : UInt8) (entries : Nat → PacketEntry) : Bus 1 where
  master := { freshMaster entries with scheduler := schedulerInit numTxNodesScheduled 80 }
  node _ := freshNode 137 fun _ => ⟨false, Packet.zero⟩
  downlink := none
  uplink _ := none
  heldRxSeqNum _ := 0

theorem freshBus_init (mode : ChannelMode) (numTxNodesScheduled : UInt8) (entries : Nat → PacketEntry) :
    (busSystem (oneNodeConfig mode numTxNodesScheduled)).init (freshBus numTxNodesScheduled entries) :=
  ⟨⟨entries, rfl⟩, fun _ => ⟨_, rfl⟩, rfl, rfl⟩

def clearSlot : SlotInput 1 where
  masterUs := 0
  nodeUs _ := 0
  hearing _ := .intact
  uplink := .intact 0
  stray _ := 0

end Microbus
