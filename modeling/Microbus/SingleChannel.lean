import Microbus.Schedule

/-! The single channel: whose slot it is, as each device sees it. -/
namespace Microbus

open Transition Announce

/-- What a slot makes of the schedule of a node, once that has moved down to `mid`. -/
inductive SingleSlotResult (node : Node) (received : Packet × Bool) (mid : Nat → TNodeIndex) :
    Node → Option Packet → Prop
  | sends {node' frame} : node.currentTxNodeId = node.nodeId → node'.slots = mid →
      SingleSlotResult node received mid node' frame
  | reset {node'} : node.currentTxNodeId ≠ node.nodeId → nodeReadsFrame received.1 received.2 →
      received.1.getPacketType = some .masterReset → (∀ k, node'.slots k = masterNodeId) →
      (¬ node.timedOut → node.nodeId ≠ unallocatedNodeId) → SingleSlotResult node received mid node' none
  | hears {node'} : node.currentTxNodeId ≠ node.nodeId → CarriesSchedule received.1 received.2 →
      node'.slots 0 = mid 0 →
      (∀ k (hk : k < maxTxNodesScheduled), node'.slots (k + 1) = received.1.nextTxNodeId ⟨k, hk⟩) →
      SingleSlotResult node received mid node' none
  | misses {node'} : node.currentTxNodeId ≠ node.nodeId → ¬ CarriesSchedule received.1 received.2 →
      node'.slots = mid →
      SingleSlotResult node received mid node' none

def Node.slotsKept (node : Node) : Nat → TNodeIndex := if node.timedOut then fun _ => masterNodeId else node.slots

section Node

variable {node node' : Node} {usIncr : UInt32} {downlink frame : Option Packet} {hearing : Hearing}

theorem Node.runSingleChannel_slots (hready : node.Ready)
    (h : node.runSingleChannel usIncr downlink hearing = .ok (node', frame)) :
    ∃ mid, Shifted maxTxNodesScheduled (nodeUpdateTimeUs node usIncr).slotsKept mid ∧
      mid maxTxNodesScheduled = invalidNodeId ∧
      SingleSlotResult (nodeUpdateTimeUs node usIncr) (hearing.received downlink) mid node' frame := by
  generalize htime : nodeUpdateTimeUs node usIncr = timed
  have hready' : timed.Ready := htime ▸ hready.congr rfl rfl rfl
  obtain ⟨isTx, m, hmode, hrest⟩ := Node.runSingleChannel_ok h
  rw [htime] at hmode
  obtain ⟨m', hcheck, rfl, rfl⟩ := nodeIsTxMode_ok hready'.initialised hmode
  have hinit := (hready'.checkIfTimedOut hcheck).initialised
  have hkept : m'.slots = timed.slotsKept ∧ (¬ timed.timedOut → m'.nodeId = timed.nodeId) := by
    unfold Node.slotsKept
    rcases nodeCheckIfTimedOut_ok hcheck with ⟨hnot, rfl⟩ | ⟨hout, hfresh, -⟩
    · rw [if_neg hnot]
      exact ⟨rfl, fun _ => rfl⟩
    · rw [if_pos hout]
      exact ⟨funext hfresh.slots, fun hc => absurd hout hc⟩
  obtain ⟨hshift, hlast⟩ := nodeUpdateSchedule_slots m'
  rw [hkept.1] at hshift
  refine ⟨(nodeUpdateSchedule m').slots, hshift, hlast, ?_⟩
  rcases hrest with ⟨htx, hsend⟩ | ⟨htx, hrx, rfl⟩
  · refine .sends (beq_iff_eq.mp htx) ?_
    exact (nodeNoDelayProcessTx_ok (show (nodeUpdateSchedule m').initialised = true from hinit) hsend).slots
  · have howner : timed.currentTxNodeId ≠ timed.nodeId := fun hc => by
      rw [hc, beq_self_eq_true] at htx
      cases htx
    obtain ⟨q, hquick, hrx⟩ := nodeNoDelayProcessRx_ok
      (show ((nodeUpdateSchedule m').receive (hearing.received downlink).1).initialised = true from hinit) hrx
    have hslots := nodeProcessRx_slots hrx
    rcases nodeQuick_slots (show ((nodeUpdateSchedule m').receive (hearing.received downlink).1).initialised =
      true from hinit)
        ((nodeUpdateSchedule m').packetAt_receive _) hquick with
      ⟨hreset, hfresh⟩ | ⟨-, hcurrent, -, ⟨hcarries, hnext⟩ | ⟨hnot, hsame⟩⟩
    · refine .reset howner hreset.2.1 hreset.2.2 (fun k => ?_) fun hnot hid => hreset.1 ((hkept.2 hnot).trans hid)
      rw [hslots]
      exact hfresh.slots k
    · refine .hears howner hcarries ?_ fun k hk => ?_
      · rw [hslots]
        exact hcurrent
      · rw [hslots]
        exact hnext k hk
    · refine .misses howner hnot ?_
      rw [hslots]
      exact hsame

theorem SingleSlotResult.owner {received : Packet × Bool} {mid : Nat → TNodeIndex}
    (h : SingleSlotResult node received mid node' frame) (hsent : frame ≠ none) :
    node.currentTxNodeId = node.nodeId := by
  cases h with
  | sends howner _ => exact howner
  | reset _ _ _ _ _ => exact absurd rfl hsent
  | hears _ _ _ _ => exact absurd rfl hsent
  | misses _ _ _ => exact absurd rfl hsent

/-- What a node knows of the schedule stays right, whatever it hears of the frames of the master. -/
theorem Node.runSingleChannel_follows {slots slots' : Nat → TNodeIndex} (hready : node.Ready)
    (hfollows : Follows NoOwner maxTxNodesScheduled slots node.slots)
    (hslots : Shifted maxTxNodesScheduled slots slots')
    (hdown : ∀ p ∈ downlink, ∀ k (hk : k < maxTxNodesScheduled), p.nextTxNodeId ⟨k, hk⟩ = slots' (k + 1))
    (h : node.runSingleChannel usIncr downlink hearing = .ok (node', frame)) :
    Follows NoOwner maxTxNodesScheduled slots' node'.slots := by
  obtain ⟨mid, hshift, hlast, hresult⟩ := Node.runSingleChannel_slots hready h
  have hkept : Follows NoOwner maxTxNodesScheduled slots (nodeUpdateTimeUs node usIncr).slotsKept := by
    unfold Node.slotsKept
    split
    · exact .of_blank fun _ _ => Or.inl rfl
    · exact hfollows
  have hmid := hkept.shift hslots hshift (Or.inr hlast)
  cases hresult with
  | sends _ hsame =>
      rw [hsame]
      exact hmid
  | misses _ _ hsame =>
      rw [hsame]
      exact hmid
  | reset _ _ _ hzero _ => exact .of_blank fun k _ => Or.inl (hzero k)
  | hears _ hcarries hcurrent hnext =>
      obtain ⟨-, p, hp, hreceived⟩ := Hearing.read hcarries.1
      refine hmid.announce hcurrent fun k hpos hk => ?_
      obtain ⟨k, rfl⟩ := Nat.exists_eq_succ_of_ne_zero (Nat.ne_of_gt hpos)
      rw [hnext k hk, hreceived]
      exact hdown p hp k hk

end Node

section Bus

variable {n : Nat} {cfg : BusConfig n} {bus bus' : Bus n} {input : SlotInput n}

theorem Bus.runSingleChannel_master {width : Nat} (hpos : 0 < width) (h : bus.master.Scheduled width)
    (hs : bus.runSingleChannel input = .ok bus') :
    Shifted width bus.master.slots bus'.master.slots ∧
      bus'.master.tx.masterResetCycles ≤ bus.master.tx.masterResetCycles ∧
      ∀ p ∈ bus'.downlink, ∀ k (hk : k < maxTxNodesScheduled), k < width →
        p.nextTxNodeId ⟨k, hk⟩ = bus'.master.slots (k + 1) := by
  have htime := masterUpdateTimeUs_schedule bus.master input.masterUs
  by_cases hslot : bus.master.currentTxNodeId = masterNodeId
  · obtain ⟨k, master, downlink, slots, htx, -, rfl⟩ := Bus.runSingleChannel_tx hslot hs
    obtain ⟨m₁, m₂, p, h₁, h₂, h₃, -, hdown⟩ := processTx_frame htx
    have hbefore := htime.trans (masterTx_schedule h₁)
    have hafter := (masterQuickTx_schedule m₂ input.stray).trans (masterRemoveAny_schedule h₃)
    obtain ⟨hscheduled, hshift, hcycles⟩ := (hbefore.scheduled h).updateSchedule hpos h₂
    rw [hbefore.slots] at hshift
    refine ⟨?_, hafter.resetCycles.trans (hcycles.trans_le hbefore.resetCycles), ?_⟩
    · change Shifted width bus.master.slots master.slots
      rw [hafter.slots]
      exact hshift
    · intro q hq k hk hkw
      rw [show (Bus.afterSlot master downlink slots).downlink = _ from hdown] at hq
      cases hq
      change (if k < m₂.scheduler.numTxNodesScheduled then m₂.nextTxNodeId k else _) = master.slots (k + 1)
      rw [if_pos (by rw [hscheduled.numTx]; exact hkw), hafter.slots]
      rfl
  · obtain ⟨k, master, slots, -, hrx, rfl⟩ := Bus.runSingleChannel_rx hslot hs
    generalize input.uplink.received (fun i => (slots i).2) = received at hrx
    obtain ⟨m₁, m₂, h₁, h₂, h₃⟩ := processRx_ok hrx
    have hbefore := htime.trans (Master.receive_schedule _ received.1)
    have hafter := (masterQuickRx_schedule h₂).trans (masterRx_schedule h₃)
    obtain ⟨-, hshift, hcycles⟩ := (hbefore.scheduled h).updateSchedule hpos h₁
    rw [hbefore.slots] at hshift
    refine ⟨?_, hafter.resetCycles.trans (hcycles.trans_le hbefore.resetCycles), fun p hp =>
      absurd hp (Option.not_mem_none p)⟩
    change Shifted width bus.master.slots master.slots
    rw [hafter.slots]
    exact hshift

theorem Bus.runSingleChannel_node (hs : bus.runSingleChannel input = .ok bus') (i : Fin n) :
    (bus.node i).runSingleChannel (input.nodeUs i) bus'.downlink (input.hearing i) = .ok
      (bus'.node i, bus'.uplink i) := by
  by_cases hslot : bus.master.currentTxNodeId = masterNodeId
  · obtain ⟨k, master, downlink, slots, -, hslots, rfl⟩ := Bus.runSingleChannel_tx hslot hs
    exact hslots i
  · obtain ⟨k, master, slots, hslots, -, rfl⟩ := Bus.runSingleChannel_rx hslot hs
    exact hslots i

/-- In every run each entry of the schedule of a node is that of the master, or nobody's. -/
theorem follows_of_reachable (hsingle : cfg.master.mode = .single) (hnum : cfg.master.numTxNodesScheduled = 4)
    (h : (busSystem cfg).Reachable bus) (i : Fin n) :
    Follows NoOwner maxTxNodesScheduled bus.master.slots (bus.node i).slots := by
  have hwidth : cfg.master.numTxNodesScheduled.toNat = maxTxNodesScheduled := by
    rw [hnum]
    rfl
  have hpos : 0 < cfg.master.numTxNodesScheduled.toNat := by
    rw [hwidth]
    decide
  induction h with
  | init hinit =>
      obtain ⟨-, hnodes, -, -⟩ := hinit
      obtain ⟨entries, hnode⟩ := hnodes i
      exact .of_blank fun k _ => Or.inl ((nodeInit_ok hnode).1.slots k)
  | @step bus a bus' hreach _ hs ih =>
      obtain ⟨hmaster, hnodes⟩ := devices_of_reachable hreach
      cases a with
      | slot input =>
          have hs : bus.step cfg.master.mode (.slot input) = .ok bus' := hs
          rw [hsingle] at hs
          have hs : bus.runSingleChannel input = .ok bus' := hs
          obtain ⟨hshift, -, hdown⟩ := Bus.runSingleChannel_master hpos (scheduled_of_reaches hpos hmaster) hs
          rw [hwidth] at hshift hdown
          exact Node.runSingleChannel_follows (ready_of_reachable (hnodes i)) ih hshift
            (fun p hp k hk => hdown p hp k hk hk) (Bus.runSingleChannel_node hs i)
      | master call =>
          obtain ⟨master, hcall, hs⟩ := bind_eq_ok.mp hs
          cases hs
          change Follows NoOwner maxTxNodesScheduled master.slots (bus.node i).slots
          rw [(Master.call_schedule hcall).slots]
          exact ih
      | node j call =>
          obtain ⟨node, hcall, hs⟩ := bind_eq_ok.mp hs
          cases hs
          change Follows NoOwner maxTxNodesScheduled bus.master.slots (Function.update bus.node j node i).slots
          by_cases hij : i = j
          · subst hij
            rw [Function.update_self]
            rcases Node.call_same hcall with ⟨-, hfresh⟩ | ⟨-, hcurrent, hnext, -, -⟩
            · exact .of_blank fun k _ => Or.inl (hfresh.slots k)
            · rw [Node.slots_congr hcurrent hnext]
              exact ih
          · rw [Function.update_of_ne hij]
            exact ih

theorem owner_of_reachable (hsingle : cfg.master.mode = .single) (hnum : cfg.master.numTxNodesScheduled = 4)
    (h : (busSystem cfg).Reachable bus) {i : Fin n} (howner : (bus.node i).currentTxNodeId = (bus.node i).nodeId) :
    bus.master.currentTxNodeId = (bus.node i).nodeId := by
  rcases follows_of_reachable hsingle hnum h i 0 (Nat.zero_le _) with heq | hno
  · exact (heq.symm.trans howner : bus.master.currentTxNodeId = _)
  · refine absurd ?_ ((validIds_of_reachable h).nodeId i).not_noOwner
    rw [← howner]
    exact hno

/-- In every run of a master that announces four slots, a node is in transmit mode only in a slot that
the master holds for its id. So no node sends in a slot of the master, and two nodes that send have one id. -/
theorem node_sends_in_its_slot (hsingle : cfg.master.mode = .single) (hnum : cfg.master.numTxNodesScheduled = 4)
    (h : (busSystem cfg).Reachable bus) :
    (∀ i usIncr m, nodeIsTxMode (nodeUpdateTimeUs (bus.node i) usIncr) = .ok (true, m) →
      bus.master.currentTxNodeId = (bus.node i).nodeId) ∧
    ∀ input bus', (busSystem cfg).step bus (.slot input) = .ok bus' →
      (∀ i, bus'.uplink i ≠ none → bus.master.currentTxNodeId = (bus.node i).nodeId) ∧
      (bus.master.currentTxNodeId = masterNodeId → ∀ i, bus'.uplink i = none) ∧
      ∀ i j, (bus.node i).nodeId ≠ (bus.node j).nodeId → bus'.uplink i = none ∨ bus'.uplink j = none := by
  have hready := fun i => ready_of_reachable ((devices_of_reachable h).2 i)
  refine ⟨fun i usIncr m hmode => ?_, fun input bus' hs => ?_⟩
  · obtain ⟨m', -, htx, -⟩ := nodeIsTxMode_ok
      (show (nodeUpdateTimeUs (bus.node i) usIncr).initialised = true from (hready i).initialised) hmode
    exact owner_of_reachable hsingle hnum h (beq_iff_eq.mp htx.symm)
  · have hs : bus.step cfg.master.mode (.slot input) = .ok bus' := hs
    rw [hsingle] at hs
    have hs : bus.runSingleChannel input = .ok bus' := hs
    have howner : ∀ i, bus'.uplink i ≠ none → bus.master.currentTxNodeId = (bus.node i).nodeId := by
      intro i hsent
      obtain ⟨mid, -, -, hresult⟩ := Node.runSingleChannel_slots (hready i) (Bus.runSingleChannel_node hs i)
      exact owner_of_reachable hsingle hnum h (hresult.owner hsent)
    refine ⟨howner, fun hslot i => ?_, fun i j hne => ?_⟩
    · by_contra hsent
      have hid := (howner i hsent).symm.trans hslot
      exact ((validIds_of_reachable h).nodeId i).not_noOwner (Or.inl hid)
    · by_contra hc
      obtain ⟨hi, hj⟩ := not_or.mp hc
      exact hne ((howner i hi).symm.trans (howner j hj))

/-- The node asks for an id in the first slot for nodes without one. -/
theorem node_sends_in_its_slot_joining : ∃ bus bus' : Bus 1, (busSystem (oneNodeConfig .single 4)).Reachable bus ∧
    (busSystem (oneNodeConfig .single 4)).step bus (.slot clearSlot) = .ok bus' ∧ bus'.uplink 0 ≠ none ∧
    bus.master.currentTxNodeId = (bus.node 0).nodeId := by
  obtain ⟨bus, hrun, hnext⟩ := System.exists_of_holdsAfter
    (x := (busSystem (oneNodeConfig .single 4)).run (freshBus 4 fun _ => ⟨false, Packet.zero⟩)
      (List.replicate 24 (.slot clearSlot)))
    (p := fun bus => System.holdsAfter ((busSystem (oneNodeConfig .single 4)).step bus (.slot clearSlot))
      fun bus' => (bus'.uplink 0).isSome) (by decide +kernel)
  obtain ⟨bus', hs, hsent⟩ := System.exists_of_holdsAfter hnext
  have hreach := System.Reachable.run (.init (freshBus_init .single 4 _)) hrun
  have hsent : bus'.uplink 0 ≠ none := Option.isSome_iff_ne_none.mp hsent
  exact ⟨bus, bus', hreach, hs, hsent, ((node_sends_in_its_slot rfl rfl hreach).2 clearSlot bus' hs).1 0 hsent⟩

end Bus

end Microbus
