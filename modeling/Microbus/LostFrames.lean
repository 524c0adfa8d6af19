import Microbus.BusIds
import Microbus.LifeTime

/-! Slots in which every frame is lost: a node that asks to join goes on waiting, and the master goes on with its
schedule. -/
namespace Microbus

open Transition

/-- `SLOT_TIME_US` -/
def slotUs : UInt32 := UInt32.ofNat slotTimeUs

/-- A node without an id that has its request ready and knows of no slot to send it in. -/
structure Node.Asking (node : Node) : Prop where
  initialised : node.initialised = true
  nodeId : node.nodeId = unallocatedNodeId
  noAck : node.savedRxAckValid = false
  noFrame : node.validRxPacket = false
  request : node.keepsTxPacket
  noSlot : ∀ i < maxTxNodesScheduled, node.nextTxNodeId i = invalidNodeId

instance (node : Node) : Decidable node.Asking :=
  decidable_of_iff (node.initialised = true ∧ node.nodeId = unallocatedNodeId ∧ node.savedRxAckValid = false ∧
      node.validRxPacket = false ∧ node.keepsTxPacket ∧ ∀ i < maxTxNodesScheduled,
        node.nextTxNodeId i = invalidNodeId)
    ⟨fun ⟨h₁, h₂, h₃, h₄, h₅, h₆⟩ => ⟨h₁, h₂, h₃, h₄, h₅, h₆⟩,
      fun h => ⟨h.initialised, h.nodeId, h.noAck, h.noFrame, h.request, h.noSlot⟩⟩

def Node.hearNothing (node : Node) (usIncr : UInt32) : Node :=
  nodeUpdateSchedule ((nodeUpdateTimeUs node usIncr).receive Packet.zero).opened

section Node

variable {node : Node}

theorem Node.Asking.postProcess (h : node.Asking) : nodeDualChannelPipelinedPostProcess node = .ok node := by
  have hremove : nodeRemoveFromNetwork node = .ok node := by
    unfold nodeRemoveFromNetwork
    exact if_neg (not_not.mpr h.nodeId)
  have hcheck : nodeCheckIfTimedOut node = .ok node := by
    unfold nodeCheckIfTimedOut
    split
    · exact hremove
    · rfl
  have hrx : nodeProcessRx node = .ok node := by
    unfold nodeProcessRx
    rw [if_neg (by rw [h.noAck]; decide)]
    exact if_neg (by rw [h.noFrame]; decide)
  have htx : nodeProcessTx node = .ok node := by
    unfold nodeProcessTx
    exact if_pos h.request
  unfold nodeDualChannelPipelinedPostProcess
  rw [if_neg (by rw [h.initialised]; decide), bind_eq_ok]
  exact ⟨node, hcheck, bind_eq_ok.mpr ⟨node, hrx, htx⟩⟩

theorem Node.Asking.preProcess_lost (h : node.Asking) :
    nodeDualChannelPipelinedPreProcess (node.receive Packet.zero) false =
      .ok (nodeUpdateSchedule (node.receive Packet.zero).opened, none) := by
  have hinit : (node.receive Packet.zero).initialised = true := h.initialised
  have hquick : nodeQuickProcessPrevRx (node.receive Packet.zero) false = .ok (node.receive Packet.zero).opened := by
    unfold nodeQuickProcessPrevRx
    rw [if_neg (by rw [hinit]; decide), node.packetAt_receive]
    exact if_pos (Or.inr (Or.inl (Or.inl rfl)))
  have hturn : node.nextTxNodeId 0 ≠ node.nodeId := by
    rw [h.noSlot 0 (by decide), h.nodeId]
    decide
  unfold nodeDualChannelPipelinedPreProcess
  rw [if_neg (by rw [hinit]; decide), hquick]
  exact if_neg fun hc => hturn hc.1

theorem Node.Asking.tick (h : node.Asking) (usIncr : UInt32) : (nodeUpdateTimeUs node usIncr).Asking :=
  ⟨h.initialised, h.nodeId, h.noAck, h.noFrame, h.request, h.noSlot⟩

theorem Node.Asking.runDualChannel_lost (h : node.Asking) (usIncr : UInt32) (downlink : Option Packet) :
    node.runDualChannel usIncr downlink .lost = .ok (node.hearNothing usIncr, none) := by
  have hticked := h.tick usIncr
  unfold Node.runDualChannel
  rw [hticked.postProcess]
  exact hticked.preProcess_lost

theorem Node.Asking.hearNothing (h : node.Asking) (usIncr : UInt32) : (node.hearNothing usIncr).Asking := by
  refine ⟨h.initialised, h.nodeId, rfl, rfl, h.request, fun i hi => ?_⟩
  change (if i < maxTxNodesScheduled - 1 then node.nextTxNodeId (i + 1)
    else if i = maxTxNodesScheduled - 1 then invalidNodeId else node.nextTxNodeId i) = invalidNodeId
  split
  · exact h.noSlot (i + 1) (by omega)
  · split
    · rfl
    · exact h.noSlot i hi

theorem RxPacketManager.receive_receive (m : RxPacketManager) (i : Nat) (frame : Packet) :
    (m.receive i frame).receive i frame = m.receive i frame := by
  unfold RxPacketManager.receive
  simp only [Function.update_self, Function.update_idem]

theorem Node.Asking.hearNothing_hearNothing (h : node.Asking) (usIncr us : UInt32) :
    (node.hearNothing usIncr).hearNothing us = nodeUpdateTimeUs (node.hearNothing usIncr) us := by
  have hnoSlot := (h.hearNothing usIncr).noSlot
  have hnext : (nodeUpdateSchedule (node.hearNothing usIncr)).nextTxNodeId =
    (node.hearNothing usIncr).nextTxNodeId := by
    funext i
    change (if i < maxTxNodesScheduled - 1 then (node.hearNothing usIncr).nextTxNodeId (i + 1)
      else if i = maxTxNodesScheduled - 1 then invalidNodeId else (node.hearNothing usIncr).nextTxNodeId i) = _
    split
    · rw [hnoSlot i (by omega), hnoSlot (i + 1) (by omega)]
    · split
      · rename_i hlast
        rw [hlast, hnoSlot _ (by decide)]
      · rfl
  have hcurrent : (node.hearNothing usIncr).nextTxNodeId 0 = (node.hearNothing usIncr).currentTxNodeId :=
    (hnoSlot 0 (by decide)).trans (h.noSlot 0 (by decide)).symm
  have hmemory : (node.hearNothing usIncr).rxPacketManager.receive
    (node.hearNothing usIncr).nextRxPacketEntry Packet.zero =
      (node.hearNothing usIncr).rxPacketManager :=
    RxPacketManager.receive_receive node.rxPacketManager node.nextRxPacketEntry Packet.zero
  have hfields : (node.hearNothing usIncr).hearNothing us = { nodeUpdateTimeUs (node.hearNothing usIncr) us with
      rxPacketManager := (node.hearNothing usIncr).rxPacketManager.receive
        (node.hearNothing usIncr).nextRxPacketEntry Packet.zero
      currentTxNodeId := (node.hearNothing usIncr).nextTxNodeId 0
      nextTxNodeId := (nodeUpdateSchedule (node.hearNothing usIncr)).nextTxNodeId } := rfl
  rw [hfields, hmemory, hcurrent, hnext]
  rfl

theorem nodeNwUpdateTimeUs_iterate {usIncr : UInt32} (hfine : FineIncrement usIncr) (k : Nat) : ∀ m : Nat,
    m * usIncr.toNat ≤ nodeTimeoutUs →
    (fun ttl => nodeNwUpdateTimeUs ttl usIncr)^[k] ((m * usIncr.toNat : Nat) : Int) =
    ((m - k) * usIncr.toNat : Nat) := by
  induction k with
  | zero => exact fun m _ => rfl
  | succ k ih =>
      intro m hm
      rw [Function.iterate_succ_apply]
      cases m with
      | zero =>
          have hzero : nodeNwUpdateTimeUs ((0 * usIncr.toNat : Nat) : Int) usIncr = ((0 * usIncr.toNat : Nat) : Int) :=
            nodeNwUpdateTimeUs_of_nonpos (by omega) usIncr
          rw [hzero, ih 0 hm, Nat.zero_sub, Nat.zero_sub]
      | succ m =>
          have hpos := hfine.1
          have hsplit : (m + 1) * usIncr.toNat = m * usIncr.toNat + usIncr.toNat := Nat.succ_mul m _
          have hstep : nodeNwUpdateTimeUs (((m + 1) * usIncr.toNat : Nat) : Int) usIncr =
            ((m * usIncr.toNat : Nat) : Int) := by
            rw [nodeNwUpdateTimeUs_of_pos hfine (by omega) (by omega)]
            omega
          rw [hstep, ih m (by omega), Nat.add_sub_add_right]

end Node

/-- The master after a slot in which it hears nothing and removes nobody. -/
def Master.hearNothing (master : Master) (usIncr : UInt32) (stray : TNodeIndex → UInt8) : Except Fault Master := do
  let master ← masterTx (masterUpdateTimeUs master usIncr)
  let master ← masterUpdateSchedule (master.receive Packet.zero)
  return masterQuickTx { master with
    rx := { master.rx with
      prevRxPacketEntry := some master.rx.nextRxPacketEntry
      validRxPacket := false } } stray

section Master

variable {master master' : Master}

theorem masterRx_none (h : master.rx.validRxPacket = false) : masterRx master = .ok (0, master) := by
  unfold masterRx masterProcessRx
  rw [if_pos (show master.rxContext.rx.validRxPacket = false from h)]
  rfl

theorem masterRemoveAny_none (h : ∀ d, Station d → master.masterNodeTimeToLive d ≠ removeNodeTTL) :
    masterRemoveAnyTimeoutNodes master = .ok (0, master) := by
  have hone : ∀ d, Station d → masterRemoveIfTimedOut master d = .ok (0, master) := by
    intro d hd
    unfold masterRemoveIfTimedOut
    exact if_neg (h d hd)
  have hloop : ∀ (ids : List Nat) (freed : Nat), (∀ d ∈ ids, Station (UInt8.ofNat d)) →
      masterRemoveTimeoutLoop ids freed master = .ok (freed, master) := by
    intro ids
    induction ids with
    | nil => exact fun freed _ => rfl
    | cons d rest ih =>
        intro freed hids
        unfold masterRemoveTimeoutLoop
        rw [hone _ (hids d List.mem_cons_self)]
        exact ih _ fun e he => hids e (List.mem_cons_of_mem d he)
  refine hloop _ 0 fun d hd => ?_
  have hrange := List.mem_range'_1.mp hd
  have hfirst : firstNodeId = 1 := rfl
  have hlast : maxNodes = 64 := rfl
  unfold Station
  rw [UInt8.toNat_ofNat', Nat.mod_eq_of_lt (by omega)]
  omega

/-- The memory of a lost frame reads as an idle line. -/
theorem masterQuickRx_idle (h : master.rx.packetAt master.rx.nextRxPacketEntry = Packet.zero) :
    masterQuickRx master false = .ok { master with
      rx := { master.rx with prevRxPacketEntry := some master.rx.nextRxPacketEntry, validRxPacket := false } } := by
  have hrefused : ¬ masterAcceptsFrame (master.rx.packetAt master.rx.nextRxPacketEntry) false := by
    rw [h]
    decide
  unfold masterQuickRx masterQuickProcessPrevRx
  dsimp only
  rw [if_pos hrefused]
  rfl

theorem dualSlot_lost {usIncr : UInt32} {stray : TNodeIndex → UInt8} (hnoFrame : master.rx.validRxPacket = false)
    (hmarks : ∀ d, Station d → (masterUpdateTimeUs master usIncr).masterNodeTimeToLive d ≠ removeNodeTTL)
    (h : master.hearNothing usIncr stray = .ok master') :
    ∃ m, masterDualChannelPipelinedPostProcess (masterUpdateTimeUs master usIncr) = .ok (0, m) ∧
      masterDualChannelPipelinedPreProcess (m.receive Packet.zero) false stray =
        .ok (master', masterTxGetNextTxPacket master'.tx) ∧
      master'.rx.validRxPacket = false ∧
      master'.masterNodeTimeToLive = (masterUpdateTimeUs master usIncr).masterNodeTimeToLive := by
  obtain ⟨m, htx, h⟩ := bind_eq_ok.mp h
  obtain ⟨m', hschedule, h⟩ := bind_eq_ok.mp h
  cases h
  have hrx : masterRx (masterUpdateTimeUs master usIncr) = .ok (0, masterUpdateTimeUs master usIncr) :=
    masterRx_none hnoFrame
  have httl : m.masterNodeTimeToLive = (masterUpdateTimeUs master usIncr).masterNodeTimeToLive := by
    obtain ⟨tx, rfl, -⟩ := masterTx_ok htx
    rfl
  have hremove : masterRemoveAnyTimeoutNodes m = .ok (0, m) := masterRemoveAny_none (httl ▸ hmarks)
  have hkept : m'.rx = (m.receive Packet.zero).rx ∧ m'.masterNodeTimeToLive = m.masterNodeTimeToLive := by
    obtain ⟨_, _, _, _, -, -, rfl⟩ := masterUpdateSchedule_ok hschedule
    exact ⟨rfl, rfl⟩
  have hidle : m'.rx.packetAt m'.rx.nextRxPacketEntry = Packet.zero := by
    rw [hkept.1]
    exact RxPacketManager.packet_receive _ _
  refine ⟨m, ?_, ?_, rfl, hkept.2.trans httl⟩
  · exact bind_eq_ok.mpr ⟨_, hrx, bind_eq_ok.mpr ⟨m, htx, bind_eq_ok.mpr ⟨_, hremove, rfl⟩⟩⟩
  · exact bind_eq_ok.mpr ⟨m', hschedule, bind_eq_ok.mpr ⟨_, masterQuickRx_idle hidle, rfl⟩⟩

def Master.OnlyTaken (master : Master) (d : TNodeIndex) : Prop :=
  ∀ e, Station e → e ≠ d → master.masterNodeTimeToLive e = 0

theorem Master.OnlyTaken.tick {d : TNodeIndex} (h : master.OnlyTaken d) (usIncr : UInt32) :
    (masterUpdateTimeUs master usIncr).OnlyTaken d := by
  intro e he hne
  obtain ⟨us, ttl, heq, httl⟩ := masterUpdateTimeUs_eq master usIncr
  rw [heq]
  exact (CleanInv.timer_zero_iff httl he).mpr (h e he hne)

theorem Master.OnlyTaken.unmarked {d : TNodeIndex} (h : master.OnlyTaken d) {usIncr : UInt32}
    (hmarks : (masterUpdateTimeUs master usIncr).masterNodeTimeToLive d ≠ removeNodeTTL) (e : TNodeIndex)
    (he : Station e) :
    (masterUpdateTimeUs master usIncr).masterNodeTimeToLive e ≠ removeNodeTTL := by
  by_cases hed : e = d
  · rw [hed]
    exact hmarks
  · rw [h.tick usIncr e he hed]
    decide

/-- A master that announces one slot, with one request in its table and no data to come. -/
def Master.Waits (master : Master) : Prop :=
  master.scheduler.numTxNodesScheduled = 1 ∧ master.scheduler.maxSlotsBetweenUnallocated = 80 ∧
    master.nwManager.numNewNodes = 1 ∧ master.nodeTxNodes.numNodes = 0 ∧ master.tx.masterResetCycles = 0

instance (master : Master) : Decidable master.Waits := by
  unfold Master.Waits
  infer_instance

/-- The same master with the values that stay written out: a long run is evaluated faster so. -/
def Master.writtenOut (master : Master) (d : TNodeIndex) (timeToLive : Nat) : Master :=
  { master with
    scheduler := { master.scheduler with numTxNodesScheduled := 1, maxSlotsBetweenUnallocated := 80 }
    nwManager := { master.nwManager with numNewNodes := 1 }
    nodeTxNodes := { master.nodeTxNodes with numNodes := 0 }
    tx := { master.tx with masterResetCycles := 0 }
    masterNodeTimeToLive := fun e =>
      if e = d then timeToLive
      else if firstNodeId ≤ e.toNat ∧ e.toNat < maxNodes then 0 else master.masterNodeTimeToLive e }

theorem Master.writtenOut_eq {d : TNodeIndex} (h : master.Waits) (honly : master.OnlyTaken d) :
    master.writtenOut d (master.masterNodeTimeToLive d) = master := by
  have httl : (fun e => if e = d then master.masterNodeTimeToLive d
      else if firstNodeId ≤ e.toNat ∧ e.toNat < maxNodes then 0 else master.masterNodeTimeToLive e) =
        master.masterNodeTimeToLive := by
    funext e
    split
    · rename_i heq
      rw [heq]
    · split
      · rename_i hne he
        exact (honly e he hne).symm
      · rfl
  obtain ⟨hnum, hmax, hnew, hnodeTx, hreset⟩ := h
  unfold Master.writtenOut
  rw [httl]
  cases master with
  | mk scheduler nwManager rx tx currentTxNodeId nextTxNodeId masterNodeTimeToLive nodeTxNodes =>
      cases scheduler
      cases nwManager
      cases tx
      cases nodeTxNodes
      cases hnum
      cases hmax
      cases hnew
      cases hnodeTx
      cases hreset
      rfl

/-- The master after `k` slots of the dual channel in which it hears nothing; none of them marks `d`. -/
def Master.waits (d : TNodeIndex) : Nat → Master → Option Master
  | 0, master => some master
  | k + 1, master =>
      if (masterUpdateTimeUs master slotUs).masterNodeTimeToLive d = removeNodeTTL then none
      else match master.hearNothing slotUs fun _ => 0 with
        | .ok master' =>
            if master'.Waits then
              System.withValue (master'.masterNodeTimeToLive d) fun timeToLive => waits d k
                (master'.writtenOut d timeToLive)
            else none
        | .error _ => none

theorem Master.waits_succ {d : TNodeIndex} {k : Nat} (h : master.waits d (k + 1) = some master') : ∃ m,
    (masterUpdateTimeUs master slotUs).masterNodeTimeToLive d ≠ removeNodeTTL ∧
      master.hearNothing slotUs (fun _ => 0) = .ok m ∧ (m.OnlyTaken d → m.waits d k = some master') := by
  unfold Master.waits at h
  split at h
  · cases h
  · rename_i hmarks
    split at h
    · rename_i m hm
      split at h
      · rename_i hwaits
        rw [System.withValue_eq] at h
        exact ⟨m, hmarks, hm, fun honly => by rwa [Master.writtenOut_eq hwaits honly] at h⟩
      · cases h
    · cases h

end Master

section Bus

variable {n : Nat} {cfg : BusConfig n} {bus : Bus n} {d : TNodeIndex} {master : Master}

def lostSlot : SlotInput n where
  masterUs := slotUs
  nodeUs _ := slotUs
  hearing _ := .lost
  uplink := .lost
  stray _ := 0

theorem Bus.runDualChannel_lost (hnodes : ∀ i, (bus.node i).Asking) (hnoFrame : bus.master.rx.validRxPacket = false)
    (honly : bus.master.OnlyTaken d)
    (hmarks : (masterUpdateTimeUs bus.master slotUs).masterNodeTimeToLive d ≠ removeNodeTTL)
    (h : bus.master.hearNothing slotUs (fun _ => 0) = .ok master) :
    bus.runDualChannel lostSlot = .ok (.afterSlot master (masterTxGetNextTxPacket master.tx)
      fun i => ((bus.node i).hearNothing slotUs, none)) := by
  obtain ⟨m, hpost, hpre, -, -⟩ := dualSlot_lost hnoFrame (honly.unmarked hmarks) h
  have hslots : collect (fun i => (bus.node i).runDualChannel slotUs bus.downlink .lost) =
      .ok fun i => ((bus.node i).hearNothing slotUs, none) :=
    collect_eq_ok.mpr fun i => (hnodes i).runDualChannel_lost slotUs bus.downlink
  exact bind_eq_ok.mpr ⟨_, hpost, bind_eq_ok.mpr ⟨_, hpre, bind_eq_ok.mpr ⟨_, hslots, rfl⟩⟩⟩

/-- While every frame is lost the nodes go on asking, and only their times to live change. -/
theorem Bus.run_lost (hdual : cfg.master.mode = .dual) (k : Nat) : ∀ {bus : Bus n},
    (∀ i, (bus.node i).Asking) → bus.master.rx.validRxPacket = false → bus.master.OnlyTaken d →
    bus.master.waits d (k + 1) = some master →
    (busSystem cfg).run bus (List.replicate (k + 1) (.slot lostSlot)) =
      .ok (.afterSlot master (masterTxGetNextTxPacket master.tx) fun i => ({ (bus.node i).hearNothing slotUs with
        timeToLive := (fun ttl => nodeNwUpdateTimeUs ttl slotUs)^[k + 1] (bus.node i).timeToLive }, none)) := by
  have hslot : ∀ {bus : Bus n} {m : Master}, (∀ i, (bus.node i).Asking) → bus.master.rx.validRxPacket = false →
      bus.master.OnlyTaken d → (masterUpdateTimeUs bus.master slotUs).masterNodeTimeToLive d ≠ removeNodeTTL →
      bus.master.hearNothing slotUs (fun _ => 0) = .ok m → (busSystem cfg).step bus (.slot lostSlot) =
        .ok (.afterSlot m (masterTxGetNextTxPacket m.tx) fun i => ((bus.node i).hearNothing slotUs, none)) := by
    intro bus m hnodes hnoFrame honly hmarks hm
    change bus.step cfg.master.mode (.slot lostSlot) = _
    rw [hdual]
    exact bus.runDualChannel_lost hnodes hnoFrame honly hmarks hm
  have hkept : ∀ {bus : Bus n} {m : Master}, bus.master.rx.validRxPacket = false → bus.master.OnlyTaken d →
      (masterUpdateTimeUs bus.master slotUs).masterNodeTimeToLive d ≠ removeNodeTTL →
      bus.master.hearNothing slotUs (fun _ => 0) = .ok m → m.rx.validRxPacket = false ∧ m.OnlyTaken d := by
    intro bus m hnoFrame honly hmarks hm
    obtain ⟨-, -, -, hnoFrame', httl⟩ := dualSlot_lost hnoFrame (honly.unmarked hmarks) hm
    refine ⟨hnoFrame', fun e he hne => ?_⟩
    rw [httl]
    exact honly.tick slotUs e he hne
  induction k with
  | zero =>
      intro bus hnodes hnoFrame honly h
      obtain ⟨m, hmarks, hm, hlast⟩ := Master.waits_succ h
      cases hlast (hkept hnoFrame honly hmarks hm).2
      exact bind_eq_ok.mpr ⟨_, hslot hnodes hnoFrame honly hmarks hm, rfl⟩
  | succ k ih =>
      intro bus hnodes hnoFrame honly h
      obtain ⟨m, hmarks, hm, hlater⟩ := Master.waits_succ h
      obtain ⟨hnoFrame', honly'⟩ := hkept hnoFrame honly hmarks hm
      have hrest := @ih (.afterSlot m (masterTxGetNextTxPacket m.tx) fun i => ((bus.node i).hearNothing slotUs, none))
        (fun i => (hnodes i).hearNothing slotUs) hnoFrame' honly' (hlater honly')
      refine bind_eq_ok.mpr ⟨_, hslot hnodes hnoFrame honly hmarks hm, hrest.trans ?_⟩
      refine congrArg (fun slots => Except.ok (Bus.afterSlot master _ slots)) (funext fun i => ?_)
      change ({ ((bus.node i).hearNothing slotUs).hearNothing slotUs with
        timeToLive := (fun ttl => nodeNwUpdateTimeUs ttl slotUs)^[k + 1]
          (nodeNwUpdateTimeUs (bus.node i).timeToLive slotUs) }, none) = _
      rw [(hnodes i).hearNothing_hearNothing, ← Function.iterate_succ_apply
        (fun ttl => nodeNwUpdateTimeUs ttl slotUs)]
      rfl

end Bus

end Microbus
