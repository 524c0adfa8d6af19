import Microbus.DualChannel
import Microbus.UniqueIds

/-! The dual channel: in whose slots the nodes send, and that no two nodes with an id send in one slot. -/
namespace Microbus

open Transition Announce

/-- What a node knows of the slots of a master that announces `width` of them. -/
structure Node.Knows (node : Node) (width : Nat) (slots : Nat → TNodeIndex) : Prop where
  follows : Follows NoOwner width slots node.slots
  beyond : ∀ k, width < k → k ≤ maxTxNodesScheduled → NoOwner (node.slots k)

namespace Node.Knows

variable {node node' : Node} {width : Nat} {slots slots' : Nat → TNodeIndex}

theorem of_blank (h : ∀ k, NoOwner (node.slots k)) : node.Knows width slots :=
  ⟨.of_blank fun k _ => h k, fun k _ _ => h k⟩

theorem fresh (h : node.Fresh) : node.Knows width slots := of_blank fun k => Or.inl (h.slots k)

theorem congr (h : node.Knows width slots) (hslots : node'.slots = node.slots) : node'.Knows width slots := by
  constructor
  · rw [hslots]
    exact h.follows
  · rw [hslots]
    exact h.beyond

/-- A node that sends in a slot that it knows is in step with the master. -/
theorem owner (h : node.Knows width slots) {k : Nat} (hk : k ≤ width) (hid : ValidNodeId node.nodeId)
    (howner : node.slots k = node.nodeId) : slots k = node.nodeId := by
  rcases h.follows k hk with heq | hno
  · exact heq.symm.trans howner
  · rw [howner] at hno
    exact absurd hno hid.not_noOwner

/-- The node takes over the announced slots; behind them the frame names nobody. -/
theorem announce (h : node.Knows width slots) {p : Packet} (hcurrent : node'.slots 0 = node.slots 0)
    (hnext : ∀ k (hk : k < maxTxNodesScheduled), node'.slots (k + 1) = p.nextTxNodeId ⟨k, hk⟩)
    (hpairs : ∀ k (hk : k < maxTxNodesScheduled), k < width → p.nextTxNodeId ⟨k, hk⟩ = slots (k + 1))
    (hbeyond : ∀ k : Fin maxTxNodesScheduled, width ≤ k.val → NoOwner (p.nextTxNodeId k))
    (hwidth : width ≤ maxTxNodesScheduled) :
    node'.Knows width slots := by
  refine ⟨h.follows.announce hcurrent fun k hpos hk => ?_, fun k hk hlast => ?_⟩
  · obtain ⟨k, rfl⟩ := Nat.exists_eq_succ_of_ne_zero (Nat.ne_of_gt hpos)
    have hlt : k < maxTxNodesScheduled := Nat.lt_of_lt_of_le hk hwidth
    rw [hnext k hlt, hpairs k hlt hk]
  · obtain ⟨k, rfl⟩ := Nat.exists_eq_succ_of_ne_zero (Nat.ne_zero_of_lt hk)
    rw [hnext k hlast]
    exact hbeyond ⟨k, hlast⟩ (Nat.le_of_lt_succ hk)

theorem shift (h : node.Knows width slots) (hslots : Shifted width slots slots')
    (hshift : Shifted maxTxNodesScheduled node.slots node'.slots)
    (hlast : node'.slots maxTxNodesScheduled = invalidNodeId)
    (hwidth : width ≤ maxTxNodesScheduled) : node'.Knows width slots' := by
  have hbeyond : ∀ k, width ≤ k → k ≤ maxTxNodesScheduled → NoOwner (node'.slots k) := by
    intro k hk hmax
    rcases Nat.lt_or_eq_of_le hmax with hlt | rfl
    · rw [hshift k hlt]
      exact h.beyond (k + 1) (Nat.lt_succ_of_le hk) hlt
    · exact Or.inr hlast
  refine ⟨h.follows.shift hslots (fun k hk => hshift k (Nat.lt_of_lt_of_le hk hwidth))
    (hbeyond width (Nat.le_refl _) hwidth),
    fun k hk hmax => hbeyond k (Nat.le_of_lt hk) hmax⟩

end Node.Knows

section Node

variable {node node' : Node} {width : Nat} {slots slots' : Nat → TNodeIndex} {usIncr : UInt32}
  {downlink frame : Option Packet}
  {hearing : Hearing}

theorem nodePostProcess_knows (hinit : node.initialised = true) (h : node.Knows width slots)
    (hpost : nodeDualChannelPipelinedPostProcess node = .ok node') : node'.Knows width slots := by
  obtain ⟨n₁, n₂, h₁, h₂, h₃⟩ := nodePostProcess_ok hinit hpost
  have hn₁ : n₁.Knows width slots := by
    rcases nodeCheckIfTimedOut_ok h₁ with ⟨-, rfl⟩ | ⟨-, hfresh, -⟩
    · exact h
    · exact .fresh hfresh
  exact hn₁.congr ((nodeProcessTx_same h₃).slots.trans (nodeProcessRx_slots h₂))

/-- A slot of a node that hears at most a frame with the announced slots: it knows those of the master a slot later,
and sends only if the one that starts is its own. -/
theorem Node.runDualChannel_knows (hready : node.Ready) (hknows : node.Knows width slots)
    (hwidth : width ≤ maxTxNodesScheduled) (hslots : Shifted width slots slots')
    (hpairs : ∀ p ∈ downlink, ∀ k (hk : k < maxTxNodesScheduled), k < width →
      p.nextTxNodeId ⟨k, hk⟩ = slots (k + 1))
    (hbeyond : hearing = .intact → ∀ p ∈ downlink, ∀ k : Fin maxTxNodesScheduled, width ≤ k.val →
      NoOwner (p.nextTxNodeId k))
    (h : node.runDualChannel usIncr downlink hearing = .ok (node', frame)) :
    node'.Knows width slots' ∧ (frame ≠ none → node'.slots 0 = node'.nodeId) := by
  have hready' : (nodeUpdateTimeUs node usIncr).Ready := hready.congr rfl rfl rfl
  obtain ⟨m, hpost, hpre⟩ := Node.runDualChannel_ok h
  have hm : m.Knows width slots := nodePostProcess_knows hready'.initialised (hknows.congr rfl) hpost
  have hinit : (m.receive (hearing.received downlink).1).initialised = true := by
    obtain ⟨m₁, m₂, hcheck, hrx, htx⟩ := nodePostProcess_ok hready'.initialised hpost
    exact (((hready'.checkIfTimedOut hcheck).processRx hrx).processTx htx).initialised
  obtain ⟨q, hquick, hsent, hturn⟩ := nodePreProcess_ok hinit hpre
  obtain ⟨hshift, hlast⟩ := nodeUpdateSchedule_slots q
  have hq : q.Knows width slots := by
    rcases nodeQuick_slots hinit (m.packetAt_receive _) hquick with
      ⟨-, hfresh⟩ | ⟨-, hcurrent, -, ⟨hcarries, hnext⟩ | ⟨-, hsame⟩⟩
    · exact .fresh hfresh
    · obtain ⟨hintact, p, hp, hpacket⟩ := Hearing.read hcarries.1
      rw [hpacket] at hnext
      exact hm.announce hcurrent hnext (hpairs p hp) (hbeyond hintact p hp) hwidth
    · exact hm.congr hsame
  rw [← hsent.slots] at hshift hlast
  refine ⟨hq.shift hslots hshift hlast hwidth, fun hframe => ?_⟩
  rw [hsent.slots, hsent.nodeId]
  exact hturn hframe

end Node

section Bus

variable {n : Nat} {cfg : BusConfig n} {bus bus' : Bus n} {input : SlotInput n}

/-- The master moves its schedule down in every slot, and the frame that it builds announces the slots after that. -/
theorem Bus.runDualChannel_master {width : Nat} (hpos : 0 < width) (h : bus.master.Scheduled width)
    (hs : bus.runDualChannel input = .ok bus') :
    Shifted width bus.master.slots bus'.master.slots ∧
      ∀ p ∈ bus'.downlink, ∀ k (hk : k < maxTxNodesScheduled), k < width →
        p.nextTxNodeId ⟨k, hk⟩ = bus'.master.slots (k + 1) := by
  obtain ⟨k, m, master, downlink, slots, hpost, hpre, -, rfl⟩ := Bus.runDualChannel_ok hs
  obtain ⟨k₁, k₂, m₁, m₂, m₃, m₄, p, h₁, h₂, h₃, h₄, h₅, rfl, -, hdown⟩ :=
    dualSlot_frame hpost hpre
  obtain ⟨hmid, hshift⟩ := dualSlot_slots h hpos h₁ h₂ h₃ h₄ h₅
  have hquick := masterQuickTx_schedule m₄ input.stray
  refine ⟨?_, fun q hq k hk hkw => ?_⟩
  · change Shifted width bus.master.slots (masterQuickTx m₄ input.stray).slots
    rw [hquick.slots]
    exact hshift
  · rw [show (Bus.afterSlot (masterQuickTx m₄ input.stray) downlink slots).downlink = _ from hdown] at hq
    cases hq
    change (if k < m₄.scheduler.numTxNodesScheduled then m₄.nextTxNodeId k else _) =
      (masterQuickTx m₄ input.stray).slots (k + 1)
    rw [if_pos (by rw [hmid.numTx]; exact hkw), hquick.slots]
    rfl

theorem Bus.runDualChannel_acks (hmaster : cfg.master.Reaches bus.master) (hreach : cfg.master.Reaches bus'.master)
    (hs : bus.runDualChannel input = .ok bus') :
    ∀ p ∈ bus'.downlink, ∀ k : Fin maxTxNodesScheduled, k.val < cfg.master.numTxNodesScheduled.toNat →
      Station (p.nextTxNodeId k) →
      p.nextTxNodeAckSeqNum k = bus'.master.tx.txManager.rxSeqNum (p.nextTxNodeId k) := by
  intro q hq k hk hstation
  have hpos := Nat.zero_lt_of_lt hk
  have htable : bus'.master.tx.txManager.maxTxNodes = maxNodes := by
    obtain ⟨s, hs', heq⟩ := hreach
    rw [← heq]
    exact (numbered_of_reachable hs').table
  obtain ⟨j, m, master, downlink, slots, hpost, hpre, -, rfl⟩ := Bus.runDualChannel_ok hs
  obtain ⟨k₁, k₂, m₁, m₂, m₃, m₄, p, h₁, h₂, h₃, h₄, h₅, rfl, -, hdown⟩ :=
    dualSlot_frame hpost hpre
  obtain ⟨hmid, -⟩ := dualSlot_slots (scheduled_of_reaches hpos hmaster) hpos h₁ h₂ h₃ h₄ h₅
  have htable₄ : m₄.tx.txManager.maxTxNodes = maxNodes :=
    (masterQuickTx_quiet m₄ input.stray).touched.maxTxNodes.symm.trans htable
  have hscheduled : k.val < m₄.scheduler.numTxNodesScheduled := by
    rw [hmid.numTx]
    exact hk
  rw [show (Bus.afterSlot (masterQuickTx m₄ input.stray) downlink slots).downlink = _ from hdown] at hq
  cases hq
  change Station (if k.val < m₄.scheduler.numTxNodesScheduled then m₄.nextTxNodeId k else _) at hstation
  change (if k.val < m₄.scheduler.numTxNodesScheduled then _ else _) =
    (masterQuickTx m₄ input.stray).tx.txManager.rxSeqNum
    (if k.val < m₄.scheduler.numTxNodesScheduled then m₄.nextTxNodeId k else _)
  rw [if_pos hscheduled] at hstation
  rw [if_pos hscheduled, if_pos hscheduled, masterQuickTx_rxSeqNum, if_pos (by rw [htable₄]; exact hstation.2)]

/-- The nodes take in no frame that names an owner behind the announced slots. -/
def TakesAnnounced (width : Nat) (bus : Bus n) : BusAction n → Prop
  | .slot input => ∀ i, input.hearing i = .intact → ∀ p ∈ bus.downlink,
      ∀ k : Fin maxTxNodesScheduled, width ≤ k.val → NoOwner (p.nextTxNodeId k)
  | _ => True

instance : (hearing : Hearing) → Decidable (hearing = Hearing.intact)
  | .intact => isTrue rfl
  | .lost => isFalse Hearing.noConfusion
  | .corrupt _ => isFalse Hearing.noConfusion

instance (width : Nat) (bus : Bus n) : (a : BusAction n) → Decidable (TakesAnnounced width bus a)
  | .slot input => inferInstanceAs (Decidable (∀ i, input.hearing i = .intact → ∀ p ∈ bus.downlink,
      ∀ k : Fin 4, width ≤ k.val → p.nextTxNodeId k = masterNodeId ∨ p.nextTxNodeId k = invalidNodeId))
  | .master _ => inferInstanceAs (Decidable True)
  | .node _ _ => inferInstanceAs (Decidable True)

/-- What every state of such runs has. -/
structure Bus.InSlots (width : Nat) (bus : Bus n) : Prop where
  announced : ∀ p ∈ bus.downlink, ∀ k (hk : k < maxTxNodesScheduled), k < width →
    p.nextTxNodeId ⟨k, hk⟩ = bus.master.slots (k + 1)
  knows : ∀ i, (bus.node i).Knows width bus.master.slots

namespace Bus.InSlots

variable {width : Nat}

theorem init (h : (busSystem cfg).init bus) : bus.InSlots width := by
  obtain ⟨-, hnodes, hdown, -⟩ := h
  refine ⟨fun p hp => ?_, fun i => ?_⟩
  · rw [hdown] at hp
    cases hp
  · obtain ⟨entries, hnode⟩ := hnodes i
    exact .fresh (nodeInit_ok hnode).1

theorem slot (h : bus.InSlots width) (hpos : 0 < width) (hwidth : width ≤ maxTxNodesScheduled)
    (hscheduled : bus.master.Scheduled width)
    (hready : ∀ i, (bus.node i).Ready) (htakes : TakesAnnounced width bus (.slot input))
    (hs : bus.runDualChannel input = .ok bus') :
    bus'.InSlots width ∧ ∀ i, bus'.uplink i ≠ none → (bus'.node i).slots 0 = (bus'.node i).nodeId := by
  obtain ⟨hshift, hannounced⟩ := Bus.runDualChannel_master hpos hscheduled hs
  obtain ⟨_, _, _, _, slots, -, -, hslots, rfl⟩ := Bus.runDualChannel_ok hs
  have hnode := fun i => Node.runDualChannel_knows (hready i) (h.knows i) hwidth hshift h.announced
    (htakes i) (hslots i)
  exact ⟨⟨hannounced, fun i => (hnode i).1⟩, fun i => (hnode i).2⟩

theorem step (h : bus.InSlots width) (hdual : cfg.master.mode = .dual) (hpos : 0 < width)
    (hwidth : width ≤ maxTxNodesScheduled)
    (hscheduled : bus.master.Scheduled width) (hready : ∀ i, (bus.node i).Ready) {a : BusAction n}
    (htakes : TakesAnnounced width bus a) (hs : (busSystem cfg).step bus a = .ok bus') : bus'.InSlots width := by
  cases a with
  | slot input =>
      have hs : bus.step cfg.master.mode (.slot input) = .ok bus' := hs
      rw [hdual] at hs
      exact (h.slot hpos hwidth hscheduled hready htakes hs).1
  | master call =>
      obtain ⟨master, hcall, hs⟩ := bind_eq_ok.mp hs
      cases hs
      have hslots := (Master.call_schedule hcall).slots
      constructor
      · rw [show ({ bus with master } : Bus n).master.slots = _ from hslots]
        exact h.announced
      · rw [show ({ bus with master } : Bus n).master.slots = _ from hslots]
        exact h.knows
  | node i call =>
      obtain ⟨node, hcall, hs⟩ := bind_eq_ok.mp hs
      cases hs
      refine ⟨h.announced, fun j => ?_⟩
      change (Function.update bus.node i node j).Knows width bus.master.slots
      by_cases hj : j = i
      · subst hj
        rw [Function.update_self]
        rcases Node.call_same hcall with ⟨-, hfresh⟩ | ⟨-, hcurrent, hnext, -, -⟩
        · exact .fresh hfresh
        · exact (h.knows j).congr (Node.slots_congr hcurrent hnext)
      · rw [Function.update_of_ne hj]
        exact h.knows j

end Bus.InSlots

/-- Who sends in the slot that the step has just run: only nodes whose id the master holds the slot for, and not two of
them unless the slot is for nodes without an id. -/
structure Bus.OneSender (bus : Bus n) : Prop where
  owner : ∀ i, bus.uplink i ≠ none → bus.master.currentTxNodeId = (bus.node i).nodeId
  one : ∀ i j, bus.uplink i ≠ none → bus.uplink j ≠ none →
    bus.master.currentTxNodeId ≠ unallocatedNodeId → i = j

def SlotHasOneSender (cfg : BusConfig n) (bus : Bus n) : BusAction n → Prop
  | .slot input => ∀ bus', (busSystem cfg).step bus (.slot input) = .ok bus' → bus'.OneSender
  | _ => True

/-- In every run on the dual channel in which the nodes take in announced slots only and give up their ids
before the master does, a node sends only in a slot of its own id, and no two nodes that have an id send in one
slot. -/
theorem one_node_sends_in_a_slot (hdual : cfg.master.mode = .dual) (hpos : 0 < cfg.master.numTxNodesScheduled.toNat)
    (hwidth : cfg.master.numTxNodesScheduled.toNat ≤ maxTxNodesScheduled) (hids : Function.Injective cfg.uniqueId)
    (h : (busSystem cfg).init bus) (as : List (BusAction n))
    (htakes : (busSystem cfg).RunMeets (TakesAnnounced cfg.master.numTxNodesScheduled.toNat) bus as)
    (hfirst : (busSystem cfg).RunMeets NodesGiveUpFirst bus as) :
    (busSystem cfg).RunMeets (SlotHasOneSender cfg) bus as := by
  have hboth := System.runMeets_and.mpr ⟨htakes, hfirst⟩
  refine System.runMeets_of_kept (I := fun bus => (busSystem cfg).Reachable bus ∧
    bus.InSlots cfg.master.numTxNodesScheduled.toNat ∧ bus.IdsApart cfg) ?_ ?_ ⟨.init h, .init h, .init h⟩ hboth
  · rintro bus a ⟨hreach, hslots, hapart⟩ ⟨htakes, hfirst⟩
    cases a with
    | slot input =>
        intro bus' hs
        have hreach' : (busSystem cfg).Reachable bus' := .step hreach trivial hs
        have hapart' := hapart.step hdual hids hreach hfirst hs
        have hs : bus.step cfg.master.mode (.slot input) = .ok bus' := hs
        rw [hdual] at hs
        obtain ⟨hslots', hsends⟩ := hslots.slot hpos hwidth
          (scheduled_of_reaches hpos (devices_of_reachable hreach).1)
          (ready_of_bus hreach) htakes hs
        have howner : ∀ i, bus'.uplink i ≠ none →
          bus'.master.currentTxNodeId = (bus'.node i).nodeId := fun i hsent =>
          (hslots'.knows i).owner (Nat.zero_le _) ((validIds_of_reachable hreach').nodeId i) (hsends i hsent)
        refine ⟨howner, fun i j hi hj hslot => hapart'.apart i j ?_ ?_⟩
        · rw [← howner i hi]
          exact hslot
        · exact (howner i hi).symm.trans (howner j hj)
    | master call => exact trivial
    | node i call => exact trivial
  · rintro bus a bus' ⟨hreach, hslots, hapart⟩ ⟨htakes, hfirst⟩ hs
    exact ⟨.step hreach trivial hs, hslots.step hdual hpos hwidth
      (scheduled_of_reaches hpos (devices_of_reachable hreach).1)
      (ready_of_bus hreach) htakes hs, hapart.step hdual hids hreach hfirst hs⟩

/-- Both nodes join, and each of them sends in slots of its own. -/
theorem one_node_sends_in_a_slot_joined :
    (busSystem pairConfig).RunMeets (SlotHasOneSender pairConfig) freshPair (bothJoinInputs.map .slot) ∧
      ∃ bus, (busSystem pairConfig).run freshPair (bothJoinInputs.map .slot) = .ok bus ∧
        (bus.node 0).Holds 1 ∧ (bus.node 1).Holds 2 := by
  have hboth : (busSystem pairConfig).RunMeets
    (fun bus a => TakesAnnounced 1 bus a ∧ NodesGiveUpFirst bus a) freshPair
      (bothJoinInputs.map .slot) :=
    System.runMeets_of_checkedRun (fun _ _ => of_decide_eq_true) (by decide +kernel)
  obtain ⟨htakes, hfirst⟩ := System.runMeets_and.mp hboth
  have hjoined : System.holdsAfter ((busSystem pairConfig).run freshPair (bothJoinInputs.map .slot))
      fun bus => decide ((bus.node 0).Holds 1 ∧ (bus.node 1).Holds 2) := by decide +kernel
  obtain ⟨bus, hrun, hholds⟩ := System.exists_of_holdsAfter hjoined
  exact ⟨one_node_sends_in_a_slot rfl (by decide) (by decide) pairConfig_distinct freshPair_init _
    htakes hfirst, bus, hrun,
    of_decide_eq_true hholds⟩

end Bus

end Microbus
