import Microbus.NodeReplies

/-! Whose the frames on the bus are: a frame from a node carries the id of the node that sent it, and no other node has
that id. -/
namespace Microbus

open Transition

section Parts

variable {n : Nat}

theorem Uplink.read {uplink : Uplink n} {frames : Fin n → Option Packet}
    (h : masterAcceptsFrame (uplink.received frames).1 (uplink.received frames).2) :
    ∃ j, frames j = some (uplink.received frames).1 := by
  have hzero : ¬ masterAcceptsFrame Packet.zero false := by decide
  cases uplink with
  | lost => exact absurd h hzero
  | corrupt noise => exact absurd h.2.1.symm Bool.false_ne_true
  | intact j =>
      refine ⟨j, ?_⟩
      change frames j = some ((frames j).getD Packet.zero)
      cases hj : frames j with
      | none =>
          rw [show (Uplink.intact j).received frames = ((frames j).getD Packet.zero, false) from rfl, hj] at h
          exact absurd h hzero
      | some p => rfl

/-- What the network manager of a master keeps, it has after the post-process. -/
theorem members_of_postProcess {cfg : MasterConfig} (hdual : cfg.mode = .dual) {master m : Master}
    (h : cfg.Reaches master) {k : Nat}
    (hpost : masterDualChannelPipelinedPostProcess master = .ok (k, m)) :
    Members m.nwManager m.masterNodeTimeToLive := by
  obtain ⟨mode, numTx, maxTx, maxRx⟩ := cfg
  obtain rfl : mode = .dual := hdual
  have hm : MasterConfig.Reaches ⟨.dual, numTx, maxTx, maxRx⟩ m := by
    refine h.step .postProcess fun s hmaster => ?_
    rw [← hmaster] at hpost
    exact ⟨s.afterTx m, bind_eq_ok.mpr ⟨(k, m), hpost, rfl⟩, rfl⟩
  obtain ⟨s, hreach, hmaster⟩ := hm
  exact hmaster ▸ members_of_reachable hreach

theorem Node.Fresh.offered {node : Node} (h : node.Fresh) : node.offered = none :=
  if_neg fun hc => Bool.false_ne_true (h.sentNewNodeRequest.symm.trans hc.2)

theorem Node.call_offered {mode : ChannelMode} {node node' : Node} {call : NodeCall}
    (h : node.step (call.action mode) = .ok node') :
    node'.offered = node.offered ∨ node'.offered = none := by
  cases call with
  | allocate =>
      obtain ⟨⟨r, n⟩, halloc, h⟩ := bind_eq_ok.mp h
      obtain ⟨⟨r', m⟩, -, halloc⟩ := bind_eq_ok.mp halloc
      cases halloc
      cases h
      exact Or.inl rfl
  | write data =>
      cases h
      exact Or.inl rfl
  | submit numBytes =>
      obtain ⟨u, q, -, -, rfl⟩ := nodeSubmit_ok h
      exact Or.inl rfl
  | peek =>
      obtain ⟨r, -, h⟩ := bind_eq_ok.mp h
      cases h
      exact Or.inl rfl
  | pop =>
      obtain ⟨rpm, hpop, h⟩ := bind_eq_ok.mp h
      cases h
      have hpackets : ({ node with rxPacketManager := rpm } : Node).packetAt = node.packetAt :=
        funext (popNextDataPacket_ok hpop).2
      unfold Node.offered
      rw [hpackets]
      exact Or.inl rfl
  | reset => exact Or.inr (nodeReset_ok h).1.offered

theorem nodeId_of_call {node : Fin n → Node} {i : Fin n} {node' : Node} {mode : ChannelMode} {call : NodeCall}
    (hc : (node i).step (call.action mode) = .ok node') (j : Fin n)
    (hjoined : (Function.update node i node' j).nodeId ≠ unallocatedNodeId) :
    (node j).nodeId = (Function.update node i node' j).nodeId := by
  by_cases hj : j = i
  · subst hj
    rw [Function.update_self] at hjoined ⊢
    rcases Node.call_same hc with ⟨-, hfresh⟩ | ⟨hsame, -⟩
    · exact absurd hfresh.nodeId hjoined
    · exact hsame.symm
  · rw [Function.update_of_ne hj]

end Parts

/-- A reply of node `j` with the id `d` that the master is to hear. -/
structure Bus.Answers {n : Nat} (cfg : BusConfig n) (bus : Bus n) (j : Fin n) (d : TNodeIndex) : Prop where
  joined : d ≠ unallocatedNodeId
  asked : ∀ e ∈ bus.master.nwManager.newNodes, e.2 = d → e.1 = cfg.uniqueId j
  owner : ∀ i, (bus.node i).nodeId = d → i = j
  sender : (bus.node j).nodeId = d ∨ (bus.node j).offered = none

/-- What holds between two actions of a run in which the nodes give up their ids first. -/
structure Bus.Signed {n : Nat} (cfg : BusConfig n) (bus : Bus n) : Prop where
  reachable : (busSystem cfg).Reachable bus
  apart : bus.IdsApart cfg
  labelled : ∀ i, (bus.node i).Labelled
  answers : ∀ j, ∀ p ∈ bus.uplink j, p.fromNode → bus.Answers cfg j p.srcNodeId

namespace Bus.Signed

variable {n : Nat} {cfg : BusConfig n} {bus bus' : Bus n} {input : SlotInput n} {i : Fin n} {d : TNodeIndex}

theorem init (h : (busSystem cfg).init bus) : bus.Signed cfg := by
  obtain ⟨-, hnodes, -, hup⟩ := id h
  refine ⟨.init h, .init h, fun i => ?_, fun j p hp => ?_⟩
  · obtain ⟨entries, hnode⟩ := hnodes i
    exact (nodeInit_blank hnode).1.labelled
  · rw [hup] at hp
    cases hp

/-- Nothing is under way with an id that a node is offered. -/
theorem silent (h : bus.Signed cfg) (hids : Function.Injective cfg.uniqueId) (hfirst : bus.GivesUpFirst input)
    (hoffered : (bus.node i).offered = some d) : ∀ j, ∀ p ∈ bus.uplink j, p.fromNode → p.srcNodeId ≠ d := by
  rintro j p hp hnode rfl
  obtain ⟨hrequest, -⟩ := hfirst.offered i _ hoffered
  have hanswers := h.answers j p hp hnode
  have hij : i = j := hids ((h.apart.uniqueId i).symm.trans (hanswers.asked _ hrequest rfl))
  subst hij
  rcases hanswers.sender with hid | hnone
  · rw [Node.offered, if_neg fun hc => hanswers.joined (hid.symm.trans hc.1)] at hoffered
    cases hoffered
  · cases hnone.symm.trans hoffered

/-- Nobody but the node that keeps an id, or takes it, has sent with it. -/
theorem own (h : bus.Signed cfg) (hids : Function.Injective cfg.uniqueId) (hfirst : bus.GivesUpFirst input)
    (hclaim : (bus.node i).kept (input.nodeUs i) = some d ∨ (bus.node i).offered = some d) :
    ∀ j, ∀ p ∈ bus.uplink j, p.fromNode → p.srcNodeId = d → j = i := by
  intro j p hp hnode hsrc
  rcases hclaim with hkept | hoffered
  · exact ((h.answers j p hp hnode).owner i ((Node.nodeId_of_kept hkept).trans hsrc.symm)).symm
  · exact absurd hsrc (h.silent hids hfirst hoffered j p hp hnode)

/-- In a slot every node answers with its id and the number that it accepted last. -/
theorem slot (h : bus.Signed cfg) (hdual : cfg.master.mode = .dual) (hids : Function.Injective cfg.uniqueId)
    (hfirst : bus.GivesUpFirst input) (hs : (busSystem cfg).step bus (.slot input) = .ok bus') :
    bus'.Signed cfg ∧ ∀ i, ∀ p ∈ bus'.uplink i, p.fromNode → (bus'.node i).Replies p := by
  have hready := ready_of_bus h.reachable
  have hreach : (busSystem cfg).Reachable bus' := .step h.reachable trivial hs
  have hs : bus.step cfg.master.mode (.slot input) = .ok bus' := hs
  rw [hdual] at hs
  have hapart := h.apart.slot hids (members_of_bus h.reachable) hready
    (validIds_of_reachable h.reachable).nodeId hfirst hs
  obtain ⟨k, m, master, downlink, slots, -, -, hslots, rfl⟩ := Bus.runDualChannel_ok hs
  have hlabelled := fun i => Node.runDualChannel_labelled (h.labelled i) (hready i)
    (txInv_of_reachable ((devices_of_reachable h.reachable).2 i)) (hslots i)
  refine ⟨⟨hreach, hapart, fun i => (hlabelled i).1, fun j p hp hnode => ?_⟩, fun i => (hlabelled i).2⟩
  have hreplies := (hlabelled j).2 p hp hnode
  refine ⟨hreplies.srcNodeId ▸ hreplies.joined, fun e he heq => ?_, fun i hi => ?_,
    Or.inl hreplies.srcNodeId.symm⟩
  · exact hapart.asked j hreplies.joined e he (heq.trans hreplies.srcNodeId)
  · have hsame := hi.trans hreplies.srcNodeId
    exact hapart.apart i j (fun hun => hreplies.joined (hsame.symm.trans hun)) hsame

theorem masterCall (h : bus.Signed cfg) {call : MasterCall} {master : Master} (hc : bus.master.call call = .ok master) :
    Bus.Signed cfg { bus with master } := by
  obtain ⟨-, hnw, -⟩ := Master.call_keeps hc
  have hs : (busSystem cfg).step bus (.master call) = .ok { bus with master } := bind_eq_ok.mpr ⟨master, hc, rfl⟩
  refine ⟨.step h.reachable trivial hs, h.apart.masterCall (validIds_of_reachable h.reachable).nodeId hc, h.labelled,
    fun j p hp hnode => ?_⟩
  have hanswers := h.answers j p hp hnode
  refine ⟨hanswers.joined, fun e he => ?_, hanswers.owner, hanswers.sender⟩
  change e ∈ master.nwManager.newNodes at he
  rw [hnw] at he
  exact hanswers.asked e he

theorem nodeCall (h : bus.Signed cfg) {call : NodeCall} {node : Node}
    (hc : (bus.node i).step (call.action cfg.master.mode) = .ok node) :
    Bus.Signed cfg { bus with node := Function.update bus.node i node } := by
  have hs : (busSystem cfg).step bus (.node i call) = .ok { bus with node := Function.update bus.node i node } :=
    bind_eq_ok.mpr ⟨node, hc, rfl⟩
  refine ⟨.step h.reachable trivial hs, h.apart.nodeCall hc, fun j => ?_, fun j p hp hnode => ?_⟩
  · change (Function.update bus.node i node j).Labelled
    by_cases hj : j = i
    · subst hj
      rw [Function.update_self]
      exact Node.call_labelled (h.labelled j) (ready_of_bus h.reachable j)
        (txInv_of_reachable ((devices_of_reachable h.reachable).2 j)) hc
    · rw [Function.update_of_ne hj]
      exact h.labelled j
  · have hanswers := h.answers j p hp hnode
    refine ⟨hanswers.joined, hanswers.asked, fun k hk => ?_, ?_⟩
    · have hk : (Function.update bus.node i node k).nodeId = p.srcNodeId := hk
      exact hanswers.owner k ((nodeId_of_call hc k fun hun => hanswers.joined (hk.symm.trans hun)).trans hk)
    · change (Function.update bus.node i node j).nodeId = _ ∨ (Function.update bus.node i node j).offered = none
      by_cases hj : j = i
      · subst hj
        rw [Function.update_self]
        rcases Node.call_same hc with ⟨-, hfresh⟩ | ⟨hsame, -⟩
        · exact Or.inr hfresh.offered
        · rw [hsame]
          exact hanswers.sender.imp_right fun hnone => (Node.call_offered hc).elim hnone.symm.substr id
      · rw [Function.update_of_ne hj]
        exact hanswers.sender

end Bus.Signed

end Microbus
