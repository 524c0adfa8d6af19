import Microbus.NodeTx

/-! The application of a node between the allocation of a packet and its submission. -/
namespace Microbus

open Transition

/-- A node and what became of its application's last packet: whether it was given one that it did not submit yet,
and whether the node was started anew since then. -/
structure Application where
  node : Node
  holds : Bool
  lost : Bool

namespace Application

def step {mode : ChannelMode} (s : Application) : NodeAction mode → Except Fault Application
  | .allocate => do
      let (packet, node) ← nodeAllocateTxPacket s.node
      if packet.isSome then return ⟨node, true, false⟩
      return { s with node }
  | .submit numBytes => do
      let node ← nodeSubmitAllocatedTxPacket s.node numBytes
      return { s with node, holds := false }
  | a => do
      let node ← s.node.step a
      return { s with node, lost := s.lost || decide (s.node.resets a) }

/-- A packet is submitted after a successful allocation only, and is not too long. -/
def Disciplined {mode : ChannelMode} (s : Application) : NodeAction mode → Prop
  | .submit numBytes => s.holds = true ∧ numBytes.toNat ≤ nodePacketDataSize
  | _ => True

instance {mode : ChannelMode} (s : Application) : (a : NodeAction mode) → Decidable (s.Disciplined a)
  | .submit numBytes => inferInstanceAs (Decidable (s.holds = true ∧ numBytes.toNat ≤ nodePacketDataSize))
  | .preProcess _ _ | .postProcess | .isTxMode | .processRx _ _ | .processTx | .updateTimeUs _ | .allocate
      | .write _ | .peek
  | .pop | .reset => inferInstanceAs (Decidable True)

end Application

def applications (cfg : NodeConfig) : System Application (NodeAction cfg.mode) Fault where
  init s := (nodeSystem cfg).init s.node ∧ s.holds = false ∧ s.lost = false
  step := Application.step

/-- The packet waits behind the window, under the id that the node has now. -/
def Node.Queues (node : Node) (numBytes : UInt16) (node' : Node) : Prop :=
  ∃ i, node.txManager.allocatedPacket = some i ∧ node'.txManager.Live i ∧
    (node'.txManager.entry i).packet = fillHeader (node.txManager.entry i).packet false node.nodeId
      masterNodeId .nodeData
      numBytes (node.txManager.txSeqNumEnd masterNodeId) ∧
    node'.txManager.txSeqNumEnd masterNodeId = incrSequenceNum (node.txManager.txSeqNumEnd masterNodeId) ∧
    node'.txManager.allocatedPacket = none ∧ ∀ j, j ≠ i → node'.txManager.entry j = node.txManager.entry j

def Node.Discards (node node' : Node) : Prop :=
  ∃ i, node.txManager.allocatedPacket = some i ∧ (node'.txManager.entry i).inUse = false ∧
    node'.txManager.txSeqNumEnd = node.txManager.txSeqNumEnd ∧ node'.txManager.allocatedPacket = none

namespace Application

/-- No assertion of the call fails, and a packet that is submitted is queued or given back. -/
def CallIsSafe {mode : ChannelMode} (s : Application) : NodeAction mode → Prop
  | .allocate => Completes (nodeAllocateTxPacket s.node)
  | .submit numBytes => ∃ node', nodeSubmitAllocatedTxPacket s.node numBytes = .ok node' ∧
      (s.node.Queues numBytes node' ∨ s.node.Discards node')
  | _ => True

/-- No packet is asked for while one is held, unless none is free, and none is submitted after the node was started
anew or while it has no id. -/
def CallIsTimely {mode : ChannelMode} (s : Application) : NodeAction mode → Prop
  | .allocate => s.holds = true → s.lost = true ∨ ∀ i, i < s.node.txManager.size →
      (s.node.txManager.entry i).inUse = true
  | .submit _ => s.lost = false ∧ s.node.nodeId.toNat < maxNodes
  | _ => True

instance {mode : ChannelMode} (s : Application) : (a : NodeAction mode) → Decidable (s.CallIsTimely a)
  | .allocate => inferInstanceAs (Decidable
      (s.holds = true → s.lost = true ∨ ∀ i, i < s.node.txManager.size →
        (s.node.txManager.entry i).inUse = true))
  | .submit _ => inferInstanceAs (Decidable (s.lost = false ∧ s.node.nodeId.toNat < maxNodes))
  | .preProcess _ _ | .postProcess | .isTxMode | .processRx _ _ | .processTx | .updateTimeUs _ | .write _ | .peek | .pop
  | .reset => inferInstanceAs (Decidable True)

/-- The node keeps the packet that was allocated as long as it is not started anew. -/
structure Holds (s : Application) : Prop where
  ready : s.node.Ready
  txInv : ∃ g, NodeTxInv s.node.txManager g
  allocated : s.node.txManager.allocatedPacket.isSome = true ↔ s.holds = true ∧ s.lost = false

end Application

theorem keptByNode_allocated (u : Option Nat) : KeptByNode fun m => m.allocatedPacket = u where
  touched h t _ := t.allocated.trans h
  ack h hack := (rxAckSeqNum_packets hack).allocated.trans h
  choose h hget := by
    refine Eq.trans ?_ h
    unfold nodeGetNextTxDataPacket at hget
    split at hget
    · cases hget
      rfl
    · obtain ⟨⟨e, m₁⟩, hnext, hret⟩ := bind_eq_ok.mp hget
      obtain ⟨-, ⟨rfl, -, rfl⟩ | ⟨rfl, -, -, rfl⟩ | ⟨i, rfl, -, -, -, rfl⟩⟩ := getNext_ok hnext <;>
        cases hret <;> rfl

theorem nodeSubmit_ok {node node' : Node} {numBytes : UInt16}
    (h : nodeSubmitAllocatedTxPacket node numBytes = .ok node') :
    ∃ i q, node.txManager.allocatedPacket = some i ∧ addActiveTxNode node.txManager false masterNodeId = .ok q ∧
      node' = { node with txManager := node.txManager.submitEntry i (fillHeader (node.txManager.entry i).packet false
        node.nodeId masterNodeId .nodeData numBytes (node.txManager.txSeqNumEnd masterNodeId)) masterNodeId q } := by
  obtain ⟨_, -, h⟩ := bind_eq_ok.mp h
  obtain ⟨_, -, h⟩ := bind_eq_ok.mp h
  obtain ⟨m, hm, h⟩ := bind_eq_ok.mp h
  cases h
  rcases submitAllocatedTxPacket_ok hm with ⟨hc, -, -⟩ | ⟨i, q, ha, -, -, -, -, hadd, rfl⟩
  · cases hc
  · exact ⟨i, q, ha, hadd, rfl⟩

namespace Application

variable {mode : ChannelMode} {s s' : Application} {a : NodeAction mode}

theorem Holds.start {cfg : NodeConfig} (h : (applications cfg).init s) : s.Holds := by
  obtain ⟨⟨entries, hinit⟩, hholds, hlost⟩ := h
  have hfresh := (nodeInit_ok hinit).1
  refine ⟨hfresh.ready, KeptByNode.fresh (P := fun m => ∃ g, NodeTxInv m g) holdsAnew_txInv hfresh, ?_⟩
  have hnone := KeptByNode.fresh (P := fun m => m.allocatedPacket = none) (fun _ _ => rfl) hfresh
  rw [hnone, hholds]
  exact iff_of_false (by decide) fun hc => Bool.noConfusion hc.1

theorem Holds.slot (h : s.Holds) {node' : Node} (hallocate : a ≠ .allocate)
    (hsubmit : ∀ numBytes, a ≠ .submit numBytes) (hs : s.node.step a = .ok node') :
    Application.Holds { s with node := node', lost := s.lost || decide (s.node.resets a) } := by
  refine ⟨h.ready.step hs, Node.step_txInv h.ready.initialised h.txInv hs, ?_⟩
  by_cases hreset : s.node.resets a
  · have hnone := (keptByNode_allocated none).step h.ready.initialised (fun hc => absurd hreset hc) (fun _ _ _ => rfl)
      hallocate hsubmit hs
    rw [hnone]
    simp [hreset]
  · have hkept := (keptByNode_allocated _).step h.ready.initialised (fun _ => rfl)
      (fun hc => absurd hc hreset) hallocate
      hsubmit hs
    rw [hkept, h.allocated]
    simp [hreset]

theorem Holds.allocate (h : s.Holds) {r : Option Nat} {node' : Node}
    (ha : nodeAllocateTxPacket s.node = .ok (r, node')) :
    (r = none ∧ node' = s.node) ∨ ∃ i, r = some i ∧ node'.txManager.allocatedPacket = some i := by
  obtain ⟨⟨r', m⟩, halloc, hret⟩ := bind_eq_ok.mp ha
  cases hret
  obtain ⟨g, hg⟩ := h.txInv
  rcases hg.allocate halloc with ⟨rfl, rfl⟩ | ⟨i, rfl, -, -, rfl, -⟩
  · exact Or.inl ⟨rfl, rfl⟩
  · exact Or.inr ⟨i, rfl, rfl⟩

theorem Holds.step (h : s.Holds) (hs : s.step a = .ok s') : s'.Holds := by
  cases a with
  | allocate =>
      obtain ⟨⟨r, n⟩, halloc, hs⟩ := bind_eq_ok.mp hs
      have hn : s.node.step (.allocate : NodeAction mode) = .ok n := bind_eq_ok.mpr ⟨_, halloc, rfl⟩
      have hready := h.ready.step hn
      have hinv := Node.step_txInv h.ready.initialised h.txInv hn
      rcases h.allocate halloc with ⟨rfl, rfl⟩ | ⟨i, rfl, hi⟩
      · cases hs
        exact h
      · cases hs
        refine ⟨hready, hinv, ?_⟩
        rw [hi]
        exact iff_of_true rfl ⟨rfl, rfl⟩
  | submit numBytes =>
      obtain ⟨n, hn, hs⟩ := bind_eq_ok.mp hs
      cases hs
      have hstep : s.node.step (.submit numBytes : NodeAction mode) = .ok n := hn
      refine ⟨h.ready.step hstep, Node.step_txInv h.ready.initialised h.txInv hstep, ?_⟩
      obtain ⟨i, q, -, -, rfl⟩ := nodeSubmit_ok hn
      exact iff_of_false nofun fun hc => Bool.noConfusion hc.1
  | _ =>
      obtain ⟨n, hn, hs⟩ := bind_eq_ok.mp hs
      cases hs
      refine h.slot ?_ ?_ hn
      · exact nofun
      · exact nofun

end Application

/-- While a packet is pending an allocation completes only if it finds no free entry. -/
theorem completes_allocateTxPacket {m : TxManager} : Completes (allocateTxPacket m) ↔
    m.allocatedPacket = none ∨ ∀ i, i < m.size → (m.entry i).inUse = true := by
  unfold allocateTxPacket allocatePacketEntry
  cases hfind : (List.range m.packetStore.maxEntries.toNat).find? (fun i => !(m.packetStore.entries i).inUse) with
  | none =>
      refine iff_of_true (.ok _) (Or.inr fun i hi => ?_)
      simpa [TxManager.entry] using List.find?_eq_none.mp hfind i (List.mem_range.mpr hi)
  | some i =>
      have hfree : (m.entry i).inUse = false := by simpa [TxManager.entry] using List.find?_some hfind
      have hlt : i < m.size := List.mem_range.mp (List.mem_of_find?_eq_some hfind)
      have hroom : ¬ ∀ j, j < m.size → (m.entry j).inUse = true :=
        fun hc => Bool.noConfusion (hfree.symm.trans (hc i hlt))
      dsimp only
      cases hpending : m.allocatedPacket with
      | none =>
          refine iff_of_true ?_ (Or.inl rfl)
          rw [if_neg (by decide)]
          split
          · exact .ok _
          · exact .ok _
      | some u =>
          simp only [Option.isSome_some, if_true]
          exact iff_of_false Completes.not_error fun hc => hc.elim (Option.some_ne_none u) hroom

/-- A node submits a pending packet exactly when it has an id. -/
theorem completes_nodeSubmit {node : Node} {numBytes : UInt16} (hsize : numBytes.toNat ≤ nodePacketDataSize)
    (htable : node.txManager.maxTxNodes = 1) : Completes (nodeSubmitAllocatedTxPacket node numBytes) ↔
      node.txManager.allocatedPacket.isSome = true ∧ node.nodeId.toNat < maxNodes := by
  constructor
  · rintro ⟨node', h⟩
    obtain ⟨i, q, ha, -, -⟩ := nodeSubmit_ok h
    obtain ⟨_, -, h⟩ := bind_eq_ok.mp h
    obtain ⟨_, -, h⟩ := bind_eq_ok.mp h
    obtain ⟨m, hm, -⟩ := bind_eq_ok.mp h
    unfold submitAllocatedTxPacket at hm
    rw [if_neg fun hc => Bool.noConfusion hc.1] at hm
    obtain ⟨_, hids, -⟩ := bind_eq_ok.mp hm
    exact ⟨by rw [ha]; rfl, (microbusAssert_ok.mp hids).1⟩
  · rintro ⟨hsome, hid⟩
    obtain ⟨i, ha⟩ := Option.isSome_iff_exists.mp hsome
    have hqueue : addActiveTxNode node.txManager false masterNodeId = .ok node.txManager.activeTxNodes := by
      unfold addActiveTxNode
      rw [if_neg fun hc => Bool.noConfusion hc.1]
    have htotal : ∃ m, submitAllocatedTxPacket node.txManager false 0 node.nodeId masterNodeId .nodeData
      numBytes = .ok m :=
      submitAllocatedTxPacket_total ha ⟨hid, by decide⟩ (by rw [htable]; decide)
        (fun _ => ⟨rfl, by decide⟩) hqueue
    obtain ⟨m, hm⟩ := htotal
    refine ⟨{ node with txManager := m }, bind_eq_ok.mpr ⟨(), microbusAssert_ok.mpr hsize, ?_⟩⟩
    exact bind_eq_ok.mpr ⟨(), microbusAssert_ok.mpr hsome, bind_eq_ok.mpr ⟨m, hm, rfl⟩⟩

namespace Application

variable {mode : ChannelMode} {s s' : Application} {a : NodeAction mode}

theorem Holds.allocate_iff (h : s.Holds) :
    (s.CallIsSafe (.allocate : NodeAction mode)) ↔ s.CallIsTimely (.allocate : NodeAction mode) := by
  have hcomplete : Completes (nodeAllocateTxPacket s.node) ↔ Completes (allocateTxPacket s.node.txManager) :=
    Completes.bind_iff_left fun _ _ => .ok _
  change Completes (nodeAllocateTxPacket s.node) ↔ (s.holds = true → s.lost = true ∨ _)
  rw [hcomplete, completes_allocateTxPacket]
  have hnone : s.node.txManager.allocatedPacket = none ↔ ¬ (s.holds = true ∧ s.lost = false) := by
    rw [← h.allocated, Option.not_isSome_iff_eq_none]
  rw [hnone, not_and, Bool.not_eq_false]
  by_cases hholds : s.holds = true
  · rw [forall_prop_of_true hholds, forall_prop_of_true hholds]
  · exact iff_of_true (Or.inl fun hc => absurd hc hholds) fun hc => absurd hc hholds

theorem Holds.queues (h : s.Holds) {numBytes : UInt16} {node' : Node}
    (hn : nodeSubmitAllocatedTxPacket s.node numBytes = .ok node') : s.node.Queues numBytes node' := by
  obtain ⟨g, hg⟩ := h.txInv
  obtain ⟨i, q, ha, -, rfl⟩ := nodeSubmit_ok hn
  refine ⟨i, ha, ?_, ?_, ?_, rfl, ?_⟩
  · exact (live_submit ha (hg.store.allocated i ha) i).mpr (Or.inl rfl)
  · change ((s.node.txManager.submitEntry i _ masterNodeId q).entry i).packet = _
    rw [entry_submit, if_pos rfl]
  · exact Function.update_self masterNodeId _ s.node.txManager.txSeqNumEnd
  · intro j hj
    change (s.node.txManager.submitEntry i _ masterNodeId q).entry j = _
    rw [entry_submit, if_neg hj]

theorem Holds.submit_iff (h : s.Holds) {numBytes : UInt16} (hd : s.Disciplined (.submit numBytes : NodeAction mode)) :
    s.CallIsSafe (.submit numBytes : NodeAction mode) ↔ s.CallIsTimely (.submit numBytes : NodeAction mode) := by
  obtain ⟨hholds, hsize⟩ := hd
  obtain ⟨g, hg⟩ := h.txInv
  have hcomplete : Completes (nodeSubmitAllocatedTxPacket s.node numBytes) ↔ _ := completes_nodeSubmit hsize hg.table
  rw [h.allocated, and_iff_right hholds] at hcomplete
  refine Iff.trans ?_ hcomplete
  constructor
  · rintro ⟨node', hn, -⟩
    exact ⟨node', hn⟩
  · rintro ⟨node', hn⟩
    exact ⟨node', hn, Or.inl (h.queues hn)⟩

theorem Holds.call_iff (h : s.Holds) (hd : s.Disciplined a) : s.CallIsSafe a ↔ s.CallIsTimely a := by
  cases a with
  | allocate => exact h.allocate_iff
  | submit numBytes => exact h.submit_iff hd
  | _ => exact Iff.rfl

end Application

/-- In a run of a node whose application submits only what it was given, all calls are safe exactly when it asks for
no packet while it holds one that the node still has, unless the store is full, and submits none that the node lost
when it was started anew or while the node has no id. -/
theorem calls_are_safe_iff {cfg : NodeConfig} {s : Application} {as : List (NodeAction cfg.mode)}
    (h : (applications cfg).init s) (hdisciplined : (applications cfg).RunMeets Application.Disciplined s as) :
    (applications cfg).RunMeets Application.CallIsSafe s as ↔
    (applications cfg).RunMeets Application.CallIsTimely s as :=
  System.runMeets_congr (I := Application.Holds) (fun _ _ hs hd => hs.call_iff hd)
    (fun _ _ _ hs _ hstep => hs.step hstep)
    (Application.Holds.start h) hdisciplined

def blankApplication : Application := ⟨blankNode, false, false⟩

theorem blankApplication_init : (applications dualNodeConfig).init blankApplication := ⟨blankNode_init, rfl, rfl⟩

/-- A packet is allocated before the node joins, and submitted after it. -/
def joinBetween : List (NodeAction .dual) :=
  .allocate :: nodeSlot Packet.zero ++ nodeSlot responseFrame ++ [.submit 4]

/-- The packet is queued under the id that the node was given in between. -/
theorem calls_are_safe_iff_between :
    (applications dualNodeConfig).RunMeets Application.CallIsSafe blankApplication joinBetween :=
  (calls_are_safe_iff blankApplication_init (System.runMeets_of_checkedRun
    (fun s a h => of_decide_eq_true (p := s.Disciplined a) h) (by decide +kernel))).mpr
    (System.runMeets_of_checkedRun (fun s a h => of_decide_eq_true (p := s.CallIsTimely a) h) (by decide +kernel))

/-- The submission of a node that has no id fails, and so does that of a packet that was allocated before the node left
the network. -/
theorem submission_fails :
    (∃ s : Application, (applications dualNodeConfig).ReachableWhen Application.Disciplined s ∧
      s.Disciplined (.submit 4 : NodeAction .dual) ∧ s.lost = false ∧
      ¬ s.CallIsSafe (.submit 4 : NodeAction .dual)) ∧
    ∃ s : Application, (applications dualNodeConfig).ReachableWhen Application.Disciplined s ∧
      s.Disciplined (.submit 4 : NodeAction .dual) ∧ s.node.nodeId = 1 ∧
      ¬ s.CallIsSafe (.submit 4 : NodeAction .dual) := by
  constructor
  · obtain ⟨s, hs, htest⟩ := System.exists_of_checkedRun (S := applications dualNodeConfig) (s := blankApplication)
      (p := fun s => decide (s.Disciplined (.submit 4 : NodeAction .dual) ∧ s.lost = false) &&
        (System.faultOf (nodeSubmitAllocatedTxPacket s.node 4)).isSome) [.allocate]
      (fun s a h => of_decide_eq_true (p := s.Disciplined a) h) (.init blankApplication_init) (by decide +kernel)
    obtain ⟨hstate, hfault⟩ := Bool.and_eq_true_iff.mp htest
    obtain ⟨hd, hlost⟩ := of_decide_eq_true hstate
    refine ⟨s, hs, hd, hlost, ?_⟩
    rintro ⟨node', hn, -⟩
    rw [hn] at hfault
    cases hfault
  · obtain ⟨s, hs, htest⟩ := System.exists_of_checkedRun (S := applications dualNodeConfig) (s := blankApplication)
      (p := fun s => decide (s.Disciplined (.submit 4 : NodeAction .dual) ∧ s.node.nodeId = 1) &&
        (System.faultOf (nodeSubmitAllocatedTxPacket s.node 4)).isSome)
      (nodeSlot Packet.zero ++ nodeSlot responseFrame ++ [.allocate, .updateTimeUs 600000] ++ nodeSlot Packet.zero ++
        nodeSlot responseFrame)
      (fun s a h => of_decide_eq_true (p := s.Disciplined a) h) (.init blankApplication_init) (by decide +kernel)
    obtain ⟨hstate, hfault⟩ := Bool.and_eq_true_iff.mp htest
    obtain ⟨hd, hid⟩ := of_decide_eq_true hstate
    refine ⟨s, hs, hd, hid, ?_⟩
    rintro ⟨node', hn, -⟩
    rw [hn] at hfault
    cases hfault

end Microbus
