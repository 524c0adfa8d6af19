import Microbus.CleanSlate
import Microbus.MasterStore

/-! Queued packets are found, and sent as they were submitted. -/
namespace Microbus

open Transition

variable {m m' : TxManager} {g : Ledger} {d : TNodeIndex} {given : TNodeIndex → UInt8 → Option Payload}
  {ttl : TimeToLive}

/-- An entry that a search for number `q` of `d` accepts. -/
structure TxManager.Holds (m : TxManager) (d : TNodeIndex) (q : UInt8) (i : Nat) : Prop where
  lt : i < m.packetStore.maxEntries.toNat
  inUse : (m.packetStore.entries i).inUse = true
  dstNodeId : (m.packetStore.entries i).packet.dstNodeId = d
  txSeqNum : (m.packetStore.entries i).packet.txSeqNum = q

theorem TxManager.Holds.numInUse_pos {q : UInt8} {i : Nat} (h : m.Holds d q i) : 0 < m.numInUse :=
  Finset.card_pos.mpr ⟨i, Finset.mem_filter.mpr ⟨Finset.mem_range.mpr h.lt, h.inUse⟩⟩

/-- The functions that search for packets succeed for every id of the table. -/
def TxManager.Searches (m : TxManager) : Prop :=
  ∀ d, d.toNat < maxNodes → ∃ r, getNextTxPacketForNode m true d = .ok r

/-- Acknowledgements succeed, and the searches after them. -/
def TxManager.TakesAcks (m : TxManager) : Prop :=
  ∀ d a, d.toNat < maxNodes → ∃ n m', rxAckSeqNum m d a true = .ok (n, m') ∧ m'.Searches ∧
    ∀ burstSize, ∃ r, masterGetNextTxDataPacket m' burstSize = .ok r

namespace ServedBy

theorem holds (h : ServedBy given m ttl g) {q : UInt8} (hq : m.InWindow d q) : ∃ i, m.Holds d q i := by
  obtain ⟨-, k, hs, he, rfl⟩ := (h.cover.counters.inWindow_iff d).mp hq
  obtain ⟨i, hi⟩ := h.cover.cover d k hs he
  exact ⟨i, hi.live.lt, hi.live.inUse, congrArg Prod.fst hi.key, congrArg Prod.snd hi.key⟩

theorem searches (h : ServedBy given m ttl g) : m.Searches := by
  intro d hd
  have hone : Searchable ⟨fun _ => d, 1, 0⟩ m := by
    refine h.cover.counters.searchable h.cover.findable ?_
    intro x hx
    obtain ⟨i, -, rfl⟩ := NodeQueue.mem_toList.mp hx
    rw [h.table]
    exact hd
  obtain ⟨r, m', hget⟩ := hone d (NodeQueue.mem_toList.mpr ⟨0, Nat.one_pos, rfl⟩)
  exact ⟨_, hget⟩

theorem getNext_total (h : ServedBy given m ttl g) (burstSize : Nat) :
    ∃ r, masterGetNextTxDataPacket m burstSize = .ok r := by
  obtain ⟨q, hq, -, hmem⟩ := h.queue
  exact masterGetNextTxDataPacket_total burstSize h.cover.counters h.cover.findable hq
    fun d hd => h.cover.table d ((hmem d).mp hd)

theorem takesAcks (h : ServedBy given m ttl g) (hf : ¬ m.FindsPending) : m.TakesAcks := by
  intro d a hd
  obtain ⟨n, m', hack, ⟨g', h'⟩, -⟩ := h.rxAck hf a fun _ => hd
  exact ⟨n, m', hack, h'.searches, h'.getNext_total⟩

end ServedBy

/-- In every run whose steps keep the entry that is allocated, each number of each window is
carried by an entry in use, and the functions that search for packets succeed. -/
theorem queued_packets_are_found {cfg : MasterConfig} {s : MasterRun}
    (h : (masterSystem cfg).ReachableWhen KeepsAllocated s) :
    (∀ d q, s.master.tx.txManager.InWindow d q → ∃ i, s.master.tx.txManager.Holds d q i) ∧
      s.master.tx.txManager.Searches ∧
        (¬ s.master.tx.txManager.FindsPending → s.master.tx.txManager.TakesAcks) := by
  obtain ⟨g, hserved⟩ := served_of_reachable h
  exact ⟨fun d q hq => hserved.holds hq, hserved.searches, hserved.takesAcks⟩

def joinAndSubmit : List (MasterAction .single) := [.processRx (joinFrame 11) false, .allocate, .submit 1 5]

theorem joinAndSubmit_keeps : (masterSystem singleConfig).RunMeets KeepsAllocated blankRun joinAndSubmit := by
  refine ⟨?_, fun _ _ => ⟨trivial, fun _ _ => ⟨trivial, fun _ _ => trivial⟩⟩⟩
  rintro ⟨u, d, q, hu, -⟩
  cases hu

/-- The packet to the node that has joined is found. -/
theorem queued_packets_are_found_joined : ∃ s, (masterSystem singleConfig).ReachableWhen KeepsAllocated s ∧
    s.master.tx.txManager.InWindow 1 0 ∧ ∃ i, s.master.tx.txManager.Holds 1 0 i := by
  obtain ⟨s, hrun, hwindow⟩ : ∃ s, (masterSystem singleConfig).run blankRun joinAndSubmit = .ok s ∧
      decide (s.master.tx.txManager.InWindow 1 0) = true := System.exists_of_holdsAfter (by decide +kernel)
  have hs := System.ReachableWhen.run (.init blankRun_init_single) joinAndSubmit_keeps hrun
  have hwindow' := of_decide_eq_true hwindow
  exact ⟨s, hs, hwindow', (queued_packets_are_found hs).1 1 0 hwindow'⟩

/-- Node 1 is sent a packet and acknowledges it. The entry is allocated again and node 1 times out
before the submission, to the node that then joins as node 1. -/
def removedBeforeSubmit : List (MasterAction .dual) :=
  slot (joinFrame 11) ++ [.allocate, .submit 1 5] ++ slot (ackFrame 1 0) ++ [.allocate] ++ timeOut ++
    slot Packet.zero ++
    slot (joinFrame 11) ++ [.submit 1 5]

/-- The removal of a node takes the entry that was allocated, and the packet that is then submitted
lies in no entry in use. -/
theorem removal_loses_allocated :
    ∃ s, (masterSystem dualConfig).Reachable s ∧ s.master.tx.txManager.InWindow 1 0 ∧
    ∀ i, ¬ s.master.tx.txManager.Holds 1 0 i := by
  obtain ⟨s, hrun, hcheck⟩ : ∃ s, (masterSystem dualConfig).run blankRun removedBeforeSubmit = .ok s ∧
      (decide (s.master.tx.txManager.InWindow 1 0) && s.master.tx.txManager.numInUse == 0) = true :=
    System.exists_of_holdsAfter (by decide +kernel)
  rw [Bool.and_eq_true, beq_iff_eq] at hcheck
  refine ⟨s, System.Reachable.run (.init blankRun_init) hrun, of_decide_eq_true hcheck.1, ?_⟩
  intro i hi
  exact hi.numInUse_pos.ne' hcheck.2

/-- Two entries in use carry one number of a window. -/
def TxManager.Ambiguous (m : TxManager) : Prop :=
  ∃ d q i j, m.InWindow d q ∧ i ≠ j ∧ m.Holds d q i ∧ m.Holds d q j

/-- Without a second entry for its number the packet that is chosen is the one that was given it. -/
theorem Served.chosen (h : Served given m ttl) (hunique : ¬ m.Ambiguous) {burstSize e : Nat}
    (hget : masterGetNextTxDataPacket m burstSize = .ok (some e, m')) :
    given (m.entry e).packet.dstNodeId (m.entry e).packet.txSeqNum = some (m.entry e).packet.payload := by
  obtain ⟨g, h⟩ := h
  have hc := h.cover.counters
  obtain ⟨queue, -, p, i, c, -, ⟨hr, -⟩ | ⟨d, e', -, hr, hidle, hend, -, hfind, -⟩⟩ :=
    masterGetNextTxDataPacket_ok hget
  · cases hr
  · cases hr
    have hlt := hc.next_lt_stop hend
    obtain ⟨-, -, hfull⟩ := hc.of_not_idle hidle
    obtain ⟨hsize, huse, hkey⟩ := findPacketEntry_ok hfind
    rw [hc.next_eq] at hkey
    have hdst : (m.entry e).packet.dstNodeId = d := congrArg Prod.fst hkey
    have hseq : (m.entry e).packet.txSeqNum = seq (g.next d) := congrArg Prod.snd hkey
    obtain ⟨i, hi⟩ := h.cover.cover d (g.next d) (hc.start_le_next d) hlt
    have hei : i = e := by
      by_contra hne
      refine hunique ⟨d, seq (g.next d), i, e, ?_, hne, ?_, ⟨hsize, huse, hdst, hseq⟩⟩
      · exact (hc.inWindow_iff d).mpr ⟨hfull, g.next d, hc.start_le_next d, hlt, rfl⟩
      · exact ⟨hi.live.lt, hi.live.inUse, congrArg Prod.fst hi.key, congrArg Prod.snd hi.key⟩
    subst hei
    rw [hdst, hseq]
    exact hi.given

theorem not_ambiguous_rxAck (h : Served given m ttl) (hf : ¬ m.FindsPending) (hunique : ¬ m.Ambiguous)
    {a : UInt8} {n : Nat} (hack : rxAckSeqNum m d a true = .ok (n, m')) : ¬ m'.Ambiguous := by
  obtain ⟨g, h⟩ := h
  obtain ⟨n', m'', hack', -, hwindow⟩ := h.rxAck (d := d) hf a fun ha => h.table ▸ rxAckSeqNum_source hack ha
  rw [hack] at hack'
  cases hack'
  have hsame := rxAckSeqNum_packets hack
  have hholds : ∀ {x q i}, m'.Holds x q i → m.Holds x q i := by
    intro x q i hi
    have hp : (m'.packetStore.entries i).packet = (m.packetStore.entries i).packet := hsame.packet i
    have hsize : m'.packetStore.maxEntries.toNat = m.packetStore.maxEntries.toNat := hsame.size
    exact ⟨hsize ▸ hi.lt, hsame.inUse i hi.inUse, hp ▸ hi.dstNodeId, hp ▸ hi.txSeqNum⟩
  rintro ⟨x, q, i, j, hq, hij, hi, hj⟩
  exact hunique ⟨x, q, i, j, hwindow x q hq, hij, hholds hi, hholds hj⟩

section Chosen

variable {master master' : Master}

theorem masterUpdateSchedule_chosen (h : masterUpdateSchedule master = .ok master') :
    master'.tx.chosen = master.tx.chosen := by
  obtain ⟨_, _, _, _, -, -, rfl⟩ := masterUpdateSchedule_ok h
  rfl

theorem masterQuickTx_chosen (master : Master) (stray : TNodeIndex → UInt8) :
    (masterQuickTx master stray).tx.chosen = master.tx.chosen := by
  unfold masterQuickTx masterQuickUpdateTxPacket MasterTx.chosen
  cases hr : master.tx.nextTxPacket with
  | none => simp only [hr]
  | some r => cases r <;> simp only [MasterTx.assign, hr]

theorem masterRemoveAny_chosen {k : Nat} (h : masterRemoveAnyTimeoutNodes master = .ok (k, master')) :
    master'.tx.chosen = master.tx.chosen := by
  refine masterRemoveAnyTimeoutNodes_induction (P := fun m => m.tx.chosen = master.tx.chosen) ?_ rfl h
  intro d _ _ m k m' hm hone
  rcases masterRemoveIfTimedOut_ok hone with ⟨-, rfl⟩ | ⟨_, _, _, _, _, -, -, -, -, rfl⟩
  · exact hm
  · exact hm

end Chosen

namespace MasterRun

variable {mode : ChannelMode} {s s' : MasterRun}

/-- The frames returned so far carry what was given their numbers. -/
def ReturnsGiven (s : MasterRun) : Prop := ∀ f ∈ s.returned, f.given = some f.payload

/-- Beside the allocated entry, no number of a window is carried twice when a frame is chosen. -/
def SendsUnambiguous (s : MasterRun) (a : MasterAction mode) : Prop :=
  KeepsAllocated s a ∧
    match a with
    | .postProcess => ¬ s.master.tx.txManager.Ambiguous
    | .processTx _ => ¬ s.master.tx.txManager.Ambiguous
    | _ => True

/-- The frame that is chosen in a state without ambiguity, as it lies in the store at the end of the slot. -/
theorem ReturnsGiven.afterTx (h : s.ReturnsGiven) {m₁ m₂ m₃ : Master}
    (hserved : m₁.Tx (Microbus.Served s.given))
    (hunique : ¬ m₁.tx.txManager.Ambiguous) (htx : masterTx m₁ = .ok m₂) (hpart : TxPart m₂ m₃)
    (hchosen : m₃.tx.chosen = m₂.tx.chosen) : (s.afterTx m₃).ReturnsGiven := by
  intro f hf
  rcases List.mem_append.mp hf with hf | hf
  · exact h f hf
  · obtain ⟨-, ⟨-, hnone⟩ | hget⟩ := masterTx_part htx
    · unfold returnedBy at hf
      rw [hchosen, hnone] at hf
      exact absurd hf List.not_mem_nil
    · unfold returnedBy at hf
      rw [hchosen] at hf
      cases he : m₂.tx.chosen with
      | none =>
          rw [he] at hf
          exact absurd hf List.not_mem_nil
      | some e =>
          rw [he] at hf hget
          obtain rfl := List.mem_singleton.mp hf
          have hgiven := hserved.chosen hunique hget
          have hsame := hpart.message e
          rw [(masterGetNext_packets hget).packet] at hsame
          change s.given (m₃.tx.txManager.entry e).packet.dstNodeId (m₃.tx.txManager.entry e).packet.txSeqNum =
            some (m₃.tx.txManager.entry e).packet.payload
          have hdst : (m₃.tx.txManager.entry e).packet.dstNodeId =
            (m₁.tx.txManager.entry e).packet.dstNodeId := hsame.station
          rw [hdst, hsame.txSeqNum, hsame.payload]
          exact hgiven

theorem ReturnsGiven.step {a : MasterAction mode} (h : s.ReturnsGiven) (hserved : s.Served)
    (hguard : SendsUnambiguous s a) (hs : s.step a = .ok s') : s'.ReturnsGiven := by
  have hkept : KeptBySlots True (Microbus.Served s.given) := keptBySlots_served
  obtain ⟨hkeeps, hguard⟩ := hguard
  cases a with
  | postProcess =>
      obtain ⟨⟨k, m⟩, hpost, hs⟩ := bind_eq_ok.mp hs
      cases hs
      obtain ⟨m₁, m₂, k₁, k₂, h₁, h₂, h₃⟩ := postProcess_ok hpost
      refine h.afterTx (hkept.rx hserved (fun _ => hkeeps.1) h₁) ?_ h₂ (.removeAny h₃)
        (masterRemoveAny_chosen h₃)
      obtain ⟨heq | ⟨d, a, n, hack⟩, -, -⟩ := masterRx_part h₁
      · rw [heq]
        exact hguard
      · exact not_ambiguous_rxAck hserved hkeeps.1 hguard hack
  | processTx stray =>
      obtain ⟨⟨k, m, f⟩, htx, hs⟩ := bind_eq_ok.mp hs
      cases hs
      obtain ⟨m₁, m₂, h₁, h₂, h₃⟩ := processTx_ok htx
      refine h.afterTx hserved hguard h₁
        (((TxPart.updateSchedule h₂).trans (.quickTx m₂ stray)).trans (.removeAny h₃)) ?_
      rw [masterRemoveAny_chosen h₃, masterQuickTx_chosen, masterUpdateSchedule_chosen h₂]
  | preProcess frame crcError stray =>
      obtain ⟨⟨m, f⟩, -, hs⟩ := bind_eq_ok.mp hs
      cases hs
      exact h
  | processRx frame crcError =>
      obtain ⟨⟨k, m⟩, -, hs⟩ := bind_eq_ok.mp hs
      cases hs
      exact h
  | updateTimeUs usIncr =>
      cases hs
      exact h
  | allocate =>
      obtain ⟨⟨r, m⟩, -, hs⟩ := bind_eq_ok.mp hs
      cases hs
      exact h
  | write data =>
      cases hs
      exact h
  | submit dst numBytes =>
      obtain ⟨m, -, hs⟩ := bind_eq_ok.mp hs
      split at hs
      · cases hs
        exact h
      · cases hs
        exact h
  | peek =>
      obtain ⟨⟨r, m⟩, -, hs⟩ := bind_eq_ok.mp hs
      cases hs
      exact h
  | pop =>
      obtain ⟨m, -, hs⟩ := bind_eq_ok.mp hs
      cases hs
      exact h
  | getConnectedNodes =>
      obtain ⟨⟨m, bits⟩, -, hs⟩ := bind_eq_ok.mp hs
      cases hs
      exact h
  | resetTxCredits =>
      cases hs
      exact h

end MasterRun

/-- In every run in which frames are chosen only while no number of a window is carried twice, each
frame that is returned carries what was given its number. -/
theorem returned_frames_carry_given {cfg : MasterConfig} {s : MasterRun}
    (h : (masterSystem cfg).ReachableWhen MasterRun.SendsUnambiguous s) : s.ReturnsGiven := by
  have hboth : s.Served ∧ s.ReturnsGiven := by
    refine System.ReachableWhen.invariant (P := fun s => s.Served ∧ s.ReturnsGiven) h ?_ ?_
    · rintro s ⟨entries, hinit, -, hreturned⟩
      refine ⟨served_init hinit s.given, ?_⟩
      intro f hf
      rw [hreturned] at hf
      exact absurd hf List.not_mem_nil
    · rintro s a s' ⟨hserved, hreturns⟩ hguard hs
      exact ⟨hserved.step hguard.1 hs, hreturns.step hserved hguard hs⟩
  exact hboth.2

/-- Two entries in use with one destination and one number. -/
def TxManager.Alike (m : TxManager) (i j : Nat) : Prop :=
  (m.packetStore.entries i).inUse = true ∧ (m.packetStore.entries j).inUse = true ∧
    entryKey true (m.packetStore.entries i) = entryKey true (m.packetStore.entries j)

instance (m : TxManager) (i j : Nat) : Decidable (m.Alike i j) := inferInstanceAs (Decidable (_ ∧ _))

def TxManager.Distinct (m : TxManager) : Prop :=
  ∀ i < m.packetStore.maxEntries.toNat, ∀ j < m.packetStore.maxEntries.toNat, m.Alike i j → i = j

instance (m : TxManager) : Decidable m.Distinct := by
  unfold TxManager.Distinct
  infer_instance

theorem TxManager.Distinct.not_ambiguous {m : TxManager} (h : m.Distinct) : ¬ m.Ambiguous := by
  rintro ⟨d, q, i, j, -, hij, hi, hj⟩
  have hkey : entryKey true (m.packetStore.entries i) = entryKey true (m.packetStore.entries j) :=
    Prod.ext (hi.dstNodeId.trans hj.dstNodeId.symm) (hi.txSeqNum.trans hj.txSeqNum.symm)
  exact hij (h i hi.lt j hj.lt ⟨hi.inUse, hj.inUse, hkey⟩)

/-- A test that `SendsUnambiguous` passes. -/
def MasterRun.sendsDistinct {mode : ChannelMode} (s : MasterRun) (a : MasterAction mode) : Bool :=
  s.allocatesNone a && decide s.master.tx.txManager.Distinct

theorem MasterRun.sendsUnambiguous_of_sendsDistinct {mode : ChannelMode} {s : MasterRun} {a : MasterAction mode}
    (h : s.sendsDistinct a = true) : SendsUnambiguous s a := by
  obtain ⟨halloc, hdistinct⟩ := Bool.and_eq_true_iff.mp h
  refine ⟨keepsAllocated_of_allocatesNone halloc, ?_⟩
  cases a with
  | postProcess => exact (of_decide_eq_true hdistinct).not_ambiguous
  | processTx stray => exact (of_decide_eq_true hdistinct).not_ambiguous
  | _ => exact trivial

/-- The two packets that node 1 is sent are returned as they were submitted. -/
theorem returned_frames_carry_given_talk : ∃ s,
    (masterSystem dualConfig).ReachableWhen MasterRun.SendsUnambiguous s ∧
      s.returned.map (fun f : ReturnedFrame => (f.dstNodeId, f.txSeqNum, f.payload.size)) = [(1, 0, 5), (1, 1, 6)] ∧
      s.ReturnsGiven := by
  obtain ⟨s, hs, htest⟩ := System.exists_of_checkedRun (S := masterSystem dualConfig) (s := blankRun)
    (p := fun s => decide (s.returned.map (fun f : ReturnedFrame => (f.dstNodeId, f.txSeqNum, f.payload.size)) =
      [(1, 0, 5), (1, 1, 6)]))
    joinAndTalk (fun s a (h : s.sendsDistinct a = true) => MasterRun.sendsUnambiguous_of_sendsDistinct h)
    (.init blankRun_init) (by decide +kernel)
  exact ⟨s, hs, of_decide_eq_true htest, returned_frames_carry_given hs⟩

/-- Nodes 1 and 2 join, and node 1 acknowledges the packet that it was sent. Both time out, and node 1
joins again. A packet to node 2, which has left, and one to node 1 are submitted; then the frames of
reset are through. -/
def submittedToLeft : List (MasterAction .dual) :=
  slot (joinFrame 11) ++ slot (joinFrame 22) ++ [.allocate, .submit 1 5] ++ slot (ackFrame 1 0) ++ timeOut ++
    slot Packet.zero ++ slot (joinFrame 11) ++ [.allocate, .submit 2 7, .allocate, .submit 1 6] ++
    (List.replicate 20 (slot Packet.zero)).flatten

/-- The frame for node 1 is the packet that node 2 was to get, under the header of an earlier one. -/
theorem submitted_to_left_is_sent : ∃ s, (masterSystem dualConfig).Reachable s ∧ ¬ s.ReturnsGiven := by
  obtain ⟨s, hrun, hcheck⟩ : ∃ s, (masterSystem dualConfig).run blankRun submittedToLeft = .ok s ∧
      decide (s.returned.map (fun f => (f.payload.size, f.given.map Payload.size)) = [(5, some 6)]) = true :=
    System.exists_of_holdsAfter (by decide +kernel)
  refine ⟨s, System.Reachable.run (.init blankRun_init) hrun, ?_⟩
  intro hgiven
  have hsizes : ∀ p ∈ s.returned.map (fun f => (f.payload.size, f.given.map Payload.size)), p.2 = some p.1 := by
    intro p hp
    obtain ⟨f, hf, rfl⟩ := List.mem_map.mp hp
    dsimp only
    rw [hgiven f hf]
    rfl
  rw [of_decide_eq_true hcheck] at hsizes
  exact absurd (hsizes (5, some 6) List.mem_cons_self) (by decide)

end Microbus
