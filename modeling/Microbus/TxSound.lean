import Microbus.TxRun
import Microbus.Window

/-! Runs of the transmit manager whose application submits what it allocates, one packet at a time. -/
namespace Microbus

open Transition

/-- One packet at a time is allocated and then submitted, with arguments that the assertions allow; on the master
to a destination that is there. Acknowledgements may hold any byte. -/
def TxRun.Disciplined (isMaster : Bool) (s : TxRun) : TxAction → Prop
  | .allocate => s.manager.allocatedPacket = none
  | .write _ => True
  | .submit ttl src dst type _ => s.manager.allocatedPacket.isSome ∧ src.toNat < maxNodes ∧
      if isMaster then 0 < ttl ∧ dst ≠ masterNodeId ∧ dst.toNat < maxNodes else dst = masterNodeId ∧
        type ≠ .masterData
  | .transmit _ => True
  | .ack src _ => if isMaster then src.toNat < maxNodes else src = masterNodeId

instance (isMaster : Bool) (s : TxRun) (a : TxAction) : Decidable (s.Disciplined isMaster a) := by
  cases a <;> unfold TxRun.Disciplined <;> infer_instance

/-- The windows are in the store, and the counters of the store tell how many entries are in use. -/
structure TxRun.Sound (isMaster : Bool) (s : TxRun) (g : Ledger) : Prop where
  sender : SenderInv isMaster s.manager g
  node : isMaster = false → s.manager.activeTxNodes = none ∧ s.manager.maxTxNodes = 1
  numbered : s.manager.packetStore.numStored - s.manager.packetStore.numFreed =
    UInt32.ofNat s.manager.packetStore.usedEntries.card

namespace TxRun.Sound

variable {isMaster : Bool} {s s' : TxRun} {g g' : Ledger} {m : TxManager}

theorem table (h : s.Sound isMaster g) {d : TNodeIndex}
    (hd : if isMaster then d.toNat < maxNodes else d = masterNodeId) : d.toNat < s.manager.maxTxNodes ∧
    ValidDst isMaster d := by
  cases isMaster with
  | true =>
      rw [h.sender.table rfl]
      exact ⟨hd, validDst_master⟩
  | false =>
      obtain rfl : d = masterNodeId := hd
      rw [(h.node rfl).2]
      exact ⟨by decide, fun _ => rfl⟩

theorem allocate (h : s.Sound isMaster g) {r : Option Nat} (ha : allocateTxPacket s.manager = .ok (r, m)) :
    TxRun.Sound isMaster { s with manager := m } g := by
  rcases h.sender.allocate ha fun hnode => (h.node hnode).1 with ⟨-, rfl⟩ | ⟨i, -, hf, -, rfl, hsender⟩
  · exact h
  · refine ⟨hsender, h.node, ?_⟩
    have hused := TxManager.usedEntries_takeEntry hf
    change s.manager.packetStore.numStored + 1 - s.manager.packetStore.numFreed =
      UInt32.ofNat (s.manager.takeEntry i).packetStore.usedEntries.card
    rw [hused, UInt32.ofNat_add, ← h.numbered]
    change _ = _ + (1 : UInt32)
    grind

theorem sameStore (h : s.Sound isMaster g) (hsender : SenderInv isMaster m g')
    (hnode : isMaster = false → m.activeTxNodes = s.manager.activeTxNodes ∧ m.maxTxNodes = s.manager.maxTxNodes)
    (hused : m.packetStore.usedEntries = s.manager.packetStore.usedEntries)
    (hstored : m.packetStore.numStored = s.manager.packetStore.numStored)
    (hfreed : m.packetStore.numFreed = s.manager.packetStore.numFreed)
    (given : TNodeIndex → List UInt8) (freed : TNodeIndex → Nat) :
    TxRun.Sound isMaster ⟨m, given, freed⟩ g' where
  sender := hsender
  node hn := by
    rw [(hnode hn).1, (hnode hn).2]
    exact h.node hn
  numbered := by
    rw [hused, hstored, hfreed]
    exact h.numbered

theorem write (h : s.Sound isMaster g) (data : PacketData) :
    TxRun.Sound isMaster { s with manager := writeAllocatedPacket s.manager data } g := by
  have t : Touched isMaster s.manager (writeAllocatedPacket s.manager data) := touched_write s.manager data
  refine h.sameStore (h.sender.touched t (activeTxNodes_write _ _))
    (fun _ => ⟨activeTxNodes_write _ _, t.maxTxNodes⟩)
    (TxManager.usedEntries_congr t.size t.inUse) ?_ ?_ _ _
  · unfold writeAllocatedPacket
    split <;> rfl
  · unfold writeAllocatedPacket
    split <;> rfl

theorem submit (h : s.Sound isMaster g) {ttl : Nat} {src dst : TNodeIndex} {type : PacketType} {size : UInt16}
    (hd : s.Disciplined isMaster (.submit ttl src dst type size))
    (hs : s.submit isMaster ttl src dst type size = .ok s') :
    ∃ g', s'.Sound isMaster g' := by
  obtain ⟨m, hsubmit, hs⟩ := bind_eq_ok.mp hs
  obtain ⟨-, -, hdst⟩ := hd
  rcases submitAllocatedTxPacket_ok hsubmit with ⟨rfl, rfl, -⟩ | ⟨i, q, ha, httl, hvalid, -, htable, hadd, rfl⟩
  · exact absurd hdst.1 (Nat.lt_irrefl 0)
  · rw [if_neg fun hlate => (httl hlate.1).ne' hlate.2] at hs
    cases hs
    have hself : isMaster = true → dst ≠ masterNodeId := by
      rintro rfl
      exact hdst.2.1
    have hsender := h.sender.submit (p := fillHeader (s.manager.entry i).packet isMaster src dst type size
      (s.manager.txSeqNumEnd dst)) ha htable hself (key_fillHeader hvalid) hadd
    refine ⟨_, hsender, fun hn => ?_, ?_⟩
    · subst hn
      exact ⟨(addActiveTxNode_node hadd).trans (h.node rfl).1, (h.node rfl).2⟩
    · change s.manager.packetStore.numStored - s.manager.packetStore.numFreed =
        UInt32.ofNat (PacketStore.usedEntries _).card
      rw [TxManager.usedEntries_submitEntry]
      exact h.numbered

theorem transmit (h : s.Sound isMaster g) {burstSize : Nat} (hs : s.step isMaster (.transmit burstSize) = .ok s') :
    ∃ g', s'.Sound isMaster g' := by
  obtain ⟨⟨r, m⟩, hget, hs⟩ := bind_eq_ok.mp hs
  cases hs
  cases isMaster with
  | true =>
      have hm := TxManager.masterGetNext_moves hget
      have hused := TxManager.usedEntries_congr hm.size hm.inUse
      obtain ⟨-, -, -, ⟨-, hsender⟩ | ⟨i, d, -, -, -, -, hsender⟩⟩ := h.sender.masterGetNext hget
      · exact ⟨_, h.sameStore hsender nofun hused hm.numStored hm.numFreed _ _⟩
      · exact ⟨_, h.sameStore hsender nofun hused hm.numStored hm.numFreed _ _⟩
  | false =>
      have hm := TxManager.nodeGetNext_moves hget burstSize
      have hused := TxManager.usedEntries_congr hm.size hm.inUse
      have hqueue := SenderInv.nodeGetNext_activeTxNodes hget
      obtain ⟨-, -, htable, ⟨-, hsender⟩ | ⟨i, d, -, -, -, -, hsender⟩⟩ := h.sender.nodeGetNext hget
      · exact ⟨_, h.sameStore hsender (fun _ => ⟨hqueue, htable⟩) hused hm.numStored hm.numFreed _ _⟩
      · exact ⟨_, h.sameStore hsender (fun _ => ⟨hqueue, htable⟩) hused hm.numStored hm.numFreed _ _⟩

theorem ack (h : s.Sound isMaster g) {src : TNodeIndex} {a : UInt8} (hd : s.Disciplined isMaster (.ack src a)) :
    ∃ s' g', s.step isMaster (.ack src a) = .ok s' ∧ s'.Sound isMaster g' := by
  obtain ⟨n, m, g', hack, hresult⟩ := h.sender.rxAck (d := src) a fun _ => h.table hd
  have hfrees := h.sender.store.counters.rxAck_frees hack
  refine ⟨_, g', bind_eq_ok.mpr ⟨_, hack, rfl⟩, ?_, fun hn => ?_, ?_⟩
  · cases hresult with
    | null => exact h.sender
    | missed => exact h.sender.missAck
    | valid hs he hfull ha hrel => exact h.sender.acknowledge hs he hrel
  · subst hn
    cases hresult with
    | null => exact h.node rfl
    | missed => exact ⟨(missAck_activeTxNodes _ _).trans (h.node rfl).1,
        (missAck_maxTxNodes _ _).trans (h.node rfl).2⟩
    | valid hs he hfull ha hrel =>
        refine ⟨?_, (h.node rfl).2⟩
        unfold TxManager.acknowledge queueAfterAck
        rw [if_neg fun hc => Bool.noConfusion hc.2]
        exact (h.node rfl).1
  · change m.packetStore.numStored - m.packetStore.numFreed = UInt32.ofNat m.packetStore.usedEntries.card
    have hcard : s.manager.packetStore.usedEntries.card = m.packetStore.usedEntries.card + n := hfrees.used.symm
    rw [hfrees.counted, h.numbered, hcard, UInt32.ofNat_add]
    grind

theorem step (h : s.Sound isMaster g) {a : TxAction} (hd : s.Disciplined isMaster a) (hs : s.step isMaster a = .ok s') :
    ∃ g', s'.Sound isMaster g' := by
  cases a with
  | allocate =>
      obtain ⟨⟨r, m⟩, halloc, hs⟩ := bind_eq_ok.mp hs
      cases hs
      exact ⟨g, h.allocate halloc⟩
  | write data =>
      cases hs
      exact ⟨g, h.write data⟩
  | submit ttl src dst type size => exact h.submit hd hs
  | transmit burstSize => exact h.transmit hs
  | ack src a =>
      obtain ⟨s'', g', hs', hsound⟩ := h.ack hd
      cases hs.symm.trans hs'
      exact ⟨g', hsound⟩

theorem completes (h : s.Sound isMaster g) {a : TxAction} (hd : s.Disciplined isMaster a) :
    Completes (s.step isMaster a) := by
  cases a with
  | allocate =>
      obtain ⟨r, hr⟩ := allocateTxPacket_total hd
      exact ⟨_, bind_eq_ok.mpr ⟨r, hr, rfl⟩⟩
  | write data => exact .ok _
  | submit ttl src dst type size =>
      obtain ⟨hsome, hsrc, hdst⟩ := hd
      obtain ⟨i, ha⟩ := Option.isSome_iff_exists.mp hsome
      have htotal : ∃ m, submitAllocatedTxPacket s.manager isMaster ttl src dst type size = .ok m := by
        cases isMaster with
        | true =>
            have hroom := h.sender.store.room_of_allocated ha dst
            have htable := h.sender.table rfl
            obtain ⟨q, hq⟩ := addActiveTxNode_total h.sender.store.counters (h.sender.queue rfl)
              (fun x hx => htable ▸ h.sender.store.table x hx) hroom hdst.2.2
            exact submitAllocatedTxPacket_total ha ⟨hsrc, hdst.2.2⟩ (htable ▸ hdst.2.2) nofun hq
        | false =>
            obtain ⟨hmaster, htype⟩ := hdst
            have htable := (h.table (d := dst) hmaster).1
            subst hmaster
            have hq : addActiveTxNode s.manager false masterNodeId = .ok s.manager.activeTxNodes := by
              unfold addActiveTxNode
              rw [if_neg fun hc => Bool.noConfusion hc.1]
            exact submitAllocatedTxPacket_total ha ⟨hsrc, by decide⟩ htable (fun _ => ⟨rfl, htype⟩) hq
      obtain ⟨m, hm⟩ := htotal
      change Completes (s.submit isMaster ttl src dst type size)
      unfold TxRun.submit
      rw [hm]
      dsimp only [bind, Except.bind]
      split
      · exact .ok _
      · exact .ok _
  | transmit burstSize =>
      have htotal : ∃ r, s.getNextTxDataPacket isMaster burstSize = .ok r := by
        cases isMaster with
        | true => exact h.sender.masterGetNext_total burstSize
        | false =>
            have htable := (h.table (d := masterNodeId) rfl).1
            rcases h.sender.nodeGetNext_cases htable with ⟨-, hget⟩ | ⟨-, -, hget⟩ | ⟨-, -, i, m, hget, -⟩
            · exact ⟨_, hget⟩
            · exact ⟨_, hget⟩
            · exact ⟨_, hget⟩
      obtain ⟨r, hr⟩ := htotal
      exact ⟨_, bind_eq_ok.mpr ⟨r, hr, rfl⟩⟩
  | ack src a =>
      obtain ⟨s', g', hs, -⟩ := h.ack hd
      exact ⟨s', hs⟩

theorem start {maxPacketEntries : UInt8} (hsize : maxPacketEntries.toNat ≤ 254)
    (packetEntries : Nat → PacketEntry) :
    (TxRun.start isMaster maxPacketEntries packetEntries).Sound isMaster Ledger.zero := by
  have hnone : ∀ n q, (initTxManager n q maxPacketEntries packetEntries).packetStore.usedEntries = ∅ := by
    intro n q
    ext i
    rw [PacketStore.mem_usedEntries]
    refine iff_of_false ?_ (Finset.notMem_empty i)
    rintro ⟨hlt, huse⟩
    exact not_live_init i ⟨hlt, huse, nofun⟩
  have hzero : (0 : UInt32) - 0 = UInt32.ofNat (∅ : Finset Nat).card := by decide
  cases isMaster with
  | true =>
      refine ⟨senderInv_init hsize fun _ => ⟨rfl, rfl⟩, nofun, ?_⟩
      rw [TxRun.start, if_pos rfl, hnone]
      exact hzero
  | false =>
      refine ⟨senderInv_init hsize nofun, fun _ => ⟨rfl, rfl⟩, ?_⟩
      rw [TxRun.start, if_neg nofun, hnone]
      exact hzero

end TxRun.Sound

theorem sound_of_reachable {isMaster : Bool} {maxPacketEntries : UInt8} {s : TxRun}
    (hsize : maxPacketEntries.toNat ≤ 254)
    (h : (txSystem isMaster maxPacketEntries).ReachableWhen (TxRun.Disciplined isMaster) s) :
    ∃ g, s.Sound isMaster g := by
  refine h.invariant (P := fun s => ∃ g, TxRun.Sound isMaster s g) ?_ ?_
  · rintro s ⟨packetEntries, rfl⟩
    exact ⟨_, .start hsize packetEntries⟩
  · rintro s a s' ⟨g, hg⟩ hd hs
    exact hg.step hd hs

/-- Each number of the window has one submitted entry, which a search finds, and the store counts its entries. -/
structure TxManager.NodeConsistent (m : TxManager) : Prop where
  window : m.WindowAt masterNodeId
  stored : ∀ s, m.InWindow masterNodeId s → ∃ i, m.Live i ∧ (m.entry i).packet.txSeqNum = s ∧
    (∀ j, m.Live j → (m.entry j).packet.txSeqNum = s → j = i) ∧
    findPacketEntry m.packetStore masterNodeId s false = .ok i
  numbered : m.packetStore.numStored - m.packetStore.numFreed = UInt32.ofNat m.numInUse

theorem TxRun.Sound.nodeConsistent {s : TxRun} {g : Ledger} (h : s.Sound false g) : s.manager.NodeConsistent where
  window := (h.sender.store.counters.at masterNodeId).windowAt (h.sender.full masterNodeId)
  stored := by
    intro q hq
    obtain ⟨-, k, hs, he, rfl⟩ := (h.sender.store.counters.inWindow_iff masterNodeId).mp hq
    obtain ⟨i, hi, ho⟩ := h.sender.store.owner_surj masterNodeId k hs he
    have hkey : ∀ {j}, (s.manager.entry j).packet.txSeqNum = seq k →
        entryKey false (s.manager.entry j) = (masterNodeId, seq k) := fun hj => by rw [← hj]; rfl
    have hnum : (s.manager.entry i).packet.txSeqNum = seq k := by
      have howner := h.sender.store.owner_key i hi
      rw [ho] at howner
      exact congrArg Prod.snd howner
    refine ⟨i, hi, hnum, fun j hj hnum' => ?_, h.sender.store.find_live h.sender.unshadowed (fun _ => rfl) hi ho⟩
    exact h.sender.store.live_eq_of_key hj hi ((hkey hnum').trans (hkey hnum).symm)
  numbered := by
    rw [TxManager.numInUse_eq]
    exact h.numbered

/-- The transmit manager of a node with at most 254 entries, in every run that submits what it allocated. -/
theorem node_manager_is_consistent {maxPacketEntries : UInt8} {s : TxRun} (hsize : maxPacketEntries.toNat ≤ 254)
    (h : (txSystem false maxPacketEntries).ReachableWhen (TxRun.Disciplined false) s) :
    s.manager.NodeConsistent ∧ ∀ a, s.Disciplined false a → Completes (s.step false a) := by
  obtain ⟨g, hg⟩ := sound_of_reachable hsize h
  exact ⟨hg.nodeConsistent, fun a hd => hg.completes hd⟩

/-- One packet is sent and another one is allocated. -/
theorem node_manager_is_consistent_sending : ∃ s, (txSystem false 2).ReachableWhen (TxRun.Disciplined false) s ∧
    s.manager.InWindow masterNodeId 0 ∧ s.manager.NodeConsistent ∧
      ∀ a, s.Disciplined false a → Completes (s.step false a) := by
  obtain ⟨s, hs, hwindow⟩ := System.exists_of_checkedRun (S := txSystem false 2)
    (s := .start false 2 fun _ => ⟨false, Packet.zero⟩) (p := fun s => decide (s.manager.InWindow masterNodeId 0))
    [.allocate, .submit 0 1 masterNodeId .nodeData 4, .transmit 1, .allocate]
    (fun s a h => of_decide_eq_true (p := s.Disciplined false a) h) (.init ⟨_, rfl⟩) (by decide +kernel)
  exact ⟨s, hs, of_decide_eq_true hwindow, node_manager_is_consistent (by decide) hs⟩

end Microbus
