import Microbus.NodeLevels
import Microbus.Reception
import Microbus.ResetCredits

/-! The frames that the receive path of a master gets through. -/
namespace Microbus

open Transition

theorem completes_assert {p : Prop} [Decidable p] {s : Site} : Completes (microbusAssert p s) ↔ p :=
  ⟨fun ⟨_, h⟩ => microbusAssert_ok.mp h, fun h => ⟨(), microbusAssert_ok.mpr h⟩⟩

theorem completes_checkIndex {size : Nat} {i : TNodeIndex} {s : Site} :
    Completes (checkIndex size i s) ↔ i.toNat < size :=
  ⟨fun ⟨_, h⟩ => checkIndex_ok.mp h, fun h => ⟨(), checkIndex_ok.mpr h⟩⟩

/-- A search for number `q` of `d` finds an entry. -/
def PacketStore.Carries (store : PacketStore) (isMaster : Bool) (d : TNodeIndex) (q : UInt8) : Prop :=
  ∃ i < store.maxEntries.toNat, (store.entries i).isMatch d q isMaster = true

section Ack

variable {m : TxManager} {store store' : PacketStore} {isMaster : Bool} {d : TNodeIndex}

theorem findPacketEntry_match {q : UInt8} {i : Nat} (h : findPacketEntry store d q isMaster = .ok i) :
    i < store.maxEntries.toNat ∧ (store.entries i).isMatch d q isMaster = true := by
  unfold findPacketEntry at h
  split at h
  · rename_i i hfind
    cases h
    exact ⟨List.mem_range.mp (List.mem_of_find?_eq_some hfind), by simpa using List.find?_some hfind⟩
  · cases h

theorem completes_find {q : UInt8} : Completes (findPacketEntry store d q isMaster) ↔ store.Carries isMaster d q := by
  constructor
  · rintro ⟨i, hi⟩
    exact ⟨i, findPacketEntry_match hi⟩
  · rintro ⟨i, hi, hmatch⟩
    unfold findPacketEntry
    split
    · exact .ok _
    · rename_i hnone
      exact absurd hmatch (List.find?_eq_none.mp hnone i (List.mem_range.mpr hi))

/-- An entry is freed that no search for another number finds. -/
theorem freePacket_carries {q q' : UInt8} (hne : q' ≠ q) (h : freePacket store d q isMaster = .ok store') :
    store'.Carries isMaster d q' ↔ store.Carries isMaster d q' := by
  obtain ⟨i, hfind, h⟩ := bind_eq_ok.mp h
  cases h
  obtain ⟨-, hmatch⟩ := findPacketEntry_match hfind
  have hseq : (store.entries i).packet.txSeqNum = q := by
    unfold PacketEntry.isMatch at hmatch
    rw [Bool.and_eq_true, beq_iff_eq] at hmatch
    exact hmatch.2
  have hnot : ∀ b, ({ store.entries i with inUse := b } : PacketEntry).isMatch d q' isMaster = false := by
    intro b
    unfold PacketEntry.isMatch
    rw [Bool.and_eq_false_iff]
    right
    rw [beq_eq_false_iff_ne]
    change (store.entries i).packet.txSeqNum ≠ q'
    rw [hseq]
    exact hne.symm
  refine exists_congr fun j => and_congr_right fun _ => ?_
  change (Function.update store.entries i { store.entries i with inUse := false } j).isMatch d q' isMaster = true ↔ _
  by_cases hj : j = i
  · subst hj
    rw [Function.update_self, hnot, hnot (store.entries j).inUse]
  · rw [Function.update_of_ne hj]

theorem completes_freePacket {q : UInt8} : Completes (freePacket store d q isMaster) ↔ store.Carries isMaster d q :=
  (Completes.bind_iff_left fun _ _ => .ok _).trans completes_find

/-- The loop of `rxAckSeqNum` goes through when each of the packets is found. -/
theorem completes_freeAckedPackets {r : Nat} :
    ∀ n k fuel count (m : TxManager), k + n = r → r < k + 255 → n < fuel →
    (Completes (freeAckedPackets d (seq r) isMaster fuel (seq k) count m) ↔
      ∀ j, k ≤ j → j < r → m.packetStore.Carries isMaster d (seq j)) := by
  intro n
  induction n with
  | zero =>
      intro k fuel count m hk _ hfuel
      obtain rfl : k = r := hk
      cases fuel with
      | zero => exact absurd hfuel (Nat.lt_irrefl _)
      | succ fuel =>
          unfold freeAckedPackets
          rw [if_neg (not_not.mpr rfl)]
          exact iff_of_true (.ok _) fun j hkj hjk => absurd hjk (Nat.not_lt.mpr hkj)
  | succ n ih =>
      intro k fuel count m hk hr hfuel
      cases fuel with
      | zero => exact absurd hfuel (Nat.not_lt_zero _)
      | succ fuel =>
          have hother : ∀ j, k < j → j ≤ r → seq j ≠ seq k := by
            intro j hkj hjr hc
            have := Cyclic.eq_of_mod_eq (seq_eq_iff.mp hc) (by omega) (by omega)
            omega
          unfold freeAckedPackets
          rw [if_pos (hother r (by omega) (Nat.le_refl _)).symm, incr_seq]
          rw [Completes.bind_iff_and (p := ∀ j, k + 1 ≤ j → j < r → m.packetStore.Carries isMaster d (seq j)),
            completes_freePacket]
          · constructor
            · rintro ⟨hfirst, hrest⟩ j hkj hjr
              rcases Nat.eq_or_lt_of_le hkj with rfl | hkj
              · exact hfirst
              · exact hrest j hkj hjr
            · intro hall
              exact ⟨hall k (Nat.le_refl _) (by omega), fun j hkj hjr => hall j (Nat.le_of_succ_le hkj) hjr⟩
          · intro store hfree
            rw [ih (k + 1) fuel (count + 1) _ (by omega) (by omega) (by omega)]
            refine forall_congr' fun j => forall_congr' fun hkj => forall_congr' fun hjr => ?_
            exact freePacket_carries (hother j hkj hjr.le) hfree

theorem completes_nodeQueueRemove {queue : NodeQueue} : Completes (nodeQueueRemove queue d) ↔ d ∈ queue.toList :=
  ⟨fun ⟨_, h⟩ => nodeQueueRemove_mem h, fun h => ⟨_, nodeQueueRemove_total h⟩⟩

/-- An acknowledgement of a number of the window finds each packet up to it, and the destination among
the active ones if it was the last packet. -/
def TxManager.AckFound (m : TxManager) (isMaster : Bool) (d : TNodeIndex) (a : UInt8) : Prop :=
  m.InWindow d a →
    (∀ q, q ≠ nullSequenceNum → cyclicLength (m.txSeqNumStart d) q ≤ cyclicLength (m.txSeqNumStart d) a →
      m.packetStore.Carries isMaster d q) ∧
    (isMaster = true → incrSequenceNum a = m.txSeqNumEnd d →
      ∃ queue, m.activeTxNodes = some queue ∧ d ∈ queue.toList)

theorem completes_rxAck {a : UInt8} (hstart : m.txSeqNumStart d ≠ nullSequenceNum)
    (hstop : m.txSeqNumEnd d ≠ nullSequenceNum) (ht : d.toNat < m.maxTxNodes) :
    Completes (rxAckSeqNum m d a isMaster) ↔ m.AckFound isMaster d a := by
  by_cases ha : a = nullSequenceNum
  · rw [ha, rxAckSeqNum_null]
    exact iff_of_true (.ok _) fun hc => absurd rfl hc.1
  · -- the counters as positions `s`, `e` and `k`
    obtain ⟨s, hs⟩ : ∃ s, s = (m.txSeqNumStart d).toNat := ⟨_, rfl⟩
    have hpos : ∀ {q : UInt8}, q ≠ nullSequenceNum → q = seq (s + cyclicLength (m.txSeqNumStart d) q) := by
      intro q hq
      rw [hs]
      exact eq_seq_cyclicLength hstart hq
    have hseqStart : m.txSeqNumStart d = seq s := by
      rw [hs]
      exact exists_seq_of_ne_null hstart
    have hseqStop := hpos hstop
    have hseqAck := hpos ha
    have hlt := cyclicLength_lt (m.txSeqNumStart d) (m.txSeqNumEnd d)
    have hlt' := cyclicLength_lt (m.txSeqNumStart d) a
    have hvalid : validAckSeqNum (m.txSeqNumStart d) (m.txSeqNumEnd d) a = true ↔ m.InWindow d a := by
      unfold TxManager.InWindow
      have hiff := validAck_seq_iff (s := s) (e := s + cyclicLength (m.txSeqNumStart d) (m.txSeqNumEnd d))
        (a := s + cyclicLength (m.txSeqNumStart d) a) (by omega) (by omega)
      rw [← hseqStart, ← hseqStop, ← hseqAck] at hiff
      rw [hiff]
      constructor
      · rintro ⟨-, k, hsk, hke, hk⟩
        refine ⟨ha, ?_⟩
        have hdist := cyclicLength_seq hsk
        rw [← hk, ← hseqStart] at hdist
        omega
      · rintro ⟨-, hwindow⟩
        exact ⟨by omega, _, Nat.le_add_right _ _, by omega, hseqAck⟩
    unfold rxAckSeqNum
    have hsome : ¬ a = invalidSequenceNum := ha
    rw [if_neg hsome, show checkIndex m.maxTxNodes d .rxAckSeqNum = .ok () from checkIndex_ok.mpr ht]
    change Completes (if validAckSeqNum _ _ a = true then _ else _) ↔ _
    by_cases hw : m.InWindow d a
    · rw [if_pos (hvalid.mpr hw)]
      have hwindow := hw.2
      have hnew : incrSequenceNum a = seq (s + cyclicLength (m.txSeqNumStart d) a + 1) := by
        rw [hseqAck, incr_seq, ← hseqAck]
      have hall : (∀ j, s ≤ j → j < s + cyclicLength (m.txSeqNumStart d) a + 1 →
        m.packetStore.Carries isMaster d (seq j)) ↔
          ∀ q, q ≠ nullSequenceNum → cyclicLength (m.txSeqNumStart d) q ≤ cyclicLength (m.txSeqNumStart d) a →
            m.packetStore.Carries isMaster d q := by
        constructor
        · intro h q hq hle
          rw [hpos hq]
          exact h _ (Nat.le_add_right _ _) (by omega)
        · intro h j hsj hj
          refine h (seq j) (seq_ne_null j) ?_
          rw [hseqStart, cyclicLength_seq hsj, ← hseqStart]
          omega
      have hloop : Completes (freeAckedPackets d (seq (s + (cyclicLength (m.txSeqNumStart d) a + 1))) isMaster 256
        (seq s) 0 m) ↔
          ∀ j, s ≤ j → j < s + (cyclicLength (m.txSeqNumStart d) a + 1) →
            m.packetStore.Carries isMaster d (seq j) :=
        completes_freeAckedPackets (cyclicLength (m.txSeqNumStart d) a + 1) s 256 0 m rfl (by omega) (by omega)
      rw [← Nat.add_assoc, hall, ← hseqStart, ← hnew] at hloop
      rw [Completes.bind_iff_and (p := isMaster = true → incrSequenceNum a = m.txSeqNumEnd d →
        ∃ queue, m.activeTxNodes = some queue ∧ d ∈ queue.toList), hloop]
      · exact ⟨fun h _ => h, fun h => h hw⟩
      · rintro ⟨n, m'⟩ hfree
        obtain ⟨store, next, rfl, -⟩ := freeAckedPackets_tables hfree
        dsimp only
        split
        · rename_i hlast
          have hneeds : (isMaster = true → incrSequenceNum a = m.txSeqNumEnd d →
              ∃ queue, m.activeTxNodes = some queue ∧ d ∈ queue.toList) ↔
              ∃ queue, m.activeTxNodes = some queue ∧ d ∈ queue.toList :=
                ⟨fun h => h hlast.2 hlast.1, fun h _ _ => h⟩
          rw [hneeds]
          cases hqueue : m.activeTxNodes with
          | none =>
              refine iff_of_false Completes.not_error ?_
              rintro ⟨queue, hc, -⟩
              cases hc
          | some queue =>
              dsimp only
              refine (Completes.bind_iff_left fun _ _ => .ok _).trans (completes_nodeQueueRemove.trans ?_)
              constructor
              · exact fun h => ⟨queue, rfl, h⟩
              · rintro ⟨_, h, hd⟩
                cases h
                exact hd
        · rename_i hlast
          exact iff_of_true (.ok _) fun hmaster hend => absurd ⟨hend, hmaster⟩ hlast
    · rw [if_neg (fun hc => hw (hvalid.mp hc))]
      refine iff_of_true ?_ fun hc => absurd hc hw
      dsimp only
      split
      · split
        · exact .ok _
        · exact .ok _
      · exact .ok _

end Ack

/-- The requests in the table are those of nodes with a unique id. -/
def Master.Asked (master : Master) : Prop := ∀ e ∈ master.nwManager.newNodes, e.1 ≠ 0

theorem keptByNetwork_asked : KeptByNetwork Master.Asked where
  same h hs := by
    unfold Master.Asked
    rw [hs.nwManager]
    exact h
  updateSchedule h hs := by
    obtain ⟨_, _, _, queues, -, -, rfl⟩ := masterUpdateSchedule_ok hs
    exact h
  quickRx h hq := by
    obtain ⟨rx, nw, ttl, m, rfl, hanswered, -, -⟩ := masterQuickRx_ok hq
    rcases hanswered with rfl | ⟨found, ha⟩
    · exact h
    · intro e he
      have he' : e ∈ nw.newNodes := he
      rw [networkManagerRemoveNewNodeRequest_newNodes ha] at he'
      exact h e (List.mem_of_mem_eraseP he')
  rx h hr := by
    rcases masterRx_ok hr with ⟨-, rfl⟩ | ⟨_, _, _, _, _, nw, ttl, -, -, rfl, hresult⟩
    · exact h
    · cases hresult with
      | ignored _ => exact h
      | acked _ _ => exact h
      | stored _ _ _ _ _ => exact h
      | registered _ hrequest =>
          obtain ⟨_, -, hrequest⟩ := bind_eq_ok.mp hrequest
          obtain ⟨uniqueId, -, hregister⟩ := bind_eq_ok.mp hrequest
          obtain ⟨_, hasked, -⟩ := bind_eq_ok.mp hregister
          have huid := microbusAssert_ok.mp hasked
          rcases networkManagerRegisterNewNode_ok hregister with ⟨rfl, -⟩ | ⟨_, -, -, -, -, rfl, -⟩
          · exact h
          · intro e he
            have he' := he
            unfold Master.nwManager at he'
            rw [newNodes_append] at he'
            rcases List.mem_append.mp he' with he' | he'
            · exact h e he'
            · rw [List.mem_singleton.mp he']
              exact huid
  updateTimeUs usIncr h := by
    rename_i master
    obtain ⟨us, ttl, heq, -⟩ := masterUpdateTimeUs_eq master usIncr
    rw [heq]
    exact h
  connected h := h

theorem asked_of_reachable {cfg : MasterConfig} {s : MasterRun} (h : (masterSystem cfg).Reachable s) :
    s.master.Asked := by
  refine keptByNetwork_asked.reachable ?_ ?_ h
  · intro numTx maxTx maxRx entries master hi
    obtain ⟨rx, -, hi⟩ := bind_eq_ok.mp hi
    cases hi
    exact fun _ he => absurd he List.not_mem_nil
  · intro master master' d k _ hm hr
    rcases masterRemoveIfTimedOut_ok hr with ⟨-, rfl⟩ | ⟨_, _, nw, _, _, -, hrequest, -, -, rfl⟩
    · exact hm
    · intro e he
      have he' : e ∈ nw.newNodes := he
      rw [networkManagerRemoveNewNodeRequest_newNodes hrequest] at he'
      exact hm e (List.mem_of_mem_eraseP he')

theorem completes_removeNewNodeRequest {nw : NetworkManager} (hasked : ∀ e ∈ nw.newNodes, e.1 ≠ 0)
    (d : TNodeIndex) :
    Completes (networkManagerRemoveNewNodeRequest nw d) := by
  unfold networkManagerRemoveNewNodeRequest
  split
  · exact .ok _
  · rename_i i hfind
    refine (Completes.bind_iff_left fun _ _ => .ok _).mpr (completes_assert.mpr ?_)
    have hi := List.mem_range.mp (List.mem_of_find?_eq_some hfind)
    have hne := hasked _ (NetworkManager.mem_newNodes.mpr ⟨i, hi, rfl⟩)
    exact UInt64.pos_iff_ne_zero.mpr hne

/-- The frames whose source is looked up. -/
def Packet.fromNode (p : Packet) : Prop := p.getPacketType = some .nodeData ∨ p.getPacketType = some .nodeEmpty

theorem completes_recordHeard {nw : NetworkManager} (hasked : ∀ e ∈ nw.newNodes, e.1 ≠ 0) {ttl : TimeToLive}
    {p : Packet} : Completes (masterRecordHeard nw ttl p) ↔ (p.fromNode → p.srcNodeId.toNat < maxNodes) := by
  unfold masterRecordHeard
  by_cases hnode : p.fromNode
  · have hnode' : p.getPacketType = some .nodeData ∨ p.getPacketType = some .nodeEmpty := hnode
    rw [if_pos hnode', Completes.bind_iff]
    constructor
    · rintro ⟨_, hsrc, -⟩ _
      exact checkIndex_ok.mp hsrc
    · intro hsrc
      refine ⟨(), checkIndex_ok.mpr (hsrc hnode), ?_⟩
      split
      · obtain ⟨⟨found, nw'⟩, hremove⟩ := completes_removeNewNodeRequest hasked p.srcNodeId
        unfold networkManagerRecordRxPacket
        rw [microbusAssert, if_pos (hsrc hnode), hremove]
        exact .ok _
      · exact .ok _
  · have hnode' : ¬ (p.getPacketType = some .nodeData ∨ p.getPacketType = some .nodeEmpty) := hnode
    rw [if_neg hnode']
    exact iff_of_true (.ok _) fun hc => absurd hc hnode

theorem completes_readData {p : Packet} {i : Nat} {s : Site} :
    Completes (p.readData i s) ↔ i < masterPacketDataSize := by
  unfold Packet.readData
  split
  · rename_i hi
    exact iff_of_true (.ok _) hi
  · rename_i hi
    exact iff_of_false Completes.not_error hi

theorem completes_getUniqueId {p : Packet} {offset : Nat} {s : Site} :
    Completes (p.getUniqueId offset s) ↔ offset + 8 ≤ masterPacketDataSize := by
  have hread : ∀ l : List Nat, Completes (l.mapM fun i => p.readData (offset + i) s) ↔
      ∀ i ∈ l, offset + i < masterPacketDataSize := by
    intro l
    induction l with
    | nil => exact iff_of_true (.ok _) fun _ hi => absurd hi List.not_mem_nil
    | cons i l ih =>
        rw [List.mapM_cons, Completes.bind_iff_and (p := ∀ i ∈ l, offset + i < masterPacketDataSize),
          completes_readData,
          List.forall_mem_cons]
        intro _ _
        exact (Completes.bind_iff_left fun _ _ => .ok _).trans ih
  unfold Packet.getUniqueId
  refine (Completes.bind_iff_left fun _ _ => .ok _).trans ((hread _).trans ?_)
  constructor
  · intro h
    exact h 7 (List.mem_range.mpr (by decide))
  · intro h i hi
    have := List.mem_range.mp hi
    omega

theorem completes_register {nw : NetworkManager} {ttl : TimeToLive} (h : Members nw ttl) {uniqueId : UInt64} :
    Completes (networkManagerRegisterNewNode nw ttl uniqueId) ↔ uniqueId ≠ 0 := by
  unfold networkManagerRegisterNewNode
  rw [Completes.bind_iff_left, completes_assert]
  intro _ _
  split
  · exact .ok _
  · split
    · exact .ok _
    · dsimp only
      split
      · exact .ok _
      · rename_i hid
        obtain ⟨hfirst, hlast, hz⟩ := getNextFreeNodeId_free hid
        have hroom := NodeQueue.numNodes_lt h.nodup (fun n hn => ((h.active n).mp hn).1.2) hlast (h.free hz).1
        refine (Completes.bind_iff_left fun _ _ => .ok _).mpr ?_
        exact nodeQueueAdd_total _ hroom

theorem completes_newNodeRequest {nw : NetworkManager} {ttl : TimeToLive} (h : Members nw ttl) {p : Packet} :
    Completes (rxNewNodePacketRequest nw ttl p) ↔
      p.dataSize2 = 9 ∧ ∀ uniqueId, p.getUniqueId 0 .rxNewNodePacketRequest = .ok uniqueId → uniqueId ≠ 0 := by
  obtain ⟨uniqueId, huid⟩ : Completes (p.getUniqueId 0 .rxNewNodePacketRequest) :=
    completes_getUniqueId.mpr (by decide)
  unfold rxNewNodePacketRequest
  rw [Completes.bind_iff_and (p := uniqueId ≠ 0), completes_assert, huid]
  · refine and_congr_right fun _ => ⟨fun hne u hu => ?_, fun hall => hall _ rfl⟩
    cases hu
    exact hne
  · intro _ _
    rw [huid]
    exact completes_register h

section Parts

variable {master : Master} {frame : Packet}

theorem completes_quickRx (hasked : master.Asked) (htable : master.tx.txManager.maxTxNodes = maxNodes)
    (hframe : master.rx.packetAt master.rx.nextRxPacketEntry = frame) (crcError : Bool) :
    Completes (masterQuickRx master crcError) ↔
      (masterAcceptsFrame frame crcError → frame.fromNode → frame.srcNodeId.toNat < maxNodes) := by
  refine (Completes.bind_iff_left fun _ _ => .ok _).trans ?_
  unfold masterQuickProcessPrevRx
  dsimp only
  rw [hframe]
  by_cases haccept : masterAcceptsFrame frame crcError
  · rw [if_neg (not_not.mpr haccept), Completes.bind_iff]
    constructor
    · rintro ⟨_, hheard, -⟩ _
      exact (completes_recordHeard hasked).mp ⟨_, hheard⟩
    · intro hsrc
      obtain ⟨heard, hheard⟩ := (completes_recordHeard hasked).mpr (hsrc haccept)
      refine ⟨heard, hheard, ?_⟩
      split
      · exact .ok _
      · split
        · rename_i hdata
          refine (Completes.bind_iff_left fun _ _ => .ok _).mpr ?_
          unfold rxPacketCheckAndUpdateSeqNum
          refine (Completes.bind_iff_left fun _ _ => ?_).mpr (completes_checkIndex.mpr ?_)
          · split
            · exact .ok _
            · exact .ok _
          · rw [htable]
            exact hsrc haccept (Or.inl hdata)
        · exact .ok _
  · rw [if_pos haccept]
    exact iff_of_true (.ok _) fun hc => absurd hc haccept

/-- What the long part needs of a data frame that is in order: it carries data, and does not end a level
that the scheduler has forgotten. -/
def Master.TakesData (master : Master) (frame : Packet) : Prop :=
  0 < frame.getPacketDataSize ∧ (0 < master.scheduler.nodeTxBufferLevel frame.srcNodeId → frame.bufferLevel = 0 →
    frame.srcNodeId ∈ master.nodeTxNodes.toList)

/-- A request that can be registered. -/
def Packet.asks (p : Packet) : Prop :=
  p.dataSize2 = 9 ∧ ∀ uniqueId, p.getUniqueId 0 .rxNewNodePacketRequest = .ok uniqueId → uniqueId ≠ 0

theorem completes_masterRx {e : Nat} (hvalid : master.rx.validRxPacket = true)
    (hprev : master.rx.prevRxPacketEntry = some e)
    (hframe : master.rx.packetAt e = frame) (hnumbered : master.tx.txManager.Numbered)
    (hmembers : Members master.nwManager master.masterNodeTimeToLive) (hlevels : master.Levels False)
    (hroom : ¬ master.rx.rxPacketManager.isFull) (hsrc : frame.fromNode → frame.srcNodeId.toNat < maxNodes) :
    Completes (masterRx master) ↔
      (frame.fromNode → master.tx.txManager.AckFound true frame.srcNodeId frame.ackSeqNum) ∧
      (frame.getPacketType = some .nodeData → master.rx.validRxSeqNum = true → master.TakesData frame) ∧
      (frame.getPacketType = some .newNodeRequest → frame.asks) := by
  have hack : frame.fromNode → (Completes (rxAckSeqNum master.tx.txManager frame.srcNodeId frame.ackSeqNum true) ↔
      master.tx.txManager.AckFound true frame.srcNodeId frame.ackSeqNum) := by
    intro hnode
    refine completes_rxAck (hnumbered.start _) (hnumbered.stop _) ?_
    rw [hnumbered.table]
    exact hsrc hnode
  refine (Completes.bind_iff_left fun _ _ => .ok _).trans ?_
  have hvalid' : ¬ master.rxContext.rx.validRxPacket = false := by
    change ¬ master.rx.validRxPacket = false
    rw [hvalid]
    decide
  have hprev' : master.rxContext.rx.prevRxPacketEntry = some e := hprev
  have hframe' : master.rxContext.rx.packetAt e = frame := hframe
  unfold masterProcessRx
  rw [if_neg hvalid', hprev']
  dsimp only
  rw [hframe']
  refine (Completes.bind_iff_left fun _ _ => .ok _).trans ?_
  unfold masterProcessRxPacket
  split
  · rename_i htype
    refine (Completes.bind_iff_left fun _ _ => .ok _).trans ((hack (Or.inr htype)).trans ?_)
    constructor
    · intro h
      refine ⟨fun _ => h, ?_, ?_⟩ <;> intro hc <;> rw [htype] at hc <;> cases hc
    · exact fun h => h.1 (Or.inr htype)
  · rename_i htype
    refine (Completes.bind_iff_and (p := master.rx.validRxSeqNum = true → master.TakesData frame) ?_).trans ?_
    · rintro ⟨k, m⟩ -
      dsimp only
      split
      · rename_i hseq
        have hseq' : master.rx.validRxSeqNum = true := hseq
        rw [Completes.bind_iff_and (p := 0 < master.scheduler.nodeTxBufferLevel frame.srcNodeId →
          frame.bufferLevel = 0 → frame.srcNodeId ∈ master.nodeTxNodes.toList), completes_assert]
        · rw [Packet.dataSize_pos_iff]
          exact ⟨fun h _ => h, fun h => h hseq'⟩
        · intro _ _
          refine (Completes.bind_iff_left ?_).trans ((schedulerUpdateNodeTxBufferLevel_total hlevels).trans ?_)
          · rintro ⟨scheduler, queue⟩ -
            refine (Completes.bind_iff_left fun _ _ => .ok _).mpr ?_
            have hroom' : ¬ master.rxContext.rx.rxPacketManager.isFull := hroom
            unfold addRxDataPacket
            rw [if_neg hroom']
            exact .ok _
          · exact ⟨And.right, fun h => ⟨hsrc (Or.inl htype), h⟩⟩
      · rename_i hseq
        exact iff_of_true (.ok _) fun hc => absurd hc hseq
    · refine (and_congr_left' (hack (Or.inl htype))).trans ?_
      constructor
      · intro h
        refine ⟨fun _ => h.1, fun _ => h.2, ?_⟩
        intro hc
        rw [htype] at hc
        cases hc
      · exact fun h => ⟨h.1 (Or.inl htype), h.2.1 htype⟩
  · rename_i htype
    refine (Completes.bind_iff_left fun _ _ => .ok _).trans ((completes_newNodeRequest hmembers).trans ?_)
    constructor
    · intro h
      refine ⟨?_, ?_, fun _ => h⟩
      · rintro (hc | hc) <;> rw [htype] at hc <;> cases hc
      · intro hc
        rw [htype] at hc
        cases hc
    · exact fun h => h.2.2 htype
  · rename_i hempty hdata hrequest
    refine iff_of_true (.ok _) ⟨?_, fun hc => absurd hc hdata, fun hc => absurd hc hrequest⟩
    rintro (hc | hc)
    · exact absurd hc hdata
    · exact absurd hc hempty

end Parts

/-- What a received frame has to meet. The source is an index before it is looked at further, and the rest
matters when a buffer is free: acknowledged packets are in the store, a data frame in order is taken, a
request can be registered. -/
def Master.Withstands (master : Master) (frame : Packet) : Prop :=
  masterAcceptsFrame frame false →
    (frame.fromNode → frame.srcNodeId.toNat < maxNodes) ∧
    ((findFreeRxPacket master.rx.rxPacketManager).isSome →
      (frame.fromNode → master.tx.txManager.AckFound true frame.srcNodeId frame.ackSeqNum) ∧
      (frame.getPacketType = some .nodeData →
        frame.txSeqNum = expectedSeqNum (master.tx.txManager.rxSeqNum frame.srcNodeId) → master.TakesData frame) ∧
      (frame.getPacketType = some .newNodeRequest → frame.asks))

section Reception

variable {master received master' : Master} {frame : Packet}

theorem masterRx_of_invalid (h : master.rx.validRxPacket = false) : Completes (masterRx master) := by
  refine (Completes.bind_iff_left fun _ _ => .ok _).mpr ?_
  unfold masterProcessRx
  rw [if_pos (show master.rxContext.rx.validRxPacket = false from h)]
  exact .ok _

theorem not_isFull_of_isSome {rpm : RxPacketManager} (h : (findFreeRxPacket rpm).isSome) : ¬ rpm.isFull := by
  obtain ⟨⟨e, rpm'⟩, hfind⟩ := Option.isSome_iff_exists.mp h
  exact (RxPacketManager.findFreeRxPacket_some hfind).1

/-- The long part after the quick one. -/
theorem completes_masterRx_of_quickRx (hnumbered : received.tx.txManager.Numbered)
    (hmembers : Members master'.nwManager master'.masterNodeTimeToLive) (hlevels : received.Levels False)
    (hframe : received.rx.packetAt received.rx.nextRxPacketEntry = frame) (haccept : masterAcceptsFrame frame false)
    (hsrc : frame.fromNode → frame.srcNodeId.toNat < maxNodes) (hq : masterQuickRx received false = .ok master') :
    Completes (masterRx master') ↔ ((findFreeRxPacket received.rx.rxPacketManager).isSome →
      (frame.fromNode → received.tx.txManager.AckFound true frame.srcNodeId frame.ackSeqNum) ∧
      (frame.getPacketType = some .nodeData →
        frame.txSeqNum = expectedSeqNum (received.tx.txManager.rxSeqNum frame.srcNodeId) →
          received.TakesData frame) ∧
      (frame.getPacketType = some .newNodeRequest → frame.asks)) := by
  obtain ⟨rx, nw, ttl, m, rfl, -, -, hresult⟩ := masterQuickRx_ok hq
  rw [hframe] at hresult
  cases hresult with
  | dropped hnone =>
      rw [hnone haccept]
      exact iff_of_true (masterRx_of_invalid rfl) fun hc => absurd hc Bool.false_ne_true
  | kept _ hfind hdata =>
      have hroom := not_isFull_of_isSome (Option.isSome_of_eq_some hfind)
      have hpacket := (packetAt_findFree hfind received.rx.nextRxPacketEntry).trans hframe
      obtain ⟨-, rfl⟩ := RxPacketManager.findFreeRxPacket_some hfind
      rw [hfind]
      refine Iff.trans (completes_masterRx rfl rfl hpacket hnumbered hmembers hlevels hroom hsrc) ?_
      refine Iff.trans ?_ (forall_prop_of_true rfl).symm
      refine and_congr_right fun _ => and_congr_left fun _ => forall_congr' fun htype => ?_
      obtain ⟨hfalse, hne⟩ := hdata htype
      exact iff_of_true (fun hc => absurd (hfalse.symm.trans hc) Bool.false_ne_true) fun hc => absurd hc hne
  | inOrder _ hfind htype hseq =>
      have hroom := not_isFull_of_isSome (Option.isSome_of_eq_some hfind)
      have hpacket := (packetAt_findFree hfind received.rx.nextRxPacketEntry).trans hframe
      obtain ⟨-, rfl⟩ := RxPacketManager.findFreeRxPacket_some hfind
      rw [hfind]
      have hnumbered' : (received.tx.txManager.withRxSeqNum
          (Function.update received.tx.txManager.rxSeqNum frame.srcNodeId frame.txSeqNum)).Numbered :=
        ⟨hnumbered.start, hnumbered.next, hnumbered.stop, hnumbered.table⟩
      refine Iff.trans (completes_masterRx rfl rfl hpacket hnumbered' hmembers hlevels hroom hsrc) ?_
      refine Iff.trans ?_ (forall_prop_of_true rfl).symm
      refine and_congr_right fun _ => and_congr_left fun _ => forall_congr' fun htype => ?_
      exact ⟨fun h _ => h rfl, fun h _ => h hseq⟩

/-- What holds of a reachable master, with its schedule moved on or not, holds when a frame has arrived. -/
theorem received_of_reachable {cfg : MasterConfig} {s : MasterRun} (h : (masterSystem cfg).Reachable s)
    (hm : master = s.master ∨ masterUpdateSchedule s.master = .ok master) (frame : Packet) :
    (master.receive frame).Asked ∧
      Members (master.receive frame).nwManager (master.receive frame).masterNodeTimeToLive ∧
      (master.receive frame).Levels False ∧ (master.receive frame).tx.txManager.Numbered := by
  have hreach : ∀ {P : Master → Prop}, KeptByNetwork P → P s.master → P (master.receive frame) := by
    intro P hP hs
    rcases hm with rfl | hm
    · exact hP.betweenTicks.receive hs frame
    · exact hP.betweenTicks.receive (hP.updateSchedule hs hm) frame
  have hasked := hreach keptByNetwork_asked (asked_of_reachable h)
  have hmembers := hreach keptByNetwork_members (members_of_reachable h)
  have hlevels := hreach (keptByNetwork_levels False) (levels_of_reachable h)
  have hnumbered : (master.receive frame).tx.txManager.Numbered := by
    rcases hm with rfl | hm
    · exact numbered_of_reachable h
    · obtain ⟨_, _, _, queues, -, -, rfl⟩ := masterUpdateSchedule_ok hm
      have hs := numbered_of_reachable h
      exact ⟨hs.start, hs.next, hs.stop, hs.table⟩
  exact ⟨hasked, hmembers, hlevels, hnumbered⟩

/-- A master receives a frame without a failure exactly when it withstands the frame. -/
theorem reception_completes_iff {cfg : MasterConfig} {s : MasterRun} (h : (masterSystem cfg).Reachable s)
    (hm : master = s.master ∨ masterUpdateSchedule s.master = .ok master) (frame : Packet) :
    Completes (masterQuickRx (master.receive frame) false >>= masterRx) ↔ master.Withstands frame := by
  obtain ⟨hasked, hmembers, hlevels, hnumbered⟩ := received_of_reachable h hm frame
  have hframe : (master.receive frame).rx.packetAt (master.receive frame).rx.nextRxPacketEntry = frame :=
    RxPacketManager.packet_receive _ _
  have hquick := completes_quickRx hasked hnumbered.table hframe false
  unfold Master.Withstands
  rw [← findFreeRxPacket_receive_isSome _ master.rx.nextRxPacketEntry frame]
  by_cases haccept : masterAcceptsFrame frame false
  · rw [forall_prop_of_true haccept] at hquick ⊢
    rw [← hquick]
    refine Completes.bind_iff_and fun master' hq => ?_
    have hmembers' := keptByNetwork_members.quickRx hmembers hq
    exact completes_masterRx_of_quickRx hnumbered hmembers' hlevels hframe haccept (hquick.mp ⟨_, hq⟩) hq
  · refine iff_of_true ?_ fun hc => absurd hc haccept
    refine (Completes.bind_iff_left fun master' hq => ?_).mpr (hquick.mpr fun hc => absurd hc haccept)
    obtain ⟨rx, nw, ttl, m, rfl, -, -, hresult⟩ := masterQuickRx_ok hq
    rw [hframe] at hresult
    cases hresult with
    | dropped _ => exact masterRx_of_invalid rfl
    | kept hc _ _ => exact absurd hc haccept
    | inOrder hc _ _ _ => exact absurd hc haccept

/-- A data frame in order from a node that has joined. -/
theorem reception_completes_iff_joined :
    ∃ s, (masterSystem dualConfig).Reachable s ∧ 0 < s.master.masterNodeTimeToLive 1 ∧
    Completes (masterQuickRx (s.master.receive (dataFrame 0 3)) false >>= masterRx) := by
  obtain ⟨s, hrun, htest⟩ := System.exists_of_holdsAfter
    (x := (masterSystem dualConfig).run blankRun (slot (joinFrame 7)))
    (p := fun s => decide (0 < s.master.masterNodeTimeToLive 1) && !decide (s.master.tx.txManager.InWindow 1 0) &&
      s.master.scheduler.nodeTxBufferLevel 1 == 0) (by decide +kernel)
  simp only [Bool.and_eq_true, Bool.not_eq_true', decide_eq_true_eq, decide_eq_false_iff_not, beq_iff_eq] at htest
  obtain ⟨⟨hjoined, hwindow⟩, hlevel⟩ := htest
  have hs := System.Reachable.run (.init blankRun_init) hrun
  refine ⟨s, hs, hjoined, (reception_completes_iff hs (Or.inl rfl) _).mpr ?_⟩
  intro _
  refine ⟨fun _ => by decide, fun _ => ⟨fun _ hc => absurd hc hwindow, fun _ _ => ⟨by decide, ?_⟩, ?_⟩⟩
  · intro hc
    have hc' : 0 < s.master.scheduler.nodeTxBufferLevel 1 := hc
    rw [hlevel] at hc'
    exact absurd hc' (by decide)
  · intro hc
    exact absurd hc (by decide)

/-- A data frame without data stops the master, and so does a source that is no id. -/
theorem frame_stops_master : ∃ s, (masterSystem dualConfig).Reachable s ∧
    masterQuickRx (s.master.receive (ackFrame 200 0)) false = .error (.outOfBounds .masterQuickProcessPrevRx) ∧
    masterQuickRx (s.master.receive (fillHeader Packet.zero false 1 masterNodeId .nodeData 0 0)) false >>= masterRx =
      .error (.assertFailed .masterProcessRx) :=
  ⟨blankRun, .init blankRun_init, System.eq_error_of_faultOf rfl, System.eq_error_of_faultOf rfl⟩

end Reception

end Microbus
