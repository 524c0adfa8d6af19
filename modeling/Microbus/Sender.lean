import Microbus.Link

/-! The transmit manager of a sender whose store has fewer entries than there are sequence
numbers and that removes no destination. -/
namespace Microbus

open Transition

variable {isMaster : Bool} {m m' : TxManager} {g : Ledger} {d : TNodeIndex}

structure SenderInv (isMaster : Bool) (m : TxManager) (g : Ledger) : Prop where
  store : StoreInv isMaster m g
  fresh : Fresh isMaster m
  queue : isMaster = true → QueueInv m g
  size : m.size ≤ 254
  table : isMaster = true → m.maxTxNodes = maxNodes
  notSelf : isMaster = true → ¬ g.start masterNodeId < g.stop masterNodeId

namespace SenderInv

theorem full (h : SenderInv isMaster m g) (d : TNodeIndex) : g.stop d < g.start d + 255 := by
  have := h.store.window_le d
  have := h.size
  omega

theorem unshadowed (h : SenderInv isMaster m g) : Unshadowed isMaster m := h.fresh.unshadowed

/-- The queue never reaches the size at which an allocation loses its entry. -/
theorem numNodes_lt (h : SenderInv true m g) {q : NodeQueue} (hq : m.activeTxNodes = some q) :
    q.numNodes < maxNodes := by
  obtain ⟨q', hq', hnodup, hmem⟩ := h.queue rfl
  obtain rfl : q' = q := Option.some.inj (hq'.symm.trans hq)
  have hself : masterNodeId ∉ q'.toList := fun hc => h.notSelf rfl ((hmem _).mp hc)
  have hlt : ∀ d ∈ masterNodeId :: q'.toList, d.toNat < maxNodes := by
    intro d hd
    rcases List.mem_cons.mp hd with rfl | hd
    · decide
    · rw [← h.table rfl]
      exact h.store.table d ((hmem d).mp hd)
  have hlen := length_le_of_nodup (List.nodup_cons.mpr ⟨hself, hnodup⟩) hlt
  rw [List.length_cons, q'.length_toList] at hlen
  exact hlen

theorem allocate (h : SenderInv isMaster m g) {r : Option Nat} (ha : allocateTxPacket m = .ok (r, m'))
    (hnode : isMaster = false → m.activeTxNodes = none) :
    (r = none ∧ m' = m) ∨
      ∃ i, r = some i ∧ m.FirstFree i ∧ m.allocatedPacket = none ∧
        m' = { m.takeEntry i with allocatedPacket := some i } ∧ SenderInv isMaster m' g := by
  rcases allocateTxPacket_ok ha with hnone | ⟨i, hf, hn, ⟨-, -, q, hq, hfull⟩ | ⟨rfl, rfl⟩⟩
  · exact Or.inl hnone
  · cases isMaster with
    | true => exact absurd (h.numNodes_lt hq) (Nat.not_lt.mpr hfull)
    | false => rw [hnode rfl] at hq; cases hq
  · refine Or.inr ⟨i, rfl, hf, hn, rfl, ?_⟩
    exact ⟨h.store.allocate hf hn, h.fresh.allocate hf hn, h.queue, h.size, h.table, h.notSelf⟩

theorem touched (h : SenderInv isMaster m g) (t : Touched isMaster m m') (hq : m'.activeTxNodes = m.activeTxNodes) :
    SenderInv isMaster m' g where
  store := t.storeInv h.store
  fresh := t.fresh h.fresh
  queue hm := by
    obtain ⟨q, h1, h2⟩ := h.queue hm
    exact ⟨q, hq.trans h1, h2⟩
  size := by rw [t.size]; exact h.size
  table hm := by rw [t.maxTxNodes]; exact h.table hm
  notSelf := h.notSelf

theorem submit (h : SenderInv isMaster m g) {i : Nat} {p : Packet} {q : Option NodeQueue}
    (ha : m.allocatedPacket = some i) (htable : d.toNat < m.maxTxNodes) (hself : isMaster = true → d ≠ masterNodeId)
    (hk : entryKey isMaster { m.entry i with packet := p } = (d, m.txSeqNumEnd d))
    (hadd : addActiveTxNode m isMaster d = .ok q) :
    SenderInv isMaster (m.submitEntry i p d q) (g.submit i d) where
  store := h.store.submit ha htable hk
  fresh := h.fresh.submit h.store ha hk
  queue hm := by
    subst hm
    exact (h.queue rfl).submit h.store.counters (h.store.room_of_allocated ha _) hadd
  size := h.size
  table := h.table
  notSelf hm := by
    simp only [Ledger.submit]
    rw [Function.update_of_ne (hself hm).symm]
    exact h.notSelf hm

theorem sameStore (h : SenderInv isMaster m g) {g' : Ledger} (hs : StoreInv isMaster m' g') (t : SameStore m m')
    (hstop : m'.txSeqNumEnd = m.txSeqNumEnd) (hq : m'.activeTxNodes = m.activeTxNodes)
    (htable : m'.maxTxNodes = m.maxTxNodes) (hg : g'.start = g.start) (hg' : g'.stop = g.stop) :
    SenderInv isMaster m' g' where
  store := hs
  fresh := t.fresh hstop h.fresh
  queue hm := by
    obtain ⟨q, h1, h2, h3⟩ := h.queue hm
    exact ⟨q, hq.trans h1, h2, fun d => by rw [hg, hg']; exact h3 d⟩
  size := by rw [t.size]; exact h.size
  table hm := by rw [htable]; exact h.table hm
  notSelf hm := by rw [hg, hg']; exact h.notSelf hm

theorem advance (h : SenderInv isMaster m g) (hn : g.next d < g.stop d) :
    SenderInv isMaster (m.advance d) (g.advance d) :=
  h.sameStore (h.store.advance hn) ⟨rfl, rfl⟩ rfl rfl rfl rfl rfl

theorem pause (h : SenderInv isMaster m g) (p : TNodeIndex → Nat) (i c : Nat) :
    SenderInv isMaster (m.withCursor p i c) g :=
  h.sameStore (h.store.withCursor p i c) ⟨rfl, rfl⟩ rfl rfl rfl rfl rfl

def Sends (isMaster : Bool) (m : TxManager) (g : Ledger) (r : Option Nat) (m' : TxManager) : Prop :=
  (∀ i, m'.Live i ↔ m.Live i) ∧ (∀ i, (m'.entry i).packet.payload = (m.entry i).packet.payload) ∧
    m'.maxTxNodes = m.maxTxNodes ∧
    (r = none ∧ SenderInv isMaster m' g ∨
      ∃ i d, r = some i ∧ m.Live i ∧ g.owner i = (d, g.next d) ∧ g.next d < g.stop d ∧
        SenderInv isMaster m' (g.advance d))

theorem masterGetNext (h : SenderInv true m g) {burstSize : Nat} {r : Option Nat}
    (hget : masterGetNextTxDataPacket m burstSize = .ok (r, m')) : Sends true m g r m' := by
  obtain ⟨queue, hq, hround⟩ := masterGetNextTxDataPacket_ok hget
  refine ⟨hround.sameStore.live, fun i => by rw [hround.sameStore.entry], hround.maxTxNodes, ?_⟩
  obtain ⟨p, i, c, -, ⟨hr, rfl⟩ | ⟨d, e, -, hr, hi, he, ht, hfind, rfl⟩⟩ := hround
  · exact Or.inl ⟨hr, h.pause p i c⟩
  · obtain ⟨hl, ho, hlt⟩ := h.store.next_found h.unshadowed (fun hc => by cases hc) hi he hfind ht
    exact Or.inr ⟨e, d, hr, hl, ho, hlt, (h.advance hlt).pause p i c⟩

theorem masterGetNext_total (h : SenderInv true m g) (burstSize : Nat) :
    ∃ r, masterGetNextTxDataPacket m burstSize = .ok r := by
  obtain ⟨q, hq, -, hmem⟩ := h.queue rfl
  exact masterGetNextTxDataPacket_total burstSize h.store.counters (h.store.findable h.unshadowed) hq
    fun d hd => h.store.table d ((hmem d).mp hd)

theorem touched_setAckSeqNum (m : TxManager) (i : Nat) (a : UInt8) :
    Touched false m
      { m with packetStore := m.packetStore.setPacket i ((m.packetStore.entries i).packet.setAckSeqNum a) } :=
  Touched.setPacket m i _ rfl

theorem nodeGetNext (h : SenderInv false m g) {r : Option Nat}
    (hget : nodeGetNextTxDataPacket m = .ok (r, m')) : Sends false m g r m' := by
  unfold nodeGetNextTxDataPacket at hget
  split at hget
  · cases hget
    exact ⟨fun _ => Iff.rfl, fun _ => rfl, rfl, Or.inl ⟨rfl, h⟩⟩
  · obtain ⟨⟨e, m₁⟩, hnext, hret⟩ := bind_eq_ok.mp hget
    clear hget
    obtain ⟨ht, ⟨rfl, -, rfl⟩ | ⟨rfl, -, -, rfl⟩ | ⟨i, rfl, hi, he, hfind, rfl⟩⟩ := getNext_ok hnext
    · cases hret
      exact ⟨fun _ => Iff.rfl, fun _ => rfl, rfl, Or.inl ⟨rfl, h⟩⟩
    · cases hret
      exact ⟨SameStore.live ⟨rfl, rfl⟩, fun _ => rfl, rfl, Or.inl ⟨rfl, h.pause _ _ _⟩⟩
    · obtain ⟨hl, ho, hlt⟩ := h.store.next_found h.unshadowed (fun _ => rfl) hi he hfind ht
      have hsame : SameStore m (m.advance masterNodeId) := ⟨rfl, rfl⟩
      cases hret
      have t := touched_setAckSeqNum (m.advance masterNodeId) i (m.rxSeqNum masterNodeId)
      refine ⟨fun j => (t.live j).trans (hsame.live j), ?_, rfl,
        Or.inr ⟨i, masterNodeId, rfl, hl, ho, hlt, (h.advance hlt).touched t rfl⟩⟩
      intro j
      change ((m.packetStore.setPacket i _).entries j).packet.payload = _
      rw [entry_setPacket]
      by_cases hj : j = i
      · rw [if_pos hj, hj]
        rfl
      · rw [if_neg hj]

theorem nodeGetNext_activeTxNodes {r : Option Nat} (hget : nodeGetNextTxDataPacket m = .ok (r, m')) :
    m'.activeTxNodes = m.activeTxNodes := by
  unfold nodeGetNextTxDataPacket at hget
  split at hget
  · cases hget
    rfl
  · obtain ⟨⟨e, m₁⟩, hnext, hret⟩ := bind_eq_ok.mp hget
    have hq : m₁.activeTxNodes = m.activeTxNodes := by
      obtain ⟨-, ⟨-, -, rfl⟩ | ⟨-, -, -, rfl⟩ | ⟨i, -, -, -, -, rfl⟩⟩ := getNext_ok hnext <;> rfl
    cases e with
    | none => cases hret; exact hq
    | some i => cases hret; exact hq

/-- The three cases of the node's next packet. -/
theorem nodeGetNext_cases (h : SenderInv false m g) (ht : masterNodeId.toNat < m.maxTxNodes) :
    (m.Idle masterNodeId ∧ nodeGetNextTxDataPacket m = .ok (none, m)) ∨
      (¬ m.Idle masterNodeId ∧ m.AtWindowEnd masterNodeId ∧
        nodeGetNextTxDataPacket m = .ok (none, m.pause masterNodeId)) ∨
      (¬ m.Idle masterNodeId ∧ ¬ m.AtWindowEnd masterNodeId ∧
        ∃ i m', nodeGetNextTxDataPacket m = .ok (some i, m') ∧ m'.txSeqNumPauseCount = m.txSeqNumPauseCount) := by
  unfold nodeGetNextTxDataPacket
  by_cases hs : m.txSeqNumStart masterNodeId = m.txSeqNumEnd masterNodeId
  · rw [if_pos hs]
    exact Or.inl ⟨Or.inr hs, rfl⟩
  · rw [if_neg hs]
    by_cases hi : m.Idle masterNodeId
    · rw [getNext_idle ht hi]
      exact Or.inl ⟨hi, rfl⟩
    · by_cases he : m.AtWindowEnd masterNodeId
      · rw [h.store.counters.getNext_pause ht hi he]
        exact Or.inr (Or.inl ⟨hi, he, rfl⟩)
      · obtain ⟨i, -, -, -, hget⟩ := h.store.getNext_send h.unshadowed (fun _ => rfl) ht hi he
        rw [hget]
        exact Or.inr (Or.inr ⟨hi, he, i, _, rfl, rfl⟩)

theorem rxAck (h : SenderInv isMaster m g) (a : UInt8)
    (hd : a ≠ nullSequenceNum → d.toNat < m.maxTxNodes ∧ ValidDst isMaster d) :
    ∃ n m' g', rxAckSeqNum m d a isMaster = .ok (n, m') ∧ AckResult isMaster m g d a m' g' := by
  refine h.store.rxAck h.unshadowed a hd ?_
  intro hm hlt
  obtain ⟨q, hq, -, hmem⟩ := h.queue hm
  exact ⟨q, hq, (hmem d).mpr hlt⟩

theorem acknowledge (h : SenderInv isMaster m g) {k : Nat} {s : PacketStore} (hs : g.start d ≤ k) (he : k < g.stop d)
    (hrel : m.packetStore.Released s (AckedBelow m g d (k + 1))) :
    SenderInv isMaster (m.acknowledge isMaster g d (k + 1) s) (g.acknowledge d (k + 1)) where
  store := h.store.acknowledge hrel (Nat.le_succ_of_le hs) he
  fresh := h.fresh.acknowledge h.store hrel (h.full d)
  queue hm := by
    subst hm
    exact (h.queue rfl).acknowledge h.store.stop_eq (Nat.lt_succ_of_le hs) he (h.full d)
  size := by
    have hsize := h.size
    unfold TxManager.size at hsize ⊢
    simp only [TxManager.acknowledge, hrel.maxEntries]
    exact hsize
  table := h.table
  notSelf hm := by
    have hns := h.notSelf hm
    simp only [Ledger.acknowledge]
    by_cases hd : masterNodeId = d
    · rw [← hd] at hs he
      exact absurd (hs.trans_lt he) hns
    · rw [Function.update_of_ne hd]
      exact hns

theorem missAck (h : SenderInv isMaster m g) : SenderInv isMaster (m.missAck d) (g.missAck m d) := by
  refine h.sameStore h.store.missAck (sameStore_missAck m d) ?_ ?_ ?_ ?_ ?_
  · exact missAck_end m d
  · exact missAck_activeTxNodes m d
  · exact missAck_maxTxNodes m d
  · exact g.missAck_start m d
  · exact g.missAck_stop m d

end SenderInv

def Ledger.zero : Ledger := ⟨fun _ => 0, fun _ => 0, fun _ => 0, fun _ => (masterNodeId, 0)⟩

theorem not_live_init {n : Nat} {q : Option NodeQueue} {maxEntries : UInt8} {entries : Nat → PacketEntry} (i : Nat) :
    ¬ (initTxManager n q maxEntries entries).Live i := by
  intro h
  have hu := h.inUse
  have hlt : i < maxEntries.toNat := h.lt
  simp [TxManager.entry, initTxManager, hlt] at hu

theorem storeInv_init (n : Nat) (q : Option NodeQueue) (maxEntries : UInt8) (entries : Nat → PacketEntry) :
    StoreInv isMaster (initTxManager n q maxEntries entries) Ledger.zero where
  start_eq _ := rfl
  next_eq _ := rfl
  stop_eq _ := rfl
  start_le_next _ := Nat.le_refl _
  next_le_stop _ := Nat.le_refl _
  table _ h := absurd h (Nat.lt_irrefl _)
  allocated _ h := by cases h
  owner_mem i h := absurd h (not_live_init i)
  owner_key i h := absurd h (not_live_init i)
  owner_inj i _ h := absurd h (not_live_init i)
  owner_surj _ _ _ h := absurd h (Nat.not_lt_zero _)

theorem senderInv_init {n : Nat} {q : Option NodeQueue} {maxEntries : UInt8} {entries : Nat → PacketEntry}
    (hsize : maxEntries.toNat ≤ 254) (hq : isMaster = true → q = some NodeQueue.empty ∧ n = maxNodes) :
    SenderInv isMaster (initTxManager n q maxEntries entries) Ledger.zero where
  store := storeInv_init n q maxEntries entries
  fresh := ⟨fun _ j _ _ hj => absurd hj (not_live_init j), fun _ h => by cases h⟩
  queue hm := ⟨_, (hq hm).1, List.nodup_nil, fun _ =>
    ⟨fun hc => (by cases hc), fun hc => absurd hc (Nat.lt_irrefl _)⟩⟩
  size := hsize
  table hm := (hq hm).2
  notSelf _ := Nat.lt_irrefl _

end Microbus
