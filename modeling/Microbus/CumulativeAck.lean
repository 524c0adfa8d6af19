import Microbus.TxSound

/-! What an acknowledgement does to any window whose packets are all in the store. -/
namespace Microbus

open Transition

variable {isMaster : Bool} {m m' : TxManager} {g : Ledger} {d : TNodeIndex} {a : UInt8} {n : Nat}

/-- The queue of the master lists the destinations that have packets, each of them once. -/
def TxManager.ListsActive (m : TxManager) : Prop :=
  ∃ queue, m.activeTxNodes = some queue ∧ queue.toList.Nodup ∧ ∀ x, x ∈ queue.toList ↔
    m.txSeqNumStart x ≠ m.txSeqNumEnd x

/-- The entry holds a packet of `d`, from the start of its window through `a`. -/
def TxManager.HeldThrough (isMaster : Bool) (m : TxManager) (d : TNodeIndex) (a : UInt8) (i : Nat) : Prop :=
  ∃ q, m.InWindow d q ∧ cyclicLength (m.txSeqNumStart d) q ≤ cyclicLength (m.txSeqNumStart d) a ∧
    m.Stores isMaster d q i

/-- The packets through `a` are given back. -/
structure AckTaken (isMaster : Bool) (m : TxManager) (d : TNodeIndex) (a : UInt8) (n : Nat)
    (m' : TxManager) : Prop where
  count : n = cyclicLength (m.txSeqNumStart d) a + 1
  released : m.packetStore.Released m'.packetStore (m.HeldThrough isMaster d a)
  frees : m.packetStore.Frees m'.packetStore n
  rest : m' = { m with
    packetStore := m'.packetStore
    txSeqNumStart := Function.update m.txSeqNumStart d (incrSequenceNum a)
    txSeqNumNext := Function.update m.txSeqNumNext d
      (if cyclicLength (m.txSeqNumStart d) (m.txSeqNumNext d) ≤ cyclicLength (m.txSeqNumStart d) a then
        incrSequenceNum a
        else m.txSeqNumNext d)
    txSeqNumPauseCount := Function.update m.txSeqNumPauseCount d 0
    activeTxNodes := m'.activeTxNodes }
  queue : m'.activeTxNodes.map NodeQueue.toList = m.activeTxNodes.map fun queue =>
    if isMaster ∧ incrSequenceNum a = m.txSeqNumEnd d then queue.toList.filter (· != d) else queue.toList

/-- Nothing is given back; the pause of `d` may run out, and with it the window start again. -/
structure AckRefused (m : TxManager) (d : TNodeIndex) (n : Nat) (m' : TxManager) : Prop where
  count : n = 0
  rest : m' = { m with
    txSeqNumNext := Function.update m.txSeqNumNext d (m'.txSeqNumNext d)
    txSeqNumPauseCount := Function.update m.txSeqNumPauseCount d (m'.txSeqNumPauseCount d) }

namespace TxManager.WindowAt

/-- The window as positions, from the number at its start on. -/
def ledger (m : TxManager) (d : TNodeIndex) : Ledger where
  start _ := (m.txSeqNumStart d).toNat
  next _ := (m.txSeqNumStart d).toNat + cyclicLength (m.txSeqNumStart d) (m.txSeqNumNext d)
  stop _ := (m.txSeqNumStart d).toNat + cyclicLength (m.txSeqNumStart d) (m.txSeqNumEnd d)
  owner _ := (d, 0)

theorem countersAt (h : m.WindowAt d) : CountersAt m (ledger m d) d where
  start_eq := exists_seq_of_ne_null h.start
  next_eq := eq_seq_cyclicLength h.start h.next
  stop_eq := eq_seq_cyclicLength h.start h.stop
  start_le_next := Nat.le_add_right _ _
  next_le_stop := Nat.add_le_add_left h.inWindow _
  window_le_255 := Nat.add_le_add_left (cyclicLength_lt _ _).le _

theorem cyclicLength_position (h : m.WindowAt d) {k : Nat} (hk : (m.txSeqNumStart d).toNat ≤ k)
    (hk' : k < (m.txSeqNumStart d).toNat + 255) :
    cyclicLength (m.txSeqNumStart d) (seq k) = k - (m.txSeqNumStart d).toNat := by
  have hstart := exists_seq_of_ne_null h.start
  have hlen := cyclicLength_seq hk
  rw [← hstart] at hlen
  rw [hlen]
  exact Nat.mod_eq_of_lt (by omega)

theorem inWindow_position (h : m.WindowAt d) {k : Nat} (hk : (m.txSeqNumStart d).toNat ≤ k)
    (hk' : k < (ledger m d).stop d) : m.InWindow d (seq k) := by
  have hlt := cyclicLength_lt (m.txSeqNumStart d) (m.txSeqNumEnd d)
  change k < (m.txSeqNumStart d).toNat + _ at hk'
  refine ⟨seq_ne_null k, ?_⟩
  rw [h.cyclicLength_position hk (by omega)]
  omega

/-- Each turn of the loop finds the one entry that holds the number. -/
theorem freesUpTo (h : m.WindowAt d) (hstored : m.WindowStored isMaster d) (hd : ValidDst isMaster d) {r : Nat}
    (hr : r ≤ (ledger m d).stop d) :
    FreesUpTo isMaster m (ledger m d) d r fun k s =>
      m.packetStore.Released s (fun i => ∃ j, (m.txSeqNumStart d).toNat ≤ j ∧ j < k ∧
        m.Stores isMaster d (seq j) i) ∧
        m.packetStore.Frees s (k - (m.txSeqNumStart d).toNat) := by
  have hlen := cyclicLength_lt (m.txSeqNumStart d) (m.txSeqNumEnd d)
  change r ≤ (m.txSeqNumStart d).toNat + _ at hr
  constructor
  · refine ⟨(PacketStore.Released.refl _).congr fun i _ => ⟨False.elim, ?_⟩, ?_⟩
    · rintro ⟨j, hj, hj', -⟩
      exact absurd hj (Nat.not_le.mpr hj')
    · change m.packetStore.Frees m.packetStore ((m.txSeqNumStart d).toNat - (m.txSeqNumStart d).toNat)
      rw [Nat.sub_self]
      exact .refl _
  · intro k s hk hkr hs
    change (m.txSeqNumStart d).toNat ≤ k at hk
    obtain ⟨i, hi, hone⟩ := hstored _ (h.inWindow_position hk (hkr.trans_le hr))
    have hnotFreed : ¬ ∃ j, (m.txSeqNumStart d).toNat ≤ j ∧ j < k ∧ m.Stores isMaster d (seq j) i := by
      rintro ⟨j, hj, hjk, hstores⟩
      have hsame : seq j = seq k := congrArg Prod.snd (hstores.key.symm.trans hi.key)
      have := Cyclic.eq_of_mod_eq (seq_eq_iff.mp hsame) (by omega) (by omega)
      omega
    obtain ⟨s', hfree, hs'⟩ := freePacket_ok (hs.1.find (hi.find hd hone) hnotFreed)
    refine ⟨s', hfree, (hs.1.trans hs').congr fun x _ => ?_, ?_⟩
    · constructor
      · rintro (⟨j, hj, hjk, hstores⟩ | rfl)
        · exact ⟨j, hj, Nat.lt_succ_of_lt hjk, hstores⟩
        · exact ⟨k, hk, Nat.lt_succ_self k, hi⟩
      · rintro ⟨j, hj, hjk, hstores⟩
        rcases Nat.lt_succ_iff_lt_or_eq.mp hjk with hlt | rfl
        · exact Or.inl ⟨j, hj, hlt, hstores⟩
        · exact Or.inr (hone x hstores)
    · rw [Nat.succ_sub hk]
      exact hs.2.trans (PacketStore.freePacket_frees hfree)

theorem ackTaken (h : m.WindowAt d) (hstored : m.WindowStored isMaster d) (hd : ValidDst isMaster d)
    (ht : d.toNat < m.maxTxNodes) (hlists : isMaster = true → m.ListsActive) (ha : m.InWindow d a) :
    ∃ n m', rxAckSeqNum m d a isMaster = .ok (n, m') ∧ AckTaken isMaster m d a n m' := by
  obtain ⟨hnull, hlt⟩ := ha
  have hlen := cyclicLength_lt (m.txSeqNumStart d) (m.txSeqNumEnd d)
  have hpos := eq_seq_cyclicLength h.start hnull
  have hne : m.txSeqNumStart d ≠ m.txSeqNumEnd d := by
    intro hc
    rw [← hc] at hlt
    unfold cyclicLength at hlt
    omega
  have hhas : QueueHas isMaster m d := by
    intro hm
    obtain ⟨queue, hqueue, -, hmem⟩ := hlists hm
    exact ⟨queue, hqueue, (hmem d).mpr hne⟩
  have hstop : (m.txSeqNumStart d).toNat + cyclicLength (m.txSeqNumStart d) a < (ledger m d).stop d :=
    Nat.add_lt_add_left hlt _
  obtain ⟨s, ⟨hreleased, hfrees⟩, hack⟩ := rxAckSeqNum_valid h.countersAt ht hhas (Nat.add_lt_add_left hlen _)
    (Nat.le_add_right _ _) hstop (h.freesUpTo hstored hd (Nat.succ_le_of_lt hstop))
  have hcount : (m.txSeqNumStart d).toNat + cyclicLength (m.txSeqNumStart d) a + 1 - (m.txSeqNumStart d).toNat =
      cyclicLength (m.txSeqNumStart d) a + 1 := by omega
  have hbase : (ledger m d).start d = (m.txSeqNumStart d).toNat := rfl
  rw [hbase, ← hpos, hcount] at hack
  rw [hbase] at hreleased
  rw [hbase, hcount] at hfrees
  have hsucc : seq ((m.txSeqNumStart d).toNat + cyclicLength (m.txSeqNumStart d) a + 1) = incrSequenceNum a := by
    rw [← incr_seq, ← hpos]
  have hnext : seq (max ((ledger m d).next d) ((m.txSeqNumStart d).toNat + cyclicLength (m.txSeqNumStart d) a + 1)) =
      if cyclicLength (m.txSeqNumStart d) (m.txSeqNumNext d) ≤ cyclicLength (m.txSeqNumStart d) a then
        incrSequenceNum a
        else m.txSeqNumNext d := by
    have hposition : (ledger m d).next d = (m.txSeqNumStart d).toNat + cyclicLength (m.txSeqNumStart d)
      (m.txSeqNumNext d) := rfl
    by_cases hle : cyclicLength (m.txSeqNumStart d) (m.txSeqNumNext d) ≤ cyclicLength (m.txSeqNumStart d) a
    · rw [if_pos hle, Nat.max_eq_right (by omega), hsucc]
    · rw [if_neg hle, Nat.max_eq_left (by omega), ← h.countersAt.next_eq]
  refine ⟨_, _, hack, rfl, hreleased.congr fun i _ => ?_, hfrees, ?_, ?_⟩
  · constructor
    · rintro ⟨j, hj, hj', hstores⟩
      have hjlen := h.cyclicLength_position hj (by omega)
      exact ⟨seq j, h.inWindow_position hj (by omega), by omega, hstores⟩
    · rintro ⟨q, hq, hle, hstores⟩
      have hqpos := eq_seq_cyclicLength h.start hq.1
      rw [hqpos] at hstores
      exact ⟨_, Nat.le_add_right _ _, by omega, hstores⟩
  · unfold TxManager.acknowledge
    rw [hsucc, hnext]
  · change (queueAfterAck isMaster m d _).map NodeQueue.toList = _
    rw [hsucc]
    unfold queueAfterAck
    by_cases hlast : incrSequenceNum a = m.txSeqNumEnd d ∧ isMaster = true
    · obtain ⟨queue, hqueue, hnodup, -⟩ := hlists hlast.2
      rw [if_pos hlast, hqueue, Option.map_some, Option.map_some, Option.map_some, if_pos hlast.symm,
        toList_removeIfExists,
        hnodup.erase_eq_filter]
    · rw [if_neg hlast]
      congr 1
      funext queue
      rw [if_neg fun hc => hlast hc.symm]

theorem ackRefused (h : m.WindowAt d) (ht : d.toNat < m.maxTxNodes) (ha : ¬ m.InWindow d a) :
    ∃ n m', rxAckSeqNum m d a isMaster = .ok (n, m') ∧ AckRefused m d n m' := by
  by_cases hnull : a = nullSequenceNum
  · subst hnull
    refine ⟨0, m, rxAckSeqNum_null, rfl, ?_⟩
    rw [Function.update_eq_self, Function.update_eq_self]
  · rcases h.countersAt.rxAck_cases hnull with ⟨-, k, hk, hk', rfl⟩ | ⟨hinvalid, -⟩
    · exact absurd (h.inWindow_position hk hk') ha
    · refine ⟨0, m.missAck d, rxAckSeqNum_missed ht hnull hinvalid, rfl, ?_⟩
      unfold TxManager.missAck
      by_cases hpause : m.txSeqNumPauseCount d > 0
      · rw [if_pos hpause]
        by_cases hzero : m.txSeqNumPauseCount d - 1 = 0
        · simp [hzero]
        · simp [hzero]
      · rw [if_neg hpause, Function.update_eq_self, Function.update_eq_self]

end TxManager.WindowAt

/-- An acknowledgement of a number of the window frees exactly the packets through it, and moves the window up;
any other frees nothing. The windows of the other nodes stay as they are. -/
theorem cumulative_ack_is_exact (hd : ValidDst isMaster d) (ht : d.toNat < m.maxTxNodes) (h : m.WindowAt d)
    (hstored : m.WindowStored isMaster d) (hlists : isMaster = true → m.ListsActive) (a : UInt8) :
    ∃ n m', rxAckSeqNum m d a isMaster = .ok (n, m') ∧
      if m.InWindow d a then AckTaken isMaster m d a n m' else AckRefused m d n m' := by
  split
  · rename_i ha
    exact h.ackTaken hstored hd ht hlists ha
  · rename_i ha
    exact h.ackRefused ht ha

/-- Node 1 has two packets under way, and acknowledges both. -/
theorem cumulative_ack_is_exact_two :
    ∃ m : TxManager, m.InWindow 1 1 ∧ ∃ n m', rxAckSeqNum m 1 1 true = .ok (n, m') ∧
    if m.InWindow 1 1 then AckTaken true m 1 1 n m' else AckRefused m 1 n m' := by
  obtain ⟨s, hs, hcheck⟩ := System.exists_of_checkedRun (S := txSystem true 4)
    (s := .start true 4 fun _ => ⟨false, Packet.zero⟩)
    (p := fun s => decide (s.manager.InWindow 1 1) && decide (s.manager.allocatedPacket = none))
    [.allocate, .submit 1 0 1 .masterData 4, .allocate, .submit 1 0 1 .masterData 4, .transmit 1, .transmit 1]
    (fun s a h => of_decide_eq_true (p := s.Disciplined true a) h) (.init ⟨_, rfl⟩) (by decide +kernel)
  obtain ⟨hwindow, hnone⟩ := Bool.and_eq_true_iff.mp hcheck
  obtain ⟨g, hg⟩ := sound_of_reachable (by decide) hs
  have hc := hg.sender.store.counters
  have hlists : s.manager.ListsActive := by
    obtain ⟨queue, hqueue, hnodup, hmem⟩ := hg.sender.queue rfl
    refine ⟨queue, hqueue, hnodup, fun x => ?_⟩
    rw [hmem, ne_comm, Ne, hc.end_eq_start_iff (hg.sender.full x), not_not]
  exact ⟨s.manager, of_decide_eq_true hwindow, cumulative_ack_is_exact validDst_master
    (hg.table (by decide)).1 ((hc.at 1).windowAt (hg.sender.full 1))
    (hg.sender.store.windowStored (of_decide_eq_true hnone) 1) (fun _ => hlists) 1⟩

end Microbus
