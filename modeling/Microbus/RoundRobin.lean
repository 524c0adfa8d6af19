import Microbus.Foundation.Ring
import Microbus.TxSound

/-! The round of the master over the destinations that have packets. -/
namespace Microbus

open Transition

variable {m m' : TxManager} {queue : NodeQueue} {d : TNodeIndex}

/-- A packet of the destination may be sent now. -/
def TxManager.Sendable (m : TxManager) (d : TNodeIndex) : Prop :=
  m.txSeqNumPauseCount d = 0 ∧ m.txSeqNumNext d ≠ m.txSeqNumEnd d ∧
    m.txSeqNumNext d ≠ m.txSeqNumStart d + slidingWindowSize

instance (m : TxManager) (d : TNodeIndex) : Decidable (m.Sendable d) := by
  unfold TxManager.Sendable
  infer_instance

/-- Destinations that may not send, and are not paused, are paused. -/
def TxManager.passOver (m : TxManager) (dsts : List TNodeIndex) : TxManager :=
  { m with
    txSeqNumPauseCount := fun d => if d ∈ dsts ∧ m.txSeqNumPauseCount d = 0 then 2 else m.txSeqNumPauseCount d }

/-- The destinations of the queue have packets, which the store holds. -/
structure RoundReady (queue : NodeQueue) (m : TxManager) : Prop where
  nodup : queue.toList.Nodup
  table : ∀ d ∈ queue.toList, d.toNat < m.maxTxNodes
  nonempty : ∀ d ∈ queue.toList, m.txSeqNumStart d ≠ m.txSeqNumEnd d
  window : ∀ d ∈ queue.toList, m.WindowAt d
  stored : ∀ d ∈ queue.toList, m.WindowStored true d

/-- What a round does. -/
inductive RoundChoice (queue : NodeQueue) (m : TxManager) : Option Nat → TxManager → Prop
  | empty : queue.numNodes = 0 → RoundChoice queue m none m
  | none : 0 < queue.numNodes → (∀ d ∈ queue.toList, ¬ m.Sendable d) →
      RoundChoice queue m none { m.passOver queue.toList with lastTxQueueIndex := m.lastIndex queue }
  | sends {k i d} :
      Ring.FirstAfter queue.numNodes (m.lastIndex queue) (fun j => m.Sendable (queue.nodeIds j)) k →
      d = queue.nodeIds (Ring.place queue.numNodes (m.lastIndex queue) k) → m.Stores true d (m.txSeqNumNext d) i →
      RoundChoice queue m (some i)
        { (m.passOver (queue.passed (m.lastIndex queue) (k - 1))).advance d with
          lastTxQueueIndex := Ring.place queue.numNodes (m.lastIndex queue) k
          lastTxQueueCount := 1 }

theorem TxManager.passOver_congr {l l' : List TNodeIndex} (h : ∀ d, d ∈ l ↔ d ∈ l') :
    m.passOver l = m.passOver l' := by
  unfold TxManager.passOver
  simp only [h]

@[simp] theorem TxManager.passOver_nil (m : TxManager) : m.passOver [] = m := by
  simp [TxManager.passOver]

namespace RoundReady

theorem look_over (h : RoundReady queue m) {dsts : List TNodeIndex} (hd : d ∈ queue.toList) (hnew : d ∉ dsts)
    (hsend : ¬ m.Sendable d) :
    getNextTxPacketForNode (m.passOver dsts) true d = .ok (none, m.passOver (dsts ++ [d])) := by
  have hpause : (m.passOver dsts).txSeqNumPauseCount d = m.txSeqNumPauseCount d := if_neg fun hc => hnew hc.1
  by_cases hp : m.txSeqNumPauseCount d = 0
  · have hidle : ¬ (m.passOver dsts).Idle d := by
      rintro (hc | hc)
      · rw [hpause, hp] at hc
        exact Nat.lt_irrefl 0 hc
      · exact h.nonempty d hd hc
    have hend : (m.passOver dsts).AtWindowEnd d := by
      by_contra hc
      obtain ⟨hstop, hwindow⟩ := not_or.mp hc
      exact hsend ⟨hp, hstop, hwindow⟩
    have hlook : getNextTxPacketForNode (m.passOver dsts) true d = .ok (none, (m.passOver dsts).pause d) :=
      getNext_pause_of (h.table d hd) hidle hend ((h.window d hd).nextInRange (h.nonempty d hd))
    rw [hlook]
    congr 2
    unfold TxManager.pause TxManager.passOver
    dsimp only
    congr 1
    funext x
    by_cases hx : x = d
    · subst hx
      rw [Function.update_self, if_pos ⟨List.mem_append_right _ (List.mem_singleton.mpr rfl), hp⟩]
    · rw [Function.update_of_ne hx]
      simp only [List.mem_append, List.mem_singleton, hx, or_false]
  · have hidle : (m.passOver dsts).Idle d := by
      refine Or.inl ?_
      rw [hpause]
      exact Nat.pos_of_ne_zero hp
    have hlook : getNextTxPacketForNode (m.passOver dsts) true d = .ok (none, m.passOver dsts) :=
      getNext_idle (h.table d hd) hidle
    rw [hlook]
    congr 2
    unfold TxManager.passOver
    congr 1
    funext x
    by_cases hx : x = d
    · subst hx
      rw [if_neg fun hc => hp hc.2, if_neg fun hc => hp hc.2]
    · simp only [List.mem_append, List.mem_singleton, hx, or_false]

theorem look_send (h : RoundReady queue m) {dsts : List TNodeIndex} (hd : d ∈ queue.toList) (hnew : d ∉ dsts)
    (hsend : m.Sendable d) : ∃ i, m.Stores true d (m.txSeqNumNext d) i ∧
      getNextTxPacketForNode (m.passOver dsts) true d = .ok (some i, (m.passOver dsts).advance d) := by
  obtain ⟨hp, hstop, hwindow⟩ := hsend
  have hpause : (m.passOver dsts).txSeqNumPauseCount d = m.txSeqNumPauseCount d := if_neg fun hc => hnew hc.1
  have hidle : ¬ (m.passOver dsts).Idle d := by
    rintro (hc | hc)
    · rw [hpause, hp] at hc
      exact Nat.lt_irrefl 0 hc
    · exact h.nonempty d hd hc
  have hend : ¬ (m.passOver dsts).AtWindowEnd d := by
    rintro (hc | hc)
    · exact hstop hc
    · exact hwindow hc
  obtain ⟨i, hi, hone⟩ := h.stored d hd _ ((h.window d hd).next_inWindow hstop)
  refine ⟨i, hi, ?_⟩
  exact getNext_send_of (m := m.passOver dsts) (h.table d hd) hidle hend
    ((h.window d hd).nextInRange (h.nonempty d hd)) (hi.find validDst_master hone)

/-- The loop behind the first `k` positions, none of which may send. -/
theorem nextTxPacketLoop_eq (h : RoundReady queue m) {last : Nat} (hl : last < queue.numNodes) :
    ∀ fuel k i, k < queue.numNodes → queue.numNodes ≤ k + fuel →
      (if i + 1 ≥ queue.numNodes then 0 else i + 1) = Ring.place queue.numNodes last (k + 1) →
      (∀ j, 1 ≤ j → j < k + 1 → ¬ m.Sendable (queue.nodeIds (Ring.place queue.numNodes last j))) →
      ((∀ j, 1 ≤ j → j ≤ queue.numNodes →
        ¬ m.Sendable (queue.nodeIds (Ring.place queue.numNodes last j))) ∧
        nextTxPacketLoop last queue fuel i (m.passOver (queue.passed last k)) =
          .ok (none, last, m.passOver (queue.passed last queue.numNodes))) ∨
      ∃ k' e, Ring.FirstAfter queue.numNodes last (fun j => m.Sendable (queue.nodeIds j)) k' ∧
        m.Stores true (queue.nodeIds (Ring.place queue.numNodes last k'))
          (m.txSeqNumNext (queue.nodeIds (Ring.place queue.numNodes last k'))) e ∧
        nextTxPacketLoop last queue fuel i (m.passOver (queue.passed last k)) =
          .ok (some e, Ring.place queue.numNodes last k',
            (m.passOver (queue.passed last (k' - 1))).advance (queue.nodeIds (Ring.place queue.numNodes last k'))) := by
  intro fuel
  induction fuel with
  | zero => exact fun k i hk hfuel => absurd hk (by omega)
  | succ fuel ih =>
      intro k i hk hfuel hplace hbefore
      have hplt : Ring.place queue.numNodes last (k + 1) < queue.numNodes := Ring.place_lt hl hk
      have hmem := NodeQueue.nodeIds_mem hplt
      have hnew := NodeQueue.notMem_passed h.nodup hl hk
      have hnext := Ring.place_wrap hl hk
      unfold nextTxPacketLoop
      rw [hplace]
      dsimp only
      generalize hp : Ring.place queue.numNodes last (k + 1) = p at hplt hmem hnew
      by_cases hsend : m.Sendable (queue.nodeIds p)
      · obtain ⟨e, hstores, hlook⟩ := h.look_send hmem hnew hsend
        refine Or.inr ⟨k + 1, e, ⟨by omega, hk, by rw [hp]; exact hsend, hbefore⟩,
          by rw [hp]; exact hstores, ?_⟩
        rw [hp, Nat.add_sub_cancel]
        simp only [hlook, bind, Except.bind, reduceCtorEq, and_false, if_false]
        rfl
      · have hlook := h.look_over hmem hnew hsend
        have hpassed : m.passOver (queue.passed last k ++ [queue.nodeIds p]) =
          m.passOver (queue.passed last (k + 1)) := by
          rw [NodeQueue.passed_succ, hp]
        rw [hpassed] at hlook
        have hbefore' : ∀ j, 1 ≤ j → j < k + 1 + 1 →
          ¬ m.Sendable (queue.nodeIds (Ring.place queue.numNodes last j)) := by
          intro j hj hjk
          rcases Nat.lt_succ_iff_lt_or_eq.mp hjk with hlt | rfl
          · exact hbefore j hj hlt
          · rw [hp]
            exact hsend
        simp only [hlook, bind, Except.bind, and_true]
        by_cases hend : k + 1 = queue.numNodes
        · -- the round is over
          have hlast : p = last := by
            rw [← hp]
            exact (Ring.place_eq_last_iff (by omega)).mpr hend
          refine Or.inl ⟨fun j hj hjn => hbefore' j hj (by omega), ?_⟩
          rw [if_neg (not_not.mpr hlast), hlast, hend]
          rfl
        · have hne : p ≠ last := by
            rw [← hp]
            exact fun hc => hend ((Ring.place_eq_last_iff (by omega)).mp hc)
          rw [if_pos hne]
          refine ih (k + 1) p (by omega) (by omega) ?_ hbefore'
          rw [← hp]
          exact Ring.place_wrap hl (by omega)

end RoundReady

/-- The next packet of the master, for bursts of one: the round ends, it returns nothing just when no
destination of the queue may send, and else the packet numbered next of the first one behind the last index that
may. Only that destination moves on, and those passed over are paused. -/
theorem next_packet_is_round_robin (hqueue : m.activeTxNodes = some queue) (h : RoundReady queue m) :
    ∃ r m', masterGetNextTxDataPacket m 1 = .ok (r, m') ∧ RoundChoice queue m r m' ∧
      (r = none ↔ ∀ d ∈ queue.toList, ¬ m.Sendable d) := by
  unfold masterGetNextTxDataPacket
  rw [hqueue]
  dsimp only
  by_cases hzero : queue.numNodes = 0
  · rw [if_pos hzero]
    refine ⟨none, m, rfl, .empty hzero, iff_of_true rfl fun d hd => ?_⟩
    obtain ⟨i, hi, -⟩ := NodeQueue.mem_toList.mp hd
    omega
  · rw [if_neg hzero]
    have hpos := Nat.pos_of_ne_zero hzero
    have hl := m.lastIndex_lt hpos
    have hburst : ¬ (1 > 1 ∧ m.lastTxQueueCount < 1) := fun hc => Nat.lt_irrefl 1 hc.1
    rw [if_neg hburst]
    change ∃ r m', (nextTxPacketLoop (m.lastIndex queue) queue queue.numNodes (m.lastIndex queue) m >>= _) = _ ∧ _
    have hloop := h.nextTxPacketLoop_eq hl queue.numNodes 0 (m.lastIndex queue) hpos (by omega) ?_
      (fun j hj hj' => absurd hj (by omega))
    · rcases hloop with ⟨hnone, hloop⟩ | ⟨k, e, hfirst, hstores, hloop⟩
      · rw [NodeQueue.passed, List.range_zero, List.map_nil, TxManager.passOver_nil] at hloop
        have hall : ∀ d ∈ queue.toList, ¬ m.Sendable d := by
          intro d hd
          obtain ⟨j, hj, hj', rfl⟩ := NodeQueue.mem_passed.mp ((NodeQueue.mem_passed_all hl).mpr hd)
          exact hnone j hj hj'
        rw [hloop, TxManager.passOver_congr fun d => NodeQueue.mem_passed_all hl]
        exact ⟨none, _, rfl, .none hpos hall, iff_of_true rfl hall⟩
      · rw [NodeQueue.passed, List.range_zero, List.map_nil, TxManager.passOver_nil] at hloop
        rw [hloop]
        refine ⟨some e, _, rfl, .sends hfirst rfl hstores, iff_of_false (fun hc => by cases hc) fun hall => ?_⟩
        exact hall _ (NodeQueue.nodeIds_mem (hfirst.lt hl)) hfirst.hit
    · have hwrap := Ring.place_wrap hl hpos
      rwa [Ring.place_zero hl] at hwrap

/-- Whenever no packet waits for its submission the master is ready for a round. -/
theorem TxRun.Sound.roundReady {s : TxRun} {g : Ledger} (h : s.Sound true g) (hnone : s.manager.allocatedPacket = none)
    (hqueue : s.manager.activeTxNodes = some queue) : RoundReady queue s.manager := by
  obtain ⟨queue', hqueue', hnodup, hmem⟩ := h.sender.queue rfl
  obtain rfl : queue' = queue := Option.some.inj (hqueue'.symm.trans hqueue)
  have hc := h.sender.store.counters
  refine ⟨hnodup, fun d hd => h.sender.store.table d ((hmem d).mp hd), fun d hd heq => ?_,
    fun d _ => (hc.at d).windowAt (h.sender.full d), fun d _ => h.sender.store.windowStored hnone d⟩
  exact (hc.end_eq_start_iff (h.sender.full d)).mp heq.symm ((hmem d).mp hd)

/-- Packets wait for two destinations. -/
theorem next_packet_is_round_robin_two : ∃ m queue, m.activeTxNodes = some queue ∧ queue.toList = [1, 2] ∧
    ∃ r m', masterGetNextTxDataPacket m 1 = .ok (r, m') ∧ RoundChoice queue m r m' ∧
      (r = none ↔ ∀ d ∈ queue.toList, ¬ m.Sendable d) := by
  obtain ⟨s, hs, hcheck⟩ := System.exists_of_checkedRun (S := txSystem true 2)
    (s := .start true 2 fun _ => ⟨false, Packet.zero⟩)
    (p := fun s => decide (s.manager.allocatedPacket = none) &&
      decide (s.manager.activeTxNodes.map NodeQueue.toList = some [1, 2]))
    [.allocate, .submit 1 0 1 .masterData 4, .allocate, .submit 1 0 2 .masterData 4]
    (fun s a h => of_decide_eq_true (p := s.Disciplined true a) h) (.init ⟨_, rfl⟩) (by decide +kernel)
  obtain ⟨hnone, hlist⟩ := Bool.and_eq_true_iff.mp hcheck
  obtain ⟨queue, hqueue, hlist⟩ := Option.map_eq_some_iff.mp (of_decide_eq_true hlist)
  obtain ⟨g, hg⟩ := sound_of_reachable (by decide) hs
  exact ⟨s.manager, queue, hqueue, hlist, next_packet_is_round_robin hqueue
    (hg.roundReady (of_decide_eq_true hnone) hqueue)⟩

end Microbus
