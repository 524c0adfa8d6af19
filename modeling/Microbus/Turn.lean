import Microbus.Foundation.Ring
import Microbus.Sender

/-! Whose packet is sent next. -/
namespace Microbus

open Transition

variable {isMaster : Bool} {m m₁ m' : TxManager} {queue : NodeQueue} {d : TNodeIndex} {r : Option Nat}

/-- The index where the last round ended, or the last one of a queue that has become shorter. -/
def TxManager.lastIndex (m : TxManager) (queue : NodeQueue) : Nat :=
  if m.lastTxQueueIndex ≥ queue.numNodes then queue.numNodes - 1 else m.lastTxQueueIndex

theorem TxManager.lastIndex_lt (m : TxManager) (hpos : 0 < queue.numNodes) : m.lastIndex queue < queue.numNodes := by
  unfold TxManager.lastIndex
  split <;> omega

/-- The destinations at the first `k` positions behind `last`. -/
def NodeQueue.passed (queue : NodeQueue) (last k : Nat) : List TNodeIndex :=
  (List.range k).map fun j => queue.nodeIds (Ring.place queue.numNodes last (j + 1))

namespace NodeQueue

variable {last k j : Nat}

theorem passed_succ (queue : NodeQueue) (last k : Nat) :
    queue.passed last (k + 1) = queue.passed last k ++ [queue.nodeIds (Ring.place queue.numNodes last (k + 1))] := by
  unfold passed
  rw [List.range_succ, List.map_append, List.map_cons, List.map_nil]

theorem mem_passed : d ∈ queue.passed last k ↔ ∃ j, 1 ≤ j ∧ j ≤ k ∧
    queue.nodeIds (Ring.place queue.numNodes last j) = d := by
  unfold passed
  rw [List.mem_map]
  constructor
  · rintro ⟨j, hj, rfl⟩
    exact ⟨j + 1, by omega, List.mem_range.mp hj, rfl⟩
  · rintro ⟨j, hpos, hj, rfl⟩
    refine ⟨j - 1, List.mem_range.mpr (by omega), ?_⟩
    rw [Nat.sub_add_cancel hpos]

theorem mem_passed_all (hl : last < queue.numNodes) :
    d ∈ queue.passed last queue.numNodes ↔ d ∈ queue.toList := by
  rw [mem_passed, mem_toList]
  constructor
  · rintro ⟨j, -, hj, rfl⟩
    exact ⟨_, Ring.place_lt hl hj, rfl⟩
  · rintro ⟨i, hi, rfl⟩
    obtain ⟨k, hk, hk', rfl⟩ := Ring.exists_place hl hi
    exact ⟨k, hk, hk', rfl⟩

theorem nodeIds_inj (hn : queue.toList.Nodup) {i j : Nat} (hi : i < queue.numNodes) (hj : j < queue.numNodes)
    (h : queue.nodeIds i = queue.nodeIds j) : i = j :=
  (List.nodup_map_iff_inj_on List.nodup_range).mp hn i (List.mem_range.mpr hi) j (List.mem_range.mpr hj) h

theorem notMem_passed (hn : queue.toList.Nodup) (hl : last < queue.numNodes) (hk : k < queue.numNodes) :
    queue.nodeIds (Ring.place queue.numNodes last (k + 1)) ∉ queue.passed last k := by
  intro hc
  obtain ⟨j, hpos, hj, heq⟩ := mem_passed.mp hc
  have hplace := nodeIds_inj hn (Ring.place_lt hl (by omega)) (Ring.place_lt hl (by omega)) heq
  have := Ring.place_inj_round hpos (by omega) (by omega) (by omega) hplace
  omega

end NodeQueue

/-- Whether a packet of the destination may be sent now. -/
def TxManager.MaySend (m : TxManager) (d : TNodeIndex) : Prop := ¬ m.Idle d ∧ ¬ m.AtWindowEnd d

instance (m : TxManager) (d : TNodeIndex) : Decidable (m.MaySend d) := by
  unfold TxManager.MaySend TxManager.Idle TxManager.AtWindowEnd
  infer_instance

/-- The destinations that the master looks at: in a burst the last one first, then once round the queue. -/
def TxManager.looks (m : TxManager) (burstSize : Nat) (queue : NodeQueue) : List TNodeIndex :=
  if queue.numNodes = 0 then []
  else
    (if burstSize > 1 ∧ m.lastTxQueueCount < burstSize then [queue.nodeIds (m.lastIndex queue)] else []) ++
      queue.passed (m.lastIndex queue) queue.numNodes

/-- The destination whose packet is sent next: the first one that may send. -/
def TxManager.turn (isMaster : Bool) (m : TxManager) (burstSize : Nat) : Option TNodeIndex :=
  if isMaster then m.activeTxNodes.bind fun queue => (m.looks burstSize queue).find? fun d => m.MaySend d
  else [masterNodeId].find? fun d => m.MaySend d

theorem TxManager.maySend_of_turn (m : TxManager) {burstSize : Nat} (h : m.turn isMaster burstSize = some d) :
    m.MaySend d := by
  unfold turn at h
  split at h
  · obtain ⟨queue, -, hfind⟩ := Option.bind_eq_some_iff.mp h
    have hmay := List.find?_some hfind
    exact of_decide_eq_true hmay
  · have hmay := List.find?_some h
    exact of_decide_eq_true hmay

structure TxManager.Moves (m m' : TxManager) (turn : Option TNodeIndex) : Prop where
  start : m'.txSeqNumStart = m.txSeqNumStart
  stop : m'.txSeqNumEnd = m.txSeqNumEnd
  allocated : m'.allocatedPacket = m.allocatedPacket
  size : m'.size = m.size
  inUse : ∀ i, (m'.entry i).inUse = (m.entry i).inUse
  numStored : m'.packetStore.numStored = m.packetStore.numStored
  numFreed : m'.packetStore.numFreed = m.packetStore.numFreed
  next : m'.txSeqNumNext = turn.elim m.txSeqNumNext fun d => (m.advance d).txSeqNumNext

/-- Looks that found nothing: whoever may send may still send. -/
structure TxManager.LooksOver (m m' : TxManager) : Prop where
  moves : m.Moves m' none
  maySend : ∀ d, m'.MaySend d ↔ m.MaySend d

namespace TxManager

theorem LooksOver.refl (m : TxManager) : m.LooksOver m :=
  ⟨⟨rfl, rfl, rfl, rfl, fun _ => rfl, rfl, rfl, rfl⟩, fun _ => Iff.rfl⟩

theorem LooksOver.moves_trans {turn : Option TNodeIndex} (h : m.LooksOver m₁) (h' : m₁.Moves m' turn) :
    m.Moves m' turn where
  start := h'.start.trans h.moves.start
  stop := h'.stop.trans h.moves.stop
  allocated := h'.allocated.trans h.moves.allocated
  size := h'.size.trans h.moves.size
  inUse i := (h'.inUse i).trans (h.moves.inUse i)
  numStored := h'.numStored.trans h.moves.numStored
  numFreed := h'.numFreed.trans h.moves.numFreed
  next := by
    have hnext : m₁.txSeqNumNext = m.txSeqNumNext := h.moves.next
    rw [h'.next]
    cases turn with
    | none => exact hnext
    | some d =>
        change Function.update m₁.txSeqNumNext d _ = Function.update m.txSeqNumNext d _
        rw [hnext]

theorem LooksOver.trans (h : m.LooksOver m₁) (h' : m₁.LooksOver m') : m.LooksOver m' :=
  ⟨h.moves_trans h'.moves, fun d => (h'.maySend d).trans (h.maySend d)⟩

theorem LooksOver.pause (he : m.AtWindowEnd d) : m.LooksOver (m.pause d) where
  moves := ⟨rfl, rfl, rfl, rfl, fun _ => rfl, rfl, rfl, rfl⟩
  maySend x := by
    by_cases hx : x = d
    · subst hx
      refine iff_of_false (fun hc => hc.1 (Or.inl ?_)) fun hc => hc.2 he
      change 0 < Function.update m.txSeqNumPauseCount x 2 x
      rw [Function.update_self]
      exact Nat.two_pos
    · have hpause : (m.pause d).txSeqNumPauseCount x = m.txSeqNumPauseCount x := Function.update_of_ne hx _ _
      unfold MaySend Idle AtWindowEnd
      rw [hpause]
      rfl

theorem Moves.advance (m : TxManager) (d : TNodeIndex) : m.Moves (m.advance d) (some d) :=
  ⟨rfl, rfl, rfl, rfl, fun _ => rfl, rfl, rfl, rfl⟩

theorem find?_of_not_maySend (h : ¬ m.MaySend d) (l : List TNodeIndex) :
    ((d :: l).find? fun x => m.MaySend x) = l.find? fun x => m.MaySend x :=
  List.find?_cons_of_neg fun hc => h (of_decide_eq_true hc)

theorem find?_of_maySend (h : m.MaySend d) (l : List TNodeIndex) : ((d :: l).find? fun x => m.MaySend x) = some d :=
  List.find?_cons_of_pos (decide_eq_true h)

theorem look (h : getNextTxPacketForNode m isMaster d = .ok (r, m')) :
    (¬ m.MaySend d ∧ r = none ∧ m.LooksOver m') ∨ (m.MaySend d ∧ r.isSome ∧ m' = m.advance d) := by
  obtain ⟨-, ⟨hr, hidle, rfl⟩ | ⟨hr, hidle, hend, rfl⟩ | ⟨i, rfl, hidle, hend, -, rfl⟩⟩ := getNext_ok h
  · exact Or.inl ⟨fun hc => hc.1 hidle, hr, .refl _⟩
  · exact Or.inl ⟨fun hc => hc.2 hend, hr, .pause hend⟩
  · exact Or.inr ⟨⟨hidle, hend⟩, rfl, rfl⟩

/-- The loop of the master behind the first `k` positions, none of which may send. -/
theorem nextTxPacketLoop_moves {last : Nat} (hl : last < queue.numNodes) :
    ∀ fuel k i m₁ r j m', k < queue.numNodes →
      (if i + 1 ≥ queue.numNodes then 0 else i + 1) = Ring.place queue.numNodes last (k + 1) → m.LooksOver m₁ →
      (∀ x ∈ queue.passed last k, ¬ m.MaySend x) → nextTxPacketLoop last queue fuel i m₁ = .ok (r, j, m') →
      m.Moves m' ((queue.passed last queue.numNodes).find? fun d => m.MaySend d) := by
  intro fuel
  induction fuel with
  | zero => exact fun k i m₁ r j m' _ _ _ _ h => by cases h
  | succ fuel ih =>
      intro k i m₁ r j m' hk hplace hover hbefore h
      have hnext := Ring.place_wrap hl hk
      unfold nextTxPacketLoop at h
      rw [hplace] at h
      obtain ⟨⟨e, m₂⟩, hget, h⟩ := bind_eq_ok.mp h
      dsimp only at h
      rcases look hget with ⟨hno, rfl, hover'⟩ | ⟨hmay, hsome, rfl⟩
      · have hover₂ := hover.trans hover'
        have hbefore' : ∀ x ∈ queue.passed last (k + 1), ¬ m.MaySend x := by
          intro x hx
          rw [NodeQueue.passed_succ, List.mem_append, List.mem_singleton] at hx
          rcases hx with hx | rfl
          · exact hbefore x hx
          · exact fun hc => hno ((hover.maySend _).mpr hc)
        by_cases hend : k + 1 = queue.numNodes
        · have hlast : Ring.place queue.numNodes last (k + 1) = last := (Ring.place_eq_last_iff (by omega)).mpr hend
          rw [if_neg fun hc => hc.1 hlast] at h
          cases h
          have hnone : ((queue.passed last queue.numNodes).find? fun d => m.MaySend d) = none := by
            rw [← hend, List.find?_eq_none]
            exact fun x hx hc => hbefore' x hx (of_decide_eq_true hc)
          rw [hnone]
          exact hover₂.moves
        · have hne : Ring.place queue.numNodes last (k + 1) ≠ last := fun hc =>
            hend ((Ring.place_eq_last_iff (by omega)).mp hc)
          rw [if_pos ⟨hne, rfl⟩] at h
          exact ih (k + 1) _ m₂ r j m' (by omega) (Ring.place_wrap hl (by omega)) hover₂ hbefore' h
      · rw [if_neg fun hc => by rw [hc.2] at hsome; cases hsome] at h
        cases h
        have hfind : ((queue.passed last queue.numNodes).find? fun d => m.MaySend d) =
            some (queue.nodeIds (Ring.place queue.numNodes last (k + 1))) := by
          unfold NodeQueue.passed
          rw [List.find?_map, Option.map_eq_some_iff]
          refine ⟨k, List.find?_range_eq_some.mpr ⟨?_, List.mem_range.mpr hk, ?_⟩, rfl⟩
          · exact decide_eq_true ((hover.maySend _).mp hmay)
          · intro j hj
            rw [Bool.not_eq_true', Function.comp_apply, decide_eq_false_iff_not]
            exact hbefore _ (NodeQueue.mem_passed.mpr ⟨j + 1, by omega, by omega, rfl⟩)
        rw [hfind]
        exact hover.moves_trans (.advance m₁ _)

theorem Moves.cursor {turn : Option TNodeIndex} (h : m.Moves m' turn) (i c : Nat) :
    m.Moves { m' with lastTxQueueIndex := i, lastTxQueueCount := c } turn :=
  ⟨h.start, h.stop, h.allocated, h.size, h.inUse, h.numStored, h.numFreed, h.next⟩

theorem roundTail_moves {last : Nat} (hl : last < queue.numNodes) (hover : m.LooksOver m₁)
    (h : (nextTxPacketLoop last queue queue.numNodes last m₁ >>= fun x =>
      if x.1.isSome then
        pure (x.1, { x.2.2 with lastTxQueueIndex := x.2.1, lastTxQueueCount := 1 })
      else pure (none, { x.2.2 with lastTxQueueIndex := x.2.1 })) = (.ok (r, m') : Except Fault _)) :
    m.Moves m' ((queue.passed last queue.numNodes).find? fun d => m.MaySend d) := by
  obtain ⟨⟨e, j, m₂⟩, hloop, h⟩ := bind_eq_ok.mp h
  have hwrap := Ring.place_wrap (k := 0) hl (by omega)
  rw [Ring.place_zero hl] at hwrap
  have hmoves := nextTxPacketLoop_moves hl queue.numNodes 0 last m₁ e j m₂ (by omega) hwrap hover
    (fun x hx => by cases hx) hloop
  cases e with
  | some e =>
      cases h
      exact hmoves.cursor _ _
  | none =>
      cases h
      exact hmoves.cursor _ _

theorem masterGetNext_moves {burstSize : Nat} (h : masterGetNextTxDataPacket m burstSize = .ok (r, m')) :
    m.Moves m' (m.turn true burstSize) := by
  unfold masterGetNextTxDataPacket at h
  cases hq : m.activeTxNodes with
  | none =>
      rw [hq] at h
      cases h
  | some queue =>
      rw [hq] at h
      have hturn : m.turn true burstSize = (m.looks burstSize queue).find? fun d => m.MaySend d := by
        unfold turn
        rw [if_pos rfl, hq, Option.bind_some]
      rw [hturn]
      unfold looks
      dsimp only at h
      by_cases hz : queue.numNodes = 0
      · rw [if_pos hz] at h ⊢
        cases h
        exact (LooksOver.refl m).moves
      · have hl := m.lastIndex_lt (Nat.pos_of_ne_zero hz)
        rw [if_neg hz] at h ⊢
        split at h
        · rename_i hburst
          rw [if_pos hburst]
          obtain ⟨⟨e, m₁⟩, hget, h⟩ := bind_eq_ok.mp h
          change getNextTxPacketForNode m true (queue.nodeIds (m.lastIndex queue)) = _ at hget
          rcases look hget with ⟨hno, rfl, hover⟩ | ⟨hmay, hsome, rfl⟩
          · rw [List.singleton_append, find?_of_not_maySend hno]
            exact roundTail_moves hl hover h
          · rw [List.singleton_append, find?_of_maySend hmay]
            rw [if_pos hsome] at h
            cases h
            exact (Moves.advance m _).cursor _ _
        · rename_i hburst
          rw [if_neg hburst, List.nil_append]
          exact roundTail_moves hl (.refl m) h

theorem nodeGetNext_moves (h : nodeGetNextTxDataPacket m = .ok (r, m')) (burstSize : Nat) :
    m.Moves m' (m.turn false burstSize) := by
  have hturn : m.turn false burstSize = [masterNodeId].find? fun d => m.MaySend d := rfl
  rw [hturn]
  unfold nodeGetNextTxDataPacket at h
  split at h
  · rename_i hempty
    cases h
    rw [find?_of_not_maySend fun hc => hc.1 (Or.inr hempty), List.find?_nil]
    exact (LooksOver.refl m).moves
  · obtain ⟨⟨e, m₁⟩, hget, hret⟩ := bind_eq_ok.mp h
    rcases look hget with ⟨hno, rfl, hover⟩ | ⟨hmay, hsome, rfl⟩
    · rw [find?_of_not_maySend hno, List.find?_nil]
      cases hret
      exact hover.moves
    · rw [find?_of_maySend hmay]
      obtain ⟨i, rfl⟩ := Option.isSome_iff_exists.mp hsome
      cases hret
      have t := SenderInv.touched_setAckSeqNum (m.advance masterNodeId) i (m.rxSeqNum masterNodeId)
      exact ⟨rfl, rfl, rfl, rfl, t.inUse, rfl, rfl, rfl⟩

end TxManager

end Microbus
