import Microbus.NodeQueue
import Microbus.Turn

/-! The search for the node that the next acknowledgement is for. -/
namespace Microbus

open Transition

namespace NodeQueue

/-- The entry that the cursor comes to after `k` others. -/
def upcoming (q : NodeQueue) (k : Nat) : TNodeIndex := q.nodeIds (Ring.place q.numNodes q.lastIndex k)

/-- The cursor has moved on by `k` entries. -/
def movedBy (q : NodeQueue) (k : Nat) : NodeQueue := { q with lastIndex := Ring.place q.numNodes q.lastIndex k }

variable {q : NodeQueue} {d : TNodeIndex} {i j k : Nat}

@[simp] theorem numNodes_movedBy (q : NodeQueue) (k : Nat) : (q.movedBy k).numNodes = q.numNodes := rfl

theorem CursorOk.lt (h : q.CursorOk) (hpos : 0 < q.numNodes) : q.lastIndex < q.numNodes := by
  rcases h with h | h
  · exact h
  · simpa [h] using hpos

theorem movedBy_zero (hlt : q.lastIndex < q.numNodes) : q.movedBy 0 = q := by
  simp [movedBy, Ring.place_zero hlt]

theorem movedBy_numNodes (q : NodeQueue) : q.movedBy q.numNodes = q := by
  have hback : Ring.place q.numNodes q.lastIndex q.numNodes = q.lastIndex := by
    unfold Ring.place
    rw [if_pos (by omega)]
    omega
  simp [movedBy, hback]

theorem lastIndex_movedBy_lt (hlt : q.lastIndex < q.numNodes) (hk : k ≤ q.numNodes) :
    (q.movedBy k).lastIndex < (q.movedBy k).numNodes :=
  Ring.place_lt hlt hk

theorem getNext_eq (hlt : q.lastIndex < q.numNodes) : getNextNodeInQueue q = (q.upcoming 0, q.movedBy 1) := by
  have hnext : (if q.lastIndex + 1 ≥ q.numNodes then 0 else q.lastIndex + 1) =
    Ring.place q.numNodes q.lastIndex 1 := by
    unfold Ring.place
    split <;> omega
  simp [getNextNodeInQueue, upcoming, movedBy, Ring.place_zero hlt, hnext]

theorem movedBy_movedBy_one (hlt : q.lastIndex < q.numNodes) (hk : k < q.numNodes) :
    (q.movedBy k).movedBy 1 = q.movedBy (k + 1) := by
  simp [movedBy, Ring.place_succ hlt hk]

theorem upcoming_movedBy (hlt : q.lastIndex < q.numNodes) (hk : k < q.numNodes) :
    (q.movedBy 1).upcoming k = q.upcoming (k + 1) := by
  simp [upcoming, movedBy, Ring.place_next hlt hk]

theorem upcoming_movedBy_zero (hlt : q.lastIndex < q.numNodes) (hk : k < q.numNodes) :
    (q.movedBy k).upcoming 0 = q.upcoming k := by
  simp [upcoming, movedBy, Ring.place_zero (Ring.place_lt hlt (Nat.le_of_lt hk))]

theorem upcoming_numNodes (hlt : q.lastIndex < q.numNodes) : q.upcoming q.numNodes = q.upcoming 0 := by
  have hback : (q.movedBy q.numNodes).lastIndex = q.lastIndex := congrArg lastIndex (movedBy_numNodes q)
  simp only [upcoming, Ring.place_zero hlt]
  exact congrArg q.nodeIds hback

theorem upcoming_mem (hlt : q.lastIndex < q.numNodes) (hk : k < q.numNodes) : q.upcoming k ∈ q.toList :=
  nodeIds_mem (Ring.place_lt hlt (Nat.le_of_lt hk))

theorem exists_upcoming (hlt : q.lastIndex < q.numNodes) (hd : d ∈ q.toList) :
    ∃ k < q.numNodes, q.upcoming k = d := by
  obtain ⟨i, hi, rfl⟩ := mem_toList.mp hd
  by_cases hle : q.lastIndex ≤ i
  · refine ⟨i - q.lastIndex, by omega, congrArg q.nodeIds ?_⟩
    unfold Ring.place
    split <;> omega
  · refine ⟨q.numNodes + i - q.lastIndex, by omega, congrArg q.nodeIds ?_⟩
    unfold Ring.place
    split <;> omega

theorem upcoming_inj (hnodup : q.toList.Nodup) (hlt : q.lastIndex < q.numNodes) (hj : j < q.numNodes)
    (hk : k < q.numNodes) (h : q.upcoming j = q.upcoming k) : j = k := by
  apply Ring.place_inj hj hk
  exact nodeIds_inj hnodup (Ring.place_lt hlt (Nat.le_of_lt hj)) (Ring.place_lt hlt (Nat.le_of_lt hk)) h

theorem nodup_upcoming (hnodup : q.toList.Nodup) (hlt : q.lastIndex < q.numNodes) (hk : k ≤ q.numNodes) :
    ((List.range k).map q.upcoming).Nodup := by
  apply List.Nodup.map_on _ List.nodup_range
  intro i hi j hj h
  rw [List.mem_range] at hi hj
  exact upcoming_inj hnodup hlt (by omega) (by omega) h

end NodeQueue

/-- The part of the history that `nodeRecentlySent` looks at. -/
def SchedulerState.searched (scheduler : SchedulerState) : List TNodeIndex :=
  (List.range (maxMasterSlotsBetweenAcks - 1)).map scheduler.recentScheduledNodes

section Search

variable {scheduler : SchedulerState} {queue : NodeQueue} {d : TNodeIndex} {i k fuel : Nat}

theorem nodeRecentlySent_iff : nodeRecentlySent scheduler d = true ↔ d ∈ scheduler.searched := by
  unfold nodeRecentlySent SchedulerState.searched
  simp only [List.any_eq_true, beq_iff_eq, List.mem_map]
  exact exists_congr fun i => and_congr_right fun _ => eq_comm

/-- The first `k` entries from the cursor on are all rejected. -/
def SchedulerState.RejectsFirst (scheduler : SchedulerState) (queue : NodeQueue) (k : Nat) : Prop :=
  ∀ j < k, nodeRecentlySent scheduler (queue.upcoming j) = true

theorem SchedulerState.RejectsFirst.succ (h : scheduler.RejectsFirst queue k)
    (hk : nodeRecentlySent scheduler (queue.upcoming k) = true) : scheduler.RejectsFirst queue (k + 1) := by
  intro j hj
  by_cases hjk : j = k
  · exact hjk ▸ hk
  · exact h j (by omega)

theorem SchedulerState.RejectsFirst.le (h : scheduler.RejectsFirst queue k) (hnodup : queue.toList.Nodup)
    (hlt : queue.lastIndex < queue.numNodes) (hk : k ≤ queue.numNodes) : k ≤ maxMasterSlotsBetweenAcks - 1 := by
  have hsub : (List.range k).map queue.upcoming ⊆ scheduler.searched := by
    intro d hd
    obtain ⟨j, hj, rfl⟩ := List.mem_map.mp hd
    exact nodeRecentlySent_iff.mp (h j (List.mem_range.mp hj))
  have hlen := List.Nodup.length_le_of_subset (NodeQueue.nodup_upcoming hnodup hlt hk) hsub
  simpa [SchedulerState.searched] using hlen

/-- What a search ends with: the first entry that is not rejected, with the cursor behind it, or nothing after a whole
round. -/
inductive SchedulerState.Finds (scheduler : SchedulerState) (queue : NodeQueue) : TNodeIndex → NodeQueue → Prop
  | nothing : (∀ d ∈ queue.toList, nodeRecentlySent scheduler d = true) →
      Finds scheduler queue invalidNodeId queue
  | entry (k : Nat) : k < queue.numNodes → scheduler.RejectsFirst queue k →
      nodeRecentlySent scheduler (queue.upcoming k) = false →
      Finds scheduler queue (queue.upcoming k) (queue.movedBy (k + 1))

/-- The loop, entered after `k` entries that were rejected. -/
theorem masterRxAckLoop_finds (hnodup : queue.toList.Nodup) (hlt : queue.lastIndex < queue.numNodes)
    (hfuel : k + fuel = queue.numNodes) (h : scheduler.RejectsFirst queue k) :
    ∃ node queue', masterRxAckLoop scheduler fuel k (queue.movedBy k) = .ok (node, queue') ∧
      scheduler.Finds queue node queue' := by
  induction fuel generalizing k with
  | zero =>
      have hall : k = queue.numNodes := by omega
      refine ⟨invalidNodeId, queue.movedBy k, rfl, ?_⟩
      rw [hall, NodeQueue.movedBy_numNodes]
      apply SchedulerState.Finds.nothing
      intro d hd
      obtain ⟨j, hj, rfl⟩ := NodeQueue.exists_upcoming hlt hd
      exact h j (by omega)
  | succ fuel ih =>
      have hk : k < queue.numNodes := by omega
      have hpick : getNextNodeInQueue (queue.movedBy k) = (queue.upcoming k, queue.movedBy (k + 1)) := by
        rw [NodeQueue.getNext_eq (NodeQueue.lastIndex_movedBy_lt hlt (Nat.le_of_lt hk)),
          NodeQueue.upcoming_movedBy_zero hlt hk, NodeQueue.movedBy_movedBy_one hlt hk]
      by_cases hsent : nodeRecentlySent scheduler (queue.upcoming k) = true
      · have hnext := h.succ hsent
        -- with entry `k` at most three are rejected, so the assertion holds
        have hfew : k < maxMasterSlotsBetweenAcks := by
          have := hnext.le hnodup hlt (by omega)
          simp only [maxMasterSlotsBetweenAcks] at this ⊢
          omega
        obtain ⟨node, queue', hloop, hfinds⟩ := ih (by omega) hnext
        refine ⟨node, queue', ?_, hfinds⟩
        rw [← hloop]
        simp only [masterRxAckLoop, hpick, hsent, Bool.not_true, Bool.false_eq_true, if_false, microbusAssert, hfew,
          if_true]
        rfl
      · have hfree : nodeRecentlySent scheduler (queue.upcoming k) = false := by simpa using hsent
        refine ⟨_, _, ?_, .entry k hk h hfree⟩
        simp [masterRxAckLoop, hpick, hfree]
        rfl

/-- A duplicate-free queue is searched to its end. -/
theorem getNextMasterRxAckNode_finds (scheduler : SchedulerState) (h : queue.WellFormed) :
    ∃ node queue', getNextMasterRxAckNode scheduler (some queue) = .ok (node, some queue') ∧
      scheduler.Finds queue node queue' := by
  by_cases hpos : 0 < queue.numNodes
  · have hlt := h.cursor.lt hpos
    have hstart : scheduler.RejectsFirst queue 0 := by
      intro j hj
      omega
    obtain ⟨node, queue', hloop, hfinds⟩ := masterRxAckLoop_finds h.nodup hlt (Nat.zero_add _) hstart
    rw [NodeQueue.movedBy_zero hlt] at hloop
    exact ⟨node, queue', bind_eq_ok.mpr ⟨_, hloop, rfl⟩, hfinds⟩
  · have hempty : queue.numNodes = 0 := by omega
    refine ⟨invalidNodeId, queue, ?_, .nothing ?_⟩
    · simp only [getNextMasterRxAckNode, hempty, masterRxAckLoop]
      rfl
    · simp [NodeQueue.toList, hempty]

end Search

/-- The search of a duplicate-free queue comes to its end, and it fails only if all members were recently sent. -/
theorem ack_search_is_complete (scheduler : SchedulerState) {queue : NodeQueue} (h : queue.WellFormed) :
    ∃ node queue', getNextMasterRxAckNode scheduler (some queue) = .ok (node, some queue') ∧
      scheduler.Finds queue node queue' ∧
      (invalidNodeId ∉ queue.toList →
        (node = invalidNodeId ↔ ∀ d ∈ queue.toList, nodeRecentlySent scheduler d = true)) := by
  obtain ⟨node, queue', hsearch, hfinds⟩ := getNextMasterRxAckNode_finds scheduler h
  refine ⟨node, queue', hsearch, hfinds, fun hvalid => ?_⟩
  cases hfinds with
  | nothing hall => exact iff_of_true rfl hall
  | entry k hk hfirst hfree =>
      have hmem := NodeQueue.upcoming_mem (h.cursor.lt (Nat.zero_lt_of_lt hk)) hk
      apply iff_of_false
      · intro hinvalid
        exact hvalid (hinvalid ▸ hmem)
      · intro hall
        rw [hall _ hmem] at hfree
        cases hfree

def fourNodes : NodeQueue := ⟨fun i => if i = 3 then 9 else i.toUInt8 + 1, 4, 3⟩

/-- Nodes 9 and 1 were recently sent, and 2 is found. -/
theorem ack_search_is_complete_four : ∃ node queue',
    getNextMasterRxAckNode { schedulerInit 1 80 with recentScheduledNodes := fun i => if i = 0 then 9 else 1 }
      (some fourNodes) = .ok (node, some queue') ∧ node = 2 ∧ queue'.lastIndex = 2 := by
  have hwf : fourNodes.WellFormed := ⟨by decide, Or.inl (by decide)⟩
  obtain ⟨node, queue', hsearch, hfinds, -⟩ := ack_search_is_complete
    { schedulerInit 1 80 with recentScheduledNodes := fun i => if i = 0 then 9 else 1 } hwf
  refine ⟨node, queue', hsearch, ?_⟩
  cases hfinds with
  | nothing hall => exact absurd (hall 2 (by decide)) (by decide)
  | entry k hk hfirst hfree =>
      have hlt : k < 3 := by
        by_contra hge
        exact absurd (hfirst 2 (by omega)) (by decide)
      have hcases : k = 0 ∨ k = 1 ∨ k = 2 := by omega
      rcases hcases with rfl | rfl | rfl
      · exact absurd hfree (by decide)
      · exact absurd hfree (by decide)
      · exact ⟨rfl, rfl⟩

end Microbus
