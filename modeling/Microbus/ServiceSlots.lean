import Microbus.SchedulerRun

/-! How long an active node waits for a slot. -/
namespace Microbus

open Transition

/-- How many slots that are not unallocated ones there were since the last slot of `x`, or since the start. -/
def slotsSince (x : TNodeIndex) (history : List SchedulerEvent) : Nat :=
  ((allocatedSlots history).takeWhile (fun slot => slot.node ≠ x)).length

/-- The longest wait of a node with `n` nodes to be serviced. -/
def longestWait (n : Nat) : Nat := maxSlotsBetweenServicing * n + (maxMasterSlotsBetweenAcks - 1)

/-- A node that comes up after `k` others has so much of the longest wait left that the countdown and `k` services fit
in. -/
def InTime (age : TNodeIndex → Nat) (count : Nat) (q : NodeQueue) : Prop :=
  ∀ k < q.numNodes, age (q.upcoming k) + count + maxSlotsBetweenServicing * k ≤ longestWait q.numNodes

namespace InTime

variable {age age' : TNodeIndex → Nat} {count : Nat} {q : NodeQueue}

/-- The next node, which had a slot of late, is passed over, and the countdown starts again. -/
theorem pass (h : InTime age count q) (hlt : q.lastIndex < q.numNodes)
    (hlate : age (q.upcoming 0) ≤ maxMasterSlotsBetweenAcks - 1) :
    InTime age maxSlotsBetweenServicing (q.movedBy 1) := by
  intro k hk
  rw [NodeQueue.numNodes_movedBy] at hk ⊢
  rw [NodeQueue.upcoming_movedBy hlt hk]
  simp only [longestWait, maxSlotsBetweenServicing, maxMasterSlotsBetweenAcks] at *
  by_cases hlast : k + 1 < q.numNodes
  · have hwait := h (k + 1) hlast
    simp only [longestWait, maxSlotsBetweenServicing, maxMasterSlotsBetweenAcks] at hwait
    omega
  · have hround : k + 1 = q.numNodes := by omega
    rw [hround, NodeQueue.upcoming_numNodes hlt]
    omega

theorem turn (h : InTime age (count + 1) q) (hage : ∀ x, age' x ≤ age x + 1) : InTime age' count q := by
  intro k hk
  have hwait := h k hk
  have hone := hage (q.upcoming k)
  omega

theorem serve (h : InTime age count q) (hlt : q.lastIndex < q.numNodes) (hage : ∀ x, age' x ≤ age x + 1)
    (hnext : age' (q.upcoming 0) = 0) : InTime age' (maxSlotsBetweenServicing - 1) (q.movedBy 1) := by
  intro k hk
  rw [NodeQueue.numNodes_movedBy] at hk ⊢
  rw [NodeQueue.upcoming_movedBy hlt hk]
  by_cases hlast : k + 1 < q.numNodes
  · have hwait := h (k + 1) hlast
    have hone := hage (q.upcoming (k + 1))
    simp only [longestWait, maxSlotsBetweenServicing, maxMasterSlotsBetweenAcks] at hwait ⊢
    omega
  · have hround : k + 1 = q.numNodes := by omega
    rw [hround, NodeQueue.upcoming_numNodes hlt, hnext]
    simp only [longestWait, maxSlotsBetweenServicing, maxMasterSlotsBetweenAcks]
    omega

end InTime

/-- Whoever is in the history of the scheduler had one of the last four slots, and all active nodes are in time. -/
structure SchedulerRun.Serves (ids : List TNodeIndex) (s : SchedulerRun) : Prop where
  valid : s.queues.Valid
  active : s.queues.activeNodes.toList = ids
  recent : ∀ i < maxMasterSlotsBetweenAcks, s.scheduler.recentScheduledNodes i ≠ invalidNodeId →
    slotsSince (s.scheduler.recentScheduledNodes i) s.history + i < maxMasterSlotsBetweenAcks
  inTime : InTime (slotsSince · s.history) s.scheduler.countTillNextService s.queues.activeNodes

/-- The rest of the master leaves the active nodes alone and keeps the other queues valid. -/
def SchedulerRun.KeepsActive (s : SchedulerRun) : SchedulerAction → Prop
  | .changeQueues queues => queues.Valid ∧ queues.activeNodes = s.queues.activeNodes
  | _ => True

section Slots

variable {x recorded : TNodeIndex} {slot : Slot} {history : List SchedulerEvent} {i : Nat}

theorem slotsSince_allocation (h : slot.use = .allocation) :
    slotsSince x (.slot slot :: history) = slotsSince x history := by
  rw [slotsSince, allocatedSlots_allocation h, slotsSince]

theorem slotsSince_slot (h : slot.use ≠ .allocation) :
    slotsSince x (.slot slot :: history) = if slot.node = x then 0 else slotsSince x history + 1 := by
  rw [slotsSince, allocatedSlots_slot h, slotsSince]
  by_cases hx : slot.node = x
  · simp [hx]
  · simp [hx]

theorem slotsSince_slot_le (h : slot.use ≠ .allocation) (history : List SchedulerEvent) (x : TNodeIndex) :
    slotsSince x (.slot slot :: history) ≤ slotsSince x history + 1 := by
  rw [slotsSince_slot h]
  split <;> omega

theorem Station.ne_invalid (h : Station x) : x ≠ invalidNodeId := by
  rintro rfl
  exact absurd h.2 (by decide)

end Slots

namespace SchedulerRun.Serves

variable {ids : List TNodeIndex} {s s' : SchedulerRun} {use : SlotUse} {recorded : TNodeIndex} {count : Nat}
  {active : NodeQueue}
  {slot : Slot}

theorem next_eq (hlt : active.lastIndex < active.numNodes) :
    active.nextOrNone = (active.upcoming 0, active.movedBy 1) := by
  unfold NodeQueue.nextOrNone
  rw [if_pos (by omega), NodeQueue.getNext_eq hlt]

theorem late (h : s.Serves ids) {x : TNodeIndex} (hx : x ≠ invalidNodeId)
    (hsent : nodeRecentlySent s.scheduler x = true) :
    slotsSince x s.history ≤ maxMasterSlotsBetweenAcks - 1 := by
  obtain ⟨i, hi, rfl⟩ := List.mem_map.mp (nodeRecentlySent_iff.mp hsent)
  rw [List.mem_range] at hi
  have hrecent := h.recent i (by omega) hx
  omega

/-- When the turns are tried, a node that was due has been passed over. -/
theorem atTurns (h : s.Serves ids) (htaken : ¬ s.scheduler.ServiceTaken s.queues) :
    InTime (slotsSince · s.history) s.scheduler.atTurns.countTillNextService
      (s.scheduler.queuesAtTurns s.queues).activeNodes := by
  unfold SchedulerState.atTurns SchedulerState.queuesAtTurns
  by_cases hdue : s.scheduler.countTillNextService = 0
  · simp only [hdue, if_true]
    by_cases hpos : 0 < s.queues.activeNodes.numNodes
    · have hlt := h.valid.activeNodes.wellFormed.cursor.lt hpos
      have hvalid := (h.valid.activeNodes.stations _ (NodeQueue.upcoming_mem hlt hpos)).ne_invalid
      rw [SchedulerState.ServiceTaken, next_eq hlt] at htaken
      have hsent : nodeRecentlySent s.scheduler (s.queues.activeNodes.upcoming 0) = true := by
        by_contra hfree
        exact htaken ⟨hdue, hvalid, by simpa using hfree⟩
      rw [next_eq hlt]
      exact h.inTime.pass hlt (h.late hvalid hsent)
    · intro k hk
      simp only [NodeQueue.nextOrNone, hpos, if_false] at hk
      omega
  · simp only [hdue, if_false]
    exact h.inTime

theorem inTime_next {age : TNodeIndex → Nat} (hwait : InTime age count active) (hvalid : active.Valid)
    (huse : slot.use ≠ .allocation) (hnode : slot.node = transmitter active.nextOrNone.1)
    (hage : ∀ x, slotsSince x (.slot slot :: s.history) ≤ age x + 1) :
    InTime (slotsSince · (.slot slot :: s.history)) (maxSlotsBetweenServicing - 1) active.nextOrNone.2 := by
  by_cases hpos : 0 < active.numNodes
  · have hlt := hvalid.wellFormed.cursor.lt hpos
    have hnext := (hvalid.stations _ (NodeQueue.upcoming_mem hlt hpos)).ne_invalid
    rw [next_eq hlt] at hnode ⊢
    apply hwait.serve hlt hage
    rw [slotsSince_slot huse, if_pos (hnode.trans (transmitter_of_ne hnext))]
  · intro k hk
    simp only [NodeQueue.nextOrNone, hpos, if_false] at hk
    omega

theorem inTime_slot (h : s.Serves ids) (hends : SlotEnds s.scheduler s.queues use recorded count active)
    (huse : slot.use = use) (hnode : slot.node = transmitter recorded) :
    InTime (slotsSince · (.slot slot :: s.history)) count active := by
  have hne : slot.use ≠ .allocation := huse ▸ hends.ne_allocation
  have hage := fun x => slotsSince_slot_le hne s.history x
  cases hends with
  | due htaken => exact inTime_next h.inTime h.valid.activeNodes hne hnode hage
  | turn turn node htaken hvalid =>
      apply InTime.turn _ hage
      have hcount : s.scheduler.atTurns.countTillNextService - 1 + 1 = s.scheduler.atTurns.countTillNextService := by
        simp only [SchedulerState.atTurns, maxSlotsBetweenServicing]
        split <;> omega
      rw [hcount]
      exact h.atTurns htaken
  | service node htaken hservice =>
      exact inTime_next (h.atTurns htaken) (h.valid.atTurns s.scheduler).activeNodes hne (hservice ▸ hnode) hage

theorem recent_slot (h : s.Serves ids) (huse : slot.use ≠ .allocation) (hnode : slot.node = transmitter recorded)
    {i : Nat} (hi : i < maxMasterSlotsBetweenAcks)
    (hvalid : recordScheduledNode s.scheduler.recentScheduledNodes recorded i ≠ invalidNodeId) :
    slotsSince (recordScheduledNode s.scheduler.recentScheduledNodes recorded i) (.slot slot :: s.history) + i <
      maxMasterSlotsBetweenAcks := by
  rw [recordScheduledNode_apply _ _ hi] at hvalid ⊢
  by_cases hlast : i + 1 < maxMasterSlotsBetweenAcks
  · rw [if_pos hlast] at hvalid ⊢
    have hrecent := h.recent (i + 1) hlast hvalid
    have hage := slotsSince_slot_le huse s.history (s.scheduler.recentScheduledNodes (i + 1))
    omega
  · rw [if_neg hlast] at hvalid ⊢
    rw [slotsSince_slot huse, if_pos (hnode.trans (transmitter_of_ne hvalid)), Nat.zero_add]
    exact hi

theorem completes (h : s.Serves ids) (level : UInt8) :
    ∃ s', s.step (.schedule level) = .ok s' ∧ s'.queues.Valid := by
  obtain ⟨node, scheduler', queues', hnext, hvalid⟩ := h.valid.scheduleNextNode level.toNat s.scheduler
  exact ⟨_, bind_eq_ok.mpr ⟨_, hnext, rfl⟩, hvalid⟩

theorem schedule (h : s.Serves ids) {level : UInt8} (hs : s.step (.schedule level) = .ok s') : s'.Serves ids := by
  obtain ⟨t, ht, hvalid⟩ := h.completes level
  cases hs.symm.trans ht
  obtain ⟨slot, hslot⟩ := SchedulerRun.schedules hs
  have hactive : s'.queues.activeNodes.toList = ids := (scheduleNextNode_ok hslot.call).1.activeNodes.trans h.active
  rcases hslot.ends with ⟨-, huse, hqueues, hscheduler⟩ | ⟨-, recorded, next, count, hends, hnode, hscheduler⟩
  · -- an unallocated slot leaves all waits as they are
    obtain ⟨hcount, hrecent⟩ := scheduleUnallocatedSlot_service s.scheduler
    refine ⟨hvalid, hactive, ?_, ?_⟩
    · simp only [hslot.history, slotsSince_allocation huse, hscheduler, hrecent]
      exact h.recent
    · simp only [hslot.history, slotsSince_allocation huse, hscheduler, hcount, hqueues]
      exact h.inTime
  · refine ⟨hvalid, hactive, ?_, ?_⟩
    · rw [hslot.history, hscheduler]
      exact fun i hi hrecent => h.recent_slot hends.ne_allocation hnode hi hrecent
    · rw [hslot.history, hscheduler]
      exact h.inTime_slot hends rfl hnode

theorem step (h : s.Serves ids) {a : SchedulerAction} (hkeeps : s.KeepsActive a) (hs : s.step a = .ok s') :
    s'.Serves ids := by
  cases a with
  | schedule level => exact h.schedule hs
  | newNodeHeard =>
      cases hs
      exact ⟨h.valid, h.active, h.recent, h.inTime⟩
  | changeQueues queues =>
      cases hs
      obtain ⟨hvalid, hactive⟩ := hkeeps
      refine ⟨hvalid, hactive ▸ h.active, h.recent, ?_⟩
      have hin := h.inTime
      rwa [← hactive] at hin

end SchedulerRun.Serves

/-- No active node is starved, and no call of `scheduleNextNode` fails. -/
theorem active_nodes_are_served {numTx maxGap : UInt8} {ids : List TNodeIndex} {s : SchedulerRun}
    (h : (schedulerSystem numTx maxGap fun queues => queues.Valid ∧ queues.activeNodes.toList = ids).ReachableWhen
      SchedulerRun.KeepsActive s) :
    (∀ x ∈ ids, slotsSince x s.history ≤ 6 * ids.length + 4) ∧
      ∀ level, ∃ s', s.step (.schedule level) = .ok s' := by
  have hserves : s.Serves ids := by
    refine System.ReachableWhen.invariant (P := SchedulerRun.Serves ids) h ?_ ?_
    · rintro ⟨scheduler, queues, history⟩ ⟨rfl, ⟨hvalid, hactive⟩, rfl⟩
      refine ⟨hvalid, hactive, ?_, ?_⟩
      · intro i hi _
        exact (Nat.zero_add i).symm ▸ hi
      · intro k hk
        change 0 + 0 + maxSlotsBetweenServicing * k ≤ longestWait queues.activeNodes.numNodes
        simp only [longestWait, maxSlotsBetweenServicing] at hk ⊢
        omega
    · intro s a s' h hkeeps hs
      exact h.step hkeeps hs
  constructor
  · intro x hx
    have hpos : 0 < s.queues.activeNodes.numNodes := by
      rw [numNodes_eq_length, hserves.active]
      exact List.length_pos_of_mem hx
    have hlt := hserves.valid.activeNodes.wellFormed.cursor.lt hpos
    rw [← hserves.active] at hx ⊢
    obtain ⟨k, hk, rfl⟩ := NodeQueue.exists_upcoming hlt hx
    have hwait := hserves.inTime k hk
    simp only [longestWait, maxSlotsBetweenServicing, maxMasterSlotsBetweenAcks] at hwait
    rw [NodeQueue.length_toList]
    omega
  · intro level
    obtain ⟨s', hs', -⟩ := hserves.completes level
    exact ⟨s', hs'⟩

def pairQueue (d e : TNodeIndex) : NodeQueue := ⟨fun i => if i = 0 then d else e, 2, 0⟩

theorem pairQueue_valid {d e : TNodeIndex} (hd : Station d) (he : Station e) (hne : d ≠ e) :
    (pairQueue d e).Valid := by
  have hlist : (pairQueue d e).toList = [d, e] := rfl
  refine ⟨⟨?_, Or.inl Nat.zero_lt_two⟩, ?_⟩
  · simpa [hlist] using hne
  · simp [hlist, hd, he]

/-- Nodes 1 and 2 are active, master packets wait for both and both have data. -/
def pairQueues : SchedulerQueues := ⟨pairQueue 1 2, some (pairQueue 1 2), pairQueue 2 1⟩

theorem pairQueues_valid : pairQueues.Valid := by
  have hone : Station 1 := ⟨by decide, by decide⟩
  have htwo : Station 2 := ⟨by decide, by decide⟩
  refine ⟨pairQueue_valid hone htwo (by decide), ?_, pairQueue_valid htwo hone (by decide)⟩
  rintro queue ⟨⟩
  exact pairQueue_valid hone htwo (by decide)

/-- The runs in which nothing but slots happens. -/
def SchedulerAction.IsSchedule (a : SchedulerAction) : Prop := a matches .schedule _

instance (a : SchedulerAction) : Decidable a.IsSchedule := by
  unfold SchedulerAction.IsSchedule
  infer_instance

/-- Twelve slots of two busy nodes. -/
theorem active_nodes_are_served_two : ∃ s : SchedulerRun,
    (allocatedSlots s.history).map Slot.node = [1, 2, 1, 2, 2, 1, 1] ∧
    (∀ x ∈ [1, 2], slotsSince x s.history ≤ 16) ∧ ∃ s', s.step (.schedule 0) = .ok s' := by
  obtain ⟨s, hs, hnodes⟩ := System.exists_of_decidedRun
    (S := schedulerSystem 1 80 fun queues => queues.Valid ∧ queues.activeNodes.toList = [1, 2])
    (s := ⟨schedulerInit 1 80, pairQueues, []⟩) (fun _ a => a.IsSchedule)
    (p := fun s => (allocatedSlots s.history).map Slot.node == [1, 2, 1, 2, 2, 1, 1])
    (List.replicate 12 (.schedule 0)) (.init ⟨rfl, ⟨pairQueues_valid, rfl⟩, rfl⟩) (by decide +kernel)
  have hkeeps : ∀ (s : SchedulerRun) (a : SchedulerAction), a.IsSchedule → s.KeepsActive a := by
    intro s a ha
    cases a with
    | schedule level => exact trivial
    | newNodeHeard => exact trivial
    | changeQueues queues => cases ha
  obtain ⟨hserved, hcompletes⟩ := active_nodes_are_served (hs.mono hkeeps)
  exact ⟨s, beq_iff_eq.mp hnodes, hserved, hcompletes 0⟩

end Microbus
