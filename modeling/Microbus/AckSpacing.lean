import Microbus.ServiceSlots

/-! How far apart the slots of a node are that the acknowledgement turn selects. -/
namespace Microbus

open Transition

/-- The slot was scheduled for node `d`. -/
def Slot.IsFor (slot : Slot) (d : TNodeIndex) : Prop := slot.use ≠ .nothing ∧ slot.node = d

instance (slot : Slot) (d : TNodeIndex) : Decidable (slot.IsFor d) := by
  unfold Slot.IsFor
  infer_instance

/-- Whenever the acknowledgement turn selects a node, none of the three slots before it was for that node. -/
def AckSpaced : List SchedulerEvent → Prop
  | [] => True
  | .slot slot :: earlier =>
      (slot.use = .turn .masterRxAck →
        ∀ p ∈ (allocatedSlots earlier).take (maxMasterSlotsBetweenAcks - 1), ¬ p.IsFor slot.node) ∧
          AckSpaced earlier
  | .newNodeHeard :: earlier => AckSpaced earlier

/-- The ids that the next calls of `getNextNodeInQueue` return. -/
def NodeQueue.picks : Nat → NodeQueue → List TNodeIndex
  | 0, _ => []
  | n + 1, q => (getNextNodeInQueue q).1 :: picks n (getNextNodeInQueue q).2

/-- The first id in a round of `activeTxNodes` that was not recently sent. -/
def SchedulerState.ackCandidate (scheduler : SchedulerState) (activeTxNodes : Option NodeQueue) : Option TNodeIndex :=
  activeTxNodes.bind fun q => (q.picks q.numNodes).find? fun d => !nodeRecentlySent scheduler d

/-- Of the turns that are tried first none has a candidate. -/
def SchedulerState.ReachesAck (scheduler : SchedulerState) (queues : SchedulerQueues) (level : Nat) : Prop :=
  match scheduler.nextTurn with
  | .masterTx => ¬ scheduler.MasterReady level
  | .masterRxAck => True
  | .nodeTx => queues.nodeTxNodes.nextOrNone.1 = invalidNodeId ∧ ¬ scheduler.MasterReady level

/-- The call tries the acknowledgement turn. -/
def SchedulerState.TriesAck (scheduler : SchedulerState) (queues : SchedulerQueues) (level : Nat) : Prop :=
  scheduler.countTillNextAllocation ≠ 0 ∧ ¬ scheduler.ServiceTaken queues ∧ scheduler.ReachesAck queues level

/-- If the acknowledgement turn is tried, the node that it finds did not have the slot just before. -/
def SchedulerRun.KeepsSpacing (s : SchedulerRun) : SchedulerAction → Prop
  | .schedule level => s.scheduler.TriesAck s.queues level.toNat →
      ∀ d ∈ s.scheduler.ackCandidate s.queues.activeTxNodes, d ≠ invalidNodeId →
        d ≠ s.scheduler.recentScheduledNodes (maxMasterSlotsBetweenAcks - 1)
  | _ => True

instance (scheduler : SchedulerState) (queues : SchedulerQueues) (level : Nat) :
    Decidable (scheduler.TriesAck queues level) := by
  unfold SchedulerState.TriesAck SchedulerState.ReachesAck
  cases scheduler.nextTurn <;> infer_instance

instance (s : SchedulerRun) : (a : SchedulerAction) → Decidable (s.KeepsSpacing a)
  | .schedule level => inferInstanceAs (Decidable (s.scheduler.TriesAck s.queues level.toNat →
      ∀ d ∈ s.scheduler.ackCandidate s.queues.activeTxNodes, d ≠ invalidNodeId →
        d ≠ s.scheduler.recentScheduledNodes (maxMasterSlotsBetweenAcks - 1)))
  | .newNodeHeard => inferInstanceAs (Decidable True)
  | .changeQueues _ => inferInstanceAs (Decidable True)

section Turn

variable {scheduler scheduler' : SchedulerState} {queues queues' : SchedulerQueues} {level fuel i : Nat}
  {node d : TNodeIndex} {queue queue' : NodeQueue}

theorem masterRxAckLoop_first (h : masterRxAckLoop scheduler fuel i queue = .ok (node, queue')) :
    node = ((queue.picks fuel).find? fun d => !nodeRecentlySent scheduler d).getD invalidNodeId := by
  induction fuel generalizing i queue with
  | zero =>
      cases h
      rfl
  | succ fuel ih =>
      unfold masterRxAckLoop at h
      rw [NodeQueue.picks, List.find?_cons]
      cases hsent : nodeRecentlySent scheduler (getNextNodeInQueue queue).1 with
      | false =>
          simp only [hsent] at h ⊢
          cases h
          rfl
      | true =>
          simp only [hsent] at h ⊢
          obtain ⟨_, -, h⟩ := bind_eq_ok.mp h
          exact ih h

theorem getNextMasterRxAckNode_first {activeTxNodes activeTxNodes' : Option NodeQueue}
    (h : getNextMasterRxAckNode scheduler activeTxNodes = .ok (node, activeTxNodes')) :
    node = (scheduler.ackCandidate activeTxNodes).getD invalidNodeId := by
  cases activeTxNodes with
  | none =>
      cases h
      rfl
  | some queue =>
      obtain ⟨⟨node', queue'⟩, hloop, h⟩ := bind_eq_ok.mp h
      cases h
      exact masterRxAckLoop_first hloop

theorem candidate_iff {candidate : Option TNodeIndex} (h : node = candidate.getD invalidNodeId) :
    node ≠ invalidNodeId ∧ node = d ↔ candidate = some d ∧ d ≠ invalidNodeId := by
  cases candidate with
  | none => simp [h]
  | some e =>
      rw [Option.getD_some] at h
      subst h
      simp only [Option.some.injEq]
      constructor
      · rintro ⟨hne, rfl⟩
        exact ⟨rfl, hne⟩
      · rintro ⟨rfl, hne⟩
        exact ⟨hne, rfl⟩

theorem turnUse_turn {turn : SchedulerTurn} (h : turnUse level fuel scheduler queues = .turn turn) :
    ∃ j < fuel, turn = SchedulerTurn.succ^[j] scheduler.nextTurn := by
  induction fuel generalizing scheduler queues with
  | zero =>
      simp only [turnUse, serviceUse] at h
      split at h <;> cases h
  | succ fuel ih =>
      unfold turnUse at h
      split at h
      · cases h
      · split at h
        · cases h
          exact ⟨0, Nat.zero_lt_succ fuel, rfl⟩
        · obtain ⟨j, hj, hturn⟩ := ih h
          exact ⟨j + 1, Nat.succ_lt_succ hj, hturn⟩

/-- After the acknowledgement turn its turn does not come again in the same call. -/
theorem turnUse_ne_ack (hturn : scheduler.nextTurn = .nodeTx) (hfuel : fuel ≤ 2) :
    turnUse level fuel scheduler queues ≠ .turn .masterRxAck := by
  intro h
  obtain ⟨j, hj, hack⟩ := turnUse_turn h
  rw [hturn] at hack
  have hcases : j = 0 ∨ j = 1 := by omega
  rcases hcases with rfl | rfl
  · cases hack
  · cases hack

theorem ackTurn_first (hturn : scheduler.nextTurn = .masterRxAck) (hfuel : fuel ≤ 2)
    (h : turnLoop level (fuel + 1) scheduler queues = .ok (node, scheduler', queues')) :
    turnUse level (fuel + 1) scheduler queues = .turn .masterRxAck ∧ node = d ↔
      scheduler.ackCandidate queues.activeTxNodes = some d ∧ d ≠ invalidNodeId := by
  rw [turnLoop_succ] at h
  obtain ⟨⟨candidate, queues₁⟩, hcandidate, h⟩ := bind_eq_ok.mp h
  have hfirst : candidate = (scheduler.ackCandidate queues.activeTxNodes).getD invalidNodeId := by
    unfold turnCandidate at hcandidate
    simp only [hturn] at hcandidate
    obtain ⟨r, hsearch, hcandidate⟩ := bind_eq_ok.mp hcandidate
    cases hcandidate
    exact getNextMasterRxAckNode_first hsearch
  rw [← candidate_iff hfirst, turnUse, hcandidate]
  dsimp only at h ⊢
  by_cases hnode : candidate ≠ invalidNodeId
  · rw [if_pos hnode] at h ⊢
    cases h
    simp [hturn, hnode]
  · rw [if_neg hnode] at h ⊢
    apply iff_of_false
    · rintro ⟨hack, -⟩
      exact turnUse_ne_ack (by simp [hturn, SchedulerTurn.succ]) hfuel hack
    · exact fun hc => hnode hc.1

theorem turnLoop_skip {queues₁ : SchedulerQueues} (fuel : Nat)
    (hcandidate : turnCandidate level scheduler queues = .ok (invalidNodeId, queues₁)) :
    turnLoop level (fuel + 1) scheduler queues = turnLoop level fuel
      { scheduler with nextTurn := scheduler.nextTurn.succ } queues₁ ∧
      turnUse level (fuel + 1) scheduler queues =
        turnUse level fuel { scheduler with nextTurn := scheduler.nextTurn.succ } queues₁ := by
  constructor
  · rw [turnLoop_succ, hcandidate]
    rfl
  · rw [turnUse, hcandidate]
    rfl

theorem turnUse_take {queues₁ : SchedulerQueues}
    (hcandidate : turnCandidate level scheduler queues = .ok (node, queues₁))
    (hnode : node ≠ invalidNodeId) : turnUse level (fuel + 1) scheduler queues = .turn scheduler.nextTurn := by
  rw [turnUse, hcandidate]
  simp [hnode]

theorem ackTurn_second (hturn : scheduler.nextTurn = .masterTx) (hfuel : fuel ≤ 2)
    (h : turnLoop level (fuel + 2) scheduler queues = .ok (node, scheduler', queues')) :
    turnUse level (fuel + 2) scheduler queues = .turn .masterRxAck ∧ node = d ↔
      ¬ scheduler.MasterReady level ∧ scheduler.ackCandidate queues.activeTxNodes = some d ∧
        d ≠ invalidNodeId := by
  have hcandidate : turnCandidate level scheduler queues =
      .ok (if scheduler.MasterReady level then masterNodeId else invalidNodeId, queues) := by
    simp only [turnCandidate, hturn]
  by_cases hready : scheduler.MasterReady level
  · rw [if_pos hready] at hcandidate
    rw [turnUse_take hcandidate (by decide), hturn]
    simp [hready]
  · rw [if_neg hready] at hcandidate
    obtain ⟨hloop, huse⟩ := turnLoop_skip (fuel + 1) hcandidate
    rw [hloop] at h
    rw [huse, ackTurn_first (by simp [hturn, SchedulerTurn.succ]) hfuel h]
    simp only [hready, not_false_iff, true_and]
    rfl

theorem ackTurn_iff (h : turnLoop level maxTurn scheduler queues = .ok (node, scheduler', queues')) :
    turnUse level maxTurn scheduler queues = .turn .masterRxAck ∧ node = d ↔
      scheduler.ReachesAck queues level ∧ scheduler.ackCandidate queues.activeTxNodes = some d ∧
        d ≠ invalidNodeId := by
  unfold SchedulerState.ReachesAck
  cases hturn : scheduler.nextTurn with
  | masterRxAck =>
      rw [true_and]
      exact ackTurn_first hturn (Nat.le_refl 2) h
  | masterTx => exact ackTurn_second hturn (Nat.le_succ 1) h
  | nodeTx =>
      have hcandidate : turnCandidate level scheduler queues =
          .ok (queues.nodeTxNodes.nextOrNone.1, { queues with nodeTxNodes := queues.nodeTxNodes.nextOrNone.2 }) := by
        simp only [turnCandidate, hturn]
      by_cases hnone : queues.nodeTxNodes.nextOrNone.1 = invalidNodeId
      · rw [hnone] at hcandidate
        obtain ⟨hloop, huse⟩ := turnLoop_skip 2 hcandidate
        change turnLoop level 3 scheduler queues = _ at h
        rw [hloop] at h
        change turnUse level 3 scheduler queues = _ ∧ _ ↔ _
        rw [huse, ackTurn_second (by simp [hturn, SchedulerTurn.succ]) (Nat.zero_le 2) h]
        simp only [hnone, true_and]
        rfl
      · change turnUse level 3 scheduler queues = _ ∧ _ ↔ _
        rw [turnUse_take hcandidate hnone, hturn]
        simp [hnone]

theorem scheduleNextNode_ack (h : scheduleNextNode scheduler queues level = .ok (node, scheduler', queues')) :
    slotUse scheduler queues level = .turn .masterRxAck ∧ node = d ↔
      scheduler.TriesAck queues level ∧ scheduler.ackCandidate queues.activeTxNodes = some d ∧
        d ≠ invalidNodeId := by
  unfold slotUse SchedulerState.TriesAck
  unfold scheduleNextNode at h
  by_cases halloc : scheduler.countTillNextAllocation = 0
  · simp [halloc]
  · rw [if_neg halloc] at h ⊢
    obtain ⟨⟨recorded, scheduler₁, queues₁⟩, hnext, h⟩ := bind_eq_ok.mp h
    obtain ⟨_, -, h⟩ := bind_eq_ok.mp h
    obtain ⟨_, -, h⟩ := bind_eq_ok.mp h
    cases h
    rw [scheduleNextAllocatedNode_eq] at hnext
    by_cases htaken : scheduler.ServiceTaken queues
    · simp [htaken]
    · rw [if_neg htaken] at hnext ⊢
      obtain ⟨htx, hnodeTx⟩ := scheduler.queuesAtTurns_tx queues
      have hreaches : scheduler.atTurns.ReachesAck (scheduler.queuesAtTurns queues) level ↔
          scheduler.ReachesAck queues level := by
        unfold SchedulerState.ReachesAck
        rw [hnodeTx]
        rfl
      have hack : ∀ d, turnUse level maxTurn scheduler.atTurns (scheduler.queuesAtTurns queues) =
        .turn .masterRxAck ∧
          recorded = d ↔
          scheduler.ReachesAck queues level ∧ scheduler.ackCandidate queues.activeTxNodes = some d ∧
            d ≠ invalidNodeId := by
        intro d
        rw [ackTurn_iff hnext, hreaches, htx]
        rfl
      simp only [halloc, htaken, not_false_iff, ne_eq, true_and, ← hack]
      constructor
      · rintro ⟨huse, hnode⟩
        have hvalid := ((hack recorded).mp ⟨huse, rfl⟩).2.2
        exact ⟨huse, (transmitter_of_ne hvalid).symm.trans hnode⟩
      · rintro ⟨huse, hnode⟩
        have hvalid := ((hack recorded).mp ⟨huse, rfl⟩).2.2
        exact ⟨huse, (transmitter_of_ne hvalid).trans hnode⟩

end Turn

/-- What is recorded for a slot. -/
def Slot.recorded (slot : Slot) : TNodeIndex := if slot.use = .nothing then invalidNodeId else slot.node

/-- The ids that were recorded for the slots so far, the last one first. -/
def recordedNodes (history : List SchedulerEvent) : List TNodeIndex := (allocatedSlots history).map Slot.recorded

/-- The scheduler remembers the last four slots. -/
def SchedulerRun.Remembers (s : SchedulerRun) : Prop :=
  ∀ i < maxMasterSlotsBetweenAcks, s.scheduler.recentScheduledNodes i =
    ((recordedNodes s.history)[maxMasterSlotsBetweenAcks - 1 - i]?).getD 0

section History

variable {s s' : SchedulerRun} {slot : Slot} {d : TNodeIndex}

theorem Slot.isFor_iff (hd : d ≠ invalidNodeId) : slot.IsFor d ↔ slot.recorded = d := by
  unfold Slot.IsFor Slot.recorded
  by_cases huse : slot.use = .nothing
  · simp [huse, hd.symm]
  · simp [huse]

/-- Of four entries of which the last three are not `d`, the first one decides. -/
theorem mem_take_three {l : List TNodeIndex} (hone : d ≠ l[1]?.getD 0) (htwo : d ≠ l[2]?.getD 0) :
    d ∈ l.take 3 ↔ d = l[0]?.getD 0 := by
  match l with
  | [] => simpa using hone
  | [x] => simp
  | [x, y] =>
      have hone : d ≠ y := hone
      simp [hone]
  | x :: y :: z :: rest =>
      have hone : d ≠ y := hone
      have htwo : d ≠ z := htwo
      simp [hone, htwo]

/-- Whether one of the three slots before was for `d`, who was not found to be recently sent. -/
theorem SchedulerRun.Remembers.exists_isFor (h : s.Remembers) (hd : d ≠ invalidNodeId)
    (hsent : nodeRecentlySent s.scheduler d = false) :
    (∃ p ∈ (allocatedSlots s.history).take (maxMasterSlotsBetweenAcks - 1), p.IsFor d) ↔
      d = s.scheduler.recentScheduledNodes (maxMasterSlotsBetweenAcks - 1) := by
  have hother : ∀ i < maxMasterSlotsBetweenAcks - 1, d ≠ s.scheduler.recentScheduledNodes i := by
    rintro i hi rfl
    have hin := nodeRecentlySent_iff.mpr
      (List.mem_map.mpr ⟨i, List.mem_range.mpr hi, rfl⟩ : _ ∈ s.scheduler.searched)
    rw [hin] at hsent
    cases hsent
  have hone := hother 2 (by decide)
  have htwo := hother 1 (by decide)
  rw [h 2 (by decide)] at hone
  rw [h 1 (by decide)] at htwo
  have hfirst : s.scheduler.recentScheduledNodes (maxMasterSlotsBetweenAcks - 1) =
    ((recordedNodes s.history)[0]?).getD 0 :=
    h _ (by decide)
  rw [hfirst, ← mem_take_three hone htwo, recordedNodes, ← List.map_take, List.mem_map]
  simp only [Slot.isFor_iff hd]
  rfl

theorem SlotEnds.recorded_eq {scheduler : SchedulerState} {queues : SchedulerQueues}
    {recorded : TNodeIndex} {count : Nat}
    {active : NodeQueue} (h : SlotEnds scheduler queues slot.use recorded count active)
    (hnode : slot.node = transmitter recorded) : slot.recorded = recorded := by
  have hvalid : slot.use ≠ .nothing ↔ recorded ≠ invalidNodeId := by
    generalize slot.use = use at h
    cases h with
    | due htaken => exact iff_of_true nofun htaken.2.1
    | turn turn node htaken hne => exact iff_of_true nofun hne
    | service node htaken hservice =>
        unfold serviceUse
        split <;> simp_all
  unfold Slot.recorded
  by_cases huse : slot.use = .nothing
  · rw [if_pos huse]
    by_contra hne
    exact hvalid.mpr (Ne.symm hne) huse
  · rw [if_neg huse, hnode, transmitter_of_ne (hvalid.mp huse)]

theorem recordedNodes_slot {history : List SchedulerEvent} (h : slot.use ≠ .allocation) :
    recordedNodes (.slot slot :: history) = slot.recorded :: recordedNodes history := by
  rw [recordedNodes, allocatedSlots_slot h, List.map_cons, recordedNodes]

theorem SchedulerRun.Remembers.step {a : SchedulerAction} (h : s.Remembers) (hs : s.step a = .ok s') :
    s'.Remembers := by
  cases a with
  | schedule level =>
      obtain ⟨slot, hslot⟩ := SchedulerRun.schedules hs
      rcases hslot.ends with ⟨-, huse, -, hscheduler⟩ | ⟨-, recorded, next, count, hends, hnode, hscheduler⟩
      · intro i hi
        rw [hslot.history, hscheduler, recordedNodes, allocatedSlots_allocation huse,
          (scheduleUnallocatedSlot_service s.scheduler).2]
        exact h i hi
      · intro i hi
        rw [hslot.history, hscheduler, recordedNodes_slot hends.ne_allocation, hends.recorded_eq hnode]
        change recordScheduledNode s.scheduler.recentScheduledNodes recorded i = _
        rw [recordScheduledNode_apply _ _ hi]
        by_cases hlast : i + 1 < maxMasterSlotsBetweenAcks
        · have hindex : maxMasterSlotsBetweenAcks - 1 - i = maxMasterSlotsBetweenAcks - 1 - (i + 1) + 1 := by omega
          rw [if_pos hlast, h (i + 1) hlast, hindex, List.getElem?_cons_succ]
        · have hindex : maxMasterSlotsBetweenAcks - 1 - i = 0 := by omega
          rw [if_neg hlast, hindex]
          rfl
  | newNodeHeard =>
      cases hs
      exact h
  | changeQueues queues =>
      cases hs
      exact h

end History

/-- The slots so far are spaced. -/
structure SchedulerRun.Spaced (s : SchedulerRun) : Prop where
  remembers : s.Remembers
  spaced : AckSpaced s.history

namespace SchedulerRun.Spaced

variable {s s' : SchedulerRun} {a : SchedulerAction}

/-- One more slot: it is spaced exactly if the node that the acknowledgement turn finds did not have the slot before. -/
theorem schedule_iff (h : s.Spaced) {level : UInt8} (hs : s.step (.schedule level) = .ok s') :
    AckSpaced s'.history ↔ s.KeepsSpacing (.schedule level) := by
  obtain ⟨slot, hslot⟩ := SchedulerRun.schedules hs
  have hack := fun d => scheduleNextNode_ack (d := d) hslot.call
  have hfree : ∀ d, s.scheduler.ackCandidate s.queues.activeTxNodes = some d →
    nodeRecentlySent s.scheduler d = false := by
    intro d hd
    obtain ⟨queue, -, hfind⟩ := Option.bind_eq_some_iff.mp hd
    simpa using List.find?_some hfind
  rw [hslot.history, AckSpaced, and_iff_left h.spaced, hslot.use]
  unfold SchedulerRun.KeepsSpacing
  constructor
  · intro hspaced htries d hd hvalid hlast
    obtain ⟨huse, hnode⟩ := (hack d).mpr ⟨htries, hd, hvalid⟩
    obtain ⟨p, hp, hfor⟩ := (h.remembers.exists_isFor hvalid (hfree d hd)).mpr hlast
    exact hspaced huse p hp (hnode.symm ▸ hfor)
  · intro hkeeps huse p hp hfor
    obtain ⟨htries, hd, hvalid⟩ := (hack slot.node).mp ⟨huse, rfl⟩
    exact hkeeps htries _ hd hvalid ((h.remembers.exists_isFor hvalid (hfree _ hd)).mp ⟨p, hp, hfor⟩)

theorem step (h : s.Spaced) (hkeeps : s.KeepsSpacing a) (hs : s.step a = .ok s') : s'.Spaced := by
  refine ⟨h.remembers.step hs, ?_⟩
  cases a with
  | schedule level => exact (h.schedule_iff hs).mpr hkeeps
  | newNodeHeard =>
      cases hs
      exact h.spaced
  | changeQueues queues =>
      cases hs
      exact h.spaced

theorem not_keeps (h : s.Spaced) (hbreaks : ¬ s.KeepsSpacing a) (hs : s.step a = .ok s') :
    ¬ AckSpaced s'.history := by
  cases a with
  | schedule level => exact fun hspaced => hbreaks ((h.schedule_iff hs).mp hspaced)
  | newNodeHeard => exact absurd trivial hbreaks
  | changeQueues queues => exact absurd trivial hbreaks

end SchedulerRun.Spaced

theorem spaced_init {numTx maxGap : UInt8} {start : SchedulerQueues → Prop} {s : SchedulerRun}
    (h : (schedulerSystem numTx maxGap start).init s) : s.Spaced := by
  obtain ⟨scheduler, queues, history⟩ := s
  obtain ⟨rfl, -, rfl⟩ := h
  exact ⟨fun i hi => rfl, trivial⟩

/-- The acknowledgement slots of a run are spaced exactly if the acknowledgement turn never finds the node that had the
slot just before. -/
theorem ack_slots_are_spaced_iff {numTx maxGap : UInt8} {start : SchedulerQueues → Prop} {s s' : SchedulerRun}
    {as : List SchedulerAction} (h : (schedulerSystem numTx maxGap start).init s)
    (hr : (schedulerSystem numTx maxGap start).run s as = .ok s') :
    (schedulerSystem numTx maxGap start).RunKeeps (fun s => AckSpaced s.history) s as s' ↔
      (schedulerSystem numTx maxGap start).RunMeets SchedulerRun.KeepsSpacing s as := by
  apply System.runKeeps_iff_runMeets (I := SchedulerRun.Spaced)
  · exact fun s h => h.spaced
  · exact fun s a s' h hkeeps hs => h.step hkeeps hs
  · exact fun s a s' h hbreaks hs => h.not_keeps hbreaks hs
  · exact spaced_init h
  · exact hr

def waitingQueues : SchedulerQueues := ⟨pairQueue 1 2, some ⟨fun i => i.toUInt8 + 1, 5, 1⟩, .empty⟩

/-- Nine slots with packets for five nodes. -/
theorem ack_slots_are_spaced_iff_five : ∃ s',
    (schedulerSystem 1 80 fun _ => True).run ⟨schedulerInit 1 80, waitingQueues, []⟩
        (List.replicate 9 (.schedule 0)) = .ok s' ∧
      (allocatedSlots s'.history).map Slot.node = [5, 4, 3, 2, 1] ∧ AckSpaced s'.history := by
  obtain ⟨s', hs', hnodes⟩ := System.exists_of_holdsAfter
    (x := (schedulerSystem 1 80 fun _ => True).run ⟨schedulerInit 1 80, waitingQueues, []⟩
      (List.replicate 9 (.schedule 0)))
    (p := fun s => (allocatedSlots s.history).map Slot.node == [5, 4, 3, 2, 1]) (by decide +kernel)
  have hmeets : (schedulerSystem 1 80 fun _ => True).RunMeets SchedulerRun.KeepsSpacing
      ⟨schedulerInit 1 80, waitingQueues, []⟩ (List.replicate 9 (.schedule 0)) :=
    System.runMeets_of_checkedRun (fun _ _ => of_decide_eq_true) (by decide +kernel)
  exact ⟨s', hs', beq_iff_eq.mp hnodes, ((ack_slots_are_spaced_iff ⟨rfl, trivial, rfl⟩ hs').mpr hmeets).2⟩

/-- Node 1 is serviced, and the acknowledgement turn selects it in the next slot. -/
theorem ack_follows_service :
    ∃ s, (schedulerSystem 1 80 fun queues => queues.Valid).Reachable s ∧ ¬ AckSpaced s.history := by
  obtain ⟨s, hs, hhistory⟩ := System.exists_of_decidedRun (S := schedulerSystem 1 80 fun queues => queues.Valid)
    (s := ⟨schedulerInit 1 80, pairQueues, []⟩) (fun _ _ => True)
    (p := fun s => s.history == [.slot ⟨.turn .masterRxAck, 1, 2, 2⟩, .slot ⟨.service, 1, 2, 2⟩])
    (List.replicate 2 (.schedule 0)) (.init ⟨rfl, pairQueues_valid, rfl⟩) (by decide +kernel)
  refine ⟨s, hs, fun hspaced => ?_⟩
  rw [beq_iff_eq.mp hhistory] at hspaced
  exact hspaced.1 rfl ⟨.service, 1, 2, 2⟩ (by decide) (by decide)

end Microbus
