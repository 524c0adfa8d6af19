import Microbus.AckSearch
import Microbus.MasterOps

/-! Runs of the scheduler, with what every slot is used for. -/
namespace Microbus

open Transition

/-- `allocation` is an unallocated slot, in which new nodes may join; in a slot for `nothing` nobody is there to
transmit. -/
inductive SlotUse
  | allocation | service | turn (turn : SchedulerTurn) | nothing
  deriving DecidableEq, Repr

def NodeQueue.nextOrNone (q : NodeQueue) : TNodeIndex × NodeQueue :=
  if q.numNodes > 0 then getNextNodeInQueue q else (invalidNodeId, q)

/-- In a dual channel the master transmits if it has packets left. -/
def SchedulerState.MasterReady (scheduler : SchedulerState) (masterTxBufferLevel : Nat) : Prop :=
  scheduler.numTxNodesScheduled > 1 ∧ masterTxBufferLevel > 0

instance (scheduler : SchedulerState) (masterTxBufferLevel : Nat) :
    Decidable (scheduler.MasterReady masterTxBufferLevel) := by
  unfold SchedulerState.MasterReady
  infer_instance

/-- The candidate of the turn that comes up, and the queues after the search for it. -/
def turnCandidate (masterTxBufferLevel : Nat) (scheduler : SchedulerState) (queues : SchedulerQueues) :
    Except Fault (TNodeIndex × SchedulerQueues) :=
  match scheduler.nextTurn with
  | .masterTx => .ok (if scheduler.MasterReady masterTxBufferLevel then masterNodeId else invalidNodeId, queues)
  | .masterRxAck => do
      let (node, activeTxNodes) ← getNextMasterRxAckNode scheduler queues.activeTxNodes
      return (node, { queues with activeTxNodes })
  | .nodeTx => .ok (queues.nodeTxNodes.nextOrNone.1, { queues with nodeTxNodes := queues.nodeTxNodes.nextOrNone.2 })

def serviceUse (node : TNodeIndex) : SlotUse := if node = invalidNodeId then .nothing else .service

/-- The turn that `turnLoop` selects with `fuel` turns left, or the service that it ends with. -/
def turnUse (masterTxBufferLevel : Nat) : Nat → SchedulerState → SchedulerQueues → SlotUse
  | 0, _, queues => serviceUse queues.activeNodes.nextOrNone.1
  | fuel + 1, scheduler, queues =>
      match turnCandidate masterTxBufferLevel scheduler queues with
      | .error _ => .nothing
      | .ok (node, queues) =>
          if node ≠ invalidNodeId then .turn scheduler.nextTurn
          else turnUse masterTxBufferLevel fuel { scheduler with nextTurn := scheduler.nextTurn.succ } queues

/-- The service falls due and its node was not recently sent. -/
def SchedulerState.ServiceTaken (scheduler : SchedulerState) (queues : SchedulerQueues) : Prop :=
  scheduler.countTillNextService = 0 ∧ queues.activeNodes.nextOrNone.1 ≠ invalidNodeId ∧
    nodeRecentlySent scheduler queues.activeNodes.nextOrNone.1 = false

instance (scheduler : SchedulerState) (queues : SchedulerQueues) : Decidable (scheduler.ServiceTaken queues) := by
  unfold SchedulerState.ServiceTaken
  infer_instance

/-- The state and the queues when the turns are tried: a service that falls due is counted even if its node was
recently sent. -/
def SchedulerState.atTurns (scheduler : SchedulerState) : SchedulerState :=
  { scheduler with
    countTillNextService :=
      if scheduler.countTillNextService = 0 then maxSlotsBetweenServicing else scheduler.countTillNextService }

def SchedulerState.queuesAtTurns (scheduler : SchedulerState) (queues : SchedulerQueues) : SchedulerQueues :=
  if scheduler.countTillNextService = 0 then { queues with activeNodes := queues.activeNodes.nextOrNone.2 } else queues

theorem SchedulerState.queuesAtTurns_tx (scheduler : SchedulerState) (queues : SchedulerQueues) :
    (scheduler.queuesAtTurns queues).activeTxNodes = queues.activeTxNodes ∧
      (scheduler.queuesAtTurns queues).nodeTxNodes = queues.nodeTxNodes := by
  unfold SchedulerState.queuesAtTurns
  split <;> exact ⟨rfl, rfl⟩

theorem SchedulerState.queuesAtTurns_lists (scheduler : SchedulerState) (queues : SchedulerQueues) :
    queues.SameLists (scheduler.queuesAtTurns queues) := by
  unfold SchedulerState.queuesAtTurns
  split
  · exact ⟨toList_getNextNodeTxNode queues.activeNodes, rfl, rfl⟩
  · exact .refl queues

/-- What `scheduleNextNode` uses the slot for. -/
def slotUse (scheduler : SchedulerState) (queues : SchedulerQueues) (masterTxBufferLevel : Nat) : SlotUse :=
  if scheduler.countTillNextAllocation = 0 then .allocation
  else if scheduler.ServiceTaken queues then .service
  else turnUse masterTxBufferLevel maxTurn scheduler.atTurns (scheduler.queuesAtTurns queues)

section Step

variable {scheduler scheduler' : SchedulerState} {queues queues' : SchedulerQueues} {level fuel : Nat}
  {node : TNodeIndex} {use : SlotUse}

theorem turnLoop_zero : turnLoop level 0 scheduler queues =
    .ok (queues.activeNodes.nextOrNone.1, { scheduler with countTillNextService := maxSlotsBetweenServicing },
      { queues with activeNodes := queues.activeNodes.nextOrNone.2 }) := by
  unfold turnLoop getNextServiceNode NodeQueue.nextOrNone
  by_cases hpos : queues.activeNodes.numNodes > 0
  · simp [hpos]
  · simp [hpos]

theorem turnLoop_succ : turnLoop level (fuel + 1) scheduler queues =
    (turnCandidate level scheduler queues >>= fun r =>
      if r.1 ≠ invalidNodeId then .ok (r.1, { scheduler with nextTurn := scheduler.nextTurn.succ }, r.2)
      else turnLoop level fuel { scheduler with nextTurn := scheduler.nextTurn.succ } r.2) := by
  rw [turnLoop]
  unfold turnCandidate
  cases hturn : scheduler.nextTurn with
  | masterTx =>
      dsimp only
      by_cases hready : scheduler.MasterReady level
      · rw [if_pos hready]
        unfold SchedulerState.MasterReady at hready
        rw [if_pos hready]
        rfl
      · rw [if_neg hready]
        unfold SchedulerState.MasterReady at hready
        rw [if_neg hready]
        rfl
  | masterRxAck =>
      dsimp only
      cases getNextMasterRxAckNode scheduler queues.activeTxNodes with
      | error e => rfl
      | ok r => rfl
  | nodeTx => rfl

theorem scheduleNextAllocatedNode_eq : scheduleNextAllocatedNode scheduler queues level =
    if scheduler.ServiceTaken queues then
      .ok (queues.activeNodes.nextOrNone.1, { scheduler with countTillNextService := maxSlotsBetweenServicing },
        { queues with activeNodes := queues.activeNodes.nextOrNone.2 })
    else turnLoop level maxTurn scheduler.atTurns (scheduler.queuesAtTurns queues) := by
  have hsent : ∀ count node, nodeRecentlySent { scheduler with countTillNextService := count } node =
      nodeRecentlySent scheduler node := fun _ _ => rfl
  unfold scheduleNextAllocatedNode SchedulerState.ServiceTaken SchedulerState.atTurns SchedulerState.queuesAtTurns
    getNextServiceNode NodeQueue.nextOrNone
  by_cases hdue : scheduler.countTillNextService = 0
  · by_cases hpos : queues.activeNodes.numNodes > 0
    · by_cases hrecent : nodeRecentlySent scheduler (getNextNodeInQueue queues.activeNodes).1 = true
      · simp [hdue, hpos, hrecent, hsent]
      · have hfree : nodeRecentlySent scheduler (getNextNodeInQueue queues.activeNodes).1 = false := by
          simpa using hrecent
        simp [hdue, hpos, hfree, hsent]
    · simp [hdue, hpos]
  · simp [hdue]

/-- How the turns end: one of them selects a node, or the slot is for the node that is next to be serviced. -/
inductive TurnsEnd (scheduler : SchedulerState) (queues : SchedulerQueues) :
    SlotUse → TNodeIndex → SchedulerState → SchedulerQueues → Prop
  | turn (turn next : SchedulerTurn) (node : TNodeIndex) (queues' : SchedulerQueues) : node ≠ invalidNodeId →
      queues'.activeNodes = queues.activeNodes →
      TurnsEnd scheduler queues (.turn turn) node { scheduler with nextTurn := next } queues'
  | service (next : SchedulerTurn) (queues' : SchedulerQueues) :
      queues'.activeNodes = queues.activeNodes.nextOrNone.2 →
      TurnsEnd scheduler queues (serviceUse queues.activeNodes.nextOrNone.1) queues.activeNodes.nextOrNone.1
        { scheduler with nextTurn := next, countTillNextService := maxSlotsBetweenServicing } queues'

theorem turnCandidate_activeNodes (h : turnCandidate level scheduler queues = .ok (node, queues')) :
    queues'.activeNodes = queues.activeNodes := by
  unfold turnCandidate at h
  cases hturn : scheduler.nextTurn with
  | masterTx =>
      simp only [hturn] at h
      cases h
      rfl
  | masterRxAck =>
      simp only [hturn] at h
      obtain ⟨r, -, h⟩ := bind_eq_ok.mp h
      cases h
      rfl
  | nodeTx =>
      simp only [hturn] at h
      cases h
      rfl

theorem turnLoop_ends (h : turnLoop level fuel scheduler queues = .ok (node, scheduler', queues')) :
    TurnsEnd scheduler queues (turnUse level fuel scheduler queues) node scheduler' queues' := by
  induction fuel generalizing scheduler queues with
  | zero =>
      rw [turnLoop_zero] at h
      cases h
      exact .service scheduler.nextTurn _ rfl
  | succ fuel ih =>
      rw [turnLoop_succ] at h
      obtain ⟨⟨candidate, queues₁⟩, hcandidate, h⟩ := bind_eq_ok.mp h
      have hactive := turnCandidate_activeNodes hcandidate
      rw [turnUse, hcandidate]
      dsimp only at h ⊢
      by_cases hnode : candidate ≠ invalidNodeId
      · rw [if_pos hnode] at h ⊢
        cases h
        exact .turn _ _ _ _ hnode hactive
      · rw [if_neg hnode] at h ⊢
        have hends := ih h
        generalize turnUse level fuel _ queues₁ = use at hends
        cases hends with
        | turn turn next _ _ hnode' hkeep => exact .turn _ _ _ _ hnode' (hkeep.trans hactive)
        | service next _ hkeep =>
            rw [hactive] at hkeep ⊢
            exact .service _ _ hkeep

/-- How a slot that is not an unallocated one ends: its use, the node that is recorded for it, and the countdown and
the row of the nodes to be serviced afterwards. -/
inductive SlotEnds (scheduler : SchedulerState) (queues : SchedulerQueues) :
    SlotUse → TNodeIndex → Nat → NodeQueue → Prop
  | due : scheduler.ServiceTaken queues →
      SlotEnds scheduler queues .service queues.activeNodes.nextOrNone.1 (maxSlotsBetweenServicing - 1)
        queues.activeNodes.nextOrNone.2
  | turn (turn : SchedulerTurn) (node : TNodeIndex) : ¬ scheduler.ServiceTaken queues → node ≠ invalidNodeId →
      SlotEnds scheduler queues (.turn turn) node (scheduler.atTurns.countTillNextService - 1)
        (scheduler.queuesAtTurns queues).activeNodes
  | service (node : TNodeIndex) : ¬ scheduler.ServiceTaken queues →
      node = (scheduler.queuesAtTurns queues).activeNodes.nextOrNone.1 →
      SlotEnds scheduler queues (serviceUse node) node (maxSlotsBetweenServicing - 1)
        (scheduler.queuesAtTurns queues).activeNodes.nextOrNone.2

def SchedulerState.after (scheduler : SchedulerState) (node : TNodeIndex) (next : SchedulerTurn) (count : Nat) :
    SchedulerState :=
  { scheduler with
    nextTurn := next
    countTillNextAllocation := scheduler.countTillNextAllocation - 1
    countTillNextService := count
    recentScheduledNodes := recordScheduledNode scheduler.recentScheduledNodes node }

/-- The node that transmits in a slot that `node` is recorded for. -/
def transmitter (node : TNodeIndex) : TNodeIndex := if node = invalidNodeId then unallocatedNodeId else node

theorem scheduleNextNode_cases (h : scheduleNextNode scheduler queues level = .ok (node, scheduler', queues')) :
    (scheduler.countTillNextAllocation = 0 ∧ slotUse scheduler queues level = .allocation ∧
      node = unallocatedNodeId ∧
      scheduler' = scheduleUnallocatedSlot scheduler ∧ queues' = queues) ∨
    (0 < scheduler.countTillNextAllocation ∧ ∃ recorded next count,
      SlotEnds scheduler queues (slotUse scheduler queues level) recorded count queues'.activeNodes ∧
      node = transmitter recorded ∧ scheduler' = scheduler.after recorded next count) := by
  unfold scheduleNextNode at h
  unfold slotUse
  by_cases halloc : scheduler.countTillNextAllocation = 0
  · rw [if_pos halloc] at h ⊢
    cases h
    exact Or.inl ⟨halloc, rfl, rfl, rfl, rfl⟩
  · rw [if_neg halloc] at h ⊢
    obtain ⟨⟨recorded, scheduler₁, queues₁⟩, hnext, h⟩ := bind_eq_ok.mp h
    obtain ⟨_, -, h⟩ := bind_eq_ok.mp h
    obtain ⟨_, -, h⟩ := bind_eq_ok.mp h
    cases h
    refine Or.inr ⟨by omega, recorded, scheduler₁.nextTurn, scheduler₁.countTillNextService - 1, ?_⟩
    rw [scheduleNextAllocatedNode_eq] at hnext
    by_cases htaken : scheduler.ServiceTaken queues
    · rw [if_pos htaken] at hnext ⊢
      cases hnext
      exact ⟨.due htaken, rfl, rfl⟩
    · rw [if_neg htaken] at hnext ⊢
      have hends := turnLoop_ends hnext
      generalize turnUse level maxTurn _ _ = use at hends ⊢
      cases hends with
      | turn turn next _ _ hnode hkeep => exact ⟨hkeep ▸ .turn turn recorded htaken hnode, rfl, rfl⟩
      | service next _ hkeep => exact ⟨hkeep ▸ .service _ htaken rfl, rfl, rfl⟩

end Step

/-- An unallocated slot pauses the rest of the schedule. -/
theorem scheduleUnallocatedSlot_service (scheduler : SchedulerState) :
    (scheduleUnallocatedSlot scheduler).countTillNextService = scheduler.countTillNextService ∧
      (scheduleUnallocatedSlot scheduler).recentScheduledNodes = scheduler.recentScheduledNodes := by
  unfold scheduleUnallocatedSlot
  dsimp only
  split
  · split <;> exact ⟨rfl, rfl⟩
  · exact ⟨rfl, rfl⟩

/-- The queue holds stations. -/
structure NodeQueue.Valid (q : NodeQueue) : Prop where
  wellFormed : q.WellFormed
  stations : ∀ d ∈ q.toList, Station d

structure SchedulerQueues.Valid (queues : SchedulerQueues) : Prop where
  activeNodes : queues.activeNodes.Valid
  activeTxNodes : ∀ queue, queues.activeTxNodes = some queue → queue.Valid
  nodeTxNodes : queues.nodeTxNodes.Valid

/-- Every queue has its members once, with the cursor on one of them. -/
structure SchedulerQueues.WellFormed (queues : SchedulerQueues) : Prop where
  activeNodes : queues.activeNodes.WellFormed
  activeTxNodes : ∀ queue, queues.activeTxNodes = some queue → queue.WellFormed
  nodeTxNodes : queues.nodeTxNodes.WellFormed

namespace NodeQueue.WellFormed

variable {q : NodeQueue}

theorem nextOrNone (h : q.WellFormed) : q.nextOrNone.2.WellFormed := by
  unfold NodeQueue.nextOrNone
  split
  · exact h.getNext
  · exact h

theorem movedBy (h : q.WellFormed) {k : Nat} (hk : k < q.numNodes) : (q.movedBy (k + 1)).WellFormed := by
  have hlt := h.cursor.lt (Nat.zero_lt_of_lt hk)
  exact ⟨h.nodup, Or.inl (lastIndex_movedBy_lt hlt hk)⟩

theorem found {scheduler : SchedulerState} {q' : NodeQueue} {node : TNodeIndex} (h : q.WellFormed)
    (hfinds : scheduler.Finds q node q') : q'.WellFormed := by
  cases hfinds with
  | nothing hall => exact h
  | entry k hk hfirst hfree => exact h.movedBy hk

end NodeQueue.WellFormed

section Completes

variable {scheduler : SchedulerState} {queues queues' : SchedulerQueues}

theorem SchedulerQueues.WellFormed.turnCandidate (h : queues.WellFormed) (level : Nat) (scheduler : SchedulerState) :
    ∃ node queues', turnCandidate level scheduler queues = .ok (node, queues') ∧ queues'.WellFormed := by
  unfold Microbus.turnCandidate
  cases hturn : scheduler.nextTurn with
  | masterTx => exact ⟨_, _, rfl, h⟩
  | masterRxAck =>
      cases hqueue : queues.activeTxNodes with
      | none => exact ⟨_, _, rfl, h.activeNodes, nofun, h.nodeTxNodes⟩
      | some queue =>
          have hwf := h.activeTxNodes queue hqueue
          obtain ⟨node, queue', hsearch, hfinds⟩ := getNextMasterRxAckNode_finds scheduler hwf
          refine ⟨node, { queues with activeTxNodes := some queue' }, bind_eq_ok.mpr ⟨_, hsearch, rfl⟩,
            h.activeNodes, ?_,
            h.nodeTxNodes⟩
          rintro _ ⟨⟩
          exact hwf.found hfinds
  | nodeTx => exact ⟨_, _, rfl, h.activeNodes, h.activeTxNodes, h.nodeTxNodes.nextOrNone⟩

theorem SchedulerQueues.WellFormed.turnLoop (h : queues.WellFormed) (level fuel : Nat) (scheduler : SchedulerState) :
    ∃ node scheduler' queues', turnLoop level fuel scheduler queues = .ok (node, scheduler', queues') ∧
      queues'.WellFormed := by
  induction fuel generalizing scheduler queues with
  | zero => exact ⟨_, _, _, turnLoop_zero, h.activeNodes.nextOrNone, h.activeTxNodes, h.nodeTxNodes⟩
  | succ fuel ih =>
      obtain ⟨node, queues₁, hcandidate, hwf⟩ := h.turnCandidate level scheduler
      rw [turnLoop_succ, hcandidate]
      by_cases hnode : node ≠ invalidNodeId
      · exact ⟨_, _, _, if_pos hnode, hwf⟩
      · obtain ⟨node', scheduler', queues', hloop, hwf'⟩ :=
          ih hwf { scheduler with nextTurn := scheduler.nextTurn.succ }
        exact ⟨node', scheduler', queues', (if_neg hnode).trans hloop, hwf'⟩

theorem SchedulerQueues.WellFormed.atTurns (h : queues.WellFormed) (scheduler : SchedulerState) :
    (scheduler.queuesAtTurns queues).WellFormed := by
  unfold SchedulerState.queuesAtTurns
  split
  · exact ⟨h.activeNodes.nextOrNone, h.activeTxNodes, h.nodeTxNodes⟩
  · exact h

theorem SchedulerQueues.WellFormed.scheduleNextNode (h : queues.WellFormed) (level : Nat) (scheduler : SchedulerState) :
    ∃ node scheduler' queues', scheduleNextNode scheduler queues level = .ok (node, scheduler', queues') ∧
      queues'.WellFormed := by
  unfold Microbus.scheduleNextNode
  by_cases halloc : scheduler.countTillNextAllocation = 0
  · rw [if_pos halloc]
    exact ⟨_, _, _, rfl, h⟩
  · have hcount : 0 < scheduler.atTurns.countTillNextService := by
      simp only [SchedulerState.atTurns, maxSlotsBetweenServicing]
      split <;> omega
    have hsix : 0 < maxSlotsBetweenServicing := by decide
    have hnext : ∃ node scheduler' queues',
        scheduleNextAllocatedNode scheduler queues level = .ok (node, scheduler', queues') ∧ queues'.WellFormed ∧
          0 < scheduler'.countTillNextAllocation ∧ 0 < scheduler'.countTillNextService := by
      rw [scheduleNextAllocatedNode_eq]
      by_cases htaken : scheduler.ServiceTaken queues
      · rw [if_pos htaken]
        exact ⟨_, _, _, rfl, ⟨h.activeNodes.nextOrNone, h.activeTxNodes, h.nodeTxNodes⟩,
          Nat.pos_of_ne_zero halloc, hsix⟩
      · rw [if_neg htaken]
        obtain ⟨node, scheduler', queues', hloop, hwf⟩ :=
          (h.atTurns scheduler).turnLoop level maxTurn scheduler.atTurns
        refine ⟨node, scheduler', queues', hloop, hwf, ?_⟩
        have hends := turnLoop_ends hloop
        generalize turnUse level maxTurn _ _ = use at hends
        cases hends with
        | turn turn next _ _ hnode hkeep => exact ⟨Nat.pos_of_ne_zero halloc, hcount⟩
        | service next _ hkeep => exact ⟨Nat.pos_of_ne_zero halloc, hsix⟩
    obtain ⟨node, scheduler', queues', hnext, hwf, hallocation, hservice⟩ := hnext
    refine ⟨transmitter node, scheduler'.after node scheduler'.nextTurn
      (scheduler'.countTillNextService - 1), queues', ?_,
      hwf⟩
    rw [if_neg halloc]
    refine bind_eq_ok.mpr ⟨_, hnext, ?_⟩
    refine bind_eq_ok.mpr ⟨(), microbusAssert_ok.mpr hallocation, ?_⟩
    exact bind_eq_ok.mpr ⟨(), microbusAssert_ok.mpr hservice, rfl⟩

theorem SchedulerQueues.SameLists.forall_activeTxNodes {P : TNodeIndex → Prop} (hsame : queues.SameLists queues')
    (h : ∀ queue, queues.activeTxNodes = some queue → ∀ d ∈ queue.toList, P d) :
    ∀ queue, queues'.activeTxNodes = some queue → ∀ d ∈ queue.toList, P d := by
  intro queue' hqueue'
  have hlists := hsame.activeTxNodes
  rw [hqueue', Option.map_some] at hlists
  obtain ⟨queue, hqueue, hlist⟩ := Option.map_eq_some_iff.mp hlists.symm
  rw [← hlist]
  exact h queue hqueue

namespace SchedulerQueues.Valid

theorem wellFormed (h : queues.Valid) : queues.WellFormed :=
  ⟨h.activeNodes.wellFormed, fun queue hqueue => (h.activeTxNodes queue hqueue).wellFormed,
    h.nodeTxNodes.wellFormed⟩

theorem moved (h : queues.Valid) (hwf : queues'.WellFormed) (hsame : queues.SameLists queues') : queues'.Valid where
  activeNodes := ⟨hwf.activeNodes, hsame.activeNodes ▸ h.activeNodes.stations⟩
  activeTxNodes queue hqueue :=
    ⟨hwf.activeTxNodes queue hqueue, hsame.forall_activeTxNodes
      (fun q hq => (h.activeTxNodes q hq).stations) queue hqueue⟩
  nodeTxNodes := ⟨hwf.nodeTxNodes, hsame.nodeTxNodes ▸ h.nodeTxNodes.stations⟩

theorem atTurns (h : queues.Valid) (scheduler : SchedulerState) : (scheduler.queuesAtTurns queues).Valid :=
  h.moved (h.wellFormed.atTurns scheduler) (scheduler.queuesAtTurns_lists queues)

theorem scheduleNextNode (h : queues.Valid) (level : Nat) (scheduler : SchedulerState) :
    ∃ node scheduler' queues', scheduleNextNode scheduler queues level = .ok (node, scheduler', queues') ∧
      queues'.Valid := by
  obtain ⟨node, scheduler', queues', hnext, hwf⟩ := h.wellFormed.scheduleNextNode level scheduler
  exact ⟨node, scheduler', queues', hnext, h.moved hwf (scheduleNextNode_ok hnext).1⟩

end SchedulerQueues.Valid

end Completes

/-- A slot as it was scheduled: its use, the node that transmits in it, and the gap between unallocated slots before and
after the call. -/
structure Slot where
  use : SlotUse
  node : TNodeIndex
  gap : Nat
  newGap : Nat
  deriving DecidableEq, Repr

inductive SchedulerEvent
  | slot (slot : Slot)
  | newNodeHeard
  deriving DecidableEq, Repr

/-- The scheduler with the queues it points to and what happened so far, the last event first. -/
structure SchedulerRun where
  scheduler : SchedulerState
  queues : SchedulerQueues
  history : List SchedulerEvent

/-- Between the calls of `scheduleNextNode` new nodes are heard and the rest of the master changes the queues. -/
inductive SchedulerAction
  | schedule (masterTxBufferLevel : UInt8)
  | newNodeHeard
  | changeQueues (queues : SchedulerQueues)

namespace SchedulerRun

def step (s : SchedulerRun) : SchedulerAction → Except Fault SchedulerRun
  | .schedule masterTxBufferLevel => do
      let use := slotUse s.scheduler s.queues masterTxBufferLevel.toNat
      let (node, scheduler, queues) ← scheduleNextNode s.scheduler s.queues masterTxBufferLevel.toNat
      let slot := ⟨use, node, s.scheduler.unallocatedSlotGap, scheduler.unallocatedSlotGap⟩
      return ⟨scheduler, queues, .slot slot :: s.history⟩
  | .newNodeHeard =>
      .ok { s with scheduler := newNodeHeardUpdateScheduler s.scheduler, history := .newNodeHeard :: s.history }
  | .changeQueues queues => .ok { s with queues }

end SchedulerRun

def schedulerSystem (numTxNodesScheduled maxSlotsBetweenUnallocated : UInt8) (start : SchedulerQueues → Prop) :
    System SchedulerRun SchedulerAction Fault where
  init s := s.scheduler = schedulerInit numTxNodesScheduled maxSlotsBetweenUnallocated ∧
    start s.queues ∧ s.history = []
  step := SchedulerRun.step

/-- What the call for a slot does to a run: it is an unallocated one or one that is recorded. -/
structure SchedulerRun.Schedules (s : SchedulerRun) (level : Nat) (slot : Slot) (s' : SchedulerRun) : Prop where
  history : s'.history = .slot slot :: s.history
  use : slot.use = slotUse s.scheduler s.queues level
  call : scheduleNextNode s.scheduler s.queues level = .ok (slot.node, s'.scheduler, s'.queues)
  gap : slot.gap = s.scheduler.unallocatedSlotGap
  newGap : slot.newGap = s'.scheduler.unallocatedSlotGap
  ends : (s.scheduler.countTillNextAllocation = 0 ∧ slot.use = .allocation ∧ s'.queues = s.queues ∧
      s'.scheduler = scheduleUnallocatedSlot s.scheduler) ∨
    (0 < s.scheduler.countTillNextAllocation ∧ ∃ recorded next count,
      SlotEnds s.scheduler s.queues slot.use recorded count s'.queues.activeNodes ∧
        slot.node = transmitter recorded ∧
      s'.scheduler = s.scheduler.after recorded next count)

theorem SchedulerRun.schedules {s s' : SchedulerRun} {level : UInt8} (hs : s.step (.schedule level) = .ok s') :
    ∃ slot, s.Schedules level.toNat slot s' := by
  obtain ⟨⟨node, scheduler', queues'⟩, hnext, hs⟩ := bind_eq_ok.mp hs
  cases hs
  refine ⟨_, rfl, rfl, hnext, rfl, rfl, ?_⟩
  rcases scheduleNextNode_cases hnext with ⟨hcount, huse, -, hscheduler, hqueues⟩ | ⟨hcount, hends⟩
  · exact Or.inl ⟨hcount, huse, hqueues, hscheduler⟩
  · exact Or.inr ⟨hcount, hends⟩

/-- The slots that are not unallocated ones, the last one first. -/
def allocatedSlots : List SchedulerEvent → List Slot
  | [] => []
  | .slot slot :: earlier => if slot.use = .allocation then allocatedSlots earlier else slot :: allocatedSlots earlier
  | .newNodeHeard :: earlier => allocatedSlots earlier

section AllocatedSlots

variable {slot : Slot} {history : List SchedulerEvent}

theorem allocatedSlots_allocation (h : slot.use = .allocation) :
    allocatedSlots (.slot slot :: history) = allocatedSlots history := if_pos h

theorem allocatedSlots_slot (h : slot.use ≠ .allocation) :
    allocatedSlots (.slot slot :: history) = slot :: allocatedSlots history := if_neg h

end AllocatedSlots

theorem SlotEnds.ne_allocation {scheduler : SchedulerState} {queues : SchedulerQueues} {use : SlotUse}
    {node : TNodeIndex}
    {count : Nat} {active : NodeQueue} (h : SlotEnds scheduler queues use node count active) : use ≠ .allocation := by
  cases h with
  | due htaken => exact nofun
  | turn turn node htaken hnode => exact nofun
  | service node htaken hnode =>
      unfold serviceUse
      split <;> exact nofun

theorem transmitter_of_ne {recorded : TNodeIndex} (h : recorded ≠ invalidNodeId) : transmitter recorded = recorded :=
  if_neg h

theorem recordScheduledNode_apply (recent : Nat → TNodeIndex) (node : TNodeIndex) {i : Nat}
    (hi : i < maxMasterSlotsBetweenAcks) : recordScheduledNode recent node i =
      if i + 1 < maxMasterSlotsBetweenAcks then recent (i + 1) else node := by
  unfold recordScheduledNode
  by_cases hlast : i = maxMasterSlotsBetweenAcks - 1
  · subst hlast
    rw [Function.update_self]
    rfl
  · have hbefore : i < maxMasterSlotsBetweenAcks - 1 := by omega
    rw [Function.update_of_ne hlast, if_pos hbefore, if_pos (by omega)]

end Microbus
