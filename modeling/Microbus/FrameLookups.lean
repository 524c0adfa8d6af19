import Microbus.MasterQueues
import Microbus.EmissionMaster

/-! The entries of the table `rxSeqNum` that the master reads when it fills in a frame. -/
namespace Microbus

open Transition

/-- The ids for which `masterQuickUpdateTxPacket` reads `rxSeqNum`. -/
def MasterTx.idsRead (tx : MasterTx) (numTxNodesScheduled : Nat) (nextTxNodeId : Nat → TNodeIndex) :
    List TNodeIndex :=
  match tx.nextTxPacket with
  | none => []
  | some _ => (List.range numTxNodesScheduled).map nextTxNodeId

def Master.idsRead (master : Master) : List TNodeIndex :=
  master.tx.idsRead master.scheduler.numTxNodesScheduled master.nextTxNodeId

/-- The master when a step fills in the frame that it sends. -/
inductive MasterRun.Fills (s : MasterRun) : {mode : ChannelMode} → MasterAction mode → Master → Prop
  | preProcess {frame crcError stray m₁ m₂} : masterUpdateSchedule (s.master.receive frame) = .ok m₁ →
      masterQuickRx m₁ crcError = .ok m₂ → s.Fills (.preProcess frame crcError stray) m₂
  | processTx {stray m₁ m₂} : masterTx s.master = .ok m₁ → masterUpdateSchedule m₁ = .ok m₂ →
      s.Fills (.processTx stray) m₂

/-- Every entry that the step reads is one of the table. -/
def MasterRun.ReadsInTable {mode : ChannelMode} (s : MasterRun) (a : MasterAction mode) : Prop :=
  ∀ m, s.Fills a m → ∀ id ∈ m.idsRead, id.toNat < maxNodes

/-- Some node has a use for the slot. -/
def SchedulerState.HasTransmitter (scheduler : SchedulerState) (queues : SchedulerQueues) (level : Nat) : Prop :=
  scheduler.MasterReady level ∨ (∃ d ∈ (queues.activeTxNodes.map NodeQueue.toList).getD [],
    nodeRecentlySent scheduler d = false) ∨
    0 < queues.nodeTxNodes.numNodes ∨ 0 < queues.activeNodes.numNodes

instance (scheduler : SchedulerState) (queues : SchedulerQueues) (level : Nat) :
    Decidable (scheduler.HasTransmitter queues level) := by
  unfold SchedulerState.HasTransmitter
  infer_instance

/-- The slots of the master among those that are announced already. -/
def masterSlotsAhead (numTxNodesScheduled : Nat) (nodesToTx : Nat → TNodeIndex) : Nat :=
  (List.range' 0 (numTxNodesScheduled - 1)).countP fun k => nodesToTx (k + 1) = masterNodeId

/-- If the next slot is not reserved for the master then it is no unallocated one, and some node has a use for it. -/
def SchedulerState.SchedulesStation (scheduler : SchedulerState) (queues : SchedulerQueues)
    (nodesToTx : Nat → TNodeIndex) (level : Nat) : Prop :=
  scheduler.numTxNodesScheduled = 1 ∨ 0 < masterSlotsAhead scheduler.numTxNodesScheduled nodesToTx →
    scheduler.countTillNextAllocation ≠ 0 ∧
      scheduler.HasTransmitter queues (level - masterSlotsAhead scheduler.numTxNodesScheduled nodesToTx)

instance (scheduler : SchedulerState) (queues : SchedulerQueues) (nodesToTx : Nat → TNodeIndex) (level : Nat) :
    Decidable (scheduler.SchedulesStation queues nodesToTx level) := by
  unfold SchedulerState.SchedulesStation
  infer_instance

/-- After the reset slots: no slot that stays announced is an unallocated one, nor is the slot that is added. -/
def Master.AnnouncesStations (master : Master) (masterResetCycles : Nat) : Prop :=
  masterResetCycles = 0 →
    (∀ k < master.scheduler.numTxNodesScheduled - 1, master.nextTxNodeId (k + 1) ≠ unallocatedNodeId) ∧
      master.scheduler.SchedulesStation master.queues master.nextTxNodeId
        (getNumAllBufferedTxPackets master.tx.txManager).toNat

instance (master : Master) (masterResetCycles : Nat) : Decidable (master.AnnouncesStations masterResetCycles) := by
  unfold Master.AnnouncesStations
  infer_instance

/-- A single-channel slot counts a reset slot before it moves the schedule on. -/
def MasterRun.AnnouncesStations {mode : ChannelMode} (s : MasterRun) : MasterAction mode → Prop
  | .preProcess _ _ _ => s.master.AnnouncesStations s.master.tx.masterResetCycles
  | .processTx _ => s.master.AnnouncesStations (s.master.tx.masterResetCycles - 1)
  | _ => True

instance {mode : ChannelMode} (s : MasterRun) : (a : MasterAction mode) → Decidable (s.AnnouncesStations a)
  | .preProcess _ _ _ => inferInstanceAs (Decidable (s.master.AnnouncesStations s.master.tx.masterResetCycles))
  | .processTx _ => inferInstanceAs (Decidable (s.master.AnnouncesStations (s.master.tx.masterResetCycles - 1)))
  | .postProcess | .processRx _ _ | .updateTimeUs _ | .allocate | .write _ | .submit _ _ | .peek | .pop
      | .getConnectedNodes
  | .resetTxCredits => inferInstanceAs (Decidable True)

/-- A node of the table if the condition holds, and `other` if not. -/
inductive Picks (other : TNodeIndex) (p : Prop) (node : TNodeIndex) : Prop
  | node : p → node.toNat < maxNodes → Picks other p node
  | other : ¬ p → node = other → Picks other p node

theorem Picks.congr {other node : TNodeIndex} {p q : Prop} (h : Picks other p node) (hpq : p ↔ q) :
    Picks other q node :=
  propext hpq ▸ h

theorem ne_invalid_of_small {node : TNodeIndex} (h : node.toNat < maxNodes) : node ≠ invalidNodeId := by
  rintro rfl
  exact absurd h (by decide)

section Scheduler

variable {scheduler scheduler' : SchedulerState} {queues queues' : SchedulerQueues} {level fuel : Nat}
  {node : TNodeIndex}

theorem NodeQueue.InTable.picks {q : NodeQueue} (h : q.InTable) :
    Picks invalidNodeId (0 < q.numNodes) q.nextOrNone.1 := by
  unfold NodeQueue.nextOrNone
  by_cases hpos : 0 < q.numNodes
  · rw [if_pos hpos]
    refine .node hpos ?_
    have hlt := h.wellFormed.cursor.lt hpos
    rw [NodeQueue.getNext_eq hlt]
    exact h.small _ (NodeQueue.upcoming_mem hlt hpos)
  · rw [if_neg hpos]
    exact .other hpos rfl

/-- The turn has a node for the slot. -/
def SchedulerState.TurnHas (scheduler : SchedulerState) (queues : SchedulerQueues) (level : Nat) :
    SchedulerTurn → Prop
  | .masterTx => scheduler.MasterReady level
  | .masterRxAck => ∃ d ∈ (queues.activeTxNodes.map NodeQueue.toList).getD [], nodeRecentlySent scheduler d = false
  | .nodeTx => 0 < queues.nodeTxNodes.numNodes

theorem SchedulerQueues.SameLists.turnHas (h : queues.SameLists queues') (turn : SchedulerTurn) :
    scheduler.TurnHas queues' level turn ↔ scheduler.TurnHas queues level turn := by
  unfold SchedulerState.TurnHas
  rw [h.activeTxNodes, numNodes_eq_length, numNodes_eq_length, h.nodeTxNodes]

theorem turnCandidate_lists (h : turnCandidate level scheduler queues = .ok (node, queues')) :
    queues.SameLists queues' := by
  unfold turnCandidate at h
  split at h
  · cases h
    exact .refl queues
  · obtain ⟨⟨candidate, queue⟩, hsearch, h⟩ := bind_eq_ok.mp h
    cases h
    exact ⟨rfl, getNextMasterRxAckNode_ok hsearch, rfl⟩
  · cases h
    exact ⟨rfl, rfl, toList_getNextNodeTxNode queues.nodeTxNodes⟩

theorem turnCandidate_picks (hq : queues.InTable) (h : turnCandidate level scheduler queues = .ok (node, queues')) :
    Picks invalidNodeId (scheduler.TurnHas queues level scheduler.nextTurn) node := by
  unfold turnCandidate at h
  cases hturn : scheduler.nextTurn with
  | masterTx =>
      simp only [hturn] at h
      cases h
      by_cases hready : scheduler.MasterReady level
      · rw [if_pos hready]
        exact .node hready (by decide)
      · rw [if_neg hready]
        exact .other hready rfl
  | masterRxAck =>
      simp only [hturn] at h
      obtain ⟨⟨candidate, queue⟩, hsearch, h⟩ := bind_eq_ok.mp h
      cases h
      unfold SchedulerState.TurnHas
      cases hqueue : queues.activeTxNodes with
      | none =>
          rw [hqueue] at hsearch
          cases hsearch
          exact .other (by simp) rfl
      | some q =>
          rw [hqueue] at hsearch
          have hin := hq.activeTxNodes q hqueue
          obtain ⟨found, q', hsearch', hfinds⟩ := getNextMasterRxAckNode_finds scheduler hin.wellFormed
          rw [hsearch] at hsearch'
          cases hsearch'
          cases hfinds with
          | nothing hall =>
              refine .other ?_ rfl
              rintro ⟨d, hd, hfree⟩
              rw [hall d hd] at hfree
              cases hfree
          | entry k hk hfirst hfree =>
              have hmem := NodeQueue.upcoming_mem (hin.wellFormed.cursor.lt (Nat.zero_lt_of_lt hk)) hk
              exact .node ⟨_, hmem, hfree⟩ (hin.small _ hmem)
  | nodeTx =>
      simp only [hturn] at h
      cases h
      exact hq.nodeTxNodes.picks

theorem turnLoop_picks (hq : queues.InTable)
    (h : turnLoop level fuel scheduler queues = .ok (node, scheduler', queues')) :
    Picks invalidNodeId ((∃ i < fuel, scheduler.TurnHas queues level (SchedulerTurn.succ^[i] scheduler.nextTurn)) ∨
      0 < queues.activeNodes.numNodes) node := by
  induction fuel generalizing scheduler queues with
  | zero =>
      rw [turnLoop_zero] at h
      cases h
      exact hq.activeNodes.picks.congr (by simp)
  | succ fuel ih =>
      rw [turnLoop_succ] at h
      obtain ⟨⟨candidate, queues₁⟩, hcandidate, h⟩ := bind_eq_ok.mp h
      have hlists := turnCandidate_lists hcandidate
      have hq₁ : queues₁.InTable := by
        obtain ⟨_, queues₂, hcandidate', hwf⟩ := hq.wellFormed.turnCandidate level scheduler
        rw [hcandidate] at hcandidate'
        cases hcandidate'
        exact hq.moved hwf hlists
      dsimp only at h
      cases turnCandidate_picks hq hcandidate with
      | node hhas hsmall =>
          rw [if_pos (ne_invalid_of_small hsmall)] at h
          cases h
          exact .node (Or.inl ⟨0, Nat.zero_lt_succ fuel, hhas⟩) hsmall
      | other hnone hnode =>
          rw [if_neg (not_not.mpr hnode)] at h
          refine (ih hq₁ h).congr (or_congr ?_ ?_)
          · -- the turn that is over had nobody
            constructor
            · rintro ⟨i, hi, hhas⟩
              exact ⟨i + 1, Nat.succ_lt_succ hi, (hlists.turnHas _).mp hhas⟩
            · rintro ⟨i, hi, hhas⟩
              cases i with
              | zero => exact absurd hhas hnone
              | succ i => exact ⟨i, Nat.lt_of_succ_lt_succ hi, (hlists.turnHas _).mpr hhas⟩
          · rw [numNodes_eq_length, numNodes_eq_length, hlists.activeNodes]

theorem exists_turn_iff {p : SchedulerTurn → Prop} (turn : SchedulerTurn) :
    (∃ i < maxTurn, p (SchedulerTurn.succ^[i] turn)) ↔ p .masterTx ∨ p .masterRxAck ∨ p .nodeTx := by
  constructor
  · rintro ⟨i, -, h⟩
    generalize SchedulerTurn.succ^[i] turn = turn' at h
    cases turn' with
    | masterTx => exact Or.inl h
    | masterRxAck => exact Or.inr (Or.inl h)
    | nodeTx => exact Or.inr (Or.inr h)
  · have hround : ∀ turn' : SchedulerTurn, ∃ i < maxTurn, SchedulerTurn.succ^[i] turn = turn' := by
      intro turn'
      cases turn <;> cases turn' <;> decide
    have hback : ∀ turn', p turn' → ∃ i < maxTurn, p (SchedulerTurn.succ^[i] turn) := by
      intro turn' h
      obtain ⟨i, hi, hturn⟩ := hround turn'
      exact ⟨i, hi, hturn.symm ▸ h⟩
    exact fun h => h.elim (hback _) fun h => h.elim (hback _) (hback _)

theorem scheduleNextNode_picks (hq : queues.InTable)
    (h : scheduleNextNode scheduler queues level = .ok (node, scheduler', queues')) :
    Picks unallocatedNodeId (scheduler.countTillNextAllocation ≠ 0 ∧
      scheduler.HasTransmitter queues level) node := by
  unfold scheduleNextNode at h
  by_cases halloc : scheduler.countTillNextAllocation = 0
  · rw [if_pos halloc] at h
    cases h
    exact .other (fun hc => hc.1 halloc) rfl
  · rw [if_neg halloc] at h
    obtain ⟨⟨recorded, scheduler₁, queues₁⟩, hnext, h⟩ := bind_eq_ok.mp h
    obtain ⟨_, -, h⟩ := bind_eq_ok.mp h
    obtain ⟨_, -, h⟩ := bind_eq_ok.mp h
    cases h
    rw [scheduleNextAllocatedNode_eq] at hnext
    have hrecorded : Picks invalidNodeId (scheduler.HasTransmitter queues level) recorded := by
      by_cases htaken : scheduler.ServiceTaken queues
      · rw [if_pos htaken] at hnext
        cases hnext
        cases hq.activeNodes.picks with
        | node hpos hsmall => exact .node (Or.inr (Or.inr (Or.inr hpos))) hsmall
        | other _ hnone => exact absurd hnone htaken.2.1
      · rw [if_neg htaken] at hnext
        have hlists := scheduler.queuesAtTurns_lists queues
        have hpicks := turnLoop_picks (hq.moved (hq.wellFormed.atTurns scheduler) hlists) hnext
        rw [exists_turn_iff, hlists.turnHas, hlists.turnHas, hlists.turnHas, numNodes_eq_length, hlists.activeNodes,
          ← numNodes_eq_length] at hpicks
        refine hpicks.congr ?_
        unfold SchedulerState.HasTransmitter
        rw [or_assoc, or_assoc]
        rfl
    cases hrecorded with
    | node hhas hsmall =>
        rw [if_neg (ne_invalid_of_small hsmall)]
        exact .node ⟨halloc, hhas⟩ hsmall
    | other hnone hnode =>
        rw [if_pos hnode]
        exact .other (fun hc => hnone hc.2) rfl

/-- In a dual channel with one announced slot the master's packets do not count. -/
theorem hasTransmitter_one (hone : scheduler.numTxNodesScheduled = 1) (level level' : Nat) :
    scheduler.HasTransmitter queues level ↔ scheduler.HasTransmitter queues level' := by
  unfold SchedulerState.HasTransmitter SchedulerState.MasterReady
  simp [hone]

theorem shiftSchedule_level (fuel : Nat) : ∀ (i : Nat) (nodes : Nat → TNodeIndex) (level : Nat) (one : Bool),
    (shiftSchedule fuel i nodes level one).2.1 =
      level - (List.range' i fuel).countP fun k => nodes (k + 1) = masterNodeId := by
  induction fuel with
  | zero =>
      intro i nodes level one
      simp [shiftSchedule]
  | succ fuel ih =>
      intro i nodes level one
      have hself : Function.update nodes i (nodes (i + 1)) i = nodes (i + 1) := Function.update_self _ _ _
      have hrest : ((List.range' (i + 1) fuel).countP fun k =>
        Function.update nodes i (nodes (i + 1)) (k + 1) = masterNodeId) =
          (List.range' (i + 1) fuel).countP fun k => nodes (k + 1) = masterNodeId := by
        apply List.countP_congr
        intro k hk
        have hne : k + 1 ≠ i := by
          have := (List.mem_range'_1.mp hk).1
          omega
        rw [Function.update_of_ne hne]
      unfold shiftSchedule
      dsimp only
      rw [hself, List.range'_succ, List.countP_cons]
      by_cases hmaster : nodes (i + 1) = masterNodeId
      · rw [if_pos hmaster, ih, hrest]
        simp only [hmaster, decide_true, if_true]
        omega
      · rw [if_neg hmaster, ih, hrest]
        simp only [hmaster, decide_false, Bool.false_eq_true, if_false, Nat.add_zero]

theorem schedulerUpdate_picks {nodes nodes' : Nat → TNodeIndex} {width : Nat}
    (hwidth : scheduler.numTxNodesScheduled = width + 1) (hq : queues.InTable)
    (h : schedulerUpdateAndCalcNextTxNodes scheduler queues nodes level = .ok (nodes', scheduler', queues')) :
    Picks unallocatedNodeId (scheduler.SchedulesStation queues nodes level) (nodes' width) := by
  unfold SchedulerState.SchedulesStation masterSlotsAhead
  unfold schedulerUpdateAndCalcNextTxNodes at h
  rw [hwidth] at h ⊢
  rw [Nat.add_sub_cancel] at h ⊢
  by_cases hone : width + 1 = 1
  · rw [if_pos hone] at h
    obtain rfl : width = 0 := by omega
    obtain ⟨⟨node, scheduler₁, queues₁⟩, hnext, h⟩ := bind_eq_ok.mp h
    cases h
    rw [Function.update_self]
    refine (scheduleNextNode_picks hq hnext).congr ?_
    rw [hasTransmitter_one hwidth 0 level]
    simp
  · rw [if_neg hone] at h
    dsimp only at h
    have hlevel := shiftSchedule_level width 0 nodes level false
    generalize hshift : shiftSchedule width 0 nodes level false = r at h hlevel
    obtain ⟨shifted, level', one⟩ := r
    obtain ⟨-, hmaster⟩ := shiftSchedule_ok width 0 nodes shifted level level' false one hshift
    have hahead : one = true ↔ 0 < (List.range' 0 width).countP fun k => nodes (k + 1) = masterNodeId := by
      rw [hmaster, List.countP_pos_iff]
      simp
    dsimp only at h hlevel
    subst hlevel
    rw [or_iff_right hone, ← hahead]
    split at h
    · rename_i hone'
      obtain ⟨⟨node, scheduler₁, queues₁⟩, hnext, h⟩ := bind_eq_ok.mp h
      cases h
      rw [Function.update_self]
      exact (scheduleNextNode_picks hq hnext).congr (by simp [hone'])
    · rename_i hone'
      cases h
      rw [Function.update_self]
      exact .node (fun hc => absurd hc hone') (by decide)

end Scheduler

/-- What the master has in every state of a run: each id that is announced is that of a node or of an
unallocated slot. -/
structure Master.FillsFrames (width : Nat) (master : Master) : Prop where
  queues : master.QueuesInTable
  scheduled : master.Scheduled width
  announced : ∀ k < width, (master.nextTxNodeId k).toNat < maxNodes ∨ master.nextTxNodeId k = unallocatedNodeId
  chosen : master.tx.nextTxPacket.isSome = true

theorem unallocated_not_small : ¬ unallocatedNodeId.toNat < maxNodes := by decide

namespace Master.FillsFrames

variable {width : Nat} {master master' : Master}

theorem same (h : master.FillsFrames width) (hqueues : master'.QueuesInTable) (hsame : master.SameSchedule master')
    (hchosen : master'.tx.nextTxPacket = master.tx.nextTxPacket) : master'.FillsFrames width where
  queues := hqueues
  scheduled := hsame.scheduled h.scheduled
  announced := by
    rw [hsame.nextTxNodeId]
    exact h.announced
  chosen := by
    rw [hchosen]
    exact h.chosen

theorem idsRead_iff (h : master.FillsFrames width) :
    (∀ id ∈ master.idsRead, id.toNat < maxNodes) ↔ ∀ k < width, (master.nextTxNodeId k).toNat < maxNodes := by
  obtain ⟨r, hr⟩ := Option.isSome_iff_exists.mp h.chosen
  unfold Master.idsRead MasterTx.idsRead
  rw [hr, h.scheduled.numTx]
  simp

theorem updateSchedule (h : master.FillsFrames width) (hpos : 0 < width)
    (hu : masterUpdateSchedule master = .ok master') :
    master'.FillsFrames width ∧
      ((∀ id ∈ master'.idsRead, id.toNat < maxNodes) ↔ master.AnnouncesStations master.tx.masterResetCycles) := by
  obtain ⟨hscheduled, hshift, hcycles⟩ := h.scheduled.updateSchedule hpos hu
  have hqueues := keptByParts_queuesInTable.updateSchedule h.queues hu
  have hchosen : master'.tx.nextTxPacket.isSome = true := by
    rw [(masterUpdateSchedule_choice hu).nextTxPacket]
    exact h.chosen
  by_cases hreset : 0 < master.tx.masterResetCycles
  · have hsmall : ∀ k < width, (master'.nextTxNodeId k).toNat < maxNodes := by
      intro k hk
      have hmaster : master'.nextTxNodeId k = masterNodeId := hscheduled.resetting (hcycles.symm ▸ hreset) (k + 1) hk
      rw [hmaster]
      decide
    have hfills : master'.FillsFrames width := ⟨hqueues, hscheduled, fun k hk => Or.inl (hsmall k hk), hchosen⟩
    exact ⟨hfills, iff_of_true (hfills.idsRead_iff.mpr hsmall) fun hc => absurd hc (Nat.ne_of_gt hreset)⟩
  · obtain ⟨width, rfl⟩ : ∃ w, width = w + 1 := Nat.exists_eq_succ_of_ne_zero (Nat.ne_of_gt hpos)
    have hnum := h.scheduled.numTx
    have hfront : ∀ k < width, master'.nextTxNodeId k = master.nextTxNodeId (k + 1) := fun k hk =>
      hshift (k + 1) (by omega)
    have hlast : Picks unallocatedNodeId (master.scheduler.SchedulesStation master.queues master.nextTxNodeId
        (getNumAllBufferedTxPackets master.tx.txManager).toNat) (master'.nextTxNodeId width) := by
      unfold masterUpdateSchedule at hu
      rw [if_neg hreset] at hu
      obtain ⟨⟨nodes, scheduler, queues⟩, hnext, hu⟩ := bind_eq_ok.mp hu
      cases hu
      exact schedulerUpdate_picks hnum h.queues hnext
    have hold : ∀ k < width, (master.nextTxNodeId (k + 1)).toNat < maxNodes ↔
        master.nextTxNodeId (k + 1) ≠ unallocatedNodeId := by
      intro k hk
      rcases h.announced (k + 1) (by omega) with hsmall | hspecial
      · refine iff_of_true hsmall fun hc => ?_
        rw [hc] at hsmall
        exact unallocated_not_small hsmall
      · rw [hspecial]
        exact iff_of_false unallocated_not_small fun hc => hc rfl
    have hfills : master'.FillsFrames (width + 1) := by
      refine ⟨hqueues, hscheduled, fun k hk => ?_, hchosen⟩
      rcases Nat.lt_succ_iff_lt_or_eq.mp hk with hk | rfl
      · rw [hfront k hk]
        exact h.announced (k + 1) (by omega)
      · cases hlast with
        | node _ hsmall => exact Or.inl hsmall
        | other _ hspecial => exact Or.inr hspecial
    refine ⟨hfills, hfills.idsRead_iff.trans ?_⟩
    have hlast' : (master'.nextTxNodeId width).toNat < maxNodes ↔ master.scheduler.SchedulesStation master.queues
        master.nextTxNodeId (getNumAllBufferedTxPackets master.tx.txManager).toNat := by
      cases hlast with
      | node hstation hsmall => exact iff_of_true hsmall hstation
      | other hnone hspecial =>
          rw [hspecial]
          exact iff_of_false unallocated_not_small hnone
    unfold Master.AnnouncesStations
    rw [hnum, Nat.add_sub_cancel, ← hlast']
    constructor
    · intro hall _
      refine ⟨fun k hk => (hold k hk).mp ?_, hall width (Nat.lt_succ_self width)⟩
      rw [← hfront k hk]
      exact hall k (by omega)
    · intro hcond k hk
      obtain ⟨hfree, hlast⟩ := hcond (Nat.eq_zero_of_not_pos hreset)
      rcases Nat.lt_succ_iff_lt_or_eq.mp hk with hk | rfl
      · rw [hfront k hk]
        exact (hold k hk).mpr (hfree k hk)
      · exact hlast

end Master.FillsFrames

section Parts

variable {master master' : Master}

theorem masterTx_chooses (h : masterTx master = .ok master') : master'.tx.nextTxPacket.isSome = true := by
  have hnext := (masterTx_next h).1
  cases hframe : master'.tx with
  | mk nextTxPacket tmpPacketCycle tmpEmptyPacketHeader tmpPacket masterResetCycles txManager =>
      rw [hframe] at hnext
      cases hnext <;> rfl

theorem Master.call_nextTxPacket {call : MasterCall} (h : master.call call = .ok master') :
    master'.tx.nextTxPacket = master.tx.nextTxPacket := by
  cases call with
  | allocate =>
      obtain ⟨⟨r, m⟩, halloc, h⟩ := bind_eq_ok.mp h
      obtain ⟨⟨r', tm⟩, -, halloc⟩ := bind_eq_ok.mp halloc
      cases halloc
      cases h
      rfl
  | write data =>
      cases h
      rfl
  | submit dst numBytes =>
      obtain ⟨-, -, tm, -, rfl⟩ := masterSubmit_ok h
      rfl
  | peek =>
      obtain ⟨⟨r, m⟩, hpeek, h⟩ := bind_eq_ok.mp h
      obtain ⟨rpm, rfl, -⟩ := masterPeek_ok hpeek
      cases h
      rfl
  | pop =>
      obtain ⟨rpm, rfl, -⟩ := masterPop_ok h
      rfl
  | getConnectedNodes =>
      obtain ⟨⟨m, bits⟩, hget, h⟩ := bind_eq_ok.mp h
      obtain rfl := getConnectedNodesBitField_ok hget
      cases h
      rfl
  | resetTxCredits =>
      cases h
      rfl

end Parts

theorem keptByParts_fillsFrames {width : Nat} (hpos : 0 < width) : KeptByParts (Master.FillsFrames width) where
  receive h frame := h.same (keptByParts_queuesInTable.receive h.queues frame) (Master.receive_schedule _ frame) rfl
  updateSchedule h hs := (h.updateSchedule hpos hs).1
  quickRx h hs := h.same (keptByParts_queuesInTable.quickRx h.queues hs) (masterQuickRx_schedule hs)
    (masterQuickRx_choice hs).nextTxPacket
  rx h hs := h.same (keptByParts_queuesInTable.rx h.queues hs) (masterRx_schedule hs) (by rw [(masterRx_choice hs).1])
  tx h hs := by
    have hsame := masterTx_schedule hs
    refine ⟨keptByParts_queuesInTable.tx h.queues hs, hsame.scheduled h.scheduled, ?_, masterTx_chooses hs⟩
    rw [hsame.nextTxNodeId]
    exact h.announced
  quickTx h stray := h.same (keptByParts_queuesInTable.quickTx h.queues stray) (masterQuickTx_schedule _ stray)
    (masterQuickTx_choice _ stray).nextTxPacket
  removeIfTimedOut hd h hs := by
    refine h.same (keptByParts_queuesInTable.removeIfTimedOut hd h.queues hs) (masterRemoveIfTimedOut_schedule hs) ?_
    rcases masterRemoveIfTimedOut_ok hs with ⟨-, rfl⟩ | ⟨_, _, _, _, _, -, -, -, -, rfl⟩
    · rfl
    · rfl
  updateTimeUs {master} h usIncr := by
    refine h.same (keptByParts_queuesInTable.updateTimeUs h.queues usIncr)
      (masterUpdateTimeUs_schedule master usIncr) ?_
    obtain ⟨us, ttl, heq, -⟩ := masterUpdateTimeUs_eq master usIncr
    rw [heq]
  call h hc := h.same (keptByParts_queuesInTable.call h.queues hc) (Master.call_schedule hc)
    (Master.call_nextTxPacket hc)

theorem fillsFrames_init {cfg : MasterConfig} {s : MasterRun} (h : (masterSystem cfg).init s) :
    s.master.FillsFrames cfg.numTxNodesScheduled.toNat := by
  obtain ⟨entries, hinit, -, -⟩ := h
  obtain ⟨rx, -, hinit⟩ := bind_eq_ok.mp hinit
  rw [← pure_eq_ok.mp hinit]
  refine ⟨⟨emptyQueue_inTable, ?_, emptyQueue_inTable⟩, .of_reset rfl fun k _ => ?_, fun k _ => Or.inl ?_, rfl⟩
  · rintro queue ⟨⟩
    exact emptyQueue_inTable
  · cases k <;> rfl
  · change (0 : TNodeIndex).toNat < maxNodes
    decide

section Step

variable {master master' : Master} {width : Nat}

/-- The choice of the next frame leaves all that the condition is about, but for the count of the reset slots. -/
theorem masterTx_announces (h : masterTx master = .ok master') :
    master'.AnnouncesStations master'.tx.masterResetCycles ↔
      master.AnnouncesStations (master.tx.masterResetCycles - 1) := by
  obtain ⟨tx, rfl, hqueue⟩ := masterTx_ok h
  have hsame : tx.txManager.activeTxNodes = master.tx.txManager.activeTxNodes ∧
      tx.txManager.packetStore = master.tx.txManager.packetStore := by
    rcases hqueue with ⟨htx, -⟩ | hget
    · rw [htx]
      exact ⟨rfl, rfl⟩
    · obtain ⟨queue, -, p, i, c, -, ⟨-, hm⟩ | ⟨d, e, -, -, -, -, -, -, hm⟩⟩ :=
        masterGetNextTxDataPacket_ok hget
      · rw [hm]
        exact ⟨rfl, rfl⟩
      · rw [hm]
        exact ⟨rfl, rfl⟩
  have hcycles : tx.masterResetCycles = master.tx.masterResetCycles - 1 := by
    have hnext := (masterTx_next h).1
    cases hframe : tx with
    | mk nextTxPacket tmpPacketCycle tmpEmptyPacketHeader tmpPacket masterResetCycles txManager =>
        dsimp only at hnext
        rw [hframe] at hnext
        cases hnext with
        | reset hreset => rfl
        | response hnone _ _ => simp [hnone]
        | empty hdata _ => simp [hdata.1]
        | data hdata _ => simp [hdata.1]
  unfold Master.AnnouncesStations Master.queues getNumAllBufferedTxPackets
  rw [hcycles]
  dsimp only
  rw [hsame.1, hsame.2]

theorem Master.FillsFrames.fills {mode : ChannelMode} {s : MasterRun} {a : MasterAction mode}
    (h : s.master.FillsFrames width)
    (hpos : 0 < width) (hm : s.Fills a master) : (∀ id ∈ master.idsRead, id.toNat < maxNodes) ↔
    s.AnnouncesStations a := by
  cases hm with
  | preProcess h₁ h₂ =>
      have hmoved := ((keptByParts_fillsFrames hpos).receive h _).updateSchedule hpos h₁
      have hsame := masterQuickRx_schedule h₂
      unfold Master.idsRead MasterTx.idsRead
      rw [(masterQuickRx_choice h₂).nextTxPacket, hsame.nextTxNodeId, hsame.numTx]
      exact hmoved.2
  | processTx h₁ h₂ =>
      have hmoved := ((keptByParts_fillsFrames hpos).tx h h₁).updateSchedule hpos h₂
      exact hmoved.2.trans (masterTx_announces h₁)

theorem readsInTable_iff {mode : ChannelMode} {s : MasterRun} {a : MasterAction mode} (h : s.master.FillsFrames width)
    (hpos : 0 < width) : s.ReadsInTable a ↔ ((∃ m, s.Fills a m) → s.AnnouncesStations a) := by
  constructor
  · rintro hreads ⟨m, hm⟩
    exact (h.fills hpos hm).mp (hreads m hm)
  · intro hannounces m hm
    exact (h.fills hpos hm).mpr (hannounces ⟨m, hm⟩)

end Step

/-- The master reads only entries of the table exactly in the runs in which every frame that it fills in
announces stations only. -/
theorem frame_lookups_iff {cfg : MasterConfig} (hpos : 0 < cfg.numTxNodesScheduled.toNat) {s : MasterRun}
    (h : (masterSystem cfg).init s) (as : List (MasterAction cfg.mode)) :
    (masterSystem cfg).RunMeets MasterRun.ReadsInTable s as ↔
      (masterSystem cfg).RunMeets (fun s a => (∃ m, s.Fills a m) → s.AnnouncesStations a) s as := by
  apply System.runMeets_congr (I := fun s => s.master.FillsFrames cfg.numTxNodesScheduled.toNat) ?_ ?_ ?_
    (System.runMeets_true s as)
  · exact fun s a hs _ => readsInTable_iff hs hpos
  · exact fun s a s' hs _ hstep => (keptByParts_fillsFrames hpos).step hs hstep
  · exact fillsFrames_init h

/-- The reset slots, in the first of which a node joins. -/
def resetSlots : List (MasterAction .dual) :=
  slot (joinFrame 7) ++ (List.replicate 19 (slot Packet.zero)).flatten

/-- The node that joined is announced in the two slots after the reset. -/
theorem frame_lookups_iff_joined : ∃ s, (masterSystem dualConfig).run blankRun
    (resetSlots ++ slot Packet.zero ++ slot Packet.zero) = .ok s ∧ s.master.idsRead = [0, 0, 1, 1] ∧
    (masterSystem dualConfig).RunMeets MasterRun.ReadsInTable blankRun
      (resetSlots ++ slot Packet.zero ++ slot Packet.zero) := by
  obtain ⟨s, hs, hread⟩ := System.exists_of_holdsAfter (x := (masterSystem dualConfig).run blankRun
      (resetSlots ++ slot Packet.zero ++ slot Packet.zero))
    (p := fun s => s.master.idsRead == [0, 0, 1, 1]) (by decide +kernel)
  have hmeets : (masterSystem dualConfig).RunMeets (fun s a => (∃ m, s.Fills a m) → s.AnnouncesStations a) blankRun
      (resetSlots ++ slot Packet.zero ++ slot Packet.zero) :=
    System.runMeets_of_checkedRun (fun _ _ h _ => of_decide_eq_true h) (by decide +kernel)
  exact ⟨s, hs, beq_iff_eq.mp hread, (frame_lookups_iff (by decide) blankRun_init _).mpr hmeets⟩

/-- After the reset nobody is there, and the number of an unallocated slot is looked up. -/
theorem unallocated_is_looked_up : ∃ s m, (masterSystem dualConfig).Reachable s ∧
    s.Fills (.preProcess Packet.zero false fun _ => 0) m ∧ ∃ id ∈ m.idsRead, ¬ id.toNat < maxNodes := by
  obtain ⟨s, hs, hfills⟩ := System.exists_of_holdsAfter (x := (masterSystem dualConfig).run blankRun
      (List.replicate 20 (slot Packet.zero)).flatten)
    (p := fun s => System.holdsAfter
      (masterUpdateSchedule (s.master.receive Packet.zero) >>= fun m => masterQuickRx m false)
      fun m => m.idsRead == [masterNodeId, masterNodeId, masterNodeId, unallocatedNodeId]) (by decide +kernel)
  obtain ⟨m, hm, hread⟩ := System.exists_of_holdsAfter hfills
  obtain ⟨m₁, h₁, h₂⟩ := bind_eq_ok.mp hm
  refine ⟨s, m, System.Reachable.run (.init blankRun_init) hs, .preProcess h₁ h₂, unallocatedNodeId, ?_,
    unallocated_not_small⟩
  rw [beq_iff_eq.mp hread]
  decide

end Microbus
