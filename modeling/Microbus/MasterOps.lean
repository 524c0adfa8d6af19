import Microbus.Transfer

/-! What each part of a slot of the master does. -/
namespace Microbus

open Transition

/-- The scheduler moves the cursors of its queues only. -/
structure SchedulerQueues.SameLists (q q' : SchedulerQueues) : Prop where
  activeNodes : q'.activeNodes.toList = q.activeNodes.toList
  activeTxNodes : q'.activeTxNodes.map NodeQueue.toList = q.activeTxNodes.map NodeQueue.toList
  nodeTxNodes : q'.nodeTxNodes.toList = q.nodeTxNodes.toList

namespace SchedulerQueues.SameLists

variable {q q' q'' : SchedulerQueues}

theorem refl (q : SchedulerQueues) : q.SameLists q := ⟨rfl, rfl, rfl⟩

theorem trans (h : q.SameLists q') (h' : q'.SameLists q'') : q.SameLists q'' :=
  ⟨h'.activeNodes.trans h.activeNodes, h'.activeTxNodes.trans h.activeTxNodes, h'.nodeTxNodes.trans h.nodeTxNodes⟩

end SchedulerQueues.SameLists

/-- Scheduling moves the counters, the turn and the recent nodes only. -/
structure SchedulerState.SameLevels (s s' : SchedulerState) : Prop where
  nodeTxBufferLevel : s'.nodeTxBufferLevel = s.nodeTxBufferLevel
  numTxNodesScheduled : s'.numTxNodesScheduled = s.numTxNodesScheduled

namespace SchedulerState.SameLevels

variable {s s' s'' : SchedulerState}

theorem refl (s : SchedulerState) : s.SameLevels s := ⟨rfl, rfl⟩

theorem trans (h : s.SameLevels s') (h' : s'.SameLevels s'') : s.SameLevels s'' :=
  ⟨h'.nodeTxBufferLevel.trans h.nodeTxBufferLevel, h'.numTxNodesScheduled.trans h.numTxNodesScheduled⟩

end SchedulerState.SameLevels

theorem masterRxAckLoop_ok {scheduler : SchedulerState} {fuel i : Nat} {queue queue' : NodeQueue} {node : TNodeIndex}
    (h : masterRxAckLoop scheduler fuel i queue = .ok (node, queue')) : queue'.toList = queue.toList := by
  induction fuel generalizing i queue with
  | zero =>
      cases h
      rfl
  | succ fuel ih =>
      unfold masterRxAckLoop at h
      dsimp only at h
      split at h
      · cases h
        rfl
      · obtain ⟨_, -, h⟩ := bind_eq_ok.mp h
        exact (ih h).trans (toList_getNextNodeInQueue queue)

theorem getNextMasterRxAckNode_ok {scheduler : SchedulerState} {queue queue' : Option NodeQueue} {node : TNodeIndex}
    (h : getNextMasterRxAckNode scheduler queue = .ok (node, queue')) :
    queue'.map NodeQueue.toList = queue.map NodeQueue.toList := by
  cases queue with
  | none =>
      cases h
      rfl
  | some queue =>
      obtain ⟨⟨node', queue''⟩, hloop, h⟩ := bind_eq_ok.mp h
      cases h
      exact congrArg some (masterRxAckLoop_ok hloop)

theorem toList_getNextNodeTxNode (queue : NodeQueue) : (getNextNodeTxNode queue).2.toList = queue.toList := by
  unfold getNextNodeTxNode
  split
  · rfl
  · rfl

theorem toList_getNextServiceNode (scheduler : SchedulerState) (queue : NodeQueue) (avoid : Bool) :
    (getNextServiceNode scheduler queue avoid).2.2.toList = queue.toList := by
  unfold getNextServiceNode
  dsimp only
  split
  · split
    · split <;> rfl
    · rfl
  · rfl

theorem getNextServiceNode_levels (scheduler : SchedulerState) (queue : NodeQueue) (avoid : Bool) :
    scheduler.SameLevels (getNextServiceNode scheduler queue avoid).2.1 := by
  unfold getNextServiceNode
  dsimp only
  split
  · split
    · split <;> exact ⟨rfl, rfl⟩
    · exact ⟨rfl, rfl⟩
  · exact ⟨rfl, rfl⟩

theorem turnLoop_ok {level fuel : Nat} {scheduler scheduler' : SchedulerState} {queues queues' : SchedulerQueues}
    {node : TNodeIndex} (h : turnLoop level fuel scheduler queues = .ok (node, scheduler', queues')) :
    queues.SameLists queues' ∧ scheduler.SameLevels scheduler' := by
  induction fuel generalizing scheduler queues with
  | zero =>
      cases h
      exact ⟨⟨toList_getNextServiceNode scheduler queues.activeNodes false, rfl, rfl⟩,
        getNextServiceNode_levels scheduler queues.activeNodes false⟩
  | succ fuel ih =>
      -- what follows the turn, whatever it picked
      have hrest : ∀ node₁ queues₁ scheduler₁, queues.SameLists queues₁ →
          (if node₁ ≠ invalidNodeId then pure (node₁, scheduler₁, queues₁)
            else turnLoop level fuel scheduler₁ queues₁ : Except Fault _) = .ok (node, scheduler', queues') →
          scheduler.SameLevels scheduler₁ → queues.SameLists queues' ∧ scheduler.SameLevels scheduler' := by
        intro node₁ queues₁ scheduler₁ hsame h hlevels
        split at h
        · cases h
          exact ⟨hsame, hlevels⟩
        · obtain ⟨hsame', hlevels'⟩ := ih h
          exact ⟨hsame.trans hsame', hlevels.trans hlevels'⟩
      unfold turnLoop at h
      cases hnext : scheduler.nextTurn with
      | masterTx =>
          simp only [hnext, pure_bind] at h
          split at h
          · exact hrest _ _ _ (.refl _) h ⟨rfl, rfl⟩
          · exact hrest _ _ _ (.refl _) h ⟨rfl, rfl⟩
      | masterRxAck =>
          simp only [hnext, pure_bind] at h
          obtain ⟨⟨node₁, queue₁⟩, hack, h⟩ := bind_eq_ok.mp h
          exact hrest node₁ { queues with activeTxNodes := queue₁ } _
            ⟨rfl, getNextMasterRxAckNode_ok hack, rfl⟩ h
            ⟨rfl, rfl⟩
      | nodeTx =>
          simp only [hnext, pure_bind] at h
          exact hrest _ { queues with nodeTxNodes := (getNextNodeTxNode queues.nodeTxNodes).2 } _
            ⟨rfl, rfl, toList_getNextNodeTxNode _⟩ h ⟨rfl, rfl⟩

theorem scheduleUnallocatedSlot_levels (scheduler : SchedulerState) :
    scheduler.SameLevels (scheduleUnallocatedSlot scheduler) := by
  unfold scheduleUnallocatedSlot
  dsimp only
  split
  · split <;> exact ⟨rfl, rfl⟩
  · exact ⟨rfl, rfl⟩

theorem scheduleNextAllocatedNode_ok {scheduler scheduler' : SchedulerState} {queues queues' : SchedulerQueues}
    {level : Nat} {node : TNodeIndex}
    (h : scheduleNextAllocatedNode scheduler queues level = .ok (node, scheduler', queues')) :
    queues.SameLists queues' ∧ scheduler.SameLevels scheduler' := by
  unfold scheduleNextAllocatedNode at h
  split at h
  · have hservice := toList_getNextServiceNode scheduler queues.activeNodes true
    have hlevels := getNextServiceNode_levels scheduler queues.activeNodes true
    dsimp only at h
    split at h
    · cases h
      exact ⟨⟨hservice, rfl, rfl⟩, hlevels⟩
    · obtain ⟨hturn, hturn'⟩ := turnLoop_ok h
      exact ⟨⟨hturn.activeNodes.trans hservice, hturn.activeTxNodes, hturn.nodeTxNodes⟩, hlevels.trans hturn'⟩
  · exact turnLoop_ok h

theorem scheduleNextNode_ok {scheduler scheduler' : SchedulerState} {queues queues' : SchedulerQueues} {level : Nat}
    {node : TNodeIndex} (h : scheduleNextNode scheduler queues level = .ok (node, scheduler', queues')) :
    queues.SameLists queues' ∧ scheduler.SameLevels scheduler' := by
  unfold scheduleNextNode at h
  split at h
  · cases h
    exact ⟨.refl _, scheduleUnallocatedSlot_levels scheduler⟩
  · obtain ⟨⟨node₁, scheduler₁, queues₁⟩, halloc, h⟩ := bind_eq_ok.mp h
    obtain ⟨_, -, h⟩ := bind_eq_ok.mp h
    obtain ⟨_, -, h⟩ := bind_eq_ok.mp h
    cases h
    obtain ⟨hsame, hlevels⟩ := scheduleNextAllocatedNode_ok halloc
    exact ⟨hsame, hlevels.trans ⟨rfl, rfl⟩⟩

theorem schedulerUpdateAndCalcNextTxNodes_ok {scheduler scheduler' : SchedulerState} {queues queues' : SchedulerQueues}
    {nodes nodes' : Nat → TNodeIndex} {level : Nat}
    (h : schedulerUpdateAndCalcNextTxNodes scheduler queues nodes level = .ok (nodes', scheduler', queues')) :
    queues.SameLists queues' ∧ scheduler.SameLevels scheduler' := by
  unfold schedulerUpdateAndCalcNextTxNodes at h
  split at h
  · obtain ⟨⟨node, scheduler₁, queues₁⟩, hnext, h⟩ := bind_eq_ok.mp h
    cases h
    exact scheduleNextNode_ok hnext
  · dsimp only at h
    split at h
    · obtain ⟨⟨node, scheduler₁, queues₁⟩, hnext, h⟩ := bind_eq_ok.mp h
      cases h
      exact scheduleNextNode_ok hnext
    · cases h
      exact ⟨.refl _, .refl _⟩

def Master.queues (master : Master) : SchedulerQueues where
  activeNodes := master.nwManager.activeNodes
  activeTxNodes := master.tx.txManager.activeTxNodes
  nodeTxNodes := master.nodeTxNodes

def Master.withQueues (master : Master) (queues : SchedulerQueues) : Master :=
  { master with
    nwManager := { master.nwManager with activeNodes := queues.activeNodes }
    tx := { master.tx with
      txManager := { master.tx.txManager with activeTxNodes := queues.activeTxNodes } }
    nodeTxNodes := queues.nodeTxNodes }

theorem masterUpdateSchedule_ok {master master' : Master} (h : masterUpdateSchedule master = .ok master') :
    ∃ scheduler currentTxNodeId nextTxNodeId queues, master.queues.SameLists queues ∧
      master.scheduler.SameLevels scheduler ∧
      master' = { master.withQueues queues with scheduler, currentTxNodeId, nextTxNodeId } := by
  unfold masterUpdateSchedule at h
  split at h
  · cases h
    exact ⟨_, _, _, master.queues, .refl _, .refl _, rfl⟩
  · obtain ⟨⟨nodes, scheduler, queues⟩, hnext, h⟩ := bind_eq_ok.mp h
    cases h
    obtain ⟨hsame, hlevels⟩ := schedulerUpdateAndCalcNextTxNodes_ok hnext
    exact ⟨_, _, _, queues, hsame, hlevels, rfl⟩

theorem shiftNewNodes_eq (i numNewNodes : Nat) (nw : NetworkManager) : ∃ newNodeUniqueId newNodeId,
    shiftNewNodes i numNewNodes nw = { nw with newNodeUniqueId, newNodeId } := by
  unfold shiftNewNodes
  generalize List.range' i (numNewNodes - 1 - i) = js
  induction js generalizing nw with
  | nil => exact ⟨_, _, rfl⟩
  | cons j js ih =>
      obtain ⟨newNodeUniqueId, newNodeId, heq⟩ := ih { nw with
        newNodeUniqueId := Function.update nw.newNodeUniqueId j (nw.newNodeUniqueId (j + 1))
        newNodeId := Function.update nw.newNodeId j (nw.newNodeId (j + 1)) }
      exact ⟨newNodeUniqueId, newNodeId, heq⟩

theorem networkManagerRemoveNewNodeRequest_ok {nw nw' : NetworkManager} {d : TNodeIndex} {b : Bool}
    (h : networkManagerRemoveNewNodeRequest nw d = .ok (b, nw')) :
    nw'.activeNodes = nw.activeNodes ∧ nw'.timeToLiveTimeUs = nw.timeToLiveTimeUs := by
  unfold networkManagerRemoveNewNodeRequest at h
  split at h
  · cases h
    exact ⟨rfl, rfl⟩
  · rename_i i _
    obtain ⟨_, -, h⟩ := bind_eq_ok.mp h
    cases h
    obtain ⟨_, _, heq⟩ := shiftNewNodes_eq i nw.numNewNodes nw
    rw [heq]
    exact ⟨rfl, rfl⟩

/-- The request of node `d` may have left the table of new nodes. -/
def NetworkManager.Answered (nw nw' : NetworkManager) (d : TNodeIndex) : Prop :=
  nw' = nw ∨ ∃ found, networkManagerRemoveNewNodeRequest nw d = .ok (found, nw')

theorem NetworkManager.Answered.activeNodes {nw nw' : NetworkManager} {d : TNodeIndex} (h : nw.Answered nw' d) :
    nw'.activeNodes = nw.activeNodes := by
  rcases h with rfl | ⟨found, h⟩
  · rfl
  · exact (networkManagerRemoveNewNodeRequest_ok h).1

theorem NetworkManager.Answered.timeToLiveTimeUs {nw nw' : NetworkManager} {d : TNodeIndex} (h : nw.Answered nw' d) :
    nw'.timeToLiveTimeUs = nw.timeToLiveTimeUs := by
  rcases h with rfl | ⟨found, h⟩
  · rfl
  · exact (networkManagerRemoveNewNodeRequest_ok h).2

/-- A node that is there is heard. -/
def Heard (ttl ttl' : TimeToLive) (src : TNodeIndex) : Prop :=
  ttl' = ttl ∨ (0 < ttl src ∧ ttl' = Function.update ttl src masterMaxTimeToLive)

theorem masterRecordHeard_ok {nw nw' : NetworkManager} {ttl ttl' : TimeToLive} {frame : Packet}
    (h : masterRecordHeard nw ttl frame = .ok (nw', ttl')) :
    nw.Answered nw' frame.srcNodeId ∧ Heard ttl ttl' frame.srcNodeId := by
  unfold masterRecordHeard at h
  split at h
  · obtain ⟨_, -, h⟩ := bind_eq_ok.mp h
    split at h
    · rename_i hpos
      unfold networkManagerRecordRxPacket at h
      obtain ⟨_, -, h⟩ := bind_eq_ok.mp h
      obtain ⟨⟨b, nw₁⟩, hremove, h⟩ := bind_eq_ok.mp h
      cases h
      exact ⟨Or.inr ⟨b, hremove⟩, Or.inr ⟨hpos, rfl⟩⟩
    · cases h
      exact ⟨Or.inl rfl, Or.inl rfl⟩
  · cases h
    exact ⟨Or.inl rfl, Or.inl rfl⟩

/-- What the quick part makes of `frame`, which arrived last: it is dropped, or kept for
`masterProcessRx` and another buffer takes the next frame; a data frame in order moves the sequence
number of its source. -/
inductive QuickRxResult (master : Master) (frame : Packet) (rxCrcError : Bool) : MasterRx → TxManager → Prop
  | dropped : (masterAcceptsFrame frame rxCrcError → findFreeRxPacket master.rx.rxPacketManager = none) →
      QuickRxResult master frame rxCrcError
        { master.rx with prevRxPacketEntry := some master.rx.nextRxPacketEntry, validRxPacket := false }
        master.tx.txManager
  | kept {free rxPacketManager validRxSeqNum} : masterAcceptsFrame frame rxCrcError →
      findFreeRxPacket master.rx.rxPacketManager = some (free, rxPacketManager) →
      (frame.getPacketType = some .nodeData → validRxSeqNum = false ∧
        frame.txSeqNum ≠ expectedSeqNum (master.tx.txManager.rxSeqNum frame.srcNodeId)) →
      QuickRxResult master frame rxCrcError
        ⟨rxPacketManager, free, some master.rx.nextRxPacketEntry, true, validRxSeqNum⟩ master.tx.txManager
  | inOrder {free rxPacketManager} : masterAcceptsFrame frame rxCrcError →
      findFreeRxPacket master.rx.rxPacketManager = some (free, rxPacketManager) →
      frame.getPacketType = some .nodeData →
      frame.txSeqNum = expectedSeqNum (master.tx.txManager.rxSeqNum frame.srcNodeId) →
      QuickRxResult master frame rxCrcError ⟨rxPacketManager, free, some master.rx.nextRxPacketEntry, true, true⟩
        (master.tx.txManager.withRxSeqNum
          (Function.update master.tx.txManager.rxSeqNum frame.srcNodeId frame.txSeqNum))

theorem masterQuickRx_ok {master master' : Master} {rxCrcError : Bool}
    (h : masterQuickRx master rxCrcError = .ok master') :
    ∃ rx nwManager masterNodeTimeToLive txManager,
      master' = { master with rx, nwManager, masterNodeTimeToLive, tx := { master.tx with txManager } } ∧
      master.nwManager.Answered nwManager (master.rx.packetAt master.rx.nextRxPacketEntry).srcNodeId ∧
      Heard master.masterNodeTimeToLive masterNodeTimeToLive
        (master.rx.packetAt master.rx.nextRxPacketEntry).srcNodeId ∧
      QuickRxResult master (master.rx.packetAt master.rx.nextRxPacketEntry) rxCrcError rx txManager := by
  obtain ⟨⟨rx, nw, m, ttl⟩, hquick, h⟩ := bind_eq_ok.mp h
  cases h
  refine ⟨rx, nw, ttl, m, rfl, ?_⟩
  unfold masterQuickProcessPrevRx at hquick
  dsimp only at hquick
  split at hquick
  · rename_i hreject
    cases hquick
    exact ⟨Or.inl rfl, Or.inl rfl, .dropped fun haccept => absurd haccept hreject⟩
  · rename_i haccept
    rw [not_not] at haccept
    obtain ⟨⟨nw₁, ttl₁⟩, hrecord, hquick⟩ := bind_eq_ok.mp hquick
    obtain ⟨hanswered, hheard⟩ := masterRecordHeard_ok hrecord
    dsimp only at hquick
    split at hquick
    · rename_i hfind
      cases hquick
      exact ⟨hanswered, hheard, .dropped fun _ => hfind⟩
    · rename_i e rpm hfind
      split at hquick
      · rename_i hdata
        obtain ⟨⟨valid, m₁⟩, hcheck, hquick⟩ := bind_eq_ok.mp hquick
        cases hquick
        refine ⟨hanswered, hheard, ?_⟩
        unfold rxPacketCheckAndUpdateSeqNum at hcheck
        obtain ⟨_, -, hcheck⟩ := bind_eq_ok.mp hcheck
        split at hcheck
        · rename_i hseq
          cases hcheck
          exact .inOrder haccept hfind hdata hseq
        · rename_i hseq
          cases hcheck
          exact .kept haccept hfind fun _ => ⟨rfl, hseq⟩
      · rename_i hdata
        cases hquick
        exact ⟨hanswered, hheard, .kept haccept hfind fun hc => absurd hc hdata⟩

theorem packetAt_findFree {rpm rpm' : RxPacketManager} {free : Nat} (h : findFreeRxPacket rpm = some (free, rpm'))
    (i : Nat) : (rpm'.rxPacketEntries i).packet = (rpm.rxPacketEntries i).packet := by
  obtain ⟨-, rfl⟩ := RxPacketManager.findFreeRxPacket_some h
  exact RxPacketManager.packet_setInUse _ _ _

/-- A new node takes the first free id, unless the table or the network is full or it is in the
table already. -/
theorem networkManagerRegisterNewNode_ok {nw nw' : NetworkManager} {ttl ttl' : TimeToLive} {uniqueId : UInt64}
    (h : networkManagerRegisterNewNode nw ttl uniqueId = .ok (nw', ttl')) :
    (nw' = nw ∧ ttl' = ttl) ∨ ∃ activeNodes, nw.numNewNodes ≠ maxNodesAllocatedAtOnce ∧
      (∀ i < nw.numNewNodes, nw.newNodeUniqueId i ≠ uniqueId) ∧ getNextFreeNodeId ttl ≠ invalidNodeId ∧
      nodeQueueAdd nw.activeNodes (getNextFreeNodeId ttl) = .ok activeNodes ∧
      nw' = { nw with
        newNodeUniqueId := Function.update nw.newNodeUniqueId nw.numNewNodes uniqueId
        newNodeId := Function.update nw.newNodeId nw.numNewNodes (getNextFreeNodeId ttl)
        numNewNodes := nw.numNewNodes + 1
        activeNodes } ∧
      ttl' = Function.update ttl (getNextFreeNodeId ttl) masterMaxTimeToLive := by
  unfold networkManagerRegisterNewNode at h
  obtain ⟨_, -, h⟩ := bind_eq_ok.mp h
  split at h
  · cases h
    exact Or.inl ⟨rfl, rfl⟩
  · rename_i hroom
    split at h
    · cases h
      exact Or.inl ⟨rfl, rfl⟩
    · rename_i hnew
      dsimp only at h
      split at h
      · cases h
        exact Or.inl ⟨rfl, rfl⟩
      · rename_i hid
        obtain ⟨activeNodes, hadd, h⟩ := bind_eq_ok.mp h
        cases h
        refine Or.inr ⟨activeNodes, hroom, ?_, hid, hadd, rfl, rfl⟩
        intro i hi heq
        exact hnew (List.any_eq_true.mpr ⟨i, List.mem_range.mpr hi, by rw [heq]; exact beq_self_eq_true _⟩)

theorem getNextFreeNodeId_free {ttl : TimeToLive} (h : getNextFreeNodeId ttl ≠ invalidNodeId) :
    firstNodeId ≤ (getNextFreeNodeId ttl).toNat ∧ (getNextFreeNodeId ttl).toNat < maxNodes ∧
      ttl (getNextFreeNodeId ttl) = 0 := by
  unfold getNextFreeNodeId at h ⊢
  split
  · rename_i k hfind
    have hk : firstNodeId ≤ k ∧ k < maxNodes := by
      have hmem := List.mem_of_find?_eq_some hfind
      rw [List.mem_range'_1] at hmem
      exact ⟨hmem.1, hmem.2⟩
    have hsmall : (UInt8.ofNat k).toNat = k := by
      have h64 : maxNodes = 64 := rfl
      rw [UInt8.toNat_ofNat', Nat.mod_eq_of_lt (by omega)]
    refine ⟨by rw [hsmall]; exact hk.1, by rw [hsmall]; exact hk.2, ?_⟩
    simpa using List.find?_some hfind
  · rename_i hnone
    rw [hnone] at h
    exact absurd rfl h

/-- What the long part does with frame `frame` of entry `e`: it takes the acknowledgement and queues
the data of a frame in order, or registers a node. A frame that is not queued is freed. -/
inductive RxFrameResult (master : Master) (e : Nat) (frame : Packet) :
    RxPacketManager → SchedulerState → TxManager → NodeQueue → NetworkManager → TimeToLive → Prop
  | ignored : frame.getPacketType ≠ some .nodeData →
      RxFrameResult master e frame (master.rx.rxPacketManager.setInUse e false) master.scheduler master.tx.txManager
        master.nodeTxNodes master.nwManager master.masterNodeTimeToLive
  | acked {k txManager} : (frame.getPacketType = some .nodeData → master.rx.validRxSeqNum = false) →
      rxAckSeqNum master.tx.txManager frame.srcNodeId frame.ackSeqNum true = .ok (k, txManager) →
      RxFrameResult master e frame (master.rx.rxPacketManager.setInUse e false) master.scheduler txManager
        master.nodeTxNodes master.nwManager master.masterNodeTimeToLive
  | stored {k rxPacketManager scheduler txManager nodeTxNodes} : frame.getPacketType = some .nodeData →
      master.rx.validRxSeqNum = true →
      rxAckSeqNum master.tx.txManager frame.srcNodeId frame.ackSeqNum true = .ok (k, txManager) →
      schedulerUpdateNodeTxBufferLevel master.scheduler master.nodeTxNodes frame.srcNodeId frame.bufferLevel =
        .ok (scheduler, nodeTxNodes) →
      addRxDataPacket master.rx.rxPacketManager e = .ok rxPacketManager →
      RxFrameResult master e frame rxPacketManager scheduler txManager nodeTxNodes master.nwManager
        master.masterNodeTimeToLive
  | registered {nwManager masterNodeTimeToLive} : frame.getPacketType = some .newNodeRequest →
      rxNewNodePacketRequest master.nwManager master.masterNodeTimeToLive frame = .ok
        (nwManager, masterNodeTimeToLive) →
      RxFrameResult master e frame (master.rx.rxPacketManager.setInUse e false)
        (newNodeHeardUpdateScheduler master.scheduler) master.tx.txManager master.nodeTxNodes nwManager
          masterNodeTimeToLive

theorem masterRx_ok {master master' : Master} {k : Nat} (h : masterRx master = .ok (k, master')) :
    (master.rx.validRxPacket = false ∧ master' = master) ∨
      ∃ e rxPacketManager scheduler txManager nodeTxNodes nwManager masterNodeTimeToLive,
        master.rx.validRxPacket = true ∧
        master.rx.prevRxPacketEntry = some e ∧
        master' = { master with
          rx := { master.rx with rxPacketManager, validRxPacket := false, validRxSeqNum := false }
          scheduler, nodeTxNodes, nwManager, masterNodeTimeToLive, tx := { master.tx with txManager } } ∧
        RxFrameResult master e (master.rx.packetAt e) rxPacketManager scheduler txManager nodeTxNodes nwManager
          masterNodeTimeToLive := by
  obtain ⟨⟨k', c⟩, hrx, h⟩ := bind_eq_ok.mp h
  cases h
  unfold masterProcessRx at hrx
  split at hrx
  · rename_i hvalid
    cases hrx
    exact Or.inl ⟨hvalid, rfl⟩
  · rename_i hvalid
    right
    have hvalid' : master.rx.validRxPacket = true := by
      rw [Bool.not_eq_false] at hvalid
      exact hvalid
    split at hrx
    · rename_i e hprev
      obtain ⟨⟨stored, k₁, c₁⟩, hpacket, hrx⟩ := bind_eq_ok.mp hrx
      cases hrx
      unfold masterProcessRxPacket at hpacket
      split at hpacket
      · rename_i hempty
        obtain ⟨⟨k₂, m⟩, hack, hpacket⟩ := bind_eq_ok.mp hpacket
        cases hpacket
        refine ⟨e, _, _, _, _, _, _, hvalid', hprev, rfl, .acked ?_ hack⟩
        intro hdata
        exact absurd (hempty.symm.trans hdata) (by decide)
      · rename_i hdata
        obtain ⟨⟨k₂, m⟩, hack, hpacket⟩ := bind_eq_ok.mp hpacket
        dsimp only at hpacket
        split at hpacket
        · rename_i hseq
          obtain ⟨_, -, hpacket⟩ := bind_eq_ok.mp hpacket
          obtain ⟨⟨scheduler, nodeTxNodes⟩, hlevel, hpacket⟩ := bind_eq_ok.mp hpacket
          obtain ⟨rpm, hadd, hpacket⟩ := bind_eq_ok.mp hpacket
          cases hpacket
          exact ⟨e, _, _, _, _, _, _, hvalid', hprev, rfl, .stored hdata hseq hack hlevel hadd⟩
        · rename_i hseq
          cases hpacket
          refine ⟨e, _, _, _, _, _, _, hvalid', hprev, rfl, .acked ?_ hack⟩
          intro _
          exact Bool.not_eq_true _ ▸ hseq
      · rename_i hrequest
        obtain ⟨⟨nw, ttl⟩, hregister, hpacket⟩ := bind_eq_ok.mp hpacket
        cases hpacket
        exact ⟨e, _, _, _, _, _, _, hvalid', hprev, rfl, .registered hrequest hregister⟩
      · rename_i hdata _
        cases hpacket
        exact ⟨e, _, _, _, _, _, _, hvalid', hprev, rfl, .ignored hdata⟩
    · cases hrx

def MasterTx.chosen (tx : MasterTx) : Option Nat :=
  match tx.nextTxPacket with
  | some (.entry i) => some i
  | _ => none

theorem masterTx_ok {master master' : Master} (h : masterTx master = .ok master') :
    ∃ tx, master' = { master with tx } ∧
      ((tx.txManager = master.tx.txManager ∧ tx.chosen = none) ∨
        masterGetNextTxDataPacket master.tx.txManager masterBurstSize = .ok (tx.chosen, tx.txManager)) := by
  obtain ⟨tx, htx, h⟩ := bind_eq_ok.mp h
  cases h
  refine ⟨tx, rfl, ?_⟩
  unfold masterProcessTx at htx
  split at htx
  · cases htx
    exact Or.inl ⟨rfl, rfl⟩
  · dsimp only at htx
    generalize (if master.tx.tmpPacketCycle + 1 ≥ 4 then 0 else master.tx.tmpPacketCycle + 1) = cycle at htx
    split at htx
    · cases htx
      exact Or.inl ⟨rfl, rfl⟩
    · obtain ⟨⟨r, m⟩, hget, htx⟩ := bind_eq_ok.mp htx
      right
      cases r with
      | none =>
          cases htx
          exact hget
      | some i =>
          obtain ⟨_, -, htx⟩ := bind_eq_ok.mp htx
          cases htx
          exact hget

theorem masterQuickTx_eq (master : Master) (stray : TNodeIndex → UInt8) :
    ∃ tx, masterQuickTx master stray = { master with tx } ∧
      (tx.txManager = master.tx.txManager ∨ ∃ i p, (master.tx.txManager.entry i).packet.SameMessage true p ∧
        tx.txManager = { master.tx.txManager with packetStore := master.tx.txManager.packetStore.setPacket i p }) := by
  refine ⟨_, rfl, ?_⟩
  unfold masterQuickUpdateTxPacket
  split
  · exact Or.inl rfl
  · rename_i r hr
    cases r with
    | entry i => exact Or.inr ⟨i, _, fillSchedule_sameMessage _ _ _ _ _, rfl⟩
    | tmpPacket => exact Or.inl rfl
    | tmpEmptyPacketHeader i => exact Or.inl rfl

theorem masterTxManagerRemoveNode_ok {m m' : TxManager} {d : TNodeIndex} {k : Nat}
    (h : masterTxManagerRemoveNode m d = .ok (k, m')) : d.toNat < m.maxTxNodes ∧
      m' = { m with
        activeTxNodes := m.activeTxNodes.map (nodeQueueRemoveIfExists · d)
        packetStore := m'.packetStore
        txSeqNumStart := Function.update m.txSeqNumStart d 0
        txSeqNumEnd := Function.update m.txSeqNumEnd d 0
        txSeqNumNext := Function.update m.txSeqNumNext d 0
        txSeqNumPauseCount := Function.update m.txSeqNumPauseCount d 0
        rxSeqNum := Function.update m.rxSeqNum d nullSequenceNum } ∧
      m.packetStore.Released m'.packetStore fun i => i < m.size ∧ (m.entry i).packet.dstNodeId = d := by
  unfold masterTxManagerRemoveNode at h
  obtain ⟨_, hd, h⟩ := bind_eq_ok.mp h
  cases h
  refine ⟨checkIndex_ok.mp hd, rfl, rfl, ?_, ?_⟩
  · intro i
    dsimp only
    split <;> rfl
  · intro i
    dsimp only [TxManager.size, TxManager.entry]
    split
    · rename_i hf
      exact ⟨fun hc => (by cases hc), fun hc => absurd ⟨hf.1, hf.2.1⟩ hc.2⟩
    · rename_i hf
      exact ⟨fun hu => ⟨hu, fun hc => hf ⟨hc.1, hc.2, hu⟩⟩, fun hc => hc.1⟩

theorem masterRemoveIfTimedOut_ok {master master' : Master} {d : TNodeIndex} {k : Nat}
    (h : masterRemoveIfTimedOut master d = .ok (k, master')) :
    (master.masterNodeTimeToLive d ≠ removeNodeTTL ∧ master' = master) ∨
      ∃ k₁ found nwManager txManager rxPacketManager, master.masterNodeTimeToLive d = removeNodeTTL ∧
        networkManagerRemoveNewNodeRequest master.nwManager d = .ok (found, nwManager) ∧
        masterTxManagerRemoveNode master.tx.txManager d = .ok (k₁, txManager) ∧
        rxManagerRemoveAllPackets master.rx.rxPacketManager d = .ok rxPacketManager ∧
        master' = { master with
          masterNodeTimeToLive := Function.update master.masterNodeTimeToLive d 0
          nwManager := { nwManager with activeNodes := nodeQueueRemoveIfExists nwManager.activeNodes d }
          nodeTxNodes := nodeQueueRemoveIfExists master.nodeTxNodes d
          tx := { master.tx with txManager }
          rx := { master.rx with rxPacketManager } } := by
  unfold masterRemoveIfTimedOut at h
  split at h
  · rename_i httl
    right
    obtain ⟨⟨b, nw⟩, hrequest, h⟩ := bind_eq_ok.mp h
    obtain ⟨⟨k₁, m⟩, hremove, h⟩ := bind_eq_ok.mp h
    obtain ⟨rpm, hrpm, h⟩ := bind_eq_ok.mp h
    cases h
    exact ⟨k, b, nw, m, rpm, httl, hrequest, hremove, hrpm, rfl⟩
  · rename_i httl
    cases h
    exact Or.inl ⟨httl, rfl⟩

/-- The loop runs a round for each id in turn. -/
theorem masterRemoveAnyTimeoutNodes_rounds {P : Nat → Master → Prop} {master master' : Master} {k : Nat}
    (hround : ∀ d : TNodeIndex, firstNodeId ≤ d.toNat → d.toNat < maxNodes → ∀ master k master',
      P d.toNat master →
      masterRemoveIfTimedOut master d = .ok (k, master') → P (d.toNat + 1) master')
    (h0 : P firstNodeId master) (h : masterRemoveAnyTimeoutNodes master = .ok (k, master')) : P maxNodes master' := by
  have hloop : ∀ (rounds first n : Nat) (master : Master), first + rounds = maxNodes → firstNodeId ≤ first →
      P first master → masterRemoveTimeoutLoop (List.range' first rounds) n master = .ok (k, master') →
      P maxNodes master' := by
    intro rounds
    induction rounds with
    | zero =>
        intro first n master hsum _ h0 h
        cases h
        rw [← hsum]
        exact h0
    | succ rounds ih =>
        intro first n master hsum hfirst h0 h
        rw [List.range'_succ] at h
        obtain ⟨⟨freed, master₁⟩, hone, h⟩ := bind_eq_ok.mp h
        have hlast : first < maxNodes := by omega
        have hsmall : (UInt8.ofNat first).toNat = first := by
          have h64 : maxNodes = 64 := rfl
          rw [UInt8.toNat_ofNat', Nat.mod_eq_of_lt (by omega)]
        refine ih (first + 1) _ _ (by omega) (Nat.le_succ_of_le hfirst) ?_ h
        have hafter := hround (UInt8.ofNat first) (by rw [hsmall]; exact hfirst) (by rw [hsmall]; exact hlast) master
          freed master₁ (by rw [hsmall]; exact h0) hone
        rw [hsmall] at hafter
        exact hafter
  exact hloop _ _ _ _ rfl (Nat.le_refl _) h0 h

/-- What every round of the loop keeps, the loop keeps. -/
theorem masterRemoveAnyTimeoutNodes_induction {P : Master → Prop} {master master' : Master} {k : Nat}
    (hround : ∀ d : TNodeIndex, firstNodeId ≤ d.toNat → d.toNat < maxNodes → ∀ master k master', P master →
      masterRemoveIfTimedOut master d = .ok (k, master') → P master')
    (h0 : P master) (h : masterRemoveAnyTimeoutNodes master = .ok (k, master')) : P master' :=
  masterRemoveAnyTimeoutNodes_rounds (P := fun _ => P) hround h0 h

/-- The timer neither frees an id nor takes one. -/
theorem decrementTimeToLive_zero (n : Nat) : decrementTimeToLive n = 0 ↔ n = 0 := by
  have hremove : removeNodeTTL ≠ 0 := by decide
  unfold decrementTimeToLive
  split
  · split <;> omega
  · exact Iff.rfl

theorem masterUpdateTimeUs_eq (master : Master) (usIncr : UInt32) :
    ∃ timeToLiveTimeUs masterNodeTimeToLive, masterUpdateTimeUs master usIncr =
        { master with nwManager := { master.nwManager with timeToLiveTimeUs }, masterNodeTimeToLive } ∧
      (masterNodeTimeToLive = master.masterNodeTimeToLive ∨
        ∀ k, masterNodeTimeToLive k = if firstNodeId ≤ k.toNat ∧ k.toNat < maxNodes then
          decrementTimeToLive (master.masterNodeTimeToLive k) else master.masterNodeTimeToLive k) := by
  unfold masterUpdateTimeUs
  unfold networkManagerUpdateTimeUs
  by_cases hfire : (master.nwManager.timeToLiveTimeUs + usIncr.toNat) % 2 ^ 32 ≥ timeToLiveUpdateTimeUs
  · simp only [hfire, if_true]
    exact ⟨_, _, rfl, Or.inr fun _ => rfl⟩
  · simp only [hfire, if_false]
    exact ⟨_, _, rfl, Or.inl rfl⟩

theorem peekLoop_ok {fuel : Nat} {rpm rpm' : RxPacketManager} {r : Option Nat}
    (h : peekLoop fuel rpm = .ok (r, rpm')) : rpm'.rxPacketEntries = rpm.rxPacketEntries := by
  induction fuel generalizing rpm with
  | zero => cases h
  | succ fuel ih =>
      unfold peekLoop at h
      split at h
      · cases h
        rfl
      · split at h
        · obtain ⟨rpm₁, hpop, h⟩ := bind_eq_ok.mp h
          unfold RxPacketManager.pop at hpop
          split at hpop
          · cases hpop
          · cases hpop
            have hrest := ih h
            exact hrest
        · cases h
          rfl

theorem masterPeek_ok {master master' : Master} {r : Option RxData}
    (h : masterPeekNextRxDataPacket master = .ok (r, master')) :
    ∃ rxPacketManager, master' = { master with rx := { master.rx with rxPacketManager } } ∧
      ∀ i, (rxPacketManager.rxPacketEntries i).packet = (master.rx.rxPacketManager.rxPacketEntries i).packet := by
  obtain ⟨⟨e, rpm⟩, hpeek, h⟩ := bind_eq_ok.mp h
  have hsame := peekLoop_ok hpeek
  refine ⟨rpm, ?_, fun i => by rw [hsame]⟩
  cases e with
  | none =>
      cases h
      rfl
  | some i =>
      cases h
      rfl

theorem popNextDataPacket_ok {rpm rpm' : RxPacketManager} (h : popNextDataPacket rpm = .ok rpm') :
    rpm'.maxRxPacketEntries = rpm.maxRxPacketEntries ∧
      ∀ i, (rpm'.rxPacketEntries i).packet = (rpm.rxPacketEntries i).packet := by
  unfold popNextDataPacket at h
  by_cases hempty : rpm.isEmpty
  · simp only [hempty, if_true] at h
    cases h
  · simp only [hempty, if_false] at h
    split at h
    · rename_i e he
      unfold RxPacketManager.pop at h
      split at h
      · cases h
      · cases h
        exact ⟨rfl, RxPacketManager.packet_setInUse e false⟩
    · cases h

theorem masterPop_ok {master master' : Master} (h : masterPopNextDataPacket master = .ok master') :
    ∃ rxPacketManager, master' = { master with rx := { master.rx with rxPacketManager } } ∧
      ∀ i, (rxPacketManager.rxPacketEntries i).packet = (master.rx.rxPacketManager.rxPacketEntries i).packet := by
  obtain ⟨rpm, hpop, h⟩ := bind_eq_ok.mp h
  cases h
  exact ⟨rpm, rfl, (popNextDataPacket_ok hpop).2⟩

theorem getConnectedNodesBitField_ok {master master' : Master} {bits : Nat → Bool}
    (h : getConnectedNodesBitField master = .ok (master', bits)) :
    master' = { master with masterNodeTimeToLive := Function.update master.masterNodeTimeToLive 0 1 } := by
  unfold getConnectedNodesBitField at h
  obtain ⟨_, -, h⟩ := bind_eq_ok.mp h
  cases h
  rfl

theorem preProcess_ok {master master' : Master} {crcError : Bool} {stray : TNodeIndex → UInt8} {frame : Option Packet}
    (h : masterDualChannelPipelinedPreProcess master crcError stray = .ok (master', frame)) :
    ∃ m₁ m₂, masterUpdateSchedule master = .ok m₁ ∧ masterQuickRx m₁ crcError = .ok m₂ ∧
      master' = masterQuickTx m₂ stray := by
  obtain ⟨m₁, h₁, h⟩ := bind_eq_ok.mp h
  obtain ⟨m₂, h₂, h⟩ := bind_eq_ok.mp h
  cases h
  exact ⟨m₁, m₂, h₁, h₂, rfl⟩

theorem postProcess_ok {master master' : Master} {k : Nat}
    (h : masterDualChannelPipelinedPostProcess master = .ok (k, master')) :
    ∃ m₁ m₂ k₁ k₂, masterRx master = .ok (k₁, m₁) ∧ masterTx m₁ = .ok m₂ ∧
      masterRemoveAnyTimeoutNodes m₂ = .ok (k₂, master') := by
  obtain ⟨⟨k₁, m₁⟩, h₁, h⟩ := bind_eq_ok.mp h
  obtain ⟨m₂, h₂, h⟩ := bind_eq_ok.mp h
  obtain ⟨⟨k₂, m₃⟩, h₃, h⟩ := bind_eq_ok.mp h
  cases h
  exact ⟨m₁, m₂, k₁, k₂, h₁, h₂, h₃⟩

theorem processRx_ok {master master' : Master} {crcError : Bool} {k : Nat}
    (h : masterNoDelaySingleChannelProcessRx master crcError = .ok (k, master')) :
    ∃ m₁ m₂, masterUpdateSchedule master = .ok m₁ ∧ masterQuickRx m₁ crcError = .ok m₂ ∧
      masterRx m₂ = .ok (k, master') := by
  obtain ⟨m₁, h₁, h⟩ := bind_eq_ok.mp h
  obtain ⟨m₂, h₂, h⟩ := bind_eq_ok.mp h
  exact ⟨m₁, m₂, h₁, h₂, h⟩

theorem processTx_ok {master master' : Master} {stray : TNodeIndex → UInt8} {frame : Option Packet} {k : Nat}
    (h : masterNoDelaySingleChannelProcessTx master stray = .ok (k, master', frame)) :
    ∃ m₁ m₂, masterTx master = .ok m₁ ∧ masterUpdateSchedule m₁ = .ok m₂ ∧
      masterRemoveAnyTimeoutNodes (masterQuickTx m₂ stray) = .ok (k, master') := by
  obtain ⟨m₁, h₁, h⟩ := bind_eq_ok.mp h
  obtain ⟨m₂, h₂, h⟩ := bind_eq_ok.mp h
  obtain ⟨⟨k₁, m₃⟩, h₃, h⟩ := bind_eq_ok.mp h
  cases h
  exact ⟨m₁, m₂, h₁, h₂, h₃⟩

end Microbus
