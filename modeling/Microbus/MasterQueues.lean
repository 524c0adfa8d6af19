import Microbus.SchedulerRun
import Microbus.Schedule

/-! The queues of the scheduler in the runs of a master: their members have an entry in the tables. -/
namespace Microbus

open Transition

/-- Every member is there once and has an entry in the tables. -/
structure NodeQueue.InTable (q : NodeQueue) : Prop where
  wellFormed : q.WellFormed
  small : ∀ d ∈ q.toList, d.toNat < maxNodes

structure SchedulerQueues.InTable (queues : SchedulerQueues) : Prop where
  activeNodes : queues.activeNodes.InTable
  activeTxNodes : ∀ queue, queues.activeTxNodes = some queue → queue.InTable
  nodeTxNodes : queues.nodeTxNodes.InTable

namespace NodeQueue.InTable

variable {q q' : NodeQueue} {d : TNodeIndex}

theorem add (h : q.InTable) (hd : d.toNat < maxNodes) (hadd : nodeQueueAdd q d = .ok q') : q'.InTable := by
  refine ⟨h.wellFormed.add hadd, ?_⟩
  obtain ⟨hlist, -⟩ := nodeQueueAdd_ok hadd
  intro e he
  rw [hlist] at he
  split at he
  · exact h.small e he
  · rcases List.mem_append.mp he with he | he
    · exact h.small e he
    · exact List.mem_singleton.mp he ▸ hd

theorem removeIfExists (h : q.InTable) (d : TNodeIndex) : (nodeQueueRemoveIfExists q d).InTable := by
  refine ⟨h.wellFormed.removeIfExists d, fun e he => ?_⟩
  rw [toList_removeIfExists] at he
  exact h.small e (List.mem_of_mem_erase he)

theorem remove (h : q.InTable) (hr : nodeQueueRemove q d = .ok q') : q'.InTable :=
  nodeQueueRemove_ok hr ▸ h.removeIfExists d

end NodeQueue.InTable

theorem emptyQueue_inTable : NodeQueue.empty.InTable :=
  ⟨⟨List.nodup_nil, Or.inr rfl⟩, by simp⟩

namespace SchedulerQueues.InTable

variable {queues queues' : SchedulerQueues}

theorem wellFormed (h : queues.InTable) : queues.WellFormed :=
  ⟨h.activeNodes.wellFormed, fun queue hqueue => (h.activeTxNodes queue hqueue).wellFormed,
    h.nodeTxNodes.wellFormed⟩

theorem moved (h : queues.InTable) (hwf : queues'.WellFormed) (hsame : queues.SameLists queues') : queues'.InTable where
  activeNodes := ⟨hwf.activeNodes, hsame.activeNodes ▸ h.activeNodes.small⟩
  activeTxNodes queue hqueue :=
    ⟨hwf.activeTxNodes queue hqueue, hsame.forall_activeTxNodes
      (fun q hq => (h.activeTxNodes q hq).small) queue hqueue⟩
  nodeTxNodes := ⟨hwf.nodeTxNodes, hsame.nodeTxNodes ▸ h.nodeTxNodes.small⟩

end SchedulerQueues.InTable

theorem schedulerUpdate_wellFormed {scheduler scheduler' : SchedulerState} {queues queues' : SchedulerQueues}
    {nodes nodes' : Nat → TNodeIndex} {level : Nat} (hwf : queues.WellFormed)
    (h : schedulerUpdateAndCalcNextTxNodes scheduler queues nodes level = .ok (nodes', scheduler', queues')) :
    queues'.WellFormed := by
  have hnext : ∀ {level node scheduler' queues'},
      scheduleNextNode scheduler queues level = .ok (node, scheduler', queues') → queues'.WellFormed := by
    intro level node scheduler' queues' hn
    obtain ⟨node₁, scheduler₁, queues₁, hn₁, hwf₁⟩ := hwf.scheduleNextNode level scheduler
    rw [hn] at hn₁
    cases hn₁
    exact hwf₁
  unfold schedulerUpdateAndCalcNextTxNodes at h
  split at h
  · obtain ⟨_, hn, h⟩ := bind_eq_ok.mp h
    cases h
    exact hnext hn
  · dsimp only at h
    split at h
    · obtain ⟨_, hn, h⟩ := bind_eq_ok.mp h
      cases h
      exact hnext hn
    · cases h
      exact hwf

/-- The queues that lie in the managers and in the master are such queues. -/
def Master.QueuesInTable (master : Master) : Prop := master.queues.InTable

section Parts

variable {master master' : Master}

theorem Master.QueuesInTable.congr (h : master.QueuesInTable)
    (hactive : master'.nwManager.activeNodes = master.nwManager.activeNodes)
    (htx : master'.tx.txManager.activeTxNodes = master.tx.txManager.activeTxNodes)
    (hnode : master'.nodeTxNodes = master.nodeTxNodes) : master'.QueuesInTable where
  activeNodes := (congrArg NodeQueue.InTable hactive).mpr h.activeNodes
  activeTxNodes queue hqueue := h.activeTxNodes queue (htx.symm.trans hqueue)
  nodeTxNodes := (congrArg NodeQueue.InTable hnode).mpr h.nodeTxNodes

theorem rxAckSeqNum_queue {m m' : TxManager} {d : TNodeIndex} {a : UInt8} {isMaster : Bool} {n : Nat}
    (h : rxAckSeqNum m d a isMaster = .ok (n, m')) :
    m'.activeTxNodes = m.activeTxNodes ∨ ∃ queue queue', m.activeTxNodes = some queue ∧
      nodeQueueRemove queue d = .ok queue' ∧ m'.activeTxNodes = some queue' := by
  unfold rxAckSeqNum at h
  split at h
  · cases h
    exact Or.inl rfl
  · obtain ⟨_, -, h⟩ := bind_eq_ok.mp h
    dsimp only at h
    split at h
    · obtain ⟨⟨n₁, m₁⟩, hloop, h⟩ := bind_eq_ok.mp h
      obtain ⟨store, next, rfl, -⟩ := freeAckedPackets_tables hloop
      dsimp only at h
      split at h
      · split at h
        · cases h
        · rename_i queue hqueue
          obtain ⟨queue', hremove, h⟩ := bind_eq_ok.mp h
          cases h
          exact Or.inr ⟨queue, queue', hqueue, hremove, rfl⟩
      · cases h
        exact Or.inl rfl
    · split at h
      · split at h
        · cases h
          exact Or.inl rfl
        · cases h
          exact Or.inl rfl
      · cases h
        exact Or.inl rfl

theorem schedulerUpdateNodeTxBufferLevel_queue {scheduler scheduler' : SchedulerState} {q q' : NodeQueue}
    {src : TNodeIndex}
    {level : UInt8} (h : schedulerUpdateNodeTxBufferLevel scheduler q src level = .ok (scheduler', q'))
    (hq : q.InTable) :
    q'.InTable := by
  unfold schedulerUpdateNodeTxBufferLevel at h
  obtain ⟨_, hsrc, h⟩ := bind_eq_ok.mp h
  have hsmall := checkIndex_ok.mp hsrc
  dsimp only at h
  split at h
  · obtain ⟨q₁, hadd, h⟩ := bind_eq_ok.mp h
    cases h
    exact hq.add hsmall hadd
  · split at h
    · obtain ⟨q₁, hremove, h⟩ := bind_eq_ok.mp h
      cases h
      exact hq.remove hremove
    · cases h
      exact hq

theorem registerNewNode_queue {nw nw' : NetworkManager} {ttl ttl' : TimeToLive} {uniqueId : UInt64}
    (h : networkManagerRegisterNewNode nw ttl uniqueId = .ok (nw', ttl')) (hq : nw.activeNodes.InTable) :
    nw'.activeNodes.InTable := by
  rcases networkManagerRegisterNewNode_ok h with ⟨rfl, -⟩ | ⟨active, -, -, hid, hadd, rfl, -⟩
  · exact hq
  · exact hq.add (getNextFreeNodeId_free hid).2.1 hadd

theorem ackedQueue_inTable {m m' : TxManager} {d : TNodeIndex} {a : UInt8} {n : Nat}
    (h : rxAckSeqNum m d a true = .ok (n, m')) (hq : ∀ queue, m.activeTxNodes = some queue → queue.InTable) :
    ∀ queue, m'.activeTxNodes = some queue → queue.InTable := by
  rcases rxAckSeqNum_queue h with hsame | ⟨queue, queue', hqueue, hremove, hqueue'⟩
  · exact hsame ▸ hq
  · intro q hq'
    rw [hqueue'] at hq'
    cases hq'
    exact (hq queue hqueue).remove hremove

theorem submit_queue {m m' : TxManager} {ttl : Nat} {src dst : TNodeIndex} {type : PacketType} {size : UInt16}
    (h : submitAllocatedTxPacket m true ttl src dst type size = .ok m')
    (hq : ∀ queue, m.activeTxNodes = some queue → queue.InTable) : ∀ queue, m'.activeTxNodes = some queue →
    queue.InTable := by
  rcases submitAllocatedTxPacket_ok h with ⟨-, -, rfl⟩ | ⟨i, q, -, -, -, hdst, -, hadd, rfl⟩
  · exact hq
  · change ∀ queue, q = some queue → queue.InTable
    unfold addActiveTxNode at hadd
    split at hadd
    · split at hadd
      · cases hadd
      · rename_i queue hqueue
        obtain ⟨queue', hqueue', hadd⟩ := bind_eq_ok.mp hadd
        cases hadd
        rintro _ ⟨⟩
        exact (hq queue hqueue).add hdst hqueue'
    · cases hadd
      exact hq

theorem Master.QueuesInTable.call (h : master.QueuesInTable) {call : MasterCall} (hc : master.call call = .ok master') :
    master'.QueuesInTable := by
  cases call with
  | allocate =>
      obtain ⟨⟨r, m⟩, halloc, hc⟩ := bind_eq_ok.mp hc
      obtain ⟨⟨r', tm⟩, hone, halloc⟩ := bind_eq_ok.mp halloc
      cases halloc
      cases hc
      have hqueue : tm.activeTxNodes = master.tx.txManager.activeTxNodes := by
        rcases allocateTxPacket_ok hone with ⟨-, rfl⟩ | ⟨i, -, -, ⟨-, rfl, -⟩ | ⟨-, rfl⟩⟩ <;> rfl
      exact h.congr rfl hqueue rfl
  | write data =>
      cases hc
      exact h.congr rfl (activeTxNodes_write _ data) rfl
  | submit dst numBytes =>
      obtain ⟨-, -, tm, hsubmit, rfl⟩ := masterSubmit_ok hc
      exact ⟨h.activeNodes, submit_queue hsubmit h.activeTxNodes, h.nodeTxNodes⟩
  | peek =>
      obtain ⟨⟨r, m⟩, hpeek, hc⟩ := bind_eq_ok.mp hc
      obtain ⟨rpm, rfl, -⟩ := masterPeek_ok hpeek
      cases hc
      exact h.congr rfl rfl rfl
  | pop =>
      obtain ⟨rpm, rfl, -⟩ := masterPop_ok hc
      exact h.congr rfl rfl rfl
  | getConnectedNodes =>
      obtain ⟨⟨m, bits⟩, hget, hc⟩ := bind_eq_ok.mp hc
      obtain rfl := getConnectedNodesBitField_ok hget
      cases hc
      exact h.congr rfl rfl rfl
  | resetTxCredits =>
      cases hc
      exact h.congr rfl rfl rfl

theorem Master.QueuesInTable.rx (h : master.QueuesInTable) {k : Nat} (hr : masterRx master = .ok (k, master')) :
    master'.QueuesInTable := by
  rcases masterRx_ok hr with ⟨-, rfl⟩ | ⟨_, _, _, _, _, _, _, -, -, rfl, hresult⟩
  · exact h
  · cases hresult with
    | ignored _ => exact h.congr rfl rfl rfl
    | acked _ hack => exact ⟨h.activeNodes, ackedQueue_inTable hack h.activeTxNodes, h.nodeTxNodes⟩
    | stored _ _ hack hlevel _ =>
        exact ⟨h.activeNodes, ackedQueue_inTable hack h.activeTxNodes,
          schedulerUpdateNodeTxBufferLevel_queue hlevel h.nodeTxNodes⟩
    | registered _ hrequest =>
        obtain ⟨_, -, hrequest⟩ := bind_eq_ok.mp hrequest
        obtain ⟨uniqueId, -, hregister⟩ := bind_eq_ok.mp hrequest
        exact ⟨registerNewNode_queue hregister h.activeNodes, h.activeTxNodes, h.nodeTxNodes⟩

theorem Master.QueuesInTable.removeIfTimedOut (h : master.QueuesInTable) {d : TNodeIndex} {k : Nat}
    (hr : masterRemoveIfTimedOut master d = .ok (k, master')) : master'.QueuesInTable := by
  rcases masterRemoveIfTimedOut_ok hr with ⟨-, rfl⟩ | ⟨_, _, nw, m, _, -, hrequest, hremove, -, rfl⟩
  · exact h
  · have hactive := (networkManagerRemoveNewNodeRequest_ok hrequest).1
    have hqueue : m.activeTxNodes = master.tx.txManager.activeTxNodes.map (nodeQueueRemoveIfExists · d) :=
      congrArg TxManager.activeTxNodes (masterTxManagerRemoveNode_ok hremove).2.1
    refine ⟨?_, fun queue hsome => ?_, h.nodeTxNodes.removeIfExists d⟩
    · exact NodeQueue.InTable.removeIfExists (hactive ▸ h.activeNodes) d
    · obtain ⟨old, hold, rfl⟩ := Option.map_eq_some_iff.mp (hqueue.symm.trans hsome)
      exact (h.activeTxNodes old hold).removeIfExists d

theorem Master.QueuesInTable.updateSchedule (h : master.QueuesInTable)
    (hs : masterUpdateSchedule master = .ok master') :
    master'.QueuesInTable := by
  unfold masterUpdateSchedule at hs
  split at hs
  · cases hs
    exact h.congr rfl rfl rfl
  · obtain ⟨⟨nodes, scheduler, queues⟩, hnext, hs⟩ := bind_eq_ok.mp hs
    cases hs
    have hqueues : master.queues.InTable := h
    exact hqueues.moved (schedulerUpdate_wellFormed h.wellFormed hnext) (schedulerUpdateAndCalcNextTxNodes_ok hnext).1

end Parts

theorem keptByParts_queuesInTable : KeptByParts Master.QueuesInTable where
  receive h frame := h.congr rfl rfl rfl
  updateSchedule h hs := h.updateSchedule hs
  quickRx h hs := by
    obtain ⟨rx, nw, ttl, m, rfl, hanswered, -, hresult⟩ := masterQuickRx_ok hs
    refine h.congr hanswered.activeNodes ?_ rfl
    cases hresult <;> rfl
  rx h hs := h.rx hs
  tx h hs := by
    obtain ⟨tx, rfl, ⟨htx, -⟩ | hget⟩ := masterTx_ok hs
    · exact h.congr rfl (congrArg TxManager.activeTxNodes htx) rfl
    · exact h.congr rfl (masterGetNext_tables hget).1 rfl
  quickTx {master} h stray := by
    obtain ⟨tx, heq, htx⟩ := masterQuickTx_eq master stray
    rw [heq]
    rcases htx with htx | ⟨i, p, -, htx⟩
    · exact h.congr rfl (congrArg TxManager.activeTxNodes htx) rfl
    · refine h.congr rfl ?_ rfl
      dsimp only
      rw [htx]
  removeIfTimedOut _ h hs := h.removeIfTimedOut hs
  updateTimeUs {master} h usIncr := by
    obtain ⟨us, ttl, heq, -⟩ := masterUpdateTimeUs_eq master usIncr
    rw [heq]
    exact h.congr rfl rfl rfl
  call h hc := h.call hc

end Microbus
