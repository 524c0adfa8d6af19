import Microbus.MasterRun

/-! What the master remembers of an id that no node holds. -/
namespace Microbus

open Transition

/-- The active destinations in the order of the queue. -/
def TxManager.activeList (m : TxManager) : List TNodeIndex := (m.activeTxNodes.map NodeQueue.toList).getD []

/-- The counters of destination `k` are the same. -/
structure TxManager.SameTables (m m' : TxManager) (k : TNodeIndex) : Prop where
  start : m'.txSeqNumStart k = m.txSeqNumStart k
  stop : m'.txSeqNumEnd k = m.txSeqNumEnd k
  next : m'.txSeqNumNext k = m.txSeqNumNext k
  pauseCount : m'.txSeqNumPauseCount k = m.txSeqNumPauseCount k
  rxSeqNum : m'.rxSeqNum k = m.rxSeqNum k

theorem TxManager.SameTables.refl (m : TxManager) (k : TNodeIndex) : m.SameTables m k := ⟨rfl, rfl, rfl, rfl, rfl⟩

theorem activeList_erase (m : TxManager) (d : TNodeIndex) :
    ({ m with activeTxNodes := m.activeTxNodes.map (nodeQueueRemoveIfExists · d) } : TxManager).activeList =
      m.activeList.erase d := by
  unfold TxManager.activeList
  cases m.activeTxNodes with
  | none => rfl
  | some q => exact toList_removeIfExists q d

theorem nodup_nodeQueueAdd {q q' : NodeQueue} {d : TNodeIndex} (h : nodeQueueAdd q d = .ok q') (hq : q.toList.Nodup) :
    q'.toList.Nodup ∧ ∀ k, k ≠ d → (k ∈ q'.toList → k ∈ q.toList) := by
  obtain ⟨hlist, -⟩ := nodeQueueAdd_ok h
  rw [hlist]
  by_cases hd : d ∈ q.toList
  · rw [if_pos hd]
    exact ⟨hq, fun _ _ => id⟩
  · rw [if_neg hd]
    constructor
    · exact List.nodup_append.mpr ⟨hq, List.nodup_singleton d,
        fun x hx y hy hxy => hd (by rw [← List.mem_singleton.mp hy, ← hxy]; exact hx)⟩
    · intro k hk hmem
      rcases List.mem_append.mp hmem with hmem | hmem
      · exact hmem
      · exact absurd (List.mem_singleton.mp hmem) hk

theorem nodup_removeIfExists {q : NodeQueue} (d : TNodeIndex) (hq : q.toList.Nodup) :
    (nodeQueueRemoveIfExists q d).toList.Nodup ∧ ∀ k, k ∈ (nodeQueueRemoveIfExists q d).toList ↔ k ≠ d ∧
      k ∈ q.toList := by
  rw [toList_removeIfExists]
  exact ⟨hq.erase d, fun _ => hq.mem_erase_iff⟩

theorem freeAckedPackets_tables {m m' : TxManager} {d : TNodeIndex} {newStart : UInt8} {isMaster : Bool}
    {fuel count n : Nat} {seqNum : UInt8} (h : freeAckedPackets d newStart isMaster fuel seqNum count m = .ok (n, m')) :
    ∃ store next, m' = { m with packetStore := store, txSeqNumNext := next } ∧
      ∀ k, k ≠ d → next k = m.txSeqNumNext k := by
  induction fuel generalizing m seqNum count with
  | zero => cases h
  | succ fuel ih =>
      unfold freeAckedPackets at h
      split at h
      · obtain ⟨store, -, h⟩ := bind_eq_ok.mp h
        obtain ⟨store', next, rfl, hnext⟩ := ih h
        refine ⟨store', next, rfl, ?_⟩
        intro k hk
        rw [hnext k hk]
        dsimp only
        split
        · exact Function.update_of_ne hk _ _
        · rfl
      · cases h
        exact ⟨_, _, rfl, fun _ _ => rfl⟩

/-- An acknowledgement changes the counters of its source only, and none that are all zero. -/
theorem rxAckSeqNum_tables {m m' : TxManager} {d : TNodeIndex} {a : UInt8} {isMaster : Bool} {n : Nat}
    (h : rxAckSeqNum m d a isMaster = .ok (n, m')) :
    (∀ k, k ≠ d → m.SameTables m' k) ∧ m'.rxSeqNum = m.rxSeqNum ∧
      (m'.activeList = m.activeList ∨ m'.activeList = m.activeList.erase d) ∧
      (m.txSeqNumStart d = 0 → m.txSeqNumEnd d = 0 → m.txSeqNumPauseCount d = 0 → m' = m) := by
  have hone : ∀ (f : TNodeIndex → UInt8) v k, k ≠ d → Function.update f d v k = f k :=
    fun f v k hk => Function.update_of_ne hk v f
  have hcount : ∀ (f : TNodeIndex → Nat) v k, k ≠ d → Function.update f d v k = f k :=
    fun f v k hk => Function.update_of_ne hk v f
  unfold rxAckSeqNum at h
  split at h
  · cases h
    exact ⟨fun k _ => .refl _ k, rfl, Or.inl rfl, fun _ _ _ => rfl⟩
  · obtain ⟨_, -, h⟩ := bind_eq_ok.mp h
    dsimp only at h
    split at h
    · rename_i hvalid
      have hzero : m.txSeqNumStart d = 0 → m.txSeqNumEnd d = 0 → m.txSeqNumPauseCount d = 0 → m' = m := by
        intro hs he _
        rw [hs, he] at hvalid
        unfold validAckSeqNum at hvalid
        simp at hvalid
      obtain ⟨⟨n₁, m₁⟩, hloop, h⟩ := bind_eq_ok.mp h
      obtain ⟨store, next, rfl, hnext⟩ := freeAckedPackets_tables hloop
      dsimp only at h
      split at h
      · split at h
        · cases h
        · rename_i queue hqueue
          obtain ⟨queue', hremove, h⟩ := bind_eq_ok.mp h
          cases h
          obtain rfl := nodeQueueRemove_ok hremove
          refine ⟨fun k hk => ⟨hone _ _ k hk, rfl, hnext k hk, hcount _ _ k hk, rfl⟩, rfl, Or.inr ?_, hzero⟩
          have hqueue' : m.activeTxNodes = some queue := hqueue
          unfold TxManager.activeList
          rw [hqueue']
          exact toList_removeIfExists queue d
      · cases h
        exact ⟨fun k hk => ⟨hone _ _ k hk, rfl, hnext k hk, hcount _ _ k hk, rfl⟩, rfl, Or.inl rfl, hzero⟩
    · split at h
      · rename_i hpause
        have hzero : m.txSeqNumStart d = 0 → m.txSeqNumEnd d = 0 → m.txSeqNumPauseCount d = 0 → m' = m :=
          fun _ _ hp => absurd hpause (by rw [hp]; exact Nat.lt_irrefl 0)
        split at h
        · cases h
          exact ⟨fun k hk => ⟨rfl, rfl, hone _ _ k hk, hcount _ _ k hk, rfl⟩, rfl, Or.inl rfl, hzero⟩
        · cases h
          exact ⟨fun k hk => ⟨rfl, rfl, rfl, hcount _ _ k hk, rfl⟩, rfl, Or.inl rfl, hzero⟩
      · cases h
        exact ⟨fun k _ => .refl _ k, rfl, Or.inl rfl, fun _ _ _ => rfl⟩

theorem masterGetNext_tables {m m' : TxManager} {burstSize : Nat} {r : Option Nat}
    (h : masterGetNextTxDataPacket m burstSize = .ok (r, m')) :
    m'.activeTxNodes = m.activeTxNodes ∧ ∀ k, k ∉ m.activeList → m.SameTables m' k := by
  obtain ⟨queue, hqueue, hround⟩ := masterGetNextTxDataPacket_ok h
  have hlist : m.activeList = queue.toList := by
    unfold TxManager.activeList
    rw [hqueue]
    rfl
  refine ⟨hround.activeTxNodes, ?_⟩
  intro k hk
  rw [hlist] at hk
  obtain ⟨p, i, c, hp, hcase⟩ := hround
  have hpause : p k = m.txSeqNumPauseCount k := by
    rcases hp k with hp | ⟨-, hmem, -⟩
    · exact hp
    · exact absurd hmem hk
  rcases hcase with ⟨-, rfl⟩ | ⟨d, e, hd, -, -, -, -, -, rfl⟩
  · exact ⟨rfl, rfl, rfl, hpause, rfl⟩
  · have hkd : k ≠ d := fun hc => hk (hc ▸ hd)
    exact ⟨rfl, rfl, Function.update_of_ne hkd _ _, hpause, rfl⟩

theorem masterTxManagerRemoveNode_tables {m m' : TxManager} {d : TNodeIndex} {n : Nat}
    (h : masterTxManagerRemoveNode m d = .ok (n, m')) :
    m'.rxSeqNum d = nullSequenceNum ∧ m'.txSeqNumStart d = 0 ∧ m'.txSeqNumEnd d = 0 ∧ m'.txSeqNumNext d = 0 ∧
      m'.txSeqNumPauseCount d = 0 ∧ (∀ k, k ≠ d → m.SameTables m' k) ∧
        m'.activeList = m.activeList.erase d := by
  obtain ⟨-, hm, -⟩ := masterTxManagerRemoveNode_ok h
  rw [hm]
  refine ⟨Function.update_self _ _ _, Function.update_self _ _ _, Function.update_self _ _ _,
    Function.update_self _ _ _,
    Function.update_self _ _ _, fun k hk => ?_, activeList_erase m d⟩
  exact ⟨Function.update_of_ne hk _ _, Function.update_of_ne hk _ _, Function.update_of_ne hk _ _,
    Function.update_of_ne hk _ _, Function.update_of_ne hk _ _⟩

/-- An id that nodes are given. -/
def Station (k : TNodeIndex) : Prop := firstNodeId ≤ k.toNat ∧ k.toNat < maxNodes

instance (k : TNodeIndex) : Decidable (Station k) := inferInstanceAs (Decidable (_ ∧ _))

/-- Nothing is left of an earlier owner of id `k`. -/
structure Master.Clean (master : Master) (k : TNodeIndex) : Prop where
  rxSeqNum : master.tx.txManager.rxSeqNum k = nullSequenceNum
  start : master.tx.txManager.txSeqNumStart k = 0
  stop : master.tx.txManager.txSeqNumEnd k = 0
  next : master.tx.txManager.txSeqNumNext k = 0
  pauseCount : master.tx.txManager.txSeqNumPauseCount k = 0
  activeNodes : k ∉ master.nwManager.activeNodes.toList
  activeTxNodes : k ∉ master.tx.txManager.activeList
  nodeTxNodes : k ∉ master.nodeTxNodes.toList

/-- A frame waits to be queued when `masterProcessRx` runs. -/
structure MasterRx.HasPending (rx : MasterRx) (frame : Packet) : Prop where
  valid : rx.validRxPacket = true
  inOrder : rx.validRxSeqNum = true
  packet : ∃ e, rx.prevRxPacketEntry = some e ∧ rx.packetAt e = frame
  data : frame.getPacketType = some .nodeData

structure CleanInv (master : Master) : Prop where
  activeNodes : master.nwManager.activeNodes.toList.Nodup
  activeTxNodes : master.tx.txManager.activeList.Nodup
  nodeTxNodes : master.nodeTxNodes.toList.Nodup
  clean : ∀ k, Station k → master.masterNodeTimeToLive k = 0 → master.Clean k

/-- The source of a frame that waits is still there. -/
def Master.PendingOk (master : Master) : Prop :=
  ∀ frame, master.rx.HasPending frame → Station frame.srcNodeId →
    master.masterNodeTimeToLive frame.srcNodeId ≠ 0

theorem Master.pendingOk_of_invalid {master : Master} (h : master.rx.validRxPacket = false) : master.PendingOk := by
  intro frame hp
  exact absurd hp.valid (by rw [h]; exact Bool.noConfusion)

theorem Master.PendingOk.congr {master master' : Master} (h : master.PendingOk)
    (hpending : ∀ frame, master'.rx.HasPending frame → master.rx.HasPending frame)
    (httl : ∀ k, Station k → (master'.masterNodeTimeToLive k = 0 ↔ master.masterNodeTimeToLive k = 0)) :
    master'.PendingOk :=
  fun frame hp hs hz => h frame (hpending frame hp) hs ((httl _ hs).mp hz)

/-- An accepted data frame that carries the first sequence number comes, while there is a buffer
for it, from an id that no node holds. -/
structure Master.TakesStranger (master : Master) (frame : Packet) (crcError : Bool) : Prop where
  accepted : masterAcceptsFrame frame crcError
  data : frame.getPacketType = some .nodeData
  first : frame.txSeqNum = 0
  station : Station frame.srcNodeId
  stranger : master.masterNodeTimeToLive frame.srcNodeId = 0
  freeBuffer : (findFreeRxPacket master.rx.rxPacketManager).isSome

instance (master : Master) (frame : Packet) (crcError : Bool) : Decidable (master.TakesStranger frame crcError) :=
  decidable_of_iff (masterAcceptsFrame frame crcError ∧ frame.getPacketType = some .nodeData ∧
    frame.txSeqNum = 0 ∧
      Station frame.srcNodeId ∧ master.masterNodeTimeToLive frame.srcNodeId = 0 ∧
      (findFreeRxPacket master.rx.rxPacketManager).isSome)
    ⟨fun ⟨h₁, h₂, h₃, h₄, h₅, h₆⟩ => ⟨h₁, h₂, h₃, h₄, h₅, h₆⟩,
      fun h => ⟨h.accepted, h.data, h.first, h.station, h.stranger, h.freeBuffer⟩⟩

theorem Master.Clean.congr {master master' : Master} {k : TNodeIndex} (h : master.Clean k)
    (ht : master.tx.txManager.SameTables master'.tx.txManager k)
    (hactive : k ∉ master.nwManager.activeNodes.toList → k ∉ master'.nwManager.activeNodes.toList)
    (htx : k ∉ master.tx.txManager.activeList → k ∉ master'.tx.txManager.activeList)
    (hnode : k ∉ master.nodeTxNodes.toList → k ∉ master'.nodeTxNodes.toList) : master'.Clean k where
  rxSeqNum := ht.rxSeqNum.trans h.rxSeqNum
  start := ht.start.trans h.start
  stop := ht.stop.trans h.stop
  next := ht.next.trans h.next
  pauseCount := ht.pauseCount.trans h.pauseCount
  activeNodes := hactive h.activeNodes
  activeTxNodes := htx h.activeTxNodes
  nodeTxNodes := hnode h.nodeTxNodes

theorem schedulerUpdateNodeTxBufferLevel_list {scheduler scheduler' : SchedulerState} {q q' : NodeQueue}
    {src : TNodeIndex} {level : UInt8}
    (h : schedulerUpdateNodeTxBufferLevel scheduler q src level = .ok (scheduler', q'))
    (hq : q.toList.Nodup) : q'.toList.Nodup ∧ ∀ k, k ≠ src → (k ∈ q'.toList → k ∈ q.toList) := by
  unfold schedulerUpdateNodeTxBufferLevel at h
  obtain ⟨_, -, h⟩ := bind_eq_ok.mp h
  dsimp only at h
  split at h
  · obtain ⟨q₁, hadd, h⟩ := bind_eq_ok.mp h
    cases h
    exact nodup_nodeQueueAdd hadd hq
  · split at h
    · obtain ⟨q₁, hremove, h⟩ := bind_eq_ok.mp h
      cases h
      obtain rfl := nodeQueueRemove_ok hremove
      obtain ⟨hnodup, hmem⟩ := nodup_removeIfExists src hq
      exact ⟨hnodup, fun k _ hk => ((hmem k).mp hk).2⟩
    · cases h
      exact ⟨hq, fun _ _ => id⟩

namespace CleanInv

variable {master master' : Master}

theorem congr (h : CleanInv master)
    (hactive : master'.nwManager.activeNodes.toList = master.nwManager.activeNodes.toList)
    (htx : master'.tx.txManager.activeList = master.tx.txManager.activeList)
    (hnode : master'.nodeTxNodes.toList = master.nodeTxNodes.toList)
    (httl : ∀ k, Station k → (master'.masterNodeTimeToLive k = 0 ↔ master.masterNodeTimeToLive k = 0))
    (htables : ∀ k, Station k → master.masterNodeTimeToLive k = 0 →
      master.tx.txManager.SameTables master'.tx.txManager k) : CleanInv master' where
  activeNodes := by rw [hactive]; exact h.activeNodes
  activeTxNodes := by rw [htx]; exact h.activeTxNodes
  nodeTxNodes := by rw [hnode]; exact h.nodeTxNodes
  clean k hk hz := by
    have hz' := (httl k hk).mp hz
    refine (h.clean k hk hz').congr (htables k hk hz') ?_ ?_ ?_
    · rw [hactive]
      exact fun hn => hn
    · rw [htx]
      exact fun hn => hn
    · rw [hnode]
      exact fun hn => hn

theorem updateSchedule (h : CleanInv master) (hs : masterUpdateSchedule master = .ok master') : CleanInv master' := by
  obtain ⟨_, _, _, queues, hsame, -, rfl⟩ := masterUpdateSchedule_ok hs
  refine h.congr hsame.activeNodes ?_ hsame.nodeTxNodes (fun _ _ => Iff.rfl)
    (fun k _ _ => ⟨rfl, rfl, rfl, rfl, rfl⟩)
  exact congrArg (·.getD []) hsame.activeTxNodes

theorem quickTx (h : CleanInv master) (stray : TNodeIndex → UInt8) : CleanInv (masterQuickTx master stray) := by
  obtain ⟨tx, heq, htx⟩ := masterQuickTx_eq master stray
  have hsame : tx.txManager.activeList = master.tx.txManager.activeList ∧
      ∀ k, master.tx.txManager.SameTables tx.txManager k := by
    rcases htx with htx | ⟨i, p, -, htx⟩
    · rw [htx]
      exact ⟨rfl, fun k => .refl _ k⟩
    · rw [htx]
      exact ⟨rfl, fun k => ⟨rfl, rfl, rfl, rfl, rfl⟩⟩
  rw [heq]
  exact h.congr rfl hsame.1 rfl (fun _ _ => Iff.rfl) (fun k _ _ => hsame.2 k)

theorem tx (h : CleanInv master) (ht : masterTx master = .ok master') : CleanInv master' := by
  obtain ⟨tx, rfl, ⟨htx, -⟩ | hget⟩ := masterTx_ok ht
  · refine h.congr rfl ?_ rfl (fun _ _ => Iff.rfl) ?_
    · rw [htx]
    · intro k _ _
      rw [htx]
      exact .refl _ k
  · obtain ⟨hqueue, htables⟩ := masterGetNext_tables hget
    refine h.congr rfl ?_ rfl (fun _ _ => Iff.rfl) ?_
    · unfold TxManager.activeList
      rw [hqueue]
    · intro k hk hz
      exact htables k (h.clean k hk hz).activeTxNodes

theorem heard_zero_iff {ttl ttl' : TimeToLive} {src : TNodeIndex} (h : Heard ttl ttl' src) (k : TNodeIndex) :
    ttl' k = 0 ↔ ttl k = 0 := by
  rcases h with rfl | ⟨hpos, rfl⟩
  · exact Iff.rfl
  · by_cases hk : k = src
    · subst hk
      rw [Function.update_self]
      exact ⟨fun hc => (by cases hc), fun hc => absurd hc hpos.ne'⟩
    · rw [Function.update_of_ne hk]

theorem quickRx (h : CleanInv master) {crcError : Bool}
    (hguard : ¬ master.TakesStranger (master.rx.packetAt master.rx.nextRxPacketEntry) crcError)
    (hq : masterQuickRx master crcError = .ok master') : CleanInv master' ∧ master'.PendingOk := by
  obtain ⟨rx, nw, ttl, m, rfl, hanswered, hheard, hresult⟩ := masterQuickRx_ok hq
  have hactive := hanswered.activeNodes
  have hzero := heard_zero_iff hheard
  cases hresult with
  | dropped _ =>
      exact ⟨h.congr (congrArg _ hactive) rfl rfl (fun k _ => hzero k) (fun k _ _ => .refl _ k),
        Master.pendingOk_of_invalid rfl⟩
  | kept haccept hfind hdata =>
      refine ⟨h.congr (congrArg _ hactive) rfl rfl (fun k _ => hzero k) (fun k _ _ => .refl _ k), ?_⟩
      intro frame hp
      obtain ⟨e, he, hframe⟩ := hp.packet
      cases he
      obtain ⟨hfalse, -⟩ :=
        hdata (by rw [← hp.data, ← hframe]; exact congrArg _ (packetAt_findFree hfind _).symm)
      exact absurd hp.inOrder (by rw [hfalse]; exact Bool.noConfusion)
  | inOrder haccept hfind hdata hseq =>
      -- an id without an owner expects number 0, and the guard excludes that
      have hsrc : Station (master.rx.packetAt master.rx.nextRxPacketEntry).srcNodeId →
          master.masterNodeTimeToLive (master.rx.packetAt master.rx.nextRxPacketEntry).srcNodeId ≠ 0 := by
        intro hs hz
        refine hguard ⟨haccept, hdata, ?_, hs, hz, by rw [hfind]; rfl⟩
        rw [hseq, (h.clean _ hs hz).rxSeqNum]
        rfl
      constructor
      · refine h.congr (congrArg _ hactive) rfl rfl (fun k _ => hzero k) ?_
        intro k hk hz
        have hne : k ≠ (master.rx.packetAt master.rx.nextRxPacketEntry).srcNodeId := by
          intro hc
          rw [hc] at hk hz
          exact hsrc hk hz
        exact ⟨rfl, rfl, rfl, rfl, Function.update_of_ne hne _ _⟩
      · intro frame hp hs hz
        obtain ⟨e, he, hframe⟩ := hp.packet
        cases he
        have hframe' : frame = master.rx.packetAt master.rx.nextRxPacketEntry :=
          hframe.symm.trans (packetAt_findFree hfind _)
        rw [← hframe'] at hsrc
        exact hsrc hs ((hzero _).mp hz)

theorem rx (h : CleanInv master) (hpending : master.PendingOk) {n : Nat} (hr : masterRx master = .ok (n, master')) :
    CleanInv master' := by
  rcases masterRx_ok hr with ⟨-, rfl⟩ | ⟨e, rpm, scheduler, m, ntx, nw, ttl, hvalid, hprev, rfl, hresult⟩
  · exact h
  · -- the acknowledgement concerns the source of the frame only
    have hack : ∀ {n m}, rxAckSeqNum master.tx.txManager (master.rx.packetAt e).srcNodeId
        (master.rx.packetAt e).ackSeqNum true = .ok (n, m) →
        (∀ k, Station k → master.masterNodeTimeToLive k = 0 → master.tx.txManager.SameTables m k) ∧
          m.activeList.Nodup ∧ ∀ k, k ∉ master.tx.txManager.activeList → k ∉ m.activeList := by
      intro n m hack
      obtain ⟨hother, hrx, hlist, hsame⟩ := rxAckSeqNum_tables hack
      refine ⟨?_, ?_, ?_⟩
      · intro k hk hz
        by_cases hks : k = (master.rx.packetAt e).srcNodeId
        · have hc := h.clean k hk hz
          rw [hks] at hc
          rw [hsame hc.start hc.stop hc.pauseCount]
          exact .refl _ k
        · exact hother k hks
      · rcases hlist with hlist | hlist
        · rw [hlist]
          exact h.activeTxNodes
        · rw [hlist]
          exact h.activeTxNodes.erase _
      · intro k hk
        rcases hlist with hlist | hlist
        · rw [hlist]
          exact hk
        · rw [hlist]
          exact fun hc => hk (List.mem_of_mem_erase hc)
    cases hresult with
    | ignored _ =>
        exact h.congr rfl rfl rfl (fun _ _ => Iff.rfl) (fun k _ _ => .refl _ k)
    | acked _ hrx =>
        obtain ⟨htables, hnodup, hmem⟩ := hack hrx
        exact {
          activeNodes := h.activeNodes
          activeTxNodes := hnodup
          nodeTxNodes := h.nodeTxNodes
          clean := fun k hk hz => (h.clean k hk hz).congr (htables k hk hz) id (hmem k) id }
    | stored hdata hinOrder hrx hlevel _ =>
        obtain ⟨htables, hnodup, hmem⟩ := hack hrx
        have hsrc := hpending _ ⟨hvalid, hinOrder, ⟨e, hprev, rfl⟩, hdata⟩
        obtain ⟨hnodup', hmem'⟩ := schedulerUpdateNodeTxBufferLevel_list hlevel h.nodeTxNodes
        exact {
          activeNodes := h.activeNodes
          activeTxNodes := hnodup
          nodeTxNodes := hnodup'
          clean := by
            intro k hk hz
            have hne : k ≠ (master.rx.packetAt e).srcNodeId := by
              intro hc
              rw [hc] at hk hz
              exact hsrc hk hz
            exact (h.clean k hk hz).congr (htables k hk hz) id (hmem k) fun hn hc => hn (hmem' k hne hc) }
    | registered hrequest hregister =>
        obtain ⟨_, -, hregister⟩ := bind_eq_ok.mp hregister
        obtain ⟨uniqueId, -, hregister⟩ := bind_eq_ok.mp hregister
        rcases networkManagerRegisterNewNode_ok hregister with ⟨rfl, rfl⟩
          | ⟨active, -, -, hfree, hadd, rfl, rfl⟩
        · exact h.congr rfl rfl rfl (fun _ _ => Iff.rfl) (fun k _ _ => .refl _ k)
        · obtain ⟨hnodup, hmem⟩ := nodup_nodeQueueAdd hadd h.activeNodes
          exact {
            activeNodes := hnodup
            activeTxNodes := h.activeTxNodes
            nodeTxNodes := h.nodeTxNodes
            clean := by
              intro k hk hz
              have hne : k ≠ getNextFreeNodeId master.masterNodeTimeToLive := by
                rintro rfl
                have hz' : Function.update master.masterNodeTimeToLive
                  (getNextFreeNodeId master.masterNodeTimeToLive) masterMaxTimeToLive _ = 0 := hz
                rw [Function.update_self] at hz'
                cases hz'
              have hz' : master.masterNodeTimeToLive k = 0 := (Function.update_of_ne hne _ _).symm.trans hz
              exact (h.clean k hk hz').congr (.refl _ k) (fun hn hc => hn (hmem k hne hc)) (fun hn => hn)
                (fun hn => hn) }

theorem removeIfTimedOut (h : CleanInv master) {d : TNodeIndex} {n : Nat}
    (hr : masterRemoveIfTimedOut master d = .ok (n, master')) : CleanInv master' := by
  rcases masterRemoveIfTimedOut_ok hr with ⟨-, rfl⟩
    | ⟨k₁, found, nw, m, rpm, httl, hrequest, hremove, hrpm, rfl⟩
  · exact h
  · obtain ⟨hrx, hstart, hstop, hnext, hpause, hother, hlist⟩ := masterTxManagerRemoveNode_tables hremove
    have hactive := (networkManagerRemoveNewNodeRequest_ok hrequest).1
    obtain ⟨hnodup, hmem⟩ := nodup_removeIfExists d (hactive ▸ h.activeNodes : nw.activeNodes.toList.Nodup)
    obtain ⟨hnodup', hmem'⟩ := nodup_removeIfExists d h.nodeTxNodes
    have hnodup'' : m.activeList.Nodup := by
      rw [hlist]
      exact h.activeTxNodes.erase d
    have hmem'' : ∀ k, k ∈ m.activeList ↔ k ≠ d ∧ k ∈ master.tx.txManager.activeList := by
      rw [hlist]
      exact fun _ => h.activeTxNodes.mem_erase_iff
    refine ⟨hnodup, hnodup'', hnodup', ?_⟩
    intro k hk hz
    by_cases hkd : k = d
    · subst hkd
      exact ⟨hrx, hstart, hstop, hnext, hpause, fun hc => ((hmem k).mp hc).1 rfl, fun hc => ((hmem'' k).mp hc).1 rfl,
        fun hc => ((hmem' k).mp hc).1 rfl⟩
    · have hz' : master.masterNodeTimeToLive k = 0 := (Function.update_of_ne hkd _ _).symm.trans hz
      exact (h.clean k hk hz').congr (hother k hkd) (fun hn hc => hn (hactive ▸ ((hmem k).mp hc).2))
        (fun hn hc => hn ((hmem'' k).mp hc).2) (fun hn hc => hn ((hmem' k).mp hc).2)

theorem removeAny (h : CleanInv master) {n : Nat} (hr : masterRemoveAnyTimeoutNodes master = .ok (n, master')) :
    CleanInv master' :=
  masterRemoveAnyTimeoutNodes_induction (fun _ _ _ _ _ _ hp hone => hp.removeIfTimedOut hone) h hr

theorem timer_zero_iff {ttl ttl' : TimeToLive} {k : TNodeIndex}
    (h : ttl' = ttl ∨ ∀ k, ttl' k = if firstNodeId ≤ k.toNat ∧
      k.toNat < maxNodes then decrementTimeToLive (ttl k)
      else ttl k) (hk : Station k) : ttl' k = 0 ↔ ttl k = 0 := by
  rcases h with rfl | h
  · exact Iff.rfl
  · have hk' : firstNodeId ≤ k.toNat ∧ k.toNat < maxNodes := hk
    rw [h k, if_pos hk']
    exact decrementTimeToLive_zero _

theorem connected_zero_iff (ttl : TimeToLive) {k : TNodeIndex} (hk : Station k) :
    Function.update ttl 0 1 k = 0 ↔ ttl k = 0 := by
  have hne : k ≠ 0 := by
    rintro rfl
    exact absurd hk.1 (by decide)
  rw [Function.update_of_ne hne]

theorem updateTimeUs (h : CleanInv master) (usIncr : UInt32) : CleanInv (masterUpdateTimeUs master usIncr) := by
  obtain ⟨us, ttl, heq, httl⟩ := masterUpdateTimeUs_eq master usIncr
  rw [heq]
  exact h.congr rfl rfl rfl (fun _ hk => timer_zero_iff httl hk) (fun k _ _ => .refl _ k)

theorem allocate (h : CleanInv master) {r : Option Nat} (ha : masterAllocateTxPacket master = .ok (r, master')) :
    CleanInv master' := by
  obtain ⟨⟨r', m⟩, halloc, ha⟩ := bind_eq_ok.mp ha
  cases ha
  rcases allocateTxPacket_ok halloc with ⟨-, rfl⟩ | ⟨i, -, -, ⟨-, rfl, -⟩ | ⟨-, rfl⟩⟩
  · exact h
  · exact h.congr rfl rfl rfl (fun _ _ => Iff.rfl) (fun k _ _ => ⟨rfl, rfl, rfl, rfl, rfl⟩)
  · exact h.congr rfl rfl rfl (fun _ _ => Iff.rfl) (fun k _ _ => ⟨rfl, rfl, rfl, rfl, rfl⟩)

theorem write (h : CleanInv master) (data : PacketData) : CleanInv (masterWriteAllocatedPacket master data) := by
  unfold masterWriteAllocatedPacket writeAllocatedPacket
  split
  · exact h
  · exact h.congr rfl rfl rfl (fun _ _ => Iff.rfl) (fun k _ _ => ⟨rfl, rfl, rfl, rfl, rfl⟩)

theorem submit (h : CleanInv master) {dst : TNodeIndex} {numBytes : UInt16}
    (hs : masterSubmitAllocatedTxPacket master dst numBytes = .ok master') : CleanInv master' := by
  obtain ⟨-, -, m, hm, rfl⟩ := masterSubmit_ok hs
  rcases submitAllocatedTxPacket_ok hm with ⟨-, -, rfl⟩ | ⟨i, q, -, hpos, -, -, -, hadd, rfl⟩
  · exact h.congr rfl rfl rfl (fun _ _ => Iff.rfl) (fun k _ _ => ⟨rfl, rfl, rfl, rfl, rfl⟩)
  · have hlist : (q.map NodeQueue.toList).getD [] = master.tx.txManager.activeList ∨
        ∃ q₀ q₁, master.tx.txManager.activeTxNodes = some q₀ ∧ q = some q₁ ∧
          nodeQueueAdd q₀ dst = .ok q₁ := by
      unfold addActiveTxNode at hadd
      split at hadd
      · split at hadd
        · cases hadd
        · rename_i q₀ hq₀
          obtain ⟨q₁, hq₁, hadd⟩ := bind_eq_ok.mp hadd
          cases hadd
          exact Or.inr ⟨q₀, q₁, hq₀, rfl, hq₁⟩
      · cases hadd
        exact Or.inl rfl
    have hnodup : ((q.map NodeQueue.toList).getD []).Nodup ∧
        ∀ k, k ≠ dst → k ∈ (q.map NodeQueue.toList).getD [] → k ∈ master.tx.txManager.activeList := by
      rcases hlist with hlist | ⟨q₀, q₁, hq₀, rfl, hadd'⟩
      · rw [hlist]
        exact ⟨h.activeTxNodes, fun _ _ => id⟩
      · have hold : master.tx.txManager.activeList = q₀.toList := by
          unfold TxManager.activeList
          rw [hq₀]
          rfl
        have hq₀' := h.activeTxNodes
        rw [hold] at hq₀' ⊢
        exact nodup_nodeQueueAdd hadd' hq₀'
    exact {
      activeNodes := h.activeNodes
      activeTxNodes := hnodup.1
      nodeTxNodes := h.nodeTxNodes
      clean := by
        intro k hk hz
        have hne : k ≠ dst := by
          rintro rfl
          exact (hpos rfl).ne' hz
        exact (h.clean k hk hz).congr ⟨rfl, Function.update_of_ne hne _ _, rfl, rfl, rfl⟩ id
          (fun hn hc => hn (hnodup.2 k hne hc)) id }

theorem getConnectedNodes (h : CleanInv master) :
    CleanInv { master with masterNodeTimeToLive := Function.update master.masterNodeTimeToLive 0 1 } :=
  h.congr rfl rfl rfl (fun _ hk => connected_zero_iff master.masterNodeTimeToLive hk) (fun k _ _ => .refl _ k)

theorem resetTxCredits (h : CleanInv master) : CleanInv (masterResetTxCredits master) :=
  h.congr rfl rfl rfl (fun _ _ => Iff.rfl) (fun _ _ _ => ⟨rfl, rfl, rfl, rfl, rfl⟩)

theorem init {numTx maxTx maxRx : UInt8} {entries : Nat → PacketEntry}
    (hi : masterInit numTx maxTx entries maxRx = .ok master) :
    CleanInv master ∧ master.rx.validRxPacket = false := by
  obtain ⟨rx, hrx, hi⟩ := bind_eq_ok.mp hi
  cases hi
  have hvalid : rx.validRxPacket = false := by
    unfold masterRxInit at hrx
    obtain ⟨_, -, hrx⟩ := bind_eq_ok.mp hrx
    split at hrx
    · cases hrx
    · cases hrx
      rfl
  refine ⟨⟨List.nodup_nil, List.nodup_nil, List.nodup_nil, ?_⟩, hvalid⟩
  intro _ _ _
  exact ⟨rfl, rfl, rfl, rfl, rfl, List.not_mem_nil, List.not_mem_nil, List.not_mem_nil⟩

end CleanInv

/-- No frame of a stranger is taken. -/
def TakesNoStranger {mode : ChannelMode} (s : MasterRun) : MasterAction mode → Prop
  | .preProcess frame crcError _ => ¬ s.master.TakesStranger frame crcError
  | .processRx frame crcError => ¬ s.master.TakesStranger frame crcError
  | _ => True

instance {mode : ChannelMode} (s : MasterRun) : (a : MasterAction mode) → Decidable (TakesNoStranger s a)
  | .preProcess frame crcError _ => inferInstanceAs (Decidable (¬ s.master.TakesStranger frame crcError))
  | .processRx frame crcError => inferInstanceAs (Decidable (¬ s.master.TakesStranger frame crcError))
  | .postProcess | .processTx _ | .updateTimeUs _ | .allocate | .write _ | .submit _ _ | .peek | .pop
  | .getConnectedNodes | .resetTxCredits => inferInstanceAs (Decidable True)

theorem not_takesStranger_receive {master m₁ : Master} {frame : Packet} {crcError : Bool}
    (hguard : ¬ master.TakesStranger frame crcError) (hs : masterUpdateSchedule (master.receive frame) = .ok m₁) :
    ¬ m₁.TakesStranger (m₁.rx.packetAt m₁.rx.nextRxPacketEntry) crcError := by
  obtain ⟨_, _, _, queues, -, -, rfl⟩ := masterUpdateSchedule_ok hs
  have hframe : (master.rx.receive frame).packetAt master.rx.nextRxPacketEntry = frame :=
    RxPacketManager.packet_receive _ _
  change ¬ Master.TakesStranger _ ((master.rx.receive frame).packetAt master.rx.nextRxPacketEntry) crcError
  rw [hframe]
  rintro ⟨haccept, hdata, hfirst, hstation, hz, hfree⟩
  refine hguard ⟨haccept, hdata, hfirst, hstation, hz, ?_⟩
  -- writing the old frame back restores the memory
  have hback : (master.rx.rxPacketManager.receive master.rx.nextRxPacketEntry frame).receive
      master.rx.nextRxPacketEntry (master.rx.packetAt master.rx.nextRxPacketEntry) = master.rx.rxPacketManager := by
    unfold RxPacketManager.receive
    simp only [Function.update_self, Function.update_idem]
    exact congrArg (fun entries => { master.rx.rxPacketManager with rxPacketEntries := entries })
      (Function.update_eq_self _ _)
  have hfree' : (findFreeRxPacket (master.rx.rxPacketManager.receive master.rx.nextRxPacketEntry frame)).isSome := hfree
  rw [← hback]
  exact RxPacketManager.findFreeRxPacket_receive _ _ hfree'

theorem masterUpdateSchedule_rx {master m₁ : Master} (h : masterUpdateSchedule master = .ok m₁) :
    m₁.rx = master.rx := by
  obtain ⟨_, _, _, _, -, -, rfl⟩ := masterUpdateSchedule_ok h
  rfl

theorem masterTx_rx {master m₁ : Master} (h : masterTx master = .ok m₁) : m₁.rx = master.rx := by
  obtain ⟨_, rfl, -⟩ := masterTx_ok h
  rfl

theorem masterRx_valid {master m₁ : Master} {n : Nat} (h : masterRx master = .ok (n, m₁)) :
    m₁.rx.validRxPacket = false := by
  rcases masterRx_ok h with ⟨hvalid, rfl⟩ | ⟨_, _, _, _, _, _, _, -, -, rfl, -⟩
  · exact hvalid
  · rfl

theorem masterRemoveAny_valid {master m₁ : Master} {n : Nat} (hvalid : master.rx.validRxPacket = false)
    (h : masterRemoveAnyTimeoutNodes master = .ok (n, m₁)) : m₁.rx.validRxPacket = false := by
  refine masterRemoveAnyTimeoutNodes_induction (P := fun master => master.rx.validRxPacket = false) ?_ hvalid h
  intro d _ _ master k master' hp hone
  rcases masterRemoveIfTimedOut_ok hone with ⟨-, rfl⟩ | ⟨_, _, _, _, _, -, -, -, -, rfl⟩
  · exact hp
  · exact hp

/-- What holds between the steps of a run. -/
structure CleanRun (mode : ChannelMode) (master : Master) : Prop where
  inv : CleanInv master
  pending : master.PendingOk
  single : mode = .single → master.rx.validRxPacket = false

namespace CleanRun

variable {mode : ChannelMode} {master master' : Master}

theorem congr (h : CleanRun mode master) (hinv : CleanInv master')
    (hvalid : master'.rx.validRxPacket = master.rx.validRxPacket)
    (hpending : ∀ frame, master'.rx.HasPending frame → master.rx.HasPending frame)
    (httl : ∀ k, Station k → (master'.masterNodeTimeToLive k = 0 ↔ master.masterNodeTimeToLive k = 0)) :
    CleanRun mode master' where
  inv := hinv
  pending := h.pending.congr hpending httl
  single hm := hvalid.trans (h.single hm)

theorem of_invalid (hinv : CleanInv master) (hvalid : master.rx.validRxPacket = false) : CleanRun mode master where
  inv := hinv
  pending := Master.pendingOk_of_invalid hvalid
  single _ := hvalid

theorem withRxPacketManager (h : CleanRun mode master) {rpm : RxPacketManager}
    (hs : ∀ i, (rpm.rxPacketEntries i).packet = (master.rx.rxPacketManager.rxPacketEntries i).packet) :
    CleanRun mode { master with rx := { master.rx with rxPacketManager := rpm } } := by
  refine h.congr (h.inv.congr rfl rfl rfl (fun _ _ => Iff.rfl) (fun k _ _ => .refl _ k)) rfl ?_ (fun _ _ => Iff.rfl)
  rintro frame ⟨hvalid, hinOrder, ⟨e, he, hframe⟩, hdata⟩
  exact ⟨hvalid, hinOrder, ⟨e, he, (hs e).symm.trans hframe⟩, hdata⟩

theorem step {s s' : MasterRun} {a : MasterAction mode} (h : CleanRun mode s.master) (hguard : TakesNoStranger s a)
    (hs : s.step a = .ok s') : CleanRun mode s'.master := by
  have hreceive : ∀ frame, CleanInv (s.master.receive frame) := fun frame =>
    h.inv.congr rfl rfl rfl (fun _ _ => Iff.rfl) (fun k _ _ => .refl _ k)
  cases a with
  | preProcess frame crcError stray =>
      obtain ⟨⟨m, f⟩, hpre, hs⟩ := bind_eq_ok.mp hs
      cases hs
      obtain ⟨m₁, m₂, h₁, h₂, rfl⟩ := preProcess_ok hpre
      obtain ⟨hinv, hpending⟩ := ((hreceive frame).updateSchedule h₁).quickRx
        (not_takesStranger_receive hguard h₁) h₂
      obtain ⟨tx, heq, -⟩ := masterQuickTx_eq m₂ stray
      have hinv' := hinv.quickTx stray
      rw [heq] at hinv' ⊢
      exact ⟨hinv', hpending, fun hm => by cases hm⟩
  | postProcess =>
      obtain ⟨⟨k, m⟩, hpost, hs⟩ := bind_eq_ok.mp hs
      cases hs
      obtain ⟨m₁, m₂, k₁, k₂, h₁, h₂, h₃⟩ := postProcess_ok hpost
      have hvalid : m₂.rx.validRxPacket = false := by
        rw [masterTx_rx h₂]
        exact masterRx_valid h₁
      exact of_invalid (((h.inv.rx h.pending h₁).tx h₂).removeAny h₃) (masterRemoveAny_valid hvalid h₃)
  | processRx frame crcError =>
      obtain ⟨⟨k, m⟩, hrx, hs⟩ := bind_eq_ok.mp hs
      cases hs
      obtain ⟨m₁, m₂, h₁, h₂, h₃⟩ := processRx_ok hrx
      obtain ⟨hinv, hpending⟩ := ((hreceive frame).updateSchedule h₁).quickRx
        (not_takesStranger_receive hguard h₁) h₂
      exact of_invalid (hinv.rx hpending h₃) (masterRx_valid h₃)
  | processTx stray =>
      obtain ⟨⟨k, m, f⟩, htx, hs⟩ := bind_eq_ok.mp hs
      cases hs
      obtain ⟨m₁, m₂, h₁, h₂, h₃⟩ := processTx_ok htx
      have hvalid : (masterQuickTx m₂ stray).rx.validRxPacket = false := by
        obtain ⟨tx, heq, -⟩ := masterQuickTx_eq m₂ stray
        rw [heq]
        change m₂.rx.validRxPacket = false
        rw [masterUpdateSchedule_rx h₂, masterTx_rx h₁]
        exact h.single rfl
      exact of_invalid ((((h.inv.tx h₁).updateSchedule h₂).quickTx stray).removeAny h₃)
        (masterRemoveAny_valid hvalid h₃)
  | updateTimeUs usIncr =>
      cases hs
      obtain ⟨us, ttl, heq, httl⟩ := masterUpdateTimeUs_eq s.master usIncr
      have hinv := h.inv.updateTimeUs usIncr
      rw [heq] at hinv ⊢
      refine h.congr hinv rfl (fun _ hp => hp) ?_
      intro k hk
      exact CleanInv.timer_zero_iff httl hk
  | allocate =>
      obtain ⟨⟨r, m⟩, halloc, hs⟩ := bind_eq_ok.mp hs
      cases hs
      have hinv := h.inv.allocate halloc
      obtain ⟨⟨r', tm⟩, -, halloc⟩ := bind_eq_ok.mp halloc
      cases halloc
      exact h.congr hinv rfl (fun _ hp => hp) (fun _ _ => Iff.rfl)
  | write data =>
      cases hs
      exact h.congr (h.inv.write data) rfl (fun _ hp => hp) (fun _ _ => Iff.rfl)
  | submit dst numBytes =>
      obtain ⟨m, hsubmit, hs⟩ := bind_eq_ok.mp hs
      have hrun : CleanRun mode m := by
        have hinv := h.inv.submit hsubmit
        obtain ⟨-, -, tm, -, rfl⟩ := masterSubmit_ok hsubmit
        exact h.congr hinv rfl (fun _ hp => hp) (fun _ _ => Iff.rfl)
      split at hs
      · cases hs
        exact hrun
      · cases hs
        exact hrun
  | peek =>
      obtain ⟨⟨r, m⟩, hpeek, hs⟩ := bind_eq_ok.mp hs
      cases hs
      obtain ⟨rpm, rfl, hsame⟩ := masterPeek_ok hpeek
      exact h.withRxPacketManager hsame
  | pop =>
      obtain ⟨m, hpop, hs⟩ := bind_eq_ok.mp hs
      cases hs
      obtain ⟨rpm, rfl, hsame⟩ := masterPop_ok hpop
      exact h.withRxPacketManager hsame
  | getConnectedNodes =>
      obtain ⟨⟨m, bits⟩, hget, hs⟩ := bind_eq_ok.mp hs
      cases hs
      obtain rfl := getConnectedNodesBitField_ok hget
      refine h.congr h.inv.getConnectedNodes rfl (fun _ hp => hp) ?_
      intro k hk
      exact CleanInv.connected_zero_iff s.master.masterNodeTimeToLive hk
  | resetTxCredits =>
      cases hs
      exact h.congr h.inv.resetTxCredits rfl (fun _ hp => hp) (fun _ _ => Iff.rfl)

end CleanRun

/-- An id that no node holds is a clean slate in every run in which the master takes no first data
frame from such an id. -/
theorem free_id_is_clean {cfg : MasterConfig} {s : MasterRun} (h : (masterSystem cfg).ReachableWhen TakesNoStranger s)
    {k : TNodeIndex} (hk : Station k) (hz : s.master.masterNodeTimeToLive k = 0) : s.master.Clean k := by
  have hrun : CleanRun cfg.mode s.master := by
    refine System.ReachableWhen.invariant (P := fun s => CleanRun cfg.mode s.master) h ?_ ?_
    · rintro s ⟨entries, hinit, -, -⟩
      obtain ⟨hinv, hvalid⟩ := CleanInv.init hinit
      exact .of_invalid hinv hvalid
    · intro s a s' hrun hguard hs
      exact hrun.step hguard hs
  exact hrun.inv.clean k hk hz

def freshMaster (entries : Nat → PacketEntry) : Master where
  scheduler := schedulerInit 4 80
  nwManager := networkManagerInit
  rx := ⟨(rxManagerInit 4).setInUse 0 true, 0, none, false, false⟩
  tx := { masterTxInit 4 entries with masterResetCycles := 20 }
  currentTxNodeId := 0
  nextTxNodeId := fun _ => 0
  masterNodeTimeToLive := fun _ => 0
  nodeTxNodes := NodeQueue.empty

def freshRun (entries : Nat → PacketEntry) : MasterRun := ⟨freshMaster entries, fun _ _ => none, []⟩

def dualConfig : MasterConfig := ⟨.dual, 4, 4, 4⟩

theorem freshRun_init (entries : Nat → PacketEntry) : (masterSystem dualConfig).init (freshRun entries) :=
  ⟨entries, rfl, rfl, rfl⟩

def blankRun : MasterRun := freshRun fun _ => ⟨false, Packet.zero⟩

def singleConfig : MasterConfig := ⟨.single, 4, 4, 4⟩

theorem blankRun_init : (masterSystem dualConfig).init blankRun := freshRun_init _

theorem blankRun_init_single : (masterSystem singleConfig).init blankRun := ⟨_, rfl, rfl, rfl⟩

def joinFrame (uniqueId : UInt64) : Packet := txNewNodeRequest Packet.zero uniqueId

def ackFrame (src : TNodeIndex) (ackSeqNum : UInt8) : Packet :=
  ((Packet.zero.setProtocolVersionAndPacketType .nodeEmpty).setSrcNodeId src).setAckSeqNum ackSeqNum

/-- A slot of the dual channel in which `frame` arrives. -/
def slot (frame : Packet) : List (MasterAction .dual) := [.preProcess frame false fun _ => 0, .postProcess]

/-- The time after which a node that is not heard is removed. -/
def timeOut : List (MasterAction .dual) := List.replicate masterMaxTimeToLive (.updateTimeUs 5000)

def firstFrame : Packet := fillHeader Packet.zero false 5 masterNodeId .nodeData 1 0

/-- A data frame of node `src` with another packet waiting behind it. -/
def nodeDataFrame (src : TNodeIndex) (txSeqNum ackSeqNum : UInt8) : Packet :=
  ((fillHeader Packet.zero false src masterNodeId .nodeData 4 txSeqNum).setAckSeqNum ackSeqNum).setBufferLevel 2

/-- A node joins and sends two packets. The packet that it was sent is acknowledged by the second of them, and another
one is on its way to it. -/
def joinAndTalk : List (MasterAction .dual) :=
  slot (joinFrame 11) ++ [.allocate, .submit 1 5] ++ (List.replicate 20 (slot Packet.zero)).flatten ++
    slot (nodeDataFrame 1 0 nullSequenceNum) ++ slot (nodeDataFrame 1 1 0) ++ [.allocate, .submit 1 6] ++
      slot Packet.zero

/-- The node that has sent two packets and been sent two is not heard again: its id is free and clean. -/
theorem free_id_is_clean_left : ∃ s₁ s, (masterSystem dualConfig).ReachableWhen TakesNoStranger s₁ ∧
    s₁.master.tx.txManager.rxSeqNum 1 = 1 ∧ s₁.master.tx.txManager.txSeqNumStart 1 = 1 ∧
    s₁.master.tx.txManager.txSeqNumNext 1 = 2 ∧ 1 ∈ s₁.master.tx.txManager.activeList ∧
    1 ∈ s₁.master.nodeTxNodes.toList ∧
    (masterSystem dualConfig).run s₁ (timeOut ++ slot Packet.zero) = .ok s ∧ s.master.Clean 1 := by
  obtain ⟨s₁, hs₁, htest⟩ := System.exists_of_decidedRun (S := masterSystem dualConfig)
    (s := blankRun) TakesNoStranger
    (p := fun s₁ => decide (s₁.master.tx.txManager.rxSeqNum 1 = 1 ∧
      s₁.master.tx.txManager.txSeqNumStart 1 = 1 ∧
        s₁.master.tx.txManager.txSeqNumNext 1 = 2 ∧ 1 ∈ s₁.master.tx.txManager.activeList ∧
        1 ∈ s₁.master.nodeTxNodes.toList) &&
      ((masterSystem dualConfig).checkedRun (fun s a => decide (TakesNoStranger s a)) s₁
        (timeOut ++ slot Packet.zero)).any fun s => s.master.masterNodeTimeToLive 1 == 0)
    joinAndTalk (.init blankRun_init) (by decide +kernel)
  rw [Bool.and_eq_true] at htest
  obtain ⟨hrx, hstart, hnext, hactive, hnode⟩ := of_decide_eq_true htest.1
  obtain ⟨s, hchecked, hz⟩ := System.exists_of_any htest.2
  obtain ⟨hrun, hmeets⟩ := System.run_of_checkedRun (fun _ _ => of_decide_eq_true) hchecked
  exact ⟨s₁, s, hs₁, hrx, hstart, hnext, hactive, hnode, hrun,
    free_id_is_clean (hs₁.run hmeets hrun) ⟨by decide, by decide⟩ (eq_of_beq hz)⟩

/-- A data frame from id 5, which no node holds, leaves its sequence number behind. -/
theorem stranger_leaves_seqNum : ∃ s, (masterSystem dualConfig).Reachable s ∧
    s.master.masterNodeTimeToLive 5 = 0 ∧ ¬ s.master.Clean 5 := by
  obtain ⟨s, hrun, hz, hseq⟩ : ∃ s, (masterSystem dualConfig).run (freshRun fun _ => ⟨false, Packet.zero⟩)
      [.postProcess, .preProcess firstFrame false fun _ => 0] = .ok s ∧ s.master.masterNodeTimeToLive 5 = 0 ∧
      s.master.tx.txManager.rxSeqNum 5 = 0 := ⟨_, rfl, rfl, rfl⟩
  refine ⟨s, System.Reachable.run (.init (freshRun_init _)) hrun, hz, ?_⟩
  intro hc
  exact absurd (hseq.symm.trans hc.rxSeqNum) (by decide)

end Microbus
