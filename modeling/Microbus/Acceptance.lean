import Microbus.NodeLevels
import Microbus.ReceptionMaster
import Microbus.ReceptionNode

/-! A frame is accepted if and only if it is queued, and every receive buffer has one holder. -/
namespace Microbus

open Transition

/-- `CIRCULAR_BUFFER_APPEND` on a ring that is full. -/
abbrev ringFull : Fault := .assertFailed .addRxDataPacket

theorem avoids_assert {e : Fault} {p : Prop} [Decidable p] {s : Site} (hs : .assertFailed s ≠ e) :
    Avoids e (microbusAssert p s) := by
  unfold microbusAssert
  split
  · exact .ok ()
  · exact .error hs

theorem avoids_index {e : Fault} {size : Nat} {i : TNodeIndex} {s : Site} (hs : .outOfBounds s ≠ e) :
    Avoids e (checkIndex size i s) := by
  unfold checkIndex
  split
  · exact .ok ()
  · exact .error hs

section RingFull

theorem nodeQueueAdd_avoids (q : NodeQueue) (d : TNodeIndex) : Avoids ringFull (nodeQueueAdd q d) := by
  unfold nodeQueueAdd
  split
  · split
    · exact .ok _
    · exact .ok _
  · exact .error (by decide)

theorem nodeQueueRemove_avoids (q : NodeQueue) (d : TNodeIndex) : Avoids ringFull (nodeQueueRemove q d) := by
  unfold nodeQueueRemove
  refine .bind (avoids_assert (by decide)) fun _ _ => ?_
  exact .bind (avoids_assert (by decide)) fun _ _ => .ok _

theorem freePacket_avoids (store : PacketStore) (d : TNodeIndex) (q : UInt8) (isMaster : Bool) :
    Avoids ringFull (freePacket store d q isMaster) := by
  unfold freePacket findPacketEntry
  refine .bind ?_ fun _ _ => .ok _
  split
  · exact .ok _
  · exact .error (by decide)

theorem freeAckedPackets_avoids (d : TNodeIndex) (newStart : UInt8) (isMaster : Bool) (fuel : Nat) (q : UInt8)
    (count : Nat) (m : TxManager) : Avoids ringFull (freeAckedPackets d newStart isMaster fuel q count m) := by
  induction fuel generalizing q count m with
  | zero => exact .error (by decide)
  | succ fuel ih =>
      unfold freeAckedPackets
      split
      · exact .bind (freePacket_avoids _ _ _ _) fun _ _ => ih _ _ _
      · exact .ok _

theorem rxAckSeqNum_avoids (m : TxManager) (src : TNodeIndex) (ack : UInt8) (isMaster : Bool) :
    Avoids ringFull (rxAckSeqNum m src ack isMaster) := by
  unfold rxAckSeqNum
  split
  · exact .ok _
  · refine .bind (avoids_index (by decide)) fun _ _ => ?_
    dsimp only
    split
    · refine .bind (freeAckedPackets_avoids _ _ _ _ _ _ _) fun r _ => ?_
      split
      · split
        · exact .error (by decide)
        · exact .bind (nodeQueueRemove_avoids _ _) fun _ _ => .ok _
      · exact .ok _
    · split
      · split
        · exact .ok _
        · exact .ok _
      · exact .ok _

theorem schedulerUpdateNodeTxBufferLevel_avoids (scheduler : SchedulerState) (q : NodeQueue) (src : TNodeIndex)
    (level : UInt8) : Avoids ringFull (schedulerUpdateNodeTxBufferLevel scheduler q src level) := by
  unfold schedulerUpdateNodeTxBufferLevel
  refine .bind (avoids_index (by decide)) fun _ _ => ?_
  dsimp only
  split
  · exact .bind (nodeQueueAdd_avoids _ _) fun _ _ => .ok _
  · split
    · exact .bind (nodeQueueRemove_avoids _ _) fun _ _ => .ok _
    · exact .ok _

theorem readData_avoids (p : Packet) (i : Nat) (s : Site) : Avoids ringFull (p.readData i s) := by
  unfold Packet.readData
  split
  · exact .ok _
  · exact .error nofun

theorem getUniqueId_avoids (p : Packet) (offset : Nat) (s : Site) : Avoids ringFull (p.getUniqueId offset s) := by
  have hread : ∀ l : List Nat, Avoids ringFull (l.mapM fun i => p.readData (offset + i) s) := by
    intro l
    induction l with
    | nil => exact .ok _
    | cons i l ih =>
        rw [List.mapM_cons]
        exact .bind (readData_avoids p _ s) fun _ _ => .bind ih fun _ _ => .ok _
  exact .bind (hread _) fun _ _ => .ok _

theorem rxNewNodePacketRequest_avoids (nw : NetworkManager) (ttl : TimeToLive) (p : Packet) :
    Avoids ringFull (rxNewNodePacketRequest nw ttl p) := by
  unfold rxNewNodePacketRequest
  refine .bind (avoids_assert (by decide)) fun _ _ => .bind (getUniqueId_avoids p _ _) fun uniqueId _ => ?_
  unfold networkManagerRegisterNewNode
  refine .bind (avoids_assert (by decide)) fun _ _ => ?_
  split
  · exact .ok _
  · split
    · exact .ok _
    · dsimp only
      split
      · exact .ok _
      · exact .bind (nodeQueueAdd_avoids _ _) fun _ _ => .ok _

theorem rxNewNodePacketResponse_avoids (p : Packet) (uniqueId : UInt64) (m : NodeMembership) :
    Avoids ringFull (rxNewNodePacketResponse p uniqueId m) := by
  have hsearch : ∀ fuel i, Avoids ringFull (newNodeResponseSearch p uniqueId fuel i m) := by
    intro fuel
    induction fuel with
    | zero => exact fun _ => .ok _
    | succ fuel ih =>
        intro i
        unfold newNodeResponseSearch
        refine .bind (getUniqueId_avoids p _ _) fun _ _ => .bind (readData_avoids p _ _) fun _ _ => ?_
        split
        · exact .ok _
        · exact ih _
  exact hsearch _ _

theorem addRxDataPacket_avoids {rpm : RxPacketManager} (hroom : ¬ rpm.isFull) (e : Nat) :
    Avoids ringFull (addRxDataPacket rpm e) := by
  unfold addRxDataPacket
  rw [if_neg hroom]
  exact .ok _

theorem masterRx_avoids {master : Master}
    (hroom : master.rx.validRxPacket = true → ¬ master.rx.rxPacketManager.isFull) :
    Avoids ringFull (masterRx master) := by
  refine .bind ?_ fun _ _ => .ok _
  unfold masterProcessRx
  split
  · exact .ok _
  · rename_i hvalid
    rw [Bool.not_eq_false] at hvalid
    split
    · refine .bind ?_ fun _ _ => .ok _
      unfold masterProcessRxPacket
      split
      · exact .bind (rxAckSeqNum_avoids _ _ _ _) fun _ _ => .ok _
      · refine .bind (rxAckSeqNum_avoids _ _ _ _) fun _ _ => ?_
        dsimp only
        split
        · refine .bind (avoids_assert (by decide)) fun _ _ => ?_
          refine .bind (schedulerUpdateNodeTxBufferLevel_avoids _ _ _ _) fun _ _ => ?_
          exact .bind (addRxDataPacket_avoids (hroom hvalid) _) fun _ _ => .ok _
        · exact .ok _
      · exact .bind (rxNewNodePacketRequest_avoids _ _ _) fun _ _ => .ok _
      · exact .ok _
    · exact .error (by decide)

theorem nodeProcessRx_avoids {node : Node} (hroom : node.validRxPacket = true → ¬ node.rxPacketManager.isFull) :
    Avoids ringFull (nodeProcessRx node) := by
  have hdata : ∀ n : Node, ¬ n.rxPacketManager.isFull → ∀ e, Avoids ringFull (nodeProcessRxData n e) := by
    intro n hroom e
    unfold nodeProcessRxData
    dsimp only
    split
    · split
      · exact .bind (rxNewNodePacketResponse_avoids _ _ _) fun _ _ => .ok _
      · exact .ok _
    · split
      · refine .bind (avoids_assert (by decide)) fun _ _ => ?_
        split
        · exact .bind (addRxDataPacket_avoids hroom _) fun _ _ => .ok _
        · exact .ok _
      · exact .ok _
  have hframe : ∀ n : Node, (n.validRxPacket = true → ¬ n.rxPacketManager.isFull) →
    Avoids ringFull (nodeProcessRxFrame n) := by
    intro n hroom
    unfold nodeProcessRxFrame
    split
    · rename_i hvalid
      split
      · exact hdata n (hroom hvalid) _
      · exact .error (by decide)
    · exact .ok _
  unfold nodeProcessRx
  split
  · exact .bind (rxAckSeqNum_avoids _ _ _ _) fun _ _ => hframe _ hroom
  · exact hframe _ hroom

end RingFull

/-- In every run the invariant of the buffers holds and the accepted frames are the queued ones, with
the one that waits. -/
theorem masterReception {cfg : MasterConfig} {r : Reception MasterRun}
    (h : ((masterReceiver cfg.mode).system (masterSystem cfg)).ReachableWhen (masterReceiver cfg.mode).guard r) :
    (MasterHolds r.device.master r.last ∧ (cfg.mode = .single → r.last = none)) ∧
      r.accepted = r.queued ++ r.device.master.waitingFrames := by
  refine Receiver.accepted_eq (fun s last => MasterHolds s.master last ∧ (cfg.mode = .single → last = none))
    (fun s _ => s.master.waitingFrames) h ?_ ?_
  · rintro s ⟨entries, hi, -, -⟩
    obtain ⟨rx, hrx, hi⟩ := bind_eq_ok.mp hi
    have hmaster := pure_eq_ok.mp hi
    obtain ⟨_, hmax, hrx⟩ := bind_eq_ok.mp hrx
    split at hrx
    · cases hrx
    · rename_i next rpm hfind
      rw [← pure_eq_ok.mp hrx] at hmaster
      obtain ⟨hstore, -⟩ := rxInv_init (microbusAssert_ok.mp hmax) hfind
      rw [← hmaster]
      exact ⟨⟨.of_invalid hstore rfl, fun _ => rfl⟩, rfl⟩
  · rintro s last a s' ⟨hholds, hsingle⟩ halt hs
    obtain ⟨hholds', haccepted, hframes, -⟩ := hholds.step hsingle halt hs
    refine ⟨⟨hholds', ?_⟩, fun hc => absurd hc Bool.false_ne_true, fun _ => ?_⟩
    · intro hmode
      rw [hsingle hmode, Option.or_none]
      exact MasterAction.part_single hmode a
    · change s.master.waitingFrames ++ masterAccepted s a s' = masterQueued s a s' ++ s'.master.waitingFrames
      rw [haccepted, hframes]

theorem nodeReception {cfg : NodeConfig} {r : Reception Node}
    (h : ((nodeReceiver cfg.mode).system (nodeSystem cfg)).ReachableWhen (nodeReceiver cfg.mode).guard r) :
    NodeHolds cfg.mode r.device r.last ∧ r.accepted = r.queued ++ r.device.waitingFrames r.last := by
  refine Receiver.accepted_eq (NodeHolds cfg.mode) Node.waitingFrames h ?_ ?_
  · rintro node ⟨entries, hi⟩
    obtain ⟨hfresh, -⟩ := nodeInit_ok hi
    exact ⟨.fresh hfresh fun _ => rfl, rfl⟩
  · intro node last a node' hholds halt hs
    obtain ⟨hholds', hreset, hkeep⟩ := hholds.step halt hs
    refine ⟨hholds', fun hresets => (hreset (of_decide_eq_true hresets)).1, fun hresets => ?_⟩
    obtain ⟨haccepted, hframes, -⟩ := hkeep (of_decide_eq_false hresets)
    change node.waitingFrames last ++ nodeAccepted node a node' = nodeQueued node a node' ++ _
    rw [haccepted, hframes]
    rfl

theorem MasterHolds.room_of_processes {mode : ChannelMode} {s : MasterRun} {a : MasterAction mode} {m : Master}
    {last : Option SlotPart} (h : MasterHolds s.master last) (hsingle : mode = .single → last = none)
    (hm : s.Processes a m) : m.rx.validRxPacket = true → ¬ m.rx.rxPacketManager.isFull := by
  cases hm with
  | postProcess => exact h.room
  | processRx h₁ h₂ =>
      have hlast : last ≠ some .pre := by
        rw [hsingle rfl]
        exact nofun
      exact (receive_takes h hlast h₁ h₂).1.room

theorem NodeHolds.room_of_processes {mode : ChannelMode} {node n : Node} {a : NodeAction mode}
    {last : Option SlotPart} (h : NodeHolds mode node last) (halt : Alternates last a.part)
    (hn : node.Processes a n) : n.validRxPacket = true → ¬ n.rxPacketManager.isFull := by
  cases hn with
  | postProcess hn =>
      rcases nodeCheckIfTimedOut_ok hn with ⟨-, heq⟩ | ⟨-, hfresh, -⟩
      · rw [heq]
        exact (h.keeps_at_post (halt .post rfl)).1.room
      · exact hfresh.keeps.room
  | processRx hq =>
      rename_i frame crcError
      have hlast : last ≠ some .pre := by
        rw [h.single rfl]
        exact nofun
      have hinit : (node.receive frame).initialised = true := h.initialised
      have hstore : RxInv (node.receive frame).rxPacketManager (node.receive frame).nextRxPacketEntry none :=
        (h.between hlast).receive _ _
      rcases nodeQuickRx_takes hinit hstore (RxPacketManager.packet_receive _ _) hq with ⟨-, hfresh, -⟩
        | ⟨-, hkeeps, -⟩
      · exact hfresh.keeps.room
      · exact hkeeps.room

/-- A number moves on for exactly the data frames that are in order and find a free buffer, these are
the frames that are appended to the queue, each once and in order, and there is room for them. A node
that resets itself starts anew with both. -/
theorem accepted_iff_queued :
    (∀ {cfg : MasterConfig} {r : Reception MasterRun},
      ((masterReceiver cfg.mode).system (masterSystem cfg)).ReachableWhen (masterReceiver cfg.mode).guard r →
      r.accepted = r.queued ++ r.device.master.waitingFrames ∧
        ∀ a : MasterAction cfg.mode, Alternates r.last a.part →
          (∀ m, r.device.Processes a m → masterRx m ≠ .error ringFull) ∧
          ∀ s', r.device.step a = .ok s' →
            masterAccepted r.device a s' = r.device.master.taken a ∧
            r.device.master.waitingFrames ++ r.device.master.taken a =
              masterQueued r.device a s' ++ s'.master.waitingFrames ∧
            r.device.master.SeqNumsMove s'.master (r.device.master.taken a)) ∧
    (∀ {cfg : NodeConfig} {r : Reception Node},
      ((nodeReceiver cfg.mode).system (nodeSystem cfg)).ReachableWhen (nodeReceiver cfg.mode).guard r →
      r.accepted = r.queued ++ r.device.waitingFrames r.last ∧
        ∀ a : NodeAction cfg.mode, Alternates r.last a.part →
          (∀ n, r.device.Processes a n → nodeProcessRx n ≠ .error ringFull) ∧
          ∀ node', r.device.step a = .ok node' →
            (r.device.resets a → node'.waitingFrames (a.part.or r.last) = [] ∧ node'.rxPacketManager.ring = [] ∧
              node'.txManager.rxSeqNum masterNodeId = nullSequenceNum) ∧
            (¬ r.device.resets a → nodeAccepted r.device a node' = r.device.taken a ∧
              r.device.waitingFrames r.last ++ r.device.taken a =
                nodeQueued r.device a node' ++ node'.waitingFrames (a.part.or r.last) ∧
              r.device.SeqNumMoves node' (r.device.taken a))) := by
  refine ⟨?_, ?_⟩
  · intro cfg r h
    obtain ⟨⟨hholds, hsingle⟩, hlog⟩ := masterReception h
    refine ⟨hlog, fun a halt => ⟨fun m hm => masterRx_avoids (hholds.room_of_processes hsingle hm), ?_⟩⟩
    intro s' hs
    obtain ⟨-, haccepted, hframes, hmoves⟩ := hholds.step hsingle halt hs
    exact ⟨haccepted, hframes, hmoves⟩
  · intro cfg r h
    obtain ⟨hholds, hlog⟩ := nodeReception h
    refine ⟨hlog, fun a halt => ⟨fun n hn => nodeProcessRx_avoids (hholds.room_of_processes halt hn), ?_⟩⟩
    intro node' hs
    obtain ⟨-, hreset, hkeep⟩ := hholds.step halt hs
    exact ⟨hreset, hkeep⟩

def Reception.start {σ : Type} (device : σ) : Reception σ := ⟨device, none, [], []⟩

/-- A master and a node take their first data frames. -/
theorem accepted_iff_queued_first :
    (∃ r, ((masterReceiver dualConfig.mode).system (masterSystem dualConfig)).ReachableWhen
        (masterReceiver dualConfig.mode).guard r ∧
      r.queued.length = 1 ∧ r.accepted = r.queued ++ r.device.master.waitingFrames) ∧
    (∃ r, ((nodeReceiver dualNodeConfig.mode).system (nodeSystem dualNodeConfig)).ReachableWhen
        (nodeReceiver dualNodeConfig.mode).guard r ∧
      r.queued.length = 1 ∧ r.accepted = r.queued ++ r.device.waitingFrames r.last) := by
  refine ⟨?_, ?_⟩
  · obtain ⟨r, hr, hqueued⟩ := System.exists_of_checkedRun
      (S := (masterReceiver dualConfig.mode).system (masterSystem dualConfig)) (s := .start blankRun)
      (p := fun r => r.queued.length == 1) (slot (joinFrame 7) ++ slot (dataFrame 0 3))
      (Receiver.guard_of_check (R := masterReceiver dualConfig.mode)) (.init ⟨blankRun_init, rfl, rfl, rfl⟩)
      (by decide +kernel)
    exact ⟨r, hr, beq_iff_eq.mp hqueued, (accepted_iff_queued.1 hr).1⟩
  · obtain ⟨r, hr, hqueued⟩ := System.exists_of_checkedRun
      (S := (nodeReceiver dualNodeConfig.mode).system (nodeSystem dualNodeConfig)) (s := .start blankNode)
      (p := fun r => r.queued.length == 1)
      (nodeSlot Packet.zero ++ nodeSlot responseFrame ++ nodeSlot firstMasterFrame)
      (Receiver.guard_of_check (R := nodeReceiver dualNodeConfig.mode)) (.init ⟨blankNode_init, rfl, rfl, rfl⟩)
      (by decide +kernel)
    exact ⟨r, hr, beq_iff_eq.mp hqueued, (accepted_iff_queued.2 hr).1⟩

/-- In every run the buffers in use are the one being received into, the one of a frame that waits and
those of the ring, each with one holder, and so no buffer is lost and none is written that the
application can read. -/
theorem rxBuffers_have_one_holder :
    (∀ {cfg : MasterConfig} {r : Reception MasterRun},
      ((masterReceiver cfg.mode).system (masterSystem cfg)).ReachableWhen (masterReceiver cfg.mode).guard r →
      RxInv r.device.master.rx.rxPacketManager r.device.master.rx.nextRxPacketEntry r.device.master.waiting ∧
        r.device.master.rx.nextRxPacketEntry ∉ r.device.master.rx.rxPacketManager.queued) ∧
    (∀ {cfg : NodeConfig} {r : Reception Node},
      ((nodeReceiver cfg.mode).system (nodeSystem cfg)).ReachableWhen (nodeReceiver cfg.mode).guard r →
      RxInv r.device.rxPacketManager r.device.nextRxPacketEntry (r.device.waiting r.last) ∧
        r.device.nextRxPacketEntry ∉ r.device.rxPacketManager.queued) := by
  refine ⟨?_, ?_⟩
  · intro cfg r h
    have hstore := (masterReception h).1.1.store
    exact ⟨hstore, hstore.next_not_queued⟩
  · intro cfg r h
    have hstore := (nodeReception h).1.store
    exact ⟨hstore, hstore.next_not_queued⟩

/-- A frame waits at a master and one is queued, and a node has queued one. -/
theorem rxBuffers_have_one_holder_waiting :
    (∃ r, ((masterReceiver dualConfig.mode).system (masterSystem dualConfig)).ReachableWhen
        (masterReceiver dualConfig.mode).guard r ∧
      r.device.master.waiting = some 0 ∧ r.device.master.rx.rxPacketManager.queued = [1] ∧
      RxInv r.device.master.rx.rxPacketManager r.device.master.rx.nextRxPacketEntry (some 0)) ∧
    (∃ r, ((nodeReceiver dualNodeConfig.mode).system (nodeSystem dualNodeConfig)).ReachableWhen
        (nodeReceiver dualNodeConfig.mode).guard r ∧
      r.device.rxPacketManager.queued = [1] ∧
      RxInv r.device.rxPacketManager r.device.nextRxPacketEntry (r.device.waiting r.last)) := by
  refine ⟨?_, ?_⟩
  · obtain ⟨r, hr, hcheck⟩ := System.exists_of_checkedRun
      (S := (masterReceiver dualConfig.mode).system (masterSystem dualConfig)) (s := .start blankRun)
      (p := fun r => r.device.master.waiting == some 0 && r.device.master.rx.rxPacketManager.queued == [1])
      (slot (joinFrame 7) ++ slot (dataFrame 0 3) ++ [.preProcess (dataFrame 1 2) false fun _ => 0])
      (Receiver.guard_of_check (R := masterReceiver dualConfig.mode)) (.init ⟨blankRun_init, rfl, rfl, rfl⟩)
      (by decide +kernel)
    obtain ⟨hwaiting, hqueued⟩ := Bool.and_eq_true_iff.mp hcheck
    rw [beq_iff_eq] at hwaiting hqueued
    exact ⟨r, hr, hwaiting, hqueued, hwaiting ▸ (rxBuffers_have_one_holder.1 hr).1⟩
  · obtain ⟨r, hr, hqueued⟩ := System.exists_of_checkedRun
      (S := (nodeReceiver dualNodeConfig.mode).system (nodeSystem dualNodeConfig)) (s := .start blankNode)
      (p := fun r => r.device.rxPacketManager.queued == [1])
      (nodeSlot Packet.zero ++ nodeSlot responseFrame ++ nodeSlot firstMasterFrame)
      (Receiver.guard_of_check (R := nodeReceiver dualNodeConfig.mode)) (.init ⟨blankNode_init, rfl, rfl, rfl⟩)
      (by decide +kernel)
    exact ⟨r, hr, beq_iff_eq.mp hqueued, (rxBuffers_have_one_holder.2 hr).1⟩

end Microbus
