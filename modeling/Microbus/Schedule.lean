import Microbus.Foundation.Announce
import Microbus.BusIds
import Microbus.MasterParts

/-! The announced schedule: the owners of the coming slots, as the master and as a node know them. -/
namespace Microbus

open Transition Announce

/-- The owners of the coming slots, from the one that starts. -/
def Master.slots (master : Master) : Nat → TNodeIndex
  | 0 => master.currentTxNodeId
  | k + 1 => master.nextTxNodeId k

theorem shiftSchedule_ok (fuel : Nat) :
    ∀ (i : Nat) (nodes nodes' : Nat → TNodeIndex) (level level' : Nat) (one one' : Bool),
    shiftSchedule fuel i nodes level one = (nodes', level', one') →
      (∀ k, nodes' k = if i ≤ k ∧ k < i + fuel then nodes (k + 1) else nodes k) ∧
        (one' = true ↔ one = true ∨ ∃ k, i ≤ k ∧ k < i + fuel ∧ nodes (k + 1) = masterNodeId) := by
  induction fuel with
  | zero =>
      intro i nodes nodes' level level' one one' h
      cases h
      refine ⟨fun k => (if_neg (by omega)).symm, ?_⟩
      exact ⟨Or.inl, fun h => h.resolve_right (by rintro ⟨k, hk, hk', -⟩; omega)⟩
  | succ fuel ih =>
      intro i nodes nodes' level level' one one' h
      have hself : Function.update nodes i (nodes (i + 1)) i = nodes (i + 1) := Function.update_self _ _ _
      have hother : ∀ k, k ≠ i → Function.update nodes i (nodes (i + 1)) k = nodes k := fun k hk =>
        Function.update_of_ne hk _ _
      -- the rest of the loop does not look at position `i` again
      have hnodes : (∀ k, nodes' k = if i + 1 ≤ k ∧
        k < i + 1 + fuel then Function.update nodes i (nodes (i + 1)) (k + 1)
          else Function.update nodes i (nodes (i + 1)) k) →
          ∀ k, nodes' k = if i ≤ k ∧ k < i + (fuel + 1) then nodes (k + 1) else nodes k := by
        intro hrest k
        rw [hrest k]
        by_cases hk : k = i
        · subst hk
          rw [if_neg (by omega), if_pos (by omega), hself]
        · rw [hother k hk]
          by_cases hlt : i < k
          · rw [hother (k + 1) (by omega)]
            exact if_congr (by omega) rfl rfl
          · rw [if_neg (by omega), if_neg (by omega)]
      have hone : (∃ k, i + 1 ≤ k ∧ k < i + 1 + fuel ∧ Function.update nodes i (nodes (i + 1)) (k + 1) =
        masterNodeId) ↔
          ∃ k, i + 1 ≤ k ∧ k < i + (fuel + 1) ∧ nodes (k + 1) = masterNodeId := by
        constructor
        · rintro ⟨k, hk, hk', hmaster⟩
          rw [hother (k + 1) (by omega)] at hmaster
          exact ⟨k, hk, by omega, hmaster⟩
        · rintro ⟨k, hk, hk', hmaster⟩
          refine ⟨k, hk, by omega, ?_⟩
          rw [hother (k + 1) (by omega)]
          exact hmaster
      unfold shiftSchedule at h
      dsimp only at h
      rw [hself] at h
      split at h
      · rename_i hmaster
        obtain ⟨hrest, hrest'⟩ := ih _ _ _ _ _ _ _ h
        refine ⟨hnodes hrest, ?_⟩
        exact iff_of_true (hrest'.mpr (Or.inl rfl)) (Or.inr ⟨i, Nat.le_refl i, by omega, hmaster⟩)
      · rename_i hmaster
        obtain ⟨hrest, hrest'⟩ := ih _ _ _ _ _ _ _ h
        refine ⟨hnodes hrest, hrest'.trans (or_congr_right (hone.trans ?_))⟩
        constructor
        · rintro ⟨k, hk, hk', hk''⟩
          exact ⟨k, by omega, hk', hk''⟩
        · rintro ⟨k, hk, hk', hk''⟩
          have hki : k ≠ i := by
            rintro rfl
            exact hmaster hk''
          exact ⟨k, by omega, hk', hk''⟩

theorem scheduleNextNode_ne_invalid {scheduler scheduler' : SchedulerState}
    {queues queues' : SchedulerQueues} {level : Nat}
    {node : TNodeIndex} (h : scheduleNextNode scheduler queues level = .ok (node, scheduler', queues')) :
    node ≠ invalidNodeId := by
  have hunallocated : unallocatedNodeId ≠ invalidNodeId := by decide
  unfold scheduleNextNode at h
  split at h
  · cases h
    exact hunallocated
  · obtain ⟨⟨node₁, scheduler₁, queues₁⟩, -, h⟩ := bind_eq_ok.mp h
    obtain ⟨_, -, h⟩ := bind_eq_ok.mp h
    obtain ⟨_, -, h⟩ := bind_eq_ok.mp h
    cases h
    split
    · exact hunallocated
    · rename_i hne
      exact hne

/-- What is announced moves down; a last slot is added, which is the master's if no slot in front of it is. -/
theorem schedulerUpdate_nodes {scheduler scheduler' : SchedulerState} {queues queues' : SchedulerQueues}
    {nodes nodes' : Nat → TNodeIndex} {level width : Nat} (hwidth : scheduler.numTxNodesScheduled = width + 1)
    (h : schedulerUpdateAndCalcNextTxNodes scheduler queues nodes level = .ok (nodes', scheduler', queues')) :
    (∀ k < width, nodes' k = nodes (k + 1)) ∧ nodes' width ≠ invalidNodeId ∧
      (0 < width → (∀ k < width, nodes' k ≠ masterNodeId) → nodes' width = masterNodeId) := by
  have hmasterNodeId : masterNodeId ≠ invalidNodeId := by decide
  unfold schedulerUpdateAndCalcNextTxNodes at h
  rw [hwidth] at h
  split at h
  · rename_i hone
    obtain rfl : width = 0 := by omega
    obtain ⟨⟨node, scheduler₁, queues₁⟩, hnext, h⟩ := bind_eq_ok.mp h
    cases h
    refine ⟨fun k hk => absurd hk (Nat.not_lt_zero k), ?_, fun hc => absurd hc (Nat.lt_irrefl 0)⟩
    rw [Function.update_self]
    exact scheduleNextNode_ne_invalid hnext
  · rw [Nat.add_sub_cancel] at h
    dsimp only at h
    generalize hshift : shiftSchedule width 0 nodes level false = r at h
    obtain ⟨shifted, level', one⟩ := r
    obtain ⟨hshifted, hone⟩ := shiftSchedule_ok width 0 nodes shifted level level' false one hshift
    have hfront : ∀ (last : TNodeIndex) (k : Nat), k < width →
      Function.update shifted width last k = nodes (k + 1) := by
      intro last k hk
      rw [Function.update_of_ne (by omega), hshifted, if_pos (by omega)]
    dsimp only at h
    split at h
    · rename_i hmaster
      obtain ⟨⟨node, scheduler₁, queues₁⟩, hnext, h⟩ := bind_eq_ok.mp h
      cases h
      refine ⟨hfront node, ?_, fun _ hno => ?_⟩
      · rw [Function.update_self]
        exact scheduleNextNode_ne_invalid hnext
      · obtain ⟨k, -, hk, hmaster⟩ := (hone.mp hmaster).resolve_left Bool.false_ne_true
        rw [Nat.zero_add] at hk
        refine absurd ?_ (hno k hk)
        rw [hfront node k hk]
        exact hmaster
    · cases h
      refine ⟨hfront masterNodeId, ?_, fun _ _ => Function.update_self _ _ _⟩
      rw [Function.update_self]
      exact hmasterNodeId

/-- The announced slots are known, the reset slots are the master's, and on the single channel one of the
coming slots is the master's. -/
structure Master.Scheduled (width : Nat) (master : Master) : Prop where
  numTx : master.scheduler.numTxNodesScheduled = width
  resetting : 0 < master.tx.masterResetCycles → ∀ k ≤ width, master.slots k = masterNodeId
  known : ∀ k ≤ width, master.slots k ≠ invalidNodeId
  renewed : 1 < width → Renewed (· = masterNodeId) width master.slots
  recurs : 1 < width → Recurs (· = masterNodeId) width master.slots

namespace Master.Scheduled

variable {width : Nat} {master master' : Master}

theorem of_reset (hnum : master.scheduler.numTxNodesScheduled = width)
    (hslots : ∀ k ≤ width, master.slots k = masterNodeId) : master.Scheduled width where
  numTx := hnum
  resetting _ := hslots
  known k hk := by
    rw [hslots k hk]
    decide
  renewed hw := ⟨1, Nat.le_refl 1, Nat.le_of_lt hw, hslots 1 (Nat.le_of_lt hw)⟩
  recurs hw := ⟨0, by omega, hslots 0 (Nat.zero_le _)⟩

theorem updateSchedule (h : master.Scheduled width) (hpos : 0 < width)
    (hu : masterUpdateSchedule master = .ok master') :
    master'.Scheduled width ∧ Shifted width master.slots master'.slots ∧
      master'.tx.masterResetCycles = master.tx.masterResetCycles := by
  unfold masterUpdateSchedule at hu
  split at hu
  · rename_i hreset
    cases hu
    have hold := h.resetting hreset
    have hnew : ∀ k ≤ width, Master.slots { master with
        currentTxNodeId := masterNodeId
        nextTxNodeId := fun i => if 1 ≤ i ∧ i < master.scheduler.numTxNodesScheduled + 1 then masterNodeId
          else master.nextTxNodeId i } k = masterNodeId := by
      intro k hk
      cases k with
      | zero => rfl
      | succ k =>
          change (if _ then masterNodeId else master.nextTxNodeId k) = masterNodeId
          split
          · rfl
          · exact hold (k + 1) hk
    refine ⟨of_reset h.numTx hnew, fun k hk => ?_, rfl⟩
    rw [hnew k (Nat.le_of_lt hk), hold (k + 1) hk]
  · rename_i hreset
    obtain ⟨width, rfl⟩ : ∃ w, width = w + 1 := Nat.exists_eq_succ_of_ne_zero (Nat.ne_of_gt hpos)
    obtain ⟨⟨nodes, scheduler, queues⟩, hnext, hu⟩ := bind_eq_ok.mp hu
    obtain ⟨hfront, hlast, hmaster⟩ := schedulerUpdate_nodes h.numTx hnext
    have hnum := (schedulerUpdateAndCalcNextTxNodes_ok hnext).2.numTxNodesScheduled
    cases hu
    have hshift : Shifted (width + 1) master.slots (Master.slots { master.withQueues queues with
        scheduler, currentTxNodeId := master.nextTxNodeId 0, nextTxNodeId := nodes }) := by
      intro k hk
      cases k with
      | zero => rfl
      | succ k => exact hfront k (by omega)
    refine ⟨⟨hnum.trans h.numTx, fun hc => absurd hc hreset, ?_, ?_, fun hw => (h.renewed hw).recurs hshift⟩,
      hshift, rfl⟩
    · intro k hk
      rcases Nat.lt_or_eq_of_le hk with hk | rfl
      · exact fun hc => h.known (k + 1) hk ((hshift k hk).symm.trans hc)
      · exact hlast
    · intro hw
      by_cases hno : ∀ k < width, nodes k ≠ masterNodeId
      · exact ⟨width + 1, by omega, Nat.le_refl _, hmaster (by omega) hno⟩
      · obtain ⟨k, hno⟩ := not_forall.mp hno
        obtain ⟨hk, hno⟩ := Classical.not_imp.mp hno
        exact ⟨k + 1, by omega, by omega, not_not.mp hno⟩

end Master.Scheduled

/-- The parts of a slot that leave the schedule alone. -/
structure Master.SameSchedule (master master' : Master) : Prop where
  currentTxNodeId : master'.currentTxNodeId = master.currentTxNodeId
  nextTxNodeId : master'.nextTxNodeId = master.nextTxNodeId
  numTx : master'.scheduler.numTxNodesScheduled = master.scheduler.numTxNodesScheduled
  resetCycles : master'.tx.masterResetCycles ≤ master.tx.masterResetCycles

section SameSchedule

variable {master master' master'' : Master}

namespace Master.SameSchedule

theorem refl (master : Master) : master.SameSchedule master := ⟨rfl, rfl, rfl, Nat.le_refl _⟩

theorem trans (h : master.SameSchedule master') (h' : master'.SameSchedule master'') : master.SameSchedule master'' :=
  ⟨h'.currentTxNodeId.trans h.currentTxNodeId, h'.nextTxNodeId.trans h.nextTxNodeId, h'.numTx.trans h.numTx,
    h'.resetCycles.trans h.resetCycles⟩

theorem slots (h : master.SameSchedule master') : master'.slots = master.slots := by
  funext k
  cases k with
  | zero => exact h.currentTxNodeId
  | succ k => exact congrFun h.nextTxNodeId k

theorem scheduled {width : Nat} (h : master.SameSchedule master') (hs : master.Scheduled width) :
    master'.Scheduled width where
  numTx := h.numTx.trans hs.numTx
  resetting hr := by
    rw [h.slots]
    exact hs.resetting (Nat.lt_of_lt_of_le hr h.resetCycles)
  known := by rw [h.slots]; exact hs.known
  renewed := by rw [h.slots]; exact hs.renewed
  recurs := by rw [h.slots]; exact hs.recurs

end Master.SameSchedule

theorem masterQuickRx_schedule {crcError : Bool} (h : masterQuickRx master crcError = .ok master') :
    master.SameSchedule master' := by
  obtain ⟨_, _, _, _, rfl, -, -, -⟩ := masterQuickRx_ok h
  exact ⟨rfl, rfl, rfl, Nat.le_refl _⟩

theorem schedulerUpdateNodeTxBufferLevel_numTx {scheduler scheduler' : SchedulerState} {queue queue' : NodeQueue}
    {src : TNodeIndex} {level : UInt8}
    (h : schedulerUpdateNodeTxBufferLevel scheduler queue src level = .ok (scheduler', queue')) :
    scheduler'.numTxNodesScheduled = scheduler.numTxNodesScheduled := by
  unfold schedulerUpdateNodeTxBufferLevel at h
  obtain ⟨_, -, h⟩ := bind_eq_ok.mp h
  dsimp only at h
  split at h
  · obtain ⟨_, -, h⟩ := bind_eq_ok.mp h
    cases h
    rfl
  · split at h
    · obtain ⟨_, -, h⟩ := bind_eq_ok.mp h
      cases h
      rfl
    · cases h
      rfl

theorem masterRx_schedule {k : Nat} (h : masterRx master = .ok (k, master')) : master.SameSchedule master' := by
  rcases masterRx_ok h with ⟨-, rfl⟩ | ⟨_, _, _, _, _, _, _, -, -, rfl, hresult⟩
  · exact .refl _
  · refine ⟨rfl, rfl, ?_, Nat.le_refl _⟩
    cases hresult with
    | ignored _ => rfl
    | acked _ _ => rfl
    | registered _ _ => rfl
    | stored _ _ _ hlevel _ => exact schedulerUpdateNodeTxBufferLevel_numTx hlevel

theorem masterTx_schedule (h : masterTx master = .ok master') : master.SameSchedule master' := by
  obtain ⟨tx, htx, h⟩ := bind_eq_ok.mp h
  cases h
  refine ⟨rfl, rfl, rfl, ?_⟩
  unfold masterProcessTx at htx
  split at htx
  · cases htx
    exact Nat.sub_le _ _
  · dsimp only at htx
    generalize (if master.tx.tmpPacketCycle + 1 ≥ 4 then 0 else master.tx.tmpPacketCycle + 1) = cycle at htx
    split at htx
    · cases htx
      exact Nat.le_refl _
    · obtain ⟨⟨r, m⟩, -, htx⟩ := bind_eq_ok.mp htx
      cases r with
      | none =>
          cases htx
          exact Nat.le_refl _
      | some e =>
          obtain ⟨_, -, htx⟩ := bind_eq_ok.mp htx
          cases htx
          exact Nat.le_refl _

theorem masterQuickTx_schedule (master : Master) (stray : TNodeIndex → UInt8) :
    master.SameSchedule (masterQuickTx master stray) := by
  refine ⟨rfl, rfl, rfl, ?_⟩
  unfold masterQuickTx masterQuickUpdateTxPacket
  split
  · exact Nat.le_refl _
  · rename_i r _
    cases r <;> exact Nat.le_refl _

theorem masterRemoveIfTimedOut_schedule {d : TNodeIndex} {k : Nat}
    (h : masterRemoveIfTimedOut master d = .ok (k, master')) :
    master.SameSchedule master' := by
  rcases masterRemoveIfTimedOut_ok h with ⟨-, rfl⟩ | ⟨_, _, _, _, _, -, -, -, -, rfl⟩
  · exact .refl _
  · exact ⟨rfl, rfl, rfl, Nat.le_refl _⟩

theorem masterRemoveAny_schedule {k : Nat} (h : masterRemoveAnyTimeoutNodes master = .ok (k, master')) :
    master.SameSchedule master' :=
  masterRemoveAnyTimeoutNodes_induction (P := fun m => master.SameSchedule m)
    (fun _ _ _ _ _ _ hm hone => hm.trans (masterRemoveIfTimedOut_schedule hone)) (.refl master) h

theorem masterUpdateTimeUs_schedule (master : Master) (usIncr : UInt32) :
    master.SameSchedule (masterUpdateTimeUs master usIncr) := by
  obtain ⟨us, ttl, heq, -⟩ := masterUpdateTimeUs_eq master usIncr
  rw [heq]
  exact ⟨rfl, rfl, rfl, Nat.le_refl _⟩

theorem Master.receive_schedule (master : Master) (frame : Packet) : master.SameSchedule (master.receive frame) :=
  ⟨rfl, rfl, rfl, Nat.le_refl _⟩

theorem Master.call_schedule {call : MasterCall} (h : master.call call = .ok master') :
    master.SameSchedule master' := by
  cases call with
  | allocate =>
      obtain ⟨⟨r, m⟩, halloc, h⟩ := bind_eq_ok.mp h
      obtain ⟨⟨r', tm⟩, -, halloc⟩ := bind_eq_ok.mp halloc
      cases halloc
      cases h
      exact ⟨rfl, rfl, rfl, Nat.le_refl _⟩
  | write data =>
      cases h
      exact ⟨rfl, rfl, rfl, Nat.le_refl _⟩
  | submit dst numBytes =>
      obtain ⟨-, -, tm, -, rfl⟩ := masterSubmit_ok h
      exact ⟨rfl, rfl, rfl, Nat.le_refl _⟩
  | peek =>
      obtain ⟨⟨r, m⟩, hpeek, h⟩ := bind_eq_ok.mp h
      obtain ⟨rpm, rfl, -⟩ := masterPeek_ok hpeek
      cases h
      exact ⟨rfl, rfl, rfl, Nat.le_refl _⟩
  | pop =>
      obtain ⟨rpm, rfl, -⟩ := masterPop_ok h
      exact ⟨rfl, rfl, rfl, Nat.le_refl _⟩
  | getConnectedNodes =>
      obtain ⟨⟨m, bits⟩, hget, h⟩ := bind_eq_ok.mp h
      obtain rfl := getConnectedNodesBitField_ok hget
      cases h
      exact ⟨rfl, rfl, rfl, Nat.le_refl _⟩
  | resetTxCredits =>
      cases h
      exact ⟨rfl, rfl, rfl, Nat.le_refl _⟩

end SameSchedule

theorem keptByParts_scheduled {width : Nat} (hpos : 0 < width) : KeptByParts (Master.Scheduled width) where
  receive h frame := (Master.receive_schedule _ frame).scheduled h
  updateSchedule h hs := (h.updateSchedule hpos hs).1
  quickRx h hs := (masterQuickRx_schedule hs).scheduled h
  rx h hs := (masterRx_schedule hs).scheduled h
  tx h hs := (masterTx_schedule hs).scheduled h
  quickTx h stray := (masterQuickTx_schedule _ stray).scheduled h
  removeIfTimedOut _ h hs := (masterRemoveIfTimedOut_schedule hs).scheduled h
  updateTimeUs h usIncr := (masterUpdateTimeUs_schedule _ usIncr).scheduled h
  call h hs := (Master.call_schedule hs).scheduled h

theorem scheduled_of_reaches {cfg : MasterConfig} {master : Master} (hpos : 0 < cfg.numTxNodesScheduled.toNat)
    (h : cfg.Reaches master) : master.Scheduled cfg.numTxNodesScheduled.toNat := by
  obtain ⟨s, hreach, rfl⟩ := h
  refine System.ReachableWhen.invariant (P := fun s : MasterRun => s.master.Scheduled cfg.numTxNodesScheduled.toNat)
    hreach ?_ fun s a s' h _ hs => (keptByParts_scheduled hpos).step h hs
  rintro s ⟨entries, hinit, -, -⟩
  obtain ⟨rx, -, hinit⟩ := bind_eq_ok.mp hinit
  rw [← pure_eq_ok.mp hinit]
  refine .of_reset rfl fun k _ => ?_
  cases k <;> rfl

/-- The owners of the coming slots as a node knows them. -/
def Node.slots (node : Node) : Nat → TNodeIndex
  | 0 => node.currentTxNodeId
  | k + 1 => node.nextTxNodeId k

/-- A slot that no node takes for its own. -/
def NoOwner (nodeId : TNodeIndex) : Prop := nodeId = masterNodeId ∨ nodeId = invalidNodeId

theorem ValidNodeId.not_noOwner {nodeId : TNodeIndex} (h : ValidNodeId nodeId) : ¬ NoOwner nodeId := by
  rintro (rfl | rfl)
  · rcases h with hc | ⟨hc, -⟩ <;> exact absurd hc (by decide)
  · rcases h with hc | ⟨-, hc⟩ <;> exact absurd hc (by decide)

/-- A frame whose schedule a node takes over. -/
def CarriesSchedule (frame : Packet) (crcError : Bool) : Prop :=
  nodeReadsFrame frame crcError ∧ frame.getPacketType ≠ some .masterReset

section Node

variable {node node' : Node}

theorem Node.slots_congr (hcurrent : node'.currentTxNodeId = node.currentTxNodeId)
    (hnext : node'.nextTxNodeId = node.nextTxNodeId) : node'.slots = node.slots := by
  funext k
  cases k with
  | zero => exact hcurrent
  | succ k => exact congrFun hnext k

theorem Node.Fresh.slots (h : node.Fresh) (k : Nat) : node.slots k = masterNodeId := by
  cases k with
  | zero => exact h.currentTxNodeId
  | succ k => exact congrFun h.nextTxNodeId k

theorem Node.SameReception.slots (h : node.SameReception node') : node'.slots = node.slots :=
  Node.slots_congr h.currentTxNodeId h.nextTxNodeId

theorem nodeUpdateSchedule_slots (node : Node) :
    Shifted maxTxNodesScheduled node.slots (nodeUpdateSchedule node).slots ∧
      (nodeUpdateSchedule node).slots maxTxNodesScheduled = invalidNodeId := by
  refine ⟨fun k hk => ?_, rfl⟩
  cases k with
  | zero => rfl
  | succ k => exact if_pos (by omega)

theorem nodeProcessRx_slots (h : nodeProcessRx node = .ok node') : node'.slots = node.slots := by
  obtain ⟨m, -, ⟨-, rfl⟩ | ⟨e, -, -, hresult⟩⟩ := nodeProcessRx_ok h
  · exact Node.slots_congr rfl rfl
  · cases hresult with
    | freed _ => exact Node.slots_congr rfl rfl
    | joined _ _ _ _ => exact Node.slots_congr rfl rfl
    | stored _ _ _ _ _ _ => exact Node.slots_congr rfl rfl

/-- The quick part starts the node anew, takes over the schedule of the frame, or leaves the schedule. -/
theorem nodeQuick_slots (hinit : node.initialised = true) {crcError : Bool} {frame : Packet}
    (hframe : node.packetAt node.nextRxPacketEntry = frame) (h : nodeQuickProcessPrevRx node crcError = .ok node') :
    (node.resetBy frame crcError ∧ node'.Fresh) ∨
      (¬ node.resetBy frame crcError ∧ node'.slots 0 = node.slots 0 ∧ node'.nodeId = node.nodeId ∧
        ((CarriesSchedule frame crcError ∧ ∀ k (hk : k < maxTxNodesScheduled), node'.slots (k + 1) =
          frame.nextTxNodeId ⟨k, hk⟩) ∨
          (¬ CarriesSchedule frame crcError ∧ node'.slots = node.slots))) := by
  have hresult := nodeQuickProcessPrevRx_ok hinit h
  rw [hframe] at hresult
  cases hresult with
  | unread hread =>
      exact Or.inr ⟨fun hc => hread hc.2.1, rfl, rfl, Or.inr ⟨fun hc => hread hc.1, Node.slots_congr rfl rfl⟩⟩
  | reset hread htype hremove =>
      rcases nodeRemoveFromNetwork_ok hremove with ⟨hid, rfl⟩ | ⟨hid, hfresh, -⟩
      · exact Or.inr ⟨fun hc => hc.1 hid, rfl, rfl, Or.inr ⟨fun hc => hc.2 htype, Node.slots_congr rfl rfl⟩⟩
      · exact Or.inl ⟨⟨hid, hread, htype⟩, hfresh⟩
  | dropped hread htype _ =>
      rw [nodeRecordSchedule_eq_ackIn]
      exact Or.inr ⟨fun hc => htype hc.2.2, rfl, rfl, Or.inl ⟨⟨hread, htype⟩, fun k hk => dif_pos hk⟩⟩
  | kept hread htype _ _ _ =>
      rw [nodeRecordSchedule_eq_ackIn]
      exact Or.inr ⟨fun hc => htype hc.2.2, rfl, rfl, Or.inl ⟨⟨hread, htype⟩, fun k hk => dif_pos hk⟩⟩
  | inOrder hread _ _ _ hdata _ =>
      have htype : frame.getPacketType ≠ some .masterReset := by
        rw [hdata]
        decide
      rw [nodeRecordSchedule_eq_ackIn]
      exact Or.inr ⟨fun hc => htype hc.2.2, rfl, rfl, Or.inl ⟨⟨hread, htype⟩, fun k hk => dif_pos hk⟩⟩

end Node

end Microbus
