import Microbus.Membership
import Microbus.MasterSlots
import Mathlib.Data.List.Perm.Subperm

/-! The nodes with data to send: the queue that the scheduler walks and the levels that it records. -/
namespace Microbus

open Transition

theorem NodeQueue.numNodes_lt {q : NodeQueue} {d : TNodeIndex} (hnodup : q.toList.Nodup)
    (hsmall : ∀ n ∈ q.toList, n.toNat < maxNodes) (hd : d.toNat < maxNodes) (hnot : d ∉ q.toList) :
    q.numNodes < maxNodes := by
  have hinj : Function.Injective UInt8.toNat := fun _ _ h => UInt8.toNat_inj.mp h
  have hdistinct : ((d :: q.toList).map UInt8.toNat).Nodup := (List.nodup_cons.mpr ⟨hnot, hnodup⟩).map hinj
  have hsub : (d :: q.toList).map UInt8.toNat ⊆ List.range maxNodes := by
    intro k hk
    obtain ⟨n, hn, rfl⟩ := List.mem_map.mp hk
    rcases List.mem_cons.mp hn with rfl | hn
    · exact List.mem_range.mpr hd
    · exact List.mem_range.mpr (hsmall n hn)
  have hlen := (List.subperm_of_subset hdistinct hsub).length_le
  rw [List.length_map, List.length_cons, NodeQueue.length_toList, List.length_range] at hlen
  exact hlen

/-- A node in the queue has a level, and if `full` then a node with a level is in the queue. -/
structure LevelInv (full : Prop) (level : TNodeIndex → UInt8) (queue : NodeQueue) : Prop where
  nodup : queue.toList.Nodup
  positive : ∀ n ∈ queue.toList, 0 < level n
  small : ∀ n, 0 < level n → n.toNat < maxNodes
  queued : full → ∀ n, 0 < level n → n ∈ queue.toList

namespace LevelInv

variable {full : Prop} {level level' : TNodeIndex → UInt8} {queue queue' : NodeQueue}

theorem congr (h : LevelInv full level queue) (hlevel : level' = level) (hlist : queue'.toList = queue.toList) :
    LevelInv full level' queue' := by
  subst hlevel
  exact ⟨hlist ▸ h.nodup, hlist ▸ h.positive, h.small, hlist ▸ h.queued⟩

theorem room (h : LevelInv full level queue) {src : TNodeIndex} (hsrc : src.toNat < maxNodes) (hz : level src = 0) :
    queue.numNodes < maxNodes := by
  refine NodeQueue.numNodes_lt h.nodup (fun n hn => h.small n (h.positive n hn)) hsrc ?_
  intro hc
  exact absurd (h.positive src hc) (by rw [hz]; decide)

end LevelInv

theorem eq_zero_or_pos_level (level : UInt8) : level = 0 ∨ 0 < level := by
  rcases Nat.eq_zero_or_pos level.toNat with h | h
  · exact Or.inl (UInt8.toNat_inj.mp h)
  · exact Or.inr (UInt8.lt_iff_toNat_lt.mpr h)

/-- The scheduler can record a level unless it falls to 0 for a node that is not in the queue. -/
theorem schedulerUpdateNodeTxBufferLevel_total {full : Prop} {scheduler : SchedulerState} {queue : NodeQueue}
    (h : LevelInv full scheduler.nodeTxBufferLevel queue) {src : TNodeIndex} {bufferLevel : UInt8} :
    (∃ r, schedulerUpdateNodeTxBufferLevel scheduler queue src bufferLevel = .ok r) ↔
      src.toNat < maxNodes ∧ (0 < scheduler.nodeTxBufferLevel src → bufferLevel = 0 → src ∈ queue.toList) := by
  unfold schedulerUpdateNodeTxBufferLevel
  constructor
  · rintro ⟨r, hr⟩
    obtain ⟨_, hsrc, hr⟩ := bind_eq_ok.mp hr
    refine ⟨checkIndex_ok.mp hsrc, ?_⟩
    intro hpos hzero
    have hne : ¬ (scheduler.nodeTxBufferLevel src = 0 ∧ bufferLevel > 0) := by
      rintro ⟨hc, -⟩
      exact absurd hpos (by rw [hc]; decide)
    dsimp only at hr
    rw [if_neg hne, if_pos ⟨hpos, hzero⟩] at hr
    obtain ⟨queue', hremove, -⟩ := bind_eq_ok.mp hr
    exact nodeQueueRemove_mem hremove
  · rintro ⟨hsrc, hqueued⟩
    rw [show checkIndex maxNodes src .schedulerUpdateNodeTxBufferLevel = .ok () from checkIndex_ok.mpr hsrc]
    dsimp only [bind, Except.bind]
    split
    · rename_i hrise
      obtain ⟨queue', hadd⟩ := nodeQueueAdd_total src (h.room hsrc hrise.1)
      rw [hadd]
      exact ⟨_, rfl⟩
    · split
      · rename_i hfall
        rw [nodeQueueRemove_total (hqueued hfall.1 hfall.2)]
        exact ⟨_, rfl⟩
      · exact ⟨_, rfl⟩

theorem LevelInv.update {full : Prop} {scheduler scheduler' : SchedulerState} {queue queue' : NodeQueue}
    (h : LevelInv full scheduler.nodeTxBufferLevel queue) {src : TNodeIndex} {bufferLevel : UInt8}
    (hu : schedulerUpdateNodeTxBufferLevel scheduler queue src bufferLevel = .ok (scheduler', queue')) :
    LevelInv full scheduler'.nodeTxBufferLevel queue' ∧
      scheduler'.nodeTxBufferLevel = Function.update scheduler.nodeTxBufferLevel src bufferLevel := by
  unfold schedulerUpdateNodeTxBufferLevel at hu
  obtain ⟨_, hsrc, hu⟩ := bind_eq_ok.mp hu
  have hsrc' := checkIndex_ok.mp hsrc
  -- what the three branches have in common
  have hkept : ∀ q : NodeQueue, q.toList.Nodup → (∀ n, n ≠ src → (n ∈ q.toList ↔ n ∈ queue.toList)) →
      (src ∈ q.toList → 0 < bufferLevel) → (full → 0 < bufferLevel → src ∈ q.toList) →
      LevelInv full (Function.update scheduler.nodeTxBufferLevel src bufferLevel) q := by
    intro q hnodup hother hpos hqueued
    refine ⟨hnodup, ?_, ?_, ?_⟩
    · intro n hn
      by_cases hns : n = src
      · subst hns
        rw [Function.update_self]
        exact hpos hn
      · rw [Function.update_of_ne hns]
        exact h.positive n ((hother n hns).mp hn)
    · intro n hn
      by_cases hns : n = src
      · exact hns ▸ hsrc'
      · rw [Function.update_of_ne hns] at hn
        exact h.small n hn
    · intro hfull n hn
      by_cases hns : n = src
      · subst hns
        rw [Function.update_self] at hn
        exact hqueued hfull hn
      · rw [Function.update_of_ne hns] at hn
        exact (hother n hns).mpr (h.queued hfull n hn)
  dsimp only at hu
  split at hu
  · rename_i hrise
    obtain ⟨q, hadd, hu⟩ := bind_eq_ok.mp hu
    cases hu
    obtain ⟨hlist, -⟩ := nodeQueueAdd_ok hadd
    refine ⟨hkept _ (nodup_nodeQueueAdd hadd h.nodup).1 ?_ (fun _ => hrise.2) ?_, rfl⟩
    · intro n hns
      rw [hlist]
      split
      · exact Iff.rfl
      · rw [List.mem_append, List.mem_singleton]
        exact ⟨fun hc => hc.resolve_right hns, Or.inl⟩
    · intro _ _
      rw [hlist]
      split
      · assumption
      · exact List.mem_append_right _ (List.mem_singleton.mpr rfl)
  · rename_i hrise
    split at hu
    · rename_i hfall
      obtain ⟨q, hremove, hu⟩ := bind_eq_ok.mp hu
      cases hu
      obtain rfl := nodeQueueRemove_ok hremove
      obtain ⟨hnodup, hmem⟩ := nodup_removeIfExists src h.nodup
      refine ⟨hkept _ hnodup ?_ ?_ ?_, rfl⟩
      · intro n hns
        rw [hmem n]
        exact ⟨And.right, fun hn => ⟨hns, hn⟩⟩
      · intro hc
        exact absurd rfl ((hmem src).mp hc).1
      · intro _ hc
        exact absurd hc (by rw [hfall.2]; decide)
    · rename_i hfall
      cases hu
      refine ⟨hkept queue h.nodup (fun _ _ => Iff.rfl) ?_ ?_, rfl⟩
      · intro hn
        rcases eq_zero_or_pos_level bufferLevel with hz | hpos
        · exact absurd ⟨h.positive src hn, hz⟩ hfall
        · exact hpos
      · intro hfull hpos
        rcases eq_zero_or_pos_level (scheduler.nodeTxBufferLevel src) with hz | hold
        · exact absurd ⟨hz, hpos⟩ hrise
        · exact h.queued hfull src hold

def Master.Levels (full : Prop) (master : Master) : Prop :=
  LevelInv full master.scheduler.nodeTxBufferLevel master.nodeTxNodes

theorem keptByNetwork_levels (full : Prop) : KeptByNetwork (Master.Levels full) where
  same h hs := h.congr (by rw [hs.scheduler]) (by rw [hs.nodeTxNodes])
  updateSchedule h hs := by
    obtain ⟨_, _, _, queues, hsame, hlevels, rfl⟩ := masterUpdateSchedule_ok hs
    exact h.congr hlevels.nodeTxBufferLevel hsame.nodeTxNodes
  quickRx h hq := by
    obtain ⟨rx, nw, ttl, m, rfl, -, -, -⟩ := masterQuickRx_ok hq
    exact h
  rx h hr := by
    rcases masterRx_ok hr with ⟨-, rfl⟩ | ⟨_, _, _, _, _, _, _, -, -, rfl, hresult⟩
    · exact h
    · cases hresult with
      | ignored _ => exact h
      | acked _ _ => exact h
      | stored _ _ _ hlevel _ => exact (h.update hlevel).1
      | registered _ _ => exact h
  updateTimeUs usIncr h := by
    rename_i master
    obtain ⟨us, ttl, heq, -⟩ := masterUpdateTimeUs_eq master usIncr
    rw [heq]
    exact h
  connected h := h

section Removal

variable {full : Prop} {master master' : Master} {k : Nat}

theorem Master.Levels.removeIfTimedOut (h : master.Levels full) {d : TNodeIndex}
    (hz : full → master.masterNodeTimeToLive d = removeNodeTTL → master.scheduler.nodeTxBufferLevel d = 0)
    (hr : masterRemoveIfTimedOut master d = .ok (k, master')) : master'.Levels full := by
  rcases masterRemoveIfTimedOut_ok hr with ⟨-, rfl⟩ | ⟨_, _, _, _, _, hdue, -, -, -, rfl⟩
  · exact h
  · obtain ⟨hnodup, hmem⟩ := nodup_removeIfExists d h.nodup
    refine ⟨hnodup, fun n hn => h.positive n ((hmem n).mp hn).2, h.small, ?_⟩
    intro hfull n hn
    refine (hmem n).mpr ⟨?_, h.queued hfull n hn⟩
    rintro rfl
    have hn' : 0 < master.scheduler.nodeTxBufferLevel n := hn
    rw [hz hfull hdue] at hn'
    exact absurd hn' (by decide)

/-- The nodes that are due for removal have announced that nothing is left to send. -/
def Master.DueEmpty (master : Master) : Prop :=
  ∀ d, Station d → master.masterNodeTimeToLive d = removeNodeTTL → master.scheduler.nodeTxBufferLevel d = 0

theorem Master.Levels.removeAny (h : master.Levels full) (hdue : full → master.DueEmpty)
    (hr : masterRemoveAnyTimeoutNodes master = .ok (k, master')) : master'.Levels full := by
  refine (masterRemoveAnyTimeoutNodes_induction
    (P := fun master => master.Levels full ∧ (full → master.DueEmpty)) ?_ ⟨h, hdue⟩ hr).1
  intro d hfirst hlast master k master' ⟨h, hdue⟩ hone
  refine ⟨h.removeIfTimedOut (fun hfull => hdue hfull d ⟨hfirst, hlast⟩) hone, ?_⟩
  intro hfull n hn hn'
  rcases masterRemoveIfTimedOut_ok hone with ⟨-, rfl⟩ | ⟨_, _, _, _, _, -, -, -, -, rfl⟩
  · exact hdue hfull n hn hn'
  · by_cases hnd : n = d
    · subst hnd
      have hgone : Function.update master.masterNodeTimeToLive n 0 n = removeNodeTTL := hn'
      rw [Function.update_self] at hgone
      exact absurd hgone (by decide)
    · exact hdue hfull n hn ((Function.update_of_ne hnd _ _).symm.trans hn')

end Removal

theorem levels_init {full : Prop} {numTx maxTx maxRx : UInt8} {entries : Nat → PacketEntry} {master : Master}
    (hi : masterInit numTx maxTx entries maxRx = .ok master) : master.Levels full := by
  obtain ⟨rx, -, hi⟩ := bind_eq_ok.mp hi
  cases hi
  have hnone : ¬ (0 : UInt8) < 0 := by decide
  exact ⟨List.nodup_nil, fun _ hn => absurd hn List.not_mem_nil, fun _ hn => absurd hn hnone,
    fun _ _ hn => absurd hn hnone⟩

/-- In every run a node in the queue has a level. -/
theorem levels_of_reachable {cfg : MasterConfig} {s : MasterRun} (h : (masterSystem cfg).Reachable s) :
    s.master.Levels False :=
  (keptByNetwork_levels False).reachable levels_init (fun _ hp hone => hp.removeIfTimedOut False.elim hone) h

/-- The level of node `d` once the frame that waits is worked through. -/
def Master.levelAfterRx (master : Master) (d : TNodeIndex) : UInt8 :=
  match master.rx.prevRxPacketEntry with
  | none => master.scheduler.nodeTxBufferLevel d
  | some e =>
      let frame := master.rx.packetAt e
      if master.rx.validRxPacket = true ∧ master.rx.validRxSeqNum = true ∧ frame.getPacketType = some .nodeData ∧
          frame.srcNodeId = d then frame.bufferLevel
      else master.scheduler.nodeTxBufferLevel d

/-- No node that a slot removes has announced more data than it sent. -/
def LeavesEmpty {mode : ChannelMode} (s : MasterRun) : MasterAction mode → Prop
  | .postProcess => ∀ d, Station d → s.master.masterNodeTimeToLive d = removeNodeTTL → s.master.levelAfterRx d = 0
  | .processTx _ => s.master.DueEmpty
  | _ => True

theorem masterRx_level {full : Prop} {master master' : Master} {k : Nat} (h : master.Levels full)
    (hr : masterRx master = .ok (k, master')) (d : TNodeIndex) :
    master'.scheduler.nodeTxBufferLevel d = master.levelAfterRx d := by
  unfold Master.levelAfterRx
  rcases masterRx_ok hr with ⟨hvalid, heq⟩ | ⟨e, _, _, _, _, _, _, hvalid, hprev, rfl, hresult⟩
  · rw [heq, hvalid]
    cases master.rx.prevRxPacketEntry with
    | none => rfl
    | some e => simp
  · rw [hprev]
    dsimp only
    cases hresult with
    | ignored hdata => rw [if_neg (fun hc => hdata hc.2.2.1)]
    | acked hdata _ =>
        rw [if_neg]
        rintro ⟨-, hseq, htype, -⟩
        rw [hdata htype] at hseq
        cases hseq
    | stored hdata hseq _ hlevel _ =>
        rw [(h.update hlevel).2]
        by_cases hd : (master.rx.packetAt e).srcNodeId = d
        · rw [if_pos ⟨hvalid, hseq, hdata, hd⟩, hd, Function.update_self]
        · rw [if_neg (fun hc => hd hc.2.2.2), Function.update_of_ne (Ne.symm hd)]
    | registered hrequest _ =>
        rw [if_neg]
        · rfl
        · rintro ⟨-, -, htype, -⟩
          rw [hrequest] at htype
          exact absurd htype (by decide)

theorem masterTx_scheduler {master master' : Master} (h : masterTx master = .ok master') :
    master'.scheduler = master.scheduler ∧ master'.masterNodeTimeToLive = master.masterNodeTimeToLive := by
  obtain ⟨_, rfl, -⟩ := masterTx_ok h
  exact ⟨rfl, rfl⟩

/-- What is due when a slot removes nodes was due when the slot began. -/
theorem dueEmpty_of_removes {mode : ChannelMode} {s : MasterRun} {a : MasterAction mode} {m : Master} {full : Prop}
    (h : s.master.Levels full) (hguard : LeavesEmpty s a) (hr : s.Removes a m) : m.DueEmpty := by
  intro d hd hdue
  cases hr with
  | postProcess h₁ h₂ =>
      obtain ⟨hscheduler, httl⟩ := masterTx_scheduler h₂
      obtain ⟨-, -, hback⟩ := masterRx_part h₁
      rw [hscheduler, masterRx_level h h₁]
      exact hguard d hd (hback d (httl ▸ hdue))
  | @processTx stray m₁ m₂ h₁ h₂ =>
      obtain ⟨tx, heq, -⟩ := masterQuickTx_eq m₂ stray
      obtain ⟨_, _, _, _, -, hlevels, rfl⟩ := masterUpdateSchedule_ok h₂
      obtain ⟨hscheduler, httl⟩ := masterTx_scheduler h₁
      rw [heq] at hdue ⊢
      have hlevel := congrFun hlevels.nodeTxBufferLevel d
      rw [hscheduler] at hlevel
      have hdue' : m₁.masterNodeTimeToLive d = removeNodeTTL := hdue
      rw [httl] at hdue'
      exact hlevel.trans (hguard d hd hdue')

/-- As long as no node leaves with data to send, the queue holds the nodes with a level, and the
scheduler can record any level. -/
theorem nodeTxNodes_iff_level {cfg : MasterConfig} {s : MasterRun}
    (h : (masterSystem cfg).ReachableWhen LeavesEmpty s) :
    (∀ n, n ∈ s.master.nodeTxNodes.toList ↔ 0 < s.master.scheduler.nodeTxBufferLevel n) ∧
      ∀ (a : MasterAction cfg.mode) (m : Master), s.Processes a m → ∀ src bufferLevel, src.toNat < maxNodes →
        ∃ scheduler queue,
          schedulerUpdateNodeTxBufferLevel m.scheduler m.nodeTxNodes src bufferLevel = .ok (scheduler, queue) ∧
          (src ∈ queue.toList ↔ 0 < bufferLevel) := by
  have hkept := keptByNetwork_levels True
  have hlevels : s.master.Levels True := by
    refine System.ReachableWhen.invariant (P := fun s => s.master.Levels True) h ?_ ?_
    · rintro s ⟨entries, hi, -, -⟩
      exact levels_init hi
    · intro s a s' hp hguard hs
      refine hkept.step hp ?_ hs
      intro m m' k hr hm hremove
      exact hm.removeAny (fun _ => dueEmpty_of_removes hp hguard hr) hremove
  refine ⟨fun n => ⟨hlevels.positive n, hlevels.queued trivial n⟩, ?_⟩
  intro a m hm src bufferLevel hsrc
  have hm' : m.Levels True := hkept.betweenTicks.processes hlevels hm
  obtain ⟨⟨scheduler, queue⟩, hu⟩ :=
    (schedulerUpdateNodeTxBufferLevel_total hm').mpr ⟨hsrc, fun hpos _ => hm'.queued trivial src hpos⟩
  obtain ⟨hafter, hlevel⟩ := hm'.update hu
  refine ⟨scheduler, queue, hu, ?_⟩
  have hsame : scheduler.nodeTxBufferLevel src = bufferLevel := by rw [hlevel, Function.update_self]
  rw [← hsame]
  exact ⟨hafter.positive src, hafter.queued trivial src⟩

def dataFrame (txSeqNum bufferLevel : UInt8) : Packet :=
  (fillHeader Packet.zero false 1 masterNodeId .nodeData 1 txSeqNum).setBufferLevel bufferLevel

/-- The test of `LeavesEmpty` on the ids that nodes have. -/
def leavesEmptyCheck {mode : ChannelMode} (s : MasterRun) (_ : MasterAction mode) : Bool :=
  (List.range maxNodes).all fun k =>
    s.master.masterNodeTimeToLive (UInt8.ofNat k) != removeNodeTTL ||
      (s.master.levelAfterRx (UInt8.ofNat k) == 0 && s.master.scheduler.nodeTxBufferLevel (UInt8.ofNat k) == 0)

theorem leavesEmpty_of_check {mode : ChannelMode} (s : MasterRun) (a : MasterAction mode)
    (h : leavesEmptyCheck s a = true) : LeavesEmpty s a := by
  have hall : ∀ d, Station d → s.master.masterNodeTimeToLive d = removeNodeTTL →
      s.master.levelAfterRx d = 0 ∧ s.master.scheduler.nodeTxBufferLevel d = 0 := by
    intro d hd hdue
    have hone := List.all_eq_true.mp h d.toNat (List.mem_range.mpr hd.2)
    rw [UInt8.ofNat_toNat, hdue] at hone
    simpa using hone
  cases a with
  | postProcess => exact fun d hd hdue => (hall d hd hdue).1
  | processTx stray => exact fun d hd hdue => (hall d hd hdue).2
  | _ => trivial

/-- A node that has announced data is in the queue. -/
theorem nodeTxNodes_iff_level_announced : ∃ s, (masterSystem dualConfig).ReachableWhen LeavesEmpty s ∧
    s.master.scheduler.nodeTxBufferLevel 1 = 3 ∧
    (1 ∈ s.master.nodeTxNodes.toList ↔ 0 < s.master.scheduler.nodeTxBufferLevel 1) := by
  obtain ⟨s, hs, hlevel⟩ := System.exists_of_checkedRun (S := masterSystem dualConfig) (s := blankRun)
    (p := fun s => s.master.scheduler.nodeTxBufferLevel 1 == 3) (slot (joinFrame 7) ++ slot (dataFrame 0 3))
    leavesEmpty_of_check (.init blankRun_init) (by decide +kernel)
  exact ⟨s, hs, beq_iff_eq.mp hlevel, (nodeTxNodes_iff_level hs).1 1⟩

/-- Node 1 leaves with three packets to send: its level stays, and the next node with the id that has
nothing to send stops the master. -/
theorem level_stays_behind : ∃ s, (masterSystem dualConfig).Reachable s ∧
    ¬ (1 ∈ s.master.nodeTxNodes.toList ↔ 0 < s.master.scheduler.nodeTxBufferLevel 1) ∧
    (masterSystem dualConfig).run s (slot (joinFrame 8) ++ slot (dataFrame 0 0)) =
      .error (.assertFailed .nodeQueueRemove) := by
  obtain ⟨s, hrun, hcheck⟩ := System.exists_of_holdsAfter
    (x := (masterSystem dualConfig).run blankRun
      (slot (joinFrame 7) ++ slot (dataFrame 0 3) ++ timeOut ++ slot Packet.zero))
    (p := fun s => (s.master.nodeTxNodes.toList == []) && (s.master.scheduler.nodeTxBufferLevel 1 == 3) &&
      (System.faultOf ((masterSystem dualConfig).run s (slot (joinFrame 8) ++ slot (dataFrame 0 0))) ==
        some (.assertFailed .nodeQueueRemove))) (by decide +kernel)
  simp only [Bool.and_eq_true, beq_iff_eq] at hcheck
  obtain ⟨⟨hqueue, hlevel⟩, hfault⟩ := hcheck
  refine ⟨s, System.Reachable.run (.init blankRun_init) hrun, ?_, System.eq_error_of_faultOf hfault⟩
  rw [hqueue, hlevel]
  decide

end Microbus
