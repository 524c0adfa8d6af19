import Microbus.NodeLevels

/-! Whether the scheduler learns from the levels that nodes report when they have run dry. -/
namespace Microbus

open Transition

/-- A frame that waits for `masterProcessRx` and reports the level of a node that is there: an empty frame, or a
data frame in order. -/
structure Master.Reports (master : Master) (frame : Packet) : Prop where
  valid : master.rx.validRxPacket = true
  packet : ∃ e, master.rx.prevRxPacketEntry = some e ∧ master.rx.packetAt e = frame
  station : Station frame.srcNodeId
  there : master.masterNodeTimeToLive frame.srcNodeId ≠ 0
  reports : frame.getPacketType = some .nodeEmpty ∨
    (frame.getPacketType = some .nodeData ∧ master.rx.validRxSeqNum = true)

/-- The step works through a frame that reports a level, from `master` to `master'`. -/
structure MasterRun.Hears {mode : ChannelMode} (s : MasterRun) (a : MasterAction mode) (master master' : Master)
    (frame : Packet) : Prop where
  processes : s.Processes a master
  processed : ∃ k, masterRx master = .ok (k, master')
  reports : master.Reports frame

/-- Afterwards the node is in the queue exactly if it reported more than nothing. -/
def MasterRun.KnowsLevel {mode : ChannelMode} (s : MasterRun) (a : MasterAction mode) : Prop :=
  ∀ master master' frame, s.Hears a master master' frame →
    (frame.srcNodeId ∈ master'.nodeTxNodes.toList ↔ 0 < frame.bufferLevel)

/-- An empty frame reports what the queue says already; a data frame comes from a node that is in the queue if a
level is recorded for it. -/
structure Master.TracksLevel (master : Master) (frame : Packet) : Prop where
  empty : frame.getPacketType = some .nodeEmpty →
    (frame.srcNodeId ∈ master.nodeTxNodes.toList ↔ 0 < frame.bufferLevel)
  data : frame.getPacketType = some .nodeData → 0 < master.scheduler.nodeTxBufferLevel frame.srcNodeId →
    frame.srcNodeId ∈ master.nodeTxNodes.toList

def MasterRun.TracksLevel {mode : ChannelMode} (s : MasterRun) (a : MasterAction mode) : Prop :=
  ∀ master master' frame, s.Hears a master master' frame → master.TracksLevel frame

/-- Recording a level puts the node in or takes it out, unless it is missing from the queue already. -/
theorem mem_updated_iff {scheduler scheduler' : SchedulerState} {queue queue' : NodeQueue} {src : TNodeIndex}
    {bufferLevel : UInt8} (h : LevelInv False scheduler.nodeTxBufferLevel queue)
    (hu : schedulerUpdateNodeTxBufferLevel scheduler queue src bufferLevel = .ok (scheduler', queue')) :
    (src ∈ queue'.toList ↔ 0 < bufferLevel) ↔ (0 < scheduler.nodeTxBufferLevel src → src ∈ queue.toList) := by
  have hzero : ∀ level : UInt8, level = 0 → ¬ 0 < level := by
    rintro _ rfl
    decide
  unfold schedulerUpdateNodeTxBufferLevel at hu
  obtain ⟨_, -, hu⟩ := bind_eq_ok.mp hu
  dsimp only at hu
  by_cases hrise : scheduler.nodeTxBufferLevel src = 0 ∧ bufferLevel > 0
  · rw [if_pos hrise] at hu
    obtain ⟨q, hadd, hu⟩ := bind_eq_ok.mp hu
    cases hu
    have hmem : src ∈ queue'.toList := by
      rw [(nodeQueueAdd_ok hadd).1]
      split
      · assumption
      · exact List.mem_append_right _ (List.mem_singleton.mpr rfl)
    exact iff_of_true (iff_of_true hmem hrise.2) fun hc => absurd hc (hzero _ hrise.1)
  · rw [if_neg hrise] at hu
    by_cases hfall : scheduler.nodeTxBufferLevel src > 0 ∧ bufferLevel = 0
    · rw [if_pos hfall] at hu
      obtain ⟨q, hremove, hu⟩ := bind_eq_ok.mp hu
      cases hu
      have hgone : src ∉ queue'.toList := by
        rw [nodeQueueRemove_ok hremove]
        exact fun hc => absurd rfl (((nodup_removeIfExists src h.nodup).2 src).mp hc).1
      exact iff_of_true (iff_of_false hgone (hzero _ hfall.2)) fun _ => nodeQueueRemove_mem hremove
    · rw [if_neg hfall] at hu
      cases hu
      rcases eq_zero_or_pos_level (scheduler.nodeTxBufferLevel src) with hold | hold
      · have hout : src ∉ queue.toList := fun hc => absurd (h.positive src hc) (hzero _ hold)
        have hnew : ¬ 0 < bufferLevel := fun hc => hrise ⟨hold, hc⟩
        exact iff_of_true (iff_of_false hout hnew) fun hc => absurd hc (hzero _ hold)
      · have hnew : 0 < bufferLevel := (eq_zero_or_pos_level bufferLevel).resolve_left fun hc => hfall ⟨hold, hc⟩
        simp [hold, hnew]

theorem masterRx_tracks {master master' : Master} {frame : Packet} {k : Nat} (h : master.Levels False)
    (hr : masterRx master = .ok (k, master')) (hf : master.Reports frame) :
    (frame.srcNodeId ∈ master'.nodeTxNodes.toList ↔ 0 < frame.bufferLevel) ↔ master.TracksLevel frame := by
  have hignored : master'.nodeTxNodes = master.nodeTxNodes → frame.getPacketType = some .nodeEmpty →
      ((frame.srcNodeId ∈ master'.nodeTxNodes.toList ↔ 0 < frame.bufferLevel) ↔ master.TracksLevel frame) := by
    intro hsame hempty
    rw [hsame]
    refine ⟨fun hlevel => ⟨fun _ => hlevel, fun hdata => ?_⟩, fun htracks => htracks.empty hempty⟩
    exact absurd (hempty.symm.trans hdata) (by decide)
  obtain ⟨e, hprev, hframe⟩ := hf.packet
  rcases masterRx_ok hr with ⟨hno, -⟩ | ⟨e', _, _, _, _, _, _, -, hprev', rfl, hresult⟩
  · exact absurd hno (by rw [hf.valid]; decide)
  · obtain rfl : e = e' := Option.some.inj (hprev.symm.trans hprev')
    rw [hframe] at hresult
    cases hresult with
    | ignored hdata => exact hignored rfl (hf.reports.resolve_right fun hc => hdata hc.1)
    | acked hseq _ =>
        refine hignored rfl (hf.reports.resolve_right fun hc => ?_)
        exact absurd hc.2 (by rw [hseq hc.1]; decide)
    | stored hdata _ _ hlevel _ =>
        refine (mem_updated_iff h hlevel).trans ?_
        refine ⟨fun hin => ⟨fun hempty => ?_, fun _ => hin⟩, fun htracks => htracks.data hdata⟩
        exact absurd (hempty.symm.trans hdata) (by decide)
    | registered hrequest _ =>
        rcases hf.reports with hc | hc
        · exact absurd (hrequest.symm.trans hc) (by decide)
        · exact absurd (hrequest.symm.trans hc.1) (by decide)

/-- The queue follows the levels exactly in the runs in which empty frames report nothing new and no data frame
comes from a node that is missing from the queue. -/
theorem levels_are_tracked_iff {cfg : MasterConfig} {s : MasterRun} (h : (masterSystem cfg).init s)
    (as : List (MasterAction cfg.mode)) :
    (masterSystem cfg).RunMeets MasterRun.KnowsLevel s as ↔
    (masterSystem cfg).RunMeets MasterRun.TracksLevel s as := by
  have hkept := keptByNetwork_levels False
  apply System.runMeets_congr (I := fun s => s.master.Levels False) ?_ ?_ ?_ (System.runMeets_true s as)
  · intro s a hs _
    apply forall_congr'
    intro master
    refine forall_congr' fun master' => forall_congr' fun frame => forall_congr' fun hhears => ?_
    obtain ⟨k, hr⟩ := hhears.processed
    exact masterRx_tracks (hkept.betweenTicks.processes hs hhears.processes) hr hhears.reports
  · intro s a s' hs _ hstep
    exact hkept.step hs (fun _ hm hremove => hm.removeAny False.elim hremove) hstep
  · obtain ⟨entries, hinit, -, -⟩ := h
    exact levels_init hinit

instance (master : Master) (frame : Packet) : Decidable (master.TracksLevel frame) :=
  decidable_of_iff ((frame.getPacketType = some .nodeEmpty →
      (frame.srcNodeId ∈ master.nodeTxNodes.toList ↔ 0 < frame.bufferLevel)) ∧
    (frame.getPacketType = some .nodeData → 0 < master.scheduler.nodeTxBufferLevel frame.srcNodeId →
      frame.srcNodeId ∈ master.nodeTxNodes.toList)) ⟨fun h => ⟨h.1, h.2⟩, fun h => ⟨h.empty, h.data⟩⟩

/-- The test of `TracksLevel` on the frame that arrived last. -/
def tracksLevelCheck (s : MasterRun) (_ : MasterAction .dual) : Bool :=
  s.master.rx.prevRxPacketEntry.all fun e => decide (s.master.TracksLevel (s.master.rx.packetAt e))

theorem tracksLevel_of_check (s : MasterRun) (a : MasterAction .dual) (h : tracksLevelCheck s a = true) :
    s.TracksLevel a := by
  intro master master' frame hhears
  have hprocesses := hhears.processes
  obtain ⟨e, hprev, rfl⟩ := hhears.reports.packet
  cases hprocesses with
  | postProcess =>
      rw [tracksLevelCheck, hprev] at h
      exact of_decide_eq_true h

/-- Node 1 reports three packets and then none in data frames, and it leaves the queue. -/
theorem levels_are_tracked_iff_data : ∃ s, (masterSystem dualConfig).run blankRun
    (slot (joinFrame 7) ++ slot (dataFrame 0 3) ++ slot (dataFrame 1 0)) = .ok s ∧
    s.master.nodeTxNodes.toList = [] ∧
    (masterSystem dualConfig).RunMeets MasterRun.KnowsLevel blankRun
      (slot (joinFrame 7) ++ slot (dataFrame 0 3) ++ slot (dataFrame 1 0)) := by
  obtain ⟨s, hs, hqueue⟩ := System.exists_of_holdsAfter (x := (masterSystem dualConfig).run blankRun
      (slot (joinFrame 7) ++ slot (dataFrame 0 3) ++ slot (dataFrame 1 0)))
    (p := fun s => s.master.nodeTxNodes.toList == []) (by decide +kernel)
  have hmeets : (masterSystem dualConfig).RunMeets MasterRun.TracksLevel blankRun
      (slot (joinFrame 7) ++ slot (dataFrame 0 3) ++ slot (dataFrame 1 0)) :=
    System.runMeets_of_checkedRun tracksLevel_of_check (by decide +kernel)
  exact ⟨s, hs, beq_iff_eq.mp hqueue, (levels_are_tracked_iff blankRun_init _).mpr hmeets⟩

/-- Node 1 sends its only packet, which it still counts, and then reports in an empty frame that nothing is
left: it stays in the queue. -/
theorem dry_node_stays_queued : ∃ s master' frame, (masterSystem dualConfig).Reachable s ∧
    s.Hears (MasterAction.postProcess : MasterAction .dual) s.master master' frame ∧
    ¬ (frame.srcNodeId ∈ master'.nodeTxNodes.toList ↔ 0 < frame.bufferLevel) := by
  obtain ⟨s, hs, hcheck⟩ := System.exists_of_holdsAfter (x := (masterSystem dualConfig).run blankRun
      (slot (joinFrame 7) ++ slot (dataFrame 0 1) ++ [.preProcess (ackFrame 1 nullSequenceNum) false fun _ => 0]))
    (p := fun s => s.master.rx.validRxPacket && s.master.rx.prevRxPacketEntry.any (fun e =>
        ((s.master.rx.packetAt e).getPacketType == some .nodeEmpty) && ((s.master.rx.packetAt e).srcNodeId == 1) &&
          ((s.master.rx.packetAt e).bufferLevel == 0)) &&
      (s.master.masterNodeTimeToLive 1 != 0) &&
      System.holdsAfter (masterRx s.master) fun r => r.2.nodeTxNodes.toList == [1]) (by decide +kernel)
  simp only [Bool.and_eq_true, bne_iff_ne] at hcheck
  obtain ⟨⟨⟨hvalid, hframe⟩, hthere⟩, hafter⟩ := hcheck
  obtain ⟨e, hprev, hframe⟩ := System.exists_of_any hframe
  obtain ⟨⟨k, master'⟩, hprocessed, hqueue⟩ := System.exists_of_holdsAfter hafter
  simp only [Bool.and_eq_true, beq_iff_eq] at hframe hqueue
  obtain ⟨⟨htype, hsrc⟩, hlevel⟩ := hframe
  refine ⟨s, master', s.master.rx.packetAt e, System.Reachable.run (.init blankRun_init) hs,
    ⟨.postProcess, ⟨k, hprocessed⟩, ?_⟩, ?_⟩
  · exact ⟨hvalid, ⟨e, hprev, rfl⟩, hsrc ▸ ⟨by decide, by decide⟩, hsrc ▸ hthere, Or.inl htype⟩
  · rw [hqueue, hsrc, hlevel]
    decide

end Microbus
