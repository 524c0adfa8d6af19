import Microbus.AllocationGap

/-! How fast the unallocated slots become rare while no new node is heard. -/
namespace Microbus

open Transition

/-- A gap below `maxGap` is doubled in every 128th unallocated slot since the last new node was heard or the gap
was last lengthened, and only then. -/
def BacksOff (maxGap : Nat) : List SchedulerEvent → Prop
  | [] => True
  | .newNodeHeard :: earlier => BacksOff maxGap earlier
  | .slot slot :: earlier =>
      (slot.use = .allocation → slot.gap < maxGap → slot.newGap =
        if slotsSinceRestart earlier + 1 = numSlotsBeforeAllocationChanged then min (slot.gap * 2) maxGap
        else slot.gap) ∧
      BacksOff maxGap earlier

/-- In front of an unallocated slot with a gap below the largest one, the counter of the scheduler is at its
limit exactly if 127 slots have passed since the restart. -/
def SchedulerRun.CountsFromRestart (s : SchedulerRun) : SchedulerAction → Prop
  | .schedule _ => s.scheduler.countTillNextAllocation = 0 →
      s.scheduler.unallocatedSlotGap ≠ s.scheduler.maxSlotsBetweenUnallocated →
      (s.scheduler.unallocatedSlotGapUpdateCount + 1 = numSlotsBeforeAllocationChanged ↔
        slotsSinceRestart s.history + 1 = numSlotsBeforeAllocationChanged)
  | _ => True

instance (s : SchedulerRun) : (a : SchedulerAction) → Decidable (s.CountsFromRestart a)
  | .schedule _ => inferInstanceAs (Decidable (s.scheduler.countTillNextAllocation = 0 →
      s.scheduler.unallocatedSlotGap ≠ s.scheduler.maxSlotsBetweenUnallocated →
      (s.scheduler.unallocatedSlotGapUpdateCount + 1 = numSlotsBeforeAllocationChanged ↔
        slotsSinceRestart s.history + 1 = numSlotsBeforeAllocationChanged)))
  | .newNodeHeard => inferInstanceAs (Decidable True)
  | .changeQueues _ => inferInstanceAs (Decidable True)

structure SchedulerRun.BackOffRun (s : SchedulerRun) : Prop where
  gap : s.GapRun 80
  backsOff : BacksOff 80 s.history

namespace SchedulerRun.BackOffRun

variable {s s' : SchedulerRun} {a : SchedulerAction}

theorem noOverflow (h : s.BackOffRun) (a : SchedulerAction) : s.NoOverflow a := by
  cases a with
  | schedule level =>
      intro _
      have hle := h.gap.range.upper
      omega
  | newNodeHeard => exact trivial
  | changeQueues queues => exact trivial

/-- One more slot: the gap is doubled at the right time exactly if the counter counts from the restart. -/
theorem schedule_iff (h : s.BackOffRun) {level : UInt8} (hs : s.step (.schedule level) = .ok s') :
    BacksOff 80 s'.history ↔ s.CountsFromRestart (.schedule level) := by
  obtain ⟨slot, hslot⟩ := SchedulerRun.schedules hs
  rw [hslot.history, BacksOff, and_iff_left h.backsOff]
  rcases hslot.ends with ⟨hdue, huse, -, hscheduler⟩ | ⟨hcount, recorded, next, count, hends, -⟩
  · have hlower := h.gap.range.lower
    have hupper := h.gap.range.upper
    have hlargest := h.gap.largest
    have hlong : s.scheduler.unallocatedSlotGap ≠ 80 → (s.scheduler.LengthensGap ↔
        s.scheduler.unallocatedSlotGapUpdateCount + 1 = numSlotsBeforeAllocationChanged) := by
      intro hne
      rw [SchedulerState.LengthensGap, hlargest]
      exact ⟨fun hc => hc.2.2, fun hc => ⟨hdue, hne, hc⟩⟩
    have hnew := scheduleUnallocatedSlot_gap hdue h.gap.counter
    rw [← hscheduler, ← hslot.newGap, SchedulerState.lengthenedGap, hlargest, ← hslot.gap] at hnew
    rw [← hslot.gap] at hlower hupper hlong
    simp only [SchedulerRun.CountsFromRestart, hdue, huse, hlargest, ← hslot.gap, true_imp_iff]
    by_cases hmax : slot.gap = 80
    · simp [hmax]
    · have hlt : slot.gap < 80 := by omega
      have hmod : slot.gap * 2 % 256 = slot.gap * 2 := Nat.mod_eq_of_lt (by omega)
      have hgrows : min (slot.gap * 2) 80 ≠ slot.gap := by
        simp only [minSlotsBetweenUnallocated] at hlower
        omega
      simp only [hlong hmax, hmod] at hnew
      simp only [hlt, hmax, true_imp_iff, not_false_iff, ne_eq]
      rw [hnew]
      by_cases hfull : s.scheduler.unallocatedSlotGapUpdateCount + 1 = numSlotsBeforeAllocationChanged
      · by_cases hsince : slotsSinceRestart s.history + 1 = numSlotsBeforeAllocationChanged
        · simp [hfull, hsince]
        · simp [hfull, hsince, hgrows]
      · by_cases hsince : slotsSinceRestart s.history + 1 = numSlotsBeforeAllocationChanged
        · simp [hfull, hsince, hgrows.symm]
        · simp [hfull, hsince]
  · refine iff_of_true (fun huse => absurd huse hends.ne_allocation) fun hdue => ?_
    exact absurd hdue (Nat.ne_of_gt hcount)

theorem step (h : s.BackOffRun) (hcounts : s.CountsFromRestart a) (hs : s.step a = .ok s') : s'.BackOffRun := by
  refine ⟨h.gap.step (by decide) (h.noOverflow a) hs, ?_⟩
  cases a with
  | schedule level => exact (h.schedule_iff hs).mpr hcounts
  | newNodeHeard =>
      cases hs
      exact h.backsOff
  | changeQueues queues =>
      cases hs
      exact h.backsOff

theorem not_counts (h : s.BackOffRun) (hcounts : ¬ s.CountsFromRestart a) (hs : s.step a = .ok s') :
    ¬ BacksOff 80 s'.history := by
  cases a with
  | schedule level => exact fun hback => hcounts ((h.schedule_iff hs).mp hback)
  | newNodeHeard => exact absurd trivial hcounts
  | changeQueues queues => exact absurd trivial hcounts

end SchedulerRun.BackOffRun

/-- The gap backs off at its rate exactly in the runs in which the free-running counter counts from the last restart. -/
theorem back_off_rate_iff {numTx : UInt8} {start : SchedulerQueues → Prop} {s s' : SchedulerRun}
    {as : List SchedulerAction} (h : (schedulerSystem numTx 80 start).init s)
    (hr : (schedulerSystem numTx 80 start).run s as = .ok s') :
    (schedulerSystem numTx 80 start).RunKeeps (fun s => BacksOff 80 s.history) s as s' ↔
      (schedulerSystem numTx 80 start).RunMeets SchedulerRun.CountsFromRestart s as := by
  apply System.runKeeps_iff_runMeets (I := SchedulerRun.BackOffRun)
  · exact fun s h => h.backsOff
  · exact fun s a s' h hcounts hs => h.step hcounts hs
  · exact fun s a s' h hcounts hs => h.not_counts hcounts hs
  · have hback : BacksOff 80 s.history := by
      rw [h.2.2]
      exact trivial
    exact ⟨SchedulerRun.GapRun.init (by decide) h, hback⟩
  · exact hr

/-- The 128th unallocated slot is the 257th slot, and doubles the gap. -/
theorem back_off_rate_iff_doubled : ∃ s,
    (schedulerSystem 1 80 SchedulerQueues.Valid).run ⟨schedulerInit 1 80, idleQueues, []⟩
        (List.replicate 257 (.schedule 0)) = .ok s ∧
      s.scheduler.unallocatedSlotGap = 4 ∧ slotsSinceRestart s.history = 0 ∧ BacksOff 80 s.history := by
  obtain ⟨s, hs, hdoubled⟩ := System.exists_of_holdsAfter
    (x := (schedulerSystem 1 80 SchedulerQueues.Valid).run ⟨schedulerInit 1 80, idleQueues, []⟩
      (List.replicate 257 (.schedule 0)))
    (p := fun s => decide (s.scheduler.unallocatedSlotGap = 4 ∧ slotsSinceRestart s.history = 0)) (by decide +kernel)
  have hmeets : (schedulerSystem 1 80 SchedulerQueues.Valid).RunMeets SchedulerRun.CountsFromRestart
      ⟨schedulerInit 1 80, idleQueues, []⟩ (List.replicate 257 (.schedule 0)) :=
    System.runMeets_of_checkedRun (fun _ _ => of_decide_eq_true) (by decide +kernel)
  obtain ⟨hgap, hsince⟩ := of_decide_eq_true hdoubled
  exact ⟨s, hs, hgap, hsince, ((back_off_rate_iff ⟨rfl, idleQueues_valid, rfl⟩ hs).mpr hmeets).2⟩

/-- A new node is heard after the first unallocated slot, and the gap is doubled one slot too early. -/
theorem doubles_too_early :
    ∃ s, (schedulerSystem 1 80 SchedulerQueues.Valid).Reachable s ∧ ¬ BacksOff 80 s.history := by
  have hinit : (schedulerSystem 1 80 SchedulerQueues.Valid).init ⟨schedulerInit 1 80, idleQueues, []⟩ :=
    ⟨rfl, idleQueues_valid, rfl⟩
  obtain ⟨s, hs, hat⟩ := (SchedulerRun.At.init hinit idleQueues_valid).wait
  obtain ⟨t, ht, hat⟩ := hat.pass (by decide) (by decide) (by decide)
  obtain ⟨u, hu, hat⟩ := hat.heard
  obtain ⟨v, hv, hat⟩ := hat.passes (by decide) (by decide) 126 (by omega)
  obtain ⟨w, slot, hw, hslot, huse, hgap, -⟩ := hat.unallocated (by decide) (by decide)
  have hlast : w.scheduler.unallocatedSlotGap = 4 := hgap
  refine ⟨w, (((hs.trans ht).trans hu).trans hv).trans (SchedulerRun.At.leads hw) |>.reachable (.init hinit), ?_⟩
  rw [hslot.history, BacksOff, huse, hslot.gap, hslot.newGap, hat.gap, hat.since, hlast]
  simp [numSlotsBeforeAllocationChanged]

end Microbus
