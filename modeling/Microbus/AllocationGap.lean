import Microbus.SchedulerRun

/-! The gap between unallocated slots, and how it grows while no new node is heard. -/
namespace Microbus

open Transition

/-- The next unallocated slot is the one that lengthens the gap. -/
def SchedulerState.LengthensGap (scheduler : SchedulerState) : Prop :=
  scheduler.countTillNextAllocation = 0 ∧ scheduler.unallocatedSlotGap ≠ scheduler.maxSlotsBetweenUnallocated ∧
    scheduler.unallocatedSlotGapUpdateCount + 1 = numSlotsBeforeAllocationChanged

instance (scheduler : SchedulerState) : Decidable scheduler.LengthensGap := by
  unfold SchedulerState.LengthensGap
  infer_instance

/-- Twice the gap, as it fits in eight bits, or the largest gap. -/
def SchedulerState.lengthenedGap (scheduler : SchedulerState) : Nat :=
  min (scheduler.unallocatedSlotGap * 2 % 256) scheduler.maxSlotsBetweenUnallocated

section UnallocatedSlot

variable {scheduler : SchedulerState}

/-- The gap is lengthened in the slot in which the counter gets to its limit. -/
theorem scheduleUnallocatedSlot_gap (hdue : scheduler.countTillNextAllocation = 0)
    (hcount : scheduler.unallocatedSlotGapUpdateCount < 256) :
    (scheduleUnallocatedSlot scheduler).unallocatedSlotGap =
      if scheduler.LengthensGap then scheduler.lengthenedGap else scheduler.unallocatedSlotGap := by
  have hlimit : (scheduler.unallocatedSlotGapUpdateCount + 1) % 256 = numSlotsBeforeAllocationChanged ↔
      scheduler.unallocatedSlotGapUpdateCount + 1 = numSlotsBeforeAllocationChanged := by
    simp only [numSlotsBeforeAllocationChanged]
    omega
  have hclamp : scheduler.lengthenedGap =
      if scheduler.unallocatedSlotGap * 2 % 256 > scheduler.maxSlotsBetweenUnallocated then
        scheduler.maxSlotsBetweenUnallocated
      else scheduler.unallocatedSlotGap * 2 % 256 := by
    unfold SchedulerState.lengthenedGap
    split <;> omega
  have hwhen : scheduler.LengthensGap ↔ scheduler.unallocatedSlotGap ≠ scheduler.maxSlotsBetweenUnallocated ∧
      (scheduler.unallocatedSlotGapUpdateCount + 1) % 256 = numSlotsBeforeAllocationChanged := by
    rw [SchedulerState.LengthensGap, hlimit]
    exact and_iff_right hdue
  rw [hclamp]
  simp only [hwhen]
  unfold scheduleUnallocatedSlot
  dsimp only
  by_cases hmax : scheduler.unallocatedSlotGap ≠ scheduler.maxSlotsBetweenUnallocated
  · by_cases hfull : (scheduler.unallocatedSlotGapUpdateCount + 1) % 256 = numSlotsBeforeAllocationChanged
    · rw [if_pos hmax, if_pos hfull, if_pos (⟨hmax, hfull⟩ : _ ∧ _)]
    · rw [if_pos hmax, if_neg hfull, if_neg fun hc => hfull hc.2]
  · rw [if_neg hmax, if_neg fun hc => hmax hc.1]

theorem scheduleUnallocatedSlot_max :
    (scheduleUnallocatedSlot scheduler).maxSlotsBetweenUnallocated = scheduler.maxSlotsBetweenUnallocated := by
  unfold scheduleUnallocatedSlot
  dsimp only
  split
  · split <;> rfl
  · rfl

theorem scheduleUnallocatedSlot_updateCount :
    (scheduleUnallocatedSlot scheduler).unallocatedSlotGapUpdateCount =
      if scheduler.unallocatedSlotGap ≠ scheduler.maxSlotsBetweenUnallocated then
        (scheduler.unallocatedSlotGapUpdateCount + 1) % 256
      else scheduler.unallocatedSlotGapUpdateCount := by
  unfold scheduleUnallocatedSlot
  dsimp only
  split
  · split <;> rfl
  · rfl

theorem scheduleUnallocatedSlot_countdown : (scheduleUnallocatedSlot scheduler).countTillNextAllocation =
    ((scheduleUnallocatedSlot scheduler).unallocatedSlotGap + 255) % 256 := rfl

end UnallocatedSlot

/-- How many calls after the last unallocated slot the next call is, if no new node was heard since. -/
def callsSinceUnallocated : List SchedulerEvent → Option Nat
  | [] => none
  | .newNodeHeard :: _ => none
  | .slot slot :: earlier =>
      if slot.use = .allocation then some 1 else (callsSinceUnallocated earlier).map (· + 1)

/-- Two successive unallocated slots with no new node heard between them are the gap apart, which is at most
`maxGap`. -/
def GapsKept (maxGap : Nat) : List SchedulerEvent → Prop
  | [] => True
  | .newNodeHeard :: earlier => GapsKept maxGap earlier
  | .slot slot :: earlier =>
      (slot.use = .allocation → ∀ n ∈ callsSinceUnallocated earlier, n = slot.gap ∧ n ≤ maxGap) ∧
        GapsKept maxGap earlier

/-- The gap is in its range, and so were the distances of the unallocated slots so far. -/
structure SchedulerRun.GapInRange (maxGap : Nat) (s : SchedulerRun) : Prop where
  lower : minSlotsBetweenUnallocated ≤ s.scheduler.unallocatedSlotGap
  upper : s.scheduler.unallocatedSlotGap ≤ maxGap
  kept : GapsKept maxGap s.history

/-- No slot doubles a gap of 128 or more. -/
def SchedulerRun.NoOverflow (s : SchedulerRun) : SchedulerAction → Prop
  | .schedule _ => s.scheduler.LengthensGap → s.scheduler.unallocatedSlotGap < 128
  | _ => True

/-- Besides, a gap that is not the largest one is a power of two, and the countdown fits the gap. -/
structure SchedulerRun.GapRun (maxGap : Nat) (s : SchedulerRun) : Prop where
  range : s.GapInRange maxGap
  largest : s.scheduler.maxSlotsBetweenUnallocated = maxGap
  small : maxGap < 256
  counter : s.scheduler.unallocatedSlotGapUpdateCount < 256
  power : s.scheduler.unallocatedSlotGap ≠ maxGap → s.scheduler.unallocatedSlotGap ∣ 128
  countdown : ∀ n ∈ callsSinceUnallocated s.history,
    s.scheduler.countTillNextAllocation + n = s.scheduler.unallocatedSlotGap

namespace SchedulerRun.GapRun

variable {maxGap : Nat} {s s' : SchedulerRun} {a : SchedulerAction} {slot : Slot}

theorem double_dvd : ∀ gap < 128, gap ∣ 128 → gap * 2 ∣ 128 := by decide

theorem two_dvd : minSlotsBetweenUnallocated ∣ 128 := by decide

theorem newGap (h : s.GapRun maxGap) (hdue : s.scheduler.countTillNextAllocation = 0)
    (hsafe : s.scheduler.LengthensGap → s.scheduler.unallocatedSlotGap < 128) :
    minSlotsBetweenUnallocated ≤ (scheduleUnallocatedSlot s.scheduler).unallocatedSlotGap ∧
      (scheduleUnallocatedSlot s.scheduler).unallocatedSlotGap ≤ maxGap ∧
      ((scheduleUnallocatedSlot s.scheduler).unallocatedSlotGap ≠ maxGap →
        (scheduleUnallocatedSlot s.scheduler).unallocatedSlotGap ∣ 128) := by
  rw [scheduleUnallocatedSlot_gap hdue h.counter]
  have hlower := h.range.lower
  have hupper := h.range.upper
  by_cases hlong : s.scheduler.LengthensGap
  · have hsmall := hsafe hlong
    have hne : s.scheduler.unallocatedSlotGap ≠ maxGap := h.largest ▸ hlong.2.1
    have hmod : s.scheduler.unallocatedSlotGap * 2 % 256 = s.scheduler.unallocatedSlotGap * 2 :=
      Nat.mod_eq_of_lt (by omega)
    rw [if_pos hlong, SchedulerState.lengthenedGap, hmod, h.largest]
    refine ⟨by omega, Nat.min_le_right _ _, fun hmin => ?_⟩
    have hdouble : min (s.scheduler.unallocatedSlotGap * 2) maxGap = s.scheduler.unallocatedSlotGap * 2 := by omega
    rw [hdouble]
    exact double_dvd _ hsmall (h.power hne)
  · rw [if_neg hlong]
    exact ⟨hlower, hupper, h.power⟩

theorem unallocatedSlot (h : s.GapRun maxGap) (hdue : s.scheduler.countTillNextAllocation = 0)
    (huse : slot.use = .allocation) (hgap : slot.gap = s.scheduler.unallocatedSlotGap)
    (hsafe : s.scheduler.LengthensGap → s.scheduler.unallocatedSlotGap < 128) (queues : SchedulerQueues) :
    SchedulerRun.GapRun maxGap ⟨scheduleUnallocatedSlot s.scheduler, queues, .slot slot :: s.history⟩ := by
  obtain ⟨hlower, hupper, hpower⟩ := h.newGap hdue hsafe
  have hsmall := h.small
  refine ⟨⟨hlower, hupper, ?_, h.range.kept⟩, ?_, hsmall, ?_, hpower, ?_⟩
  · intro _ n hn
    have hcountdown := h.countdown n hn
    have hmax := h.range.upper
    omega
  · exact scheduleUnallocatedSlot_max.trans h.largest
  · change (scheduleUnallocatedSlot s.scheduler).unallocatedSlotGapUpdateCount < 256
    rw [scheduleUnallocatedSlot_updateCount]
    have hcounter := h.counter
    split <;> omega
  · intro n hn
    have hone : n = 1 := by simpa [callsSinceUnallocated, huse, eq_comm] using hn
    change (scheduleUnallocatedSlot s.scheduler).countTillNextAllocation + n =
      (scheduleUnallocatedSlot s.scheduler).unallocatedSlotGap
    rw [scheduleUnallocatedSlot_countdown]
    simp only [minSlotsBetweenUnallocated] at hlower
    omega

theorem otherSlot (h : s.GapRun maxGap) (hcount : 0 < s.scheduler.countTillNextAllocation)
    (huse : slot.use ≠ .allocation)
    (node : TNodeIndex) (next : SchedulerTurn) (count : Nat) (queues : SchedulerQueues) :
    SchedulerRun.GapRun maxGap ⟨s.scheduler.after node next count, queues, .slot slot :: s.history⟩ := by
  refine ⟨⟨h.range.lower, h.range.upper, fun hc => absurd hc huse, h.range.kept⟩, h.largest, h.small,
    h.counter, h.power, ?_⟩
  intro n hn
  simp only [callsSinceUnallocated, huse, if_false, Option.mem_def, Option.map_eq_some_iff] at hn
  obtain ⟨k, hk, rfl⟩ := hn
  have hcountdown := h.countdown k hk
  change s.scheduler.countTillNextAllocation - 1 + (k + 1) = s.scheduler.unallocatedSlotGap
  omega

theorem newNodeHeard (h : s.GapRun maxGap) (hmin : minSlotsBetweenUnallocated ≤ maxGap) :
    SchedulerRun.GapRun maxGap { s with
      scheduler := newNodeHeardUpdateScheduler s.scheduler, history := .newNodeHeard :: s.history } where
  range := ⟨Nat.le_refl _, hmin, h.range.kept⟩
  largest := h.largest
  small := h.small
  counter := h.counter
  power _ := two_dvd
  countdown := nofun

theorem step (h : s.GapRun maxGap) (hmin : minSlotsBetweenUnallocated ≤ maxGap) (hsafe : s.NoOverflow a)
    (hs : s.step a = .ok s') : s'.GapRun maxGap := by
  cases a with
  | schedule level =>
      obtain ⟨slot, hslot⟩ := SchedulerRun.schedules hs
      obtain ⟨scheduler', queues', history'⟩ := s'
      have hhistory := hslot.history
      rcases hslot.ends with ⟨hdue, huse, -, hscheduler⟩ | ⟨hcount, recorded, next, count, hends, -, hscheduler⟩
      · subst hhistory hscheduler
        exact h.unallocatedSlot hdue huse hslot.gap hsafe queues'
      · subst hhistory hscheduler
        exact h.otherSlot hcount hends.ne_allocation recorded next count queues'
  | newNodeHeard =>
      cases hs
      exact h.newNodeHeard hmin
  | changeQueues queues =>
      cases hs
      exact ⟨⟨h.range.lower, h.range.upper, h.range.kept⟩, h.largest, h.small, h.counter, h.power, h.countdown⟩

/-- Twice 128 is 0 in eight bits. -/
theorem overflows (h : s.GapRun maxGap) (hsafe : ¬ s.NoOverflow a) (hs : s.step a = .ok s') :
    ¬ s'.GapInRange maxGap := by
  cases a with
  | schedule level =>
      obtain ⟨hlong, hbig⟩ := Classical.not_imp.mp hsafe
      obtain ⟨slot, hslot⟩ := SchedulerRun.schedules hs
      have hne : s.scheduler.unallocatedSlotGap ≠ maxGap := h.largest ▸ hlong.2.1
      have hle := Nat.le_of_dvd (by decide) (h.power hne)
      have hgap : s.scheduler.unallocatedSlotGap = 128 := by omega
      rcases hslot.ends with ⟨hdue, -, -, hscheduler⟩ | ⟨hcount, -⟩
      · intro hrange
        have hlower := hrange.lower
        rw [hscheduler, scheduleUnallocatedSlot_gap hdue h.counter, if_pos hlong,
          SchedulerState.lengthenedGap, hgap] at hlower
        simp [minSlotsBetweenUnallocated] at hlower
      · exact absurd hlong.1 (by omega)
  | newNodeHeard => exact absurd trivial hsafe
  | changeQueues queues => exact absurd trivial hsafe

theorem init {numTx maxGap : UInt8} {start : SchedulerQueues → Prop} (hmin : 2 ≤ maxGap.toNat)
    (h : (schedulerSystem numTx maxGap start).init s) : s.GapRun maxGap.toNat := by
  obtain ⟨scheduler, queues, history⟩ := s
  obtain ⟨rfl, -, rfl⟩ := h
  exact ⟨⟨Nat.le_refl 2, hmin, trivial⟩, rfl, maxGap.toNat_lt, Nat.zero_lt_succ 255, fun _ => two_dvd, nofun⟩

end SchedulerRun.GapRun

/-- How many unallocated slots there were since the last new node was heard or the gap was last lengthened. -/
def slotsSinceRestart : List SchedulerEvent → Nat
  | [] => 0
  | .newNodeHeard :: _ => 0
  | .slot slot :: earlier =>
      if slot.use = .allocation then if slot.newGap = slot.gap then slotsSinceRestart earlier + 1 else 0
      else slotsSinceRestart earlier

/-- A run with duplicate-free queues and these values of the countdown, the gap and its counter. -/
structure SchedulerRun.At (maxGap : Nat) (s : SchedulerRun) (countdown gap counter since : Nat) : Prop where
  valid : s.queues.Valid
  largest : s.scheduler.maxSlotsBetweenUnallocated = maxGap
  countdown : s.scheduler.countTillNextAllocation = countdown
  gap : s.scheduler.unallocatedSlotGap = gap
  counter : s.scheduler.unallocatedSlotGapUpdateCount = counter
  since : slotsSinceRestart s.history = since

namespace SchedulerRun.At

variable {numTx maxUnallocated : UInt8} {start : SchedulerQueues → Prop} {maxGap countdown gap counter since : Nat}
  {s : SchedulerRun}

theorem leads {a : SchedulerAction} {t : SchedulerRun} (hs : s.step a = .ok t) :
    (schedulerSystem numTx maxUnallocated start).Leads s t := by
  have hstep : (schedulerSystem numTx maxUnallocated start).step s a = .ok t := hs
  exact .single hstep

theorem schedule (h : s.At maxGap countdown gap counter since) : ∃ s' slot, s.step (.schedule 0) = .ok s' ∧
    s.Schedules 0 slot s' ∧ s'.queues.Valid := by
  obtain ⟨node, scheduler', queues', hnext, hvalid⟩ := h.valid.scheduleNextNode 0 s.scheduler
  have hs : s.step (.schedule 0) = .ok _ := bind_eq_ok.mpr ⟨_, hnext, rfl⟩
  obtain ⟨slot, hslot⟩ := SchedulerRun.schedules hs
  exact ⟨_, slot, hs, hslot, hvalid⟩

theorem wait (h : s.At maxGap countdown gap counter since) :
    ∃ t, (schedulerSystem numTx maxUnallocated start).Leads s t ∧ t.At maxGap 0 gap counter since := by
  induction countdown generalizing s with
  | zero => exact ⟨s, .refl _ s, h⟩
  | succ countdown ih =>
      obtain ⟨s', slot, hs, hslot, hvalid⟩ := h.schedule
      rcases hslot.ends with ⟨hdue, -⟩ | ⟨-, recorded, next, count, hends, -, hscheduler⟩
      · exact absurd (h.countdown.symm.trans hdue) (Nat.succ_ne_zero countdown)
      · have hsince : slotsSinceRestart s'.history = since := by
          rw [hslot.history, slotsSinceRestart, if_neg hends.ne_allocation]
          exact h.since
        have hat : s'.At maxGap countdown gap counter since := by
          refine ⟨hvalid, ?_, ?_, ?_, ?_, hsince⟩
          · rw [hscheduler]
            exact h.largest
          · rw [hscheduler]
            change s.scheduler.countTillNextAllocation - 1 = countdown
            rw [h.countdown]
            rfl
          · rw [hscheduler]
            exact h.gap
          · rw [hscheduler]
            exact h.counter
        obtain ⟨t, ht, hat'⟩ := ih hat
        exact ⟨t, (leads hs).trans ht, hat'⟩

theorem unallocated (h : s.At maxGap 0 gap counter since) (hmax : gap ≠ maxGap) (hsmall : counter < 256) :
    ∃ s' slot, s.step (.schedule 0) = .ok s' ∧ s.Schedules 0 slot s' ∧ slot.use = .allocation ∧
      s'.scheduler.unallocatedSlotGap = (if counter = 127 then min (gap * 2 % 256) maxGap else gap) ∧
      ∃ countdown, s'.At maxGap countdown s'.scheduler.unallocatedSlotGap ((counter + 1) % 256)
        (if s'.scheduler.unallocatedSlotGap = gap then since + 1 else 0) := by
  obtain ⟨s', slot, hs, hslot, hvalid⟩ := h.schedule
  rcases hslot.ends with ⟨hdue, huse, -, hscheduler⟩ | ⟨hcount, -⟩
  · refine ⟨s', slot, hs, hslot, huse, ?_, _, hvalid, ?_, rfl, rfl, ?_, ?_⟩
    · have hlong : s.scheduler.LengthensGap ↔ counter = 127 := by
        unfold SchedulerState.LengthensGap
        rw [h.gap, h.largest, h.counter, numSlotsBeforeAllocationChanged]
        constructor
        · rintro ⟨-, -, hfull⟩
          omega
        · rintro rfl
          exact ⟨hdue, hmax, rfl⟩
      rw [hscheduler, scheduleUnallocatedSlot_gap hdue (h.counter ▸ hsmall), SchedulerState.lengthenedGap,
        h.gap, h.largest]
      simp only [hlong]
    · rw [hscheduler]
      exact scheduleUnallocatedSlot_max.trans h.largest
    · rw [hscheduler, scheduleUnallocatedSlot_updateCount, h.gap, h.largest, h.counter, if_pos hmax]
    · rw [hslot.history, slotsSinceRestart, if_pos huse, hslot.newGap, hslot.gap, h.gap, h.since]
  · exact absurd h.countdown (Nat.ne_of_gt hcount)

/-- An unallocated slot that leaves the gap as it is, and the slots up to the next one. -/
theorem pass (h : s.At maxGap 0 gap counter since) (hmax : gap ≠ maxGap) (hsmall : counter < 256)
    (hcounter : counter ≠ 127) :
    ∃ t, (schedulerSystem numTx maxUnallocated start).Leads s t ∧
      t.At maxGap 0 gap ((counter + 1) % 256) (since + 1) := by
  obtain ⟨s', slot, hs, -, -, hgap, countdown, hat⟩ := h.unallocated hmax hsmall
  rw [if_neg hcounter] at hgap
  rw [hgap, if_pos rfl] at hat
  obtain ⟨t, ht, hat'⟩ := hat.wait
  exact ⟨t, (leads hs).trans ht, hat'⟩

theorem passes (h : s.At maxGap 0 gap counter since) (hmax : gap ≠ maxGap) (hsmall : counter < 256) (d : Nat)
    (hcounter : ∀ j < d, (counter + j) % 256 ≠ 127) :
    ∃ t, (schedulerSystem numTx maxUnallocated start).Leads s t ∧
      t.At maxGap 0 gap ((counter + d) % 256) (since + d) := by
  induction d with
  | zero =>
      refine ⟨s, .refl _ s, ?_⟩
      rw [Nat.add_zero, Nat.mod_eq_of_lt hsmall]
      exact h
  | succ d ih =>
      obtain ⟨t, ht, hat⟩ := ih fun j hj => hcounter j (Nat.lt_succ_of_lt hj)
      obtain ⟨u, hu, hat'⟩ := hat.pass hmax (Nat.mod_lt _ (by decide)) (hcounter d (Nat.lt_succ_self d))
      rw [Nat.mod_add_mod] at hat'
      exact ⟨u, ht.trans hu, hat'⟩

theorem double (h : s.At maxGap 0 gap 127 since) (hpos : 0 < gap) (hsmall : gap < 128) (hmax : gap * 2 ≤ maxGap) :
    ∃ t, (schedulerSystem numTx maxUnallocated start).Leads s t ∧ t.At maxGap 0 (gap * 2) 128 0 := by
  obtain ⟨s', slot, hs, -, -, hgap, countdown, hat⟩ := h.unallocated (by omega) (by decide)
  have hmod : gap * 2 % 256 = gap * 2 := Nat.mod_eq_of_lt (by omega)
  rw [if_pos rfl, hmod, Nat.min_eq_left hmax] at hgap
  rw [hgap, if_neg (by omega)] at hat
  obtain ⟨t, ht, hat'⟩ := hat.wait
  exact ⟨t, (leads hs).trans ht, hat'⟩

/-- From one doubling to the slot before the next one. -/
theorem period (h : s.At maxGap 0 gap 127 since) (hpos : 0 < gap) (hsmall : gap < 128) (hmax : gap * 2 < maxGap) :
    ∃ t, (schedulerSystem numTx maxUnallocated start).Leads s t ∧ t.At maxGap 0 (gap * 2) 127 255 := by
  obtain ⟨t, ht, hat⟩ := h.double hpos hsmall (Nat.le_of_lt hmax)
  obtain ⟨u, hu, hat'⟩ := hat.passes (Nat.ne_of_lt hmax) (by decide) 255 (by omega)
  exact ⟨u, ht.trans hu, (Nat.zero_add 255) ▸ hat'⟩

theorem heard (h : s.At maxGap countdown gap counter since) :
    ∃ t, (schedulerSystem numTx maxUnallocated start).Leads s t ∧ t.At maxGap 0 2 counter 0 := by
  have hs : s.step .newNodeHeard = .ok _ := rfl
  have hat : SchedulerRun.At maxGap { s with
      scheduler := newNodeHeardUpdateScheduler s.scheduler, history := .newNodeHeard :: s.history } 2 2 counter 0 :=
    ⟨h.valid, h.largest, rfl, rfl, h.counter, rfl⟩
  obtain ⟨t, ht, hat'⟩ := hat.wait
  exact ⟨t, (leads hs).trans ht, hat'⟩

theorem init (h : (schedulerSystem numTx maxUnallocated start).init s) (hvalid : s.queues.Valid) :
    s.At maxUnallocated.toNat 2 2 0 0 := by
  obtain ⟨scheduler, queues, history⟩ := s
  obtain ⟨rfl, -, rfl⟩ := h
  exact ⟨hvalid, rfl, rfl, rfl, rfl, rfl⟩

/-- Without a new node the gap grows to 128, with the counter at its limit again. -/
theorem exists_full (h : s.At maxGap countdown 2 0 0) (hmax : 128 < maxGap) :
    ∃ t, (schedulerSystem numTx maxUnallocated start).Leads s t ∧ t.At maxGap 0 128 127 255 := by
  have hgrow : ∀ k ≤ 6, ∃ t since, (schedulerSystem numTx maxUnallocated start).Leads s t ∧
    t.At maxGap 0 (2 ^ (k + 1)) 127 since := by
    intro k hk
    induction k with
    | zero =>
        obtain ⟨t, ht, hat⟩ := h.wait
        obtain ⟨u, hu, hat'⟩ := hat.passes (by omega) (by decide) 127 (by omega)
        exact ⟨u, _, ht.trans hu, hat'⟩
    | succ k ih =>
        obtain ⟨t, since, ht, hat⟩ := ih (by omega)
        have hle : 2 ^ (k + 1) ≤ 2 ^ 6 := Nat.pow_le_pow_right (by decide) hk
        obtain ⟨u, hu, hat'⟩ := hat.period (Nat.two_pow_pos _) (by omega) (by omega)
        exact ⟨u, _, ht.trans hu, Nat.pow_succ 2 (k + 1) ▸ hat'⟩
  obtain ⟨t, since, ht, hat⟩ := hgrow 5 (by decide)
  obtain ⟨u, hu, hat'⟩ := hat.period (by decide) (by decide) hmax
  exact ⟨u, ht.trans hu, hat'⟩

theorem exists_overflow (h : s.At maxGap countdown 2 0 0) (hmax : 128 < maxGap) :
    ∃ t, (schedulerSystem numTx maxUnallocated start).Leads s t ∧ t.scheduler.unallocatedSlotGap = 0 := by
  obtain ⟨t, ht, hat⟩ := h.exists_full hmax
  obtain ⟨u, slot, hs, -, -, hgap, -⟩ := hat.unallocated (Nat.ne_of_lt hmax) (by decide)
  exact ⟨u, ht.trans (leads hs), hgap.trans (Nat.zero_min maxGap)⟩

end SchedulerRun.At

/-- The gap stays in its range exactly in the runs in which no slot doubles a gap of 128, and in all runs exactly if the
largest gap is at most 128. -/
theorem gap_stays_in_range_iff {numTx maxGap : UInt8} {start : SchedulerQueues → Prop} {s : SchedulerRun}
    (hmin : 2 ≤ maxGap.toNat) (h : (schedulerSystem numTx maxGap start).init s) :
    (∀ as s', (schedulerSystem numTx maxGap start).run s as = .ok s' →
      ((schedulerSystem numTx maxGap start).RunKeeps (SchedulerRun.GapInRange maxGap.toNat) s as s' ↔
        (schedulerSystem numTx maxGap start).RunMeets SchedulerRun.NoOverflow s as)) ∧
    (s.queues.Valid → ((∀ as s', (schedulerSystem numTx maxGap start).run s as = .ok s' →
      (schedulerSystem numTx maxGap start).RunKeeps (SchedulerRun.GapInRange maxGap.toNat) s as s') ↔
        maxGap.toNat ≤ 128)) := by
  have hiff : ∀ as s', (schedulerSystem numTx maxGap start).run s as = .ok s' →
      ((schedulerSystem numTx maxGap start).RunKeeps (SchedulerRun.GapInRange maxGap.toNat) s as s' ↔
        (schedulerSystem numTx maxGap start).RunMeets SchedulerRun.NoOverflow s as) := by
    intro as s' hr
    apply System.runKeeps_iff_runMeets (I := SchedulerRun.GapRun maxGap.toNat)
    · exact fun s h => h.range
    · exact fun s a s' h hsafe hs => h.step hmin hsafe hs
    · exact fun s a s' h hsafe hs => h.overflows hsafe hs
    · exact SchedulerRun.GapRun.init hmin h
    · exact hr
  refine ⟨hiff, fun hvalid => ⟨fun hall => ?_, fun hmax as s' hr => ?_⟩⟩
  · by_contra hbig
    obtain ⟨t, ⟨as, hr⟩, hgap⟩ := (SchedulerRun.At.init h hvalid).exists_overflow (Nat.lt_of_not_le hbig)
    have hlower := (hall as t hr).2.lower
    rw [hgap] at hlower
    simp [minSlotsBetweenUnallocated] at hlower
  · rw [hiff as s' hr]
    apply System.runMeets_of_invariant (I := SchedulerRun.GapRun maxGap.toNat)
    · intro s a h
      cases a with
      | schedule level =>
          intro hlong
          have hne : s.scheduler.unallocatedSlotGap ≠ maxGap.toNat := h.largest ▸ hlong.2.1
          have hle := h.range.upper
          omega
      | newNodeHeard => exact trivial
      | changeQueues queues => exact trivial
    · exact fun s a s' h hsafe hs => h.step hmin hsafe hs
    · exact SchedulerRun.GapRun.init hmin h

def idleQueues : SchedulerQueues := ⟨.empty, none, .empty⟩

theorem idleQueues_valid : idleQueues.Valid := by
  have hempty : NodeQueue.empty.Valid := ⟨emptyQueue_wellFormed, by simp⟩
  exact ⟨hempty, nofun, hempty⟩

/-- After 257 slots without a node the gap is doubled. -/
theorem gap_stays_in_range_iff_doubled : ∃ s,
    (schedulerSystem 1 80 SchedulerQueues.Valid).run ⟨schedulerInit 1 80, idleQueues, []⟩
        (List.replicate 257 (.schedule 0)) = .ok s ∧
      s.scheduler.unallocatedSlotGap = 4 ∧ s.GapInRange 80 := by
  obtain ⟨s, hs, hgap⟩ := System.exists_of_holdsAfter
    (x := (schedulerSystem 1 80 SchedulerQueues.Valid).run ⟨schedulerInit 1 80, idleQueues, []⟩
      (List.replicate 257 (.schedule 0)))
    (p := fun s => s.scheduler.unallocatedSlotGap == 4) (by decide +kernel)
  have hinit : (schedulerSystem 1 80 SchedulerQueues.Valid).init ⟨schedulerInit 1 80, idleQueues, []⟩ :=
    ⟨rfl, idleQueues_valid, rfl⟩
  have hrange := (gap_stays_in_range_iff (by decide) hinit).2 idleQueues_valid
  exact ⟨s, hs, beq_iff_eq.mp hgap, (hrange.mpr (by decide) _ s hs).2⟩

/-- With a largest gap of 255 the gap gets to 0. -/
theorem gap_overflows : ∃ s, (schedulerSystem 1 255 SchedulerQueues.Valid).Reachable s ∧
    s.scheduler.unallocatedSlotGap = 0 ∧ ¬ s.GapInRange 255 := by
  have hinit : (schedulerSystem 1 255 SchedulerQueues.Valid).init ⟨schedulerInit 1 255, idleQueues, []⟩ :=
    ⟨rfl, idleQueues_valid, rfl⟩
  obtain ⟨s, hs, hgap⟩ := (SchedulerRun.At.init hinit idleQueues_valid).exists_overflow (by decide)
  refine ⟨s, hs.reachable (.init hinit), hgap, fun hrange => ?_⟩
  have hlower := hrange.lower
  rw [hgap] at hlower
  simp [minSlotsBetweenUnallocated] at hlower

end Microbus
