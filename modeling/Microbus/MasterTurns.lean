import Microbus.SingleChannel

/-! The single channel: how soon the slot of the master comes round. -/
namespace Microbus

open Transition Announce

def BusAction.isSlot {n : Nat} : BusAction n → Bool
  | .slot _ => true
  | .master _ => false
  | .node _ _ => false

section Turns

variable {n : Nat} {cfg : BusConfig n} {bus bus' : Bus n} {input : SlotInput n}

/-- A slot that announces: the master sends, and its frame names the owners of the coming slots. -/
structure Bus.AnnouncesIn (width : Nat) (bus : Bus n) (input : SlotInput n) (bus' : Bus n) : Prop where
  slot : bus.runSingleChannel input = .ok bus'
  owner : bus.master.currentTxNodeId = masterNodeId
  frame : ∃ p, bus'.downlink = some p ∧
    ∀ k (hk : k < maxTxNodesScheduled), k < width → p.nextTxNodeId ⟨k, hk⟩ = bus'.master.slots (k + 1)

theorem Bus.announces_of_owner {width : Nat} (hpos : 0 < width) (h : bus.master.Scheduled width)
    (howner : bus.master.currentTxNodeId = masterNodeId) (hs : bus.runSingleChannel input = .ok bus') :
    bus.AnnouncesIn width input bus' := by
  obtain ⟨-, -, hdown⟩ := Bus.runSingleChannel_master hpos h hs
  obtain ⟨k, master, downlink, slots, htx, -, rfl⟩ := Bus.runSingleChannel_tx howner hs
  obtain ⟨m₁, m₂, p, -, -, -, -, hframe⟩ := processTx_frame htx
  exact ⟨hs, howner, _, hframe, hdown _ hframe⟩

theorem Bus.step_slots {mode : ChannelMode} {a : BusAction n} (hcall : a.isSlot = false)
    (hs : bus.step mode a = .ok bus') :
    bus'.master.slots = bus.master.slots := by
  cases a with
  | slot input => cases hcall
  | master call =>
      obtain ⟨master, hmaster, hs⟩ := bind_eq_ok.mp hs
      cases hs
      exact (Master.call_schedule hmaster).slots
  | node i call =>
      obtain ⟨node, -, hs⟩ := bind_eq_ok.mp hs
      cases hs
      rfl

/-- A slot of the master that is `p` slots away comes in every run of more than `p` slots. -/
theorem Bus.reaches_announcement (hsingle : cfg.master.mode = .single) (hpos : 0 < cfg.master.numTxNodesScheduled.toNat)
    {actions : List (BusAction n)} : ∀ {p : Nat} {bus : Bus n}, (busSystem cfg).Reachable bus →
    p < cfg.master.numTxNodesScheduled.toNat → bus.master.slots p = masterNodeId →
    (busSystem cfg).run bus actions = .ok bus' → p < actions.countP BusAction.isSlot →
    ∃ before input after start stop, actions = before ++ .slot input :: after ∧
      before.countP BusAction.isSlot = p ∧
      (busSystem cfg).run bus before = .ok start ∧
        start.AnnouncesIn cfg.master.numTxNodesScheduled.toNat input stop := by
  induction actions with
  | nil =>
      intro p bus _ _ _ _ hcount
      exact absurd hcount (Nat.not_lt_zero p)
  | cons a actions ih =>
      intro p bus hreach hp howner hrun hcount
      obtain ⟨next, hstep, hrest⟩ := bind_eq_ok.mp hrun
      have hreach' : (busSystem cfg).Reachable next := .step hreach trivial hstep
      have hscheduled := scheduled_of_reaches hpos (devices_of_reachable hreach).1
      -- the announcement is found in the rest of the run, and the first action stands before it
      have hlater : ∀ q, next.master.slots q = masterNodeId → q < actions.countP BusAction.isSlot → q ≤ p →
          (a :: actions).countP BusAction.isSlot = actions.countP BusAction.isSlot + (p - q) →
          ∃ before input after start stop, a :: actions = before ++ .slot input :: after ∧
            before.countP BusAction.isSlot = p ∧ (busSystem cfg).run bus before = .ok start ∧
            start.AnnouncesIn cfg.master.numTxNodesScheduled.toNat input stop := by
        intro q hq hlt hle hadd
        obtain ⟨before, input, after, start, stop, rfl, hbefore, hstart, hann⟩ :=
          ih hreach' (Nat.lt_of_le_of_lt hle hp) hq hrest hlt
        refine ⟨a :: before, input, after, start, stop, rfl, ?_, bind_eq_ok.mpr ⟨next, hstep, hstart⟩, hann⟩
        rw [List.countP_cons] at hadd ⊢
        omega
      by_cases hslot : a.isSlot = true
      · rw [List.countP_cons_of_pos hslot] at hcount
        cases a with
        | slot input =>
            have hs : bus.step cfg.master.mode (.slot input) = .ok next := hstep
            rw [hsingle] at hs
            have hs : bus.runSingleChannel input = .ok next := hs
            cases p with
            | zero => exact ⟨[], input, actions, bus, next, rfl, rfl, rfl,
                Bus.announces_of_owner hpos hscheduled howner hs⟩
            | succ p =>
                obtain ⟨hshift, -, -⟩ := Bus.runSingleChannel_master hpos hscheduled hs
                refine hlater p ?_ (by omega) (Nat.le_succ p) ?_
                · rw [hshift p (by omega)]
                  exact howner
                · rw [List.countP_cons_of_pos rfl, Nat.add_sub_cancel_left]
        | master call => cases hslot
        | node i call => cases hslot
      · rw [List.countP_cons_of_neg hslot] at hcount
        refine hlater p ?_ hcount (Nat.le_refl p) ?_
        · rw [Bus.step_slots (Bool.eq_false_of_not_eq_true hslot) hstep]
          exact howner
        · rw [List.countP_cons_of_neg hslot, Nat.sub_self, Nat.add_zero]

/-- In every run of a master that announces two slots or more, of any `numTxNodesScheduled` slots in a row
one is the master's, in which it sends and names the owners of the coming slots. -/
theorem master_announces_in_time (hsingle : cfg.master.mode = .single) (hnum : 1 < cfg.master.numTxNodesScheduled.toNat)
    (h : (busSystem cfg).Reachable bus) {actions : List (BusAction n)}
    (hrun : (busSystem cfg).run bus actions = .ok bus')
    (hslots : cfg.master.numTxNodesScheduled.toNat ≤ actions.countP BusAction.isSlot) :
    ∃ before input after start stop, actions = before ++ .slot input :: after ∧
      before.countP BusAction.isSlot < cfg.master.numTxNodesScheduled.toNat ∧
      (busSystem cfg).run bus before = .ok start ∧
        start.AnnouncesIn cfg.master.numTxNodesScheduled.toNat input stop := by
  have hpos : 0 < cfg.master.numTxNodesScheduled.toNat := Nat.lt_trans Nat.zero_lt_one hnum
  have hscheduled := scheduled_of_reaches hpos (devices_of_reachable h).1
  obtain ⟨p, hp, howner⟩ := hscheduled.recurs hnum
  obtain ⟨before, input, after, start, stop, hsplit, hbefore, hstart, hann⟩ :=
    Bus.reaches_announcement hsingle hpos h hp howner hrun (Nat.lt_of_lt_of_le hp hslots)
  exact ⟨before, input, after, start, stop, hsplit, hbefore ▸ hp, hstart, hann⟩

/-- Four slots after the reset slots, once the node has joined. -/
theorem master_announces_in_time_joined : ∃ bus bus' : Bus 1, ∃ before input start stop,
    (busSystem (oneNodeConfig .single 4)).run bus (List.replicate 4 (.slot clearSlot)) = .ok bus' ∧
    (bus.node 0).nodeId = 1 ∧ before.countP BusAction.isSlot < 4 ∧
    (busSystem (oneNodeConfig .single 4)).run bus before = .ok start ∧ start.AnnouncesIn 4 input stop := by
  obtain ⟨bus, hrun, hnext⟩ := System.exists_of_holdsAfter
    (x := (busSystem (oneNodeConfig .single 4)).run (freshBus 4 fun _ => ⟨false, Packet.zero⟩)
      (List.replicate 40 (.slot clearSlot)))
    (p := fun bus => (bus.node 0).nodeId = 1 ∧ System.holdsAfter ((busSystem (oneNodeConfig .single 4)).run bus
      (List.replicate 4 (.slot clearSlot))) (fun _ => true) = true) (by decide +kernel)
  obtain ⟨hjoined, hnext⟩ := of_decide_eq_true hnext
  obtain ⟨bus', hrest, -⟩ := System.exists_of_holdsAfter hnext
  obtain ⟨before, input, -, start, stop, -, hbefore, hstart, hann⟩ := master_announces_in_time rfl (by decide)
    (System.Reachable.run (.init (freshBus_init .single 4 _)) hrun) hrest (by decide)
  exact ⟨bus, bus', before, input, start, stop, hrest, hjoined, hbefore, hstart, hann⟩

end Turns

end Microbus
