import Microbus.SingleChannel

/-! The single channel: a node that hears the master knows every slot in time. -/
namespace Microbus

open Transition Announce

/-- A packet that the master may send next has a header that a node can read, and that does not reset it. -/
def TxManager.SendsWritten (m : TxManager) : Prop :=
  ∀ queue d i, m.activeTxNodes = some queue → d ∈ queue.toList → d.toNat < m.maxTxNodes → ¬ m.Idle d →
    ¬ m.AtWindowEnd d →
    findPacketEntry m.packetStore d (m.txSeqNumNext d) true = .ok i → CarriesSchedule (m.entry i).packet false

/-- The master sends only packets that it has written. -/
def Bus.SendsWritten {n : Nat} (bus : Bus n) : BusAction n → Prop
  | .slot _ => bus.master.currentTxNodeId = masterNodeId → bus.master.tx.txManager.SendsWritten
  | _ => True

theorem Packet.IsType.carriesSchedule {p : Packet} {t : PacketType} (h : p.IsType t) (ht : t ≠ .masterReset) :
    CarriesSchedule p false :=
  ⟨⟨rfl, h.notIdle, h.version⟩, fun hc => ht (Option.some.inj (h.type.symm.trans hc))⟩

theorem Packet.SameMessage.carriesSchedule {p p' : Packet} (h : p.SameMessage true p') {crcError : Bool}
    (hp : CarriesSchedule p crcError) : CarriesSchedule p' crcError := by
  unfold CarriesSchedule nodeReadsFrame Packet.isIdle Packet.getProtocolVersion Packet.getPacketType
  rw [h.type]
  exact hp

theorem MasterFrame.carriesSchedule {master : Master} {p : Packet} (h : MasterFrame master p)
    (hwritten : master.tx.txManager.SendsWritten) (htype : p.getPacketType ≠ some .masterReset) :
    CarriesSchedule p false := by
  cases h with
  | reset _ => exact absurd (Packet.isType_of_byte rfl).type htype
  | response _ => exact (txNewNodeResponse_isType _ _).carriesSchedule (by decide)
  | empty i _ => exact (Packet.isType_of_byte (t := .masterEmpty) rfl).carriesSchedule (by decide)
  | data _ hqueue hmem hd hidle hend hfind => exact hwritten _ _ _ hqueue hmem hd hidle hend hfind

/-- After the reset slots a frame resets nobody unless it was not written. -/
theorem MasterFrame.not_reset {master : Master} {p : Packet} (h : MasterFrame master p)
    (hwritten : master.tx.txManager.SendsWritten) (hreset : master.tx.masterResetCycles = 0) :
    p.getPacketType ≠ some .masterReset := by
  cases h with
  | reset hc => exact absurd hc (by omega)
  | response _ =>
      rw [(txNewNodeResponse_isType _ _).type]
      decide
  | empty i _ =>
      rw [(Packet.isType_of_byte (t := .masterEmpty) rfl).type]
      decide
  | data _ hqueue hmem hd hidle hend hfind => exact (hwritten _ _ _ hqueue hmem hd hidle hend hfind).2

theorem MasterFrame.resetCycles {master : Master} {p : Packet} (h : MasterFrame master p)
    (htype : p.getPacketType ≠ some .masterReset) : master.tx.masterResetCycles = 0 := by
  cases h with
  | reset _ => exact absurd (Packet.isType_of_byte rfl).type htype
  | response hcycles => exact hcycles
  | empty i hcycles => exact hcycles
  | data hcycles _ _ _ _ _ _ => exact hcycles

def Hearing.isIntact : Hearing → Bool
  | .intact => true
  | _ => false

section Bus

variable {n : Nat} {cfg : BusConfig n} {guard : Bus n → BusAction n → Prop} {i : Fin n} {bus bus' : Bus n}
  {input : SlotInput n}

/-- A node hears the master, if that sends in the slot, and is not reset. -/
structure Bus.Listens (i : Fin n) (bus : Bus n) (input : SlotInput n) (bus' : Bus n) : Prop where
  hears : bus.master.currentTxNodeId = masterNodeId → (input.hearing i).isIntact = true
  notTimedOut : ¬ (nodeUpdateTimeUs (bus.node i) (input.nodeUs i)).timedOut
  notReset : ¬ (bus.node i).resetBy ((input.hearing i).received bus'.downlink).1
    ((input.hearing i).received bus'.downlink).2

/-- The runs in which node `i` hears a frame of the master that is not a reset, and from then on every
frame of it, and is not reset; with the number of slots after that frame. -/
inductive InTouch (cfg : BusConfig n) (guard : Bus n → BusAction n → Prop) (i : Fin n) : Nat → Bus n → Prop
  | frame {bus input bus' frame} : (busSystem cfg).ReachableWhen guard bus → guard bus (.slot input) →
      (busSystem cfg).step bus (.slot input) = .ok bus' → bus.master.currentTxNodeId = masterNodeId →
      bus'.downlink = some frame → frame.getPacketType ≠ some .masterReset → (input.hearing i).isIntact = true →
      InTouch cfg guard i 0 bus'
  | slot {k bus input bus'} : InTouch cfg guard i k bus → guard bus (.slot input) →
      (busSystem cfg).step bus (.slot input) = .ok bus' → bus.Listens i input bus' →
        InTouch cfg guard i (k + 1) bus'
  | masterCall {k bus call bus'} : InTouch cfg guard i k bus → guard bus (.master call) →
      (busSystem cfg).step bus (.master call) = .ok bus' → InTouch cfg guard i k bus'
  | nodeCall {k bus j call bus'} : InTouch cfg guard i k bus → guard bus (.node j call) →
      (busSystem cfg).step bus (.node j call) = .ok bus' → ¬ (j = i ∧ call = .reset) → InTouch cfg guard i k bus'

theorem InTouch.reachable {k : Nat} (h : InTouch cfg guard i k bus) : (busSystem cfg).ReachableWhen guard bus := by
  induction h with
  | frame hreach hguard hs _ _ _ _ => exact .step hreach hguard hs
  | slot _ hguard hs _ ih => exact .step ih hguard hs
  | masterCall _ hguard hs ih => exact .step ih hguard hs
  | nodeCall _ hguard hs _ ih => exact .step ih hguard hs

theorem Bus.runSingleChannel_frame (hslot : bus.master.currentTxNodeId = masterNodeId)
    (hs : bus.runSingleChannel input = .ok bus') :
    ∃ timed p q, timed.tx = bus.master.tx ∧ MasterFrame timed p ∧ p.SameMessage true q ∧
      bus'.downlink = some q := by
  obtain ⟨k, master, downlink, slots, htx, -, rfl⟩ := Bus.runSingleChannel_tx hslot hs
  obtain ⟨m₁, m₂, p, -, -, -, hp, hdown⟩ := processTx_frame htx
  refine ⟨_, p, _, ?_, hp, fillSchedule_sameMessage _ _ _ _ p, hdown⟩
  obtain ⟨us, ttl, heq, -⟩ := masterUpdateTimeUs_eq bus.master input.masterUs
  rw [heq]

theorem Hearing.received_of_isIntact {hearing : Hearing} (h : hearing.isIntact = true) (frame : Packet) :
    hearing.received (some frame) = (frame, false) := by
  cases hearing with
  | lost => cases h
  | corrupt noise => cases h
  | intact => rfl

theorem Bus.runSingleChannel_carries (hslot : bus.master.currentTxNodeId = masterNodeId)
    (hwritten : bus.SendsWritten (.slot input)) (hs : bus.runSingleChannel input = .ok bus')
    (hhears : (input.hearing i).isIntact = true)
    (htype : bus.master.tx.masterResetCycles = 0 ∨ ∀ frame ∈ bus'.downlink,
      frame.getPacketType ≠ some .masterReset) :
    bus.master.tx.masterResetCycles = 0 ∧ ∃ frame, bus'.downlink = some frame ∧
      (input.hearing i).received bus'.downlink = (frame, false) ∧ CarriesSchedule frame false := by
  obtain ⟨timed, p, q, htx, hp, hsame, hdown⟩ := Bus.runSingleChannel_frame hslot hs
  have hwritten' : timed.tx.txManager.SendsWritten := htx ▸ hwritten hslot
  have hnot : p.getPacketType ≠ some .masterReset := by
    rcases htype with hcycles | htype
    · exact hp.not_reset hwritten' (htx ▸ hcycles)
    · have hq := htype q hdown
      unfold Packet.getPacketType at hq ⊢
      rwa [hsame.type] at hq
  refine ⟨?_, q, hdown, ?_, hsame.carriesSchedule (hp.carriesSchedule hwritten' hnot)⟩
  · rw [← htx]
    exact hp.resetCycles hnot
  · rw [hdown]
    exact Hearing.received_of_isIntact hhears q

/-- What a node knows of the schedule of the master while it hears that. -/
structure Bus.InStepWith (i : Fin n) (bus : Bus n) : Prop where
  resetCycles : bus.master.tx.masterResetCycles = 0
  inStep : InStep (· = masterNodeId) maxTxNodesScheduled bus.master.slots (bus.node i).slots

section Slot

variable (hsingle : cfg.master.mode = .single) (hnum : cfg.master.numTxNodesScheduled = 4)

include hnum in
theorem width_eq : cfg.master.numTxNodesScheduled.toNat = maxTxNodesScheduled := by
  rw [hnum]
  rfl

include hsingle hnum

/-- A frame of the master that is heard tells the node the slots up to the next frame. -/
theorem inStepWith_frame (h : (busSystem cfg).Reachable bus) (hslot : bus.master.currentTxNodeId = masterNodeId)
    (hwritten : bus.SendsWritten (.slot input)) (hs : bus.runSingleChannel input = .ok bus')
    (hhears : (input.hearing i).isIntact = true)
    (htype : bus.master.tx.masterResetCycles = 0 ∨ ∀ frame ∈ bus'.downlink,
      frame.getPacketType ≠ some .masterReset) :
    bus'.InStepWith i ∧ ∃ mid,
      Shifted maxTxNodesScheduled (nodeUpdateTimeUs (bus.node i) (input.nodeUs i)).slotsKept mid ∧
        (bus'.node i).slots 0 = mid 0 := by
  obtain ⟨hmaster, hnodes⟩ := devices_of_reachable h
  have hwidth := width_eq hnum
  have hpos : 0 < cfg.master.numTxNodesScheduled.toNat := by
    rw [hwidth]
    decide
  have hscheduled := scheduled_of_reaches hpos hmaster
  obtain ⟨hcycles, frame, hdown, hreceived, hcarries⟩ := Bus.runSingleChannel_carries hslot hwritten hs hhears htype
  obtain ⟨hshift, hle, hnext⟩ := Bus.runSingleChannel_master hpos hscheduled hs
  rw [hwidth] at hscheduled hshift hnext
  obtain ⟨mid, hmid, -, hresult⟩ :=
    Node.runSingleChannel_slots (ready_of_reachable (hnodes i)) (Bus.runSingleChannel_node hs i)
  rw [hreceived] at hresult
  generalize bus'.uplink i = sent at hresult
  cases hresult with
  | sends howner _ =>
      have hid := (owner_of_reachable hsingle hnum h howner).symm.trans hslot
      exact absurd (Or.inl hid) ((validIds_of_reachable h).nodeId i).not_noOwner
  | reset _ _ htype _ _ => exact absurd htype hcarries.2
  | misses _ hnot _ => exact absurd hcarries hnot
  | hears _ _ hcurrent hslots =>
      refine ⟨⟨Nat.eq_zero_of_le_zero (hle.trans hcycles.le), ?_⟩, mid, hmid, hcurrent⟩
      refine InStep.announce ((hscheduled.renewed (by decide)).recurs hshift) fun k hk hkw => ?_
      obtain ⟨k, rfl⟩ := Nat.exists_eq_succ_of_ne_zero (Nat.ne_of_gt hk)
      exact (hslots k hkw).trans (hnext frame hdown k hkw hkw)

theorem inStepWith_slot (h : (busSystem cfg).Reachable bus) (hin : bus.InStepWith i)
    (hwritten : bus.SendsWritten (.slot input)) (hs : bus.runSingleChannel input = .ok bus')
    (hlistens : bus.Listens i input bus') :
    bus'.InStepWith i ∧ (bus'.node i).slots 0 = bus'.master.slots 0 := by
  obtain ⟨hmaster, hnodes⟩ := devices_of_reachable h
  have hwidth := width_eq hnum
  have hpos : 0 < cfg.master.numTxNodesScheduled.toNat := by
    rw [hwidth]
    decide
  obtain ⟨hshift, hle, -⟩ := Bus.runSingleChannel_master hpos (scheduled_of_reaches hpos hmaster) hs
  rw [hwidth] at hshift
  have hkept : (nodeUpdateTimeUs (bus.node i) (input.nodeUs i)).slotsKept = (bus.node i).slots := by
    unfold Node.slotsKept
    rw [if_neg hlistens.notTimedOut]
    rfl
  by_cases hslot : bus.master.currentTxNodeId = masterNodeId
  · obtain ⟨hin', mid, hmid, hcurrent⟩ :=
      inStepWith_frame hsingle hnum h hslot hwritten hs (hlistens.hears hslot) (Or.inl hin.resetCycles)
    rw [hkept] at hmid
    exact ⟨hin', hcurrent.trans (hin.inStep.current hshift hmid)⟩
  · obtain ⟨mid, hmid, -, hresult⟩ :=
      Node.runSingleChannel_slots (ready_of_reachable (hnodes i)) (Bus.runSingleChannel_node hs i)
    have hdown : bus'.downlink = none := by
      obtain ⟨_, _, _, -, -, rfl⟩ := Bus.runSingleChannel_rx hslot hs
      rfl
    have hunread : ¬ nodeReadsFrame ((input.hearing i).received bus'.downlink).1
        ((input.hearing i).received bus'.downlink).2 := by
      intro hreads
      obtain ⟨-, frame, hframe, -⟩ := Hearing.read hreads
      cases hdown.symm.trans hframe
    rw [hkept] at hmid
    -- a slot without a frame only moves both schedules down
    have hslots : (bus'.node i).slots = mid := by
      generalize bus'.uplink i = sent at hresult
      cases hresult with
      | sends _ hsame => exact hsame
      | reset _ hreads _ _ _ => exact absurd hreads hunread
      | hears _ hcarries _ _ => exact absurd hcarries.1 hunread
      | misses _ _ hsame => exact hsame
    rw [hslots]
    refine ⟨⟨Nat.eq_zero_of_le_zero (hle.trans hin.resetCycles.le), ?_⟩, hin.inStep.current hshift hmid⟩
    rw [hslots]
    exact hin.inStep.shift hslot hshift hmid

theorem InTouch.inStepWith {k : Nat} (h : InTouch cfg Bus.SendsWritten i k bus) :
    bus.InStepWith i ∧ (1 ≤ k → (bus.node i).slots 0 = bus.master.slots 0) := by
  induction h with
  | @frame bus input bus' frame hreach hwritten hs hslot hdown htype hhears =>
      have hs : bus.step cfg.master.mode (.slot input) = .ok bus' := hs
      rw [hsingle] at hs
      have htype : ∀ q ∈ bus'.downlink, q.getPacketType ≠ some .masterReset := by
        intro q hq
        cases hdown.symm.trans hq
        exact htype
      exact ⟨(inStepWith_frame hsingle hnum (hreach.mono fun _ _ _ => trivial) hslot hwritten hs hhears
        (Or.inr htype)).1,
        fun hk => absurd hk (by decide)⟩
  | @slot k bus input bus' htouch hwritten hs hlistens ih =>
      have hs : bus.step cfg.master.mode (.slot input) = .ok bus' := hs
      rw [hsingle] at hs
      obtain ⟨hin, hcurrent⟩ := inStepWith_slot hsingle hnum (htouch.reachable.mono fun _ _ _ => trivial)
        ih.1 hwritten hs
        hlistens
      exact ⟨hin, fun _ => hcurrent⟩
  | @masterCall k bus call bus' _ _ hs ih =>
      obtain ⟨master, hcall, hs⟩ := bind_eq_ok.mp hs
      cases hs
      have hsame := Master.call_schedule hcall
      refine ⟨⟨Nat.eq_zero_of_le_zero (hsame.resetCycles.trans ih.1.resetCycles.le), ?_⟩, ?_⟩
      · change InStep _ _ master.slots (bus.node i).slots
        rw [hsame.slots]
        exact ih.1.inStep
      · change 1 ≤ k → (bus.node i).slots 0 = master.slots 0
        rw [hsame.slots]
        exact ih.2
  | @nodeCall k bus j call bus' _ _ hs hnot ih =>
      obtain ⟨node, hcall, hs⟩ := bind_eq_ok.mp hs
      cases hs
      have hslots : (Function.update bus.node j node i).slots = (bus.node i).slots := by
        by_cases hij : i = j
        · subst hij
          rw [Function.update_self]
          rcases Node.call_same hcall with ⟨hreset, -⟩ | ⟨-, hcurrent, hnext, -, -⟩
          · exact absurd ⟨rfl, hreset⟩ hnot
          · exact Node.slots_congr hcurrent hnext
        · rw [Function.update_of_ne hij]
      refine ⟨⟨ih.1.resetCycles, ?_⟩, ?_⟩
      · change InStep _ _ bus.master.slots (Function.update bus.node j node i).slots
        rw [hslots]
        exact ih.1.inStep
      · change 1 ≤ k → (Function.update bus.node j node i).slots 0 = bus.master.slots 0
        rw [hslots]
        exact ih.2

/-- A node that hears every frame of the master knows the slots: its view of the slot that starts is right
from the second slot on, and its next entry is never unknown, in every run in which the master sends only
packets that it has written. -/
theorem node_stays_in_step {k : Nat} (h : InTouch cfg Bus.SendsWritten i k bus) :
    (1 ≤ k → (bus.node i).currentTxNodeId = bus.master.currentTxNodeId) ∧
      (bus.node i).nextTxNodeId 0 = bus.master.nextTxNodeId 0 ∧ (bus.node i).nextTxNodeId 0 ≠ invalidNodeId := by
  obtain ⟨hin, hcurrent⟩ := h.inStepWith hsingle hnum
  have hnext : (bus.node i).nextTxNodeId 0 = bus.master.nextTxNodeId 0 := hin.inStep.next
  have hwidth := width_eq hnum
  have hknown := (scheduled_of_reaches (by rw [hwidth]; decide)
    (devices_of_reachable (h.reachable.mono fun _ _ _ => trivial)).1).known 1 (by rw [hwidth]; decide)
  exact ⟨hcurrent, hnext, fun hc => hknown (hnext.symm.trans hc)⟩

end Slot

instance (input : SlotInput n) : Decidable (bus.Listens i input bus') :=
  decidable_of_iff ((bus.master.currentTxNodeId = masterNodeId → (input.hearing i).isIntact = true) ∧
      ¬ (nodeUpdateTimeUs (bus.node i) (input.nodeUs i)).timedOut ∧
      ¬ (bus.node i).resetBy ((input.hearing i).received bus'.downlink).1 ((input.hearing i).received bus'.downlink).2)
    ⟨fun h => ⟨h.1, h.2.1, h.2.2⟩, fun h => ⟨h.hears, h.notTimedOut, h.notReset⟩⟩

/-- A run of slots in which node `i` listens, and that pass a test. -/
def touchRun (cfg : BusConfig n) (check : Bus n → Bool) (i : Fin n) : Bus n → List (SlotInput n) → Option (Bus n)
  | bus, [] => some bus
  | bus, input :: rest =>
      match check bus, (busSystem cfg).step bus (.slot input) with
      | true, .ok bus' => if bus.Listens i input bus' then touchRun cfg check i bus' rest else none
      | _, _ => none

theorem InTouch.run {check : Bus n → Bool} (hcheck : ∀ bus input, check bus = true → guard bus (.slot input)) :
    ∀ (inputs : List (SlotInput n)) {k : Nat} {bus bus' : Bus n}, InTouch cfg guard i k bus →
      touchRun cfg check i bus inputs = some bus' → InTouch cfg guard i (k + inputs.length) bus' := by
  intro inputs
  induction inputs with
  | nil =>
      intro k bus bus' h hr
      cases hr
      exact h
  | cons input rest ih =>
      intro k bus bus' h hr
      unfold touchRun at hr
      split at hr
      · rename_i bus₁ hc hs
        split at hr
        · rename_i hlistens
          rw [List.length_cons, Nat.add_comm rest.length, ← Nat.add_assoc]
          exact ih (h.slot (hcheck bus input hc) hs hlistens) hr
        · cases hr
      · cases hr

/-- A run up to a frame that the node hears, and the slots after it. -/
def frameRun (cfg : BusConfig n) (check : Bus n → Bool) (i : Fin n) (bus : Bus n) (input : SlotInput n)
    (inputs : List (SlotInput n)) : Option (Bus n) :=
  match check bus, (busSystem cfg).step bus (.slot input) with
  | true, .ok bus' =>
      if bus.master.currentTxNodeId = masterNodeId ∧ (input.hearing i).isIntact = true ∧
          bus'.downlink.any fun frame => frame.getPacketType ≠ some .masterReset then
        touchRun cfg check i bus' inputs
      else none
  | _, _ => none

theorem InTouch.frameRun {check : Bus n → Bool} (hcheck : ∀ bus input, check bus = true → guard bus (.slot input))
    (h : (busSystem cfg).ReachableWhen guard bus) {inputs : List (SlotInput n)}
    (hr : Microbus.frameRun cfg check i bus input inputs = some bus') : InTouch cfg guard i inputs.length bus' := by
  unfold Microbus.frameRun at hr
  split at hr
  · rename_i bus₁ hc hs
    split at hr
    · rename_i hframe
      obtain ⟨hslot, hhears, hany⟩ := hframe
      obtain ⟨frame, hdown, htype⟩ := System.exists_of_any hany
      have htouch := InTouch.frame h (hcheck bus input hc) hs hslot hdown (of_decide_eq_true htype) hhears
      rw [← Nat.zero_add inputs.length]
      exact htouch.run hcheck inputs hr
    · cases hr
  · cases hr

def Bus.sendsNothing (bus : Bus n) : Bool :=
  match bus.master.tx.txManager.activeTxNodes with
  | none => true
  | some queue => queue.toList.isEmpty

theorem Bus.sendsWritten_of_sendsNothing (h : bus.sendsNothing = true) (action : BusAction n) :
    bus.SendsWritten action := by
  cases action with
  | slot input =>
      intro _ queue d e hqueue hmem
      unfold Bus.sendsNothing at h
      rw [hqueue] at h
      rw [List.isEmpty_iff.mp h] at hmem
      cases hmem
  | master call => trivial
  | node j call => trivial

end Bus

theorem node_stays_in_step_listening : ∃ bus : Bus 1, InTouch (oneNodeConfig .single 4) Bus.SendsWritten 0 6 bus ∧
    (bus.node 0).currentTxNodeId = bus.master.currentTxNodeId ∧ (bus.node 0).nextTxNodeId 0 ≠ invalidNodeId := by
  have hcheck : ∀ (bus : Bus 1) (action : BusAction 1), bus.sendsNothing = true → bus.SendsWritten action :=
    fun bus action h => Bus.sendsWritten_of_sendsNothing h action
  obtain ⟨bus, hreach, hrun⟩ := System.exists_of_checkedRun (S := busSystem (oneNodeConfig .single 4))
    (p := fun bus => (frameRun (oneNodeConfig .single 4) Bus.sendsNothing 0 bus clearSlot
      (List.replicate 6 clearSlot)).isSome)
    (List.replicate 20 (.slot clearSlot)) hcheck (.init (freshBus_init .single 4 fun _ => ⟨false, Packet.zero⟩))
    (by decide +kernel)
  obtain ⟨bus', hrun⟩ := Option.isSome_iff_exists.mp hrun
  have htouch := InTouch.frameRun (fun bus input => hcheck bus (.slot input)) hreach hrun
  obtain ⟨hcurrent, -, hknown⟩ := node_stays_in_step rfl rfl htouch
  exact ⟨bus', htouch, hcurrent (by decide), hknown⟩

/-- The packet memory holds the destination 1, packet 0 is submitted for a node that is not there, and node 1
joins: the master sends that buffer, whose header it never wrote, and the node misses the schedule in it. -/
theorem unwritten_frame_breaks_step : ∃ bus : Bus 1, InTouch (oneNodeConfig .single 4) (fun _ _ => True) 0 5 bus ∧
    (bus.node 0).currentTxNodeId = invalidNodeId ∧ bus.master.currentTxNodeId ≠ invalidNodeId := by
  obtain ⟨bus, hrun, hframe⟩ := System.exists_of_holdsAfter
    (x := (busSystem (oneNodeConfig .single 4)).run
      (freshBus 4 fun _ => ⟨false, { Packet.zero with dstNodeId := 1 }⟩)
      ([.master .allocate, .master (.submit 5 10)] ++ List.replicate 27 (.slot clearSlot) ++
        [.master .allocate, .master (.submit 1 10)]))
    (p := fun bus => (frameRun (oneNodeConfig .single 4) (fun _ => true) 0 bus clearSlot
      (List.replicate 5 clearSlot)).any fun bus' =>
        (bus'.node 0).currentTxNodeId = invalidNodeId ∧
        bus'.master.currentTxNodeId ≠ invalidNodeId) (by decide +kernel)
  obtain ⟨bus', hframe, hwrong⟩ := System.exists_of_any hframe
  exact ⟨bus', InTouch.frameRun (fun _ _ _ => trivial)
    (System.Reachable.run (.init (freshBus_init .single 4 _)) hrun) hframe, of_decide_eq_true hwrong⟩

end Microbus
