import Microbus.Network
import Microbus.NodeRun

/-! Which of two timers runs out first: the master counts in coarse steps what the node counts in
microseconds. -/
namespace Microbus

open Transition

def FineIncrement (usIncr : UInt32) : Prop := 1 ≤ usIncr.toNat ∧ usIncr.toNat ≤ timeToLiveUpdateTimeUs

def MasterAction.TicksFinely {mode : ChannelMode} : MasterAction mode → Prop
  | .updateTimeUs usIncr => FineIncrement usIncr
  | _ => True

instance (usIncr : UInt32) : Decidable (FineIncrement usIncr) := by unfold FineIncrement; infer_instance

instance {mode : ChannelMode} (a : MasterAction mode) : Decidable a.TicksFinely := by
  cases a <;> unfold MasterAction.TicksFinely <;> infer_instance

theorem masterUpdateTimeUs_fine {master : Master} {usIncr : UInt32} (hfine : FineIncrement usIncr)
    (hclock : master.nwManager.timeToLiveTimeUs < timeToLiveUpdateTimeUs) :
    (master.nwManager.timeToLiveTimeUs + usIncr.toNat < timeToLiveUpdateTimeUs ∧
      (masterUpdateTimeUs master usIncr).nwManager.timeToLiveTimeUs =
        master.nwManager.timeToLiveTimeUs + usIncr.toNat ∧
      (masterUpdateTimeUs master usIncr).masterNodeTimeToLive = master.masterNodeTimeToLive) ∨
    (timeToLiveUpdateTimeUs ≤ master.nwManager.timeToLiveTimeUs + usIncr.toNat ∧
      (masterUpdateTimeUs master usIncr).nwManager.timeToLiveTimeUs =
        master.nwManager.timeToLiveTimeUs + usIncr.toNat - timeToLiveUpdateTimeUs ∧
      (∀ n, Station n → (masterUpdateTimeUs master usIncr).masterNodeTimeToLive n =
        decrementTimeToLive (master.masterNodeTimeToLive n)) ∧
      ∀ n, ¬ Station n →
        (masterUpdateTimeUs master usIncr).masterNodeTimeToLive n = master.masterNodeTimeToLive n) := by
  have hstep : timeToLiveUpdateTimeUs = 4358 := rfl
  have hmod : (master.nwManager.timeToLiveTimeUs + usIncr.toNat) % 2 ^ 32 =
      master.nwManager.timeToLiveTimeUs + usIncr.toNat := by
    obtain ⟨-, hincr⟩ := hfine
    exact Nat.mod_eq_of_lt (by omega)
  unfold masterUpdateTimeUs networkManagerUpdateTimeUs
  dsimp only
  rw [hmod]
  by_cases hfull : master.nwManager.timeToLiveTimeUs + usIncr.toNat ≥ timeToLiveUpdateTimeUs
  · rw [if_pos hfull]
    exact Or.inr ⟨hfull, rfl, fun _ hn => if_pos hn, fun _ hn => if_neg hn⟩
  · rw [if_neg hfull]
    exact Or.inl ⟨Nat.lt_of_not_ge hfull, rfl, rfl⟩

theorem clock_updateTimeUs {master : Master} {usIncr : UInt32} (hfine : FineIncrement usIncr)
    (hclock : master.nwManager.timeToLiveTimeUs < timeToLiveUpdateTimeUs) :
    (masterUpdateTimeUs master usIncr).nwManager.timeToLiveTimeUs < timeToLiveUpdateTimeUs := by
  rcases masterUpdateTimeUs_fine hfine hclock with ⟨hroom, htime, -⟩ | ⟨hfull, htime, -⟩
  · rw [htime]
    exact hroom
  · obtain ⟨-, hincr⟩ := hfine
    rw [htime]
    omega

/-- The subtraction of an unsigned number from a signed one does not wrap here. -/
theorem nodeNwUpdateTimeUs_of_pos {timeToLive : Int} {usIncr : UInt32} (hfine : FineIncrement usIncr)
    (hpos : 0 < timeToLive) (hle : timeToLive ≤ nodeTimeoutUs) :
    nodeNwUpdateTimeUs timeToLive usIncr = timeToLive - usIncr.toNat := by
  have hstep : timeToLiveUpdateTimeUs = 4358 := rfl
  have htimeout : nodeTimeoutUs = 523776 := rfl
  obtain ⟨-, hincr⟩ := hfine
  unfold nodeNwUpdateTimeUs
  rw [if_pos hpos]
  exact Int.bmod_eq_of_le (by omega) (by omega)

theorem nodeNwUpdateTimeUs_of_nonpos {timeToLive : Int} (h : timeToLive ≤ 0) (usIncr : UInt32) :
    nodeNwUpdateTimeUs timeToLive usIncr = timeToLive := by
  unfold nodeNwUpdateTimeUs
  exact if_neg (by omega)

theorem nodeNwUpdateTimeUs_le {timeToLive : Int} {usIncr : UInt32} (hfine : FineIncrement usIncr)
    (hle : timeToLive ≤ nodeTimeoutUs) : nodeNwUpdateTimeUs timeToLive usIncr ≤ timeToLive := by
  by_cases hpos : 0 < timeToLive
  · rw [nodeNwUpdateTimeUs_of_pos hfine hpos hle]
    omega
  · rw [nodeNwUpdateTimeUs_of_nonpos (by omega)]

theorem nodeGetTxPacket_timeToLive {node node' : Node} {frame : Packet}
    (h : nodeGetTxPacket node = (node', some frame)) : node'.timeToLive = nodeNwRecordTxPacketSent := by
  have hsend : ∀ {n : Node}, nodeSendTxPacket n = (node', some frame) →
    node'.timeToLive = nodeNwRecordTxPacketSent := by
    intro n hn
    exact congrArg (fun r => r.1.timeToLive) hn.symm
  unfold nodeGetTxPacket at h
  split at h
  · cases h
  · split at h
    · split at h
      · exact hsend h
      · cases h
    · exact hsend h

theorem keptBetweenTicks_clock (clock : Nat) :
    KeptBetweenTicks fun master => master.nwManager.timeToLiveTimeUs = clock where
  same h hs := by rw [hs.nwManager]; exact h
  updateSchedule h hs := by
    obtain ⟨_, _, _, _, -, -, rfl⟩ := masterUpdateSchedule_ok hs
    exact h
  quickRx h hq := by
    obtain ⟨_, _, _, _, rfl, hanswered, -, -⟩ := masterQuickRx_ok hq
    exact hanswered.timeToLiveTimeUs.trans h
  rx h hr := by
    rcases masterRx_ok hr with ⟨-, rfl⟩ | ⟨_, _, _, _, _, nw, ttl, -, -, rfl, hresult⟩
    · exact h
    · cases hresult with
      | ignored _ => exact h
      | acked _ _ => exact h
      | stored _ _ _ _ _ => exact h
      | registered _ hrequest =>
          obtain ⟨_, -, hrequest⟩ := bind_eq_ok.mp hrequest
          obtain ⟨uniqueId, -, hregister⟩ := bind_eq_ok.mp hrequest
          rcases networkManagerRegisterNewNode_ok hregister with ⟨rfl, -⟩ | ⟨_, -, -, -, -, rfl, -⟩
          · exact h
          · exact h
  connected h := h

/-- The time to live of node `n` is what it was, or full again. -/
def LeftOrFull (n : TNodeIndex) (left : Nat) (ttl : TimeToLive) : Prop := ttl n = left ∨ ttl n = masterMaxTimeToLive

namespace LeftOrFull

variable {n d : TNodeIndex} {left : Nat} {ttl ttl' : TimeToLive}

theorem update_of_ne (h : LeftOrFull n left ttl) (hne : n ≠ d) (v : Nat) :
    LeftOrFull n left (Function.update ttl d v) := by
  unfold LeftOrFull
  rwa [Function.update_of_ne hne]

theorem heard (h : LeftOrFull n left ttl) (hheard : Heard ttl ttl' d) : LeftOrFull n left ttl' := by
  rcases hheard with rfl | ⟨-, rfl⟩
  · exact h
  · by_cases hsrc : n = d
    · subst hsrc
      exact Or.inr (Function.update_self _ _ _)
    · exact h.update_of_ne hsrc _

theorem register (h : LeftOrFull n left ttl) (hleft : left ≠ 0) {nw nw' : NetworkManager} {uniqueId : UInt64}
    (hregister : networkManagerRegisterNewNode nw ttl uniqueId = .ok (nw', ttl')) : LeftOrFull n left ttl' := by
  rcases networkManagerRegisterNewNode_ok hregister with ⟨-, rfl⟩ | ⟨_, -, -, hid, -, -, rfl⟩
  · exact h
  · have hfree := (getNextFreeNodeId_free hid).2.2
    have hfull : masterMaxTimeToLive ≠ 0 := by decide
    refine h.update_of_ne ?_ _
    rintro rfl
    rcases h with h | h
    · exact hleft (h.symm.trans hfree)
    · exact hfull (h.symm.trans hfree)

end LeftOrFull

/-- Between ticks the time to live of a node that is there stays or is full again. -/
theorem keptBetweenTicks_timeToLive {n : TNodeIndex} {left : Nat} (hn : Station n) (hleft : left ≠ 0) :
    KeptBetweenTicks fun master => LeftOrFull n left master.masterNodeTimeToLive where
  same h hs := by rw [hs.masterNodeTimeToLive]; exact h
  updateSchedule h hs := by
    obtain ⟨_, _, _, _, -, -, rfl⟩ := masterUpdateSchedule_ok hs
    exact h
  quickRx h hq := by
    obtain ⟨_, _, _, _, rfl, -, hheard, -⟩ := masterQuickRx_ok hq
    exact h.heard hheard
  rx h hr := by
    rcases masterRx_ok hr with ⟨-, rfl⟩ | ⟨_, _, _, _, _, nw, ttl, -, -, rfl, hresult⟩
    · exact h
    · cases hresult with
      | ignored _ => exact h
      | acked _ _ => exact h
      | stored _ _ _ _ _ => exact h
      | registered _ hrequest =>
          obtain ⟨_, -, hrequest⟩ := bind_eq_ok.mp hrequest
          obtain ⟨uniqueId, -, hregister⟩ := bind_eq_ok.mp hrequest
          exact h.register hleft hregister
  connected h := by
    refine h.update_of_ne ?_ _
    rintro rfl
    exact absurd hn.1 (by decide)

/-- A node is removed only after it is marked. -/
theorem masterRemoveIfTimedOut_timeToLive {master master' : Master} {d n : TNodeIndex} {k : Nat}
    (hr : masterRemoveIfTimedOut master d = .ok (k, master')) (hn : master.masterNodeTimeToLive n ≠ removeNodeTTL) :
    master'.masterNodeTimeToLive n = master.masterNodeTimeToLive n := by
  rcases masterRemoveIfTimedOut_ok hr with ⟨-, rfl⟩ | ⟨_, _, _, _, _, hmarked, -, -, -, rfl⟩
  · rfl
  · have hne : n ≠ d := by
      rintro rfl
      exact hn hmarked
    exact Function.update_of_ne hne _ _

theorem masterRemoveIfTimedOut_clock {master master' : Master} {d : TNodeIndex} {k : Nat}
    (hr : masterRemoveIfTimedOut master d = .ok (k, master')) :
    master'.nwManager.timeToLiveTimeUs = master.nwManager.timeToLiveTimeUs := by
  rcases masterRemoveIfTimedOut_ok hr with ⟨-, rfl⟩ | ⟨_, _, _, _, _, -, hrequest, -, -, rfl⟩
  · rfl
  · exact (networkManagerRemoveNewNodeRequest_ok hrequest).2

namespace MasterRun

variable {mode : ChannelMode} {s s' : MasterRun} {a : MasterAction mode} {n : TNodeIndex}

theorem step_clock (ha : ∀ usIncr, a ≠ .updateTimeUs usIncr) (hs : s.step a = .ok s') :
    s'.master.nwManager.timeToLiveTimeUs = s.master.nwManager.timeToLiveTimeUs := by
  refine (keptBetweenTicks_clock _).step rfl (fun usIncr h => absurd h (ha usIncr)) ?_ hs
  intro m m' k _ hm hr
  exact masterRemoveAnyTimeoutNodes_induction
    (fun _ _ _ _ _ _ hp hone => (masterRemoveIfTimedOut_clock hone).trans hp) hm hr

theorem step_timeToLive (hn : Station n) (hzero : s.master.masterNodeTimeToLive n ≠ 0)
    (hmarked : s.master.masterNodeTimeToLive n ≠ removeNodeTTL) (ha : ∀ usIncr, a ≠ .updateTimeUs usIncr)
    (hs : s.step a = .ok s') :
    LeftOrFull n (s.master.masterNodeTimeToLive n) s'.master.masterNodeTimeToLive := by
  refine (keptBetweenTicks_timeToLive hn hzero).step (Or.inl rfl) (fun usIncr h => absurd h (ha usIncr)) ?_ hs
  intro m m' k _ hm hr
  refine masterRemoveAnyTimeoutNodes_induction
    (P := fun m => LeftOrFull n (s.master.masterNodeTimeToLive n) m.masterNodeTimeToLive)
    (fun d _ _ master _ master' hp hone => ?_) hm hr
  have hfull : masterMaxTimeToLive ≠ removeNodeTTL := by decide
  have hkept : master'.masterNodeTimeToLive n = master.masterNodeTimeToLive n := by
    refine masterRemoveIfTimedOut_timeToLive hone ?_
    rcases hp with hp | hp
    · rw [hp]
      exact hmarked
    · rw [hp]
      exact hfull
  unfold LeftOrFull
  rwa [hkept]

/-- In every run whose ticks are fine the accumulator is below one coarse step. -/
theorem clock_lt {cfg : MasterConfig} {s : MasterRun}
    (h : (masterSystem cfg).ReachableWhen (fun _ a => a.TicksFinely) s) :
    s.master.nwManager.timeToLiveTimeUs < timeToLiveUpdateTimeUs := by
  refine h.invariant (P := fun s => s.master.nwManager.timeToLiveTimeUs < timeToLiveUpdateTimeUs) ?_ ?_
  · rintro s ⟨entries, hinit, -, -⟩
    obtain ⟨rx, -, hinit⟩ := bind_eq_ok.mp hinit
    rw [← Except.ok.inj hinit]
    exact Nat.pos_of_ne_zero (by decide)
  · intro s a s' hclock hfine hs
    by_cases ha : ∃ usIncr, a = .updateTimeUs usIncr
    · obtain ⟨usIncr, rfl⟩ := ha
      cases hs
      exact clock_updateTimeUs hfine hclock
    · rw [step_clock (fun usIncr hc => ha ⟨usIncr, hc⟩) hs]
      exact hclock

end MasterRun

structure Timers where
  run : MasterRun
  node : Node

inductive TimersAction (mode : ChannelMode) : Type
  | tick (usIncr : UInt32) : TimersAction mode
  | master (a : MasterAction mode) : TimersAction mode

/-- Both timers advance by the same increment, and the master does what else it does in between. -/
def TimersAction.TicksFinely {mode : ChannelMode} : TimersAction mode → Prop
  | .tick usIncr => FineIncrement usIncr
  | .master a => ∀ usIncr, a ≠ .updateTimeUs usIncr

namespace Timers

def step {mode : ChannelMode} (t : Timers) : TimersAction mode → Except Fault Timers
  | .tick usIncr => .ok {
      run := { t.run with master := masterUpdateTimeUs t.run.master usIncr }
      node := nodeUpdateTimeUs t.node usIncr }
  | .master a => do
      let run ← t.run.step a
      return { t with run }

/-- The master's part of a tick marks node `n` as one to be removed. -/
def marks (t : Timers) (usIncr : UInt32) (n : TNodeIndex) : Prop :=
  t.run.master.masterNodeTimeToLive n ≠ removeNodeTTL ∧
    (masterUpdateTimeUs t.run.master usIncr).masterNodeTimeToLive n = removeNodeTTL

instance (t : Timers) (usIncr : UInt32) (n : TNodeIndex) : Decidable (t.marks usIncr n) := by
  unfold marks; infer_instance

/-- The node's own time to live while the master's part of a tick runs. -/
def timeToLiveAt (t : Timers) (usIncr : UInt32) (nodeFirst : Bool) : Int :=
  if nodeFirst then (nodeUpdateTimeUs t.node usIncr).timeToLive else t.node.timeToLive

end Timers

/-- The master hears `frame`. -/
def Master.hears (master : Master) (frame : Packet) (crcError : Bool) : Prop :=
  masterAcceptsFrame frame crcError ∧
    (frame.getPacketType = some .nodeData ∨ frame.getPacketType = some .nodeEmpty) ∧
    0 < master.masterNodeTimeToLive frame.srcNodeId

instance (master : Master) (frame : Packet) (crcError : Bool) : Decidable (master.hears frame crcError) := by
  unfold Master.hears; infer_instance

def MasterRun.hears {mode : ChannelMode} (s : MasterRun) (frame : Packet) : MasterAction mode → Prop
  | .preProcess received crcError _ => received = frame ∧ s.master.hears frame crcError
  | .processRx received crcError => received = frame ∧ s.master.hears frame crcError
  | _ => False

/-- The runs that start when a node sends `frame`. -/
def transmissions (cfg : MasterConfig) (frame : Packet) : System Timers (TimersAction cfg.mode) Fault where
  init t := (masterSystem cfg).ReachableWhen (fun _ a => a.TicksFinely) t.run ∧
    ∃ node, nodeGetTxPacket node = (t.node, some frame)
  step := Timers.step

theorem masterRecordHeard_full {nw nw' : NetworkManager} {ttl ttl' : TimeToLive} {frame : Packet}
    (htype : frame.getPacketType = some .nodeData ∨ frame.getPacketType = some .nodeEmpty)
    (hthere : 0 < ttl frame.srcNodeId) (h : masterRecordHeard nw ttl frame = .ok (nw', ttl')) :
    ttl' frame.srcNodeId = masterMaxTimeToLive := by
  unfold masterRecordHeard at h
  rw [if_pos htype] at h
  obtain ⟨_, -, h⟩ := bind_eq_ok.mp h
  rw [if_pos hthere] at h
  unfold networkManagerRecordRxPacket at h
  obtain ⟨_, -, h⟩ := bind_eq_ok.mp h
  obtain ⟨_, -, h⟩ := bind_eq_ok.mp h
  cases h
  exact Function.update_self _ _ _

theorem masterQuickRx_full {master master' : Master} {frame : Packet} {crcError : Bool}
    (hframe : master.rx.packetAt master.rx.nextRxPacketEntry = frame) (hhears : master.hears frame crcError)
    (h : masterQuickRx master crcError = .ok master') :
    master'.masterNodeTimeToLive frame.srcNodeId = masterMaxTimeToLive := by
  obtain ⟨haccept, htype, hthere⟩ := hhears
  obtain ⟨⟨rx, nw, m, ttl⟩, hquick, h⟩ := bind_eq_ok.mp h
  cases h
  unfold masterQuickProcessPrevRx at hquick
  dsimp only at hquick
  rw [hframe, if_neg (not_not_intro haccept)] at hquick
  obtain ⟨⟨nw₁, ttl₁⟩, hrecord, hquick⟩ := bind_eq_ok.mp hquick
  have hfull := masterRecordHeard_full htype hthere hrecord
  dsimp only at hquick
  split at hquick
  · cases hquick
    exact hfull
  · split at hquick
    · obtain ⟨⟨_, _⟩, -, hquick⟩ := bind_eq_ok.mp hquick
      cases hquick
      exact hfull
    · cases hquick
      exact hfull

theorem MasterRun.step_hears {mode : ChannelMode} {s s' : MasterRun} {a : MasterAction mode} {frame : Packet}
    (hn : Station frame.srcNodeId) (hhears : s.hears frame a) (hs : s.step a = .ok s') :
    s'.master.masterNodeTimeToLive frame.srcNodeId = masterMaxTimeToLive := by
  have hkept : KeptBetweenTicks fun master =>
      LeftOrFull frame.srcNodeId masterMaxTimeToLive master.masterNodeTimeToLive :=
    keptBetweenTicks_timeToLive hn (by decide)
  have hquick : ∀ {m₁ m₂ : Master} {crcError}, s.master.hears frame crcError →
      masterUpdateSchedule (s.master.receive frame) = .ok m₁ → masterQuickRx m₁ crcError = .ok m₂ →
      LeftOrFull frame.srcNodeId masterMaxTimeToLive m₂.masterNodeTimeToLive := by
    intro m₁ m₂ crcError hhears h₁ h₂
    obtain ⟨_, _, _, _, -, -, rfl⟩ := masterUpdateSchedule_ok h₁
    refine Or.inl (masterQuickRx_full ?_ ?_ h₂)
    · exact RxPacketManager.packet_receive _ _
    · exact hhears
  have hfull : LeftOrFull frame.srcNodeId masterMaxTimeToLive s'.master.masterNodeTimeToLive := by
    cases a with
    | preProcess received crcError stray =>
        obtain ⟨rfl, hhears⟩ := hhears
        obtain ⟨⟨m, f⟩, hpre, hs⟩ := bind_eq_ok.mp hs
        cases hs
        obtain ⟨m₁, m₂, h₁, h₂, rfl⟩ := preProcess_ok hpre
        exact hkept.quickTx (hquick hhears h₁ h₂) stray
    | processRx received crcError =>
        obtain ⟨rfl, hhears⟩ := hhears
        obtain ⟨⟨k, m⟩, hrx, hs⟩ := bind_eq_ok.mp hs
        cases hs
        obtain ⟨m₁, m₂, h₁, h₂, h₃⟩ := processRx_ok hrx
        exact hkept.rx (hquick hhears h₁ h₂) h₃
    | _ => exact absurd hhears id
  exact hfull.elim id id

namespace Timers

variable {mode : ChannelMode} {t t' : Timers} {n : TNodeIndex}

/-- What holds from the moment a node sends. -/
structure Sent (t : Timers) : Prop where
  clock : t.run.master.nwManager.timeToLiveTimeUs < timeToLiveUpdateTimeUs
  timeToLive : t.node.timeToLive ≤ nodeTimeoutUs

/-- While the node has time left, the master has counted no more steps than went by since it heard the node,
up to the phase of its accumulator. -/
structure Lags (n : TNodeIndex) (t : Timers) : Prop extends t.Sent where
  there : 0 < t.node.timeToLive → t.run.master.masterNodeTimeToLive n ≠ 0
  counted : 0 < t.node.timeToLive → t.run.master.masterNodeTimeToLive n ≤ masterMaxTimeToLive
  margin : 0 < t.node.timeToLive →
    masterMaxTimeToLive * timeToLiveUpdateTimeUs + t.run.master.nwManager.timeToLiveTimeUs + t.node.timeToLive <
      nodeTimeoutUs + timeToLiveUpdateTimeUs +
        (t.run.master.masterNodeTimeToLive n * timeToLiveUpdateTimeUs : Nat)

theorem Sent.step {a : TimersAction mode} (h : t.Sent) (hfine : a.TicksFinely) (hs : t.step a = .ok t') : t'.Sent := by
  cases a with
  | tick usIncr =>
      cases hs
      exact ⟨clock_updateTimeUs hfine h.clock, (nodeNwUpdateTimeUs_le hfine h.timeToLive).trans h.timeToLive⟩
  | master a =>
      obtain ⟨run, hrun, hs⟩ := bind_eq_ok.mp hs
      cases hs
      have hclock := MasterRun.step_clock hfine hrun
      exact ⟨hclock ▸ h.clock, h.timeToLive⟩

/-- The step that would use up the master's time to live is still to come. -/
theorem Lags.one_lt (h : t.Lags n) (hpos : 0 < t.node.timeToLive) : 1 < t.run.master.masterNodeTimeToLive n := by
  have hstep : timeToLiveUpdateTimeUs = 4358 := rfl
  have htimeout : nodeTimeoutUs = 523776 := rfl
  have hmax : masterMaxTimeToLive = 128 := rfl
  have hmargin := h.margin hpos
  rw [hstep, hmax, htimeout] at hmargin
  omega

theorem decrementTimeToLive_of_one_lt {ttl : Nat} (h : 1 < ttl) (hmax : ttl ≤ masterMaxTimeToLive) :
    decrementTimeToLive ttl = ttl - 1 := by
  have hremove : removeNodeTTL = 255 := rfl
  have h128 : masterMaxTimeToLive = 128 := rfl
  unfold decrementTimeToLive
  rw [if_pos ⟨by omega, by omega⟩, if_neg (by omega)]

theorem Lags.tick (h : t.Lags n) (hn : Station n) {usIncr : UInt32} (hfine : FineIncrement usIncr)
    (hs : t.step (.tick usIncr : TimersAction mode) = .ok t') : t'.Lags n := by
  have hsent := h.toSent.step (show (TimersAction.tick usIncr : TimersAction mode).TicksFinely from hfine) hs
  have hleft : 0 < t'.node.timeToLive → 0 < t.node.timeToLive ∧
      t'.node.timeToLive = t.node.timeToLive - usIncr.toNat := by
    intro hpos
    cases hs
    by_cases hpos' : 0 < t.node.timeToLive
    · exact ⟨hpos', nodeNwUpdateTimeUs_of_pos hfine hpos' h.timeToLive⟩
    · have hsame := nodeNwUpdateTimeUs_of_nonpos (show t.node.timeToLive ≤ 0 by omega) usIncr
      exact absurd (hsame ▸ hpos) hpos'
  have hcount := masterUpdateTimeUs_fine hfine h.clock
  cases hs
  rcases hcount with ⟨hroom, htime, htable⟩ | ⟨hfull, htime, htable, -⟩
  · refine ⟨hsent, ?_, ?_, ?_⟩
    · intro hpos
      obtain ⟨hpos', -⟩ := hleft hpos
      rw [htable]
      exact h.there hpos'
    · intro hpos
      obtain ⟨hpos', -⟩ := hleft hpos
      rw [htable]
      exact h.counted hpos'
    · intro hpos
      obtain ⟨hpos', hsub⟩ := hleft hpos
      have hmargin := h.margin hpos'
      rw [hsub, htable, htime]
      push_cast
      omega
  · have hdecrement : 0 < t.node.timeToLive → (masterUpdateTimeUs t.run.master usIncr).masterNodeTimeToLive n =
        t.run.master.masterNodeTimeToLive n - 1 := by
      intro hpos
      rw [htable n hn]
      exact decrementTimeToLive_of_one_lt (h.one_lt hpos) (h.counted hpos)
    refine ⟨hsent, ?_, ?_, ?_⟩
    · intro hpos
      obtain ⟨hpos', -⟩ := hleft hpos
      have hone := h.one_lt hpos'
      rw [hdecrement hpos']
      omega
    · intro hpos
      obtain ⟨hpos', -⟩ := hleft hpos
      have hcounted := h.counted hpos'
      rw [hdecrement hpos']
      omega
    · intro hpos
      obtain ⟨hpos', hsub⟩ := hleft hpos
      have hmargin := h.margin hpos'
      obtain ⟨ttl, httl⟩ := Nat.exists_eq_add_of_lt (h.one_lt hpos')
      rw [hsub, hdecrement hpos', htime]
      rw [httl] at hmargin ⊢
      push_cast [Nat.add_mul, Nat.add_sub_cancel] at hmargin ⊢
      omega

theorem Lags.step {a : TimersAction mode} (h : t.Lags n) (hn : Station n) (hfine : a.TicksFinely)
    (hs : t.step a = .ok t') : t'.Lags n := by
  cases a with
  | tick usIncr => exact h.tick hn hfine hs
  | master a =>
      have hsent := h.toSent.step hfine hs
      obtain ⟨run, hrun, hs⟩ := bind_eq_ok.mp hs
      cases hs
      have hclock := MasterRun.step_clock hfine hrun
      have hmax : masterMaxTimeToLive = 128 := rfl
      have hremove : removeNodeTTL = 255 := rfl
      have htable : 0 < t.node.timeToLive → LeftOrFull n (t.run.master.masterNodeTimeToLive n)
          run.master.masterNodeTimeToLive := by
        intro hpos
        have hcounted := h.counted hpos
        exact MasterRun.step_timeToLive hn (h.there hpos) (by omega) hfine hrun
      refine ⟨hsent, ?_, ?_, ?_⟩
      · intro hpos
        rcases htable hpos with hsame | hfull
        · exact hsame ▸ h.there hpos
        · rw [hfull]
          decide
      · intro hpos
        rcases htable hpos with hsame | hfull
        · exact hsame ▸ h.counted hpos
        · exact hfull.le
      · intro hpos
        have hmargin := h.margin hpos
        have hcounted : t.run.master.masterNodeTimeToLive n ≤ run.master.masterNodeTimeToLive n := by
          rcases htable hpos with hsame | hfull
          · exact hsame.ge
          · rw [hfull]
            exact h.counted hpos
        have hle := Nat.mul_le_mul_right timeToLiveUpdateTimeUs hcounted
        dsimp only
        rw [hclock]
        omega

/-- The master starts to count when it hears the node, and the node when it sent. -/
theorem Sent.hears (h : t.Sent) {frame : Packet} (hn : Station frame.srcNodeId) {a : MasterAction mode}
    (hhears : t.run.hears frame a) (hs : t.step (.master a) = .ok t') : t'.Lags frame.srcNodeId := by
  have hnot : ∀ usIncr, a ≠ .updateTimeUs usIncr := by
    rintro usIncr rfl
    exact hhears
  have hsent := h.step (show (TimersAction.master a).TicksFinely from hnot) hs
  obtain ⟨run, hrun, hs⟩ := bind_eq_ok.mp hs
  cases hs
  have hfull := MasterRun.step_hears hn hhears hrun
  refine ⟨hsent, ?_, ?_, ?_⟩
  · intro _
    rw [hfull]
    decide
  · exact fun _ => hfull.le
  · intro _
    have hclock := hsent.clock
    have hleft := hsent.timeToLive
    dsimp only at hclock hleft ⊢
    rw [hfull]
    push_cast
    omega

theorem Lags.run {cfg : MasterConfig} {frame : Packet} {as : List (TimersAction cfg.mode)} (h : t.Lags n)
    (hn : Station n) (hmeets : (transmissions cfg frame).RunMeets (fun _ a => a.TicksFinely) t as)
    (hrun : (transmissions cfg frame).run t as = .ok t') : t'.Lags n := by
  induction as generalizing t with
  | nil =>
      cases hrun
      exact h
  | cons a rest ih =>
      obtain ⟨t₁, hs, hrest⟩ := bind_eq_ok.mp hrun
      exact ih (h.step hn hmeets.1 hs) (hmeets.2 t₁ hs) hrest

/-- Only a station is marked, and only when its time to live is used up. -/
theorem Lags.not_marks (h : t.Lags n) (hpos : 0 < t.node.timeToLive) {usIncr : UInt32} (hfine : FineIncrement usIncr)
    (hn : Station n) : ¬ t.marks usIncr n := by
  rintro ⟨hnot, hmarked⟩
  rcases masterUpdateTimeUs_fine hfine h.clock with ⟨-, -, htable⟩ | ⟨-, -, htable, -⟩
  · exact hnot (htable ▸ hmarked)
  · have hcounted := h.counted hpos
    have hmax : masterMaxTimeToLive = 128 := rfl
    have hremove : removeNodeTTL = 255 := rfl
    rw [htable n hn, decrementTimeToLive_of_one_lt (h.one_lt hpos) hcounted] at hmarked
    omega

theorem station_of_marks {usIncr : UInt32} (hfine : FineIncrement usIncr)
    (hclock : t.run.master.nwManager.timeToLiveTimeUs < timeToLiveUpdateTimeUs) (h : t.marks usIncr n) : Station n := by
  obtain ⟨hnot, hmarked⟩ := h
  rcases masterUpdateTimeUs_fine hfine hclock with ⟨-, -, htable⟩ | ⟨-, -, -, htable⟩
  · exact absurd (htable ▸ hmarked) hnot
  · by_contra hn
    rw [htable n hn] at hmarked
    exact hnot hmarked

end Timers

theorem sent_of_reachable {cfg : MasterConfig} {frame : Packet} {t : Timers}
    (h : (transmissions cfg frame).ReachableWhen (fun _ a => a.TicksFinely) t) : t.Sent := by
  refine h.invariant ?_ fun _ _ _ hsent hfine hs => hsent.step hfine hs
  rintro t ⟨hreach, node, hget⟩
  exact ⟨MasterRun.clock_lt hreach, (nodeGetTxPacket_timeToLive hget).le⟩

theorem Timers.Sent.run {cfg : MasterConfig} {frame : Packet} {t t' : Timers} {as : List (TimersAction cfg.mode)}
    (h : t.Sent) (hmeets : (transmissions cfg frame).RunMeets (fun _ a => a.TicksFinely) t as)
    (hrun : (transmissions cfg frame).run t as = .ok t') : t'.Sent := by
  induction as generalizing t with
  | nil =>
      cases hrun
      exact h
  | cons a rest ih =>
      obtain ⟨t₁, hs, hrest⟩ := bind_eq_ok.mp hrun
      exact ih (h.step hmeets.1 hs) (hmeets.2 t₁ hs) hrest

/-- A node that sends a frame which the master hears, and nothing after it, has no time left when the master
marks it, whatever the increments of the ticks, the phase of the accumulator and the order within a tick. -/
theorem node_times_out_first {cfg : MasterConfig} {frame : Packet} {t heard t' : Timers} {a : MasterAction cfg.mode}
    {later : List (TimersAction cfg.mode)} {usIncr : UInt32}
    (h : (transmissions cfg frame).ReachableWhen (fun _ a => a.TicksFinely) t) (hhears : t.run.hears frame a)
    (hheard : (transmissions cfg frame).step t (.master a) = .ok heard)
    (hmeets : (transmissions cfg frame).RunMeets (fun _ a => a.TicksFinely) heard later)
    (hrun : (transmissions cfg frame).run heard later = .ok t') (hfine : FineIncrement usIncr)
    (hmarks : t'.marks usIncr frame.srcNodeId) (nodeFirst : Bool) : t'.timeToLiveAt usIncr nodeFirst ≤ 0 := by
  have hsent := sent_of_reachable h
  have hnot : ∀ usIncr, a ≠ .updateTimeUs usIncr := by
    rintro usIncr rfl
    exact hhears
  have hclock := ((hsent.step (show (TimersAction.master a).TicksFinely from hnot) hheard).run hmeets hrun).clock
  have hn := Timers.station_of_marks hfine hclock hmarks
  have hlags := (hsent.hears hn hhears hheard).run hn hmeets hrun
  have hnone : t'.node.timeToLive ≤ 0 := by
    by_contra hpos
    exact hlags.not_marks (not_le.mp hpos) hfine hn hmarks
  unfold Timers.timeToLiveAt
  split
  · exact (nodeNwUpdateTimeUs_of_nonpos hnone usIncr).le.trans hnone
  · exact hnone

/-- Coarse steps of the master's timer, but for the last one. -/
def coarseTicks : List (TimersAction .single) := List.replicate 127 (.tick 4358)

theorem coarseTicks_fine (frame : Packet) (t : Timers) :
    (transmissions singleConfig frame).RunMeets (fun _ a => a.TicksFinely) t coarseTicks := by
  refine System.runMeets_of_forall ?_ t
  intro a ha
  rw [List.eq_of_mem_replicate ha]
  exact ⟨by decide, by decide⟩

/-- The node sends a frame that the master hears, and the next tick is the one that marks it. -/
def heardAndMarked (s : MasterRun) (node : Node) : Bool :=
  (nodeGetTxPacket node).2.any fun frame =>
    frame.srcNodeId == 1 && decide (s.master.hears frame false) &&
      System.holdsAfter ((transmissions singleConfig frame).step ⟨s, (nodeGetTxPacket node).1⟩
        (.master (.processRx frame false))) fun heard =>
          System.holdsAfter ((transmissions singleConfig frame).run heard coarseTicks) fun t => decide (t.marks 4358 1)

/-- Node 7 joins, sends once and is marked 128 coarse steps later. -/
theorem node_times_out_first_joined : ∃ (frame : Packet) (heard t' : Timers), t'.marks 4358 frame.srcNodeId ∧
    (transmissions singleConfig frame).run heard coarseTicks = .ok t' ∧ t'.timeToLiveAt 4358 false ≤ 0 := by
  obtain ⟨s, hs, hcheck⟩ := System.exists_of_checkedRun (S := masterSystem singleConfig) (s := blankRun)
    (p := fun s => System.holdsAfter ((nodeSystem singleNodeConfig).run blankNode
      (List.replicate 20 .processTx ++ [.processRx responseFrame false]) >>= nodeProcessTx) (heardAndMarked s))
    [.processRx (joinFrame 7) false] (fun _ a h => of_decide_eq_true (p := a.TicksFinely) h)
    (.init blankRun_init_single) (by decide +kernel)
  obtain ⟨node, -, hcheck⟩ := System.exists_of_holdsAfter hcheck
  obtain ⟨frame, hframe, hcheck⟩ := System.exists_of_any hcheck
  obtain ⟨hhead, hcheck⟩ := Bool.and_eq_true_iff.mp hcheck
  obtain ⟨hsrc, hhears⟩ := Bool.and_eq_true_iff.mp hhead
  obtain ⟨heard, hheard, hcheck⟩ := System.exists_of_holdsAfter hcheck
  obtain ⟨t, hrun, hmarks⟩ := System.exists_of_holdsAfter hcheck
  have hsent : (transmissions singleConfig frame).ReachableWhen (fun _ a => a.TicksFinely)
      ⟨s, (nodeGetTxPacket node).1⟩ := .init ⟨hs, node, by rw [← hframe]⟩
  have hmarks' : t.marks 4358 frame.srcNodeId := by
    rw [beq_iff_eq.mp hsrc]
    exact of_decide_eq_true hmarks
  have hfine : FineIncrement 4358 := ⟨by decide, by decide⟩
  have hheard' : s.hears frame (.processRx frame false : MasterAction .single) := ⟨rfl, of_decide_eq_true hhears⟩
  exact ⟨frame, heard, t, hmarks', hrun, node_times_out_first hsent hheard' hheard (coarseTicks_fine frame heard)
    hrun hfine hmarks' false⟩

end Microbus
