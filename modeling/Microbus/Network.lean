import Microbus.CleanSlate

/-! The network part of the master: which nodes there are and what they announce. -/
namespace Microbus

open Transition

/-- The receive and transmit sides and the announced schedule may differ. -/
structure Master.SameNetwork (master master' : Master) : Prop where
  nwManager : master'.nwManager = master.nwManager
  scheduler : master'.scheduler = master.scheduler
  nodeTxNodes : master'.nodeTxNodes = master.nodeTxNodes
  masterNodeTimeToLive : master'.masterNodeTimeToLive = master.masterNodeTimeToLive

/-- The master that a slot comes to when it looks for nodes that timed out. -/
inductive MasterRun.Removes (s : MasterRun) : {mode : ChannelMode} → MasterAction mode → Master → Prop
  | postProcess {k m₁ m₂} : masterRx s.master = .ok (k, m₁) → masterTx m₁ = .ok m₂ →
      s.Removes .postProcess m₂
  | processTx {stray m₁ m₂} : masterTx s.master = .ok m₁ → masterUpdateSchedule m₁ = .ok m₂ →
      s.Removes (.processTx stray) (masterQuickTx m₂ stray)

/-- The master that a slot comes to when it works through the frame that was received. -/
inductive MasterRun.Processes (s : MasterRun) : {mode : ChannelMode} → MasterAction mode → Master → Prop
  | postProcess : s.Processes .postProcess s.master
  | processRx {frame crcError m₁ m₂} : masterUpdateSchedule (s.master.receive frame) = .ok m₁ →
      masterQuickRx m₁ crcError = .ok m₂ → s.Processes (.processRx frame crcError) m₂

/-- A property of the network part that everything but the removal and the timer keeps. -/
structure KeptBetweenTicks (P : Master → Prop) : Prop where
  same : ∀ {master master'}, P master → master.SameNetwork master' → P master'
  updateSchedule : ∀ {master master'}, P master → masterUpdateSchedule master = .ok master' → P master'
  quickRx : ∀ {master master' crcError}, P master → masterQuickRx master crcError = .ok master' → P master'
  rx : ∀ {master master' k}, P master → masterRx master = .ok (k, master') → P master'
  connected : ∀ {master}, P master →
    P { master with masterNodeTimeToLive := Function.update master.masterNodeTimeToLive 0 1 }

namespace KeptBetweenTicks

variable {P : Master → Prop}

theorem receive (hP : KeptBetweenTicks P) {master : Master} (h : P master) (frame : Packet) :
    P (master.receive frame) :=
  hP.same h ⟨rfl, rfl, rfl, rfl⟩

theorem tx (hP : KeptBetweenTicks P) {master master' : Master} (h : P master) (ht : masterTx master = .ok master') :
    P master' := by
  obtain ⟨tx, rfl, -⟩ := masterTx_ok ht
  exact hP.same h ⟨rfl, rfl, rfl, rfl⟩

theorem quickTx (hP : KeptBetweenTicks P) {master : Master} (h : P master) (stray : TNodeIndex → UInt8) :
    P (masterQuickTx master stray) := by
  obtain ⟨tx, heq, -⟩ := masterQuickTx_eq master stray
  rw [heq]
  exact hP.same h ⟨rfl, rfl, rfl, rfl⟩

theorem processes (hP : KeptBetweenTicks P) {mode : ChannelMode} {s : MasterRun} {a : MasterAction mode} {m : Master}
    (h : P s.master) (hr : s.Processes a m) : P m := by
  cases hr with
  | postProcess => exact h
  | processRx h₁ h₂ => exact hP.quickRx (hP.updateSchedule (hP.receive h _) h₁) h₂

theorem removes (hP : KeptBetweenTicks P) {mode : ChannelMode} {s : MasterRun} {a : MasterAction mode} {m : Master}
    (h : P s.master) (hr : s.Removes a m) : P m := by
  cases hr with
  | postProcess h₁ h₂ => exact hP.tx (hP.rx h h₁) h₂
  | processTx h₁ h₂ => exact hP.quickTx (hP.updateSchedule (hP.tx h h₁) h₂) _

theorem step (hP : KeptBetweenTicks P) {mode : ChannelMode} {s s' : MasterRun} {a : MasterAction mode} (h : P s.master)
    (htick : ∀ usIncr, a = .updateTimeUs usIncr → P (masterUpdateTimeUs s.master usIncr))
    (hremove : ∀ {m m' k}, s.Removes a m → P m → masterRemoveAnyTimeoutNodes m = .ok (k, m') → P m')
    (hs : s.step a = .ok s') : P s'.master := by
  cases a with
  | preProcess frame crcError stray =>
      obtain ⟨⟨m, f⟩, hpre, hs⟩ := bind_eq_ok.mp hs
      cases hs
      obtain ⟨m₁, m₂, h₁, h₂, rfl⟩ := preProcess_ok hpre
      exact hP.quickTx (hP.quickRx (hP.updateSchedule (hP.receive h frame) h₁) h₂) stray
  | postProcess =>
      obtain ⟨⟨k, m⟩, hpost, hs⟩ := bind_eq_ok.mp hs
      cases hs
      obtain ⟨m₁, m₂, k₁, k₂, h₁, h₂, h₃⟩ := postProcess_ok hpost
      have hr : s.Removes .postProcess m₂ := .postProcess h₁ h₂
      exact hremove hr (hP.removes h hr) h₃
  | processRx frame crcError =>
      obtain ⟨⟨k, m⟩, hrx, hs⟩ := bind_eq_ok.mp hs
      cases hs
      obtain ⟨m₁, m₂, h₁, h₂, h₃⟩ := processRx_ok hrx
      exact hP.rx (hP.quickRx (hP.updateSchedule (hP.receive h frame) h₁) h₂) h₃
  | processTx stray =>
      obtain ⟨⟨k, m, f⟩, htx, hs⟩ := bind_eq_ok.mp hs
      cases hs
      obtain ⟨m₁, m₂, h₁, h₂, h₃⟩ := processTx_ok htx
      have hr : s.Removes (.processTx stray) (masterQuickTx m₂ stray) := .processTx h₁ h₂
      exact hremove hr (hP.removes h hr) h₃
  | updateTimeUs usIncr =>
      cases hs
      exact htick usIncr rfl
  | allocate =>
      obtain ⟨⟨r, m⟩, halloc, hs⟩ := bind_eq_ok.mp hs
      cases hs
      obtain ⟨⟨r', tm⟩, -, halloc⟩ := bind_eq_ok.mp halloc
      cases halloc
      exact hP.same h ⟨rfl, rfl, rfl, rfl⟩
  | write data =>
      cases hs
      exact hP.same h ⟨rfl, rfl, rfl, rfl⟩
  | submit dst numBytes =>
      obtain ⟨m, hsubmit, hs⟩ := bind_eq_ok.mp hs
      obtain ⟨-, -, tm, -, rfl⟩ := masterSubmit_ok hsubmit
      split at hs
      · cases hs
        exact hP.same h ⟨rfl, rfl, rfl, rfl⟩
      · cases hs
        exact hP.same h ⟨rfl, rfl, rfl, rfl⟩
  | peek =>
      obtain ⟨⟨r, m⟩, hpeek, hs⟩ := bind_eq_ok.mp hs
      cases hs
      obtain ⟨rpm, rfl, -⟩ := masterPeek_ok hpeek
      exact hP.same h ⟨rfl, rfl, rfl, rfl⟩
  | pop =>
      obtain ⟨m, hpop, hs⟩ := bind_eq_ok.mp hs
      cases hs
      obtain ⟨rpm, rfl, -⟩ := masterPop_ok hpop
      exact hP.same h ⟨rfl, rfl, rfl, rfl⟩
  | getConnectedNodes =>
      obtain ⟨⟨m, bits⟩, hget, hs⟩ := bind_eq_ok.mp hs
      cases hs
      obtain rfl := getConnectedNodesBitField_ok hget
      exact hP.connected h
  | resetTxCredits =>
      cases hs
      exact hP.same h ⟨rfl, rfl, rfl, rfl⟩

end KeptBetweenTicks

/-- A property of the network part that everything but the removal keeps. -/
structure KeptByNetwork (P : Master → Prop) : Prop where
  same : ∀ {master master'}, P master → master.SameNetwork master' → P master'
  updateSchedule : ∀ {master master'}, P master → masterUpdateSchedule master = .ok master' → P master'
  quickRx : ∀ {master master' crcError}, P master → masterQuickRx master crcError = .ok master' → P master'
  rx : ∀ {master master' k}, P master → masterRx master = .ok (k, master') → P master'
  updateTimeUs : ∀ {master} usIncr, P master → P (masterUpdateTimeUs master usIncr)
  connected : ∀ {master}, P master →
    P { master with masterNodeTimeToLive := Function.update master.masterNodeTimeToLive 0 1 }

namespace KeptByNetwork

variable {P : Master → Prop}

theorem betweenTicks (hP : KeptByNetwork P) : KeptBetweenTicks P where
  same := hP.same
  updateSchedule := hP.updateSchedule
  quickRx := hP.quickRx
  rx := hP.rx
  connected := hP.connected

theorem step (hP : KeptByNetwork P) {mode : ChannelMode} {s s' : MasterRun} {a : MasterAction mode} (h : P s.master)
    (hremove : ∀ {m m' k}, s.Removes a m → P m → masterRemoveAnyTimeoutNodes m = .ok (k, m') → P m')
    (hs : s.step a = .ok s') : P s'.master :=
  hP.betweenTicks.step h (fun usIncr _ => hP.updateTimeUs usIncr h) hremove hs

/-- What a single removal keeps as well holds in every run. -/
theorem reachable (hP : KeptByNetwork P) {cfg : MasterConfig} {s : MasterRun}
    (hinit : ∀ {numTx maxTx maxRx : UInt8} {entries : Nat → PacketEntry} {master : Master},
      masterInit numTx maxTx entries maxRx = .ok master → P master)
    (hremove : ∀ {master master' d k}, Station d → P master → masterRemoveIfTimedOut master d =
      .ok (k, master') →
      P master')
    (h : (masterSystem cfg).Reachable s) : P s.master := by
  refine System.ReachableWhen.invariant (P := fun s => P s.master) h ?_ ?_
  · rintro s ⟨entries, hi, -, -⟩
    exact hinit hi
  · intro s a s' hp _ hs
    refine hP.step hp ?_ hs
    intro m m' k _ hp hr
    exact masterRemoveAnyTimeoutNodes_induction
      (fun d hfirst hlast _ _ _ hp hone => hremove ⟨hfirst, hlast⟩ hp hone)
      hp hr

end KeptByNetwork
end Microbus
