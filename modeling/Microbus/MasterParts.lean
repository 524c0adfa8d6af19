import Microbus.Bus

/-! A step of a master as a series of parts. -/
namespace Microbus

open Transition

/-- A property that every part of a slot, the timer and every call of the application keep. -/
structure KeptByParts (P : Master → Prop) : Prop where
  receive : ∀ {master}, P master → ∀ frame, P (master.receive frame)
  updateSchedule : ∀ {master master'}, P master → masterUpdateSchedule master = .ok master' → P master'
  quickRx : ∀ {master master' crcError}, P master → masterQuickRx master crcError = .ok master' → P master'
  rx : ∀ {master master' k}, P master → masterRx master = .ok (k, master') → P master'
  tx : ∀ {master master'}, P master → masterTx master = .ok master' → P master'
  quickTx : ∀ {master}, P master → ∀ stray, P (masterQuickTx master stray)
  removeIfTimedOut : ∀ {master master' d k}, Station d → P master →
    masterRemoveIfTimedOut master d = .ok (k, master') →
    P master'
  updateTimeUs : ∀ {master}, P master → ∀ usIncr, P (masterUpdateTimeUs master usIncr)
  call : ∀ {master master' call}, P master → Master.call master call = .ok master' → P master'

namespace KeptByParts

variable {P : Master → Prop}

theorem removeAny (hP : KeptByParts P) {master master' : Master} {k : Nat} (h : P master)
    (hr : masterRemoveAnyTimeoutNodes master = .ok (k, master')) : P master' :=
  masterRemoveAnyTimeoutNodes_induction
    (fun _ hfirst hlast _ _ _ hp hone => hP.removeIfTimedOut ⟨hfirst, hlast⟩ hp hone) h hr

theorem step (hP : KeptByParts P) {mode : ChannelMode} {s s' : MasterRun} {a : MasterAction mode} (h : P s.master)
    (hs : s.step a = .ok s') : P s'.master := by
  cases a with
  | preProcess frame crcError stray =>
      obtain ⟨⟨m, f⟩, hpre, hs⟩ := bind_eq_ok.mp hs
      cases hs
      obtain ⟨m₁, m₂, h₁, h₂, rfl⟩ := preProcess_ok hpre
      exact hP.quickTx (hP.quickRx (hP.updateSchedule (hP.receive h frame) h₁) h₂) stray
  | postProcess =>
      obtain ⟨⟨k, m⟩, hpost, hs⟩ := bind_eq_ok.mp hs
      cases hs
      obtain ⟨m₁, m₂, k₁, k₂, h₁, h₂, h₃⟩ := postProcess_ok hpost
      exact hP.removeAny (hP.tx (hP.rx h h₁) h₂) h₃
  | processRx frame crcError =>
      obtain ⟨⟨k, m⟩, hrx, hs⟩ := bind_eq_ok.mp hs
      cases hs
      obtain ⟨m₁, m₂, h₁, h₂, h₃⟩ := processRx_ok hrx
      exact hP.rx (hP.quickRx (hP.updateSchedule (hP.receive h frame) h₁) h₂) h₃
  | processTx stray =>
      obtain ⟨⟨k, m, f⟩, htx, hs⟩ := bind_eq_ok.mp hs
      cases hs
      obtain ⟨m₁, m₂, h₁, h₂, h₃⟩ := processTx_ok htx
      exact hP.removeAny (hP.quickTx (hP.updateSchedule (hP.tx h h₁) h₂) stray) h₃
  | updateTimeUs usIncr =>
      cases hs
      exact hP.updateTimeUs h usIncr
  | allocate =>
      obtain ⟨⟨r, m⟩, halloc, hs⟩ := bind_eq_ok.mp hs
      cases hs
      exact hP.call h (show s.master.call .allocate = _ from bind_eq_ok.mpr ⟨(r, m), halloc, rfl⟩)
  | write data =>
      cases hs
      exact hP.call h (show s.master.call (.write data) = .ok _ from rfl)
  | submit dst numBytes =>
      obtain ⟨m, hsubmit, hs⟩ := bind_eq_ok.mp hs
      have hm : P m := hP.call h (show s.master.call (.submit dst numBytes) = _ from hsubmit)
      split at hs
      · cases hs
        exact hm
      · cases hs
        exact hm
  | peek =>
      obtain ⟨⟨r, m⟩, hpeek, hs⟩ := bind_eq_ok.mp hs
      cases hs
      exact hP.call h (show s.master.call .peek = _ from bind_eq_ok.mpr ⟨(r, m), hpeek, rfl⟩)
  | pop =>
      obtain ⟨m, hpop, hs⟩ := bind_eq_ok.mp hs
      cases hs
      exact hP.call h (show s.master.call .pop = _ from hpop)
  | getConnectedNodes =>
      obtain ⟨⟨m, bits⟩, hget, hs⟩ := bind_eq_ok.mp hs
      cases hs
      exact hP.call h (show s.master.call .getConnectedNodes = _ from bind_eq_ok.mpr ⟨(m, bits), hget, rfl⟩)
  | resetTxCredits =>
      cases hs
      exact hP.call h (show s.master.call .resetTxCredits = .ok _ from rfl)

end KeptByParts

end Microbus
