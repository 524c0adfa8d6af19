import Microbus.TxRun

/-! How many packets of one destination are under way. -/
namespace Microbus

open Transition

def TxManager.numInFlight (m : TxManager) (d : TNodeIndex) : Nat := cyclicLength (m.txSeqNumStart d) (m.txSeqNumNext d)

def TxRun.WindowBounded (s : TxRun) : Prop := ∀ d, s.manager.numInFlight d ≤ slidingWindowSize.toNat

/-- The end of the window is a number that no packet has, and all packets before it are under way. -/
def TxManager.MissesEnd (m : TxManager) (d : TNodeIndex) : Prop :=
  m.txSeqNumStart d + slidingWindowSize = nullSequenceNum ∧ m.numInFlight d = slidingWindowSize.toNat

/-- It is not the turn of such a destination. -/
def TxRun.StopsAtEnd (isMaster : Bool) (s : TxRun) : TxAction → Prop
  | .transmit burstSize => ∀ d, s.manager.turn isMaster burstSize = some d → ¬ s.manager.MissesEnd d
  | _ => True

/-- From 252 on the sum that gives the end of the window skips no number, as the sequence does. -/
def Ledger.Windowed (g : Ledger) : Prop :=
  ∀ d, g.next d ≤ g.start d + 4 ∧ (252 ≤ g.start d % 255 → g.next d ≤ g.start d + 3)

namespace Ledger.Windowed

variable {g : Ledger} {d : TNodeIndex} {k : Nat}

theorem zero : Ledger.zero.Windowed := fun _ => ⟨Nat.zero_le _, fun _ => Nat.zero_le _⟩

theorem rewind (h : g.Windowed) (d : TNodeIndex) : (g.rewind d).Windowed := by
  intro x
  have hx := h x
  unfold Ledger.rewind
  dsimp only
  by_cases hd : x = d
  · subst hd
    rw [Function.update_self]
    omega
  · rw [Function.update_of_ne hd]
    exact hx

theorem acknowledge (h : g.Windowed) (hs : g.start d ≤ k) : (g.acknowledge d (k + 1)).Windowed := by
  intro x
  have hx := h x
  unfold Ledger.acknowledge
  dsimp only
  by_cases hd : x = d
  · subst hd
    rw [Function.update_self, Function.update_self]
    omega
  · rw [Function.update_of_ne hd, Function.update_of_ne hd]
    exact hx

theorem advance (h : g.Windowed) (hnext : g.next d + 1 ≤ g.start d + 4)
    (hwrap : 252 ≤ g.start d % 255 → g.next d + 1 ≤ g.start d + 3) : (g.advance d).Windowed := by
  intro x
  have hx := h x
  unfold Ledger.advance
  dsimp only
  by_cases hd : x = d
  · subst hd
    rw [Function.update_self]
    exact ⟨hnext, hwrap⟩
  · rw [Function.update_of_ne hd]
    exact hx

end Ledger.Windowed

section Window

variable {m : TxManager} {g : Ledger} {d : TNodeIndex}

theorem CountersAt.numInFlight_eq (c : CountersAt m g d) : m.numInFlight d = (g.next d - g.start d) % 255 := by
  unfold TxManager.numInFlight
  rw [c.start_eq, c.next_eq, cyclicLength_seq c.start_le_next]

theorem seq_add_slidingWindowSize (n : Nat) : (seq n + slidingWindowSize).toNat = (n % 255 + 4) % 256 := by
  rw [UInt8.toNat_add, seq_toNat]
  rfl

theorem CountersAt.missesEnd_iff (c : CountersAt m g d) (hw : g.Windowed) :
    m.MissesEnd d ↔ g.start d % 255 = 251 ∧ g.next d = g.start d + 4 := by
  have hnext := (hw d).1
  have hle := c.start_le_next
  have hsize : slidingWindowSize.toNat = 4 := rfl
  have hnull : nullSequenceNum.toNat = 255 := rfl
  unfold TxManager.MissesEnd
  rw [c.numInFlight_eq, hsize, ← UInt8.toNat_inj, c.start_eq, seq_add_slidingWindowSize, hnull]
  omega

/-- A destination that may send has not come to the end of its window, unless it misses it. -/
theorem CountersAt.windowed_advance (c : CountersAt m g d) (hw : g.Windowed) (hmay : m.MaySend d)
    (hmiss : ¬ m.MissesEnd d) :
    (g.advance d).Windowed := by
  obtain ⟨hnext, hwrap⟩ := hw d
  have hend : ¬ m.txSeqNumNext d = m.txSeqNumStart d + slidingWindowSize := fun hc => hmay.2 (Or.inr hc)
  rw [c.missesEnd_iff hw] at hmiss
  rw [← UInt8.toNat_inj, c.start_eq, c.next_eq, seq_add_slidingWindowSize, seq_toNat] at hend
  have hle := c.start_le_next
  have hmod : g.start d % 255 < 255 := Nat.mod_lt _ (by decide)
  refine hw.advance ?_ ?_
  · omega
  · omega

end Window

namespace TxRun.Counted

variable {isMaster : Bool} {s s' : TxRun} {g : Ledger} {a : TxAction}

theorem windowBounded (h : s.Counted g) (hw : g.Windowed) : s.WindowBounded := by
  intro d
  have hnext := (hw d).1
  have hsize : slidingWindowSize.toNat = 4 := rfl
  rw [(h.counters.at d).numInFlight_eq, hsize]
  omega

theorem windowed_step (h : s.Counted g) (hw : g.Windowed) (ha : s.StopsAtEnd isMaster a)
    (hs : s.step isMaster a = .ok s') :
    ∃ g', s'.Counted g' ∧ g'.Windowed := by
  cases a with
  | allocate =>
      obtain ⟨⟨r, m⟩, halloc, hs⟩ := bind_eq_ok.mp hs
      cases hs
      exact ⟨g, h.allocate halloc, hw⟩
  | write data =>
      cases hs
      exact ⟨g, h.write data, hw⟩
  | submit ttl src dst type size =>
      obtain ⟨g', h', hstart, hnext⟩ := h.submit hs
      refine ⟨g', h', fun d => ?_⟩
      rw [hstart, hnext]
      exact hw d
  | transmit burstSize =>
      obtain ⟨m, hm, rfl⟩ := TxRun.transmit_ok hs
      refine ⟨_, h.transmit hm fun d hd => s.manager.maySend_of_turn hd, ?_⟩
      cases hturn : s.manager.turn isMaster burstSize with
      | none => exact hw
      | some d => exact (h.counters.at d).windowed_advance hw (s.manager.maySend_of_turn hturn) (ha d hturn)
  | ack src a =>
      obtain ⟨⟨n, m⟩, hack, hs⟩ := bind_eq_ok.mp hs
      cases hs
      obtain ⟨g', h', rfl | rfl | ⟨k, hk, -, rfl⟩⟩ := h.ack hack
      · exact ⟨g', h', hw⟩
      · exact ⟨_, h', hw.rewind src⟩
      · exact ⟨_, h', hw.acknowledge hk⟩

theorem not_windowBounded (h : s.Counted g) (hw : g.Windowed) (ha : ¬ s.StopsAtEnd isMaster a)
    (hs : s.step isMaster a = .ok s') : ¬ s'.WindowBounded := by
  cases a with
  | transmit burstSize =>
      obtain ⟨m, hm, rfl⟩ := TxRun.transmit_ok hs
      have h' := h.transmit hm fun d hd => s.manager.maySend_of_turn hd
      unfold StopsAtEnd at ha
      push Not at ha
      obtain ⟨d, hturn, hmiss⟩ := ha
      obtain ⟨-, hnext⟩ := ((h.counters.at d).missesEnd_iff hw).mp hmiss
      rw [hturn] at h'
      intro hbound
      have hd := hbound d
      have hflight : m.numInFlight d = ((g.advance d).next d - (g.advance d).start d) % 255 :=
        (h'.counters.at d).numInFlight_eq
      have hself : (g.advance d).next d = g.next d + 1 := Function.update_self _ _ _
      have hstart : (g.advance d).start d = g.start d := rfl
      have hsize : slidingWindowSize.toNat = 4 := rfl
      rw [hsize] at hd
      change m.numInFlight d ≤ 4 at hd
      omega
  | allocate => exact absurd trivial ha
  | write data => exact absurd trivial ha
  | submit ttl src dst type size => exact absurd trivial ha
  | ack src a => exact absurd trivial ha

end TxRun.Counted

/-- At most `SLIDING_WINDOW_SIZE` packets of a destination are under way all through a run exactly when no step of it
sends for a destination whose window would end at a number that is skipped, with all packets before it under way. -/
theorem window_is_bounded_iff {isMaster : Bool} {maxPacketEntries : UInt8} {s s' : TxRun} {as : List TxAction}
    (h : (txSystem isMaster maxPacketEntries).init s) (hr : (txSystem isMaster maxPacketEntries).run s as = .ok s') :
    (txSystem isMaster maxPacketEntries).RunKeeps TxRun.WindowBounded s as s' ↔
      (txSystem isMaster maxPacketEntries).RunMeets (TxRun.StopsAtEnd isMaster) s as := by
  obtain ⟨packetEntries, rfl⟩ := h
  refine System.runKeeps_iff_runMeets (I := fun s => ∃ g, TxRun.Counted s g ∧ g.Windowed) ?_ ?_ ?_
    ⟨_, .start isMaster maxPacketEntries packetEntries, .zero⟩ hr
  · rintro s ⟨g, hg, hw⟩
    exact hg.windowBounded hw
  · rintro s a s' ⟨g, hg, hw⟩ ha hs
    exact hg.windowed_step hw ha hs
  · rintro s a s' ⟨g, hg, hw⟩ ha hs
    exact hg.not_windowBounded hw ha hs

/-- A test that `StopsAtEnd` passes. -/
def TxRun.stopsAtEndTest (isMaster : Bool) (s : TxRun) : TxAction → Bool
  | .transmit burstSize => (s.manager.turn isMaster burstSize).all fun d =>
      s.manager.txSeqNumStart d + slidingWindowSize != nullSequenceNum
  | _ => true

theorem TxRun.stopsAtEnd_of_test {isMaster : Bool} {s : TxRun} {a : TxAction}
    (h : s.stopsAtEndTest isMaster a = true) : s.StopsAtEnd isMaster a := by
  cases a with
  | transmit burstSize =>
      rintro d hturn ⟨hend, -⟩
      change (s.manager.turn isMaster burstSize).all _ = true at h
      rw [hturn, Option.all_some, hend, bne_self_eq_false] at h
      cases h
  | _ => exact trivial

/-- Eight packets wait. Four are sent and the fifth call finds the end of the window; after an acknowledgement
of the first two it is two more, and the end again. -/
def upToWindowEnd : List TxAction :=
  (List.replicate 8 [TxAction.allocate, .submit 1 0 1 .masterData 4]).flatten ++ List.replicate 5 (.transmit 1) ++
    [.ack 1 1] ++ List.replicate 3 (.transmit 1)

/-- The bound is reached in this run and never passed. -/
theorem window_is_bounded_iff_full :
    ∃ s', (txSystem true 8).run (.start true 8 fun _ => ⟨false, Packet.zero⟩) upToWindowEnd = .ok s' ∧
      s'.manager.numInFlight 1 = 4 ∧ (s'.unacked 1).length = 6 ∧
      (txSystem true 8).RunKeeps TxRun.WindowBounded
        (.start true 8 fun _ => ⟨false, Packet.zero⟩) upToWindowEnd s' := by
  obtain ⟨s', hchecked, hend⟩ := System.exists_of_any
    (x := (txSystem true 8).checkedRun (TxRun.stopsAtEndTest true)
      (.start true 8 fun _ => ⟨false, Packet.zero⟩) upToWindowEnd)
    (p := fun s => decide (s.manager.numInFlight 1 = 4 ∧ (s.unacked 1).length = 6)) (by decide +kernel)
  obtain ⟨hrun, hmeets⟩ := System.run_of_checkedRun (fun _ _ => TxRun.stopsAtEnd_of_test) hchecked
  obtain ⟨hflight, hunacked⟩ := of_decide_eq_true hend
  exact ⟨s', hrun, hflight, hunacked, (window_is_bounded_iff ⟨_, rfl⟩ hrun).mpr hmeets⟩

def fiveAtOnce : List TxAction :=
  (List.range 251).flatMap sendAndAck ++
    (List.replicate 5 [TxAction.allocate, .submit 0 1 masterNodeId .nodeData 1]).flatten ++
      List.replicate 5 (.transmit 1)

theorem window_misses_end : ∃ s, (txSystem false 8).Reachable s ∧ ¬ s.WindowBounded := by
  obtain ⟨s, hrun, hflight⟩ := System.exists_of_holdsAfter
    (x := (txSystem false 8).run (.start false 8 fun _ => ⟨false, Packet.zero⟩) fiveAtOnce)
    (p := fun s => s.manager.numInFlight masterNodeId == 5) (by decide +kernel)
  refine ⟨s, System.Reachable.run (.init ⟨_, rfl⟩) hrun, fun hbound => ?_⟩
  have hle := hbound masterNodeId
  rw [eq_of_beq hflight] at hle
  exact absurd hle (by decide)

end Microbus
