import Microbus.ReceptionNode
import Microbus.Turn

/-! The memory of a frame while the frame is on the wire. -/
namespace Microbus

open Transition

/-- A device and the memory of the frame that it handed out in its last pre-process, `none` if there was no frame. -/
structure OnWire (σ : Type) where
  device : σ
  wire : Option TxRef
  last : Option SlotPart

/-- What an action shows of the transmit path: the part of the slot it runs, the memory of the frame it hands out, the
states that a post-process passes through and the entry that the application is given. -/
structure Emitter (σ α : Type) where
  part : α → Option SlotPart
  sent : σ → α → σ → Option TxRef
  passes : σ → α → σ → Prop
  allocated : σ → α → Option Nat
  nextTxPacket : σ → Option TxRef
  txManager : σ → TxManager
  deref : σ → TxRef → Packet

namespace Emitter

variable {σ α : Type} (E : Emitter σ α)

def system (S : System σ α Fault) : System (OnWire σ) α Fault where
  init s := S.init s.device ∧ s.wire = none ∧ s.last = none
  step s a := do
    let device ← S.step s.device a
    return ⟨device, if E.part a = some .pre then E.sent s.device a device else s.wire, (E.part a).or s.last⟩

def guard (s : OnWire σ) (a : α) : Prop := Alternates s.last (E.part a)

/-- The post-process leaves the bytes on the wire as they are, and the application is not given their entry. -/
def FrameIsStable (s : OnWire σ) (a : α) : Prop :=
  ∀ r, s.wire = some r → (∀ d, E.passes s.device a d → E.deref d r = E.deref s.device r) ∧
    ∀ i, E.allocated s.device a = some i → r ≠ .entry i

/-- The data packet that is to be sent next has not been given back. -/
def NextInUse (d : σ) : Prop := ∀ i, E.nextTxPacket d = some (.entry i) → ((E.txManager d).entry i).inUse = true

/-- The frames on the wire are left alone in every step of the run, and the packet to be sent next is in use in every
state. -/
def KeepsFrames (S : System σ α Fault) (s : OnWire σ) (as : List α) (s' : OnWire σ) : Prop :=
  (E.system S).RunMeets E.FrameIsStable s as ∧ (E.system S).RunKeeps (fun t => E.NextInUse t.device) s as s'

/-- A run whose slots alternate keeps its frames exactly when every step meets the condition. -/
def StableWhen (S : System σ α Fault) (condition : OnWire σ → α → Prop) : Prop :=
  ∀ {s as s'}, (E.system S).init s → (E.system S).RunMeets E.guard s as → (E.system S).run s as = .ok s' →
    (E.KeepsFrames S s as s' ↔ (E.system S).RunMeets condition s as)

variable {E} {S : System σ α Fault} {s s' : OnWire σ} {a : α}

theorem step_ok (h : (E.system S).step s a = .ok s') : S.step s.device a = .ok s'.device ∧
    s'.wire = (if E.part a = some .pre then E.sent s.device a s'.device else s.wire) ∧
    s'.last = (E.part a).or s.last := by
  obtain ⟨device, hs, h⟩ := bind_eq_ok.mp h
  cases h
  exact ⟨hs, rfl, rfl⟩

/-- It suffices that, under an invariant, a step leaves the frame on the wire alone exactly when it spares it, and keeps
the packet to be sent next exactly when it keeps the invariant. -/
theorem stableWhen {I : OnWire σ → Prop} {keepsNext spares : OnWire σ → α → Prop}
    (hinit : ∀ s, (E.system S).init s → I s) (hnext : ∀ s, I s → E.NextInUse s.device)
    (hkeep : ∀ s a s', I s → keepsNext s a → (E.system S).step s a = .ok s' → I s')
    (hbreak : ∀ s a s', I s → ¬ keepsNext s a → (E.system S).step s a = .ok s' → ¬ E.NextInUse s'.device)
    (hframe : ∀ s a s', I s → E.guard s a → (E.system S).step s a = .ok s' →
      (E.FrameIsStable s a ↔ spares s a)) :
    E.StableWhen S fun s a => keepsNext s a ∧ spares s a := by
  intro s as s' hs hguard hrun
  have hkeeps := System.runKeeps_iff_runMeets (P := fun t => E.NextInUse t.device) hnext hkeep hbreak (hinit s hs) hrun
  unfold KeepsFrames
  rw [hkeeps, System.runMeets_and, and_comm]
  refine and_congr_right fun hmeets => ?_
  have hall : (E.system S).RunMeets (fun t a => (E.guard t a ∧ Completes ((E.system S).step t a)) ∧
    keepsNext t a) s as :=
    System.runMeets_and.mpr ⟨System.runMeets_and.mpr ⟨hguard, System.runMeets_completes hrun⟩, hmeets⟩
  refine System.runMeets_congr ?_ ?_ (hinit s hs) hall
  · rintro t a ht ⟨⟨hg, t', hstep⟩, -⟩
    exact hframe t a t' ht hg hstep
  · rintro t a t' ht ⟨-, hk⟩ hstep
    exact hkeep t a t' ht hk hstep

theorem frameIsStable_of_idle (hpasses : ∀ d, ¬ E.passes s.device a d) (hallocated : E.allocated s.device a = none) :
    E.FrameIsStable s a := by
  intro r _
  refine ⟨fun d hd => absurd hd (hpasses d), fun i hi => ?_⟩
  rw [hallocated] at hi
  cases hi

end Emitter

/-- The entry that an allocation takes: the first free one, unless the destinations fill their queue. -/
structure TxManager.Offers (m : TxManager) (i : Nat) : Prop where
  firstFree : m.FirstFree i
  room : ∀ q, m.activeTxNodes = some q → q.numNodes < maxNodes
  notPending : m.allocatedPacket = none

theorem allocateTxPacket_some_iff {m : TxManager} {i : Nat} :
    (∃ m', allocateTxPacket m = .ok (some i, m')) ↔ m.Offers i := by
  constructor
  · rintro ⟨m', h⟩
    rcases allocateTxPacket_ok h with ⟨hc, -⟩ | ⟨j, hfree, hnone, ⟨hc, -⟩ | ⟨hj, -⟩⟩
    · cases hc
    · cases hc
    · cases hj
      refine ⟨hfree, fun q hq => ?_, hnone⟩
      by_contra hfull
      unfold allocateTxPacket at h
      split at h
      · cases h
      · dsimp only at h
        rw [if_neg (by rw [hnone]; decide), if_pos (by rw [hq]; simpa using hfull)] at h
        cases h
  · rintro ⟨hfree, hroom, hnone⟩
    exact ⟨_, allocateTxPacket_of_firstFree hfree hnone hroom⟩

end Microbus
