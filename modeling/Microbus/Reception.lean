import Microbus.RxStore

/-! What a device accepts is what it queues. -/
namespace Microbus

open Transition

inductive SlotPart
  | pre | post
  deriving DecidableEq, Repr

/-- The two parts of a slot are run in turn. -/
def Alternates (last part : Option SlotPart) : Prop := ∀ p, part = some p → last ≠ some p

instance (last part : Option SlotPart) : Decidable (Alternates last part) :=
  match part with
  | none => isTrue fun _ hp => by cases hp
  | some p =>
      if h : last = some p then isFalse fun hc => hc p rfl h
      else isTrue fun q hq => by cases hq; exact h

/-- What an action shows of the receive path: the part of the slot it runs, the frames whose sequence
number it accepts, the frames it appends to the queue, and whether it starts the device anew. -/
structure Receiver (σ α : Type) where
  part : α → Option SlotPart
  accepted : σ → α → σ → List Packet
  queued : σ → α → σ → List Packet
  resets : σ → α → Bool

/-- A device with the frames that it accepted and queued since it was started. -/
structure Reception (σ : Type) where
  device : σ
  last : Option SlotPart
  accepted : List Packet
  queued : List Packet

namespace Receiver

variable {σ α : Type} (R : Receiver σ α)

def system (S : System σ α Fault) : System (Reception σ) α Fault where
  init r := S.init r.device ∧ r.last = none ∧ r.accepted = [] ∧ r.queued = []
  step r a := do
    let device ← S.step r.device a
    let last := (R.part a).or r.last
    if R.resets r.device a then
      return { device, last, accepted := [], queued := [] }
    return {
      device, last
      accepted := r.accepted ++ R.accepted r.device a device
      queued := r.queued ++ R.queued r.device a device }

/-- The parts of the slots are run in turn. -/
def guard (r : Reception σ) (a : α) : Prop := Alternates r.last (R.part a)

variable {R} {S : System σ α Fault} {r r' : Reception σ} {a : α}

theorem guard_of_check (r : Reception σ) (a : α) (h : decide (Alternates r.last (R.part a)) = true) :
    R.guard r a := by
  unfold guard
  exact of_decide_eq_true h

theorem step_ok (h : (R.system S).step r a = .ok r') :
    S.step r.device a = .ok r'.device ∧ r'.last = (R.part a).or r.last ∧
      ((R.resets r.device a = true ∧ r'.accepted = [] ∧ r'.queued = []) ∨
        (R.resets r.device a = false ∧ r'.accepted = r.accepted ++ R.accepted r.device a r'.device ∧
          r'.queued = r.queued ++ R.queued r.device a r'.device)) := by
  obtain ⟨device, hs, h⟩ := bind_eq_ok.mp h
  dsimp only at h
  split at h
  · rename_i hreset
    cases h
    exact ⟨hs, rfl, Or.inl ⟨hreset, rfl, rfl⟩⟩
  · rename_i hreset
    cases h
    exact ⟨hs, rfl, Or.inr ⟨Bool.not_eq_true _ ▸ hreset, rfl, rfl⟩⟩

/-- If each step moves the frames that wait from the accepted to the queued ones, then so does each
run. -/
theorem accepted_eq (Inv : σ → Option SlotPart → Prop) (waiting : σ → Option SlotPart → List Packet)
    (h : (R.system S).ReachableWhen R.guard r)
    (hinit : ∀ s, S.init s → Inv s none ∧ waiting s none = [])
    (hstep : ∀ s last a s', Inv s last → Alternates last (R.part a) → S.step s a = .ok s' →
      Inv s' ((R.part a).or last) ∧ (R.resets s a = true → waiting s' ((R.part a).or last) = []) ∧
        (R.resets s a = false → waiting s last ++ R.accepted s a s' =
          R.queued s a s' ++ waiting s' ((R.part a).or last))) :
    Inv r.device r.last ∧ r.accepted = r.queued ++ waiting r.device r.last := by
  refine System.ReachableWhen.invariant h
    (P := fun r => Inv r.device r.last ∧ r.accepted = r.queued ++ waiting r.device r.last) ?_ ?_
  · rintro r ⟨hr, hlast, haccepted, hqueued⟩
    obtain ⟨hinv, hwaiting⟩ := hinit _ hr
    rw [hlast, haccepted, hqueued, hwaiting]
    exact ⟨hinv, rfl⟩
  · rintro r a r' ⟨hinv, hlog⟩ hguard hs
    obtain ⟨hs, hlast, hcase⟩ := step_ok hs
    obtain ⟨hinv', hreset, hkeep⟩ := hstep _ _ _ _ hinv hguard hs
    rw [hlast]
    refine ⟨hinv', ?_⟩
    rcases hcase with ⟨hresets, haccepted, hqueued⟩ | ⟨hresets, haccepted, hqueued⟩
    · rw [haccepted, hqueued, hreset hresets]
      rfl
    · rw [haccepted, hqueued, hlog, List.append_assoc, List.append_assoc, hkeep hresets]

end Receiver

def RxPacketManager.appended (rpm rpm' : RxPacketManager) : List Packet :=
  (rpm'.ring.drop rpm.ring.length).reduceOption.map fun i => (rpm'.rxPacketEntries i).packet

theorem RxPacketManager.appended_of_ring {rpm rpm' : RxPacketManager} (h : rpm'.ring = rpm.ring) :
    rpm.appended rpm' = [] := by
  unfold appended
  rw [h, List.drop_length]
  rfl

theorem RxPacketManager.appended_add {rpm rpm' : RxPacketManager} {e : Nat} (h : rpm'.ring = rpm.ring ++ [some e]) :
    rpm.appended rpm' = [(rpm'.rxPacketEntries e).packet] := by
  unfold appended
  rw [h, List.drop_left]
  rfl

theorem findFreeRxPacket_receive_isSome (rpm : RxPacketManager) (i : Nat) (p : Packet) :
    (findFreeRxPacket (rpm.receive i p)).isSome = (findFreeRxPacket rpm).isSome := by
  have hback : (rpm.receive i p).receive i (rpm.rxPacketEntries i).packet = rpm := by
    unfold RxPacketManager.receive
    simp
  cases hfree : (findFreeRxPacket rpm).isSome with
  | true => exact RxPacketManager.findFreeRxPacket_receive i p hfree
  | false =>
      cases hreceived : (findFreeRxPacket (rpm.receive i p)).isSome with
      | false => rfl
      | true =>
          have hsome := RxPacketManager.findFreeRxPacket_receive i (rpm.rxPacketEntries i).packet hreceived
          rw [hback, hfree] at hsome
          cases hsome

theorem incrSequenceNum_ne (q : UInt8) : incrSequenceNum q ≠ q := by
  intro h
  unfold incrSequenceNum at h
  dsimp only at h
  split at h
  · rename_i hwrap
    rw [← h] at hwrap
    exact absurd hwrap (by decide)
  · have hone : q + 1 - q = q - q := congrArg (· - q) h
    rw [UInt8.sub_self, UInt8.add_comm, UInt8.add_sub_cancel] at hone
    exact absurd hone (by decide)

theorem expectedSeqNum_ne (q : UInt8) : expectedSeqNum q ≠ q := by
  intro h
  unfold expectedSeqNum at h
  split at h
  · rename_i hnull
    rw [hnull] at h
    exact absurd h (by decide)
  · exact incrSequenceNum_ne q h

end Microbus
