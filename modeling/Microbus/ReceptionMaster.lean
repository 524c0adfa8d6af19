import Microbus.Reception
import Microbus.Network

/-! What the master accepts is what it queues, and who holds its buffers. -/
namespace Microbus

open Transition

namespace MasterAction

def part {mode : ChannelMode} : MasterAction mode → Option SlotPart
  | .preProcess .. => some .pre
  | .postProcess => some .post
  | _ => none

def received {mode : ChannelMode} : MasterAction mode → Option (Packet × Bool)
  | .preProcess frame crcError _ => some (frame, crcError)
  | .processRx frame crcError => some (frame, crcError)
  | _ => none

theorem part_single {mode : ChannelMode} (h : mode = .single) (a : MasterAction mode) : a.part = none := by
  subst h
  cases a <;> rfl

end MasterAction

/-- The frame whose source moved to another sequence number. -/
def masterAccepted {mode : ChannelMode} (s : MasterRun) (a : MasterAction mode) (s' : MasterRun) : List Packet :=
  match a.received with
  | some (frame, _) =>
      if s'.master.tx.txManager.rxSeqNum frame.srcNodeId ≠ s.master.tx.txManager.rxSeqNum frame.srcNodeId then [frame]
      else []
  | none => []

def masterQueued {mode : ChannelMode} (s : MasterRun) (a : MasterAction mode) (s' : MasterRun) : List Packet :=
  match a with
  | .postProcess =>
      match masterRx s.master with
      | .ok (_, master) => s.master.rx.rxPacketManager.appended master.rx.rxPacketManager
      | .error _ => []
  | .processRx .. => s.master.rx.rxPacketManager.appended s'.master.rx.rxPacketManager
  | _ => []

def masterReceiver (mode : ChannelMode) : Receiver MasterRun (MasterAction mode) where
  part := MasterAction.part
  accepted := masterAccepted
  queued := masterQueued
  resets := fun _ _ => false

def Master.waiting (master : Master) : Option Nat :=
  if master.rx.validRxPacket then master.rx.prevRxPacketEntry else none

/-- The data frame in order that waits for its post-process. -/
def Master.waitingFrames (master : Master) : List Packet :=
  (master.waiting.toList.map master.rx.packetAt).filter fun p =>
    master.rx.validRxSeqNum && p.getPacketType == some .nodeData

/-- The buffers of the master: a frame waits between the two parts of a slot only, and then the ring
has room for it. -/
structure MasterHolds (master : Master) (last : Option SlotPart) : Prop where
  store : RxInv master.rx.rxPacketManager master.rx.nextRxPacketEntry master.waiting
  between : last ≠ some .pre → master.rx.validRxPacket = false
  room : master.rx.validRxPacket = true → ¬ master.rx.rxPacketManager.isFull

/-- A data frame from a node with the number that is expected, for which there is a free buffer. -/
def Master.takes (master : Master) (frame : Packet) (crcError : Bool) : Prop :=
  masterAcceptsFrame frame crcError ∧ frame.getPacketType = some .nodeData ∧
    frame.txSeqNum = expectedSeqNum (master.tx.txManager.rxSeqNum frame.srcNodeId) ∧
    (findFreeRxPacket master.rx.rxPacketManager).isSome = true

instance Master.takes.decidable (master : Master) (frame : Packet) (crcError : Bool) :
    Decidable (master.takes frame crcError) := by
  unfold Master.takes; infer_instance

def Master.taken (master : Master) {mode : ChannelMode} (a : MasterAction mode) : List Packet :=
  match a.received with
  | some (frame, crcError) => if master.takes frame crcError then [frame] else []
  | none => []

section MasterParts

variable {master master' : Master}

theorem Master.waitingFrames_of_invalid (h : master.rx.validRxPacket = false) : master.waitingFrames = [] := by
  unfold waitingFrames waiting
  rw [h]
  rfl

/-- The quick part takes the frame that arrived last, or leaves the sequence numbers alone. -/
theorem masterQuickRx_takes {crcError : Bool} {frame : Packet}
    (hstore : RxInv master.rx.rxPacketManager master.rx.nextRxPacketEntry none)
    (hframe : master.rx.packetAt master.rx.nextRxPacketEntry = frame)
    (h : masterQuickRx master crcError = .ok master') :
    RxInv master'.rx.rxPacketManager master'.rx.nextRxPacketEntry master'.waiting ∧
      (master'.rx.validRxPacket = true → ¬ master'.rx.rxPacketManager.isFull) ∧
      master'.rx.rxPacketManager.ring = master.rx.rxPacketManager.ring ∧
      ((master.takes frame crcError ∧ master'.waitingFrames = [frame] ∧ master'.tx.txManager.rxSeqNum =
          Function.update master.tx.txManager.rxSeqNum frame.srcNodeId frame.txSeqNum) ∨
        (¬ master.takes frame crcError ∧ master'.waitingFrames = [] ∧
          master'.tx.txManager.rxSeqNum = master.tx.txManager.rxSeqNum)) := by
  obtain ⟨rx, nw, ttl, m, rfl, -, -, hresult⟩ := masterQuickRx_ok h
  rw [hframe] at hresult
  cases hresult with
  | dropped hnone =>
      refine ⟨hstore, fun hc => (by cases hc), rfl, Or.inr ⟨?_, rfl, rfl⟩⟩
      rintro ⟨haccept, -, -, hsome⟩
      rw [hnone haccept] at hsome
      cases hsome
  | kept haccept hfind hseq =>
      rename_i free rpm valid
      obtain ⟨hfull, rfl⟩ := RxPacketManager.findFreeRxPacket_some hfind
      refine ⟨hstore.take hfind, fun _ => hfull, rfl, Or.inr ⟨?_, ?_, rfl⟩⟩
      · rintro ⟨-, hdata, hexpected, -⟩
        exact (hseq hdata).2 hexpected
      · apply List.filter_eq_nil_iff.mpr
        intro p hp
        obtain rfl : p = frame := by
          rw [List.mem_singleton.mp hp, ← hframe]
          exact packetAt_findFree hfind _
        intro hc
        rw [Bool.and_eq_true, beq_iff_eq] at hc
        exact Bool.false_ne_true ((hseq hc.2).1.symm.trans hc.1)
  | inOrder haccept hfind hdata hexpected =>
      rename_i free rpm
      obtain ⟨hfull, rfl⟩ := RxPacketManager.findFreeRxPacket_some hfind
      refine ⟨hstore.take hfind, fun _ => hfull, rfl, Or.inl ⟨⟨haccept, hdata, hexpected, ?_⟩, ?_, rfl⟩⟩
      · rw [hfind]
        rfl
      · have hpacket : ((master.rx.rxPacketManager.setInUse free true).rxPacketEntries
            master.rx.nextRxPacketEntry).packet = frame := (packetAt_findFree hfind _).trans hframe
        change List.filter _ [((master.rx.rxPacketManager.setInUse free true).rxPacketEntries
          master.rx.nextRxPacketEntry).packet] = _
        rw [hpacket, List.filter_cons_of_pos (by rw [hdata]; rfl)]
        rfl

theorem masterRx_queues {k : Nat}
    (hstore : RxInv master.rx.rxPacketManager master.rx.nextRxPacketEntry master.waiting)
    (h : masterRx master = .ok (k, master')) :
    RxInv master'.rx.rxPacketManager master'.rx.nextRxPacketEntry none ∧ master'.rx.validRxPacket = false ∧
      master.rx.rxPacketManager.appended master'.rx.rxPacketManager = master.waitingFrames ∧
      master'.tx.txManager.rxSeqNum = master.tx.txManager.rxSeqNum := by
  rcases masterRx_ok h with ⟨hvalid, rfl⟩ | ⟨e, rpm, scheduler, m, ntx, nw, ttl, hvalid, hprev, rfl, hresult⟩
  · have hwaiting : master'.waiting = none := by
      unfold Master.waiting
      rw [hvalid]
      rfl
    rw [hwaiting] at hstore
    exact ⟨hstore, hvalid, (RxPacketManager.appended_of_ring rfl).trans (Master.waitingFrames_of_invalid hvalid).symm,
      rfl⟩
  · have hwaiting : master.waiting = some e := by
      unfold Master.waiting
      rw [hvalid, ← hprev]
      rfl
    have hframes : master.waitingFrames = [master.rx.packetAt e].filter fun p =>
        master.rx.validRxSeqNum && p.getPacketType == some .nodeData := by
      unfold Master.waitingFrames
      rw [hwaiting]
      rfl
    rw [hwaiting] at hstore
    cases hresult with
    | ignored hdata =>
        refine ⟨hstore.release, rfl, (RxPacketManager.appended_of_ring rfl).trans ?_, rfl⟩
        rw [hframes, List.filter_cons_of_neg (by simp [hdata])]
        rfl
    | acked hseq hack =>
        refine ⟨hstore.release, rfl, (RxPacketManager.appended_of_ring rfl).trans ?_, (rxAckSeqNum_tables hack).2.1⟩
        rw [hframes, List.filter_cons_of_neg]
        · rfl
        · intro hc
          rw [Bool.and_eq_true, beq_iff_eq] at hc
          exact Bool.false_ne_true ((hseq hc.2).symm.trans hc.1)
    | stored hdata hseq hack hlevel hadd =>
        obtain ⟨hinv, hring⟩ := hstore.add hadd
        obtain ⟨-, -, -, hentries⟩ := RxPacketManager.addRxDataPacket_fields hadd
        refine ⟨hinv, rfl, (RxPacketManager.appended_add hring).trans ?_, (rxAckSeqNum_tables hack).2.1⟩
        rw [hframes, List.filter_cons_of_pos (by rw [hseq, hdata]; rfl), hentries]
        rfl
    | registered hrequest hregister =>
        refine ⟨hstore.release, rfl, (RxPacketManager.appended_of_ring rfl).trans ?_, rfl⟩
        rw [hframes, List.filter_cons_of_neg (by rw [hrequest]; simp)]
        rfl

theorem allocateTxPacket_rxSeqNum {m m' : TxManager} {r : Option Nat} (h : allocateTxPacket m = .ok (r, m')) :
    m'.rxSeqNum = m.rxSeqNum := by
  unfold allocateTxPacket at h
  split at h
  · cases h
    rfl
  · dsimp only at h
    split at h
    · cases h
    · split at h <;> cases h <;> rfl

theorem masterAllocate_rx {r : Option Nat} (h : masterAllocateTxPacket master = .ok (r, master')) :
    master'.rx = master.rx ∧ master'.tx.txManager.rxSeqNum = master.tx.txManager.rxSeqNum := by
  obtain ⟨⟨r', m⟩, halloc, h⟩ := bind_eq_ok.mp h
  cases h
  exact ⟨rfl, allocateTxPacket_rxSeqNum halloc⟩

theorem writeAllocatedPacket_rxSeqNum (m : TxManager) (data : PacketData) :
    (writeAllocatedPacket m data).rxSeqNum = m.rxSeqNum := by
  unfold writeAllocatedPacket
  split <;> rfl

theorem masterPeek_store {r : Option RxData} (h : masterPeekNextRxDataPacket master = .ok (r, master')) :
    ∃ e rpm, peekNextRxDataPacket master.rx.rxPacketManager = .ok (e, rpm) ∧
      master' = { master with rx := { master.rx with rxPacketManager := rpm } } := by
  obtain ⟨⟨e, rpm⟩, hpeek, h⟩ := bind_eq_ok.mp h
  refine ⟨e, rpm, hpeek, ?_⟩
  cases e with
  | none => cases h; rfl
  | some i => cases h; rfl

/-- Where the master's table of received numbers may differ after an action that took `frames`. -/
def Master.SeqNumsMove (master master' : Master) (frames : List Packet) : Prop :=
  ∀ k, master'.tx.txManager.rxSeqNum k = master.tx.txManager.rxSeqNum k ∨
    (∃ frame ∈ frames, frame.srcNodeId = k ∧ master'.tx.txManager.rxSeqNum k = frame.txSeqNum) ∨
    (master'.tx.txManager.rxSeqNum k = nullSequenceNum ∧ master'.masterNodeTimeToLive k = 0)

theorem Master.SeqNumsMove.of_eq {frames : List Packet}
    (h : master'.tx.txManager.rxSeqNum = master.tx.txManager.rxSeqNum) : master.SeqNumsMove master' frames :=
  fun k => Or.inl (congrFun h k)

theorem masterUpdateSchedule_rxSeqNum (h : masterUpdateSchedule master = .ok master') :
    master'.tx.txManager.rxSeqNum = master.tx.txManager.rxSeqNum := by
  obtain ⟨_, _, _, _, -, -, rfl⟩ := masterUpdateSchedule_ok h
  rfl

theorem masterTx_rxSeqNum (h : masterTx master = .ok master') :
    master'.tx.txManager.rxSeqNum = master.tx.txManager.rxSeqNum := by
  obtain ⟨tx, rfl, ⟨htx, -⟩ | hget⟩ := masterTx_ok h
  · exact congrArg TxManager.rxSeqNum htx
  · obtain ⟨queue, -, p, i, c, -, ⟨-, hm⟩ | ⟨d, e, -, -, -, -, -, -, hm⟩⟩ :=
      masterGetNextTxDataPacket_ok hget
    · have hseq := congrArg TxManager.rxSeqNum hm
      exact hseq
    · have hseq := congrArg TxManager.rxSeqNum hm
      exact hseq

theorem masterSubmit_rx {dst : TNodeIndex} {numBytes : UInt16}
    (h : masterSubmitAllocatedTxPacket master dst numBytes = .ok master') :
    master'.rx = master.rx ∧ master.SeqNumsMove master' [] := by
  obtain ⟨-, -, m, hm, rfl⟩ := masterSubmit_ok h
  refine ⟨rfl, .of_eq ?_⟩
  rcases submitAllocatedTxPacket_ok hm with ⟨-, -, hm'⟩ | ⟨i, q, -, -, -, -, -, -, hm'⟩
  · have hseq := congrArg TxManager.rxSeqNum hm'
    exact hseq
  · have hseq := congrArg TxManager.rxSeqNum hm'
    exact hseq

theorem masterQuickTx_rx (master : Master) (stray : TNodeIndex → UInt8) :
    (masterQuickTx master stray).rx = master.rx ∧
    (masterQuickTx master stray).tx.txManager.rxSeqNum = master.tx.txManager.rxSeqNum := by
  obtain ⟨tx, heq, htx⟩ := masterQuickTx_eq master stray
  rw [heq]
  refine ⟨rfl, ?_⟩
  rcases htx with htx | ⟨i, p, -, htx⟩
  · exact congrArg TxManager.rxSeqNum htx
  · have hseq := congrArg TxManager.rxSeqNum htx
    exact hseq

theorem masterRemoveAny_holds {k : Nat} (hstore : RxInv master.rx.rxPacketManager master.rx.nextRxPacketEntry none)
    (hvalid : master.rx.validRxPacket = false) (h : masterRemoveAnyTimeoutNodes master = .ok (k, master')) :
    RxInv master'.rx.rxPacketManager master'.rx.nextRxPacketEntry none ∧ master'.rx.validRxPacket = false ∧
      master.SeqNumsMove master' [] := by
  refine masterRemoveAnyTimeoutNodes_induction (P := fun m => RxInv m.rx.rxPacketManager m.rx.nextRxPacketEntry none ∧
    m.rx.validRxPacket = false ∧ master.SeqNumsMove m []) ?_ ⟨hstore, hvalid, .of_eq rfl⟩ h
  rintro d - - m n m' ⟨hinv, hvalid, hmove⟩ hone
  rcases masterRemoveIfTimedOut_ok hone with ⟨-, rfl⟩ | ⟨_, _, nw, tx, rpm, -, -, htx, hrpm, rfl⟩
  · exact ⟨hinv, hvalid, hmove⟩
  · refine ⟨hinv.removeAll hrpm, hvalid, ?_⟩
    obtain ⟨hnull, -, -, -, -, hothers, -⟩ := masterTxManagerRemoveNode_tables htx
    intro k
    by_cases hk : k = d
    · subst hk
      exact Or.inr (Or.inr ⟨hnull, Function.update_self _ _ _⟩)
    · change tx.rxSeqNum k = _ ∨ _ ∨ tx.rxSeqNum k = nullSequenceNum ∧
        Function.update m.masterNodeTimeToLive d 0 k = 0
      rw [(hothers k hk).rxSeqNum, Function.update_of_ne hk]
      rcases hmove k with hsame | ⟨frame, hf, -⟩ | hnull
      · exact Or.inl hsame
      · exact absurd hf List.not_mem_nil
      · exact Or.inr (Or.inr hnull)

end MasterParts

namespace MasterHolds

variable {master master' : Master} {last : Option SlotPart}

theorem waiting_none (h : MasterHolds master last) (hlast : last ≠ some .pre) : master.waiting = none := by
  unfold Master.waiting
  rw [h.between hlast]
  rfl

theorem of_invalid (hstore : RxInv master.rx.rxPacketManager master.rx.nextRxPacketEntry none)
    (hvalid : master.rx.validRxPacket = false) : MasterHolds master last where
  store := by
    unfold Master.waiting
    rw [hvalid]
    exact hstore
  between _ := hvalid
  room hc := absurd (hvalid.symm.trans hc) Bool.false_ne_true

theorem sameRx (h : MasterHolds master last) (hrx : master'.rx = master.rx) : MasterHolds master' last where
  store := by
    unfold Master.waiting
    rw [hrx]
    exact h.store
  between hlast := by
    rw [hrx]
    exact h.between hlast
  room := by
    rw [hrx]
    exact h.room

theorem withStore (h : MasterHolds master last) {rpm : RxPacketManager}
    (hstore : RxInv rpm master.rx.nextRxPacketEntry master.waiting)
    (hmax : rpm.maxRxPacketEntries = master.rx.rxPacketManager.maxRxPacketEntries)
    (hlength : rpm.ring.length ≤ master.rx.rxPacketManager.ring.length) :
    MasterHolds { master with rx := { master.rx with rxPacketManager := rpm } } last where
  store := hstore
  between := h.between
  room hvalid := h.store.notFull hstore (h.room hvalid) hmax hlength

end MasterHolds

theorem Master.waitingFrames_congr {master master' : Master} (hrx : master'.rx = master.rx) :
    master'.waitingFrames = master.waitingFrames := by
  unfold waitingFrames waiting
  rw [hrx]

theorem Master.waitingFrames_withStore (master : Master) (rpm : RxPacketManager)
    (h : ∀ i, (rpm.rxPacketEntries i).packet = (master.rx.rxPacketManager.rxPacketEntries i).packet) :
    ({ master with rx := { master.rx with rxPacketManager := rpm } } : Master).waitingFrames =
    master.waitingFrames := by
  unfold waitingFrames
  congr 1
  apply List.map_congr_left
  intro i _
  exact h i

/-- What a part that receives `frame` does once the schedule is updated. -/
theorem receive_takes {master m₁ m₂ : Master} {frame : Packet} {crcError : Bool} {last : Option SlotPart}
    (h : MasterHolds master last) (hlast : last ≠ some .pre)
    (h₁ : masterUpdateSchedule (master.receive frame) = .ok m₁)
    (h₂ : masterQuickRx m₁ crcError = .ok m₂) :
    MasterHolds m₂ (some .pre) ∧ m₂.rx.rxPacketManager.ring = master.rx.rxPacketManager.ring ∧
      ((master.takes frame crcError ∧ m₂.waitingFrames = [frame] ∧ m₂.tx.txManager.rxSeqNum =
          Function.update master.tx.txManager.rxSeqNum frame.srcNodeId frame.txSeqNum) ∨
        (¬ master.takes frame crcError ∧ m₂.waitingFrames = [] ∧
          m₂.tx.txManager.rxSeqNum = master.tx.txManager.rxSeqNum)) := by
  have hrx : m₁.rx = master.rx.receive frame := masterUpdateSchedule_rx h₁
  have hseq := masterUpdateSchedule_rxSeqNum h₁
  change m₁.tx.txManager.rxSeqNum = master.tx.txManager.rxSeqNum at hseq
  have hstore : RxInv m₁.rx.rxPacketManager m₁.rx.nextRxPacketEntry none := by
    rw [hrx, ← h.waiting_none hlast]
    exact h.store.receive _ _
  have hframe : m₁.rx.packetAt m₁.rx.nextRxPacketEntry = frame := by
    rw [hrx]
    exact RxPacketManager.packet_receive _ _
  have htakes : m₁.takes frame crcError ↔ master.takes frame crcError := by
    unfold Master.takes
    rw [hseq, hrx]
    change _ ∧ _ ∧ _ ∧ (findFreeRxPacket (master.rx.rxPacketManager.receive _ frame)).isSome = true ↔ _
    rw [findFreeRxPacket_receive_isSome]
  obtain ⟨hinv, hroom, hring, hcase⟩ := masterQuickRx_takes hstore hframe h₂
  rw [htakes, hseq] at hcase
  refine ⟨⟨hinv, fun hc => absurd rfl hc, hroom⟩, ?_, hcase⟩
  rw [hring, hrx]
  rfl

/-- A part of a slot that receives a frame: the number of its source moves exactly if the frame is taken. -/
theorem receive_moves {master m₁ m₂ m : Master} {frame : Packet} {crcError : Bool} {last : Option SlotPart}
    (h : MasterHolds master last) (hlast : last ≠ some .pre)
    (h₁ : masterUpdateSchedule (master.receive frame) = .ok m₁) (h₂ : masterQuickRx m₁ crcError = .ok m₂)
    (hm : m.tx.txManager.rxSeqNum = m₂.tx.txManager.rxSeqNum) :
    (if m.tx.txManager.rxSeqNum frame.srcNodeId ≠ master.tx.txManager.rxSeqNum frame.srcNodeId then [frame]
      else []) = (if master.takes frame crcError then [frame] else []) ∧
    m₂.waitingFrames = (if master.takes frame crcError then [frame] else []) ∧
    master.SeqNumsMove m (if master.takes frame crcError then [frame] else []) := by
  obtain ⟨-, -, ⟨htakes, hwaiting, hseq⟩ | ⟨htakes, hwaiting, hseq⟩⟩ := receive_takes h hlast h₁ h₂
  · rw [hm, hseq, Function.update_self, if_pos htakes, htakes.2.2.1, if_pos (expectedSeqNum_ne _)]
    refine ⟨rfl, hwaiting, ?_⟩
    intro k
    rw [hm, hseq]
    by_cases hk : k = frame.srcNodeId
    · rw [hk, Function.update_self]
      exact Or.inr (Or.inl ⟨frame, List.mem_singleton_self frame, rfl, rfl⟩)
    · rw [Function.update_of_ne hk]
      exact Or.inl rfl
  · rw [hm, hseq, if_neg htakes, if_neg (fun hc => hc rfl)]
    exact ⟨rfl, hwaiting, .of_eq (hm.trans hseq)⟩

/-- What an action makes of the buffers of the master, of the frames that it takes and of its numbers. -/
structure MasterRun.RxStep {mode : ChannelMode} (s s' : MasterRun) (a : MasterAction mode)
    (last : Option SlotPart) : Prop where
  holds : MasterHolds s'.master (a.part.or last)
  accepted : masterAccepted s a s' = s.master.taken a
  frames : s.master.waitingFrames ++ s.master.taken a = masterQueued s a s' ++ s'.master.waitingFrames
  moves : s.master.SeqNumsMove s'.master (s.master.taken a)

namespace MasterHolds

variable {s s' : MasterRun} {last : Option SlotPart} {frame : Packet} {crcError : Bool} {stray : TNodeIndex → UInt8}

theorem preProcess (h : MasterHolds s.master last) (hlast : last ≠ some .pre)
    (hs : s.step (.preProcess frame crcError stray) = .ok s') :
    s.RxStep s' (.preProcess frame crcError stray) last := by
  obtain ⟨⟨m, f⟩, hpre, hs⟩ := bind_eq_ok.mp hs
  cases hs
  obtain ⟨m₁, m₂, h₁, h₂, rfl⟩ := preProcess_ok hpre
  obtain ⟨hrx, hseq⟩ := masterQuickTx_rx m₂ stray
  obtain ⟨haccepted, hwaiting, hmove⟩ := receive_moves h hlast h₁ h₂ hseq
  refine ⟨(receive_takes h hlast h₁ h₂).1.sameRx hrx, haccepted, ?_, hmove⟩
  rw [Master.waitingFrames_of_invalid (h.between hlast), Master.waitingFrames_congr hrx, hwaiting]
  rfl

theorem postProcess (h : MasterHolds s.master last) (hs : s.step .postProcess = .ok s') :
    s.RxStep s' .postProcess last := by
  obtain ⟨⟨k, m⟩, hpost, hs⟩ := bind_eq_ok.mp hs
  cases hs
  obtain ⟨m₁, m₂, k₁, k₂, h₁, h₂, h₃⟩ := postProcess_ok hpost
  obtain ⟨hstore, hvalid, hqueued, hseq₁⟩ := masterRx_queues h.store h₁
  have hrx := masterTx_rx h₂
  rw [← hrx] at hstore hvalid
  obtain ⟨hstore', hvalid', hmove⟩ := masterRemoveAny_holds hstore hvalid h₃
  refine ⟨.of_invalid hstore' hvalid', rfl, ?_, ?_⟩
  · change _ = (match masterRx s.master with
      | .ok (_, master) => s.master.rx.rxPacketManager.appended master.rx.rxPacketManager
      | .error _ => []) ++ m.waitingFrames
    rw [h₁, Master.waitingFrames_of_invalid hvalid', ← hqueued]
    rfl
  · intro k
    rw [← hseq₁, ← masterTx_rxSeqNum h₂]
    exact hmove k

theorem processRx (h : MasterHolds s.master last) (hlast : last ≠ some .pre)
    (hs : s.step (.processRx frame crcError) = .ok s') : s.RxStep s' (.processRx frame crcError) last := by
  obtain ⟨⟨k, m⟩, hrx, hs⟩ := bind_eq_ok.mp hs
  cases hs
  obtain ⟨m₁, m₂, h₁, h₂, h₃⟩ := processRx_ok hrx
  obtain ⟨hholds, hring, -⟩ := receive_takes h hlast h₁ h₂
  obtain ⟨hstore, hvalid, hqueued, hseq⟩ := masterRx_queues hholds.store h₃
  obtain ⟨haccepted, hwaiting, hmove⟩ := receive_moves h hlast h₁ h₂ hseq
  refine ⟨.of_invalid hstore hvalid, haccepted, ?_, hmove⟩
  have hsameRing : s.master.rx.rxPacketManager.appended m.rx.rxPacketManager =
      m₂.rx.rxPacketManager.appended m.rx.rxPacketManager := by
    unfold RxPacketManager.appended
    rw [hring]
  rw [Master.waitingFrames_of_invalid (h.between hlast)]
  change _ = s.master.rx.rxPacketManager.appended m.rx.rxPacketManager ++ m.waitingFrames
  rw [Master.waitingFrames_of_invalid hvalid, hsameRing, hqueued, hwaiting, List.append_nil]
  rfl

theorem processTx (h : MasterHolds s.master last) (hlast : last ≠ some .pre)
    (hs : s.step (.processTx stray) = .ok s') : s.RxStep s' (.processTx stray) last := by
  obtain ⟨⟨k, m, f⟩, htx, hs⟩ := bind_eq_ok.mp hs
  cases hs
  obtain ⟨m₁, m₂, h₁, h₂, h₃⟩ := processTx_ok htx
  obtain ⟨hrx, hseq⟩ := masterQuickTx_rx m₂ stray
  have hrx' : (masterQuickTx m₂ stray).rx = s.master.rx :=
    hrx.trans ((masterUpdateSchedule_rx h₂).trans (masterTx_rx h₁))
  have hseq' := hseq.trans ((masterUpdateSchedule_rxSeqNum h₂).trans (masterTx_rxSeqNum h₁))
  have hheld := h.sameRx hrx'
  obtain ⟨hstore, hvalid, hmove⟩ := masterRemoveAny_holds (hheld.waiting_none hlast ▸ hheld.store)
    (hheld.between hlast) h₃
  refine ⟨.of_invalid hstore hvalid, rfl, ?_, ?_⟩
  · rw [Master.waitingFrames_of_invalid (h.between hlast)]
    change _ = [] ++ m.waitingFrames
    rw [Master.waitingFrames_of_invalid hvalid]
    rfl
  · intro k
    rw [← hseq']
    exact hmove k

/-- An action that leaves the receive path alone. -/
theorem leavesRx (h : MasterHolds s.master last) {m : Master} (hrx : m.rx = s.master.rx) :
    MasterHolds m last ∧ s.master.waitingFrames ++ [] = [] ++ m.waitingFrames :=
  ⟨h.sameRx hrx, by rw [Master.waitingFrames_congr hrx, List.append_nil, List.nil_append]⟩

/-- The application takes packets off the ring. -/
theorem takesOff (h : MasterHolds s.master last) {rpm : RxPacketManager}
    (hstore : RxInv rpm s.master.rx.nextRxPacketEntry s.master.waiting)
    (hmax : rpm.maxRxPacketEntries = s.master.rx.rxPacketManager.maxRxPacketEntries)
    (hlength : rpm.ring.length ≤ s.master.rx.rxPacketManager.ring.length)
    (hpackets : ∀ i, (rpm.rxPacketEntries i).packet = (s.master.rx.rxPacketManager.rxPacketEntries i).packet) :
    MasterHolds { s.master with rx := { s.master.rx with rxPacketManager := rpm } } last ∧
      s.master.waitingFrames ++ [] =
        [] ++ ({ s.master with rx := { s.master.rx with rxPacketManager := rpm } } : Master).waitingFrames := by
  refine ⟨h.withStore hstore hmax hlength, ?_⟩
  rw [s.master.waitingFrames_withStore rpm hpackets, List.append_nil, List.nil_append]

/-- The whole of an action of the master: who holds its buffers, which frames it accepts and queues,
and which of its numbers move. -/
theorem step {mode : ChannelMode} {a : MasterAction mode} (h : MasterHolds s.master last)
    (hmode : mode = .single → last = none) (halt : Alternates last a.part) (hs : s.step a = .ok s') :
    s.RxStep s' a last := by
  have hsingle : mode = .single → last ≠ some .pre := fun hm => hmode hm ▸ nofun
  cases a with
  | preProcess frame crcError stray => exact h.preProcess (halt .pre rfl) hs
  | postProcess => exact h.postProcess hs
  | processRx frame crcError => exact h.processRx (hsingle rfl) hs
  | processTx stray => exact h.processTx (hsingle rfl) hs
  | updateTimeUs usIncr =>
      cases hs
      obtain ⟨us, ttl, heq, -⟩ := masterUpdateTimeUs_eq s.master usIncr
      obtain ⟨hholds, hframes⟩ := h.leavesRx (m := masterUpdateTimeUs s.master usIncr) (by rw [heq])
      exact ⟨hholds, rfl, hframes, .of_eq (by rw [heq])⟩
  | allocate =>
      obtain ⟨⟨r, m⟩, halloc, hs⟩ := bind_eq_ok.mp hs
      cases hs
      obtain ⟨hrx, hseq⟩ := masterAllocate_rx halloc
      obtain ⟨hholds, hframes⟩ := h.leavesRx hrx
      exact ⟨hholds, rfl, hframes, .of_eq hseq⟩
  | write data =>
      cases hs
      obtain ⟨hholds, hframes⟩ := h.leavesRx (m := masterWriteAllocatedPacket s.master data) rfl
      exact ⟨hholds, rfl, hframes, .of_eq (writeAllocatedPacket_rxSeqNum _ data)⟩
  | submit dst numBytes =>
      obtain ⟨m, hsubmit, hs⟩ := bind_eq_ok.mp hs
      obtain ⟨hrx, hmove⟩ := masterSubmit_rx hsubmit
      obtain ⟨hholds, hframes⟩ := h.leavesRx hrx
      have hresult : s'.master = m := by
        split at hs <;> cases hs <;> rfl
      rw [← hresult] at hholds hframes hmove
      exact ⟨hholds, rfl, hframes, hmove⟩
  | peek =>
      obtain ⟨⟨r, m⟩, hpeek, hs⟩ := bind_eq_ok.mp hs
      cases hs
      obtain ⟨e, rpm, hstored, rfl⟩ := masterPeek_store hpeek
      obtain ⟨hstore, -, -, hlength, hmax, hentries⟩ := h.store.peek hstored
      obtain ⟨hholds, hframes⟩ := h.takesOff hstore hmax hlength (fun i => by rw [hentries])
      exact ⟨hholds, rfl, hframes, .of_eq rfl⟩
  | pop =>
      obtain ⟨m, hpop, hs⟩ := bind_eq_ok.mp hs
      cases hs
      obtain ⟨rpm, hstored, hm⟩ := bind_eq_ok.mp hpop
      cases hm
      obtain ⟨hstore, hmax, hpackets, e, hring⟩ := h.store.pop hstored
      obtain ⟨hholds, hframes⟩ := h.takesOff hstore hmax (by rw [hring]; exact Nat.le_succ _) hpackets
      exact ⟨hholds, rfl, hframes, .of_eq rfl⟩
  | getConnectedNodes =>
      obtain ⟨⟨m, bits⟩, hget, hs⟩ := bind_eq_ok.mp hs
      cases hs
      obtain rfl := getConnectedNodesBitField_ok hget
      obtain ⟨hholds, hframes⟩ := h.leavesRx
        (m := { s.master with masterNodeTimeToLive := Function.update s.master.masterNodeTimeToLive 0 1 }) rfl
      exact ⟨hholds, rfl, hframes, .of_eq rfl⟩
  | resetTxCredits =>
      cases hs
      obtain ⟨hholds, hframes⟩ := h.leavesRx (m := masterResetTxCredits s.master) rfl
      exact ⟨hholds, rfl, hframes, .of_eq rfl⟩

end MasterHolds

end Microbus
