import Microbus.Emission
import Microbus.MasterFrames

/-! The frames of a master on the wire. -/
namespace Microbus

open Transition

namespace MasterTx

/-- The cycle counter of the next slot that is not a reset. -/
def nextCycle (tx : MasterTx) : Nat := if tx.tmpPacketCycle + 1 ≥ 4 then 0 else tx.tmpPacketCycle + 1

/-- What `masterProcessTx` chooses. -/
inductive Next (tx : MasterTx) (nw : NetworkManager) : MasterTx → Prop
  | reset : 0 < tx.masterResetCycles → Next tx nw
      { tx with
        masterResetCycles := tx.masterResetCycles - 1
        tmpPacket := tx.tmpPacket.setProtocolVersionAndPacketType .masterReset
        nextTxPacket := some .tmpPacket }
  | response : tx.masterResetCycles = 0 → 0 < nw.numNewNodes → tx.nextCycle = 1 → Next tx nw
      { tx with
        tmpPacketCycle := tx.nextCycle
        tmpPacket := txNewNodeResponse nw tx.tmpPacket
        nextTxPacket := some .tmpPacket }
  | empty {txManager} : tx.DataTurn nw →
      masterGetNextTxDataPacket tx.txManager masterBurstSize = .ok (none, txManager) → Next tx nw
      { tx with
        tmpPacketCycle := tx.nextCycle
        txManager
        tmpEmptyPacketHeader := Function.update tx.tmpEmptyPacketHeader (tx.nextCycle % 2)
          { (tx.tmpEmptyPacketHeader (tx.nextCycle % 2)).setProtocolVersionAndPacketType .masterEmpty with
            dataSize1 := 0, dataSize2 := 0, dstNodeId := invalidNodeId }
        nextTxPacket := some (.tmpEmptyPacketHeader (tx.nextCycle % 2)) }
  | data {i txManager} : tx.DataTurn nw →
      masterGetNextTxDataPacket tx.txManager masterBurstSize = .ok (some i, txManager) → Next tx nw
      { tx with tmpPacketCycle := tx.nextCycle, txManager, nextTxPacket := some (.entry i) }

end MasterTx

theorem masterProcessTx_ok {tx tx' : MasterTx} {nw : NetworkManager} (h : masterProcessTx tx nw = .ok tx') :
    tx.Next nw tx' := by
  unfold masterProcessTx at h
  split at h
  · rename_i hreset
    cases h
    exact .reset hreset
  · rename_i hreset
    have hnone : tx.masterResetCycles = 0 := Nat.eq_zero_of_not_pos hreset
    dsimp only at h
    generalize hcycle : (if tx.tmpPacketCycle + 1 ≥ 4 then 0 else tx.tmpPacketCycle + 1) = cycle at h
    obtain rfl : tx.nextCycle = cycle := hcycle
    split at h
    · rename_i hnew
      cases h
      exact .response hnone hnew.1 hnew.2
    · rename_i hnew
      have hdata : tx.DataTurn nw := ⟨hnone, hnew⟩
      obtain ⟨⟨r, m⟩, hget, h⟩ := bind_eq_ok.mp h
      cases r with
      | none =>
          cases h
          exact .empty hdata hget
      | some i =>
          obtain ⟨_, -, h⟩ := bind_eq_ok.mp h
          cases h
          exact .data hdata hget

/-- The packet found is number next of the destination whose turn it is. -/
theorem masterGetNext_turn {m m' : TxManager} {burstSize : Nat} {r : Option Nat}
    (h : masterGetNextTxDataPacket m burstSize = .ok (r, m')) :
    match r with
    | none => m.turn true burstSize = none
    | some i => ∃ d, m.turn true burstSize = some d ∧ i < m.size ∧ (m.entry i).inUse = true ∧
        (m.entry i).packet.dstNodeId = d := by
  have hnext := (TxManager.masterGetNext_moves h).next
  obtain ⟨queue, -, p, i, c, -, ⟨rfl, rfl⟩ | ⟨d, e, -, rfl, -, -, -, hfind, rfl⟩⟩ :=
    masterGetNextTxDataPacket_ok h
  · cases hturn : m.turn true burstSize with
    | none => rfl
    | some d =>
        rw [hturn] at hnext
        have hself := congrFun hnext d
        change m.txSeqNumNext d = Function.update m.txSeqNumNext d (incrSequenceNum (m.txSeqNumNext d)) d at hself
        rw [Function.update_self] at hself
        exact absurd hself.symm (incrSequenceNum_ne _)
  · obtain ⟨hlt, huse, hkey⟩ := findPacketEntry_ok hfind
    have hdst : (m.entry e).packet.dstNodeId = d := congrArg Prod.fst hkey
    refine ⟨d, ?_, hlt, huse, hdst⟩
    have hself := congrFun hnext d
    change Function.update m.txSeqNumNext d (incrSequenceNum (m.txSeqNumNext d)) d = _ at hself
    rw [Function.update_self] at hself
    cases hturn : m.turn true burstSize with
    | none =>
        rw [hturn] at hself
        exact absurd hself (incrSequenceNum_ne _)
    | some x =>
        rw [hturn] at hself
        by_cases hx : d = x
        · rw [hx]
        · change _ = Function.update m.txSeqNumNext x (incrSequenceNum (m.txSeqNumNext x)) d at hself
          rw [Function.update_of_ne hx] at hself
          exact absurd hself (incrSequenceNum_ne _)

namespace MasterTx

/-- The frame that was chosen, the cycle and the kind of frame in the shared buffer stay. -/
structure SameChoice (tx tx' : MasterTx) : Prop where
  nextTxPacket : tx'.nextTxPacket = tx.nextTxPacket
  tmpPacketCycle : tx'.tmpPacketCycle = tx.tmpPacketCycle
  type : tx'.tmpPacket.protocolVersionAndPacketType = tx.tmpPacket.protocolVersionAndPacketType
  size : tx'.txManager.size = tx.txManager.size

namespace SameChoice

variable {tx tx' tx'' : MasterTx}

theorem refl (tx : MasterTx) : tx.SameChoice tx := ⟨rfl, rfl, rfl, rfl⟩

theorem trans (h : tx.SameChoice tx') (h' : tx'.SameChoice tx'') : tx.SameChoice tx'' :=
  ⟨h'.nextTxPacket.trans h.nextTxPacket, h'.tmpPacketCycle.trans h.tmpPacketCycle, h'.type.trans h.type,
    h'.size.trans h.size⟩

theorem withTxManager {m : TxManager} (h : m.size = tx.txManager.size) : tx.SameChoice { tx with txManager := m } :=
  ⟨rfl, rfl, rfl, h⟩

end SameChoice

/-- The empty headers alternate with the cycle, and a response lies in the shared buffer in cycle 1 only. -/
structure FrameInv (tx : MasterTx) : Prop where
  cycle : tx.tmpPacketCycle < 4
  header : ∀ j, tx.nextTxPacket = some (.tmpEmptyPacketHeader j) → j = tx.tmpPacketCycle % 2
  typed : ∃ t : PacketType, tx.tmpPacket.protocolVersionAndPacketType = (microbusVersion <<< 4) ||| (t.code &&& 0xF)
  response : tx.nextTxPacket = some .tmpPacket → tx.tmpPacket.getPacketType = some .newNodeResponse →
    tx.tmpPacketCycle = 1
  entry : ∀ i, tx.nextTxPacket = some (.entry i) → i < tx.txManager.size

namespace FrameInv

variable {tx tx' : MasterTx} {nw : NetworkManager}

theorem congr (h : tx.FrameInv) (hs : tx.SameChoice tx') : tx'.FrameInv where
  cycle := by
    rw [hs.tmpPacketCycle]
    exact h.cycle
  header j hj := by
    rw [hs.tmpPacketCycle]
    exact h.header j (hs.nextTxPacket ▸ hj)
  typed := by
    rw [hs.type]
    exact h.typed
  response hnext htype := by
    rw [hs.tmpPacketCycle]
    refine h.response (hs.nextTxPacket ▸ hnext) ?_
    unfold Packet.getPacketType at htype ⊢
    rwa [hs.type] at htype
  entry i hi := by
    rw [hs.size]
    exact h.entry i (hs.nextTxPacket ▸ hi)

theorem nextCycle_lt (tx : MasterTx) : tx.nextCycle < 4 := by
  unfold nextCycle
  split <;> omega

theorem next (h : tx.FrameInv) (hn : tx.Next nw tx') : tx'.FrameInv := by
  cases hn with
  | reset hreset =>
      refine ⟨h.cycle, nofun, ⟨.masterReset, rfl⟩, fun _ htype => ?_, nofun⟩
      rw [(Packet.isType_of_byte (t := .masterReset) rfl).type] at htype
      cases htype
  | response hreset hnew hcycle =>
      exact ⟨nextCycle_lt tx, nofun, ⟨.newNodeResponse, txNewNodeResponse_byte _ _⟩, fun _ _ => hcycle, nofun⟩
  | empty hdata hget =>
      refine ⟨nextCycle_lt tx, ?_, h.typed, nofun, nofun⟩
      rintro j hj
      cases hj
      rfl
  | @data i m hdata hget =>
      refine ⟨nextCycle_lt tx, nofun, h.typed, nofun, ?_⟩
      rintro j hj
      cases hj
      obtain ⟨d, -, hlt, -, -⟩ := masterGetNext_turn hget
      exact hlt.trans_eq (masterGetNext_packets hget).size.symm

end FrameInv
end MasterTx

section Parts

variable {master master' : Master}

theorem masterUpdateSchedule_choice (h : masterUpdateSchedule master = .ok master') :
    master.tx.SameChoice master'.tx := by
  obtain ⟨_, _, _, _, -, -, rfl⟩ := masterUpdateSchedule_ok h
  exact .withTxManager rfl

theorem masterQuickRx_choice {crcError : Bool} (h : masterQuickRx master crcError = .ok master') :
    master.tx.SameChoice master'.tx := by
  have hquiet := (masterQuickRx_quiet h).1
  obtain ⟨rx, nw, ttl, m, rfl, -, -, -⟩ := masterQuickRx_ok h
  exact .withTxManager hquiet.touched.size

theorem masterQuickTx_choice (master : Master) (stray : TNodeIndex → UInt8) :
    master.tx.SameChoice (masterQuickTx master stray).tx := by
  unfold masterQuickTx masterQuickUpdateTxPacket
  cases hr : master.tx.nextTxPacket with
  | none => exact .refl _
  | some r => cases r <;> exact ⟨rfl, rfl, rfl, rfl⟩

theorem masterRx_choice {k : Nat} (h : masterRx master = .ok (k, master')) :
    master'.tx = { master.tx with txManager := master'.tx.txManager } ∧
      SamePackets master.tx.txManager master'.tx.txManager := by
  have hpackets : SamePackets master.tx.txManager master'.tx.txManager := by
    obtain ⟨heq | ⟨d, a, n, hack⟩, -, -⟩ := masterRx_part h
    · rw [heq]
      exact .refl _
    · exact rxAckSeqNum_packets hack
  rcases masterRx_ok h with ⟨-, rfl⟩ | ⟨_, _, _, _, _, _, _, -, -, rfl, -⟩
  · exact ⟨rfl, hpackets⟩
  · exact ⟨rfl, hpackets⟩

theorem masterRemoveAny_choice {k : Nat} (h : masterRemoveAnyTimeoutNodes master = .ok (k, master')) :
    master.tx.SameChoice master'.tx := by
  refine masterRemoveAnyTimeoutNodes_induction (P := fun m => master.tx.SameChoice m.tx) ?_ (.refl _) h
  intro d _ _ m k m' hm hone
  rcases masterRemoveIfTimedOut_ok hone with ⟨-, rfl⟩ | ⟨_, _, _, _, _, -, -, hremove, -, rfl⟩
  · exact hm
  · exact hm.trans (.withTxManager (masterTxManagerRemoveNode_packets hremove).size)

theorem masterRemoveAny_inUse {k : Nat} (h : masterRemoveAnyTimeoutNodes master = .ok (k, master')) {i : Nat}
    (hi : i < master.tx.txManager.size) : (master'.tx.txManager.entry i).inUse = true ↔
      (master.tx.txManager.entry i).inUse = true ∧
        ¬ (Station (master.tx.txManager.entry i).packet.dstNodeId ∧
          master.masterNodeTimeToLive (master.tx.txManager.entry i).packet.dstNodeId = removeNodeTTL) := by
  generalize hp : (master.tx.txManager.entry i).packet = p
  -- before round `n` the packets to the ids below `n` are gone
  have hrounds := masterRemoveAnyTimeoutNodes_rounds (P := fun n m => m.tx.txManager.size = master.tx.txManager.size ∧
      (m.tx.txManager.entry i).packet = p ∧
      (∀ x : TNodeIndex, n ≤ x.toNat → m.masterNodeTimeToLive x = master.masterNodeTimeToLive x) ∧
      ((m.tx.txManager.entry i).inUse = true ↔ (master.tx.txManager.entry i).inUse = true ∧
        ¬ ((firstNodeId ≤ p.dstNodeId.toNat ∧ p.dstNodeId.toNat < n) ∧
          master.masterNodeTimeToLive p.dstNodeId = removeNodeTTL))) ?_ ?_ h
  · exact hrounds.2.2.2
  · rintro d hfirst hlast m k m' ⟨hsize, hpacket, httl, huse⟩ hone
    have hlt : ∀ x : TNodeIndex, x.toNat < d.toNat + 1 ↔ x.toNat < d.toNat ∨ x = d := by
      intro x
      rw [← UInt8.toNat_inj]
      omega
    rcases masterRemoveIfTimedOut_ok hone with ⟨hstays, rfl⟩ | ⟨_, _, _, tm, _, hdue, -, hremove, -, rfl⟩
    · refine ⟨hsize, hpacket, fun x hx => httl x (Nat.le_of_succ_le hx), huse.trans ?_⟩
      rw [httl d (Nat.le_refl _)] at hstays
      refine and_congr_right fun _ => not_congr (and_congr_left fun hd => and_congr_right fun _ => ?_)
      rw [hlt, or_iff_left]
      rintro hpd
      exact hstays (hpd ▸ hd)
    · obtain ⟨-, -, hreleased⟩ := masterTxManagerRemoveNode_ok hremove
      have hsame := masterTxManagerRemoveNode_packets hremove
      refine ⟨hsame.size.trans hsize, (hsame.packet i).trans hpacket, ?_, ?_⟩
      · intro x hx
        change Function.update m.masterNodeTimeToLive d 0 x = _
        rw [Function.update_of_ne fun hc => by rw [hc] at hx; omega]
        exact httl x (Nat.le_of_succ_le hx)
      · have hfreed := hreleased.inUse i
        change ((tm.entry i).inUse = true ↔ (m.tx.txManager.entry i).inUse = true ∧ _) at hfreed
        rw [httl d (Nat.le_refl _)] at hdue
        change (tm.entry i).inUse = true ↔ _
        rw [hfreed, huse, hpacket, hlt, and_assoc]
        refine and_congr_right fun _ => ?_
        by_cases hpd : p.dstNodeId = d
        · rw [hpd]
          exact iff_of_false (fun hc => hc.2 ⟨hsize ▸ hi, rfl⟩) fun hc => hc ⟨⟨hfirst, Or.inr rfl⟩, hdue⟩
        · rw [or_iff_left hpd]
          exact and_iff_left fun hc => hpd hc.2
  · refine ⟨rfl, hp, fun _ _ => rfl, ?_⟩
    exact (and_iff_left fun hc => absurd hc.1.1 (Nat.not_le.mpr hc.1.2)).symm

end Parts

/-- The states that the post-process of a master passes through. -/
inductive Master.PassesPost (master : Master) : Master → Prop
  | rx {k m₁} : masterRx master = .ok (k, m₁) → master.PassesPost m₁
  | tx {k m₁ m₂} : masterRx master = .ok (k, m₁) → masterTx m₁ = .ok m₂ → master.PassesPost m₂
  | remove {k n m₁ m₂ m₃} : masterRx master = .ok (k, m₁) → masterTx m₁ = .ok m₂ →
      masterRemoveAnyTimeoutNodes m₂ = .ok (n, m₃) → master.PassesPost m₃

def masterPasses {mode : ChannelMode} (s : MasterRun) (a : MasterAction mode) (s' : MasterRun) : Prop :=
  match a with
  | .postProcess => s.master.PassesPost s'.master
  | _ => False

def masterAllocated {mode : ChannelMode} (s : MasterRun) (a : MasterAction mode) : Option Nat :=
  match a with
  | .allocate =>
      match masterAllocateTxPacket s.master with
      | .ok (packet, _) => packet
      | .error _ => none
  | _ => none

def masterEmitter (mode : ChannelMode) : Emitter MasterRun (MasterAction mode) where
  part := MasterAction.part
  sent := fun _ _ s => s.master.tx.nextTxPacket
  passes := masterPasses
  allocated := masterAllocated
  nextTxPacket s := s.master.tx.nextTxPacket
  txManager s := s.master.tx.txManager
  deref s := s.master.tx.deref

/-- The next frame is not built over another frame in the shared buffer: only a reset follows a reset, and after the
last one comes a data frame. -/
def Master.SparesTmpPacket (master : Master) : Prop :=
  ∀ k m₁, masterRx master = .ok (k, m₁) →
    (0 < master.tx.masterResetCycles → master.tx.tmpPacket.getPacketType = some .masterReset) ∧
    (master.tx.masterResetCycles = 0 → m₁.tx.DataTurn m₁.nwManager)

/-- The packet whose turn it is goes to a node that is not removed at the end of the slot. -/
def Master.SparesNextPacket (master : Master) : Prop :=
  ∀ k m₁ d, masterRx master = .ok (k, m₁) → m₁.tx.DataTurn m₁.nwManager →
    m₁.tx.txManager.turn true masterBurstSize = some d → Station d → m₁.masterNodeTimeToLive d ≠ removeNodeTTL

/-- The credits are reset only when no data packet is to be sent next. -/
def MasterKeepsNext {mode : ChannelMode} (s : OnWire MasterRun) : MasterAction mode → Prop
  | .postProcess => s.device.master.SparesNextPacket
  | .resetTxCredits => s.device.master.tx.chosen = none
  | _ => True

/-- The shared buffer is not on the wire when another frame is built in it, nor the first free entry when the
application is given one. -/
def MasterSpares {mode : ChannelMode} (s : OnWire MasterRun) : MasterAction mode → Prop
  | .postProcess => s.wire = some .tmpPacket → s.device.master.SparesTmpPacket
  | .allocate => ∀ i, s.wire = some (.entry i) → ¬ s.device.master.tx.txManager.Offers i
  | _ => True

section Step

variable {mode : ChannelMode} {s s' : MasterRun} {a : MasterAction mode}

/-- Apart from the post-process every action of the dual channel leaves the chosen frame, and apart from a reset of
the credits it frees nothing. -/
theorem step_choice (hmode : mode = .dual) (hpost : a.part ≠ some .post) (hs : s.step a = .ok s') :
    s.master.tx.SameChoice s'.master.tx ∧
      (a ≠ .resetTxCredits → ∀ i, (s.master.tx.txManager.entry i).inUse = true →
        (s'.master.tx.txManager.entry i).inUse = true) := by
  cases a with
  | preProcess frame crcError stray =>
      obtain ⟨⟨m, f⟩, hpre, hs⟩ := bind_eq_ok.mp hs
      cases hs
      obtain ⟨m₁, m₂, h₁, h₂, rfl⟩ := preProcess_ok hpre
      refine ⟨((masterUpdateSchedule_choice h₁).trans (masterQuickRx_choice h₂)).trans
        (masterQuickTx_choice m₂ stray), ?_⟩
      intro _ i hi
      rw [(masterQuickTx_quiet m₂ stray).touched.inUse, (masterQuickRx_quiet h₂).1.touched.inUse,
        (masterUpdateSchedule_quiet h₁).1.touched.inUse]
      exact hi
  | postProcess => exact absurd rfl hpost
  | processRx frame crcError => cases hmode
  | processTx stray => cases hmode
  | updateTimeUs usIncr =>
      cases hs
      obtain ⟨_, _, heq, -⟩ := masterUpdateTimeUs_eq s.master usIncr
      dsimp only
      rw [heq]
      exact ⟨.refl _, fun _ _ hi => hi⟩
  | allocate =>
      obtain ⟨⟨r, m⟩, halloc, hs⟩ := bind_eq_ok.mp hs
      cases hs
      obtain ⟨⟨r', tm⟩, hone, halloc⟩ := bind_eq_ok.mp halloc
      cases halloc
      have htake : ∀ i j, (s.master.tx.txManager.entry j).inUse = true →
          ((s.master.tx.txManager.takeEntry i).entry j).inUse = true := by
        intro i j hj
        rw [TxManager.entry_takeEntry]
        split
        · rfl
        · exact hj
      rcases allocateTxPacket_ok hone with ⟨-, rfl⟩ | ⟨i, -, -, ⟨-, rfl, -⟩ | ⟨-, rfl⟩⟩
      · exact ⟨.withTxManager rfl, fun _ _ hi => hi⟩
      · exact ⟨.withTxManager rfl, fun _ => htake i⟩
      · exact ⟨.withTxManager rfl, fun _ => htake i⟩
  | write data =>
      cases hs
      have ht : Touched true s.master.tx.txManager (writeAllocatedPacket s.master.tx.txManager data) :=
        touched_write _ data
      refine ⟨.withTxManager ht.size, fun _ i hi => ?_⟩
      rw [← ht.inUse] at hi
      exact hi
  | submit dst numBytes =>
      obtain ⟨m, hsubmit, hs⟩ := bind_eq_ok.mp hs
      obtain ⟨-, -, tm, hm, rfl⟩ := masterSubmit_ok hsubmit
      have hkeep : tm.size = s.master.tx.txManager.size ∧
          ∀ i, (s.master.tx.txManager.entry i).inUse = true → (tm.entry i).inUse = true := by
        rcases submitAllocatedTxPacket_ok hm with ⟨-, -, rfl⟩ | ⟨j, q, -, -, -, -, -, -, rfl⟩
        · exact ⟨rfl, fun _ hi => hi⟩
        · refine ⟨rfl, fun i hi => ?_⟩
          rw [entry_submit]
          split
          · rename_i hij
            rw [← hij]
            exact hi
          · exact hi
      split at hs
      · cases hs
        exact ⟨.withTxManager hkeep.1, fun _ => hkeep.2⟩
      · cases hs
        exact ⟨.withTxManager hkeep.1, fun _ => hkeep.2⟩
  | peek =>
      obtain ⟨⟨r, m⟩, hpeek, hs⟩ := bind_eq_ok.mp hs
      cases hs
      obtain ⟨rpm, rfl, -⟩ := masterPeek_ok hpeek
      exact ⟨.refl _, fun _ _ hi => hi⟩
  | pop =>
      obtain ⟨m, hpop, hs⟩ := bind_eq_ok.mp hs
      cases hs
      obtain ⟨rpm, rfl, -⟩ := masterPop_ok hpop
      exact ⟨.refl _, fun _ _ hi => hi⟩
  | getConnectedNodes =>
      obtain ⟨⟨m, bits⟩, hget, hs⟩ := bind_eq_ok.mp hs
      cases hs
      obtain rfl := getConnectedNodesBitField_ok hget
      exact ⟨.refl _, fun _ _ hi => hi⟩
  | resetTxCredits =>
      cases hs
      exact ⟨.withTxManager rfl, fun hc => absurd rfl hc⟩

end Step

section Post

variable {master m₁ m₂ m₃ : Master} {k n : Nat}

theorem masterTx_next (h : masterTx m₁ = .ok m₂) :
    m₁.tx.Next m₁.nwManager m₂.tx ∧ m₂.masterNodeTimeToLive = m₁.masterNodeTimeToLive := by
  obtain ⟨tx, htx, h⟩ := bind_eq_ok.mp h
  cases h
  exact ⟨masterProcessTx_ok htx, rfl⟩

theorem MasterTx.FrameInv.rx (h : master.tx.FrameInv) (h₁ : masterRx master = .ok (k, m₁)) : m₁.tx.FrameInv := by
  obtain ⟨htx, hpackets⟩ := masterRx_choice h₁
  refine h.congr ?_
  rw [htx]
  exact .withTxManager hpackets.size

theorem postProcess_frameInv (h : master.tx.FrameInv) (h₁ : masterRx master = .ok (k, m₁))
    (h₂ : masterTx m₁ = .ok m₂) (h₃ : masterRemoveAnyTimeoutNodes m₂ = .ok (n, m₃)) : m₃.tx.FrameInv :=
  ((h.rx h₁).next (masterTx_next h₂).1).congr (masterRemoveAny_choice h₃)

/-- The packet that is to be sent next stays in use unless its node is removed in the same slot. -/
theorem postProcess_nextInUse_iff (h₁ : masterRx master = .ok (k, m₁)) (h₂ : masterTx m₁ = .ok m₂)
    (h₃ : masterRemoveAnyTimeoutNodes m₂ = .ok (n, m₃)) :
    (∀ i, m₃.tx.nextTxPacket = some (.entry i) → (m₃.tx.txManager.entry i).inUse = true) ↔
    master.SparesNextPacket := by
  obtain ⟨hnext, httl⟩ := masterTx_next h₂
  have hremoved := fun i => masterRemoveAny_inUse (i := i) h₃
  have hspares : master.SparesNextPacket ↔ ∀ d, m₁.tx.DataTurn m₁.nwManager →
      m₁.tx.txManager.turn true masterBurstSize = some d → Station d →
        m₁.masterNodeTimeToLive d ≠ removeNodeTTL := by
    constructor
    · exact fun h d => h k m₁ d h₁
    · intro h k' m' d hm'
      cases h₁.symm.trans hm'
      exact h d
  rw [(masterRemoveAny_choice h₃).nextTxPacket, hspares]
  generalize m₂.tx = tx at hnext hremoved ⊢
  cases hnext with
  | reset hreset => exact iff_of_true nofun fun _ hdata => absurd hdata.noReset (Nat.pos_iff_ne_zero.mp hreset)
  | response hreset hnew hcycle => exact iff_of_true nofun fun _ hdata => absurd ⟨hnew, hcycle⟩ hdata.noNewNodes
  | empty hdata hget =>
      refine iff_of_true nofun fun d _ hturn => ?_
      rw [masterGetNext_turn hget] at hturn
      cases hturn
  | @data i m hdata hget =>
      obtain ⟨d, hturn, hlt, huse, hdst⟩ := masterGetNext_turn hget
      obtain ⟨queue, -, hround⟩ := masterGetNextTxDataPacket_ok hget
      have hentry : m.entry i = m₁.tx.txManager.entry i := hround.sameStore.entry i
      have hiff := hremoved i (hlt.trans_eq hround.sameStore.size.symm)
      dsimp only at hiff
      rw [hentry, hdst, httl, and_iff_right huse] at hiff
      constructor
      · intro h x _ hx hstation hdue
        rw [hturn] at hx
        cases hx
        exact hiff.mp (h i rfl) ⟨hstation, hdue⟩
      · rintro h j hj
        cases hj
        exact hiff.mpr fun hc => h d hdata hturn hc.1 hc.2

end Post

section Emitter

variable {cfg : MasterConfig} {s s' : OnWire MasterRun} {a : MasterAction cfg.mode}

/-- The frame on the wire between the two parts of a slot is the one that was chosen. -/
structure MasterEmits (s : OnWire MasterRun) : Prop where
  frame : s.device.master.tx.FrameInv
  wire : s.last = some .pre → s.wire = s.device.master.tx.nextTxPacket
  silent : s.last = none → s.wire = none

theorem MasterEmits.start (h : ((masterEmitter cfg.mode).system (masterSystem cfg)).init s) :
    MasterEmits s ∧ s.device.master.tx.chosen = none := by
  obtain ⟨⟨entries, hinit, -, -⟩, hwire, hlast⟩ := h
  obtain ⟨rx, -, hinit⟩ := bind_eq_ok.mp hinit
  injection hinit with hmaster
  refine ⟨⟨?_, fun hc => ?_, fun _ => hwire⟩, ?_⟩
  · rw [← hmaster]
    refine ⟨Nat.zero_lt_succ 3, nofun, ⟨.masterEmpty, rfl⟩, fun _ htype => ?_, nofun⟩
    rw [(Packet.isType_of_byte (t := .masterEmpty) rfl).type] at htype
    cases htype
  · rw [hlast] at hc
    cases hc
  · rw [← hmaster]
    rfl

theorem MasterEmits.frame_step (h : s.device.master.tx.FrameInv) (hmode : cfg.mode = .dual) {r : MasterRun}
    (hs : s.device.step a = .ok r) : r.master.tx.FrameInv := by
  by_cases hpost : a.part = some .post
  · generalize cfg.mode = mode at a hmode
    cases a with
    | postProcess =>
        obtain ⟨⟨k, m⟩, hslot, hs⟩ := bind_eq_ok.mp hs
        cases hs
        obtain ⟨m₁, m₂, k₁, k₂, h₁, h₂, h₃⟩ := postProcess_ok hslot
        exact postProcess_frameInv h h₁ h₂ h₃
    | _ => cases hpost
  · exact h.congr (step_choice hmode hpost hs).1

theorem MasterEmits.step (h : MasterEmits s) (hmode : cfg.mode = .dual)
    (hs : ((masterEmitter cfg.mode).system (masterSystem cfg)).step s a = .ok s') : MasterEmits s' := by
  obtain ⟨hstep, hwire, hlast⟩ := Emitter.step_ok hs
  have hframe := MasterEmits.frame_step h.frame hmode hstep
  cases hpart : a.part with
  | none =>
      rw [show (masterEmitter cfg.mode).part a = none from hpart] at hwire hlast
      have hsame := (step_choice hmode (by rw [hpart]; nofun) hstep).1
      have hlast' : s'.last = s.last := hlast
      have hwire' : s'.wire = s.wire := hwire
      refine ⟨hframe, ?_, ?_⟩
      · rw [hlast', hwire', hsame.nextTxPacket]
        exact h.wire
      · rw [hlast', hwire']
        exact h.silent
  | some part =>
      rw [show (masterEmitter cfg.mode).part a = some part from hpart] at hwire hlast
      have hlast' : s'.last = some part := hlast
      refine ⟨hframe, fun hc => ?_, fun hc => ?_⟩
      · rw [hlast'] at hc
        rw [if_pos hc] at hwire
        exact hwire
      · rw [hlast'] at hc
        cases hc

theorem clearBuffers_inUse (m : TxManager) {i : Nat} (hi : i < m.size) :
    ((masterTxClearBuffers m).entry i).inUse = false := by
  unfold masterTxClearBuffers TxManager.entry
  dsimp only
  split
  · rfl
  · rename_i hfree
    exact Bool.not_eq_true _ ▸ fun huse => hfree ⟨hi, huse⟩

theorem MasterTx.chosen_eq_none {tx : MasterTx} : tx.chosen = none ↔ ∀ i, tx.nextTxPacket ≠ some (.entry i) := by
  unfold MasterTx.chosen
  split
  · rename_i i hi
    exact iff_of_false nofun fun hc => hc i hi
  · rename_i hno
    exact iff_of_true rfl hno

theorem nextInUse_step_iff {mode : ChannelMode} {a : MasterAction mode} {r : MasterRun} (hmode : mode = .dual)
    (hframe : s.device.master.tx.FrameInv) (hin : (masterEmitter mode).NextInUse s.device)
    (hs : s.device.step a = .ok r) :
    (masterEmitter mode).NextInUse r ↔ MasterKeepsNext s a := by
  have hkept : a.part ≠ some .post → a ≠ .resetTxCredits → (masterEmitter mode).NextInUse r := by
    intro hpost hreset i hi
    obtain ⟨hsame, huse⟩ := step_choice hmode hpost hs
    exact huse hreset i (hin i (hsame.nextTxPacket.symm.trans hi))
  cases a with
  | postProcess =>
      obtain ⟨⟨k, m⟩, hslot, hs⟩ := bind_eq_ok.mp hs
      cases hs
      obtain ⟨m₁, m₂, k₁, k₂, h₁, h₂, h₃⟩ := postProcess_ok hslot
      exact postProcess_nextInUse_iff h₁ h₂ h₃
  | resetTxCredits =>
      cases hs
      change (∀ i, s.device.master.tx.nextTxPacket = some (.entry i) →
        ((masterTxClearBuffers s.device.master.tx.txManager).entry i).inUse = true) ↔ s.device.master.tx.chosen = none
      rw [MasterTx.chosen_eq_none]
      refine forall_congr' fun i => imp_congr_right fun hi => ?_
      rw [clearBuffers_inUse _ (hframe.entry i hi)]
      exact iff_false_intro nofun
  | _ => exact iff_of_true (hkept nofun nofun) trivial

theorem masterTx_total {m₁ : Master} (h : ¬ m₁.tx.DataTurn m₁.nwManager) :
    ∃ m₂, masterTx m₁ = .ok m₂ := by
  obtain ⟨tx, htx⟩ : ∃ tx, masterProcessTx m₁.tx m₁.nwManager = .ok tx := by
    unfold masterProcessTx
    split
    · exact ⟨_, rfl⟩
    · rename_i hreset
      dsimp only
      rw [if_pos]
      · exact ⟨_, rfl⟩
      · by_contra hnew
        exact h ⟨Nat.eq_zero_of_not_pos hreset, hnew⟩
  exact ⟨{ m₁ with tx }, bind_eq_ok.mpr ⟨tx, htx, rfl⟩⟩

theorem setType_eq_self_iff {p : Packet} {t : PacketType}
    (h : ∃ t : PacketType, p.protocolVersionAndPacketType = (microbusVersion <<< 4) ||| (t.code &&& 0xF)) :
    p.setProtocolVersionAndPacketType t = p ↔ p.getPacketType = some t := by
  constructor
  · intro heq
    rw [← heq]
    exact (Packet.isType_of_byte (t := t) rfl).type
  · intro htype
    obtain ⟨t', hbyte⟩ := h
    rw [(Packet.isType_of_byte hbyte).type] at htype
    cases htype
    unfold Packet.setProtocolVersionAndPacketType
    rw [← hbyte]

/-- The shared buffer stays as it is when a reset follows a reset or a data frame is chosen. -/
theorem masterTx_tmpPacket_iff {master m₁ m₂ : Master} {k : Nat} (h : master.tx.FrameInv)
    (hnext : master.tx.nextTxPacket = some .tmpPacket) (h₁ : masterRx master = .ok (k, m₁))
    (h₂ : masterTx m₁ = .ok m₂) :
    m₂.tx.tmpPacket = master.tx.tmpPacket ↔
      (0 < master.tx.masterResetCycles → master.tx.tmpPacket.getPacketType = some .masterReset) ∧
        (master.tx.masterResetCycles = 0 → m₁.tx.DataTurn m₁.nwManager) := by
  have htx := (masterRx_choice h₁).1
  have hchosen := (masterTx_next h₂).1
  have htmp : m₁.tx.tmpPacket = master.tx.tmpPacket := by rw [htx]
  have hcycles : m₁.tx.masterResetCycles = master.tx.masterResetCycles := by rw [htx]
  have hcycle : m₁.tx.tmpPacketCycle = master.tx.tmpPacketCycle := by rw [htx]
  rw [← hcycles]
  generalize m₂.tx = tx at hchosen ⊢
  cases hchosen with
  | reset hreset =>
      rw [and_iff_left fun hc => absurd hc (Nat.pos_iff_ne_zero.mp hreset), imp_iff_right hreset, htmp]
      exact setType_eq_self_iff h.typed
  | response hreset hnew hone =>
      refine iff_of_false (fun hc => ?_) fun hc => (hc.2 hreset).noNewNodes ⟨hnew, hone⟩
      -- a response in the buffer was built in cycle 1, two cycles before the next one
      have htype := (txNewNodeResponse_isType m₁.nwManager m₁.tx.tmpPacket).type
      have hbefore := h.response hnext (hc ▸ htype)
      unfold MasterTx.nextCycle at hone
      rw [hcycle, hbefore] at hone
      exact absurd hone (by decide)
  | empty hdata hget => exact iff_of_true htmp ⟨fun hc => absurd hdata.noReset (Nat.pos_iff_ne_zero.mp hc),
      fun _ => hdata⟩
  | data hdata hget => exact iff_of_true htmp ⟨fun hc => absurd hdata.noReset (Nat.pos_iff_ne_zero.mp hc),
      fun _ => hdata⟩

/-- The shared buffer is rewritten exactly when a frame of another kind is built in it. -/
theorem sparesTmpPacket_iff {master : Master} (h : master.tx.FrameInv)
    (hnext : master.tx.nextTxPacket = some .tmpPacket) :
    (∀ m, master.PassesPost m → m.tx.tmpPacket = master.tx.tmpPacket) ↔ master.SparesTmpPacket := by
  constructor
  · intro hall k m₁ h₁
    by_cases hdata : m₁.tx.DataTurn m₁.nwManager
    · have hcycles : m₁.tx.masterResetCycles = master.tx.masterResetCycles := by rw [(masterRx_choice h₁).1]
      refine ⟨fun hc => ?_, fun _ => hdata⟩
      rw [← hcycles] at hc
      exact absurd hdata.noReset (Nat.pos_iff_ne_zero.mp hc)
    · obtain ⟨m₂, h₂⟩ := masterTx_total hdata
      exact (masterTx_tmpPacket_iff h hnext h₁ h₂).mp (hall m₂ (.tx h₁ h₂))
  · intro hspares m hm
    cases hm with
    | rx h₁ => rw [(masterRx_choice h₁).1]
    | tx h₁ h₂ => exact (masterTx_tmpPacket_iff h hnext h₁ h₂).mpr (hspares _ _ h₁)
    | remove h₁ h₂ h₃ =>
        have hsame := (masterRemoveAny_frames h₃).deref .tmpPacket
        exact hsame.trans ((masterTx_tmpPacket_iff h hnext h₁ h₂).mpr (hspares _ _ h₁))

theorem masterRx_frames {master m₁ : Master} {k : Nat} (h₁ : masterRx master = .ok (k, m₁)) :
    master.SameFrames m₁ := by
  obtain ⟨htx, hpackets⟩ := masterRx_choice h₁
  exact .of_packets htx hpackets.packet

/-- What is not in the shared buffer stays: packets are not written to, and the empty header that is written to is not
the one on the wire. -/
theorem masterTx_deref {m₁ m₂ : Master} (h : m₁.tx.FrameInv) {r : TxRef} (hnext : m₁.tx.nextTxPacket = some r)
    (hr : r ≠ .tmpPacket) (h₂ : masterTx m₁ = .ok m₂) : m₂.tx.deref r = m₁.tx.deref r := by
  have hchosen := (masterTx_next h₂).1
  generalize m₂.tx = tx at hchosen ⊢
  cases r with
  | tmpPacket => exact absurd rfl hr
  | entry i =>
      cases hchosen with
      | reset _ => rfl
      | response _ _ _ => rfl
      | empty _ hget => exact (masterGetNext_packets hget).packet i
      | data _ hget => exact (masterGetNext_packets hget).packet i
  | tmpEmptyPacketHeader j =>
      cases hchosen with
      | reset _ => rfl
      | response _ _ _ => rfl
      | data _ _ => rfl
      | empty _ _ =>
          have hj := h.header j hnext
          have hcycle := h.cycle
          refine Function.update_of_ne ?_ _ m₁.tx.tmpEmptyPacketHeader
          unfold MasterTx.nextCycle
          split <;> omega

theorem passesPost_deref {master m : Master} (h : master.tx.FrameInv) {r : TxRef}
    (hnext : master.tx.nextTxPacket = some r)
    (hr : r ≠ .tmpPacket) (hm : master.PassesPost m) : m.tx.deref r = master.tx.deref r := by
  have hrx : ∀ {k m₁}, masterRx master = .ok (k, m₁) →
      m₁.tx.FrameInv ∧ m₁.tx.nextTxPacket = some r ∧ m₁.tx.deref r = master.tx.deref r := fun h₁ =>
    have hsame := masterRx_frames h₁
    ⟨h.rx h₁, hsame.nextTxPacket.trans hnext, hsame.deref r⟩
  cases hm with
  | rx h₁ => exact (hrx h₁).2.2
  | tx h₁ h₂ =>
      obtain ⟨hframe, hnext', hsame⟩ := hrx h₁
      exact (masterTx_deref hframe hnext' hr h₂).trans hsame
  | remove h₁ h₂ h₃ =>
      obtain ⟨hframe, hnext', hsame⟩ := hrx h₁
      exact ((masterRemoveAny_frames h₃).deref r).trans ((masterTx_deref hframe hnext' hr h₂).trans hsame)

theorem masterAllocated_iff (mode : ChannelMode) {s : MasterRun} {i : Nat} :
    masterAllocated s (.allocate : MasterAction mode) = some i ↔ s.master.tx.txManager.Offers i := by
  rw [← allocateTxPacket_some_iff]
  unfold masterAllocated masterAllocateTxPacket
  cases allocateTxPacket s.master.tx.txManager with
  | error e => exact iff_of_false nofun fun hc => Completes.not_error ⟨_, hc.choose_spec⟩
  | ok r =>
      obtain ⟨r, m⟩ := r
      constructor
      · rintro hr
        obtain rfl : r = some i := hr
        exact ⟨m, rfl⟩
      · rintro ⟨m', hm'⟩
        cases hm'
        rfl

theorem MasterEmits.frame_iff {mode : ChannelMode} {a : MasterAction mode} (h : MasterEmits s)
    (halt : (masterEmitter mode).guard s a) : (masterEmitter mode).FrameIsStable s a ↔ MasterSpares s a := by
  cases a with
  | postProcess =>
      -- the wire carries nothing before the first slot, and then the frame that was chosen
      have hwire : s.wire = none ∨ s.wire = s.device.master.tx.nextTxPacket := by
        cases hlast : s.last with
        | none => exact Or.inl (h.silent hlast)
        | some part =>
            cases part with
            | pre => exact Or.inr (h.wire hlast)
            | post => exact absurd hlast (halt .post rfl)
      rcases hwire with hwire | hwire
      · refine iff_of_true (fun r hr => ?_) fun hc => ?_
        · rw [hwire] at hr
          cases hr
        · rw [hwire] at hc
          cases hc
      · constructor
        · intro hstable htmp
          have hnext : s.device.master.tx.nextTxPacket = some .tmpPacket := hwire.symm.trans htmp
          exact (sparesTmpPacket_iff h.frame hnext).mp fun m hm => (hstable _ htmp).1 { s.device with master := m } hm
        · intro hspares r hr
          refine ⟨fun d hd => ?_, nofun⟩
          have hnext : s.device.master.tx.nextTxPacket = some r := hwire.symm.trans hr
          by_cases htmp : r = .tmpPacket
          · subst htmp
            exact (sparesTmpPacket_iff h.frame hnext).mpr (hspares hr) d.master hd
          · exact passesPost_deref h.frame hnext htmp hd
  | allocate =>
      have hiff : ∀ i, (masterEmitter mode).allocated s.device .allocate = some i ↔
        s.device.master.tx.txManager.Offers i :=
        fun i => masterAllocated_iff mode
      constructor
      · intro hstable i hi hoffers
        exact (hstable _ hi).2 i ((hiff i).mpr hoffers) rfl
      · intro hspares r hr
        refine ⟨fun d hd => hd.elim, fun i hi hri => ?_⟩
        rw [hri] at hr
        exact hspares i hr ((hiff i).mp hi)
  | _ => exact iff_of_true (Emitter.frameIsStable_of_idle (fun _ => id) rfl) trivial

theorem master_frames_stable (hmode : cfg.mode = .dual) :
    (masterEmitter cfg.mode).StableWhen (masterSystem cfg) fun s a => MasterKeepsNext s a ∧ MasterSpares s a := by
  refine Emitter.stableWhen (I := fun s => MasterEmits s ∧ (masterEmitter cfg.mode).NextInUse s.device)
    ?_ (fun _ h => h.2) ?_ ?_ ?_
  · intro s hinit
    obtain ⟨hemits, hnone⟩ := MasterEmits.start hinit
    exact ⟨hemits, fun i hi => absurd hi (MasterTx.chosen_eq_none.mp hnone i)⟩
  · rintro s a s' ⟨h, hin⟩ hkeeps hs
    exact ⟨h.step hmode hs, (nextInUse_step_iff hmode h.frame hin (Emitter.step_ok hs).1).mpr hkeeps⟩
  · rintro s a s' ⟨h, hin⟩ hkeeps hs hc
    exact hkeeps ((nextInUse_step_iff hmode h.frame hin (Emitter.step_ok hs).1).mp hc)
  · rintro s a s' ⟨h, -⟩ halt -
    exact h.frame_iff halt

end Emitter

end Microbus
