import Microbus.NodeFrames

/-! The frames that a master sends, and the ids that they give to nodes. -/
namespace Microbus

open Transition

/-- Every row that a response may copy, also a stale one behind the rows in use, has the id of a station. -/
def NetworkManager.Assigned (nw : NetworkManager) : Prop := ∀ i, nw.newNodeUniqueId i > 0 → Station (nw.newNodeId i)

namespace NetworkManager.Assigned

variable {nw nw' : NetworkManager} {d : TNodeIndex}

theorem of_rows (h : nw.Assigned)
    (hrows : ∀ k, ∃ j, nw'.newNodeUniqueId k = nw.newNodeUniqueId j ∧ nw'.newNodeId k = nw.newNodeId j) :
    nw'.Assigned := by
  intro k hk
  obtain ⟨j, huid, hid⟩ := hrows k
  rw [huid] at hk
  rw [hid]
  exact h j hk

theorem remove (h : nw.Assigned) {found : Bool} (hr : networkManagerRemoveNewNodeRequest nw d = .ok (found, nw')) :
    nw'.Assigned := by
  unfold networkManagerRemoveNewNodeRequest at hr
  split at hr
  · cases hr
    exact h
  · rename_i i _
    obtain ⟨_, -, hr⟩ := bind_eq_ok.mp hr
    cases hr
    apply h.of_rows
    intro k
    obtain ⟨huid, hid⟩ := shiftNewNodes_apply i nw.numNewNodes nw k
    by_cases hk : i ≤ k ∧ k + 1 < nw.numNewNodes
    · rw [if_pos hk] at huid hid
      exact ⟨k + 1, huid, hid⟩
    · rw [if_neg hk] at huid hid
      exact ⟨k, huid, hid⟩

theorem register (h : nw.Assigned) {ttl ttl' : TimeToLive} {uniqueId : UInt64}
    (hr : networkManagerRegisterNewNode nw ttl uniqueId = .ok (nw', ttl')) : nw'.Assigned := by
  rcases networkManagerRegisterNewNode_ok hr with ⟨rfl, -⟩ | ⟨active, -, -, hid, -, rfl, -⟩
  · exact h
  · obtain ⟨hfirst, hlast, -⟩ := getNextFreeNodeId_free hid
    intro k hk
    by_cases hnew : k = nw.numNewNodes
    · subst hnew
      simp only [Function.update_self]
      exact ⟨hfirst, hlast⟩
    · simp only [Function.update_of_ne hnew] at hk ⊢
      exact h k hk

end NetworkManager.Assigned

theorem keptByNetwork_assigned : KeptByNetwork fun master => master.nwManager.Assigned where
  same h hs := by rw [hs.nwManager]; exact h
  updateSchedule h hs := by
    obtain ⟨_, _, _, queues, -, -, rfl⟩ := masterUpdateSchedule_ok hs
    exact h
  quickRx h hq := by
    obtain ⟨rx, nw, ttl, m, rfl, hanswered, -, -⟩ := masterQuickRx_ok hq
    rcases hanswered with rfl | ⟨found, hremove⟩
    · exact h
    · exact h.remove hremove
  rx h hr := by
    rcases masterRx_ok hr with ⟨-, rfl⟩ | ⟨_, _, _, _, _, nw, ttl, -, -, rfl, hresult⟩
    · exact h
    · cases hresult with
      | ignored _ => exact h
      | acked _ _ => exact h
      | stored _ _ _ _ _ => exact h
      | registered _ hrequest =>
          obtain ⟨_, -, hrequest⟩ := bind_eq_ok.mp hrequest
          obtain ⟨uniqueId, -, hregister⟩ := bind_eq_ok.mp hrequest
          exact h.register hregister
  updateTimeUs usIncr h := by
    rename_i master
    obtain ⟨us, ttl, heq, -⟩ := masterUpdateTimeUs_eq master usIncr
    rw [heq]
    exact h
  connected h := h

theorem assigned_of_reachable {cfg : MasterConfig} {s : MasterRun} (h : (masterSystem cfg).Reachable s) :
    s.master.nwManager.Assigned := by
  refine keptByNetwork_assigned.reachable ?_ ?_ h
  · intro numTx maxTx maxRx entries master hi
    obtain ⟨rx, -, hi⟩ := bind_eq_ok.mp hi
    cases hi
    exact fun k hk => absurd hk (UInt64.lt_irrefl 0)
  · intro master master' d k _ hm hr
    rcases masterRemoveIfTimedOut_ok hr with ⟨-, rfl⟩ | ⟨_, _, nw, _, _, -, hrequest, -, -, rfl⟩
    · exact hm
    · have hnw : nw.Assigned := hm.remove hrequest
      exact hnw

/-- A response to nodes without an id gives each of them the id of a station. -/
def Packet.Proposes (p : Packet) : Prop :=
  p.dstNodeId = unallocatedNodeId → p.getPacketType = some .newNodeResponse →
    ∀ j < p.numEntries, Station (p.entryNodeId j)

theorem Packet.SameMessage.proposes {p p' : Packet} (h : p.SameMessage true p') (hp : p.Proposes) : p'.Proposes := by
  have hdst : p'.dstNodeId = p.dstNodeId := h.station
  have htype : p'.getPacketType = p.getPacketType := by
    unfold Packet.getPacketType
    rw [h.type]
  have hnum : p'.numEntries = p.numEntries := by
    unfold Packet.numEntries Packet.getPacketDataSize
    rw [h.dataSize1, h.dataSize2]
  have hentry : ∀ j, p'.entryNodeId j = p.entryNodeId j := by
    intro j
    unfold Packet.entryNodeId
    rw [h.data]
  unfold Packet.Proposes
  simp only [hdst, htype, hnum, hentry]
  exact hp

theorem entryNodeId_setEntry (p : Packet) (uniqueId : UInt64) (nodeId : TNodeIndex) {num j : Nat} (hj : j ≤ num)
    (hnum : num < maxResponseEntries) :
    ((p.setUniqueId (num * newNodeResponseEntrySize) uniqueId).setData (8 + num * newNodeResponseEntrySize)
        nodeId).entryNodeId j =
      if j = num then nodeId else p.entryNodeId j := by
  have hfield : j * newNodeResponseEntrySize + 8 < masterPacketDataSize := by
    change num < 19 at hnum
    change j * 9 + 8 < 178
    omega
  unfold Packet.entryNodeId
  rw [dif_pos hfield, dif_pos hfield]
  unfold Packet.setData Packet.setUniqueId
  dsimp only
  have hafter : num * newNodeResponseEntrySize = num * 9 := rfl
  have hbefore : j * newNodeResponseEntrySize = j * 9 := rfl
  by_cases heq : j = num
  · rw [if_pos (by omega), if_pos heq]
  · rw [if_neg (by omega), if_neg (by omega), if_neg heq]

theorem newNodeResponseLoop_proposes {nw : NetworkManager} (hnw : nw.Assigned) (maxNum : Nat) :
    ∀ fuel i num (p : Packet),
    num + fuel ≤ maxResponseEntries → (∀ j < num, Station (p.entryNodeId j)) →
      (newNodeResponseLoop nw maxNum fuel i num p).1 ≤ num + fuel ∧
        ∀ j < (newNodeResponseLoop nw maxNum fuel i num p).1,
          Station ((newNodeResponseLoop nw maxNum fuel i num p).2.entryNodeId j) := by
  intro fuel
  induction fuel with
  | zero => exact fun i num p _ hp => ⟨Nat.le_refl num, hp⟩
  | succ fuel ih =>
      intro i num p hroom hp
      unfold newNodeResponseLoop
      split
      · rename_i hrow
        dsimp only
        have hnext : ∀ j < num + 1, Station (((p.setUniqueId (num * newNodeResponseEntrySize)
            (nw.newNodeUniqueId i)).setData (8 + num * newNodeResponseEntrySize) (nw.newNodeId i)).entryNodeId j) := by
          intro j hj
          rw [entryNodeId_setEntry p _ _ (Nat.lt_succ_iff.mp hj) (by omega)]
          split
          · exact hnw i hrow
          · exact hp j (by omega)
        split
        · exact ⟨by omega, hnext⟩
        · obtain ⟨hle, hstations⟩ := ih (i + 1) (num + 1) _ (by omega) hnext
          exact ⟨by omega, hstations⟩
      · obtain ⟨hle, hstations⟩ := ih (i + 1) num p (by omega) hp
        exact ⟨by omega, hstations⟩

theorem txNewNodeResponse_proposes {nw : NetworkManager} (hnw : nw.Assigned) (p : Packet) :
    (txNewNodeResponse nw p).Proposes := by
  unfold txNewNodeResponse
  dsimp only
  generalize min nw.numNewNodes (masterPacketDataSize / newNodeResponseEntrySize) = maxNum
  obtain ⟨hle, hstations⟩ := newNodeResponseLoop_proposes hnw maxNum maxNodesAllocatedAtOnce 0 0
    { p.setProtocolVersionAndPacketType .newNodeResponse with dstNodeId := unallocatedNodeId } (by decide)
    (fun j hj => absurd hj (Nat.not_lt_zero j))
  generalize newNodeResponseLoop nw maxNum maxNodesAllocatedAtOnce 0 0 _ = r at hle hstations ⊢
  obtain ⟨num, q⟩ := r
  intro _ _ j hj
  change num ≤ 10 at hle
  have hnum : (q.setPacketDataSize (UInt16.ofNat (num * newNodeResponseEntrySize))).numEntries = num := by
    unfold Packet.numEntries
    rw [Packet.getPacketDataSize_set, UInt16.toNat_ofNat_of_lt' (by change num * 9 < 65536; omega)]
    change num * 9 / 9 % 256 = num
    omega
  rw [hnum] at hj
  exact hstations j hj

theorem newNodeResponseLoop_type {nw : NetworkManager} {maxNum : Nat} : ∀ fuel i num (p : Packet),
    (newNodeResponseLoop nw maxNum fuel i num p).2.protocolVersionAndPacketType = p.protocolVersionAndPacketType := by
  intro fuel
  induction fuel with
  | zero => exact fun _ _ _ => rfl
  | succ fuel ih =>
      intro i num p
      unfold newNodeResponseLoop
      split
      · dsimp only
        split
        · rfl
        · exact ih _ _ _
      · exact ih _ _ _

theorem txNewNodeResponse_byte (nw : NetworkManager) (p : Packet) :
    (txNewNodeResponse nw p).protocolVersionAndPacketType =
      (microbusVersion <<< 4) ||| (PacketType.newNodeResponse.code &&& 0xF) := by
  unfold txNewNodeResponse
  dsimp only
  exact newNodeResponseLoop_type maxNodesAllocatedAtOnce 0 0
    { p.setProtocolVersionAndPacketType .newNodeResponse with dstNodeId := unallocatedNodeId }

theorem txNewNodeResponse_isType (nw : NetworkManager) (p : Packet) :
    (txNewNodeResponse nw p).IsType .newNodeResponse :=
  Packet.isType_of_byte (txNewNodeResponse_byte nw p)

/-- What the master is about to send, before the schedule is filled in. -/
inductive MasterFrame (master : Master) : Packet → Prop
  | reset : 0 < master.tx.masterResetCycles →
      MasterFrame master (master.tx.tmpPacket.setProtocolVersionAndPacketType .masterReset)
  | response : master.tx.masterResetCycles = 0 →
      MasterFrame master (txNewNodeResponse master.nwManager master.tx.tmpPacket)
  | empty (i : Nat) : master.tx.masterResetCycles = 0 →
      MasterFrame master
        { (master.tx.tmpEmptyPacketHeader i).setProtocolVersionAndPacketType .masterEmpty with
          dataSize1 := 0, dataSize2 := 0, dstNodeId := invalidNodeId }
  | data {queue d i} : master.tx.masterResetCycles = 0 → master.tx.txManager.activeTxNodes = some queue →
      d ∈ queue.toList → d.toNat < master.tx.txManager.maxTxNodes →
      ¬ master.tx.txManager.Idle d → ¬ master.tx.txManager.AtWindowEnd d →
      findPacketEntry master.tx.txManager.packetStore d (master.tx.txManager.txSeqNumNext d) true = .ok i →
      MasterFrame master (master.tx.txManager.entry i).packet

/-- The frame that is chosen stays as it is. -/
structure Master.SameFrames (master master' : Master) : Prop where
  nextTxPacket : master'.tx.nextTxPacket = master.tx.nextTxPacket
  deref : ∀ r, master'.tx.deref r = master.tx.deref r

section Frame

variable {master master' master'' : Master}

theorem Master.SameFrames.refl (master : Master) : master.SameFrames master := ⟨rfl, fun _ => rfl⟩

theorem Master.SameFrames.trans (h : master.SameFrames master') (h' : master'.SameFrames master'') :
    master.SameFrames master'' :=
  ⟨h'.nextTxPacket.trans h.nextTxPacket, fun r => (h'.deref r).trans (h.deref r)⟩

theorem Master.SameFrames.of_packets {m : TxManager} (htx : master'.tx = { master.tx with txManager := m })
    (hm : ∀ i, (m.entry i).packet = (master.tx.txManager.entry i).packet) : master.SameFrames master' where
  nextTxPacket := by rw [htx]
  deref r := by
    rw [htx]
    cases r with
    | entry i => exact hm i
    | tmpPacket => rfl
    | tmpEmptyPacketHeader i => rfl

theorem masterUpdateSchedule_frames (h : masterUpdateSchedule master = .ok master') : master.SameFrames master' := by
  obtain ⟨_, _, _, _, -, -, rfl⟩ := masterUpdateSchedule_ok h
  exact .of_packets rfl fun _ => rfl

theorem masterQuickRx_frames {crcError : Bool} (h : masterQuickRx master crcError = .ok master') :
    master.SameFrames master' := by
  obtain ⟨rx, nw, ttl, m, rfl, -, -, hresult⟩ := masterQuickRx_ok h
  refine .of_packets rfl fun i => ?_
  cases hresult with
  | dropped _ => rfl
  | kept _ _ _ => rfl
  | inOrder _ _ _ _ => rfl

theorem masterRemoveAny_frames {k : Nat} (h : masterRemoveAnyTimeoutNodes master = .ok (k, master')) :
    master.SameFrames master' := by
  refine masterRemoveAnyTimeoutNodes_induction (P := fun m => master.SameFrames m) ?_ (.refl master) h
  intro d _ _ m k m' hm hone
  rcases masterRemoveIfTimedOut_ok hone with ⟨-, rfl⟩ | ⟨_, _, _, _, _, -, -, hremove, -, rfl⟩
  · exact hm
  · exact hm.trans (.of_packets rfl (masterTxManagerRemoveNode_packets hremove).packet)

theorem masterTx_frame (h : masterTx master = .ok master') :
    ∃ r, master'.tx.nextTxPacket = some r ∧ MasterFrame master (master'.tx.deref r) := by
  obtain ⟨tx, htx, h⟩ := bind_eq_ok.mp h
  cases h
  unfold masterProcessTx at htx
  split at htx
  · rename_i hreset
    cases htx
    exact ⟨_, rfl, .reset hreset⟩
  · rename_i hreset
    have hreset : master.tx.masterResetCycles = 0 := Nat.eq_zero_of_not_pos hreset
    dsimp only at htx
    generalize (if master.tx.tmpPacketCycle + 1 ≥ 4 then 0 else master.tx.tmpPacketCycle + 1) = cycle at htx
    split at htx
    · cases htx
      exact ⟨_, rfl, .response hreset⟩
    · obtain ⟨⟨r, m⟩, hget, htx⟩ := bind_eq_ok.mp htx
      cases r with
      | none =>
          cases htx
          refine ⟨_, rfl, ?_⟩
          simp only [MasterTx.deref, Function.update_self]
          exact .empty _ hreset
      | some e =>
          obtain ⟨_, -, htx⟩ := bind_eq_ok.mp htx
          cases htx
          refine ⟨_, rfl, ?_⟩
          have hpacket : (m.entry e).packet = (master.tx.txManager.entry e).packet :=
            (masterGetNext_packets hget).packet e
          obtain ⟨queue, hqueue, p, i, c, -, ⟨hc, -⟩ | ⟨d, e', hmem, he, hidle, hend, hd, hfind, -⟩⟩ :=
            masterGetNextTxDataPacket_ok hget
          · cases hc
          · cases he
            change MasterFrame master (m.entry e).packet
            rw [hpacket]
            exact .data hreset hqueue hmem hd hidle hend hfind

theorem masterQuickTx_frame {r : TxRef} (hr : master.tx.nextTxPacket = some r) (stray : TNodeIndex → UInt8) :
    masterTxGetNextTxPacket (masterQuickTx master stray).tx =
      some (fillSchedule master.tx.txManager master.scheduler.numTxNodesScheduled master.nextTxNodeId stray
        (master.tx.deref r)) := by
  unfold masterTxGetNextTxPacket masterQuickTx masterQuickUpdateTxPacket
  rw [hr]
  dsimp only
  cases r with
  | entry i =>
      simp only [MasterTx.assign, MasterTx.deref, hr, Option.map_some, PacketStore.setPacket, Function.update_self]
  | tmpPacket => simp only [MasterTx.assign, MasterTx.deref, hr, Option.map_some]
  | tmpEmptyPacketHeader i =>
      simp only [MasterTx.assign, MasterTx.deref, hr, Option.map_some, Function.update_self]

theorem processTx_frame {stray : TNodeIndex → UInt8} {k : Nat} {frame : Option Packet}
    (h : masterNoDelaySingleChannelProcessTx master stray = .ok (k, master', frame)) :
    ∃ m₁ m₂ p, masterTx master = .ok m₁ ∧ masterUpdateSchedule m₁ = .ok m₂ ∧
      masterRemoveAnyTimeoutNodes (masterQuickTx m₂ stray) = .ok (k, master') ∧ MasterFrame master p ∧
      frame = some (fillSchedule m₂.tx.txManager m₂.scheduler.numTxNodesScheduled m₂.nextTxNodeId stray p) := by
  obtain ⟨m₁, h₁, h⟩ := bind_eq_ok.mp h
  obtain ⟨m₂, h₂, h⟩ := bind_eq_ok.mp h
  obtain ⟨⟨k', m₃⟩, h₃, h⟩ := bind_eq_ok.mp h
  cases h
  obtain ⟨r, hr, hframe⟩ := masterTx_frame h₁
  have hsame := masterUpdateSchedule_frames h₂
  refine ⟨m₁, m₂, _, h₁, h₂, h₃, hframe, ?_⟩
  rw [← hsame.deref]
  exact masterQuickTx_frame (hsame.nextTxPacket.trans hr) stray

/-- The frame of a slot of the dual channel, in which the master has worked through the frame of the slot
before. -/
theorem dualSlot_frame {received : Packet} {crcError : Bool} {stray : TNodeIndex → UInt8} {k : Nat}
    {frame : Option Packet} (hpost : masterDualChannelPipelinedPostProcess master = .ok (k, master'))
    (hpre : masterDualChannelPipelinedPreProcess (master'.receive received) crcError stray = .ok (master'', frame)) :
    ∃ k₁ k₂ m₁ m₂ m₃ m₄ p, masterRx master = .ok (k₁, m₁) ∧ masterTx m₁ = .ok m₂ ∧
      masterRemoveAnyTimeoutNodes m₂ = .ok (k₂, master') ∧
        masterUpdateSchedule (master'.receive received) = .ok m₃ ∧
      masterQuickRx m₃ crcError = .ok m₄ ∧ master'' = masterQuickTx m₄ stray ∧ MasterFrame m₁ p ∧
      frame = some (fillSchedule m₄.tx.txManager m₄.scheduler.numTxNodesScheduled m₄.nextTxNodeId stray p) := by
  obtain ⟨m₁, m₂, k₁, k₂, h₁, h₂, h₃⟩ := postProcess_ok hpost
  obtain ⟨m₃, h₄, hpre⟩ := bind_eq_ok.mp hpre
  obtain ⟨m₄, h₅, hpre⟩ := bind_eq_ok.mp hpre
  cases hpre
  obtain ⟨r, hr, hframe⟩ := masterTx_frame h₂
  have hreceive : master'.SameFrames (master'.receive received) := .of_packets rfl fun _ => rfl
  have hsame := ((masterRemoveAny_frames h₃).trans hreceive).trans
    ((masterUpdateSchedule_frames h₄).trans (masterQuickRx_frames h₅))
  refine ⟨k₁, k₂, m₁, m₂, m₃, m₄, _, h₁, h₂, h₃, h₄, h₅, rfl, hframe, ?_⟩
  rw [← hsame.deref]
  exact masterQuickTx_frame (hsame.nextTxPacket.trans hr) stray

/-- A frame names only stations: packets are for destinations of the table, and the others are empty or
responses. -/
theorem MasterFrame.proposes {p : Packet} (h : MasterFrame master p) (hnw : master.nwManager.Assigned)
    (htable : master.tx.txManager.maxTxNodes = maxNodes) : p.Proposes := by
  cases h with
  | reset _ =>
      intro _ htype
      rw [(Packet.isType_of_byte (t := .masterReset) rfl).type] at htype
      cases htype
  | response _ => exact txNewNodeResponse_proposes hnw _
  | empty i _ =>
      have hinvalid : invalidNodeId ≠ unallocatedNodeId := by decide
      exact fun hdst => absurd hdst hinvalid
  | @data queue d i _ _ _ hd _ _ hfind =>
      obtain ⟨-, -, hkey⟩ := findPacketEntry_ok hfind
      have hto : (master.tx.txManager.entry i).packet.dstNodeId = d := congrArg Prod.fst hkey
      intro hdst
      rw [← hto, hdst, htable] at hd
      exact absurd hd (by decide)

end Frame

end Microbus
