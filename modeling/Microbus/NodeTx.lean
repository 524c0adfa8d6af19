import Microbus.NodeFrames
import Microbus.Sender

/-! The transmit manager of a node in every run. -/
namespace Microbus

open Transition

/-- A property of the transmit manager that the slots of a node keep. -/
structure KeptByNode (P : TxManager → Prop) : Prop where
  touched : ∀ {m m'}, P m → Touched false m m' → m'.activeTxNodes = m.activeTxNodes → P m'
  ack : ∀ {m m' a n}, P m → rxAckSeqNum m masterNodeId a false = .ok (n, m') → P m'
  choose : ∀ {m m' r}, P m → nodeGetNextTxDataPacket m = .ok (r, m') → P m'

theorem touched_withRxSeqNum (m : TxManager) (rxSeqNum : TNodeIndex → UInt8) :
    Touched false m (m.withRxSeqNum rxSeqNum) := ⟨rfl, rfl, rfl, rfl, rfl, rfl, fun _ => rfl, fun _ => rfl⟩

/-- A node that starts anew has an empty transmit manager. -/
def HoldsAnew (P : TxManager → Prop) : Prop :=
  ∀ maxEntries entries, P (initTxManager 1 none maxEntries entries)

namespace KeptByNode

variable {P : TxManager → Prop} {node node' : Node}

theorem fresh (hanew : HoldsAnew P) (h : node.Fresh) : P node.txManager := by
  obtain ⟨maxEntries, entries, htx⟩ := h.tx
  rw [htx]
  exact hanew maxEntries entries

theorem assign (hP : KeptByNode P) (h : P node.txManager) (r : TxRef) {p : Packet}
    (hkey : p.txSeqNum = (node.deref r).txSeqNum) : P (node.assign r p).txManager := by
  cases r with
  | entry i => exact hP.touched h (.setPacket _ i p (Prod.ext rfl hkey)) rfl
  | tmpPacket => exact h
  | tmpEmptyPacketHeader i => exact h

theorem quickRx (hP : KeptByNode P) (hinit : node.initialised = true) {crcError : Bool}
    (h : ¬ node.resetBy (node.packetAt node.nextRxPacketEntry) crcError → P node.txManager)
    (hreset : node.resetBy (node.packetAt node.nextRxPacketEntry) crcError → HoldsAnew P)
    (hq : nodeQuickProcessPrevRx node crcError = .ok node') : P node'.txManager := by
  cases nodeQuickProcessPrevRx_ok hinit hq with
  | unread hunread => exact h fun hc => hunread hc.2.1
  | reset hreads htype hremove =>
      rcases nodeRemoveFromNetwork_ok hremove with ⟨hid, rfl⟩ | ⟨hid, hfresh, -⟩
      · exact h fun hc => hc.1 hid
      · exact fresh (hreset ⟨hid, hreads, htype⟩) hfresh
  | dropped _ htype _ =>
      rw [nodeRecordSchedule_txManager]
      exact h fun hc => htype hc.2.2
  | kept _ htype _ _ _ =>
      change P (nodeRecordSchedule node.opened _).txManager
      rw [nodeRecordSchedule_txManager]
      exact h fun hc => htype hc.2.2
  | inOrder _ _ _ _ htype _ =>
      refine hP.touched (h fun hc => ?_) (touched_withRxSeqNum _ _) rfl
      exact PacketType.noConfusion (Option.some.inj (htype.symm.trans hc.2.2))

theorem quickRx_receive (hP : KeptByNode P) (hinit : node.initialised = true) {frame : Packet} {crcError : Bool}
    (h : ¬ node.resetBy frame crcError → P node.txManager) (hreset : node.resetBy frame crcError → HoldsAnew P)
    (hq : nodeQuickProcessPrevRx (node.receive frame) crcError = .ok node') : P node'.txManager := by
  have hinit' : (node.receive frame).initialised = true := hinit
  have hframe : (node.receive frame).packetAt (node.receive frame).nextRxPacketEntry = frame :=
    RxPacketManager.packet_receive _ _
  refine hP.quickRx hinit' ?_ ?_ hq
  · rw [hframe]
    exact h
  · rw [hframe]
    exact hreset

theorem processRx (hP : KeptByNode P) (h : P node.txManager) (hrx : nodeProcessRx node = .ok node') :
    P node'.txManager := by
  obtain ⟨m, hack, hframe⟩ := nodeProcessRx_ok hrx
  have hm : P m := by
    rcases hack with ⟨-, rfl⟩ | ⟨k, -, hack⟩
    · exact h
    · exact hP.ack h hack
  rcases hframe with ⟨-, rfl⟩ | ⟨e, -, -, hresult⟩
  · exact hm
  · cases hresult <;> exact hm

theorem processTx (hP : KeptByNode P) (h : P node.txManager) (htx : nodeProcessTx node = .ok node') :
    P node'.txManager := by
  unfold nodeProcessTx at htx
  split at htx
  · cases htx
    exact h
  · split at htx
    · obtain ⟨⟨r, m⟩, hget, htx⟩ := bind_eq_ok.mp htx
      have hm := hP.choose h hget
      cases r with
      | none =>
          cases htx
          exact hm
      | some i =>
          cases htx
          exact hP.touched hm (.setPacket m i _ rfl) rfl
    · cases htx
      unfold nodeProcessTxUnallocated
      split <;> exact h

theorem sendTxPacket (hP : KeptByNode P) (h : P node.txManager) : P (nodeSendTxPacket node).1.txManager := by
  unfold nodeSendTxPacket nodeQuickUpdateTxPacket
  dsimp only
  split
  · exact h
  · exact hP.assign h _ rfl

theorem getTxPacket (hP : KeptByNode P) (h : P node.txManager) : P (nodeGetTxPacket node).1.txManager := by
  unfold nodeGetTxPacket
  split
  · exact h
  · split
    · split
      · exact hP.sendTxPacket h
      · exact h
    · exact hP.sendTxPacket h

theorem checkIfTimedOut (h : ¬ node.timedOut → P node.txManager) (hreset : node.timedOut → HoldsAnew P)
    (hc : nodeCheckIfTimedOut node = .ok node') : P node'.txManager := by
  rcases nodeCheckIfTimedOut_ok hc with ⟨hin, rfl⟩ | ⟨hout, hfresh, -⟩
  · exact h hin
  · exact fresh (hreset hout) hfresh

/-- The application's calls on the transmit manager apart, every action keeps the property; an action that starts
the node again makes it hold anew. -/
theorem step (hP : KeptByNode P) {mode : ChannelMode} {a : NodeAction mode} (hinit : node.initialised = true)
    (h : ¬ node.resets a → P node.txManager) (hreset : node.resets a → HoldsAnew P) (hallocate : a ≠ .allocate)
    (hsubmit : ∀ numBytes, a ≠ .submit numBytes) (hs : node.step a = .ok node') : P node'.txManager := by
  cases a with
  | preProcess frame crcError =>
      obtain ⟨⟨n', f⟩, hpre, hs⟩ := bind_eq_ok.mp hs
      cases hs
      unfold nodeDualChannelPipelinedPreProcess at hpre
      rw [if_neg (by rw [show (node.receive frame).initialised = node.initialised from rfl, hinit]; decide)] at hpre
      obtain ⟨n, hq, hpre⟩ := bind_eq_ok.mp hpre
      have hn := hP.quickRx_receive hinit h hreset hq
      dsimp only at hpre
      split at hpre
      · have hget := hP.getTxPacket (show P (nodeUpdateSchedule n).txManager from hn)
        rw [pure_eq_ok.mp hpre] at hget
        exact hget
      · cases hpre
        exact hn
  | postProcess =>
      obtain ⟨n₁, n₂, h₁, h₂, h₃⟩ := nodePostProcess_ok hinit hs
      exact hP.processTx (hP.processRx (checkIfTimedOut h hreset h₁) h₂) h₃
  | isTxMode =>
      obtain ⟨⟨isTx, n'⟩, htx, hs⟩ := bind_eq_ok.mp hs
      cases hs
      obtain ⟨n, hn, -, rfl⟩ := nodeIsTxMode_ok hinit htx
      have hkept : P n.txManager := checkIfTimedOut h hreset hn
      exact hkept
  | processRx frame crcError =>
      have hinit' : (node.receive frame).initialised = true := hinit
      obtain ⟨n, hq, hrx⟩ := nodeNoDelayProcessRx_ok hinit' hs
      exact hP.processRx (hP.quickRx_receive hinit h hreset hq) hrx
  | processTx =>
      obtain ⟨⟨n', f⟩, htx, hs⟩ := bind_eq_ok.mp hs
      cases hs
      unfold nodeNoDelaySingleChannelProcessTx at htx
      rw [if_neg (by rw [hinit]; decide)] at htx
      obtain ⟨n, hn, htx⟩ := bind_eq_ok.mp htx
      have hget := hP.getTxPacket (hP.processTx (h id) hn)
      rw [pure_eq_ok.mp htx] at hget
      exact hget
  | updateTimeUs usIncr =>
      cases hs
      exact h id
  | allocate => exact absurd rfl hallocate
  | write data =>
      cases hs
      exact hP.touched (h id) (touched_write _ data) (activeTxNodes_write _ data)
  | submit numBytes => exact absurd rfl (hsubmit numBytes)
  | peek =>
      obtain ⟨r, -, hs⟩ := bind_eq_ok.mp hs
      cases hs
      exact h id
  | pop =>
      obtain ⟨rpm, -, hs⟩ := bind_eq_ok.mp hs
      cases hs
      exact h id
  | reset => exact fresh (hreset trivial) (nodeReset_ok hs).1

end KeptByNode

/-- The packets of the window are in the store, and nothing hides them. -/
structure NodeTxInv (m : TxManager) (g : Ledger) : Prop where
  store : StoreInv false m g
  fresh : Fresh false m
  queue : m.activeTxNodes = none
  table : m.maxTxNodes = 1

namespace NodeTxInv

variable {m m' : TxManager} {g : Ledger}

theorem init (maxEntries : UInt8) (entries : Nat → PacketEntry) :
    NodeTxInv (initTxManager 1 none maxEntries entries) Ledger.zero where
  store := storeInv_init 1 none maxEntries entries
  fresh := ⟨fun _ j _ _ hj => absurd hj (not_live_init j), fun _ h => by cases h⟩
  queue := rfl
  table := rfl

theorem touched (h : NodeTxInv m g) (t : Touched false m m') (hqueue : m'.activeTxNodes = m.activeTxNodes) :
    NodeTxInv m' g :=
  ⟨t.storeInv h.store, t.fresh h.fresh, hqueue.trans h.queue, t.maxTxNodes.trans h.table⟩

theorem masterNodeId_lt (h : NodeTxInv m g) : masterNodeId.toNat < m.maxTxNodes := by
  rw [h.table]
  decide

theorem ack (h : NodeTxInv m g) {a : UInt8} {n : Nat} (hack : rxAckSeqNum m masterNodeId a false = .ok (n, m')) :
    ∃ g', AckResult false m g masterNodeId a m' g' ∧ NodeTxInv m' g' := by
  obtain ⟨n', m'', g', hack', hresult⟩ := h.store.rxAck h.fresh.unshadowed a
    (fun _ => ⟨h.masterNodeId_lt, fun _ => rfl⟩) nofun
  rw [hack] at hack'
  cases hack'
  refine ⟨g', hresult, ?_⟩
  cases hresult with
  | null _ => exact h
  | missed _ _ =>
      refine ⟨h.store.missAck, (sameStore_missAck m _).fresh (missAck_end m _) h.fresh, ?_, ?_⟩
      · exact (missAck_activeTxNodes m _).trans h.queue
      · exact (missAck_maxTxNodes m _).trans h.table
  | valid hs he hfull ha hrel =>
      refine ⟨h.store.acknowledge hrel (Nat.le_succ_of_le hs) he,
        h.fresh.acknowledge h.store hrel hfull, ?_, h.table⟩
      unfold TxManager.acknowledge queueAfterAck
      rw [if_neg fun hc => Bool.noConfusion hc.2]
      exact h.queue

/-- A packet that was chosen: its number lies before the next one, and the window is not about to start again. -/
structure ChosenBy (m : TxManager) (g : Ledger) (i : Nat) : Prop where
  inv : NodeTxInv m g
  live : m.Live i
  before : (g.owner i).2 < g.next masterNodeId
  notPaused : m.txSeqNumPauseCount masterNodeId = 0

theorem choose (h : NodeTxInv m g) {r : Option Nat} (hget : nodeGetNextTxDataPacket m = .ok (r, m')) :
    ∃ g', NodeTxInv m' g' ∧ ∀ i, r = some i → (g.owner i).2 = g.next masterNodeId ∧ m.Live i ∧
      ChosenBy m' g' i := by
  unfold nodeGetNextTxDataPacket at hget
  split at hget
  · cases hget
    exact ⟨g, h, nofun⟩
  · obtain ⟨⟨e, m₁⟩, hnext, hret⟩ := bind_eq_ok.mp hget
    obtain ⟨ht, ⟨rfl, -, rfl⟩ | ⟨rfl, -, -, rfl⟩ | ⟨i, rfl, hi, he, hfind, rfl⟩⟩ := getNext_ok hnext
    · cases hret
      exact ⟨g, h, nofun⟩
    · cases hret
      have hsame : SameStore m (m.pause masterNodeId) := ⟨rfl, rfl⟩
      exact ⟨g, ⟨h.store.withCursor _ _ _, hsame.fresh rfl h.fresh, h.queue, h.table⟩, nofun⟩
    · obtain ⟨hl, ho, hlt⟩ := h.store.next_found h.fresh.unshadowed (fun _ => rfl) hi he hfind ht
      have hsame : SameStore m (m.advance masterNodeId) := ⟨rfl, rfl⟩
      cases hret
      have t := SenderInv.touched_setAckSeqNum (m.advance masterNodeId) i (m.rxSeqNum masterNodeId)
      have hadvance : NodeTxInv (m.advance masterNodeId) (g.advance masterNodeId) :=
        ⟨h.store.advance hlt, hsame.fresh rfl h.fresh, h.queue, h.table⟩
      refine ⟨_, hadvance.touched t rfl, ?_⟩
      rintro j hj
      cases hj
      have hnumber : (g.owner i).2 = g.next masterNodeId := congrArg Prod.snd ho
      refine ⟨hnumber, hl, hadvance.touched t rfl, (t.live i).mpr ((hsame.live i).mpr hl), ?_, ?_⟩
      · change (g.owner i).2 < Function.update g.next masterNodeId (g.next masterNodeId + 1) masterNodeId
        rw [Function.update_self, hnumber]
        exact Nat.lt_succ_self _
      · exact Nat.eq_zero_of_not_pos fun hc => hi (Or.inl hc)

theorem allocate (h : NodeTxInv m g) {r : Option Nat} (ha : allocateTxPacket m = .ok (r, m')) :
    (r = none ∧ m' = m) ∨
      ∃ i, r = some i ∧ m.FirstFree i ∧ m.allocatedPacket = none ∧
        m' = { m.takeEntry i with allocatedPacket := some i } ∧ NodeTxInv m' g := by
  rcases allocateTxPacket_ok ha with hnone | ⟨i, hf, hn, ⟨-, -, q, hq, -⟩ | ⟨rfl, rfl⟩⟩
  · exact Or.inl hnone
  · rw [h.queue] at hq
    cases hq
  · exact Or.inr ⟨i, rfl, hf, hn, rfl, h.store.allocate hf hn, h.fresh.allocate hf hn, h.queue, h.table⟩

theorem submit (h : NodeTxInv m g) {i : Nat} {src : TNodeIndex} {type : PacketType} {size : UInt16}
    {q : Option NodeQueue} (ha : m.allocatedPacket = some i) (hadd : addActiveTxNode m false masterNodeId = .ok q) :
    NodeTxInv (m.submitEntry i (fillHeader (m.entry i).packet false src masterNodeId type size
      (m.txSeqNumEnd masterNodeId)) masterNodeId q) (g.submit i masterNodeId) where
  store := h.store.submit ha h.masterNodeId_lt (key_fillHeader fun _ => rfl)
  fresh := h.fresh.submit h.store ha (key_fillHeader fun _ => rfl)
  queue := (addActiveTxNode_node hadd).trans h.queue
  table := h.table

end NodeTxInv

theorem keptByNode_txInv : KeptByNode fun m => ∃ g, NodeTxInv m g where
  touched := by
    rintro m m' ⟨g, h⟩ t hqueue
    exact ⟨g, h.touched t hqueue⟩
  ack := by
    rintro m m' a n ⟨g, h⟩ hack
    obtain ⟨g', -, h'⟩ := h.ack hack
    exact ⟨g', h'⟩
  choose := by
    rintro m m' r ⟨g, h⟩ hget
    obtain ⟨g', h', -⟩ := h.choose hget
    exact ⟨g', h'⟩

theorem holdsAnew_txInv : HoldsAnew fun m => ∃ g, NodeTxInv m g :=
  fun maxEntries entries => ⟨_, .init maxEntries entries⟩

theorem Node.step_txInv {mode : ChannelMode} {node node' : Node} {a : NodeAction mode} (hinit : node.initialised = true)
    (h : ∃ g, NodeTxInv node.txManager g) (hs : node.step a = .ok node') : ∃ g, NodeTxInv node'.txManager g := by
  cases a with
  | allocate =>
      obtain ⟨⟨r, n⟩, halloc, hs⟩ := bind_eq_ok.mp hs
      cases hs
      obtain ⟨⟨r', m⟩, hone, hret⟩ := bind_eq_ok.mp halloc
      cases hret
      obtain ⟨g, h⟩ := h
      rcases h.allocate hone with ⟨-, rfl⟩ | ⟨i, -, -, -, -, h'⟩
      · exact ⟨g, h⟩
      · exact ⟨g, h'⟩
  | submit numBytes =>
      obtain ⟨_, -, hs⟩ := bind_eq_ok.mp hs
      obtain ⟨_, -, hs⟩ := bind_eq_ok.mp hs
      obtain ⟨m, hm, hs⟩ := bind_eq_ok.mp hs
      cases hs
      obtain ⟨g, h⟩ := h
      rcases submitAllocatedTxPacket_ok hm with ⟨hc, -, -⟩ | ⟨i, q, ha, -, -, -, -, hadd, rfl⟩
      · cases hc
      · exact ⟨_, h.submit ha hadd⟩
  | _ =>
      refine keptByNode_txInv.step hinit (fun _ => h) (fun _ => holdsAnew_txInv) ?_ ?_ hs
      · exact nofun
      · exact nofun

theorem txInv_of_reachable {cfg : NodeConfig} {node : Node} (h : (nodeSystem cfg).Reachable node) :
    ∃ g, NodeTxInv node.txManager g := by
  have hboth : node.Ready ∧ ∃ g, NodeTxInv node.txManager g := by
    refine h.invariant (P := fun node => node.Ready ∧ ∃ g, NodeTxInv node.txManager g) ?_ ?_
    · rintro node ⟨entries, hinit⟩
      have hfresh := (nodeInit_ok hinit).1
      exact ⟨hfresh.ready, KeptByNode.fresh (P := fun m => ∃ g, NodeTxInv m g) holdsAnew_txInv hfresh⟩
    · rintro node a node' ⟨hready, hinv⟩ - hs
      exact ⟨hready.step hs, Node.step_txInv hready.initialised hinv hs⟩
  exact hboth.2

end Microbus
