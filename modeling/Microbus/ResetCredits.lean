import Microbus.CleanSlate
import Microbus.QueuedPackets

/-! What `masterResetTxCredits` leaves behind. -/
namespace Microbus

open Transition

variable {m m' : TxManager} {g : Ledger} {d : TNodeIndex} {ttl : TimeToLive}

/-- The counters are sequence numbers, and the tables have an entry for each id. -/
structure TxManager.Numbered (m : TxManager) : Prop where
  start : ∀ d, m.txSeqNumStart d ≠ nullSequenceNum
  next : ∀ d, m.txSeqNumNext d ≠ nullSequenceNum
  stop : ∀ d, m.txSeqNumEnd d ≠ nullSequenceNum
  table : m.maxTxNodes = maxNodes

/-- `INCR_SEQUENCE_NUM` never yields the null number, whatever it is given. -/
theorem incrSequenceNum_ne_null (a : UInt8) : incrSequenceNum a ≠ nullSequenceNum := by
  unfold incrSequenceNum
  dsimp only
  split
  · decide
  · rename_i hlt
    rintro hc
    rw [hc] at hlt
    exact hlt (by decide)

theorem update_ne_null {f : TNodeIndex → UInt8} {v : UInt8} (hf : ∀ x, f x ≠ nullSequenceNum)
    (hv : v ≠ nullSequenceNum) (d x : TNodeIndex) : Function.update f d v x ≠ nullSequenceNum := by
  by_cases hx : x = d
  · subst hx
    rwa [Function.update_self]
  · rw [Function.update_of_ne hx]
    exact hf x

theorem freeAckedPackets_next {newStart : UInt8} {isMaster : Bool} {fuel count n : Nat} {seqNum : UInt8}
    (hnext : ∀ x, m.txSeqNumNext x ≠ nullSequenceNum) (hstart : newStart ≠ nullSequenceNum)
    (h : freeAckedPackets d newStart isMaster fuel seqNum count m = .ok (n, m')) :
    ∀ x, m'.txSeqNumNext x ≠ nullSequenceNum := by
  induction fuel generalizing m seqNum count with
  | zero => cases h
  | succ fuel ih =>
      unfold freeAckedPackets at h
      split at h
      · obtain ⟨store, -, h⟩ := bind_eq_ok.mp h
        dsimp only at h
        refine ih ?_ h
        dsimp only
        split
        · exact update_ne_null hnext hstart d
        · exact hnext
      · cases h
        exact hnext

structure TxManager.Proper (m : TxManager) : Prop where
  start : ∀ d, m.txSeqNumStart d ≠ nullSequenceNum
  next : ∀ d, m.txSeqNumNext d ≠ nullSequenceNum
  stop : ∀ d, m.txSeqNumEnd d ≠ nullSequenceNum

theorem TxManager.Proper.rxAck (h : m.Proper) {a : UInt8} {isMaster : Bool} {n : Nat}
    (hack : rxAckSeqNum m d a isMaster = .ok (n, m')) : m'.Proper ∧ m'.maxTxNodes = m.maxTxNodes := by
  unfold rxAckSeqNum at hack
  split at hack
  · cases hack
    exact ⟨h, rfl⟩
  · obtain ⟨_, -, hack⟩ := bind_eq_ok.mp hack
    dsimp only at hack
    split at hack
    · obtain ⟨⟨n₁, m₁⟩, hloop, hack⟩ := bind_eq_ok.mp hack
      have hnext := freeAckedPackets_next h.next (incrSequenceNum_ne_null a) hloop
      obtain ⟨store, next, rfl, -⟩ := freeAckedPackets_tables hloop
      have hstart := update_ne_null h.start (incrSequenceNum_ne_null a) d
      dsimp only at hack
      split at hack
      · split at hack
        · cases hack
        · obtain ⟨queue', -, hack⟩ := bind_eq_ok.mp hack
          cases hack
          exact ⟨⟨hstart, hnext, h.stop⟩, rfl⟩
      · cases hack
        exact ⟨⟨hstart, hnext, h.stop⟩, rfl⟩
    · split at hack
      · split at hack
        · cases hack
          exact ⟨⟨h.start, update_ne_null h.next (h.start d) d, h.stop⟩, rfl⟩
        · cases hack
          exact ⟨⟨h.start, h.next, h.stop⟩, rfl⟩
      · cases hack
        exact ⟨h, rfl⟩

namespace TxManager.Numbered

theorem rxAck (h : m.Numbered) {a : UInt8} {n : Nat} (hack : rxAckSeqNum m d a true = .ok (n, m')) : m'.Numbered := by
  obtain ⟨hproper, htable⟩ := Proper.rxAck ⟨h.start, h.next, h.stop⟩ hack
  exact ⟨hproper.start, hproper.next, hproper.stop, htable.trans h.table⟩

theorem choose (h : m.Numbered) {burstSize : Nat} {r : Option Nat}
    (hget : masterGetNextTxDataPacket m burstSize = .ok (r, m')) : m'.Numbered := by
  obtain ⟨queue, -, p, i, c, -, ⟨-, rfl⟩ | ⟨d, e, -, -, -, -, -, -, rfl⟩⟩ :=
    masterGetNextTxDataPacket_ok hget
  · exact ⟨h.start, h.next, h.stop, h.table⟩
  · exact ⟨h.start, update_ne_null h.next (incrSequenceNum_ne_null _) d, h.stop, h.table⟩

theorem remove (h : m.Numbered) {n : Nat} (hr : masterTxManagerRemoveNode m d = .ok (n, m')) : m'.Numbered := by
  obtain ⟨-, hm, -⟩ := masterTxManagerRemoveNode_ok hr
  have hzero : (0 : UInt8) ≠ nullSequenceNum := by decide
  rw [hm]
  exact ⟨update_ne_null h.start hzero d, update_ne_null h.next hzero d, update_ne_null h.stop hzero d, h.table⟩

end TxManager.Numbered

theorem keptBySlots_numbered : KeptBySlots False fun m _ => m.Numbered where
  quiet h hq _ := by
    refine ⟨?_, ?_, ?_, hq.touched.maxTxNodes.trans h.table⟩
    · rw [hq.touched.start]
      exact h.start
    · rw [hq.touched.next]
      exact h.next
    · rw [hq.touched.stop]
      exact h.stop
  ack h _ hack := h.rxAck hack
  choose h hget := h.choose hget
  remove h _ hr := h.remove hr

theorem numbered_step {mode : ChannelMode} {s s' : MasterRun} {a : MasterAction mode}
    (h : s.master.tx.txManager.Numbered) (hs : s.step a = .ok s') : s'.master.tx.txManager.Numbered := by
  have hkept := keptBySlots_numbered
  have htx : s.master.Tx (fun m _ => m.Numbered) := h
  cases a with
  | preProcess frame crcError stray =>
      obtain ⟨⟨m, f⟩, hpre, hs⟩ := bind_eq_ok.mp hs
      cases hs
      have hreceive : (s.master.receive frame).Tx (fun m _ => m.Numbered) := h
      exact hkept.preProcess hreceive hpre
  | postProcess =>
      obtain ⟨⟨k, m⟩, hpost, hs⟩ := bind_eq_ok.mp hs
      cases hs
      exact hkept.postProcess htx False.elim False.elim hpost
  | processRx frame crcError =>
      obtain ⟨⟨k, m⟩, hrx, hs⟩ := bind_eq_ok.mp hs
      cases hs
      have hreceive : (s.master.receive frame).Tx (fun m _ => m.Numbered) := h
      exact hkept.processRx hreceive False.elim hrx
  | processTx stray =>
      obtain ⟨⟨k, m, f⟩, hproc, hs⟩ := bind_eq_ok.mp hs
      cases hs
      exact hkept.processTx htx False.elim hproc
  | updateTimeUs usIncr =>
      cases hs
      exact hkept.updateTimeUs htx usIncr
  | allocate =>
      obtain ⟨⟨r, m⟩, halloc, hs⟩ := bind_eq_ok.mp hs
      cases hs
      obtain ⟨⟨r', tm⟩, hone, halloc⟩ := bind_eq_ok.mp halloc
      cases halloc
      rcases allocateTxPacket_ok hone with ⟨-, rfl⟩ | ⟨i, -, -, ⟨-, rfl, -⟩ | ⟨-, rfl⟩⟩
      · exact h
      · exact ⟨h.start, h.next, h.stop, h.table⟩
      · exact ⟨h.start, h.next, h.stop, h.table⟩
  | write data =>
      cases hs
      have ht : Touched true s.master.tx.txManager (writeAllocatedPacket s.master.tx.txManager data) :=
        touched_write _ data
      refine ⟨?_, ?_, ?_, ht.maxTxNodes.trans h.table⟩
      · exact fun x => ht.start ▸ h.start x
      · exact fun x => ht.next ▸ h.next x
      · exact fun x => ht.stop ▸ h.stop x
  | submit dst numBytes =>
      obtain ⟨m, hsubmit, hs⟩ := bind_eq_ok.mp hs
      have hm : m.tx.txManager.Numbered := by
        obtain ⟨-, -, tm, hm, rfl⟩ := masterSubmit_ok hsubmit
        rcases submitAllocatedTxPacket_ok hm with ⟨-, -, rfl⟩ | ⟨i, q, -, -, -, -, -, -, rfl⟩
        · exact ⟨h.start, h.next, h.stop, h.table⟩
        · exact ⟨h.start, h.next, update_ne_null h.stop (incrSequenceNum_ne_null _) dst, h.table⟩
      split at hs
      · cases hs
        exact hm
      · cases hs
        exact hm
  | peek =>
      obtain ⟨⟨r, m⟩, hpeek, hs⟩ := bind_eq_ok.mp hs
      cases hs
      obtain ⟨rpm, rfl, -⟩ := masterPeek_ok hpeek
      exact h
  | pop =>
      obtain ⟨m, hpop, hs⟩ := bind_eq_ok.mp hs
      cases hs
      obtain ⟨rpm, rfl, -⟩ := masterPop_ok hpop
      exact h
  | getConnectedNodes =>
      obtain ⟨⟨m, bits⟩, hget, hs⟩ := bind_eq_ok.mp hs
      cases hs
      obtain rfl := getConnectedNodesBitField_ok hget
      exact h
  | resetTxCredits =>
      cases hs
      exact ⟨h.start, h.next, h.stop, h.table⟩

theorem numbered_of_reachable {cfg : MasterConfig} {s : MasterRun} (h : (masterSystem cfg).Reachable s) :
    s.master.tx.txManager.Numbered := by
  refine System.ReachableWhen.invariant (P := fun s => s.master.tx.txManager.Numbered) h ?_ ?_
  · rintro s ⟨entries, hinit, -, -⟩
    obtain ⟨rx, -, hinit⟩ := bind_eq_ok.mp hinit
    injection hinit with hmaster
    rw [← hmaster]
    have hzero : (0 : UInt8) ≠ nullSequenceNum := by decide
    exact ⟨fun _ => hzero, fun _ => hzero, fun _ => hzero, rfl⟩
  · intro s a s' hnum _ hs
    exact numbered_step hnum hs

/-- The entries in use, the counters and the queue of active destinations agree. -/
structure TransmitConsistent (m : TxManager) : Prop where
  windows : ∀ d q, m.InWindow d q → ∃ i, m.allocatedPacket ≠ some i ∧ m.Holds d q i
  entries : ∀ d q i, m.allocatedPacket ≠ some i → m.Holds d q i → m.InWindow d q
  allocated : ∀ u, m.allocatedPacket = some u → (m.entry u).inUse = true ∧ u < m.size
  active : ∃ queue, m.activeTxNodes = some queue ∧ ∀ d, d ∈ queue.toList ↔
    m.txSeqNumStart d ≠ m.txSeqNumEnd d
  next : ∀ d, nextInRange (m.txSeqNumStart d) (m.txSeqNumEnd d) (m.txSeqNumNext d)

theorem not_inUse_clearBuffers (m : TxManager) {i : Nat} (hi : i < m.size) :
    ((masterTxClearBuffers m).entry i).inUse = false := by
  have hlt : i < m.packetStore.maxEntries.toNat := hi
  change (if i < m.packetStore.maxEntries.toNat ∧ (m.packetStore.entries i).inUse = true then
    { m.packetStore.entries i with inUse := false } else m.packetStore.entries i).inUse = false
  split
  · rfl
  · rename_i hnot
    exact Bool.eq_false_iff.mpr fun hc => hnot ⟨hlt, hc⟩

theorem not_holds_clearBuffers (m : TxManager) (d : TNodeIndex) (q : UInt8) (i : Nat) :
    ¬ (masterTxClearBuffers m).Holds d q i := by
  intro h
  have hfree := not_inUse_clearBuffers m (i := i) h.lt
  rw [TxManager.entry, h.inUse] at hfree
  cases hfree

/-- Different counters bound a window that is not empty. -/
theorem inWindow_start (h : m.Numbered) (hne : m.txSeqNumStart d ≠ m.txSeqNumEnd d) :
    m.InWindow d (m.txSeqNumStart d) := by
  have hs := toNat_lt_255 (h.start d)
  have he := toNat_lt_255 (h.stop d)
  have hne' : (m.txSeqNumStart d).toNat ≠ (m.txSeqNumEnd d).toNat := fun hc => hne (UInt8.toNat_inj.mp hc)
  refine ⟨h.start d, ?_⟩
  unfold cyclicLength
  omega

/-- After the buffers are cleared the transmit state is consistent exactly when nothing was queued. -/
theorem transmitConsistent_clearBuffers_iff (h : m.Numbered) :
    TransmitConsistent (masterTxClearBuffers m) ↔ m.TransmitIdle := by
  constructor
  · intro hc
    have hempty : ∀ d, m.txSeqNumStart d = m.txSeqNumEnd d := by
      intro d
      by_contra hne
      obtain ⟨i, -, hi⟩ := hc.windows d _
        (inWindow_start (m := masterTxClearBuffers m) ⟨h.start, h.next, h.stop, h.table⟩ hne)
      exact not_holds_clearBuffers m d _ i hi
    refine ⟨?_, hempty, ?_, ?_⟩
    · cases ha : m.allocatedPacket with
      | none => rfl
      | some u =>
          obtain ⟨huse, hlt⟩ := hc.allocated u ha
          rw [not_inUse_clearBuffers m hlt] at huse
          cases huse
    · intro d
      have hnext : nextInRange (m.txSeqNumStart d) (m.txSeqNumEnd d) (m.txSeqNumNext d) := hc.next d
      rw [← hempty d] at hnext
      unfold nextInRange at hnext
      rw [if_pos (UInt8.le_refl _)] at hnext
      exact UInt8.le_antisymm hnext.2 hnext.1
    · obtain ⟨queue, hqueue, hmem⟩ := hc.active
      have hqueue' : m.activeTxNodes = some queue := hqueue
      rw [hqueue', Option.map_some, Option.some.injEq]
      exact List.eq_nil_iff_forall_not_mem.mpr fun d hd => (hmem d).mp hd (hempty d)
  · intro hi
    have hnone : ∀ d q, ¬ (masterTxClearBuffers m).InWindow d q := by
      rintro d q ⟨-, hlt⟩
      change cyclicLength (m.txSeqNumStart d) q < cyclicLength (m.txSeqNumStart d) (m.txSeqNumEnd d) at hlt
      rw [← hi.empty d] at hlt
      unfold cyclicLength at hlt
      omega
    obtain ⟨queue, hqueue, hlist⟩ := Option.map_eq_some_iff.mp hi.active
    refine ⟨fun d q hq => absurd hq (hnone d q), fun d q i _ hc =>
      absurd hc (not_holds_clearBuffers m d q i), ?_, ?_, ?_⟩
    · intro u hu
      have hu' : m.allocatedPacket = some u := hu
      rw [hi.allocated] at hu'
      cases hu'
    · refine ⟨queue, hqueue, ?_⟩
      intro d
      rw [hlist]
      exact ⟨fun hc => absurd hc List.not_mem_nil, fun hc => absurd (hi.empty d) hc⟩
    · intro d
      change nextInRange (m.txSeqNumStart d) (m.txSeqNumEnd d) (m.txSeqNumNext d)
      rw [hi.next d, ← hi.empty d]
      unfold nextInRange
      rw [if_pos (UInt8.le_refl _)]
      exact ⟨UInt8.le_refl _, UInt8.le_refl _⟩

/-- Acknowledgements, choices, allocations and submissions to nodes that are there succeed. -/
structure Master.Transmits (master : Master) : Prop where
  searches : master.tx.txManager.Searches
  takesAcks : ¬ master.tx.txManager.FindsPending → master.tx.txManager.TakesAcks
  allocates : master.tx.txManager.allocatedPacket = none → ∃ r, allocateTxPacket master.tx.txManager = .ok r
  submits : ∀ d numBytes, master.tx.txManager.allocatedPacket ≠ none → d.toNat < maxNodes →
    numBytes.toNat ≤ masterPacketDataSize → ∃ r, masterSubmitAllocatedTxPacket master d numBytes = .ok r

theorem transmits_of_served {master : Master} {given : TNodeIndex → UInt8 → Option Payload}
    (h : master.Tx (Served given)) : master.Transmits := by
  obtain ⟨g, h⟩ := h
  refine ⟨h.searches, h.takesAcks, ?_, ?_⟩
  · exact allocateTxPacket_total
  · intro d numBytes hsome hd hsize
    obtain ⟨i, ha⟩ := Option.ne_none_iff_exists'.mp hsome
    obtain ⟨q, hq⟩ := addActiveTxNode_total h.cover.counters h.queue (fun x hx => h.table ▸ h.cover.table x hx)
      (h.cover.room_of_allocated ha d) hd
    have htotal : ∃ m', submitAllocatedTxPacket master.tx.txManager true
      (master.masterNodeTimeToLive d) masterNodeId d
        .masterData numBytes = .ok m' :=
      submitAllocatedTxPacket_total ha ⟨by decide, hd⟩ (h.table ▸ hd) (fun hc => by cases hc) hq
    obtain ⟨m', hm'⟩ := htotal
    refine ⟨{ master with tx := { master.tx with txManager := m' } }, ?_⟩
    unfold masterSubmitAllocatedTxPacket
    simp only [microbusAssert, hsize, ha, Option.isSome_some, checkIndex, hd, if_true, bind, Except.bind, hm']
    rfl

/-- With nothing queued the counters stand for empty windows. -/
theorem served_of_idle (h : m.Numbered) (hi : m.TransmitIdle) (given : TNodeIndex → UInt8 → Option Payload)
    (ttl : TimeToLive) : Served given m ttl := by
  let position : TNodeIndex → Nat := fun d => (m.txSeqNumStart d).toNat
  have hempty : ∀ d, ¬ position d < position d := fun d => Nat.lt_irrefl _
  refine ⟨⟨position, position, position, fun _ => (masterNodeId, 0)⟩, ⟨?_, ?_, ?_, ?_⟩, ?_, h.table,
    fun d hd => absurd hd (hempty d)⟩
  · refine ⟨fun d => exists_seq_of_ne_null (h.start d), ?_, ?_, fun _ => Nat.le_refl _, fun _ => Nat.le_refl _, ?_⟩
    · intro d
      rw [hi.next d]
      exact exists_seq_of_ne_null (h.start d)
    · intro d
      rw [← hi.empty d]
      exact exists_seq_of_ne_null (h.start d)
    · exact fun d => Nat.le_add_right _ _
  · exact fun d hd => absurd hd (hempty d)
  · intro u hu
    rw [hi.allocated] at hu
    cases hu
  · exact fun d a hs he => absurd (hs.trans_lt he) (hempty d)
  · obtain ⟨queue, hqueue, hlist⟩ := Option.map_eq_some_iff.mp hi.active
    refine ⟨queue, hqueue, by rw [hlist]; exact List.nodup_nil, ?_⟩
    intro d
    rw [hlist]
    exact ⟨fun hc => absurd hc List.not_mem_nil, fun hd => absurd hd (hempty d)⟩

/-- The runs that go on after the buffers are cleared. -/
def MasterRun.afterReset (cfg : MasterConfig) (s : MasterRun) : System MasterRun (MasterAction cfg.mode) Fault where
  init t := t = { s with master := masterResetTxCredits s.master }
  step := MasterRun.step

/-- `masterResetTxCredits` leaves a consistent transmitter, which goes on without a fault, exactly
when no packet is allocated or queued. -/
theorem reset_leaves_usable_iff {cfg : MasterConfig} {s : MasterRun} (h : (masterSystem cfg).Reachable s) :
    (TransmitConsistent (masterResetTxCredits s.master).tx.txManager ∧
      ∀ t, (s.afterReset cfg).ReachableWhen KeepsAllocated t → t.master.Transmits) ↔
        s.master.tx.txManager.TransmitIdle := by
  have hnum := numbered_of_reachable h
  constructor
  · exact fun hc => (transmitConsistent_clearBuffers_iff hnum).mp hc.1
  · intro hi
    refine ⟨(transmitConsistent_clearBuffers_iff hnum).mpr hi, ?_⟩
    intro t ht
    have hserved : t.Served := by
      refine System.ReachableWhen.invariant (P := MasterRun.Served) ht ?_ ?_
      · rintro t rfl
        obtain ⟨g, hs⟩ := served_of_idle hnum hi s.given s.master.masterNodeTimeToLive
        exact ⟨g, hs.clearBuffers hi⟩
      · intro t a t' hserved hguard hs
        exact hserved.step hguard hs
    exact transmits_of_served hserved

theorem forall_byte {P : UInt8 → Prop} : (∀ n < 256, P (UInt8.ofNat n)) ↔ ∀ d, P d := by
  constructor
  · intro h d
    have hd := h d.toNat d.toNat_lt
    rwa [UInt8.ofNat_toNat] at hd
  · exact fun h n _ => h (UInt8.ofNat n)

instance (m : TxManager) : Decidable m.TransmitIdle :=
  decidable_of_iff ((m.allocatedPacket = none ∧ m.activeTxNodes.map NodeQueue.toList = some []) ∧
      (∀ n < 256, m.txSeqNumStart (UInt8.ofNat n) = m.txSeqNumEnd (UInt8.ofNat n)) ∧
      ∀ n < 256, m.txSeqNumNext (UInt8.ofNat n) = m.txSeqNumStart (UInt8.ofNat n))
    ⟨fun h => ⟨h.1.1, forall_byte.mp h.2.1, forall_byte.mp h.2.2, h.1.2⟩,
      fun h => ⟨⟨h.allocated, h.active⟩, forall_byte.mpr h.empty, forall_byte.mpr h.next⟩⟩

/-- Node 1 has acknowledged both packets that it was sent. -/
theorem reset_leaves_usable_acknowledged : ∃ s, (masterSystem dualConfig).Reachable s ∧
    s.master.tx.txManager.txSeqNumStart 1 = 2 ∧ s.master.tx.txManager.rxSeqNum 1 = 1 ∧
    TransmitConsistent (masterResetTxCredits s.master).tx.txManager ∧
    ∀ t, (s.afterReset dualConfig).ReachableWhen KeepsAllocated t → t.master.Transmits := by
  obtain ⟨s, hrun, htest⟩ := System.exists_of_holdsAfter (x := (masterSystem dualConfig).run blankRun
      (joinAndTalk ++ slot (ackFrame 1 1)))
    (p := fun s => decide (s.master.tx.txManager.txSeqNumStart 1 = 2 ∧ s.master.tx.txManager.rxSeqNum 1 = 1 ∧
      s.master.tx.txManager.TransmitIdle)) (by decide +kernel)
  obtain ⟨hstart, hrx, hidle⟩ := of_decide_eq_true htest
  have hs : (masterSystem dualConfig).Reachable s := System.Reachable.run (.init blankRun_init) hrun
  exact ⟨s, hs, hstart, hrx, (reset_leaves_usable_iff hs).mpr hidle⟩

/-- With a packet queued the reset leaves a window without an entry. -/
theorem reset_breaks_window : ∃ s, (masterSystem singleConfig).Reachable s ∧
    ¬ TransmitConsistent (masterResetTxCredits s.master).tx.txManager := by
  obtain ⟨s, hrun, hwindow⟩ : ∃ s, (masterSystem singleConfig).run blankRun joinAndSubmit = .ok s ∧
      decide (s.master.tx.txManager.InWindow 1 0) = true := System.exists_of_holdsAfter (by decide +kernel)
  refine ⟨s, System.Reachable.run (.init blankRun_init_single) hrun, ?_⟩
  intro hc
  obtain ⟨i, -, hi⟩ := hc.windows 1 0 (of_decide_eq_true hwindow)
  exact not_holds_clearBuffers _ 1 0 i hi

end Microbus
