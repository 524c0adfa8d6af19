import Microbus.CleanSlate
import Microbus.CoverRun
import Mathlib.Algebra.BigOperators.Group.Finset.Basic

/-! Every buffer of the store is accounted for. -/
namespace Microbus

open Transition

variable {m m' : TxManager} {g : Ledger} {d : TNodeIndex} {n : Nat} {ttl ttl' : TimeToLive}

def TxManager.numInUse (m : TxManager) : Nat :=
  ((Finset.range m.packetStore.maxEntries.toNat).filter fun i => (m.packetStore.entries i).inUse = true).card

def TxManager.numQueued (m : TxManager) : Nat :=
  ∑ d ∈ Finset.range maxNodes, cyclicLength (m.txSeqNumStart (UInt8.ofNat d)) (m.txSeqNumEnd (UInt8.ofNat d))

/-- Each entry in use is the allocated one or holds a packet of a window. -/
def TxManager.Conserves (m : TxManager) : Prop :=
  m.numInUse = (if m.allocatedPacket.isSome then 1 else 0) + m.numQueued

/-- The header left over in the allocated entry does not carry the id of the node that is removed. -/
theorem StoreInv.remove (h : StoreInv true m g) (hr : masterTxManagerRemoveNode m d = .ok (n, m'))
    (hpend : ∀ u, m.allocatedPacket = some u → (m.entry u).packet.dstNodeId ≠ d) :
    StoreInv true m' (g.remove d) := by
  obtain ⟨-, hm, hrel⟩ := masterTxManagerRemoveNode_ok hr
  have hc := h.counters.remove hr
  refine h.release hrel (by rw [hm]) (fun u hu hf => hpend u hu hf.2) (by rw [hm]) hc.start_eq hc.next_eq hc.stop_eq
    hc.start_le_next hc.next_le_stop rfl (fun x a hs he => (Ledger.remove_window hs he).2) ?_
  intro i hi
  have hkey : (m.entry i).packet.dstNodeId = (g.owner i).1 := congrArg Prod.fst (h.owner_key i hi)
  rw [hkey]
  constructor
  · intro hf
    have hx : (g.owner i).1 ≠ d := fun hc => hf ⟨hi.lt, hc⟩
    simp only [Ledger.remove]
    rw [Function.update_of_ne hx, Function.update_of_ne hx]
    exact h.owner_mem i hi
  · rintro ⟨hs, he⟩ hf
    exact (Ledger.remove_window hs he).1 hf.2

/-- The store of a master whose windows never hold all 255 numbers. -/
structure BalancedBy (m : TxManager) (g : Ledger) : Prop where
  store : StoreInv true m g
  queue : QueueInv m g
  table : m.maxTxNodes = maxNodes
  room : ∀ d, g.stop d < g.start d + 255

namespace BalancedBy

/-- The first entry that a search meets is not the allocated one, so no packet hides behind it. -/
theorem unshadowed (h : BalancedBy m g) (hf : ¬ m.FindsPending) : Unshadowed true m := by
  intro u hu j hj huj hkey
  obtain ⟨hs, he⟩ := h.store.owner_mem j hj
  rw [h.store.owner_key j hj] at hkey
  obtain ⟨hlt, huse⟩ := h.store.allocated u hu
  obtain ⟨i, hfind⟩ := findPacketEntry_total hlt huse hkey
  obtain ⟨hi, huse', hkey'⟩ := findPacketEntry_ok hfind
  refine hf ⟨u, (g.owner j).1, seq (g.owner j).2, hu, ?_, ?_⟩
  · exact (h.store.counters.inWindow_iff _).mpr ⟨h.room _, _, hs, he, rfl⟩
  · by_cases hiu : i = u
    · rwa [hiu] at hfind
    · -- the entry found would be `j`, although `u` stands before it
      have hlive : m.Live i := ⟨hi, huse', fun hc => hiu (Option.some.inj (hc.symm.trans hu))⟩
      obtain rfl := h.store.live_eq_of_key hlive hj (hkey'.trans (h.store.owner_key j hj).symm)
      exact absurd hkey (findPacketEntry_first hfind huj huse)

theorem quiet (h : BalancedBy m g) (hq : m.Quiet m') : BalancedBy m' g where
  store := hq.touched.storeInv h.store
  queue := h.queue.congr hq.active fun _ => Iff.rfl
  table := hq.touched.maxTxNodes.trans h.table
  room := h.room

theorem rxAck (h : BalancedBy m g) (hf : ¬ m.FindsPending) {a : UInt8} (hack : rxAckSeqNum m d a true = .ok (n, m')) :
    ∃ g', AckResult true m g d a m' g' ∧ BalancedBy m' g' := by
  have hqueue : true = true → g.start d < g.stop d → ∃ q, m.activeTxNodes = some q ∧ d ∈ q.toList := by
    intro _ hlt
    obtain ⟨q, hq, -, hmem⟩ := h.queue
    exact ⟨q, hq, (hmem d).mpr hlt⟩
  obtain ⟨n', m'', g', hack', hresult⟩ := h.store.rxAck (h.unshadowed hf) a
    (fun ha => ⟨rxAckSeqNum_source hack ha, validDst_master⟩) hqueue
  rw [hack] at hack'
  cases hack'
  refine ⟨g', hresult, ?_⟩
  cases hresult with
  | null _ => exact h
  | missed _ _ =>
      refine ⟨h.store.missAck, h.queue.congr (by rw [missAck_activeTxNodes]) ?_,
        (missAck_maxTxNodes m d).trans h.table, ?_⟩
      · intro x
        rw [Ledger.missAck_start, Ledger.missAck_stop]
      · intro x
        rw [Ledger.missAck_start, Ledger.missAck_stop]
        exact h.room x
  | @valid k s hs he hfull _ hrel =>
      refine ⟨h.store.acknowledge hrel (Nat.le_succ_of_le hs) he,
        h.queue.acknowledge h.store.stop_eq (Nat.lt_succ_of_le hs) he hfull, h.table, ?_⟩
      intro x
      have hroom := h.room x
      simp only [Ledger.acknowledge]
      by_cases hx : x = d
      · subst hx
        rw [Function.update_self]
        omega
      · rw [Function.update_of_ne hx]
        exact hroom

theorem choose (h : BalancedBy m g) {burstSize : Nat} {r : Option Nat}
    (hget : masterGetNextTxDataPacket m burstSize = .ok (r, m')) : ∃ g', BalancedBy m' g' ∧
    ((r = none ∧ g' = g) ∨
      ∃ d e, r = some e ∧ g' = g.advance d ∧ (Unshadowed true m → m.Live e ∧ g.owner e = (d, g.next d))) := by
  obtain ⟨queue, -, p, i, c, -, ⟨hr, rfl⟩ | ⟨d, e, -, hr, hidle, he, ht, hfind, rfl⟩⟩ :=
    masterGetNextTxDataPacket_ok hget
  · exact ⟨g, ⟨h.store.withCursor p i c, h.queue.congr rfl fun _ => Iff.rfl, h.table, h.room⟩,
      Or.inl ⟨hr, rfl⟩⟩
  · have hlt := h.store.counters.next_lt_stop he
    refine ⟨g.advance d, ⟨(h.store.advance hlt).withCursor p i c, h.queue.congr rfl fun _ => Iff.rfl,
      h.table, h.room⟩,
      Or.inr ⟨d, e, hr, rfl, fun hu => ?_⟩⟩
    obtain ⟨hl, ho, -⟩ := h.store.next_found hu validDst_master hidle he hfind ht
    exact ⟨hl, ho⟩

theorem remove (h : BalancedBy m g) (hr : masterTxManagerRemoveNode m d = .ok (n, m'))
    (hpend : ∀ u, m.allocatedPacket = some u → (m.entry u).packet.dstNodeId ≠ d) :
    BalancedBy m' (g.remove d) where
  store := h.store.remove hr hpend
  queue := h.queue.remove hr
  table := (masterTxManagerRemoveNode_packets hr).maxTxNodes.trans h.table
  room x := by
    have hroom := h.room x
    simp only [Ledger.remove]
    by_cases hx : x = d
    · subst hx
      rw [Function.update_self, Function.update_self]
      decide
    · rw [Function.update_of_ne hx, Function.update_of_ne hx]
      exact hroom

theorem allocate (h : BalancedBy m g) {r : Option Nat}
    (hfull : ∀ q, m.activeTxNodes = some q → maxNodes ≤ q.numNodes → ∀ i, ¬ m.FirstFree i)
    (ha : allocateTxPacket m = .ok (r, m')) : BalancedBy m' g := by
  rcases allocateTxPacket_ok ha with ⟨-, rfl⟩ | ⟨i, hfree, hnone, ⟨-, -, q, hq, hnum⟩ | ⟨-, rfl⟩⟩
  · exact h
  · exact absurd hfree (hfull q hq hnum i)
  · exact ⟨h.store.allocate hfree hnone, h.queue, h.table, h.room⟩

theorem write (h : BalancedBy m g) (data : PacketData) : BalancedBy (writeAllocatedPacket m data) g := by
  have ht : Touched true m (writeAllocatedPacket m data) := touched_write m data
  refine ⟨ht.storeInv h.store, h.queue.congr ?_ fun _ => Iff.rfl, ht.maxTxNodes.trans h.table, h.room⟩
  rw [activeTxNodes_write]

theorem submit (h : BalancedBy m g) {i : Nat} {p : Packet} {q : Option NodeQueue} (ha : m.allocatedPacket = some i)
    (htable : d.toNat < m.maxTxNodes) (hk : entryKey true { m.entry i with packet := p } = (d, m.txSeqNumEnd d))
    (hadd : addActiveTxNode m true d = .ok q) (hroom : incrSequenceNum (m.txSeqNumEnd d) ≠ m.txSeqNumStart d) :
    BalancedBy (m.submitEntry i p d q) (g.submit i d) where
  store := h.store.submit ha htable hk
  queue := h.queue.submit h.store.counters (h.room d) hadd
  table := h.table
  room x := by
    have hx' := h.room x
    simp only [Ledger.submit]
    by_cases hx : x = d
    · subst hx
      rw [Function.update_self]
      rw [h.store.stop_eq, incr_seq, h.store.start_eq, Ne, seq_eq_iff] at hroom
      have := h.store.start_le_stop x
      omega
    · rw [Function.update_of_ne hx]
      exact hx'

theorem clearBuffers (h : BalancedBy m g) (hi : m.TransmitIdle) : BalancedBy (masterTxClearBuffers m) g := by
  obtain ⟨q, hq, hnodup, hmem⟩ := h.queue
  have hactive := hi.active
  rw [hq, Option.map_some, Option.some.injEq] at hactive
  have hempty : ∀ x, ¬ g.start x < g.stop x := by
    intro x hx
    have := (hmem x).mpr hx
    rw [hactive] at this
    exact absurd this List.not_mem_nil
  have hnone : ∀ i, ¬ m.Live i := fun i hl =>
    hempty _ ((h.store.owner_mem i hl).1.trans_lt (h.store.owner_mem i hl).2)
  have hnone' : ∀ i, ¬ (masterTxClearBuffers m).Live i := by
    intro i hl
    have huse := hl.inUse
    have hlt : i < m.packetStore.maxEntries.toNat := hl.lt
    simp [masterTxClearBuffers, TxManager.entry, hlt] at huse
    split at huse <;> simp_all
  refine ⟨h.store.congr rfl rfl rfl rfl (fun i => ⟨fun hc => absurd hc (hnone' i), fun hc => absurd hc (hnone i)⟩)
    (fun i hl => absurd hl (hnone i)) ?_, ⟨q, hq, hnodup, hmem⟩, h.table, h.room⟩
  intro u hu
  rw [show (masterTxClearBuffers m).allocatedPacket = m.allocatedPacket from rfl, hi.allocated] at hu
  cases hu

theorem card_live (h : BalancedBy m g) :
    ((Finset.range m.packetStore.maxEntries.toNat).filter fun i =>
      (m.packetStore.entries i).inUse = true ∧ m.allocatedPacket ≠ some i).card = m.numQueued := by
  have hlive : ∀ {i}, i ∈ ((Finset.range m.packetStore.maxEntries.toNat).filter fun i =>
      (m.packetStore.entries i).inUse = true ∧ m.allocatedPacket ≠ some i) ↔ m.Live i := by
    intro i
    rw [Finset.mem_filter, Finset.mem_range]
    exact ⟨fun hi => ⟨hi.1, hi.2.1, hi.2.2⟩, fun hi => ⟨hi.lt, hi.inUse, hi.notAllocated⟩⟩
  have hdst : ∀ i, m.Live i → (g.owner i).1.toNat < maxNodes := by
    intro i hi
    obtain ⟨hs, he⟩ := h.store.owner_mem i hi
    rw [← h.table]
    exact h.store.table _ (hs.trans_lt he)
  rw [Finset.card_eq_sum_card_fiberwise (f := fun i => (g.owner i).1.toNat) (t := Finset.range maxNodes)
    fun i hi => Finset.mem_coe.mpr (Finset.mem_range.mpr (hdst i (hlive.mp (Finset.mem_coe.mp hi))))]
  unfold TxManager.numQueued
  refine Finset.sum_congr rfl ?_
  intro x hx
  have hx64 : x < 64 := Finset.mem_range.mp hx
  have hx' : (UInt8.ofNat x).toNat = x := by
    rw [UInt8.toNat_ofNat']
    omega
  have hlen : cyclicLength (m.txSeqNumStart (UInt8.ofNat x)) (m.txSeqNumEnd (UInt8.ofNat x)) =
      g.stop (UInt8.ofNat x) - g.start (UInt8.ofNat x) := by
    have hroom := h.room (UInt8.ofNat x)
    rw [h.store.start_eq, h.store.stop_eq, cyclicLength_seq (h.store.start_le_stop _)]
    exact Nat.mod_eq_of_lt (by omega)
  rw [hlen, ← Nat.card_Ico]
  -- the owner of an entry tells its position in the window of `x`
  refine Finset.card_nbij (fun i => (g.owner i).2) ?_ ?_ ?_
  · intro i hi
    obtain ⟨hi, hown⟩ := Finset.mem_filter.mp hi
    have hmem := h.store.owner_mem i (hlive.mp hi)
    have hown' : (g.owner i).1 = UInt8.ofNat x := UInt8.toNat_inj.mp (hown.trans hx'.symm)
    rw [hown'] at hmem
    exact Finset.mem_Ico.mpr hmem
  · intro i hi j hj hij
    obtain ⟨hi, howni⟩ := Finset.mem_filter.mp hi
    obtain ⟨hj, hownj⟩ := Finset.mem_filter.mp hj
    exact h.store.owner_inj i j (hlive.mp hi) (hlive.mp hj) (Prod.ext (UInt8.toNat_inj.mp (howni.trans hownj.symm)) hij)
  · intro a ha
    obtain ⟨hs, he⟩ := Finset.mem_Ico.mp (Finset.mem_coe.mp ha)
    obtain ⟨i, hi, ho⟩ := h.store.owner_surj (UInt8.ofNat x) a hs he
    refine ⟨i, Finset.mem_coe.mpr (Finset.mem_filter.mpr ⟨hlive.mpr hi, ?_⟩), ?_⟩
    · rw [ho]
      exact hx'
    · simp only [ho]

theorem conserves (h : BalancedBy m g) : m.Conserves := by
  unfold TxManager.Conserves TxManager.numInUse
  rw [← h.card_live]
  cases ha : m.allocatedPacket with
  | none =>
      rw [Option.isSome_none, if_neg Bool.false_ne_true, Nat.zero_add]
      congr 1
      ext i
      simp
  | some u =>
      obtain ⟨hlt, huse⟩ := h.store.allocated u ha
      have huse' : (m.packetStore.entries u).inUse = true := huse
      rw [Option.isSome_some, if_pos rfl]
      have hsplit : ((Finset.range m.packetStore.maxEntries.toNat).filter fun i =>
        (m.packetStore.entries i).inUse = true) =
          insert u ((Finset.range m.packetStore.maxEntries.toNat).filter fun i =>
            (m.packetStore.entries i).inUse = true ∧ (some u : Option Nat) ≠ some i) := by
        ext i
        rw [Finset.mem_insert, Finset.mem_filter, Finset.mem_filter, Finset.mem_range]
        by_cases hiu : i = u
        · subst hiu
          exact ⟨fun _ => Or.inl rfl, fun _ => ⟨hlt, huse'⟩⟩
        · have hne : (some u : Option Nat) ≠ some i := fun hc => hiu (Option.some.inj hc).symm
          exact ⟨fun hi => Or.inr ⟨hi.1, hi.2, hne⟩, fun hi => (hi.resolve_left hiu).imp id And.left⟩
      rw [hsplit, Finset.card_insert_of_notMem, Nat.add_comm]
      rw [Finset.mem_filter]
      exact fun hc => hc.2.2 rfl

end BalancedBy

def Balanced (m : TxManager) (_ : TimeToLive) : Prop := ∃ g, BalancedBy m g

theorem keptBySlots_balanced : KeptBySlots True Balanced where
  quiet := fun ⟨_, h⟩ hq _ => ⟨_, h.quiet hq⟩
  ack := fun ⟨_, h⟩ hf hack =>
    have ⟨_, _, h'⟩ := h.rxAck (hf trivial) hack
    ⟨_, h'⟩
  choose := fun ⟨_, h⟩ hget =>
    have ⟨_, h', _⟩ := h.choose hget
    ⟨_, h'⟩
  remove := fun ⟨_, h⟩ hpend hr => ⟨_, h.remove hr (hpend trivial)⟩

/-- The steps that lose no buffer: beside what keeps the allocated entry, a packet is submitted to
a node that is there and whose window has room, and no entry is taken while all queues are full. -/
def LosesNoBuffer {mode : ChannelMode} (s : MasterRun) (a : MasterAction mode) : Prop :=
  KeepsAllocated s a ∧
    match a with
    | .allocate => ∀ q, s.master.tx.txManager.activeTxNodes = some q → maxNodes ≤ q.numNodes →
        ∀ i, ¬ s.master.tx.txManager.FirstFree i
    | .submit d _ => s.master.masterNodeTimeToLive d ≠ 0 ∧
        incrSequenceNum (s.master.tx.txManager.txSeqNumEnd d) ≠ s.master.tx.txManager.txSeqNumStart d
    | _ => True

def MasterRun.Balanced (s : MasterRun) : Prop := s.master.Tx Microbus.Balanced

theorem MasterRun.Balanced.step {mode : ChannelMode} {s s' : MasterRun} {a : MasterAction mode} (h : s.Balanced)
    (hguard : LosesNoBuffer s a) (hs : s.step a = .ok s') : s'.Balanced := by
  have hkept := keptBySlots_balanced
  obtain ⟨hkeeps, hguard⟩ := hguard
  cases a with
  | preProcess frame crcError stray =>
      obtain ⟨⟨m, f⟩, hpre, hs⟩ := bind_eq_ok.mp hs
      cases hs
      have hreceive : (s.master.receive frame).Tx Microbus.Balanced := h
      exact hkept.preProcess hreceive hpre
  | postProcess =>
      obtain ⟨⟨k, m⟩, hpost, hs⟩ := bind_eq_ok.mp hs
      cases hs
      exact hkept.postProcess h (fun _ => hkeeps.1) (fun _ => hkeeps.2) hpost
  | processRx frame crcError =>
      obtain ⟨⟨k, m⟩, hrx, hs⟩ := bind_eq_ok.mp hs
      cases hs
      have hreceive : (s.master.receive frame).Tx Microbus.Balanced := h
      exact hkept.processRx hreceive (fun _ => hkeeps) hrx
  | processTx stray =>
      obtain ⟨⟨k, m, f⟩, htx, hs⟩ := bind_eq_ok.mp hs
      cases hs
      exact hkept.processTx h (fun _ => hkeeps) htx
  | updateTimeUs usIncr =>
      cases hs
      exact hkept.updateTimeUs h usIncr
  | allocate =>
      obtain ⟨⟨r, m⟩, halloc, hs⟩ := bind_eq_ok.mp hs
      cases hs
      obtain ⟨⟨r', tm⟩, hone, halloc⟩ := bind_eq_ok.mp halloc
      cases halloc
      obtain ⟨g, h⟩ := h
      exact ⟨g, h.allocate hguard hone⟩
  | write data =>
      cases hs
      obtain ⟨g, h⟩ := h
      exact ⟨g, h.write data⟩
  | submit dst numBytes =>
      obtain ⟨m, hsubmit, hs⟩ := bind_eq_ok.mp hs
      obtain ⟨-, -, tm, hm, rfl⟩ := masterSubmit_ok hsubmit
      obtain ⟨g, h⟩ := h
      rcases submitAllocatedTxPacket_ok hm with ⟨-, hlate, -⟩ | ⟨i, q, ha, -, -, -, htable, hadd, rfl⟩
      · exact absurd hlate hguard.1
      · rw [if_neg hguard.1] at hs
        cases hs
        exact ⟨g.submit i dst, h.submit ha htable (key_fillHeader validDst_master) hadd hguard.2⟩
  | peek =>
      obtain ⟨⟨r, m⟩, hpeek, hs⟩ := bind_eq_ok.mp hs
      cases hs
      obtain ⟨rpm, rfl, -⟩ := masterPeek_ok hpeek
      exact h
  | pop =>
      obtain ⟨m, hpop, hs⟩ := bind_eq_ok.mp hs
      cases hs
      obtain ⟨rpm, rfl, -⟩ := masterPop_ok hpop
      exact h
  | getConnectedNodes =>
      obtain ⟨⟨m, bits⟩, hget, hs⟩ := bind_eq_ok.mp hs
      cases hs
      obtain rfl := getConnectedNodesBitField_ok hget
      exact h
  | resetTxCredits =>
      cases hs
      obtain ⟨g, h⟩ := h
      exact ⟨g, h.clearBuffers hkeeps⟩

/-- No buffer is lost in a run whose steps lose none. -/
theorem buffers_are_conserved {cfg : MasterConfig} {s : MasterRun}
    (h : (masterSystem cfg).ReachableWhen LosesNoBuffer s) : s.master.tx.txManager.Conserves := by
  have hbalanced : s.Balanced := by
    refine System.ReachableWhen.invariant (P := MasterRun.Balanced) h ?_ ?_
    · rintro s ⟨entries, hinit, -, -⟩
      obtain ⟨rx, -, hinit⟩ := bind_eq_ok.mp hinit
      injection hinit with hmaster
      unfold MasterRun.Balanced Master.Tx
      rw [← hmaster]
      refine ⟨Ledger.zero, storeInv_init _ _ _ _, ?_, rfl, fun _ => Nat.lt_add_of_pos_right (by decide)⟩
      refine ⟨NodeQueue.empty, rfl, List.nodup_nil, ?_⟩
      exact fun d => ⟨fun hc => absurd hc List.not_mem_nil, fun hd => absurd hd (Nat.lt_irrefl 0)⟩
    · intro s a s' hbalanced hguard hs
      exact hbalanced.step hguard hs
  obtain ⟨g, hby⟩ := hbalanced
  exact hby.conserves

def MasterRun.losesNone {mode : ChannelMode} (s : MasterRun) (a : MasterAction mode) : Bool :=
  s.allocatesNone a &&
    match a with
    | .allocate => s.master.tx.txManager.activeTxNodes.all fun q => decide (q.numNodes < maxNodes)
    | .submit d _ => decide (s.master.masterNodeTimeToLive d ≠ 0 ∧
        incrSequenceNum (s.master.tx.txManager.txSeqNumEnd d) ≠ s.master.tx.txManager.txSeqNumStart d)
    | _ => true

theorem losesNoBuffer_of_losesNone {mode : ChannelMode} {s : MasterRun} {a : MasterAction mode}
    (h : s.losesNone a = true) : LosesNoBuffer s a := by
  obtain ⟨halloc, h⟩ := Bool.and_eq_true_iff.mp h
  refine ⟨keepsAllocated_of_allocatesNone halloc, ?_⟩
  cases a with
  | allocate =>
      intro q hq hfull
      change s.master.tx.txManager.activeTxNodes.all (fun q => decide (q.numNodes < maxNodes)) = true at h
      rw [hq] at h
      exact absurd (of_decide_eq_true h) (Nat.not_lt_of_le hfull)
  | submit d numBytes => exact of_decide_eq_true (p := _ ∧ _) h
  | _ => exact trivial

/-- Node 1 has acknowledged a packet and is sent another one, and a third one is allocated. -/
theorem buffers_are_conserved_talk : ∃ s, (masterSystem dualConfig).ReachableWhen LosesNoBuffer s ∧
    s.master.tx.txManager.txSeqNumStart 1 = 1 ∧ s.master.tx.txManager.txSeqNumEnd 1 = 2 ∧
    s.master.tx.txManager.numInUse = 2 ∧ s.master.tx.txManager.Conserves := by
  obtain ⟨s, hs, htest⟩ := System.exists_of_checkedRun (S := masterSystem dualConfig) (s := blankRun)
    (p := fun s => decide (s.master.tx.txManager.txSeqNumStart 1 = 1 ∧ s.master.tx.txManager.txSeqNumEnd 1 = 2 ∧
      s.master.tx.txManager.numInUse = 2))
    (joinAndTalk ++ [.allocate]) (fun s a (h : s.losesNone a = true) => losesNoBuffer_of_losesNone h)
      (.init blankRun_init) (by decide +kernel)
  obtain ⟨hstart, hend, huse⟩ := of_decide_eq_true htest
  exact ⟨s, hs, hstart, hend, huse, buffers_are_conserved hs⟩

/-- A packet to an id that no node holds keeps its entry. -/
theorem submit_to_absent_loses_buffer :
    ∃ s, (masterSystem dualConfig).Reachable s ∧ ¬ s.master.tx.txManager.Conserves := by
  obtain ⟨s, hrun, hcheck⟩ : ∃ s, (masterSystem dualConfig).run blankRun [.allocate, .submit 5 3] = .ok s ∧
      (s.master.tx.txManager.numInUse == 1 && s.master.tx.txManager.allocatedPacket == none &&
        s.master.tx.txManager.numQueued == 0) = true := System.exists_of_holdsAfter (by decide +kernel)
  rw [Bool.and_eq_true, Bool.and_eq_true, beq_iff_eq, beq_iff_eq, beq_iff_eq] at hcheck
  refine ⟨s, System.Reachable.run (.init blankRun_init) hrun, ?_⟩
  unfold TxManager.Conserves
  rw [hcheck.1.1, hcheck.1.2, hcheck.2]
  decide

end Microbus
