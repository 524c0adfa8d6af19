import Microbus.Turn
import Microbus.MasterStore
import Mathlib.Algebra.Order.BigOperators.Group.Finset

/-! The transmit manager by itself: every run of allocations, submissions, transmissions and
acknowledgements, on either side. -/
namespace Microbus

open Transition

inductive TxAction
  | allocate
  | write (data : PacketData)
  | submit (masterDstNodeTTL : Nat) (srcNodeId dstNodeId : TNodeIndex) (packetType : PacketType) (dataSize : UInt16)
  | transmit (burstSize : Nat)
  | ack (srcNodeId : TNodeIndex) (ackSeqNum : UInt8)

/-- A manager with its history: the numbers of the packets submitted to each destination, and how many of
them were freed. -/
structure TxRun where
  manager : TxManager
  given : TNodeIndex → List UInt8
  freed : TNodeIndex → Nat

namespace TxRun

/-- A packet discarded because its destination left is not counted as submitted. -/
def submit (isMaster : Bool) (s : TxRun) (masterDstNodeTTL : Nat) (srcNodeId dstNodeId : TNodeIndex)
    (packetType : PacketType) (dataSize : UInt16) : Except Fault TxRun := do
  let manager ← submitAllocatedTxPacket s.manager isMaster masterDstNodeTTL srcNodeId dstNodeId packetType dataSize
  if isMaster ∧ masterDstNodeTTL = 0 then
    return { s with manager }
  let seqNum := s.manager.allocatedPacket.map fun i => (manager.entry i).packet.txSeqNum
  return { s with manager, given := Function.update s.given dstNodeId (s.given dstNodeId ++ seqNum.toList) }

def getNextTxDataPacket (isMaster : Bool) (s : TxRun) (burstSize : Nat) : Except Fault (Option Nat × TxManager) :=
  if isMaster then masterGetNextTxDataPacket s.manager burstSize else nodeGetNextTxDataPacket s.manager

def step (isMaster : Bool) (s : TxRun) : TxAction → Except Fault TxRun
  | .allocate => do
      let (_, manager) ← allocateTxPacket s.manager
      return { s with manager }
  | .write data => .ok { s with manager := writeAllocatedPacket s.manager data }
  | .submit ttl src dst type size => s.submit isMaster ttl src dst type size
  | .transmit burstSize => do
      let (_, manager) ← s.getNextTxDataPacket isMaster burstSize
      return { s with manager }
  | .ack src ackSeqNum => do
      let (numFreed, manager) ← rxAckSeqNum s.manager src ackSeqNum isMaster
      return { s with manager, freed := Function.update s.freed src (s.freed src + numFreed) }

def unacked (s : TxRun) (d : TNodeIndex) : List UInt8 := (s.given d).drop (s.freed d)

/-- As `nodeInit` and `masterTxInit` set the manager up, on memory that may hold anything. -/
def start (isMaster : Bool) (maxPacketEntries : UInt8) (packetEntries : Nat → PacketEntry) : TxRun where
  manager :=
    if isMaster then initTxManager maxNodes (some NodeQueue.empty) maxPacketEntries packetEntries
    else initTxManager 1 none maxPacketEntries packetEntries
  given _ := []
  freed _ := 0

end TxRun

def txSystem (isMaster : Bool) (maxPacketEntries : UInt8) : System TxRun TxAction Fault where
  init s := ∃ packetEntries, s = .start isMaster maxPacketEntries packetEntries
  step := TxRun.step isMaster

def sendAndAck (n : Nat) : List TxAction :=
  [.allocate, .submit 0 1 masterNodeId .nodeData 1, .transmit 1, .ack masterNodeId (seq n)]

namespace PacketStore

def usedEntries (s : PacketStore) : Finset Nat :=
  (Finset.range s.maxEntries.toNat).filter fun i => (s.entries i).inUse = true

theorem mem_usedEntries {s : PacketStore} {i : Nat} :
    i ∈ s.usedEntries ↔ i < s.maxEntries.toNat ∧ (s.entries i).inUse = true := by
  unfold usedEntries
  rw [Finset.mem_filter, Finset.mem_range]

theorem card_usedEntries_le (s : PacketStore) : s.usedEntries.card ≤ s.maxEntries.toNat :=
  (Finset.card_filter_le _ _).trans (Finset.card_range _).le

/-- `n` entries are given back, and counted. -/
structure Frees (s s' : PacketStore) (n : Nat) : Prop where
  maxEntries : s'.maxEntries = s.maxEntries
  used : s'.usedEntries.card + n = s.usedEntries.card
  counted : s'.numStored - s'.numFreed = s.numStored - s.numFreed - UInt32.ofNat n

namespace Frees

variable {s s' s'' : PacketStore} {n k : Nat}

theorem refl (s : PacketStore) : s.Frees s 0 := ⟨rfl, rfl, (UInt32.sub_zero _).symm⟩

theorem trans (h : s.Frees s' n) (h' : s'.Frees s'' k) : s.Frees s'' (n + k) where
  maxEntries := h'.maxEntries.trans h.maxEntries
  used := by
    have := h.used
    have := h'.used
    omega
  counted := by
    rw [h'.counted, h.counted, UInt32.ofNat_add]
    grind

end Frees

theorem freePacket_frees {s s' : PacketStore} {d : TNodeIndex} {q : UInt8} {isMaster : Bool}
    (h : freePacket s d q isMaster = .ok s') : s.Frees s' 1 := by
  obtain ⟨i, hfind, h⟩ := bind_eq_ok.mp h
  cases h
  have hi : i ∈ s.usedEntries := by
    unfold findPacketEntry at hfind
    split at hfind
    · rename_i j hj
      cases hfind
      obtain ⟨hmatch, hlt, -⟩ := List.find?_range_eq_some.mp hj
      unfold PacketEntry.isMatch at hmatch
      simp only [Bool.and_eq_true] at hmatch
      exact mem_usedEntries.mpr ⟨List.mem_range.mp hlt, hmatch.1.1⟩
    · cases hfind
  refine ⟨rfl, ?_, ?_⟩
  · have herase : PacketStore.usedEntries { s.setInUse i false with numFreed := s.numFreed + 1 } =
      s.usedEntries.erase i := by
      ext j
      rw [Finset.mem_erase, mem_usedEntries, mem_usedEntries]
      by_cases hj : j = i
      · subst hj
        simp [PacketStore.setInUse]
      · simp [PacketStore.setInUse, hj]
    rw [herase, Finset.card_erase_of_mem hi]
    exact Nat.sub_add_cancel (Finset.card_pos.mpr ⟨i, hi⟩)
  · change s.numStored - (s.numFreed + 1) = s.numStored - s.numFreed - 1
    grind

end PacketStore

theorem TxManager.numInUse_eq (m : TxManager) : m.numInUse = m.packetStore.usedEntries.card := rfl

theorem TxManager.usedEntries_takeEntry {m : TxManager} {i : Nat} (hf : m.FirstFree i) :
    (m.takeEntry i).packetStore.usedEntries.card = m.packetStore.usedEntries.card + 1 := by
  have hi : i ∉ m.packetStore.usedEntries := by
    rw [PacketStore.mem_usedEntries]
    rintro ⟨-, huse⟩
    exact Bool.noConfusion (hf.free.symm.trans huse)
  rw [← Finset.card_insert_of_notMem hi]
  congr 1
  ext j
  rw [Finset.mem_insert, PacketStore.mem_usedEntries, PacketStore.mem_usedEntries]
  have hentry := m.entry_takeEntry i j
  unfold TxManager.entry at hentry
  rw [hentry]
  by_cases hj : j = i
  · subst hj
    rw [if_pos rfl]
    exact iff_of_true ⟨hf.lt, rfl⟩ (Or.inl rfl)
  · rw [if_neg hj]
    exact ⟨fun h => Or.inr h, fun h => h.resolve_left hj⟩

theorem TxManager.usedEntries_congr {m m' : TxManager} (hsize : m'.size = m.size)
    (huse : ∀ i, (m'.entry i).inUse = (m.entry i).inUse) :
    m'.packetStore.usedEntries = m.packetStore.usedEntries := by
  ext i
  rw [PacketStore.mem_usedEntries, PacketStore.mem_usedEntries]
  unfold TxManager.size at hsize
  unfold TxManager.entry at huse
  rw [hsize, huse]

theorem TxManager.usedEntries_submitEntry (m : TxManager) (i : Nat) (p : Packet) (dst : TNodeIndex)
    (q : Option NodeQueue) :
    (m.submitEntry i p dst q).packetStore.usedEntries = m.packetStore.usedEntries := by
  refine usedEntries_congr rfl fun j => ?_
  rw [entry_submit]
  by_cases hj : j = i
  · rw [if_pos hj, hj]
  · rw [if_neg hj]

section Acknowledge

variable {isMaster : Bool} {m m' : TxManager} {g : Ledger} {d : TNodeIndex}

theorem freeAckedPackets_frees {newStart : UInt8} {fuel n : Nat} :
    ∀ {seqNum : UInt8} {count : Nat} {m m' : TxManager},
    freeAckedPackets d newStart isMaster fuel seqNum count m = .ok (n, m') →
      count ≤ n ∧ m.packetStore.Frees m'.packetStore (n - count) := by
  induction fuel with
  | zero => exact fun h => by cases h
  | succ fuel ih =>
      intro seqNum count m m' h
      unfold freeAckedPackets at h
      split at h
      · obtain ⟨store, hfree, h⟩ := bind_eq_ok.mp h
        obtain ⟨hle, hrest⟩ := ih h
        have hone := PacketStore.freePacket_frees hfree
        refine ⟨by omega, ?_⟩
        have hsum : n - count = 1 + (n - (count + 1)) := by omega
        rw [hsum]
        exact hone.trans hrest
      · cases h
        rw [Nat.sub_self]
        exact ⟨Nat.le_refl n, .refl _⟩

/-- What the loop does to the counters when it comes to its end. -/
theorem CountersAt.freeAckedPackets_inv (c : CountersAt m g d) {r : Nat} (hfull : g.stop d < g.start d + 255)
    (hr : r ≤ g.stop d) : ∀ n k fuel count s x m', k + n = r → g.start d ≤ k →
      freeAckedPackets d (seq r) isMaster fuel (seq k) count
        { m with
          packetStore := s
          txSeqNumNext := Function.update m.txSeqNumNext d (seq (if g.next d < k then r else g.next d)) } =
            .ok (x, m') →
      x = count + n ∧ m' = { m with
        packetStore := m'.packetStore
        txSeqNumNext := Function.update m.txSeqNumNext d (seq (max (g.next d) r)) } := by
  intro n
  induction n with
  | zero =>
      intro k fuel count s x m' hk hstart h
      obtain rfl : k = r := hk
      cases fuel with
      | zero => cases h
      | succ fuel =>
          have hmax : (if g.next d < k then k else g.next d) = max (g.next d) k := by
            split <;> omega
          unfold freeAckedPackets at h
          rw [if_neg (not_not.mpr rfl), hmax] at h
          cases h
          exact ⟨rfl, rfl⟩
  | succ n ih =>
      intro k fuel count s x m' hk hstart h
      cases fuel with
      | zero => cases h
      | succ fuel =>
          have hkr : k < r := by omega
          have hne : seq k ≠ seq r := by
            rw [Ne, seq_eq_iff]
            intro hc
            have := Cyclic.eq_of_mod_eq hc (by omega) (by omega)
            omega
          have hnext := next_while_freeing m.txSeqNumNext d c.start_le_next c.next_le_stop hfull hstart hkr hr
          unfold freeAckedPackets at h
          rw [if_pos hne] at h
          obtain ⟨s₁, -, h⟩ := bind_eq_ok.mp h
          simp only [Function.update_self, incr_seq, hnext] at h
          obtain ⟨hx, hm⟩ := ih (k + 1) fuel (count + 1) s₁ x m' (by omega) (by omega) h
          exact ⟨by omega, hm⟩

/-- All that an acknowledgement can do to the counters and to the number of entries in use. -/
theorem Counters.rxAck_inv (c : Counters m g) {a : UInt8} {n : Nat} (h : rxAckSeqNum m d a isMaster = .ok (n, m')) :
    (n = 0 ∧ m' = m) ∨ (n = 0 ∧ m' = m.missAck d) ∨
      ∃ k s q, g.start d ≤ k ∧ k < g.stop d ∧ g.stop d < g.start d + 255 ∧ n = k + 1 - g.start d ∧
        m' = { m.acknowledge isMaster g d (k + 1) s with activeTxNodes := q } ∧ m.packetStore.Frees s n := by
  by_cases ha : a = nullSequenceNum
  · subst ha
    rw [rxAckSeqNum_null] at h
    cases h
    exact Or.inl ⟨rfl, rfl⟩
  · have htable := rxAckSeqNum_source h ha
    rcases (c.at d).rxAck_cases ha with ⟨hfull, k, hs, he, rfl⟩ | ⟨hv, -⟩
    · refine Or.inr (Or.inr ?_)
      have hvalid : validAckSeqNum (m.txSeqNumStart d) (m.txSeqNumEnd d) (seq k) = true := by
        rw [c.start_eq, c.stop_eq]
        exact (validAck_seq_iff (c.start_le_stop d) (c.window_le_255 d)).mpr ⟨hfull, k, hs, he, rfl⟩
      unfold rxAckSeqNum at h
      have hk : ¬ seq k = invalidSequenceNum := seq_ne_null k
      rw [if_neg hk, checkIndex, if_pos htable] at h
      obtain ⟨_, -, h⟩ := bind_eq_ok.mp h
      dsimp only at h
      rw [if_pos hvalid, incr_seq] at h
      obtain ⟨⟨x, m₁⟩, hloop, h⟩ := bind_eq_ok.mp h
      have hfrees := (freeAckedPackets_frees hloop).2
      have hbegin : m = { m with
          packetStore := m.packetStore
          txSeqNumNext := Function.update m.txSeqNumNext d
            (seq (if g.next d < g.start d then k + 1 else g.next d)) } := by
        rw [if_neg (Nat.not_lt.mpr (c.start_le_next d)), ← c.next_eq, Function.update_eq_self]
      rw [hbegin, c.start_eq] at hloop
      obtain ⟨rfl, hm₁⟩ := (c.at d).freeAckedPackets_inv hfull (Nat.succ_le_of_lt he) (k + 1 - g.start d)
        (g.start d) 256 0
        m.packetStore x m₁ (by omega) (Nat.le_refl _) hloop
      rw [Nat.sub_zero, Nat.zero_add] at hfrees
      dsimp only at h
      split at h
      · split at h
        · cases h
        · obtain ⟨q, -, h⟩ := bind_eq_ok.mp h
          cases h
          refine ⟨k, m₁.packetStore, some q, hs, he, hfull, Nat.zero_add _, ?_, ?_⟩
          · rw [hm₁]
            rfl
          · rw [Nat.zero_add]
            exact hfrees
      · cases h
        refine ⟨k, m₁.packetStore, m₁.activeTxNodes, hs, he, hfull, Nat.zero_add _, ?_, ?_⟩
        · rw [hm₁]
          rfl
        · rw [Nat.zero_add]
          exact hfrees
    · rw [rxAckSeqNum_missed htable ha hv] at h
      cases h
      exact Or.inr (Or.inl ⟨rfl, rfl⟩)

theorem Counters.rxAck_frees (c : Counters m g) {a : UInt8} {n : Nat} (h : rxAckSeqNum m d a isMaster = .ok (n, m')) :
    m.packetStore.Frees m'.packetStore n := by
  rcases c.rxAck_inv h with ⟨rfl, rfl⟩ | ⟨rfl, rfl⟩ | ⟨k, s, q, -, -, -, -, rfl, hfrees⟩
  · exact .refl _
  · rw [(sameStore_missAck m d).packetStore]
    exact .refl _
  · exact hfrees

end Acknowledge

theorem TxRun.transmit_ok {isMaster : Bool} {s s' : TxRun} {burstSize : Nat}
    (h : s.step isMaster (.transmit burstSize) = .ok s') :
    ∃ m, s.manager.Moves m (s.manager.turn isMaster burstSize) ∧ s' = { s with manager := m } := by
  obtain ⟨⟨r, m⟩, hget, h⟩ := bind_eq_ok.mp h
  cases h
  refine ⟨m, ?_, rfl⟩
  cases isMaster with
  | true => exact TxManager.masterGetNext_moves hget
  | false => exact TxManager.nodeGetNext_moves hget burstSize

def Ledger.numQueued (g : Ledger) : Nat :=
  ∑ x ∈ Finset.range 256, (g.stop (UInt8.ofNat x) - g.start (UInt8.ofNat x))

theorem ofNat_toNat_of_lt {x : Nat} (hx : x < 256) : (UInt8.ofNat x).toNat = x := by
  rw [UInt8.toNat_ofNat']
  exact Nat.mod_eq_of_lt hx

theorem sum_windows {f u : TNodeIndex → Nat} {d : TNodeIndex} (h : ∀ x, x ≠ d → u x = f x) :
    ∑ x ∈ Finset.range 256, u (UInt8.ofNat x) + f d = ∑ x ∈ Finset.range 256, f (UInt8.ofNat x) + u d := by
  have hd : d.toNat ∈ Finset.range 256 := Finset.mem_range.mpr d.toNat_lt
  have hself : UInt8.ofNat d.toNat = d := UInt8.ofNat_toNat
  have hrest : ∑ x ∈ (Finset.range 256).erase d.toNat, u (UInt8.ofNat x) =
      ∑ x ∈ (Finset.range 256).erase d.toNat, f (UInt8.ofNat x) := by
    refine Finset.sum_congr rfl fun x hx => h _ fun hc => ?_
    obtain ⟨hne, hlt⟩ := Finset.mem_erase.mp hx
    rw [← hc, ofNat_toNat_of_lt (Finset.mem_range.mp hlt)] at hne
    exact hne rfl
  rw [← Finset.sum_erase_add _ _ hd, ← Finset.sum_erase_add _ _ hd, hrest, hself]
  omega

theorem Ledger.window_le_numQueued (g : Ledger) (d : TNodeIndex) : g.stop d - g.start d ≤ g.numQueued := by
  have hd : d.toNat ∈ Finset.range 256 := Finset.mem_range.mpr d.toNat_lt
  have hself : UInt8.ofNat d.toNat = d := UInt8.ofNat_toNat
  have hle := Finset.single_le_sum (f := fun x => g.stop (UInt8.ofNat x) - g.start (UInt8.ofNat x))
    (fun _ _ => Nat.zero_le _) hd
  rw [hself] at hle
  exact hle

/-- The counters stand for the history, and there are entries in use for all packets of the windows and for the
allocated one. -/
structure TxRun.Counted (s : TxRun) (g : Ledger) : Prop where
  counters : Counters s.manager g
  given : ∀ d, s.given d = (List.range (g.stop d)).map seq
  freed : ∀ d, s.freed d = g.start d
  backed : g.numQueued + (if s.manager.allocatedPacket.isSome then 1 else 0) ≤ s.manager.packetStore.usedEntries.card

namespace TxRun.Counted

variable {isMaster : Bool} {s s' : TxRun} {g g' : Ledger} {d : TNodeIndex} {m : TxManager}

theorem window_le (h : s.Counted g) (d : TNodeIndex) :
    g.stop d - g.start d + (if s.manager.allocatedPacket.isSome then 1 else 0) ≤ 255 := by
  have hd := g.window_le_numQueued d
  have hb := h.backed
  have hcard := s.manager.packetStore.card_usedEntries_le
  have hsize := s.manager.size_le
  unfold TxManager.size at hsize
  omega

theorem unacked (h : s.Counted g) (d : TNodeIndex) :
    s.unacked d = (List.range' (g.start d) (g.stop d - g.start d)).map seq := by
  unfold TxRun.unacked
  rw [h.given, h.freed, ← List.map_drop, List.range_eq_range', List.drop_range']
  simp

theorem sameHistory (h : s.Counted g) (hc : Counters m g') (hstart : g'.start = g.start) (hstop : g'.stop = g.stop)
    (hbacked : (if m.allocatedPacket.isSome then 1 else 0) + s.manager.packetStore.usedEntries.card ≤
      m.packetStore.usedEntries.card + (if s.manager.allocatedPacket.isSome then 1 else 0)) :
    TxRun.Counted { s with manager := m } g' where
  counters := hc
  given d := by
    rw [hstop]
    exact h.given d
  freed d := by
    rw [hstart]
    exact h.freed d
  backed := by
    have hb := h.backed
    have hnum : g'.numQueued = g.numQueued := by
      unfold Ledger.numQueued
      rw [hstart, hstop]
    change g'.numQueued + (if m.allocatedPacket.isSome then 1 else 0) ≤ m.packetStore.usedEntries.card
    omega

theorem allocate (h : s.Counted g) {r : Option Nat} (ha : allocateTxPacket s.manager = .ok (r, m)) :
    TxRun.Counted { s with manager := m } g := by
  have hc := h.counters
  rcases allocateTxPacket_ok ha with ⟨-, rfl⟩ | ⟨i, hf, hn, ⟨-, rfl, -⟩ | ⟨-, rfl⟩⟩
  · exact h
  · refine h.sameHistory ⟨hc.start_eq, hc.next_eq, hc.stop_eq, hc.start_le_next, hc.next_le_stop, hc.window_le_255⟩
      rfl rfl ?_
    rw [TxManager.usedEntries_takeEntry hf]
    change (if s.manager.allocatedPacket.isSome then 1 else 0) + _ ≤ _
    omega
  · refine h.sameHistory ⟨hc.start_eq, hc.next_eq, hc.stop_eq, hc.start_le_next, hc.next_le_stop, hc.window_le_255⟩
      rfl rfl ?_
    change 1 + _ ≤ (s.manager.takeEntry i).packetStore.usedEntries.card + _
    rw [TxManager.usedEntries_takeEntry hf]
    omega

theorem write (h : s.Counted g) (data : PacketData) :
    TxRun.Counted { s with manager := writeAllocatedPacket s.manager data } g := by
  have hc := h.counters
  have t : Touched true s.manager (writeAllocatedPacket s.manager data) := touched_write s.manager data
  refine h.sameHistory ⟨?_, ?_, ?_, hc.start_le_next, hc.next_le_stop, hc.window_le_255⟩ rfl rfl ?_
  · rw [t.start]
    exact hc.start_eq
  · rw [t.next]
    exact hc.next_eq
  · rw [t.stop]
    exact hc.stop_eq
  · rw [t.allocated, TxManager.usedEntries_congr t.size t.inUse]
    omega

theorem submit (h : s.Counted g) {ttl : Nat} {src dst : TNodeIndex} {type : PacketType} {size : UInt16}
    (hs : s.submit isMaster ttl src dst type size = .ok s') : ∃ g', s'.Counted g' ∧ g'.start = g.start ∧
    g'.next = g.next := by
  have hc := h.counters
  obtain ⟨m, hsubmit, hs⟩ := bind_eq_ok.mp hs
  rcases submitAllocatedTxPacket_ok hsubmit with ⟨hmaster, httl, rfl⟩ | ⟨i, q, ha, httl, hdst, -, -, -, rfl⟩
  · rw [if_pos ⟨hmaster, httl⟩] at hs
    cases hs
    refine ⟨g, h.sameHistory ⟨hc.start_eq, hc.next_eq, hc.stop_eq, hc.start_le_next, hc.next_le_stop,
      hc.window_le_255⟩
      rfl rfl ?_, rfl, rfl⟩
    change 0 + s.manager.packetStore.usedEntries.card ≤ s.manager.packetStore.usedEntries.card + _
    omega
  · rw [if_neg fun hlate => (httl hlate.1).ne' hlate.2] at hs
    cases hs
    have hroom := h.window_le dst
    have hle := hc.start_le_stop dst
    rw [ha, Option.isSome_some, if_pos rfl] at hroom
    have hb := h.backed
    rw [ha, Option.isSome_some, if_pos rfl] at hb
    have hsum := sum_windows (f := fun x => g.stop x - g.start x)
      (u := fun x => (g.submit i dst).stop x - (g.submit i dst).start x) (d := dst) fun x hx => by
        simp only [Ledger.submit]
        rw [Function.update_of_ne hx]
    have hself : (g.submit i dst).stop dst = g.stop dst + 1 := Function.update_self _ _ _
    rw [hself] at hsum
    refine ⟨g.submit i dst, ⟨hc.submit (by omega), fun x => ?_, h.freed, ?_⟩, rfl, rfl⟩
    · have hnum : ((s.manager.submitEntry i (fillHeader (s.manager.entry i).packet isMaster src dst type size
          (s.manager.txSeqNumEnd dst)) dst q).entry i).packet.txSeqNum = seq (g.stop dst) := by
        rw [entry_submit, if_pos rfl, ← hc.stop_eq]
        rfl
      change Function.update s.given dst (s.given dst ++ _) x = _
      rw [ha, Option.map_some, hnum]
      by_cases hx : x = dst
      · subst hx
        rw [Function.update_self, hself, h.given, List.range_succ, List.map_append]
        rfl
      · rw [Function.update_of_ne hx, h.given]
        simp only [Ledger.submit]
        rw [Function.update_of_ne hx]
    · change (g.submit i dst).numQueued + 0 ≤ (PacketStore.usedEntries _).card
      rw [TxManager.usedEntries_submitEntry]
      unfold Ledger.numQueued at hb ⊢
      have hstart : (g.submit i dst).start dst = g.start dst := rfl
      rw [hstart] at hsum
      omega

theorem transmit (h : s.Counted g) {turn : Option TNodeIndex} (hm : s.manager.Moves m turn)
    (hturn : ∀ d, turn = some d → s.manager.MaySend d) :
    TxRun.Counted { s with manager := m } (turn.elim g g.advance) := by
  have hc := h.counters
  have hused : (if m.allocatedPacket.isSome then 1 else 0) + s.manager.packetStore.usedEntries.card ≤
      m.packetStore.usedEntries.card + (if s.manager.allocatedPacket.isSome then 1 else 0) := by
    rw [hm.allocated, TxManager.usedEntries_congr hm.size hm.inUse]
    omega
  have hnext := hm.next
  cases turn with
  | none =>
      refine h.sameHistory ⟨?_, ?_, ?_, hc.start_le_next, hc.next_le_stop, hc.window_le_255⟩ rfl rfl hused
      · rw [hm.start]
        exact hc.start_eq
      · rw [hnext]
        exact hc.next_eq
      · rw [hm.stop]
        exact hc.stop_eq
  | some d =>
      change m.txSeqNumNext = Function.update s.manager.txSeqNumNext d
        (incrSequenceNum (s.manager.txSeqNumNext d)) at hnext
      rw [hc.next_eq, incr_seq] at hnext
      have hlt := hc.next_lt_stop (hturn d rfl).2
      exact h.sameHistory (hc.moveNext (Nat.le_succ_of_le (hc.start_le_next d)) hlt hm.start hnext hm.stop) rfl rfl
        hused

theorem ack (h : s.Counted g) {src : TNodeIndex} {a : UInt8} {n : Nat}
    (hack : rxAckSeqNum s.manager src a isMaster = .ok (n, m)) :
    ∃ g', TxRun.Counted { s with manager := m, freed := Function.update s.freed src (s.freed src + n) } g' ∧
      (g' = g ∨ g' = g.rewind src ∨ ∃ k, g.start src ≤ k ∧ k < g.stop src ∧
        g' = g.acknowledge src (k + 1)) := by
  have hc := h.counters
  have hsame : n = 0 → Function.update s.freed src (s.freed src + n) = s.freed := by
    rintro rfl
    exact Function.update_eq_self src s.freed
  rcases hc.rxAck_inv hack with ⟨hn, rfl⟩ | ⟨hn, rfl⟩ | ⟨k, store, q, hs, he, hfull, hn, rfl, hfrees⟩
  · rw [hsame hn]
    exact ⟨g, h, Or.inl rfl⟩
  · rw [hsame hn]
    have t := sameStore_missAck s.manager src
    refine ⟨g.missAck s.manager src, h.sameHistory hc.missAck (g.missAck_start _ _) (g.missAck_stop _ _) ?_, ?_⟩
    · rw [t.allocated, t.packetStore]
      omega
    · unfold Ledger.missAck
      split
      · exact Or.inr (Or.inl rfl)
      · exact Or.inl rfl
  · have hc' : Counters (s.manager.acknowledge isMaster g src (k + 1) store) (g.acknowledge src (k + 1)) :=
      hc.acknowledge (by omega) he
    refine ⟨g.acknowledge src (k + 1), ⟨?_, h.given, fun x => ?_, ?_⟩, Or.inr (Or.inr ⟨k, hs, he, rfl⟩)⟩
    · exact ⟨hc'.start_eq, hc'.next_eq, hc'.stop_eq, hc'.start_le_next, hc'.next_le_stop, hc'.window_le_255⟩
    · change Function.update s.freed src (s.freed src + n) x = Function.update g.start src (k + 1) x
      by_cases hx : x = src
      · subst hx
        rw [Function.update_self, Function.update_self, h.freed]
        omega
      · rw [Function.update_of_ne hx, Function.update_of_ne hx, h.freed]
    · have hb := h.backed
      have hsum := sum_windows (f := fun x => g.stop x - g.start x)
        (u := fun x => (g.acknowledge src (k + 1)).stop x - (g.acknowledge src (k + 1)).start x)
          (d := src) fun x hx => by
          simp only [Ledger.acknowledge]
          rw [Function.update_of_ne hx]
      have hself : (g.acknowledge src (k + 1)).start src = k + 1 := Function.update_self _ _ _
      have hstop : (g.acknowledge src (k + 1)).stop src = g.stop src := rfl
      have hused := hfrees.used
      rw [hself, hstop] at hsum
      change (g.acknowledge src (k + 1)).numQueued + (if s.manager.allocatedPacket.isSome then 1 else 0) ≤
        store.usedEntries.card
      unfold Ledger.numQueued at hb ⊢
      omega

theorem step (h : s.Counted g) {a : TxAction} (hs : s.step isMaster a = .ok s') : ∃ g', s'.Counted g' := by
  cases a with
  | allocate =>
      obtain ⟨⟨r, m⟩, halloc, hs⟩ := bind_eq_ok.mp hs
      cases hs
      exact ⟨g, h.allocate halloc⟩
  | write data =>
      cases hs
      exact ⟨g, h.write data⟩
  | submit ttl src dst type size =>
      obtain ⟨g', h', -⟩ := h.submit hs
      exact ⟨g', h'⟩
  | transmit burstSize =>
      obtain ⟨m, hm, rfl⟩ := TxRun.transmit_ok hs
      exact ⟨_, h.transmit hm fun d hd => s.manager.maySend_of_turn hd⟩
  | ack src a =>
      obtain ⟨⟨n, m⟩, hack, hs⟩ := bind_eq_ok.mp hs
      cases hs
      obtain ⟨g', h', -⟩ := h.ack hack
      exact ⟨g', h'⟩

theorem start (isMaster : Bool) (maxPacketEntries : UInt8) (packetEntries : Nat → PacketEntry) :
    (TxRun.start isMaster maxPacketEntries packetEntries).Counted Ledger.zero := by
  have hnum : Ledger.zero.numQueued = 0 := Finset.sum_eq_zero fun _ _ => rfl
  have hc : Counters (TxRun.start isMaster maxPacketEntries packetEntries).manager Ledger.zero := by
    cases isMaster with
    | true =>
        have h : StoreInv true (TxRun.start true maxPacketEntries packetEntries).manager Ledger.zero :=
          storeInv_init _ _ _ _
        exact h.counters
    | false =>
        have h : StoreInv false (TxRun.start false maxPacketEntries packetEntries).manager Ledger.zero :=
          storeInv_init _ _ _ _
        exact h.counters
  refine ⟨hc, fun _ => rfl, fun _ => rfl, ?_⟩
  rw [hnum]
  cases isMaster with
  | true => exact Nat.zero_le _
  | false => exact Nat.zero_le _

end TxRun.Counted

theorem counted_of_reachable {isMaster : Bool} {maxPacketEntries : UInt8} {s : TxRun}
    (h : (txSystem isMaster maxPacketEntries).Reachable s) : ∃ g, s.Counted g := by
  refine System.ReachableWhen.invariant (P := fun s => ∃ g, TxRun.Counted s g) h ?_ ?_
  · rintro s ⟨packetEntries, rfl⟩
    exact ⟨_, .start isMaster maxPacketEntries packetEntries⟩
  · rintro s a s' ⟨g, hg⟩ - hs
    exact hg.step hs

end Microbus
