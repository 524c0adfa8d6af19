import Microbus.SeqNum
import Mathlib.Order.Interval.Finset.Nat
import Mathlib.Data.Finset.Card

/-! What the packet store holds: one entry for each packet of each window. The counters of
the code are read as positions in the streams of packets submitted so far. -/
namespace Microbus

/-- What `findPacketEntry` compares: a node ignores the destination. -/
def entryKey (isMaster : Bool) (e : PacketEntry) : TNodeIndex × UInt8 :=
  (if isMaster then e.packet.dstNodeId else masterNodeId, e.packet.txSeqNum)

/-- A node has one destination only. -/
def ValidDst (isMaster : Bool) (d : TNodeIndex) : Prop := isMaster = false → d = masterNodeId

theorem validDst_master {d : TNodeIndex} : ValidDst true d := fun hc => by cases hc

theorem isMatch_iff {isMaster : Bool} {e : PacketEntry} {d : TNodeIndex} {s : UInt8}
    (hd : ValidDst isMaster d) :
    e.isMatch d s isMaster = true ↔ e.inUse = true ∧ entryKey isMaster e = (d, s) := by
  cases isMaster with
  | true => simp [PacketEntry.isMatch, entryKey, and_assoc]
  | false =>
      have hd' : masterNodeId = d := (hd rfl).symm
      simp [PacketEntry.isMatch, entryKey, hd']

namespace TxManager

def entry (m : TxManager) (i : Nat) : PacketEntry := m.packetStore.entries i

def size (m : TxManager) : Nat := m.packetStore.maxEntries.toNat

/-- A submitted packet waits in the entry. -/
structure Live (m : TxManager) (i : Nat) : Prop where
  lt : i < m.size
  inUse : (m.entry i).inUse = true
  notAllocated : m.allocatedPacket ≠ some i

theorem size_le (m : TxManager) : m.size ≤ 255 := Nat.le_of_lt_succ m.packetStore.maxEntries.toNat_lt

end TxManager

/-- The positions behind the counters of each destination, and for each entry the packet
that it holds: its destination and its position. -/
structure Ledger where
  start : TNodeIndex → Nat
  next : TNodeIndex → Nat
  stop : TNodeIndex → Nat
  owner : Nat → TNodeIndex × Nat

/-- The counters of the code stand for positions, in windows of at most all 255 numbers. -/
structure Counters (m : TxManager) (g : Ledger) : Prop where
  start_eq : ∀ d, m.txSeqNumStart d = seq (g.start d)
  next_eq : ∀ d, m.txSeqNumNext d = seq (g.next d)
  stop_eq : ∀ d, m.txSeqNumEnd d = seq (g.stop d)
  start_le_next : ∀ d, g.start d ≤ g.next d
  next_le_stop : ∀ d, g.next d ≤ g.stop d
  window_le_255 : ∀ d, g.stop d ≤ g.start d + 255

structure CountersAt (m : TxManager) (g : Ledger) (d : TNodeIndex) : Prop where
  start_eq : m.txSeqNumStart d = seq (g.start d)
  next_eq : m.txSeqNumNext d = seq (g.next d)
  stop_eq : m.txSeqNumEnd d = seq (g.stop d)
  start_le_next : g.start d ≤ g.next d
  next_le_stop : g.next d ≤ g.stop d
  window_le_255 : g.stop d ≤ g.start d + 255

/-- A search for a packet of a window finds an entry. -/
def Findable (isMaster : Bool) (m : TxManager) (g : Ledger) : Prop :=
  ∀ d a, ValidDst isMaster d → g.start d ≤ a → a < g.stop d →
    ∃ i, findPacketEntry m.packetStore d (seq a) isMaster = .ok i

/-- The live entries are exactly the packets of the windows. -/
structure StoreInv (isMaster : Bool) (m : TxManager) (g : Ledger) : Prop where
  start_eq : ∀ d, m.txSeqNumStart d = seq (g.start d)
  next_eq : ∀ d, m.txSeqNumNext d = seq (g.next d)
  stop_eq : ∀ d, m.txSeqNumEnd d = seq (g.stop d)
  start_le_next : ∀ d, g.start d ≤ g.next d
  next_le_stop : ∀ d, g.next d ≤ g.stop d
  table : ∀ d, g.start d < g.stop d → d.toNat < m.maxTxNodes
  allocated : ∀ u, m.allocatedPacket = some u → u < m.size ∧ (m.entry u).inUse = true
  owner_mem : ∀ i, m.Live i → g.start (g.owner i).1 ≤ (g.owner i).2 ∧ (g.owner i).2 < g.stop (g.owner i).1
  owner_key : ∀ i, m.Live i → entryKey isMaster (m.entry i) = ((g.owner i).1, seq (g.owner i).2)
  owner_inj : ∀ i j, m.Live i → m.Live j → g.owner i = g.owner j → i = j
  owner_surj : ∀ d a, g.start d ≤ a → a < g.stop d → ∃ i, m.Live i ∧ g.owner i = (d, a)

/-- No live entry hides behind the entry that is allocated and not yet submitted. -/
def Unshadowed (isMaster : Bool) (m : TxManager) : Prop :=
  ∀ u, m.allocatedPacket = some u → ∀ j, m.Live j → u < j →
    entryKey isMaster (m.entry u) ≠ entryKey isMaster (m.entry j)

/-- The headers left over in the entries that hold no packet: what first-fit allocation
guarantees as long as no node is removed. -/
structure Fresh (isMaster : Bool) (m : TxManager) : Prop where
  stale : ∀ i j, i < j → ¬ m.Live i → m.Live j →
    entryKey isMaster (m.entry i) ≠ entryKey isMaster (m.entry j)
  staleEnd : ∀ u, m.allocatedPacket = some u → ∀ i, i < u → (m.entry i).inUse = false →
    ∀ d, entryKey isMaster (m.entry i) ≠ (d, m.txSeqNumEnd d)

variable {isMaster : Bool} {m : TxManager} {g : Ledger}

theorem Fresh.unshadowed (h : Fresh isMaster m) : Unshadowed isMaster m := by
  intro u hu j hj huj
  exact h.stale u j huj (fun hl => hl.notAllocated hu) hj

namespace StoreInv

theorem start_le_stop (h : StoreInv isMaster m g) (d : TNodeIndex) : g.start d ≤ g.stop d :=
  (h.start_le_next d).trans (h.next_le_stop d)

/-- A window takes no more entries than there are, beside the allocated one. -/
theorem window_le_free (h : StoreInv isMaster m g) (d : TNodeIndex) :
    g.stop d - g.start d ≤ ((Finset.range m.size).filter fun i => m.allocatedPacket ≠ some i).card := by
  rw [← Nat.card_Ico]
  refine Finset.card_le_card_of_surjOn (fun i => (g.owner i).2) ?_
  intro a ha
  have ha' := Finset.mem_Ico.mp (Finset.mem_coe.mp ha)
  obtain ⟨i, hi, ho⟩ := h.owner_surj d a ha'.1 ha'.2
  refine ⟨i, ?_, by simp only [ho]⟩
  rw [Finset.mem_coe, Finset.mem_filter, Finset.mem_range]
  exact ⟨hi.lt, hi.notAllocated⟩

theorem window_le (h : StoreInv isMaster m g) (d : TNodeIndex) : g.stop d ≤ g.start d + m.size := by
  have hle := h.window_le_free d
  have hcard := (Finset.card_filter_le (Finset.range m.size) fun i => m.allocatedPacket ≠ some i)
  rw [Finset.card_range] at hcard
  have := h.start_le_stop d
  omega

theorem window_lt_of_allocated (h : StoreInv isMaster m g) {u : Nat} (hu : m.allocatedPacket = some u)
    (d : TNodeIndex) : g.stop d < g.start d + m.size := by
  have hlt := (h.allocated u hu).1
  have hle := h.window_le_free d
  have hcard : ((Finset.range m.size).filter fun i => m.allocatedPacket ≠ some i).card < m.size := by
    conv_rhs => rw [← Finset.card_range m.size]
    refine Finset.card_lt_card (Finset.filter_ssubset.mpr ⟨u, Finset.mem_range.mpr hlt, ?_⟩)
    exact not_not.mpr hu
  have := h.start_le_stop d
  omega

theorem window_le_255 (h : StoreInv isMaster m g) (d : TNodeIndex) : g.stop d ≤ g.start d + 255 :=
  (h.window_le d).trans (Nat.add_le_add_left m.size_le _)

theorem counters (h : StoreInv isMaster m g) : Counters m g :=
  ⟨h.start_eq, h.next_eq, h.stop_eq, h.start_le_next, h.next_le_stop, h.window_le_255⟩

/-- Live entries with one key are one entry. -/
theorem live_eq_of_key (h : StoreInv isMaster m g) {i j : Nat} (hi : m.Live i) (hj : m.Live j)
    (hk : entryKey isMaster (m.entry i) = entryKey isMaster (m.entry j)) : i = j := by
  rw [h.owner_key i hi, h.owner_key j hj, Prod.mk.injEq] at hk
  refine h.owner_inj i j hi hj (Prod.ext hk.1 ?_)
  obtain ⟨hi1, hi2⟩ := h.owner_mem i hi
  obtain ⟨hj1, hj2⟩ := h.owner_mem j hj
  have hw := h.window_le_255 (g.owner j).1
  rw [hk.1] at hi1 hi2
  exact Cyclic.eq_of_mod_eq (seq_eq_iff.mp hk.2) (by omega) (by omega)

theorem find_live (h : StoreInv isMaster m g) (hu : Unshadowed isMaster m) {d : TNodeIndex} {a i : Nat}
    (hd : ValidDst isMaster d) (hi : m.Live i) (ho : g.owner i = (d, a)) :
    findPacketEntry m.packetStore d (seq a) isMaster = .ok i := by
  have hkey : entryKey isMaster (m.entry i) = (d, seq a) := by rw [h.owner_key i hi, ho]
  have hfind : (List.range m.packetStore.maxEntries.toNat).find?
      (fun i => (m.packetStore.entries i).isMatch d (seq a) isMaster) = some i := by
    refine List.find?_range_eq_some.mpr ⟨(isMatch_iff hd).mpr ⟨hi.inUse, hkey⟩, List.mem_range.mpr hi.lt, ?_⟩
    intro j hj
    have hne : ¬ (m.entry j).isMatch d (seq a) isMaster = true := by
      intro hmatch
      obtain ⟨huse, hjkey⟩ := (isMatch_iff hd).mp hmatch
      by_cases hp : m.allocatedPacket = some j
      · exact hu j hp i hi hj (hjkey.trans hkey.symm)
      · exact hj.ne (h.live_eq_of_key ⟨hj.trans hi.lt, huse, hp⟩ hi (hjkey.trans hkey.symm))
    simpa [TxManager.entry] using hne
  unfold findPacketEntry
  rw [hfind]

theorem findable (h : StoreInv isMaster m g) (hu : Unshadowed isMaster m) : Findable isMaster m g := by
  intro d a hd hs he
  obtain ⟨i, hi, ho⟩ := h.owner_surj d a hs he
  exact ⟨i, h.find_live hu hd hi ho⟩

end StoreInv

theorem Counters.at (c : Counters m g) (d : TNodeIndex) : CountersAt m g d :=
  ⟨c.start_eq d, c.next_eq d, c.stop_eq d, c.start_le_next d, c.next_le_stop d, c.window_le_255 d⟩

theorem CountersAt.start_le_stop {d : TNodeIndex} (c : CountersAt m g d) : g.start d ≤ g.stop d :=
  c.start_le_next.trans c.next_le_stop

theorem Counters.start_le_stop (c : Counters m g) (d : TNodeIndex) : g.start d ≤ g.stop d :=
  (c.start_le_next d).trans (c.next_le_stop d)

end Microbus
