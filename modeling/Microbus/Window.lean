import Microbus.MasterSlots

/-! The window of one destination as the counters of any state describe it. -/
namespace Microbus

variable {isMaster : Bool} {m : TxManager} {g : Ledger} {d : TNodeIndex}

/-- The counters are sequence numbers, and the number to send next lies in the window. -/
structure TxManager.WindowAt (m : TxManager) (d : TNodeIndex) : Prop where
  start : m.txSeqNumStart d ≠ nullSequenceNum
  next : m.txSeqNumNext d ≠ nullSequenceNum
  stop : m.txSeqNumEnd d ≠ nullSequenceNum
  inWindow : cyclicLength (m.txSeqNumStart d) (m.txSeqNumNext d) ≤ cyclicLength (m.txSeqNumStart d) (m.txSeqNumEnd d)

/-- The entry holds number `s` of destination `d`. -/
structure TxManager.Stores (isMaster : Bool) (m : TxManager) (d : TNodeIndex) (s : UInt8) (i : Nat) : Prop where
  lt : i < m.size
  inUse : (m.entry i).inUse = true
  key : entryKey isMaster (m.entry i) = (d, s)

/-- Each number of the window is held by exactly one entry. -/
def TxManager.WindowStored (isMaster : Bool) (m : TxManager) (d : TNodeIndex) : Prop :=
  ∀ s, m.InWindow d s → ∃ i, m.Stores isMaster d s i ∧ ∀ j, m.Stores isMaster d s j → j = i

theorem TxManager.WindowAt.nextInRange (h : m.WindowAt d) (hne : m.txSeqNumStart d ≠ m.txSeqNumEnd d) :
    Microbus.nextInRange (m.txSeqNumStart d) (m.txSeqNumEnd d) (m.txSeqNumNext d) := by
  have hs := toNat_lt_255 h.start
  have hn := toNat_lt_255 h.next
  have he := toNat_lt_255 h.stop
  have hw := h.inWindow
  have hne' : (m.txSeqNumStart d).toNat ≠ (m.txSeqNumEnd d).toNat := fun hc => hne (UInt8.toNat_inj.mp hc)
  unfold cyclicLength at hw
  unfold Microbus.nextInRange
  simp only [ge_iff_le, UInt8.le_iff_toNat_le]
  split <;> omega

/-- The number to send next is in the window unless all of it is sent. -/
theorem TxManager.WindowAt.next_inWindow (h : m.WindowAt d) (hne : m.txSeqNumNext d ≠ m.txSeqNumEnd d) :
    m.InWindow d (m.txSeqNumNext d) := by
  have hs := toNat_lt_255 h.start
  have hn := toNat_lt_255 h.next
  have he := toNat_lt_255 h.stop
  have hw := h.inWindow
  have hne' : (m.txSeqNumNext d).toNat ≠ (m.txSeqNumEnd d).toNat := fun hc => hne (UInt8.toNat_inj.mp hc)
  refine ⟨h.next, ?_⟩
  unfold cyclicLength at hw ⊢
  omega

theorem TxManager.Stores.find {s : UInt8} {i : Nat} (h : m.Stores isMaster d s i)
    (hd : ValidDst isMaster d) (hone : ∀ j, m.Stores isMaster d s j → j = i) :
    findPacketEntry m.packetStore d s isMaster = .ok i := by
  have hfind : (List.range m.packetStore.maxEntries.toNat).find?
      (fun i => (m.packetStore.entries i).isMatch d s isMaster) = some i := by
    refine List.find?_range_eq_some.mpr ⟨(isMatch_iff hd).mpr ⟨h.inUse, h.key⟩, List.mem_range.mpr h.lt, ?_⟩
    intro j hj
    rw [Bool.not_eq_true', Bool.eq_false_iff]
    intro hmatch
    obtain ⟨huse, hkey⟩ := (isMatch_iff hd).mp hmatch
    exact hj.ne (hone j ⟨hj.trans h.lt, huse, hkey⟩)
  unfold findPacketEntry
  rw [hfind]

theorem CountersAt.windowAt (c : CountersAt m g d) (hfull : g.stop d < g.start d + 255) : m.WindowAt d where
  start := by
    rw [c.start_eq]
    exact seq_ne_null _
  next := by
    rw [c.next_eq]
    exact seq_ne_null _
  stop := by
    rw [c.stop_eq]
    exact seq_ne_null _
  inWindow := by
    have hsn := c.start_le_next
    have hne := c.next_le_stop
    rw [c.start_eq, c.next_eq, c.stop_eq, cyclicLength_seq hsn, cyclicLength_seq c.start_le_stop]
    rw [Nat.mod_eq_of_lt (by omega), Nat.mod_eq_of_lt (by omega)]
    omega

/-- With no packet allocated every entry that holds a number of the window is live. -/
theorem StoreInv.windowStored (h : StoreInv isMaster m g) (hnone : m.allocatedPacket = none) (d : TNodeIndex) :
    m.WindowStored isMaster d := by
  intro s hs
  obtain ⟨-, k, hsk, hke, rfl⟩ := (h.counters.inWindow_iff d).mp hs
  obtain ⟨i, hi, ho⟩ := h.owner_surj d k hsk hke
  have hkey : entryKey isMaster (m.entry i) = (d, seq k) := by rw [h.owner_key i hi, ho]
  refine ⟨i, ⟨hi.lt, hi.inUse, hkey⟩, fun j hj => ?_⟩
  have hlive : m.Live j := ⟨hj.lt, hj.inUse, by rw [hnone]; exact nofun⟩
  exact h.live_eq_of_key hlive hi (hj.key.trans hkey.symm)

end Microbus
