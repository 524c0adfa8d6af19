import Microbus.TxInvariant

/-! What each function of the transmit manager does when the store holds the windows. -/
namespace Microbus

open Transition

variable {isMaster : Bool} {m m' : TxManager} {g : Ledger} {d : TNodeIndex}

theorem StoreInv.congr (h : StoreInv isMaster m g) (hstart : m'.txSeqNumStart = m.txSeqNumStart)
    (hnext : m'.txSeqNumNext = m.txSeqNumNext) (hend : m'.txSeqNumEnd = m.txSeqNumEnd)
    (htable : m'.maxTxNodes = m.maxTxNodes) (hlive : ∀ i, m'.Live i ↔ m.Live i)
    (hkey : ∀ i, m.Live i → entryKey isMaster (m'.entry i) = entryKey isMaster (m.entry i))
    (halloc : ∀ u, m'.allocatedPacket = some u → u < m'.size ∧ (m'.entry u).inUse = true) :
    StoreInv isMaster m' g where
  start_eq d := by rw [hstart, h.start_eq]
  next_eq d := by rw [hnext, h.next_eq]
  stop_eq d := by rw [hend, h.stop_eq]
  start_le_next := h.start_le_next
  next_le_stop := h.next_le_stop
  table d hd := by rw [htable]; exact h.table d hd
  allocated := halloc
  owner_mem i hi := h.owner_mem i ((hlive i).mp hi)
  owner_key i hi := by
    have hi' := (hlive i).mp hi
    rw [hkey i hi', h.owner_key i hi']
  owner_inj i j hi hj := h.owner_inj i j ((hlive i).mp hi) ((hlive j).mp hj)
  owner_surj d a hs he := by
    obtain ⟨i, hi, ho⟩ := h.owner_surj d a hs he
    exact ⟨i, (hlive i).mpr hi, ho⟩

def TxManager.takeEntry (m : TxManager) (i : Nat) : TxManager :=
  { m with
    packetStore := { m.packetStore.setInUse i true with numStored := m.packetStore.numStored + 1 } }

structure TxManager.FirstFree (m : TxManager) (i : Nat) : Prop where
  lt : i < m.size
  free : (m.entry i).inUse = false
  first : ∀ j, j < i → (m.entry j).inUse = true

theorem TxManager.entry_takeEntry (m : TxManager) (i j : Nat) :
    (m.takeEntry i).entry j = if j = i then { m.entry i with inUse := true } else m.entry j := by
  by_cases hj : j = i
  · subst hj
    simp [takeEntry, entry, PacketStore.setInUse]
  · simp [takeEntry, entry, PacketStore.setInUse, hj]

theorem allocateTxPacket_ok {r : Option Nat} (h : allocateTxPacket m = .ok (r, m')) :
    (r = none ∧ m' = m) ∨ ∃ i, m.FirstFree i ∧ m.allocatedPacket = none ∧
      ((r = none ∧ m' = m.takeEntry i ∧ ∃ q, m.activeTxNodes = some q ∧ maxNodes ≤ q.numNodes) ∨
        (r = some i ∧ m' = { m.takeEntry i with allocatedPacket := some i })) := by
  unfold allocateTxPacket allocatePacketEntry at h
  cases hf : (List.range m.packetStore.maxEntries.toNat).find?
      (fun i => !(m.packetStore.entries i).inUse) with
  | none =>
      rw [hf] at h
      cases h
      exact Or.inl ⟨rfl, rfl⟩
  | some i =>
      rw [hf] at h
      obtain ⟨hp, hi, hmin⟩ := List.find?_range_eq_some.mp hf
      have hfirst : m.FirstFree i :=
        ⟨List.mem_range.mp hi,
          by simpa [TxManager.entry] using hp, fun j hj => by simpa [TxManager.entry] using hmin j hj⟩
      simp only at h
      split at h
      · cases h
      · rename_i hnone
        have hnone' : m.allocatedPacket = none := by simpa using hnone
        refine Or.inr ⟨i, hfirst, hnone', ?_⟩
        split at h
        · rename_i hfull
          cases h
          obtain ⟨q, hq, hn⟩ := (Option.any_eq_true _ _).mp hfull
          exact Or.inl ⟨rfl, rfl, q, hq, by simpa using hn⟩
        · cases h
          exact Or.inr ⟨rfl, rfl⟩

section Allocate

variable {i : Nat}

theorem live_allocate (hf : m.FirstFree i) (hn : m.allocatedPacket = none) (j : Nat) :
    ({ m.takeEntry i with allocatedPacket := some i } : TxManager).Live j ↔ m.Live j := by
  constructor
  · intro h
    have hji : j ≠ i := fun hc => h.notAllocated (by rw [hc])
    have hu := h.inUse
    change ((m.takeEntry i).entry j).inUse = true at hu
    rw [m.entry_takeEntry, if_neg hji] at hu
    exact ⟨h.lt, hu, by simp [hn]⟩
  · intro h
    have hji : j ≠ i := by
      rintro rfl
      exact Bool.noConfusion (hf.free.symm.trans h.inUse)
    refine ⟨h.lt, ?_, ?_⟩
    · change ((m.takeEntry i).entry j).inUse = true
      rw [m.entry_takeEntry, if_neg hji]
      exact h.inUse
    · intro hc
      exact hji (Option.some.inj hc).symm

theorem key_takeEntry (j : Nat) :
    entryKey isMaster ((m.takeEntry i).entry j) = entryKey isMaster (m.entry j) := by
  rw [m.entry_takeEntry]
  by_cases hj : j = i
  · subst hj
    rw [if_pos rfl]
    rfl
  · rw [if_neg hj]

theorem StoreInv.allocate (h : StoreInv isMaster m g) (hf : m.FirstFree i) (hn : m.allocatedPacket = none) :
    StoreInv isMaster { m.takeEntry i with allocatedPacket := some i } g := by
  refine h.congr rfl rfl rfl rfl (live_allocate hf hn) (fun j _ => key_takeEntry j) ?_
  intro u hu
  obtain rfl : i = u := Option.some.inj hu
  refine ⟨hf.lt, ?_⟩
  change ((m.takeEntry i).entry i).inUse = true
  rw [m.entry_takeEntry, if_pos rfl]

theorem Fresh.allocate (h : Fresh isMaster m) (hf : m.FirstFree i) (hn : m.allocatedPacket = none) :
    Fresh isMaster { m.takeEntry i with allocatedPacket := some i } where
  stale j k hjk hj hk := by
    change entryKey isMaster ((m.takeEntry i).entry j) ≠ entryKey isMaster ((m.takeEntry i).entry k)
    rw [key_takeEntry, key_takeEntry]
    exact h.stale j k hjk (fun hl => hj ((live_allocate hf hn j).mpr hl)) ((live_allocate hf hn k).mp hk)
  staleEnd u hu j hj hfree := by
    obtain rfl : i = u := Option.some.inj hu
    change ((m.takeEntry i).entry j).inUse = false at hfree
    rw [m.entry_takeEntry, if_neg hj.ne] at hfree
    exact absurd (hf.first j hj) (by rw [hfree]; exact Bool.noConfusion)

end Allocate

theorem entry_setPacket (m : TxManager) (i : Nat) (p : Packet) (j : Nat) :
    (m.packetStore.setPacket i p).entries j =
      if j = i then { m.entry i with packet := p } else m.entry j := by
  by_cases hj : j = i
  · subst hj
    simp [PacketStore.setPacket, TxManager.entry]
  · simp [PacketStore.setPacket, TxManager.entry, hj]

/-- An entry's packet is rewritten, its header key kept. -/
structure Touched (isMaster : Bool) (m m' : TxManager) : Prop where
  start : m'.txSeqNumStart = m.txSeqNumStart
  next : m'.txSeqNumNext = m.txSeqNumNext
  stop : m'.txSeqNumEnd = m.txSeqNumEnd
  maxTxNodes : m'.maxTxNodes = m.maxTxNodes
  allocated : m'.allocatedPacket = m.allocatedPacket
  size : m'.size = m.size
  inUse : ∀ i, (m'.entry i).inUse = (m.entry i).inUse
  key : ∀ i, entryKey isMaster (m'.entry i) = entryKey isMaster (m.entry i)

namespace Touched

theorem refl (isMaster : Bool) (m : TxManager) : Touched isMaster m m :=
  ⟨rfl, rfl, rfl, rfl, rfl, rfl, fun _ => rfl, fun _ => rfl⟩

theorem live (t : Touched isMaster m m') (i : Nat) : m'.Live i ↔ m.Live i := by
  constructor
  · intro h
    exact ⟨t.size ▸ h.lt, t.inUse i ▸ h.inUse, t.allocated ▸ h.notAllocated⟩
  · intro h
    exact ⟨t.size.symm ▸ h.lt, (t.inUse i).symm ▸ h.inUse, t.allocated.symm ▸ h.notAllocated⟩

theorem storeInv (t : Touched isMaster m m') (h : StoreInv isMaster m g) : StoreInv isMaster m' g := by
  refine h.congr t.start t.next t.stop t.maxTxNodes t.live (fun i _ => t.key i) ?_
  intro u hu
  rw [t.size, t.inUse]
  exact h.allocated u (t.allocated ▸ hu)

theorem fresh (t : Touched isMaster m m') (h : Fresh isMaster m) : Fresh isMaster m' where
  stale i j hij hi hj := by
    rw [t.key, t.key]
    exact h.stale i j hij (fun hl => hi ((t.live i).mpr hl)) ((t.live j).mp hj)
  staleEnd u hu i hi hfree d := by
    rw [t.key, t.stop]
    exact h.staleEnd u (t.allocated ▸ hu) i hi (t.inUse i ▸ hfree) d

theorem setPacket (m : TxManager) (i : Nat) (p : Packet)
    (hk : entryKey isMaster { m.entry i with packet := p } = entryKey isMaster (m.entry i)) :
    Touched isMaster m { m with packetStore := m.packetStore.setPacket i p } where
  start := rfl
  next := rfl
  stop := rfl
  maxTxNodes := rfl
  allocated := rfl
  size := rfl
  inUse j := by
    change ((m.packetStore.setPacket i p).entries j).inUse = _
    rw [entry_setPacket]
    by_cases hj : j = i
    · rw [if_pos hj, hj]
    · rw [if_neg hj]
  key j := by
    change entryKey isMaster ((m.packetStore.setPacket i p).entries j) = _
    rw [entry_setPacket]
    by_cases hj : j = i
    · rw [if_pos hj, hj, hk]
    · rw [if_neg hj]

end Touched

theorem touched_write (m : TxManager) (data : PacketData) :
    Touched isMaster m (writeAllocatedPacket m data) := by
  unfold writeAllocatedPacket
  split
  · exact Touched.refl _ _
  · rename_i i hi
    exact Touched.setPacket m i _ rfl

@[simp] theorem activeTxNodes_write (m : TxManager) (data : PacketData) :
    (writeAllocatedPacket m data).activeTxNodes = m.activeTxNodes := by
  unfold writeAllocatedPacket
  split <;> rfl

theorem entry_write {j : Nat} (hj : m.allocatedPacket ≠ some j) (data : PacketData) :
    (writeAllocatedPacket m data).entry j = m.entry j := by
  unfold writeAllocatedPacket
  split
  · rfl
  · rename_i i hi
    have hne : j ≠ i := fun hc => hj (hc ▸ hi)
    exact (entry_setPacket m i _ j).trans (if_neg hne)

theorem submitAllocatedTxPacket_ok {ttl : Nat} {src dst : TNodeIndex} {type : PacketType} {size : UInt16}
    (h : submitAllocatedTxPacket m isMaster ttl src dst type size = .ok m') :
    (isMaster = true ∧ ttl = 0 ∧ m' = { m with allocatedPacket := none }) ∨
      ∃ i q, m.allocatedPacket = some i ∧ (isMaster = true → 0 < ttl) ∧ ValidDst isMaster dst ∧
        dst.toNat < maxNodes ∧ dst.toNat < m.maxTxNodes ∧ addActiveTxNode m isMaster dst = .ok q ∧
        m' = m.submitEntry i
          (fillHeader (m.entry i).packet isMaster src dst type size (m.txSeqNumEnd dst)) dst q := by
  unfold submitAllocatedTxPacket at h
  split at h
  · rename_i hlate
    exact Or.inl ⟨hlate.1, Nat.le_zero.mp hlate.2, (pure_eq_ok.mp h).symm⟩
  · rename_i hlate
    obtain ⟨_, hids, h⟩ := bind_eq_ok.mp h
    rw [microbusAssert_ok] at hids
    split at h
    · rename_i i hi
      obtain ⟨_, hnode, h⟩ := bind_eq_ok.mp h
      rw [microbusAssert_ok] at hnode
      obtain ⟨_, htable, h⟩ := bind_eq_ok.mp h
      rw [checkIndex_ok] at htable
      obtain ⟨q, hq, h⟩ := bind_eq_ok.mp h
      have httl : isMaster = true → 0 < ttl := by
        intro hm
        by_contra hc
        exact hlate ⟨hm, by omega⟩
      rw [if_neg (fun hc => (httl hc.1).ne' hc.2)] at h
      exact Or.inr ⟨i, q, hi, httl, fun hm => (hnode hm).1, hids.2, htable, hq, (pure_eq_ok.mp h).symm⟩
    · cases h

theorem allocateTxPacket_error {f : Fault} (h : allocateTxPacket m = .error f) :
    f = .assertFailed .allocateTxPacket := by
  unfold allocateTxPacket at h
  split at h
  · cases h
  · simp only at h
    split at h
    · exact (Except.error.inj h).symm
    · split at h <;> cases h

theorem allocateTxPacket_of_firstFree {i : Nat} (hfree : m.FirstFree i) (hn : m.allocatedPacket = none)
    (hroom : ∀ q, m.activeTxNodes = some q → q.numNodes < maxNodes) :
    allocateTxPacket m = .ok (some i, { m.takeEntry i with allocatedPacket := some i }) := by
  have hi : (List.range m.packetStore.maxEntries.toNat).find? (fun i => !(m.packetStore.entries i).inUse) = some i := by
    refine List.find?_range_eq_some.mpr ⟨?_, List.mem_range.mpr hfree.lt, fun j hj => ?_⟩
    · simpa [TxManager.entry] using hfree.free
    · simpa [TxManager.entry] using hfree.first j hj
  have hsome : ¬ m.allocatedPacket.isSome = true := by simp [hn]
  have hspare : ¬ m.activeTxNodes.any (fun q => q.numNodes ≥ maxNodes) = true := by
    intro hc
    obtain ⟨q, hq, hfull⟩ := (Option.any_eq_true _ _).mp hc
    exact absurd (hroom q hq) (Nat.not_lt.mpr (of_decide_eq_true hfull))
  unfold allocateTxPacket allocatePacketEntry
  rw [hi]
  dsimp only
  rw [if_neg hsome, if_neg hspare]
  rfl

theorem TxManager.exists_firstFree {j : Nat} (hj : j < m.size) (hfree : (m.entry j).inUse = false) :
    ∃ i, m.FirstFree i := by
  obtain ⟨i, hi⟩ : ∃ i, (List.range m.packetStore.maxEntries.toNat).find?
    (fun i => !(m.packetStore.entries i).inUse) = some i := by
    rw [← Option.isSome_iff_exists, List.find?_isSome]
    refine ⟨j, List.mem_range.mpr hj, ?_⟩
    rw [Bool.not_eq_true']
    exact hfree
  obtain ⟨hp, hlt, hmin⟩ := List.find?_range_eq_some.mp hi
  exact ⟨i, List.mem_range.mp hlt,
    by simpa [TxManager.entry] using hp, fun j hj => by simpa [TxManager.entry] using hmin j hj⟩

theorem allocateTxPacket_of_free {j : Nat} (hn : m.allocatedPacket = none) (hq : m.activeTxNodes = none)
    (hj : j < m.size) (hfree : (m.entry j).inUse = false) :
    ∃ i, m.FirstFree i ∧ allocateTxPacket m = .ok (some i, { m.takeEntry i with allocatedPacket := some i }) := by
  obtain ⟨i, hi⟩ := TxManager.exists_firstFree hj hfree
  refine ⟨i, hi, allocateTxPacket_of_firstFree hi hn fun q hc => ?_⟩
  rw [hq] at hc
  cases hc

theorem allocateTxPacket_total (hn : m.allocatedPacket = none) : ∃ r, allocateTxPacket m = .ok r := by
  unfold allocateTxPacket
  split
  · exact ⟨_, rfl⟩
  · simp only [hn, Option.isSome_none, Bool.false_eq_true, if_false]
    split
    · exact ⟨_, rfl⟩
    · exact ⟨_, rfl⟩

theorem submitAllocatedTxPacket_total {ttl i : Nat} {src dst : TNodeIndex} {type : PacketType} {size : UInt16}
    {q : Option NodeQueue} (ha : m.allocatedPacket = some i) (hids : src.toNat < maxNodes ∧ dst.toNat < maxNodes)
    (htable : dst.toNat < m.maxTxNodes) (hnode : isMaster = false → dst = 0 ∧ type ≠ .masterData)
    (hq : addActiveTxNode m isMaster dst = .ok q) :
    ∃ m', submitAllocatedTxPacket m isMaster ttl src dst type size = .ok m' := by
  unfold submitAllocatedTxPacket
  by_cases hlate : isMaster = true ∧ ttl ≤ 0
  · rw [if_pos hlate]
    exact ⟨_, rfl⟩
  · have hthere : ¬ (isMaster = true ∧ ttl = 0) := fun hc => hlate ⟨hc.1, hc.2.le⟩
    rw [if_neg hlate]
    simp only [ha, microbusAssert, checkIndex, if_pos hids, if_pos hnode, if_pos htable, hq, bind, Except.bind,
      if_neg hthere]
    exact ⟨_, rfl⟩

/-- To a node that is there, only a submission without an allocation fails. -/
theorem submitAllocatedTxPacket_error {ttl : Nat} {src dst : TNodeIndex} {type : PacketType} {size : UInt16}
    {f : Fault} (httl : ttl ≠ 0) (hsrc : src.toNat < maxNodes) (hdst : dst.toNat < maxNodes)
    (htable : dst.toNat < m.maxTxNodes)
    (hadd : m.allocatedPacket ≠ none → ∃ q, addActiveTxNode m true dst = .ok q)
    (h : submitAllocatedTxPacket m true ttl src dst type size = .error f) :
    f = .nullPointer .submitAllocatedTxPacket := by
  unfold submitAllocatedTxPacket at h
  rw [if_neg (fun hc => httl (Nat.le_zero.mp hc.2)), microbusAssert, if_pos ⟨hsrc, hdst⟩] at h
  cases ha : m.allocatedPacket with
  | none =>
      rw [ha] at h
      exact (Except.error.inj h).symm
  | some i =>
      obtain ⟨q, hq⟩ := hadd (by rw [ha]; exact Option.some_ne_none i)
      rw [ha] at h
      simp only [bind, Except.bind, microbusAssert, checkIndex, htable, hq, httl, Bool.true_eq_false, false_implies,
        if_true, and_false, if_false] at h
      cases h

section Submit

variable {i : Nat} {dst : TNodeIndex} {q : Option NodeQueue} {p : Packet}

/-- One more packet in the window of `dst`, held by entry `i`. -/
def Ledger.submit (g : Ledger) (i : Nat) (dst : TNodeIndex) : Ledger :=
  { g with
    stop := Function.update g.stop dst (g.stop dst + 1)
    owner := Function.update g.owner i (dst, g.stop dst) }

theorem live_submit (ha : m.allocatedPacket = some i) (hi : i < m.size ∧ (m.entry i).inUse = true) (j : Nat) :
    (m.submitEntry i p dst q).Live j ↔ j = i ∨ m.Live j := by
  have hentry : (m.submitEntry i p dst q).entry j =
      if j = i then { m.entry i with packet := p } else m.entry j := entry_setPacket m i p j
  constructor
  · intro h
    by_cases hj : j = i
    · exact Or.inl hj
    · have hu := h.inUse
      rw [hentry, if_neg hj] at hu
      exact Or.inr ⟨h.lt, hu, by rw [ha]; exact fun hc => hj (Option.some.inj hc).symm⟩
  · intro h
    by_cases hj : j = i
    · subst hj
      exact ⟨hi.1, by rw [hentry, if_pos rfl]; exact hi.2, by simp [TxManager.submitEntry]⟩
    · have hl := h.resolve_left hj
      exact ⟨hl.lt, by rw [hentry, if_neg hj]; exact hl.inUse, by simp [TxManager.submitEntry]⟩

theorem key_submit (m : TxManager) (i : Nat) (p : Packet) (dst : TNodeIndex) (q : Option NodeQueue) (j : Nat) :
    entryKey isMaster ((m.submitEntry i p dst q).entry j) =
      if j = i then entryKey isMaster { m.entry i with packet := p } else entryKey isMaster (m.entry j) := by
  rw [show (m.submitEntry i p dst q).entry j = _ from entry_setPacket m i p j]
  split <;> rfl

theorem key_fillHeader {src : TNodeIndex} {type : PacketType} {size : UInt16} {s : UInt8} {e : PacketEntry}
    (hd : ValidDst isMaster dst) :
    entryKey isMaster { e with packet := fillHeader e.packet isMaster src dst type size s } = (dst, s) := by
  cases isMaster with
  | true => rfl
  | false => rw [hd rfl]; rfl

theorem entry_submit (m : TxManager) (i : Nat) (p : Packet) (dst : TNodeIndex) (q : Option NodeQueue) (j : Nat) :
    (m.submitEntry i p dst q).entry j = if j = i then { m.entry i with packet := p } else m.entry j :=
  entry_setPacket m i p j

theorem addActiveTxNode_node (h : addActiveTxNode m false dst = .ok q) : q = m.activeTxNodes := by
  unfold addActiveTxNode at h
  rw [if_neg (fun hc => Bool.noConfusion hc.1)] at h
  exact (Except.ok.inj h).symm

theorem StoreInv.submit (h : StoreInv isMaster m g) (ha : m.allocatedPacket = some i)
    (htable : dst.toNat < m.maxTxNodes)
    (hk : entryKey isMaster { m.entry i with packet := p } = (dst, m.txSeqNumEnd dst)) :
    StoreInv isMaster (m.submitEntry i p dst q) (g.submit i dst) where
  start_eq := h.start_eq
  next_eq := h.next_eq
  stop_eq d := by
    simp only [TxManager.submitEntry, Ledger.submit]
    by_cases hd : d = dst
    · subst hd
      rw [Function.update_self, Function.update_self, h.stop_eq, incr_seq]
    · rw [Function.update_of_ne hd, Function.update_of_ne hd, h.stop_eq]
  start_le_next := h.start_le_next
  next_le_stop d := by
    have hle := h.next_le_stop d
    simp only [Ledger.submit]
    by_cases hd : d = dst
    · subst hd
      rw [Function.update_self]
      exact Nat.le_succ_of_le hle
    · rw [Function.update_of_ne hd]
      exact hle
  table d hd := by
    simp only [Ledger.submit] at hd
    by_cases hdd : d = dst
    · rw [hdd]; exact htable
    · rw [Function.update_of_ne hdd] at hd
      exact h.table d hd
  allocated u hu := by cases hu
  owner_mem j hj := by
    simp only [Ledger.submit]
    rcases (live_submit ha (h.allocated i ha) j).mp hj with rfl | hl
    · simp only [Function.update_self]
      exact ⟨h.start_le_stop dst, Nat.lt_succ_self _⟩
    · have hne : j ≠ i := fun hc => hl.notAllocated (hc ▸ ha)
      obtain ⟨h1, h2⟩ := h.owner_mem j hl
      rw [Function.update_of_ne hne]
      refine ⟨h1, ?_⟩
      by_cases hd : (g.owner j).1 = dst
      · rw [hd, Function.update_self]
        rw [hd] at h2
        exact Nat.lt_succ_of_lt h2
      · rw [Function.update_of_ne hd]
        exact h2
  owner_key j hj := by
    rw [key_submit]
    simp only [Ledger.submit]
    rcases (live_submit ha (h.allocated i ha) j).mp hj with rfl | hl
    · rw [if_pos rfl, Function.update_self, hk, h.stop_eq]
    · have hne : j ≠ i := fun hc => hl.notAllocated (hc ▸ ha)
      rw [if_neg hne, Function.update_of_ne hne]
      exact h.owner_key j hl
  owner_inj j k hj hk' hjk := by
    have hnew : ∀ {l}, m.Live l → l ≠ i ∧ g.owner l ≠ (dst, g.stop dst) := by
      intro l hl
      refine ⟨fun hc => hl.notAllocated (hc ▸ ha), ?_⟩
      intro hc
      have hmem := (h.owner_mem l hl).2
      rw [hc] at hmem
      exact Nat.lt_irrefl _ hmem
    simp only [Ledger.submit] at hjk
    rcases (live_submit ha (h.allocated i ha) j).mp hj with rfl | hl
    · rcases (live_submit ha (h.allocated j ha) k).mp hk' with rfl | hl'
      · rfl
      · rw [Function.update_self, Function.update_of_ne (hnew hl').1] at hjk
        exact absurd hjk.symm (hnew hl').2
    · rcases (live_submit ha (h.allocated i ha) k).mp hk' with rfl | hl'
      · rw [Function.update_self, Function.update_of_ne (hnew hl).1] at hjk
        exact absurd hjk (hnew hl).2
      · rw [Function.update_of_ne (hnew hl).1, Function.update_of_ne (hnew hl').1] at hjk
        exact h.owner_inj j k hl hl' hjk
  owner_surj d a hs he := by
    simp only [Ledger.submit] at he ⊢
    by_cases hnew : (d, a) = (dst, g.stop dst)
    · exact ⟨i, (live_submit ha (h.allocated i ha) i).mpr (Or.inl rfl), by rw [Function.update_self, hnew]⟩
    · have he' : a < g.stop d := by
        by_cases hd : d = dst
        · subst hd
          rw [Function.update_self] at he
          have hne : a ≠ g.stop d := fun hc => hnew (by rw [hc])
          omega
        · rwa [Function.update_of_ne hd] at he
      obtain ⟨j, hj, ho⟩ := h.owner_surj d a hs he'
      have hne : j ≠ i := fun hc => hj.notAllocated (hc ▸ ha)
      exact ⟨j, (live_submit ha (h.allocated i ha) j).mpr (Or.inr hj), by rw [Function.update_of_ne hne, ho]⟩

theorem Fresh.submit (h : Fresh isMaster m) (hinv : StoreInv isMaster m g) (ha : m.allocatedPacket = some i)
    (hk : entryKey isMaster { m.entry i with packet := p } = (dst, m.txSeqNumEnd dst)) :
    Fresh isMaster (m.submitEntry i p dst q) where
  stale j k hjk hj hk' := by
    have hi := hinv.allocated i ha
    have hj' : j ≠ i ∧ ¬ m.Live j := by
      constructor
      · exact fun hc => hj ((live_submit ha hi j).mpr (Or.inl hc))
      · exact fun hc => hj ((live_submit ha hi j).mpr (Or.inr hc))
    rw [key_submit, key_submit, if_neg hj'.1]
    rcases (live_submit ha hi k).mp hk' with rfl | hl
    · rw [if_pos rfl, hk]
      -- `j` holds no packet and is not the allocated entry, so it is free
      have hfree : (m.entry j).inUse = false := by
        by_contra hc
        refine hj'.2 ⟨hjk.trans hi.1, by simpa using hc, ?_⟩
        rw [ha]
        exact fun hc => hj'.1 (Option.some.inj hc).symm
      exact h.staleEnd k ha j hjk hfree dst
    · rw [if_neg (fun hc : k = i => hl.notAllocated (hc ▸ ha))]
      exact h.stale j k hjk hj'.2 hl
  staleEnd u hu := by cases hu

end Submit

end Microbus
