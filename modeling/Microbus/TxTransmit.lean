import Microbus.TxOps

/-! What transmission, acknowledgement and reception do when the store holds the windows. -/
namespace Microbus

open Transition

variable {isMaster : Bool} {m m' : TxManager} {g : Ledger} {d : TNodeIndex}

/-- `activeTxNodes` lists the destinations with a non-empty window. -/
def QueueInv (m : TxManager) (g : Ledger) : Prop :=
  ∃ q, m.activeTxNodes = some q ∧ q.toList.Nodup ∧ ∀ d, d ∈ q.toList ↔ g.start d < g.stop d

theorem QueueInv.congr (h : QueueInv m g) {g' : Ledger}
    (hactive : m'.activeTxNodes.map NodeQueue.toList = m.activeTxNodes.map NodeQueue.toList)
    (hwindow : ∀ d, g'.start d < g'.stop d ↔ g.start d < g.stop d) : QueueInv m' g' := by
  obtain ⟨q, hq, hnodup, hmem⟩ := h
  rw [hq, Option.map_some] at hactive
  obtain ⟨q', hq', hlist⟩ := Option.map_eq_some_iff.mp hactive
  refine ⟨q', hq', by rw [hlist]; exact hnodup, ?_⟩
  intro d
  rw [hlist, hmem, hwindow]

theorem length_le_of_nodup {l : List TNodeIndex} {n : Nat} (hl : l.Nodup) (hn : ∀ d ∈ l, d.toNat < n) :
    l.length ≤ n := by
  have hmap : (l.map UInt8.toNat).Nodup := hl.map fun a b => UInt8.toNat_inj.mp
  have hsub : (l.map UInt8.toNat).toFinset ⊆ Finset.range n := by
    intro x hx
    obtain ⟨d, hd, rfl⟩ := List.mem_map.mp (List.mem_toFinset.mp hx)
    exact Finset.mem_range.mpr (hn d hd)
  have hcard := Finset.card_le_card hsub
  rwa [List.toFinset_card_of_nodup hmap, List.length_map, Finset.card_range] at hcard

theorem nodeQueueAdd_total_of_nodup {q : NodeQueue} {dst : TNodeIndex} (hq : q.toList.Nodup)
    (hlt : ∀ d ∈ q.toList, d.toNat < maxNodes) (hd : dst.toNat < maxNodes) (hnew : dst ∉ q.toList) :
    ∃ q', nodeQueueAdd q dst = .ok q' := by
  refine nodeQueueAdd_total dst ?_
  have hlen := length_le_of_nodup (l := dst :: q.toList) (List.nodup_cons.mpr ⟨hnew, hq⟩)
    (fun x hx => (List.mem_cons.mp hx).elim (fun hx => hx ▸ hd) (hlt x))
  rw [List.length_cons, q.length_toList] at hlen
  omega

theorem Counters.end_eq_start_iff (c : Counters m g) (hfull : g.stop d < g.start d + 255) :
    m.txSeqNumEnd d = m.txSeqNumStart d ↔ ¬ g.start d < g.stop d := by
  have hle := c.start_le_stop d
  rw [c.start_eq, c.stop_eq, eq_comm, seq_start_eq_end hle (c.window_le_255 d)]
  omega

theorem StoreInv.room_of_allocated (h : StoreInv isMaster m g) {i : Nat} (ha : m.allocatedPacket = some i)
    (d : TNodeIndex) : g.stop d < g.start d + 255 :=
  (h.window_lt_of_allocated ha d).trans_le (Nat.add_le_add_left m.size_le _)

theorem addActiveTxNode_total (c : Counters m g) (hq : QueueInv m g)
    (htable : ∀ x, g.start x < g.stop x → x.toNat < maxNodes)
    (hfull : g.stop d < g.start d + 255) (hd : d.toNat < maxNodes) : ∃ q, addActiveTxNode m true d = .ok q := by
  obtain ⟨q, hq, hnodup, hmem⟩ := hq
  unfold addActiveTxNode
  split
  · rename_i hempty
    rw [hq]
    have hnew : d ∉ q.toList := fun hc => (c.end_eq_start_iff hfull).mp hempty.2 ((hmem d).mp hc)
    obtain ⟨q', hq'⟩ := nodeQueueAdd_total_of_nodup hnodup (fun x hx => htable x ((hmem x).mp hx)) hd hnew
    refine ⟨some q', ?_⟩
    change (do let queue ← nodeQueueAdd q d; return some queue) = Except.ok (some q')
    rw [hq']
    rfl
  · exact ⟨_, rfl⟩

theorem QueueInv.submit (c : Counters m g) (hq : QueueInv m g) {i : Nat} {p : Packet} {q : Option NodeQueue}
    (hfull : g.stop d < g.start d + 255) (hadd : addActiveTxNode m true d = .ok q) :
    QueueInv (m.submitEntry i p d q) (g.submit i d) := by
  obtain ⟨queue, hqueue, hnodup, hmem⟩ := hq
  have hstop : ∀ x, g.start x < (g.submit i d).stop x ↔ g.start x < g.stop x ∨ x = d := by
    intro x
    simp only [Ledger.submit]
    by_cases hx : x = d
    · subst hx
      have hle := c.start_le_stop x
      rw [Function.update_self]
      exact ⟨fun _ => Or.inr rfl, fun _ => Nat.lt_succ_of_le hle⟩
    · rw [Function.update_of_ne hx]
      simp [hx]
  unfold addActiveTxNode at hadd
  split at hadd
  · rename_i hempty
    have hd : d ∉ queue.toList := fun hc => (c.end_eq_start_iff hfull).mp hempty.2 ((hmem d).mp hc)
    rw [hqueue] at hadd
    obtain ⟨q', hq', hr⟩ := bind_eq_ok.mp hadd
    obtain ⟨hlist, -⟩ := nodeQueueAdd_ok hq'
    rw [if_neg hd] at hlist
    refine ⟨q', (pure_eq_ok.mp hr).symm, ?_, ?_⟩
    · rw [hlist]
      exact List.nodup_append.mpr ⟨hnodup, List.nodup_singleton d,
        fun x hx y hy hxy => hd (by rw [← List.mem_singleton.mp hy, ← hxy]; exact hx)⟩
    · intro x
      rw [hlist, List.mem_append, List.mem_singleton, hmem]
      exact (hstop x).symm
  · rename_i hnonempty
    have hne : g.start d < g.stop d := by
      by_contra hc
      exact hnonempty ⟨rfl, (c.end_eq_start_iff hfull).mpr hc⟩
    cases hadd
    refine ⟨queue, hqueue, hnodup, ?_⟩
    intro x
    rw [hmem]
    refine ((hstop x).trans ?_).symm
    constructor
    · rintro (hx | rfl)
      · exact hx
      · exact hne
    · exact Or.inl

def TxManager.advance (m : TxManager) (d : TNodeIndex) : TxManager :=
  { m with txSeqNumNext := Function.update m.txSeqNumNext d (incrSequenceNum (m.txSeqNumNext d)) }

def TxManager.pause (m : TxManager) (d : TNodeIndex) : TxManager :=
  { m with txSeqNumPauseCount := Function.update m.txSeqNumPauseCount d 2 }

/-- Everything of the window of `d` that may be sent is sent. -/
def TxManager.AtWindowEnd (m : TxManager) (d : TNodeIndex) : Prop :=
  m.txSeqNumNext d = m.txSeqNumEnd d ∨ m.txSeqNumNext d = m.txSeqNumStart d + slidingWindowSize

/-- `getNextTxPacketForNode` has nothing to look at. -/
def TxManager.Idle (m : TxManager) (d : TNodeIndex) : Prop :=
  m.txSeqNumPauseCount d > 0 ∨ m.txSeqNumStart d = m.txSeqNumEnd d

theorem getNext_idle (ht : d.toNat < m.maxTxNodes) (hi : m.Idle d) :
    getNextTxPacketForNode m isMaster d = .ok (none, m) := by
  unfold getNextTxPacketForNode
  rw [checkIndex, if_pos ht]
  by_cases hp : m.txSeqNumPauseCount d > 0
  · simp only [hp, if_true]
    rfl
  · have hs := hi.resolve_left hp
    simp only [hp, hs, if_true, if_false]
    rfl

/-- All that a look at one destination can do. -/
theorem getNext_ok {r : Option Nat} (h : getNextTxPacketForNode m isMaster d = .ok (r, m')) :
    d.toNat < m.maxTxNodes ∧
      ((r = none ∧ m.Idle d ∧ m' = m) ∨ (r = none ∧ ¬ m.Idle d ∧ m.AtWindowEnd d ∧ m' = m.pause d) ∨
        ∃ i, r = some i ∧ ¬ m.Idle d ∧ ¬ m.AtWindowEnd d ∧
          findPacketEntry m.packetStore d (m.txSeqNumNext d) isMaster = .ok i ∧ m' = m.advance d) := by
  unfold getNextTxPacketForNode at h
  obtain ⟨_, ht, h⟩ := bind_eq_ok.mp h
  rw [checkIndex_ok] at ht
  refine ⟨ht, ?_⟩
  by_cases hp : m.txSeqNumPauseCount d > 0
  · rw [if_pos hp] at h
    cases h
    exact Or.inl ⟨rfl, Or.inl hp, rfl⟩
  · rw [if_neg hp] at h
    by_cases hs : m.txSeqNumStart d = m.txSeqNumEnd d
    · rw [if_pos hs] at h
      cases h
      exact Or.inl ⟨rfl, Or.inr hs, rfl⟩
    · rw [if_neg hs] at h
      have hidle : ¬ m.Idle d := by
        rintro (hc | hc)
        · exact hp hc
        · exact hs hc
      obtain ⟨_, -, h⟩ := bind_eq_ok.mp h
      by_cases he : m.txSeqNumNext d = m.txSeqNumEnd d ∨ m.txSeqNumNext d = m.txSeqNumStart d + slidingWindowSize
      · rw [if_pos he] at h
        cases h
        exact Or.inr (Or.inl ⟨rfl, hidle, he, rfl⟩)
      · rw [if_neg he] at h
        obtain ⟨i, hfind, h⟩ := bind_eq_ok.mp h
        cases h
        exact Or.inr (Or.inr ⟨i, rfl, hidle, he, hfind, rfl⟩)

section GetNext

/-- The number to send next lies in the window, as the assertion has it. -/
theorem getNext_pause_of (ht : d.toNat < m.maxTxNodes) (hi : ¬ m.Idle d) (he : m.AtWindowEnd d)
    (hr : nextInRange (m.txSeqNumStart d) (m.txSeqNumEnd d) (m.txSeqNumNext d)) :
    getNextTxPacketForNode m isMaster d = .ok (none, m.pause d) := by
  have hp : m.txSeqNumPauseCount d = 0 := Nat.eq_zero_of_not_pos fun hc => hi (Or.inl hc)
  have hs : ¬ m.txSeqNumStart d = m.txSeqNumEnd d := fun hc => hi (Or.inr hc)
  unfold getNextTxPacketForNode
  rw [checkIndex, if_pos ht]
  unfold TxManager.AtWindowEnd at he
  simp only [hp, Nat.lt_irrefl, gt_iff_lt, hs, if_false, microbusAssert, hr, if_true, he]
  rfl

theorem getNext_send_of (ht : d.toNat < m.maxTxNodes) (hi : ¬ m.Idle d) (he : ¬ m.AtWindowEnd d)
    (hr : nextInRange (m.txSeqNumStart d) (m.txSeqNumEnd d) (m.txSeqNumNext d)) {i : Nat}
    (hfind : findPacketEntry m.packetStore d (m.txSeqNumNext d) isMaster = .ok i) :
    getNextTxPacketForNode m isMaster d = .ok (some i, m.advance d) := by
  have hp : m.txSeqNumPauseCount d = 0 := Nat.eq_zero_of_not_pos fun hc => hi (Or.inl hc)
  have hs : ¬ m.txSeqNumStart d = m.txSeqNumEnd d := fun hc => hi (Or.inr hc)
  unfold getNextTxPacketForNode
  rw [checkIndex, if_pos ht]
  unfold TxManager.AtWindowEnd at he
  simp only [hp, Nat.lt_irrefl, gt_iff_lt, hs, if_false, microbusAssert, hr, if_true, he]
  simp only [bind, Except.bind, hfind]
  rfl

end GetNext

namespace Counters

/-- A window that is neither paused nor empty in the code is not empty, and not full. -/
theorem of_not_idle (c : Counters m g) (hi : ¬ m.Idle d) :
    m.txSeqNumPauseCount d = 0 ∧ g.start d < g.stop d ∧ g.stop d < g.start d + 255 := by
  have hp : ¬ m.txSeqNumPauseCount d > 0 := fun hc => hi (Or.inl hc)
  have hs : ¬ m.txSeqNumStart d = m.txSeqNumEnd d := fun hc => hi (Or.inr hc)
  have hle := c.start_le_stop d
  have h255 := c.window_le_255 d
  rw [c.start_eq, c.stop_eq, seq_start_eq_end hle h255] at hs
  omega

theorem next_lt_stop (c : Counters m g) (he : ¬ m.AtWindowEnd d) : g.next d < g.stop d := by
  have hne : g.next d ≠ g.stop d := by
    intro hc
    exact he (Or.inl (by rw [c.next_eq, c.stop_eq, hc]))
  exact lt_of_le_of_ne (c.next_le_stop d) hne

theorem nextInRange (c : Counters m g) (hi : ¬ m.Idle d) :
    Microbus.nextInRange (m.txSeqNumStart d) (m.txSeqNumEnd d) (m.txSeqNumNext d) := by
  obtain ⟨-, -, hfull⟩ := c.of_not_idle hi
  rw [c.start_eq, c.next_eq, c.stop_eq]
  exact nextInRange_seq (c.start_le_next d) (c.next_le_stop d) hfull

theorem getNext_pause (c : Counters m g) (ht : d.toNat < m.maxTxNodes) (hi : ¬ m.Idle d)
    (he : m.AtWindowEnd d) : getNextTxPacketForNode m isMaster d = .ok (none, m.pause d) :=
  getNext_pause_of ht hi he (c.nextInRange hi)

theorem getNext_send (c : Counters m g) (ht : d.toNat < m.maxTxNodes) (hi : ¬ m.Idle d)
    (he : ¬ m.AtWindowEnd d) {i : Nat}
    (hfind : findPacketEntry m.packetStore d (m.txSeqNumNext d) isMaster = .ok i) :
    getNextTxPacketForNode m isMaster d = .ok (some i, m.advance d) :=
  getNext_send_of ht hi he (c.nextInRange hi) hfind

end Counters

namespace StoreInv

theorem getNext_send (h : StoreInv isMaster m g) (hu : Unshadowed isMaster m) (hd : ValidDst isMaster d)
    (ht : d.toNat < m.maxTxNodes) (hi : ¬ m.Idle d) (he : ¬ m.AtWindowEnd d) :
    ∃ i, m.Live i ∧ g.owner i = (d, g.next d) ∧ g.next d < g.stop d ∧
      getNextTxPacketForNode m isMaster d = .ok (some i, m.advance d) := by
  have hnext := h.counters.next_lt_stop he
  obtain ⟨i, hl, ho⟩ := h.owner_surj d (g.next d) (h.start_le_next d) hnext
  have hfind := h.find_live hu hd hl ho
  rw [← h.next_eq] at hfind
  exact ⟨i, hl, ho, hnext, h.counters.getNext_send ht hi he hfind⟩

theorem next_found (h : StoreInv isMaster m g) (hu : Unshadowed isMaster m) (hd : ValidDst isMaster d) {i : Nat}
    (hi : ¬ m.Idle d) (he : ¬ m.AtWindowEnd d)
    (hfind : findPacketEntry m.packetStore d (m.txSeqNumNext d) isMaster = .ok i) (ht : d.toNat < m.maxTxNodes) :
    m.Live i ∧ g.owner i = (d, g.next d) ∧ g.next d < g.stop d := by
  obtain ⟨j, hj, ho, hlt, -⟩ := h.getNext_send hu hd ht hi he
  have hfind' := h.find_live hu hd hj ho
  rw [← h.next_eq, hfind] at hfind'
  obtain rfl : i = j := Except.ok.inj hfind'
  exact ⟨hj, ho, hlt⟩

end StoreInv

def Ledger.advance (g : Ledger) (d : TNodeIndex) : Ledger :=
  { g with next := Function.update g.next d (g.next d + 1) }

/-- The window of `d` is sent again from its start. -/
def Ledger.rewind (g : Ledger) (d : TNodeIndex) : Ledger :=
  { g with next := Function.update g.next d (g.start d) }

/-- Only counters differ. -/
structure SameStore (m m' : TxManager) : Prop where
  packetStore : m'.packetStore = m.packetStore
  allocated : m'.allocatedPacket = m.allocatedPacket

namespace SameStore

theorem entry (t : SameStore m m') (i : Nat) : m'.entry i = m.entry i := by
  unfold TxManager.entry
  rw [t.packetStore]

theorem size (t : SameStore m m') : m'.size = m.size := by
  unfold TxManager.size
  rw [t.packetStore]

theorem live (t : SameStore m m') (i : Nat) : m'.Live i ↔ m.Live i := by
  constructor
  · intro h
    exact ⟨t.size ▸ h.lt, t.entry i ▸ h.inUse, t.allocated ▸ h.notAllocated⟩
  · intro h
    exact ⟨t.size.symm ▸ h.lt, (t.entry i).symm ▸ h.inUse, t.allocated.symm ▸ h.notAllocated⟩

theorem fresh (t : SameStore m m') (hstop : m'.txSeqNumEnd = m.txSeqNumEnd) (h : Fresh isMaster m) :
    Fresh isMaster m' where
  stale i j hij hi hj := by
    rw [t.entry, t.entry]
    exact h.stale i j hij (fun hl => hi ((t.live i).mpr hl)) ((t.live j).mp hj)
  staleEnd u hu i hi hfree d := by
    rw [t.entry, hstop]
    exact h.staleEnd u (t.allocated ▸ hu) i hi (t.entry i ▸ hfree) d

theorem unshadowed (t : SameStore m m') (h : Unshadowed isMaster m) : Unshadowed isMaster m' := by
  intro u hu j hj huj
  rw [t.entry, t.entry]
  exact h u (t.allocated ▸ hu) j ((t.live j).mp hj) huj

theorem findable (t : SameStore m m') (h : Findable isMaster m g) : Findable isMaster m' g := by
  intro d a hd hs he
  rw [t.packetStore]
  exact h d a hd hs he

end SameStore

theorem Counters.moveNext (c : Counters m g) {n : Nat} (hs : g.start d ≤ n) (he : n ≤ g.stop d)
    (hstart : m'.txSeqNumStart = m.txSeqNumStart) (hnext : m'.txSeqNumNext = Function.update m.txSeqNumNext d (seq n))
    (hend : m'.txSeqNumEnd = m.txSeqNumEnd) : Counters m' { g with next := Function.update g.next d n } where
  start_eq x := by rw [hstart, c.start_eq]
  next_eq x := by
    rw [hnext]
    by_cases hx : x = d
    · subst hx
      simp only [Function.update_self]
    · simp only [Function.update_of_ne hx]
      exact c.next_eq x
  stop_eq x := by rw [hend, c.stop_eq]
  start_le_next x := by
    by_cases hx : x = d
    · subst hx
      simpa only [Function.update_self] using hs
    · simpa only [Function.update_of_ne hx] using c.start_le_next x
  next_le_stop x := by
    by_cases hx : x = d
    · subst hx
      simpa only [Function.update_self] using he
    · simpa only [Function.update_of_ne hx] using c.next_le_stop x
  window_le_255 := c.window_le_255

theorem StoreInv.moveNext (h : StoreInv isMaster m g) {n : Nat} (hs : g.start d ≤ n) (he : n ≤ g.stop d)
    (t : SameStore m m') (hstart : m'.txSeqNumStart = m.txSeqNumStart)
    (hnext : m'.txSeqNumNext = Function.update m.txSeqNumNext d (seq n))
    (hend : m'.txSeqNumEnd = m.txSeqNumEnd) (htable : m'.maxTxNodes = m.maxTxNodes) :
    StoreInv isMaster m' { g with next := Function.update g.next d n } where
  start_eq := (h.counters.moveNext hs he hstart hnext hend).start_eq
  next_eq := (h.counters.moveNext hs he hstart hnext hend).next_eq
  stop_eq := (h.counters.moveNext hs he hstart hnext hend).stop_eq
  start_le_next := (h.counters.moveNext hs he hstart hnext hend).start_le_next
  next_le_stop := (h.counters.moveNext hs he hstart hnext hend).next_le_stop
  table x hx := by rw [htable]; exact h.table x hx
  allocated u hu := by rw [t.size, t.entry]; exact h.allocated u (t.allocated ▸ hu)
  owner_mem i hi := h.owner_mem i ((t.live i).mp hi)
  owner_key i hi := by rw [t.entry]; exact h.owner_key i ((t.live i).mp hi)
  owner_inj i j hi hj := h.owner_inj i j ((t.live i).mp hi) ((t.live j).mp hj)
  owner_surj x a hs he := by
    obtain ⟨i, hi, ho⟩ := h.owner_surj x a hs he
    exact ⟨i, (t.live i).mpr hi, ho⟩

theorem StoreInv.advance (h : StoreInv isMaster m g) (hn : g.next d < g.stop d) :
    StoreInv isMaster (m.advance d) (g.advance d) := by
  refine h.moveNext (Nat.le_succ_of_le (h.start_le_next d)) hn ⟨rfl, rfl⟩ rfl ?_ rfl rfl
  change Function.update m.txSeqNumNext d (incrSequenceNum (m.txSeqNumNext d)) = _
  rw [h.next_eq, incr_seq]

/-- The counters that a round may change beside `txSeqNumNext`. -/
def TxManager.withCursor (m : TxManager) (txSeqNumPauseCount : TNodeIndex → Nat)
    (lastTxQueueIndex lastTxQueueCount : Nat) :
    TxManager :=
  { m with txSeqNumPauseCount, lastTxQueueIndex, lastTxQueueCount }

theorem StoreInv.withCursor (h : StoreInv isMaster m g) (p : TNodeIndex → Nat) (i c : Nat) :
    StoreInv isMaster (m.withCursor p i c) g :=
  h.congr rfl rfl rfl rfl (SameStore.live ⟨rfl, rfl⟩) (fun _ _ => rfl) h.allocated

/-- A round pauses active destinations only. -/
def PausedIn (queue : NodeQueue) (m : TxManager) (p : TNodeIndex → Nat) : Prop :=
  ∀ d, p d = m.txSeqNumPauseCount d ∨ (p d = 2 ∧ d ∈ queue.toList ∧ m.txSeqNumStart d ≠ m.txSeqNumEnd d)

/-- What a round over the active destinations returns. -/
def RoundResult (queue : NodeQueue) (m : TxManager) (r : Option Nat) (m' : TxManager) : Prop :=
  ∃ p i c, PausedIn queue m p ∧
    ((r = none ∧ m' = m.withCursor p i c) ∨
      ∃ d e, d ∈ queue.toList ∧ r = some e ∧ ¬ m.Idle d ∧ ¬ m.AtWindowEnd d ∧ d.toNat < m.maxTxNodes ∧
        findPacketEntry m.packetStore d (m.txSeqNumNext d) true = .ok e ∧ m' = (m.advance d).withCursor p i c)

theorem PausedIn.refl (queue : NodeQueue) (m : TxManager) : PausedIn queue m m.txSeqNumPauseCount :=
  fun _ => Or.inl rfl

theorem getNext_roundResult {queue : NodeQueue} {r : Option Nat} (hd : d ∈ queue.toList)
    (h : getNextTxPacketForNode m true d = .ok (r, m')) : RoundResult queue m r m' := by
  obtain ⟨ht, h | h | ⟨e, h⟩⟩ := getNext_ok h
  · obtain ⟨hr, -, rfl⟩ := h
    exact ⟨_, _, _, PausedIn.refl queue m', Or.inl ⟨hr, rfl⟩⟩
  · obtain ⟨hr, hi, -, rfl⟩ := h
    refine ⟨Function.update m.txSeqNumPauseCount d 2, _, _, ?_, Or.inl ⟨hr, rfl⟩⟩
    intro x
    by_cases hx : x = d
    · subst hx
      exact Or.inr ⟨Function.update_self _ _ _, hd, fun hc => hi (Or.inr hc)⟩
    · exact Or.inl (Function.update_of_ne hx _ _)
  · obtain ⟨hr, hi, he, hfind, rfl⟩ := h
    exact ⟨_, _, _, PausedIn.refl queue m, Or.inr ⟨d, e, hd, hr, hi, he, ht, hfind, rfl⟩⟩

theorem RoundResult.trans {queue : NodeQueue} {r : Option Nat} {m₁ m₂ : TxManager}
    (h₁ : RoundResult queue m none m₁) (h₂ : RoundResult queue m₁ r m₂) : RoundResult queue m r m₂ := by
  obtain ⟨p, i, c, hp, ⟨-, rfl⟩ | ⟨_, _, _, hc, _⟩⟩ := h₁
  · obtain ⟨q, j, e, hq, h₂⟩ := h₂
    have hpq : PausedIn queue m q := by
      intro d
      rcases hq d with h | h
      · exact h ▸ hp d
      · exact Or.inr h
    refine ⟨q, j, e, hpq, ?_⟩
    rcases h₂ with ⟨hr, rfl⟩ | ⟨d, x, hd, hr, hi, he, ht, hfind, rfl⟩
    · exact Or.inl ⟨hr, rfl⟩
    · refine Or.inr ⟨d, x, hd, hr, ?_, he, ht, hfind, rfl⟩
      rintro (hc | hc)
      · rcases hp d with h | h
        · exact hi (Or.inl (h.trans_gt hc))
        · exact hi (Or.inl (by change p d > 0; rw [h.1]; decide))
      · exact hi (Or.inr hc)
  · cases hc

theorem RoundResult.withCursor {queue : NodeQueue} {r : Option Nat} (h : RoundResult queue m r m') (i c : Nat) :
    RoundResult queue m r { m' with lastTxQueueIndex := i, lastTxQueueCount := c } := by
  obtain ⟨p, _, _, hp, ⟨hr, rfl⟩ | ⟨d, e, hd, hr, hi, he, ht, hfind, rfl⟩⟩ := h
  · exact ⟨p, i, c, hp, Or.inl ⟨hr, rfl⟩⟩
  · exact ⟨p, i, c, hp, Or.inr ⟨d, e, hd, hr, hi, he, ht, hfind, rfl⟩⟩

theorem nextTxPacketLoop_ok {queue : NodeQueue} {last fuel i j : Nat} {r : Option Nat} (hpos : 0 < queue.numNodes)
    (h : nextTxPacketLoop last queue fuel i m = .ok (r, j, m')) : RoundResult queue m r m' := by
  induction fuel generalizing i m with
  | zero => cases h
  | succ fuel ih =>
      unfold nextTxPacketLoop at h
      have hklt : (if i + 1 ≥ queue.numNodes then 0 else i + 1) < queue.numNodes := by split <;> omega
      generalize (if i + 1 ≥ queue.numNodes then 0 else i + 1) = k at h hklt
      obtain ⟨⟨e, m₁⟩, hget, h⟩ := bind_eq_ok.mp h
      have hround := getNext_roundResult (NodeQueue.nodeIds_mem hklt) hget
      change (if k ≠ last ∧ e = none then _ else _) = _ at h
      split at h
      · rename_i hgo
        rw [hgo.2] at hround
        exact hround.trans (ih h)
      · cases h
        exact hround

theorem roundTail_ok {queue : NodeQueue} {last fuel i : Nat} {r : Option Nat} {m₁ : TxManager}
    (hpos : 0 < queue.numNodes) (hfirst : RoundResult queue m none m₁)
    (h : (nextTxPacketLoop last queue fuel i m₁ >>= fun x =>
      if x.1.isSome then
        pure (x.1, { x.2.2 with lastTxQueueIndex := x.2.1, lastTxQueueCount := 1 })
      else pure (none, { x.2.2 with lastTxQueueIndex := x.2.1 })) = (.ok (r, m') : Except Fault _)) :
    RoundResult queue m r m' := by
  obtain ⟨⟨e, j, m₂⟩, hloop, h⟩ := bind_eq_ok.mp h
  have hall := hfirst.trans (nextTxPacketLoop_ok hpos hloop)
  cases e with
  | some e => cases h; exact hall.withCursor _ _
  | none => cases h; exact hall.withCursor _ _

theorem masterGetNextTxDataPacket_ok {burstSize : Nat} {r : Option Nat}
    (h : masterGetNextTxDataPacket m burstSize = .ok (r, m')) :
    ∃ queue, m.activeTxNodes = some queue ∧ RoundResult queue m r m' := by
  unfold masterGetNextTxDataPacket at h
  cases hq : m.activeTxNodes with
  | none => rw [hq] at h; cases h
  | some queue =>
      refine ⟨queue, rfl, ?_⟩
      rw [hq] at h
      simp only at h
      by_cases hz : queue.numNodes = 0
      · rw [if_pos hz] at h
        cases h
        exact ⟨_, _, _, PausedIn.refl queue m, Or.inl ⟨rfl, rfl⟩⟩
      · rw [if_neg hz] at h
        have hpos : 0 < queue.numNodes := Nat.pos_of_ne_zero hz
        split at h
        · obtain ⟨⟨e, m₁⟩, hget, h⟩ := bind_eq_ok.mp h
          have hfirst : RoundResult queue m e m₁ := by
            refine getNext_roundResult (NodeQueue.nodeIds_mem ?_) hget
            split <;> omega
          cases e with
          | some e =>
              cases h
              exact hfirst.withCursor _ _
          | none => exact roundTail_ok hpos hfirst h
        · exact roundTail_ok hpos ⟨_, _, _, PausedIn.refl queue m, Or.inl ⟨rfl, rfl⟩⟩ h

def Searchable (queue : NodeQueue) (m : TxManager) : Prop :=
  ∀ d ∈ queue.toList, ∃ r m', getNextTxPacketForNode m true d = .ok (r, m')

theorem Counters.searchable (c : Counters m g) (hf : Findable true m g) {queue : NodeQueue}
    (ht : ∀ d ∈ queue.toList, d.toNat < m.maxTxNodes) : Searchable queue m := by
  intro d hd
  by_cases hi : m.Idle d
  · exact ⟨_, _, getNext_idle (ht d hd) hi⟩
  · by_cases he : m.AtWindowEnd d
    · exact ⟨_, _, c.getNext_pause (ht d hd) hi he⟩
    · obtain ⟨i, hfind⟩ := hf d (g.next d) (fun hc => by cases hc) (c.start_le_next d) (c.next_lt_stop he)
      rw [← c.next_eq] at hfind
      exact ⟨_, _, c.getNext_send (ht d hd) hi he hfind⟩

theorem RoundResult.counters_none {queue : NodeQueue} (hr : RoundResult queue m none m') (c : Counters m g) :
    Counters m' g := by
  obtain ⟨p, i, k, -, ⟨-, rfl⟩ | ⟨_, _, _, hc, _⟩⟩ := hr
  · exact ⟨c.start_eq, c.next_eq, c.stop_eq, c.start_le_next, c.next_le_stop, c.window_le_255⟩
  · cases hc

theorem RoundResult.sameStore {queue : NodeQueue} {r : Option Nat} (hr : RoundResult queue m r m') :
    SameStore m m' := by
  obtain ⟨p, i, c, -, ⟨-, rfl⟩ | ⟨d, e, -, -, -, -, -, -, rfl⟩⟩ := hr
  · exact ⟨rfl, rfl⟩
  · exact ⟨rfl, rfl⟩

theorem RoundResult.maxTxNodes {queue : NodeQueue} {r : Option Nat} (hr : RoundResult queue m r m') :
    m'.maxTxNodes = m.maxTxNodes := by
  obtain ⟨p, i, c, -, ⟨-, rfl⟩ | ⟨d, e, -, -, -, -, -, -, rfl⟩⟩ := hr
  · rfl
  · rfl

theorem RoundResult.activeTxNodes {queue : NodeQueue} {r : Option Nat} (hr : RoundResult queue m r m') :
    m'.activeTxNodes = m.activeTxNodes := by
  obtain ⟨p, i, c, -, ⟨-, rfl⟩ | ⟨d, e, -, -, -, -, -, -, rfl⟩⟩ := hr
  · rfl
  · rfl

/-- The loop comes back to `last`, where it began, before its fuel runs out. -/
theorem nextTxPacketLoop_total {queue : NodeQueue} {last fuel i : Nat} (c : Counters m g) (hf : Findable true m g)
    (ht : ∀ d ∈ queue.toList, d.toNat < m.maxTxNodes) (hlast : last < queue.numNodes) (hi : i < queue.numNodes)
    (hfuel : (if i < last then last - 1 - i else last + queue.numNodes - 1 - i) < fuel) :
    ∃ r, nextTxPacketLoop last queue fuel i m = .ok r := by
  induction fuel generalizing i m with
  | zero => exact absurd hfuel (Nat.not_lt_zero _)
  | succ fuel ih =>
      unfold nextTxPacketLoop
      generalize hk : (if i + 1 ≥ queue.numNodes then 0 else i + 1) = k
      have hklt : k < queue.numNodes := by
        rw [← hk]
        split <;> omega
      obtain ⟨e, m₁, hget⟩ := c.searchable hf ht _ (NodeQueue.nodeIds_mem hklt)
      simp only [hget, bind, Except.bind]
      by_cases hgo : k ≠ last ∧ e = none
      · rw [if_pos hgo]
        have hround := getNext_roundResult (NodeQueue.nodeIds_mem hklt) hget
        rw [hgo.2] at hround
        refine ih (hround.counters_none c) (hround.sameStore.findable hf) ?_ hklt ?_
        · intro d hd
          rw [hround.maxTxNodes]
          exact ht d hd
        · have hne := hgo.1
          split at hk <;> split at hfuel <;> split <;> omega
      · rw [if_neg hgo]
        exact ⟨_, rfl⟩

theorem masterGetNextTxDataPacket_total {queue : NodeQueue} (burstSize : Nat) (c : Counters m g)
    (hf : Findable true m g) (hq : m.activeTxNodes = some queue) (ht : ∀ d ∈ queue.toList, d.toNat < m.maxTxNodes) :
    ∃ r, masterGetNextTxDataPacket m burstSize = .ok r := by
  unfold masterGetNextTxDataPacket
  rw [hq]
  simp only
  by_cases hz : queue.numNodes = 0
  · rw [if_pos hz]
    exact ⟨_, rfl⟩
  · rw [if_neg hz]
    have hlast : (if m.lastTxQueueIndex ≥ queue.numNodes then queue.numNodes - 1 else m.lastTxQueueIndex) <
        queue.numNodes := by
      split <;> omega
    -- after the burst the loop starts in a state that has the same store and windows
    have htail : ∀ m₁, RoundResult queue m none m₁ → ∃ r, nextTxPacketLoop
        (if m.lastTxQueueIndex ≥ queue.numNodes then queue.numNodes - 1 else m.lastTxQueueIndex) queue queue.numNodes
        (if m.lastTxQueueIndex ≥ queue.numNodes then queue.numNodes - 1 else m.lastTxQueueIndex) m₁ = .ok r := by
      intro m₁ hr
      refine nextTxPacketLoop_total (hr.counters_none c) (hr.sameStore.findable hf) ?_ hlast hlast ?_
      · intro d hd
        rw [hr.maxTxNodes]
        exact ht d hd
      · rw [if_neg (Nat.lt_irrefl _)]
        omega
    split
    · have hmem := NodeQueue.nodeIds_mem hlast
      obtain ⟨e, m₁, hget⟩ := c.searchable hf ht _ hmem
      have hfirst := getNext_roundResult hmem hget
      simp only [hget, bind, Except.bind]
      cases e with
      | some e => exact ⟨_, rfl⟩
      | none =>
          obtain ⟨⟨e, j, m₂⟩, hloop⟩ := htail m₁ hfirst
          simp only [hloop]
          cases e with
          | some e => exact ⟨_, rfl⟩
          | none => exact ⟨_, rfl⟩
    · obtain ⟨⟨e, j, m₂⟩, hloop⟩ := htail m ⟨_, _, _, PausedIn.refl queue m, Or.inl ⟨rfl, rfl⟩⟩
      simp only [hloop, bind, Except.bind, pure, Except.pure]
      cases e with
      | some e => exact ⟨_, rfl⟩
      | none => exact ⟨_, rfl⟩

theorem nodeGetNext_rxSeqNum {m m' : TxManager} {r : Option Nat} (h : nodeGetNextTxDataPacket m = .ok (r, m')) :
    m'.rxSeqNum = m.rxSeqNum := by
  unfold nodeGetNextTxDataPacket at h
  split at h
  · cases h
    rfl
  · obtain ⟨⟨e, m₁⟩, hnext, h⟩ := bind_eq_ok.mp h
    have hsame : m₁.rxSeqNum = m.rxSeqNum := by
      obtain ⟨-, ⟨-, -, rfl⟩ | ⟨-, -, -, rfl⟩ | ⟨i, -, -, -, -, rfl⟩⟩ := getNext_ok hnext <;> rfl
    cases e with
    | none => cases h; exact hsame
    | some i => cases h; exact hsame

end Microbus
