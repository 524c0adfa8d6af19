import Microbus.MasterSlots

/-! Packets that stay findable: a store that holds every packet of every window, whatever else
is in use. -/
namespace Microbus

open Transition

variable {m m' : TxManager} {g g' : Ledger} {d : TNodeIndex} {given : TNodeIndex → UInt8 → Option Payload}

/-- The content that was given number `s` of destination `d` lies in entry `i`. -/
structure TxManager.Carries (m : TxManager) (given : TNodeIndex → UInt8 → Option Payload)
    (d : TNodeIndex) (s : UInt8)
    (i : Nat) : Prop where
  live : m.Live i
  key : entryKey true (m.entry i) = (d, s)
  given : given d s = some (m.entry i).packet.payload

/-- Every packet of every window lies in an entry; further entries may be in use. -/
structure CoverInv (given : TNodeIndex → UInt8 → Option Payload) (m : TxManager) (g : Ledger) : Prop where
  counters : Counters m g
  table : ∀ d, g.start d < g.stop d → d.toNat < m.maxTxNodes
  allocated : ∀ u, m.allocatedPacket = some u → u < m.size ∧ (m.entry u).inUse = true
  cover : ∀ d a, g.start d ≤ a → a < g.stop d → ∃ i, m.Carries given d (seq a) i

namespace CoverInv

theorem shrink (h : CoverInv given m g) (hc : Counters m' g') (htable : m'.maxTxNodes = m.maxTxNodes)
    (halloc : ∀ u, m'.allocatedPacket = some u → u < m'.size ∧ (m'.entry u).inUse = true)
    (hsub : ∀ x a, g'.start x ≤ a → a < g'.stop x → g.start x ≤ a ∧ a < g.stop x)
    (hlive : ∀ x a i, g'.start x ≤ a → a < g'.stop x → entryKey true (m.entry i) = (x, seq a) → m.Live i →
      m'.Live i ∧ (m.entry i).packet.SameMessage true (m'.entry i).packet) : CoverInv given m' g' where
  counters := hc
  table x hx := by
    obtain ⟨h1, h2⟩ := hsub x (g'.start x) (Nat.le_refl _) hx
    rw [htable]
    exact h.table x (h1.trans_lt h2)
  allocated := halloc
  cover x a hs he := by
    obtain ⟨h1, h2⟩ := hsub x a hs he
    obtain ⟨i, hi⟩ := h.cover x a h1 h2
    obtain ⟨hl, hsame⟩ := hlive x a i hs he hi.key hi.live
    exact ⟨i, hl, hsame.key.trans hi.key, by rw [hi.given, hsame.payload]⟩

theorem mono (h : CoverInv given m g) (hc : Counters m' g) (htable : m'.maxTxNodes = m.maxTxNodes)
    (halloc : ∀ u, m'.allocatedPacket = some u → u < m'.size ∧ (m'.entry u).inUse = true)
    (hlive : ∀ i, m.Live i → m'.Live i ∧ (m.entry i).packet.SameMessage true (m'.entry i).packet) :
    CoverInv given m' g :=
  h.shrink hc htable halloc (fun _ _ hs he => ⟨hs, he⟩) fun _ _ i _ _ _ hl => hlive i hl

theorem eq_of_seq_eq (h : CoverInv given m g) {a b : Nat} (ha : g.start d ≤ a) (ha' : a < g.stop d)
    (hb : g.start d ≤ b) (hb' : b < g.stop d) (hab : seq a = seq b) : a = b := by
  have hw := h.counters.window_le_255 d
  exact Cyclic.eq_of_mod_eq (seq_eq_iff.mp hab) (by omega) (by omega)

/-- With a packet allocated no window is full. -/
theorem room_of_allocated (h : CoverInv given m g) {u : Nat} (hu : m.allocatedPacket = some u) (d : TNodeIndex) :
    g.stop d < g.start d + 255 := by
  have hlt := (h.allocated u hu).1
  have hle := h.counters.start_le_stop d
  have hw := h.counters.window_le_255 d
  -- the entries beside `u`, mapped to the positions of the numbers in their headers
  have hcard : (Finset.Ico (g.start d) (g.stop d)).card ≤ ((Finset.range m.size).erase u).card := by
    refine Finset.card_le_card_of_surjOn
      (fun i => g.start d + ((m.entry i).packet.txSeqNum.toNat + 255 - g.start d % 255) % 255) ?_
    intro a ha
    obtain ⟨hs, he⟩ := Finset.mem_Ico.mp (Finset.mem_coe.mp ha)
    obtain ⟨i, hi⟩ := h.cover d a hs he
    refine ⟨i, ?_, ?_⟩
    · rw [Finset.mem_coe, Finset.mem_erase, Finset.mem_range]
      exact ⟨fun hc => hi.live.notAllocated (hc ▸ hu), hi.live.lt⟩
    · have hseq : (m.entry i).packet.txSeqNum = seq a := congrArg Prod.snd hi.key
      simp only [hseq, seq_toNat]
      omega
  rw [Nat.card_Ico, Finset.card_erase_of_mem (Finset.mem_range.mpr hlt), Finset.card_range] at hcard
  have := m.size_le
  omega

end CoverInv

theorem findPacketEntry_ok {s : PacketStore} {q : UInt8} {i : Nat} (hf : findPacketEntry s d q true = .ok i) :
    i < s.maxEntries.toNat ∧ (s.entries i).inUse = true ∧ entryKey true (s.entries i) = (d, q) := by
  unfold findPacketEntry at hf
  split at hf
  · rename_i j hfind
    cases hf
    obtain ⟨hmatch, hlt, -⟩ := List.find?_range_eq_some.mp hfind
    obtain ⟨huse, hkey⟩ := (isMatch_iff validDst_master).mp hmatch
    exact ⟨List.mem_range.mp hlt, huse, hkey⟩
  · cases hf

theorem findPacketEntry_first {s : PacketStore} {q : UInt8} {i j : Nat}
    (hf : findPacketEntry s d q true = .ok i) (hj : j < i)
    (huse : (s.entries j).inUse = true) : entryKey true (s.entries j) ≠ (d, q) := by
  unfold findPacketEntry at hf
  split at hf
  · rename_i k hfind
    cases hf
    obtain ⟨-, -, hmin⟩ := List.find?_range_eq_some.mp hfind
    intro hkey
    have hmatch := (isMatch_iff validDst_master).mpr ⟨huse, hkey⟩
    have := hmin j hj
    rw [hmatch] at this
    cases this
  · cases hf

theorem findPacketEntry_total {s : PacketStore} {q : UInt8} {i : Nat} (hi : i < s.maxEntries.toNat)
    (huse : (s.entries i).inUse = true)
    (hkey : entryKey true (s.entries i) = (d, q)) : ∃ j, findPacketEntry s d q true = .ok j := by
  unfold findPacketEntry
  split
  · exact ⟨_, rfl⟩
  · rename_i hnone
    rw [List.find?_range_eq_none] at hnone
    have hmatch := (isMatch_iff validDst_master).mpr ⟨huse, hkey⟩
    have := hnone i hi
    rw [hmatch] at this
    cases this

namespace CoverInv

theorem findable (h : CoverInv given m g) : Findable true m g := by
  intro d a _ hs he
  obtain ⟨i, hi⟩ := h.cover d a hs he
  exact findPacketEntry_total hi.live.lt hi.live.inUse hi.key

theorem find_live (h : CoverInv given m g) (hf : ¬ m.FindsPending) (hfull : g.stop d < g.start d + 255) {a : Nat}
    (hs : g.start d ≤ a) (he : a < g.stop d) {i : Nat}
    (hfind : findPacketEntry m.packetStore d (seq a) true = .ok i) :
    m.Live i ∧ entryKey true (m.entry i) = (d, seq a) := by
  obtain ⟨hlt, huse, hkey⟩ := findPacketEntry_ok hfind
  refine ⟨⟨hlt, huse, ?_⟩, hkey⟩
  intro hu
  refine hf ⟨i, d, seq a, hu, ?_, hfind⟩
  exact (h.counters.inWindow_iff d).mpr ⟨hfull, a, hs, he, rfl⟩

theorem find_eq {s s' : PacketStore} {freed : Nat → Prop} (hrel : s.Released s' freed) {q : UInt8}
    (hother : ∀ i, freed i → entryKey true (s.entries i) ≠ (d, q)) :
    findPacketEntry s' d q true = findPacketEntry s d q true := by
  have hmatch : ∀ i, (s'.entries i).isMatch d q true = (s.entries i).isMatch d q true := by
    intro i
    rw [Bool.eq_iff_iff, isMatch_iff validDst_master, isMatch_iff validDst_master, hrel.inUse]
    have hkey : entryKey true (s'.entries i) = entryKey true (s.entries i) := by
      unfold entryKey
      rw [hrel.packet]
    rw [hkey]
    exact ⟨fun hc => ⟨hc.1.1, hc.2⟩, fun hc => ⟨⟨hc.1, fun hf => hother i hf hc.2⟩, hc.2⟩⟩
  unfold findPacketEntry
  simp only [hmatch, hrel.maxEntries]

end CoverInv

/-- Entries with numbers of the window of `d` below packet `k` are given back. -/
def FreedBelow (m : TxManager) (g : Ledger) (d : TNodeIndex) (k : Nat) (s : PacketStore) : Prop :=
  ∃ freed, m.packetStore.Released s freed ∧
    ∀ i, freed i → m.Live i ∧ ∃ a, g.start d ≤ a ∧ a < k ∧ entryKey true (m.entry i) = (d, seq a)

namespace CoverInv

theorem freesUpTo (h : CoverInv given m g) (hf : ¬ m.FindsPending) (hfull : g.stop d < g.start d + 255) {r : Nat}
    (hr : r ≤ g.stop d) : FreesUpTo true m g d r (FreedBelow m g d) := by
  constructor
  · exact ⟨_, .refl _, fun _ => False.elim⟩
  · rintro k s hs hkr ⟨freed, hrel, hbelow⟩
    have hke : k < g.stop d := hkr.trans_le hr
    obtain ⟨i, hfind⟩ := h.findable d k validDst_master hs hke
    obtain ⟨hl, hkey⟩ := h.find_live hf hfull hs hke hfind
    have hsame : findPacketEntry s d (seq k) true = findPacketEntry m.packetStore d (seq k) true := by
      refine find_eq hrel ?_
      intro j hj hc
      obtain ⟨-, a, ha, hak, hkey'⟩ := hbelow j hj
      have hseq : seq a = seq k := congrArg Prod.snd (hkey'.symm.trans hc)
      exact hak.ne (h.eq_of_seq_eq ha (hak.trans hke) hs hke hseq)
    rw [← hsame] at hfind
    obtain ⟨s', hfree, hrel'⟩ := freePacket_ok hfind
    refine ⟨s', hfree, _, hrel.trans hrel', ?_⟩
    rintro j (hj | rfl)
    · obtain ⟨hl', a, ha, hak, hkey'⟩ := hbelow j hj
      exact ⟨hl', a, ha, Nat.lt_succ_of_lt hak, hkey'⟩
    · exact ⟨hl, k, hs, Nat.lt_succ_self k, hkey⟩

end CoverInv

section Acknowledge

variable {isMaster : Bool} {r : Nat} {s : PacketStore}

theorem Counters.acknowledge (c : Counters m g) (hsr : g.start d ≤ r) (hr : r ≤ g.stop d) :
    Counters (m.acknowledge isMaster g d r s) (g.acknowledge d r) := by
  have hupdate : ∀ {f : TNodeIndex → UInt8} {p : TNodeIndex → Nat} {k : Nat}, (∀ x, f x = seq (p x)) →
      ∀ x, Function.update f d (seq k) x = seq (Function.update p d k x) := by
    intro f p k hf x
    by_cases hx : x = d
    · subst hx
      rw [Function.update_self, Function.update_self]
    · rw [Function.update_of_ne hx, Function.update_of_ne hx, hf]
  refine ⟨hupdate c.start_eq, hupdate c.next_eq, c.stop_eq, ?_, ?_, ?_⟩
  · intro x
    simp only [Ledger.acknowledge]
    by_cases hx : x = d
    · subst hx
      rw [Function.update_self, Function.update_self]
      exact Nat.le_max_right _ _
    · rw [Function.update_of_ne hx, Function.update_of_ne hx]
      exact c.start_le_next x
  · intro x
    simp only [Ledger.acknowledge]
    by_cases hx : x = d
    · subst hx
      rw [Function.update_self]
      exact Nat.max_le.mpr ⟨c.next_le_stop x, hr⟩
    · rw [Function.update_of_ne hx]
      exact c.next_le_stop x
  · intro x
    have hw := c.window_le_255 x
    simp only [Ledger.acknowledge]
    by_cases hx : x = d
    · subst hx
      rw [Function.update_self]
      omega
    · rw [Function.update_of_ne hx]
      exact hw

theorem Counters.missAck (hc : Counters m g) : Counters (m.missAck d) (g.missAck m d) := by
  by_cases hp : m.txSeqNumPauseCount d = 1
  · have hledger : g.missAck m d = { g with next := Function.update g.next d (g.start d) } := if_pos hp
    rw [hledger]
    refine hc.moveNext (Nat.le_refl _) (hc.start_le_stop d) (missAck_start m d) ?_ (missAck_end m d)
    unfold TxManager.missAck
    simp only [hp, Nat.one_pos, gt_iff_lt, if_true, Nat.sub_self, hc.start_eq]
  · have hledger : g.missAck m d = g := if_neg hp
    have hnext : (m.missAck d).txSeqNumNext = m.txSeqNumNext := by
      unfold TxManager.missAck
      split
      · have hne : ¬ m.txSeqNumPauseCount d - 1 = 0 := by omega
        simp only [hne, if_false]
      · rfl
    rw [hledger]
    refine ⟨?_, ?_, ?_, hc.start_le_next, hc.next_le_stop, hc.window_le_255⟩
    · rw [missAck_start]
      exact hc.start_eq
    · rw [hnext]
      exact hc.next_eq
    · rw [missAck_end]
      exact hc.stop_eq

theorem CoverInv.acknowledge (h : CoverInv given m g) (hs : FreedBelow m g d r s) (hsr : g.start d ≤ r)
    (hr : r ≤ g.stop d) :
    CoverInv given (m.acknowledge true g d r s) (g.acknowledge d r) := by
  obtain ⟨freed, hrel, hbelow⟩ := hs
  have hsize : (m.acknowledge true g d r s).size = m.size := by
    unfold TxManager.size
    simp only [TxManager.acknowledge, hrel.maxEntries]
  have hkept : ∀ i, (m.entry i).inUse = true → ¬ freed i → ((m.acknowledge true g d r s).entry i).inUse = true :=
    fun i hu hf => (hrel.inUse i).mpr ⟨hu, hf⟩
  refine h.shrink (h.counters.acknowledge hsr hr) rfl ?_ ?_ ?_
  · intro u hu
    obtain ⟨hlt, huse⟩ := h.allocated u hu
    rw [hsize]
    exact ⟨hlt, hkept u huse fun hf => (hbelow u hf).1.notAllocated hu⟩
  · intro x a hsa hae
    simp only [Ledger.acknowledge] at hsa hae
    by_cases hx : x = d
    · subst hx
      rw [Function.update_self] at hsa
      exact ⟨hsr.trans hsa, hae⟩
    · rw [Function.update_of_ne hx] at hsa
      exact ⟨hsa, hae⟩
  · intro x a i hsa hae hkey hl
    have hstay : ¬ freed i := by
      intro hf
      obtain ⟨-, b, hb, hbr, hkey'⟩ := hbelow i hf
      rw [hkey, Prod.mk.injEq] at hkey'
      obtain ⟨rfl, hseq⟩ := hkey'
      simp only [Ledger.acknowledge] at hsa hae
      rw [Function.update_self] at hsa
      have := h.eq_of_seq_eq (hsr.trans hsa) hae hb (hbr.trans_le hr) hseq
      omega
    refine ⟨⟨hsize ▸ hl.lt, hkept i hl.inUse hstay, hl.notAllocated⟩, ?_⟩
    have hpacket : ((m.acknowledge true g d r s).entry i).packet = (m.entry i).packet := hrel.packet i
    rw [hpacket]
    exact .refl true _

end Acknowledge

/-- The windows of the master and its queue of active destinations. -/
structure ServedBy (given : TNodeIndex → UInt8 → Option Payload) (m : TxManager) (ttl : TimeToLive)
    (g : Ledger) : Prop where
  cover : CoverInv given m g
  queue : QueueInv m g
  table : m.maxTxNodes = maxNodes
  there : ∀ d, g.start d < g.stop d → ttl d ≠ 0

/-- Every queued packet can be found, for some reading of the counters. -/
def Served (given : TNodeIndex → UInt8 → Option Payload) (m : TxManager) (ttl : TimeToLive) : Prop :=
  ∃ g, ServedBy given m ttl g

namespace ServedBy

variable {ttl ttl' : TimeToLive}

theorem congr (h : ServedBy given m ttl g) (hcover : CoverInv given m' g') (hstart : g'.start = g.start)
    (hstop : g'.stop = g.stop) (hactive : m'.activeTxNodes.map NodeQueue.toList = m.activeTxNodes.map NodeQueue.toList)
    (htable : m'.maxTxNodes = m.maxTxNodes) (httl : ∀ k, ttl k ≠ 0 → ttl' k ≠ 0) :
    ServedBy given m' ttl' g' where
  cover := hcover
  queue := h.queue.congr hactive fun d => by rw [hstart, hstop]
  table := htable.trans h.table
  there d hd := httl d (h.there d (by rwa [hstart, hstop] at hd))

theorem quiet (h : ServedBy given m ttl g) (hq : m.Quiet m') (httl : ∀ k, ttl k ≠ 0 → ttl' k ≠ 0) :
    ServedBy given m' ttl' g := by
  have hc := h.cover.counters
  refine h.congr (h.cover.mono ?_ hq.touched.maxTxNodes ?_ ?_) rfl rfl hq.active hq.touched.maxTxNodes httl
  · refine ⟨?_, ?_, ?_, hc.start_le_next, hc.next_le_stop, hc.window_le_255⟩
    · rw [hq.touched.start]
      exact hc.start_eq
    · rw [hq.touched.next]
      exact hc.next_eq
    · rw [hq.touched.stop]
      exact hc.stop_eq
  · intro u hu
    rw [hq.touched.size, hq.touched.inUse]
    exact h.cover.allocated u (hq.touched.allocated ▸ hu)
  · exact fun i hi => ⟨(hq.touched.live i).mpr hi, hq.message i⟩

theorem sameStore (h : ServedBy given m ttl g) (t : SameStore m m') (hc : Counters m' g') (hstart : g'.start = g.start)
    (hstop : g'.stop = g.stop) (hactive : m'.activeTxNodes = m.activeTxNodes) (htable : m'.maxTxNodes = m.maxTxNodes) :
    ServedBy given m' ttl g' := by
  refine h.congr (h.cover.shrink hc htable ?_ ?_ ?_) hstart hstop (by rw [hactive]) htable fun _ => id
  · intro u hu
    rw [t.size, t.entry]
    exact h.cover.allocated u (t.allocated ▸ hu)
  · intro x a hs he
    rw [hstart] at hs
    rw [hstop] at he
    exact ⟨hs, he⟩
  · intro x a i _ _ _ hl
    rw [t.entry]
    exact ⟨(t.live i).mpr hl, .refl true _⟩

theorem choose (h : ServedBy given m ttl g) {burstSize : Nat} {r : Option Nat}
    (hget : masterGetNextTxDataPacket m burstSize = .ok (r, m')) : Served given m' ttl := by
  obtain ⟨queue, -, hround⟩ := masterGetNextTxDataPacket_ok hget
  have hc := h.cover.counters
  have ht := hround.sameStore
  have hactive := hround.activeTxNodes
  have htable := hround.maxTxNodes
  obtain ⟨p, i, c, -, ⟨-, rfl⟩ | ⟨d, e, -, -, -, he, -, -, rfl⟩⟩ := hround
  · exact ⟨g, h.sameStore ht ⟨hc.start_eq, hc.next_eq, hc.stop_eq, hc.start_le_next, hc.next_le_stop,
      hc.window_le_255⟩
      rfl rfl hactive htable⟩
  · have hlt := hc.next_lt_stop he
    refine ⟨g.advance d, h.sameStore ht (hc.moveNext (Nat.le_succ_of_le (hc.start_le_next d)) hlt rfl ?_ rfl) rfl rfl
      hactive htable⟩
    change Function.update m.txSeqNumNext d (incrSequenceNum (m.txSeqNumNext d)) = _
    rw [hc.next_eq, incr_seq]

theorem missAck (h : ServedBy given m ttl g) : ServedBy given (m.missAck d) ttl (g.missAck m d) :=
  h.sameStore (sameStore_missAck m d) h.cover.counters.missAck (g.missAck_start m d) (g.missAck_stop m d)
    (missAck_activeTxNodes m d) (missAck_maxTxNodes m d)

theorem queueHas (h : ServedBy given m ttl g) (hd : g.start d < g.stop d) : QueueHas true m d := by
  intro _
  obtain ⟨q, hq, -, hmem⟩ := h.queue
  exact ⟨q, hq, (hmem d).mpr hd⟩

theorem rxAck (h : ServedBy given m ttl g) (hf : ¬ m.FindsPending) (a : UInt8)
    (hd : a ≠ nullSequenceNum → d.toNat < maxNodes) :
    ∃ n m', rxAckSeqNum m d a true = .ok (n, m') ∧ Served given m' ttl ∧ ∀ x q, m'.InWindow x q →
      m.InWindow x q := by
  by_cases ha : a = nullSequenceNum
  · subst ha
    exact ⟨0, m, rxAckSeqNum_null, ⟨g, h⟩, fun _ _ => id⟩
  · have ht : d.toNat < m.maxTxNodes := by
      rw [h.table]
      exact hd ha
    rcases (h.cover.counters.at d).rxAck_cases ha with ⟨hfull, k, hs, he, rfl⟩ | ⟨hv, -⟩
    · obtain ⟨s, hfreed, hack⟩ := rxAckSeqNum_valid (h.cover.counters.at d) ht
        (h.queueHas (hs.trans_lt he)) hfull hs he
        (h.cover.freesUpTo hf hfull (Nat.succ_le_of_lt he))
      have hcover := h.cover.acknowledge hfreed (Nat.le_succ_of_le hs) he
      have hwindow : ∀ x, x ≠ d → (m.acknowledge true g d (k + 1) s).txSeqNumStart x = m.txSeqNumStart x :=
        fun x hx => Function.update_of_ne hx _ _
      refine ⟨_, _, hack, ⟨g.acknowledge d (k + 1), hcover, ?_, h.table, ?_⟩, ?_⟩
      · exact h.queue.acknowledge h.cover.counters.stop_eq (Nat.lt_succ_of_le hs) he hfull
      · intro x hx
        refine h.there x ?_
        simp only [Ledger.acknowledge] at hx
        by_cases hxd : x = d
        · subst hxd
          exact hs.trans_lt he
        · rwa [Function.update_of_ne hxd] at hx
      · intro x q hq
        by_cases hxd : x = d
        · subst hxd
          obtain ⟨-, j, hj, hj', rfl⟩ := (hcover.counters.inWindow_iff x).mp hq
          simp only [Ledger.acknowledge, Function.update_self] at hj hj'
          exact (h.cover.counters.inWindow_iff x).mpr ⟨hfull, j, by omega, hj', rfl⟩
        · unfold TxManager.InWindow at hq ⊢
          rw [hwindow x hxd] at hq
          exact hq
    · refine ⟨0, _, rxAckSeqNum_missed ht ha hv, ⟨_, h.missAck⟩, ?_⟩
      intro x q hq
      unfold TxManager.InWindow at hq ⊢
      rwa [missAck_start, missAck_end] at hq

end ServedBy

/-- Only a null acknowledgement is taken from an id past the table. -/
theorem rxAckSeqNum_source {n : Nat} {a : UInt8} {isMaster : Bool} (h : rxAckSeqNum m d a isMaster = .ok (n, m'))
    (ha : a ≠ nullSequenceNum) : d.toNat < m.maxTxNodes := by
  unfold rxAckSeqNum at h
  have ha' : ¬ a = invalidSequenceNum := ha
  rw [if_neg ha'] at h
  obtain ⟨_, hd, -⟩ := bind_eq_ok.mp h
  exact checkIndex_ok.mp hd

/-- The stream of `d` starts again. -/
def Ledger.remove (g : Ledger) (d : TNodeIndex) : Ledger :=
  { g with
    start := Function.update g.start d 0
    next := Function.update g.next d 0
    stop := Function.update g.stop d 0 }

theorem Ledger.remove_window {x : TNodeIndex} {a : Nat} (hs : (g.remove d).start x ≤ a)
    (he : a < (g.remove d).stop x) :
    x ≠ d ∧ g.start x ≤ a ∧ a < g.stop x := by
  simp only [Ledger.remove] at hs he
  by_cases hx : x = d
  · subst hx
    rw [Function.update_self] at he
    exact absurd he (Nat.not_lt_zero a)
  · rw [Function.update_of_ne hx] at hs he
    exact ⟨hx, hs, he⟩

theorem Counters.remove (c : Counters m g) {n : Nat} (hr : masterTxManagerRemoveNode m d = .ok (n, m')) :
    Counters m' (g.remove d) := by
  obtain ⟨-, hm, -⟩ := masterTxManagerRemoveNode_ok hr
  have hbyte : ∀ {f : TNodeIndex → UInt8} {p : TNodeIndex → Nat}, (∀ x, f x = seq (p x)) →
      ∀ x, Function.update f d 0 x = seq (Function.update p d 0 x) := by
    intro f p hf x
    by_cases hx : x = d
    · subst hx
      rw [Function.update_self, Function.update_self, seq_zero]
    · rw [Function.update_of_ne hx, Function.update_of_ne hx, hf]
  have hle : ∀ {p p' : TNodeIndex → Nat}, (∀ x, p x ≤ p' x) →
    ∀ x, Function.update p d 0 x ≤ Function.update p' d 0 x := by
    intro p p' hp x
    by_cases hx : x = d
    · subst hx
      rw [Function.update_self, Function.update_self]
    · rw [Function.update_of_ne hx, Function.update_of_ne hx]
      exact hp x
  rw [hm]
  refine ⟨hbyte c.start_eq, hbyte c.next_eq, hbyte c.stop_eq, hle c.start_le_next, hle c.next_le_stop, ?_⟩
  intro x
  simp only [Ledger.remove]
  by_cases hx : x = d
  · subst hx
    rw [Function.update_self, Function.update_self]
    exact Nat.zero_le _
  · rw [Function.update_of_ne hx, Function.update_of_ne hx]
    exact c.window_le_255 x

theorem QueueInv.remove (hq : QueueInv m g) {n : Nat} (hr : masterTxManagerRemoveNode m d = .ok (n, m')) :
    QueueInv m' (g.remove d) := by
  obtain ⟨-, hm, -⟩ := masterTxManagerRemoveNode_ok hr
  obtain ⟨q, hq, hnodup, hmem⟩ := hq
  refine ⟨nodeQueueRemoveIfExists q d, ?_, ?_, ?_⟩
  · rw [hm, hq]
    rfl
  · rw [toList_removeIfExists]
    exact hnodup.erase d
  · intro x
    rw [toList_removeIfExists, hnodup.mem_erase_iff, hmem]
    constructor
    · rintro ⟨hx, hlt⟩
      simp only [Ledger.remove]
      rwa [Function.update_of_ne hx, Function.update_of_ne hx]
    · intro hlt
      obtain ⟨hx, hs, he⟩ := Ledger.remove_window (Nat.le_refl _) hlt
      exact ⟨hx, hs.trans_lt he⟩

/-- The header left over in the allocated entry does not carry the id of the node that is removed. -/
theorem CoverInv.remove (h : CoverInv given m g) {n : Nat} (hr : masterTxManagerRemoveNode m d = .ok (n, m'))
    (hpend : ∀ u, m.allocatedPacket = some u → (m.entry u).packet.dstNodeId ≠ d) :
    CoverInv given m' (g.remove d) := by
  obtain ⟨-, -, hrel⟩ := masterTxManagerRemoveNode_ok hr
  have hsame := masterTxManagerRemoveNode_packets hr
  have hkept : ∀ i, (m.entry i).inUse = true → (m.entry i).packet.dstNodeId ≠ d → (m'.entry i).inUse = true :=
    fun i hu hd => (hrel.inUse i).mpr ⟨hu, fun hf => hd hf.2⟩
  refine h.shrink (h.counters.remove hr) hsame.maxTxNodes ?_ (fun x a hs he => (Ledger.remove_window hs he).2) ?_
  · intro u hu
    rw [hsame.allocated] at hu
    obtain ⟨hlt, huse⟩ := h.allocated u hu
    rw [hsame.size]
    exact ⟨hlt, hkept u huse (hpend u hu)⟩
  · intro x a i hs he hkey hl
    have hdst : (m.entry i).packet.dstNodeId = x := congrArg Prod.fst hkey
    have hother : (m.entry i).packet.dstNodeId ≠ d := by
      rw [hdst]
      exact (Ledger.remove_window hs he).1
    refine ⟨⟨hsame.size ▸ hl.lt, hkept i hl.inUse hother, hsame.allocated ▸ hl.notAllocated⟩, ?_⟩
    rw [hsame.packet]
    exact .refl true _

theorem ServedBy.remove {ttl : TimeToLive} (h : ServedBy given m ttl g) {n : Nat}
    (hr : masterTxManagerRemoveNode m d = .ok (n, m'))
    (hpend : ∀ u, m.allocatedPacket = some u → (m.entry u).packet.dstNodeId ≠ d) :
    ServedBy given m' (Function.update ttl d 0) (g.remove d) where
  cover := h.cover.remove hr hpend
  queue := h.queue.remove hr
  table := (masterTxManagerRemoveNode_packets hr).maxTxNodes.trans h.table
  there x hx := by
    obtain ⟨hxd, hs, he⟩ := Ledger.remove_window (Nat.le_refl _) hx
    rw [Function.update_of_ne hxd]
    exact h.there x (hs.trans_lt he)

theorem keptBySlots_served : KeptBySlots True (Served given) where
  quiet := fun ⟨_, h⟩ hq httl => ⟨_, h.quiet hq httl⟩
  ack := by
    rintro m m' ttl d a n ⟨g, h⟩ hf hack
    obtain ⟨n', m'', hack', hserved, -⟩ := h.rxAck (d := d) (hf trivial) a fun ha =>
      h.table ▸ rxAckSeqNum_source hack ha
    rw [hack] at hack'
    cases hack'
    exact hserved
  choose := fun ⟨_, h⟩ hget => h.choose hget
  remove := fun ⟨_, h⟩ hpend hr => ⟨_, h.remove hr (hpend trivial)⟩

end Microbus
