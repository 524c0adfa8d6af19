import Microbus.TxTransmit

/-! What acknowledgements and the removal of a node free. -/
namespace Microbus

open Transition

variable {isMaster : Bool} {m m' : TxManager} {g : Ledger} {d : TNodeIndex}

/-- The entries in `freed` are given back, no packet is touched. -/
structure PacketStore.Released (s s' : PacketStore) (freed : Nat → Prop) : Prop where
  maxEntries : s'.maxEntries = s.maxEntries
  packet : ∀ i, (s'.entries i).packet = (s.entries i).packet
  inUse : ∀ i, (s'.entries i).inUse = true ↔ (s.entries i).inUse = true ∧ ¬ freed i

namespace PacketStore.Released

variable {s s' s'' : PacketStore} {freed freed' : Nat → Prop}

theorem refl (s : PacketStore) : s.Released s fun _ => False :=
  ⟨rfl, fun _ => rfl, fun _ => by rw [not_false_eq_true, and_true]⟩

theorem trans (h : s.Released s' freed) (h' : s'.Released s'' freed') :
    s.Released s'' fun i => freed i ∨ freed' i where
  maxEntries := h'.maxEntries.trans h.maxEntries
  packet i := (h'.packet i).trans (h.packet i)
  inUse i := by rw [h'.inUse, h.inUse, not_or, and_assoc]

theorem congr (h : s.Released s' freed) (hf : ∀ i, (s.entries i).inUse = true → (freed i ↔ freed' i)) :
    s.Released s' freed' where
  maxEntries := h.maxEntries
  packet := h.packet
  inUse i := by
    rw [h.inUse]
    exact and_congr_right fun hu => not_congr (hf i hu)

theorem find (h : s.Released s' freed) {q : UInt8} {i : Nat}
    (hf : findPacketEntry s d q isMaster = .ok i) (hi : ¬ freed i) :
    findPacketEntry s' d q isMaster = .ok i := by
  unfold findPacketEntry at hf ⊢
  cases hfind : (List.range s.maxEntries.toNat).find? (fun i => (s.entries i).isMatch d q isMaster) with
  | none => rw [hfind] at hf; cases hf
  | some j =>
      rw [hfind] at hf
      obtain rfl : j = i := Except.ok.inj hf
      obtain ⟨hm, hlt, hmin⟩ := List.find?_range_eq_some.mp hfind
      have hmatch : ∀ k, (s'.entries k).isMatch d q isMaster = true ↔
          (s.entries k).isMatch d q isMaster = true ∧ ¬ freed k := by
        intro k
        have hu := h.inUse k
        unfold PacketEntry.isMatch
        simp only [h.packet, Bool.and_eq_true, hu]
        constructor
        · rintro ⟨⟨⟨h1, h2⟩, h3⟩, h4⟩
          exact ⟨⟨⟨h1, h3⟩, h4⟩, h2⟩
        · rintro ⟨⟨⟨h1, h3⟩, h4⟩, h2⟩
          exact ⟨⟨⟨h1, h2⟩, h3⟩, h4⟩
      have hfind' : (List.range s'.maxEntries.toNat).find? (fun i => (s'.entries i).isMatch d q isMaster) = some j := by
        rw [h.maxEntries]
        refine List.find?_range_eq_some.mpr ⟨(hmatch j).mpr ⟨hm, hi⟩, hlt, ?_⟩
        intro k hk
        have hk' := hmin k hk
        rw [Bool.not_eq_true'] at hk' ⊢
        rw [Bool.eq_false_iff] at hk' ⊢
        exact fun hc => hk' ((hmatch k).mp hc).1
      rw [hfind']

end PacketStore.Released

theorem freePacket_ok {s : PacketStore} {q : UInt8} {i : Nat} (hf : findPacketEntry s d q isMaster = .ok i) :
    ∃ s', freePacket s d q isMaster = .ok s' ∧ s.Released s' (· = i) := by
  refine ⟨{ s.setInUse i false with numFreed := s.numFreed + 1 }, ?_, rfl, ?_, ?_⟩
  · unfold freePacket
    rw [hf]
    rfl
  · intro j
    by_cases hj : j = i
    · subst hj
      simp [PacketStore.setInUse]
    · simp [PacketStore.setInUse, hj]
  · intro j
    by_cases hj : j = i
    · subst hj
      simp [PacketStore.setInUse]
    · simp [PacketStore.setInUse, hj]

/-- The packets of `d` from the start of its window up to `r`. -/
def AckedBelow (m : TxManager) (g : Ledger) (d : TNodeIndex) (r i : Nat) : Prop :=
  m.Live i ∧ (g.owner i).1 = d ∧ (g.owner i).2 < r

section Loop

variable {start next stop k r : Nat}

/-- What the loop of `rxAckSeqNum` makes of the counter `next` when it frees packet `k`. -/
theorem next_while_freeing (f : TNodeIndex → UInt8) (d : TNodeIndex) (hsn : start ≤ next) (hns : next ≤ stop)
    (hfull : stop < start + 255) (hsk : start ≤ k) (hkr : k < r) (hr : r ≤ stop) :
    (if seq k = seq (if next < k then r else next) then
      Function.update (Function.update f d (seq (if next < k then r else next))) d (seq r)
    else Function.update f d (seq (if next < k then r else next))) =
      Function.update f d (seq (if next < k + 1 then r else next)) := by
  have hne : ∀ {a b : Nat}, start ≤ a → a ≤ stop → start ≤ b → b ≤ stop → a ≠ b →
    seq a ≠ seq b := by
    intro a b ha ha' hb hb' hab hc
    exact hab (Cyclic.eq_of_mod_eq (seq_eq_iff.mp hc) (by omega) (by omega))
  rcases Nat.lt_trichotomy next k with hlt | heq | hgt
  · have hk' : next < k + 1 := Nat.lt_succ_of_lt hlt
    have hkr' := hne hsk (hkr.le.trans hr) (hsk.trans hkr.le) hr hkr.ne
    simp only [if_pos hlt, if_neg hkr', if_pos hk']
  · have hk' : next < k + 1 := heq.trans_lt (Nat.lt_succ_self k)
    have hk'' : ¬ next < k := heq.not_lt
    simp only [if_pos hk', if_neg hk'', if_pos (congrArg seq heq.symm), Function.update_idem]
  · have hk' : ¬ next < k + 1 := Nat.not_lt.mpr hgt
    have hk'' : ¬ next < k := hgt.not_gt
    have hseq := hne hsk (hgt.le.trans hns) hsn hns hgt.ne
    simp only [if_neg hk', if_neg hk'', if_neg hseq]

end Loop

/-- Each turn of the loop of `rxAckSeqNum` finds a packet, and `freed` tells what is left. -/
def FreesUpTo (isMaster : Bool) (m : TxManager) (g : Ledger) (d : TNodeIndex) (r : Nat)
    (freed : Nat → PacketStore → Prop) :
    Prop :=
  freed (g.start d) m.packetStore ∧ ∀ k s, g.start d ≤ k → k < r → freed k s →
    ∃ s', freePacket s d (seq k) isMaster = .ok s' ∧ freed (k + 1) s'

/-- The loop of `rxAckSeqNum` in a window that is not full, from packet `k` on: `next` is moved
to `r` as soon as the loop passes it. -/
theorem freeAckedPackets_ok (c : CountersAt m g d) {freed : Nat → PacketStore → Prop} {r : Nat}
    (hfreed : FreesUpTo isMaster m g d r freed) (hfull : g.stop d < g.start d + 255) (hr : r ≤ g.stop d) :
    ∀ n k fuel count s, k + n = r → n < fuel → g.start d ≤ k → freed k s →
      ∃ s', freed r s' ∧
        freeAckedPackets d (seq r) isMaster fuel (seq k) count
          { m with
            packetStore := s
            txSeqNumNext := Function.update m.txSeqNumNext d (seq (if g.next d < k then r else g.next d)) } =
        .ok (count + n,
          { m with
            packetStore := s'
            txSeqNumNext := Function.update m.txSeqNumNext d (seq (max (g.next d) r)) }) := by
  intro n
  induction n with
  | zero =>
      intro k fuel count s hk hfuel hstart hs
      obtain rfl : k = r := hk
      cases fuel with
      | zero => exact absurd hfuel (Nat.lt_irrefl _)
      | succ fuel =>
          refine ⟨s, hs, ?_⟩
          have hmax : (if g.next d < k then k else g.next d) = max (g.next d) k := by
            split <;> omega
          unfold freeAckedPackets
          rw [if_neg (not_not.mpr rfl), hmax]
          rfl
  | succ n ih =>
      intro k fuel count s hk hfuel hstart hs
      cases fuel with
      | zero => exact absurd hfuel (Nat.not_lt_zero _)
      | succ fuel =>
          have hkr : k < r := by omega
          have hne : seq k ≠ seq r := by
            rw [Ne, seq_eq_iff]
            intro hc
            have := Cyclic.eq_of_mod_eq hc (by omega) (by omega)
            omega
          obtain ⟨s₁, hfree, hs₁⟩ := hfreed.2 k s hstart hkr hs
          obtain ⟨s', hs', hloop⟩ := ih (k + 1) fuel (count + 1) s₁ (by omega) (by omega) (by omega) hs₁
          refine ⟨s', hs', ?_⟩
          have hnext := next_while_freeing m.txSeqNumNext d c.start_le_next c.next_le_stop hfull hstart hkr hr
          unfold freeAckedPackets
          rw [if_pos hne]
          simp only [hfree, bind, Except.bind, Function.update_self, incr_seq, hnext]
          rw [hloop]
          congr 2
          omega

/-- The packets are found one by one although those before them are gone. -/
theorem StoreInv.freesUpTo (h : StoreInv isMaster m g) (hu : Unshadowed isMaster m) (hd : ValidDst isMaster d) {r : Nat}
    (hr : r ≤ g.stop d) : FreesUpTo isMaster m g d r fun k s => m.packetStore.Released s (AckedBelow m g d k) := by
  constructor
  · refine (PacketStore.Released.refl _).congr fun i _ => ⟨False.elim, ?_⟩
    rintro ⟨hl, hd, hlt⟩
    have := (h.owner_mem i hl).1
    rw [hd] at this
    omega
  · intro k s hstart hkr hs
    obtain ⟨i, hi, ho⟩ := h.owner_surj d k hstart (by omega)
    have hfind := hs.find (h.find_live hu hd hi ho) (by
      rintro ⟨-, -, hlt⟩
      rw [ho] at hlt
      exact Nat.lt_irrefl _ hlt)
    obtain ⟨s₁, hfree, hs₁⟩ := freePacket_ok hfind
    refine ⟨s₁, hfree, (hs.trans hs₁).congr ?_⟩
    intro j _
    constructor
    · rintro (⟨hl, hd, hlt⟩ | rfl)
      · exact ⟨hl, hd, Nat.lt_succ_of_lt hlt⟩
      · exact ⟨hi, by rw [ho], by rw [ho]; exact Nat.lt_succ_self k⟩
    · rintro ⟨hl, hd, hlt⟩
      rcases Nat.lt_succ_iff_lt_or_eq.mp hlt with hlt | heq
      · exact Or.inl ⟨hl, hd, hlt⟩
      · exact Or.inr (h.owner_inj j i hl hi ((Prod.ext hd heq).trans ho.symm))

/-- The queue after the window of `d` moved up to `r`. -/
def queueAfterAck (isMaster : Bool) (m : TxManager) (d : TNodeIndex) (r : UInt8) : Option NodeQueue :=
  if r = m.txSeqNumEnd d ∧ isMaster = true then m.activeTxNodes.map (nodeQueueRemoveIfExists · d)
  else m.activeTxNodes

def TxManager.acknowledge (m : TxManager) (isMaster : Bool) (g : Ledger) (d : TNodeIndex) (r : Nat)
    (s : PacketStore) : TxManager :=
  { m with
    packetStore := s
    txSeqNumStart := Function.update m.txSeqNumStart d (seq r)
    txSeqNumNext := Function.update m.txSeqNumNext d (seq (max (g.next d) r))
    txSeqNumPauseCount := Function.update m.txSeqNumPauseCount d 0
    activeTxNodes := queueAfterAck isMaster m d (seq r) }

/-- The manager after an acknowledgement that frees nothing: a pause runs out, and with it the
window starts again. -/
def TxManager.missAck (m : TxManager) (d : TNodeIndex) : TxManager :=
  if m.txSeqNumPauseCount d > 0 then
    { m with
      txSeqNumPauseCount := Function.update m.txSeqNumPauseCount d (m.txSeqNumPauseCount d - 1)
      txSeqNumNext :=
        if m.txSeqNumPauseCount d - 1 = 0 then Function.update m.txSeqNumNext d (m.txSeqNumStart d)
        else m.txSeqNumNext }
  else m

theorem rxAckSeqNum_null : rxAckSeqNum m d nullSequenceNum isMaster = .ok (0, m) := rfl

theorem rxAckSeqNum_missed {a : UInt8} (ht : d.toNat < m.maxTxNodes) (ha : a ≠ nullSequenceNum)
    (hv : ¬ validAckSeqNum (m.txSeqNumStart d) (m.txSeqNumEnd d) a = true) :
    rxAckSeqNum m d a isMaster = .ok (0, m.missAck d) := by
  unfold rxAckSeqNum TxManager.missAck
  have ha' : ¬ a = invalidSequenceNum := ha
  rw [if_neg ha', checkIndex, if_pos ht]
  simp only [bind, Except.bind, hv]
  by_cases hp : m.txSeqNumPauseCount d > 0
  · simp only [hp, if_true]
    by_cases hz : m.txSeqNumPauseCount d - 1 = 0
    · simp only [hz, if_true]
      rfl
    · simp only [hz, if_false]
      rfl
  · simp only [hp, if_false]
    rfl

/-- The destination is in the queue whenever its window empties. -/
def QueueHas (isMaster : Bool) (m : TxManager) (d : TNodeIndex) : Prop :=
  isMaster = true → ∃ q, m.activeTxNodes = some q ∧ d ∈ q.toList

theorem rxAckSeqNum_valid (c : CountersAt m g d) (ht : d.toNat < m.maxTxNodes) (hq : QueueHas isMaster m d)
    (hfull : g.stop d < g.start d + 255) {k : Nat} (hs : g.start d ≤ k) (he : k < g.stop d)
    {freed : Nat → PacketStore → Prop} (hfreed : FreesUpTo isMaster m g d (k + 1) freed) :
    ∃ s, freed (k + 1) s ∧
      rxAckSeqNum m d (seq k) isMaster = .ok (k + 1 - g.start d, m.acknowledge isMaster g d (k + 1) s) := by
  have hvalid : validAckSeqNum (m.txSeqNumStart d) (m.txSeqNumEnd d) (seq k) = true := by
    rw [c.start_eq, c.stop_eq]
    exact (validAck_seq_iff c.start_le_stop c.window_le_255).mpr ⟨hfull, k, hs, he, rfl⟩
  obtain ⟨s, hrel, hloop⟩ := freeAckedPackets_ok c hfreed hfull (Nat.succ_le_of_lt he) (k + 1 - g.start d)
    (g.start d) 256 0 m.packetStore (by omega) (by omega) (Nat.le_refl _) hfreed.1
  refine ⟨s, hrel, ?_⟩
  -- the loop begins with the manager itself
  have hstart : ({ m with
      packetStore := m.packetStore
      txSeqNumNext := Function.update m.txSeqNumNext d (seq (if g.next d < g.start d then k + 1 else g.next d)) } :
        TxManager) = m := by
    rw [if_neg (Nat.not_lt.mpr c.start_le_next), ← c.next_eq, Function.update_eq_self]
  rw [hstart, ← c.start_eq, Nat.zero_add] at hloop
  unfold rxAckSeqNum
  have hk : ¬ seq k = invalidSequenceNum := seq_ne_null k
  rw [if_neg hk, checkIndex, if_pos ht]
  simp only [bind, Except.bind, hvalid, if_true, incr_seq, hloop]
  unfold TxManager.acknowledge queueAfterAck
  by_cases hm : seq (k + 1) = m.txSeqNumEnd d ∧ isMaster = true
  · obtain ⟨q, hq, hmem⟩ := hq hm.2
    simp only [hm, and_self, if_true, hq, nodeQueueRemove_total hmem, Option.map_some]
    rfl
  · simp only [hm, if_false]
    rfl

namespace StoreInv

theorem release (h : StoreInv isMaster m g) {g' : Ledger} {freed : Nat → Prop}
    (hs : m.packetStore.Released m'.packetStore freed) (halloc : m'.allocatedPacket = m.allocatedPacket)
    (hpend : ∀ u, m.allocatedPacket = some u → ¬ freed u) (htable : m'.maxTxNodes = m.maxTxNodes)
    (hstart : ∀ x, m'.txSeqNumStart x = seq (g'.start x)) (hnext : ∀ x, m'.txSeqNumNext x = seq (g'.next x))
    (hstop : ∀ x, m'.txSeqNumEnd x = seq (g'.stop x)) (hsn : ∀ x, g'.start x ≤ g'.next x)
    (hne : ∀ x, g'.next x ≤ g'.stop x) (howner : g'.owner = g.owner)
    (hsub : ∀ x a, g'.start x ≤ a → a < g'.stop x → g.start x ≤ a ∧ a < g.stop x)
    (hfreed : ∀ i, m.Live i →
      (¬ freed i ↔ g'.start (g.owner i).1 ≤ (g.owner i).2 ∧ (g.owner i).2 < g'.stop (g.owner i).1)) :
    StoreInv isMaster m' g' := by
  have hsize : m'.size = m.size := by
    unfold TxManager.size
    rw [hs.maxEntries]
  have hlive : ∀ i, m'.Live i ↔ m.Live i ∧ ¬ freed i := by
    intro i
    have hu := hs.inUse i
    constructor
    · intro hl
      obtain ⟨hu', hf⟩ := hu.mp hl.inUse
      exact ⟨⟨hsize ▸ hl.lt, hu', halloc ▸ hl.notAllocated⟩, hf⟩
    · rintro ⟨hl, hf⟩
      exact ⟨hsize.symm ▸ hl.lt, hu.mpr ⟨hl.inUse, hf⟩, halloc.symm ▸ hl.notAllocated⟩
  have hkey : ∀ i, entryKey isMaster (m'.entry i) = entryKey isMaster (m.entry i) := by
    intro i
    have hp := hs.packet i
    unfold entryKey TxManager.entry
    rw [hp]
  exact {
    start_eq := hstart
    next_eq := hnext
    stop_eq := hstop
    start_le_next := hsn
    next_le_stop := hne
    table := by
      intro x hx
      rw [htable]
      obtain ⟨h1, h2⟩ := hsub x (g'.start x) (Nat.le_refl _) hx
      exact h.table x (h1.trans_lt h2)
    allocated := by
      intro u hu
      rw [halloc] at hu
      obtain ⟨h1, h2⟩ := h.allocated u hu
      rw [hsize]
      exact ⟨h1, (hs.inUse u).mpr ⟨h2, hpend u hu⟩⟩
    owner_mem := by
      intro i hi
      obtain ⟨hl, hf⟩ := (hlive i).mp hi
      rw [howner]
      exact (hfreed i hl).mp hf
    owner_key := by
      intro i hi
      rw [hkey, howner]
      exact h.owner_key i ((hlive i).mp hi).1
    owner_inj := by
      intro i j hi hj
      rw [howner]
      exact h.owner_inj i j ((hlive i).mp hi).1 ((hlive j).mp hj).1
    owner_surj := by
      intro x a hsa hae
      obtain ⟨h1, h2⟩ := hsub x a hsa hae
      obtain ⟨i, hi, ho⟩ := h.owner_surj x a h1 h2
      refine ⟨i, (hlive i).mpr ⟨hi, (hfreed i hi).mpr ?_⟩, by rw [howner, ho]⟩
      rw [ho]
      exact ⟨hsa, hae⟩ }

end StoreInv

def Ledger.acknowledge (g : Ledger) (d : TNodeIndex) (r : Nat) : Ledger :=
  { g with
    start := Function.update g.start d r
    next := Function.update g.next d (max (g.next d) r) }

section Acknowledge

variable {r : Nat} {s : PacketStore}

theorem StoreInv.acknowledge (h : StoreInv isMaster m g) (hs : m.packetStore.Released s (AckedBelow m g d r))
    (hsr : g.start d ≤ r) (hr : r ≤ g.stop d) :
    StoreInv isMaster (m.acknowledge isMaster g d r s) (g.acknowledge d r) := by
  refine h.release hs rfl (fun u hu hf => hf.1.notAllocated hu) rfl ?_ ?_ h.stop_eq ?_ ?_ rfl ?_ ?_
  · intro x
    simp only [TxManager.acknowledge, Ledger.acknowledge]
    by_cases hx : x = d
    · subst hx; rw [Function.update_self, Function.update_self]
    · rw [Function.update_of_ne hx, Function.update_of_ne hx, h.start_eq]
  · intro x
    simp only [TxManager.acknowledge, Ledger.acknowledge]
    by_cases hx : x = d
    · subst hx; rw [Function.update_self, Function.update_self]
    · rw [Function.update_of_ne hx, Function.update_of_ne hx, h.next_eq]
  · intro x
    simp only [Ledger.acknowledge]
    by_cases hx : x = d
    · subst hx; rw [Function.update_self, Function.update_self]; exact Nat.le_max_right _ _
    · rw [Function.update_of_ne hx, Function.update_of_ne hx]; exact h.start_le_next x
  · intro x
    simp only [Ledger.acknowledge]
    by_cases hx : x = d
    · subst hx; rw [Function.update_self]; exact Nat.max_le.mpr ⟨h.next_le_stop x, hr⟩
    · rw [Function.update_of_ne hx]; exact h.next_le_stop x
  · intro x a hsa hae
    simp only [Ledger.acknowledge] at hsa hae
    by_cases hx : x = d
    · subst hx
      rw [Function.update_self] at hsa
      exact ⟨hsr.trans hsa, hae⟩
    · rw [Function.update_of_ne hx] at hsa
      exact ⟨hsa, hae⟩
  · intro i hi
    have hmem := h.owner_mem i hi
    simp only [Ledger.acknowledge, AckedBelow]
    by_cases hx : (g.owner i).1 = d
    · rw [hx, Function.update_self, ← hx]
      constructor
      · intro hf
        exact ⟨Nat.not_lt.mp fun hlt => hf ⟨hi, rfl, hlt⟩, hmem.2⟩
      · rintro ⟨hle, -⟩ ⟨-, -, hlt⟩
        exact Nat.not_lt.mpr hle hlt
    · rw [Function.update_of_ne hx]
      exact ⟨fun _ => hmem, fun _ hf => hx hf.2.1⟩

theorem Fresh.acknowledge (hf : Fresh isMaster m) (h : StoreInv isMaster m g)
    (hs : m.packetStore.Released s (AckedBelow m g d r)) (hfull : g.stop d < g.start d + 255) :
    Fresh isMaster (m.acknowledge isMaster g d r s) := by
  have hkey : ∀ i, entryKey isMaster ((m.acknowledge isMaster g d r s).entry i) = entryKey isMaster (m.entry i) := by
    intro i
    have hp := hs.packet i
    unfold entryKey TxManager.entry
    simp only [TxManager.acknowledge, hp]
  have hsize : (m.acknowledge isMaster g d r s).size = m.size := by
    unfold TxManager.size
    simp only [TxManager.acknowledge, hs.maxEntries]
  constructor
  · intro i j hij hi hj
    have hj' : m.Live j := ⟨hsize ▸ hj.lt, ((hs.inUse j).mp hj.inUse).1, hj.notAllocated⟩
    rw [hkey, hkey]
    by_cases hi' : m.Live i
    · -- an entry that was just given back had a key of its own
      exact fun hk => hij.ne (h.live_eq_of_key hi' hj' hk)
    · exact hf.stale i j hij hi' hj'
  · intro u hu i hi hfree x
    rw [hkey]
    by_cases hi' : (m.entry i).inUse = true
    · have hacked : AckedBelow m g d r i := by
        by_contra hc
        have hu' := (hs.inUse i).mpr ⟨hi', hc⟩
        rw [show (s.entries i).inUse = false from hfree] at hu'
        cases hu'
      have hmem := h.owner_mem i hacked.1
      rw [h.owner_key i hacked.1]
      change _ ≠ (x, m.txSeqNumEnd x)
      rw [h.stop_eq, Ne, Prod.mk.injEq]
      rintro ⟨hx, hseq⟩
      rw [hacked.2.1] at hx hmem
      subst hx
      have := hacked.2.2
      have := Cyclic.eq_of_mod_eq (seq_eq_iff.mp hseq) (by omega) (by omega)
      omega
    · exact hf.staleEnd u hu i hi (by simpa using hi') x

theorem QueueInv.acknowledge (hq : QueueInv m g) (hstop : ∀ x, m.txSeqNumEnd x = seq (g.stop x)) (hsr : g.start d < r)
    (hr : r ≤ g.stop d) (hfull : g.stop d < g.start d + 255) :
    QueueInv (m.acknowledge true g d r s) (g.acknowledge d r) := by
  obtain ⟨q, hq, hnodup, hmem⟩ := hq
  have hempty : seq r = m.txSeqNumEnd d ↔ r = g.stop d := by
    rw [hstop, seq_eq_iff]
    exact ⟨fun hc => Cyclic.eq_of_mod_eq hc (by omega) (by omega), fun hc => by rw [hc]⟩
  have hwin : ∀ x, x ≠ d → ((g.acknowledge d r).start x < (g.acknowledge d r).stop x ↔
    g.start x < g.stop x) := by
    intro x hx
    simp only [Ledger.acknowledge]
    rw [Function.update_of_ne hx]
  have hself : (g.acknowledge d r).start d < (g.acknowledge d r).stop d ↔ r < g.stop d := by
    simp only [Ledger.acknowledge]
    rw [Function.update_self]
  by_cases hc : r = g.stop d
  · refine ⟨nodeQueueRemoveIfExists q d, ?_, ?_, ?_⟩
    · simp only [TxManager.acknowledge, queueAfterAck]
      rw [if_pos ⟨hempty.mpr hc, trivial⟩, hq]
      rfl
    · rw [toList_removeIfExists]
      exact hnodup.erase d
    · intro x
      rw [toList_removeIfExists, hnodup.mem_erase_iff, hmem]
      by_cases hx : x = d
      · subst hx
        rw [hself]
        exact ⟨fun hn => absurd rfl hn.1, fun hlt => absurd hc hlt.ne⟩
      · rw [hwin x hx]
        exact ⟨fun hn => hn.2, fun hlt => ⟨hx, hlt⟩⟩
  · refine ⟨q, ?_, hnodup, ?_⟩
    · simp only [TxManager.acknowledge, queueAfterAck]
      rw [if_neg fun hn => hc (hempty.mp hn.1), hq]
    · intro x
      rw [hmem]
      by_cases hx : x = d
      · subst hx
        rw [hself]
        exact ⟨fun _ => lt_of_le_of_ne hr hc, fun _ => hsr.trans_le hr⟩
      · rw [hwin x hx]

end Acknowledge

theorem sameStore_missAck (m : TxManager) (d : TNodeIndex) : SameStore m (m.missAck d) := by
  unfold TxManager.missAck
  split
  · exact ⟨rfl, rfl⟩
  · exact ⟨rfl, rfl⟩

def Ledger.missAck (g : Ledger) (m : TxManager) (d : TNodeIndex) : Ledger :=
  if m.txSeqNumPauseCount d = 1 then g.rewind d else g

theorem StoreInv.missAck (h : StoreInv isMaster m g) : StoreInv isMaster (m.missAck d) (g.missAck m d) := by
  have hstay : StoreInv isMaster m g →
      ∀ p, StoreInv isMaster { m with txSeqNumPauseCount := p } g :=
    fun h p => h.congr rfl rfl rfl rfl (SameStore.live ⟨rfl, rfl⟩) (fun _ _ => rfl) h.allocated
  unfold TxManager.missAck Ledger.missAck
  by_cases hp : m.txSeqNumPauseCount d > 0
  · by_cases hz : m.txSeqNumPauseCount d - 1 = 0
    · have h1 : m.txSeqNumPauseCount d = 1 := by omega
      simp only [h1, Nat.one_pos, gt_iff_lt, if_true]
      refine h.moveNext (Nat.le_refl _) (h.start_le_stop d) ⟨rfl, rfl⟩ rfl ?_ rfl rfl
      change Function.update m.txSeqNumNext d (m.txSeqNumStart d) = _
      rw [h.start_eq]
    · have h1 : ¬ m.txSeqNumPauseCount d = 1 := by omega
      simp only [hp, hz, if_true, if_false, h1]
      exact hstay h _
  · have h1 : ¬ m.txSeqNumPauseCount d = 1 := by omega
    simp only [hp, if_false, h1]
    exact h

section MissAck

variable (m : TxManager) (g : Ledger) (d : TNodeIndex)

@[simp] theorem missAck_start : (m.missAck d).txSeqNumStart = m.txSeqNumStart := by
  unfold TxManager.missAck
  split <;> rfl

@[simp] theorem missAck_end : (m.missAck d).txSeqNumEnd = m.txSeqNumEnd := by
  unfold TxManager.missAck
  split <;> rfl

@[simp] theorem missAck_activeTxNodes : (m.missAck d).activeTxNodes = m.activeTxNodes := by
  unfold TxManager.missAck
  split <;> rfl

@[simp] theorem missAck_maxTxNodes : (m.missAck d).maxTxNodes = m.maxTxNodes := by
  unfold TxManager.missAck
  split <;> rfl

@[simp] theorem Ledger.missAck_start : (g.missAck m d).start = g.start := by
  unfold Ledger.missAck
  split <;> rfl

@[simp] theorem Ledger.missAck_stop : (g.missAck m d).stop = g.stop := by
  unfold Ledger.missAck
  split <;> rfl

end MissAck

/-- What an acknowledgement does to the manager and to its ledger. A window of all 255 numbers
takes none. -/
inductive AckResult (isMaster : Bool) (m : TxManager) (g : Ledger) (d : TNodeIndex) (a : UInt8) :
    TxManager → Ledger → Prop
  | null : a = nullSequenceNum → AckResult isMaster m g d a m g
  | missed : a ≠ nullSequenceNum →
      (g.stop d < g.start d + 255 → ∀ k, g.start d ≤ k → k < g.stop d → a ≠ seq k) →
      AckResult isMaster m g d a (m.missAck d) (g.missAck m d)
  | valid {k s} : g.start d ≤ k → k < g.stop d → g.stop d < g.start d + 255 → a = seq k →
      m.packetStore.Released s (AckedBelow m g d (k + 1)) →
      AckResult isMaster m g d a (m.acknowledge isMaster g d (k + 1) s) (g.acknowledge d (k + 1))

/-- An acknowledgement names a packet of the window, or it is missed. -/
theorem CountersAt.rxAck_cases (c : CountersAt m g d) {a : UInt8} (ha : a ≠ nullSequenceNum) :
    (g.stop d < g.start d + 255 ∧ ∃ k, g.start d ≤ k ∧ k < g.stop d ∧ a = seq k) ∨
      (¬ validAckSeqNum (m.txSeqNumStart d) (m.txSeqNumEnd d) a = true ∧
        (g.stop d < g.start d + 255 → ∀ k, g.start d ≤ k → k < g.stop d → a ≠ seq k)) := by
  have hvalid : validAckSeqNum (m.txSeqNumStart d) (m.txSeqNumEnd d) a = true ↔
      g.stop d < g.start d + 255 ∧ ∃ k, g.start d ≤ k ∧ k < g.stop d ∧ a = seq k := by
    rw [c.start_eq, c.stop_eq, exists_seq_of_ne_null ha, validAck_seq_iff c.start_le_stop c.window_le_255]
  by_cases hv : validAckSeqNum (m.txSeqNumStart d) (m.txSeqNumEnd d) a = true
  · exact Or.inl (hvalid.mp hv)
  · refine Or.inr ⟨hv, ?_⟩
    intro hfull k hs he hk
    exact hv (hvalid.mpr ⟨hfull, k, hs, he, hk⟩)

theorem StoreInv.rxAck (h : StoreInv isMaster m g) (hu : Unshadowed isMaster m) (a : UInt8)
    (hd : a ≠ nullSequenceNum → d.toNat < m.maxTxNodes ∧ ValidDst isMaster d)
    (hq : isMaster = true → g.start d < g.stop d → ∃ q, m.activeTxNodes = some q ∧ d ∈ q.toList) :
    ∃ n m' g', rxAckSeqNum m d a isMaster = .ok (n, m') ∧ AckResult isMaster m g d a m' g' := by
  by_cases ha : a = nullSequenceNum
  · rw [ha]
    exact ⟨0, m, g, rxAckSeqNum_null, .null rfl⟩
  · obtain ⟨ht, hvalid⟩ := hd ha
    rcases (h.counters.at d).rxAck_cases ha with ⟨hfull, k, hs, he, rfl⟩ | ⟨hv, hmiss⟩
    · obtain ⟨s, hrel, hack⟩ := rxAckSeqNum_valid (h.counters.at d) ht
        (fun hm => hq hm (hs.trans_lt he)) hfull hs he
        (h.freesUpTo hu hvalid (Nat.succ_le_of_lt he))
      exact ⟨_, _, _, hack, .valid hs he hfull rfl hrel⟩
    · exact ⟨_, _, _, rxAckSeqNum_missed ht ha hv, .missed ha hmiss⟩

theorem rxPacketCheck {m : TxManager} {src : TNodeIndex} (ht : src.toNat < m.maxTxNodes) (a : UInt8) :
    rxPacketCheckAndUpdateSeqNum m src a =
      if a = expectedSeqNum (m.rxSeqNum src) then
        .ok (true, { m with rxSeqNum := Function.update m.rxSeqNum src a })
      else .ok (false, m) := by
  unfold rxPacketCheckAndUpdateSeqNum
  rw [checkIndex, if_pos ht]
  split <;> rfl

end Microbus
