import Microbus.Cover

/-! The packets that a master has queued, over whole runs. -/
namespace Microbus

open Transition

variable {m m' : TxManager} {g : Ledger} {d : TNodeIndex} {given : TNodeIndex → UInt8 → Option Payload}
  {ttl : TimeToLive}

theorem ServedBy.grow (h : ServedBy given m ttl g) (hstart : m'.txSeqNumStart = m.txSeqNumStart)
    (hnext : m'.txSeqNumNext = m.txSeqNumNext) (hstop : m'.txSeqNumEnd = m.txSeqNumEnd)
    (hactive : m'.activeTxNodes = m.activeTxNodes) (htable : m'.maxTxNodes = m.maxTxNodes)
    (halloc : ∀ u, m'.allocatedPacket = some u → u < m'.size ∧ (m'.entry u).inUse = true)
    (hlive : ∀ i, m.Live i → m'.Live i ∧ (m'.entry i).packet = (m.entry i).packet) : ServedBy given m' ttl g := by
  have hc := h.cover.counters
  refine h.congr (h.cover.mono ?_ htable halloc ?_) rfl rfl (by rw [hactive]) htable fun _ => id
  · refine ⟨?_, ?_, ?_, hc.start_le_next, hc.next_le_stop, hc.window_le_255⟩
    · rw [hstart]
      exact hc.start_eq
    · rw [hnext]
      exact hc.next_eq
    · rw [hstop]
      exact hc.stop_eq
  · intro i hi
    obtain ⟨hl, hp⟩ := hlive i hi
    refine ⟨hl, ?_⟩
    rw [hp]
    exact .refl true _

namespace ServedBy

theorem allocate (h : ServedBy given m ttl g) {r : Option Nat} (ha : allocateTxPacket m = .ok (r, m')) :
    ServedBy given m' ttl g := by
  rcases allocateTxPacket_ok ha with ⟨-, rfl⟩ | ⟨i, hfree, hnone, ⟨-, rfl, -⟩ | ⟨-, rfl⟩⟩
  · exact h
  · refine h.grow rfl rfl rfl rfl rfl ?_ ?_
    · intro u hu
      rw [show (m.takeEntry i).allocatedPacket = m.allocatedPacket from rfl, hnone] at hu
      cases hu
    · intro j hj
      have hji : j ≠ i := by
        rintro rfl
        exact Bool.noConfusion (hfree.free.symm.trans hj.inUse)
      have hentry : (m.takeEntry i).entry j = m.entry j := by
        rw [m.entry_takeEntry, if_neg hji]
      exact ⟨⟨hj.lt, by rw [hentry]; exact hj.inUse, hj.notAllocated⟩, by rw [hentry]⟩
  · refine h.grow rfl rfl rfl rfl rfl ?_ ?_
    · intro u hu
      obtain rfl : i = u := Option.some.inj hu
      refine ⟨hfree.lt, ?_⟩
      change ((m.takeEntry i).entry i).inUse = true
      rw [m.entry_takeEntry, if_pos rfl]
    · intro j hj
      refine ⟨(live_allocate hfree hnone j).mpr hj, ?_⟩
      change ((m.takeEntry i).entry j).packet = (m.entry j).packet
      rw [m.entry_takeEntry]
      split
      · rename_i hji
        rw [hji]
      · rfl

theorem write (h : ServedBy given m ttl g) (data : PacketData) :
    ServedBy given (writeAllocatedPacket m data) ttl g := by
  have ht : Touched true m (writeAllocatedPacket m data) := touched_write m data
  refine h.grow ht.start ht.next ht.stop (activeTxNodes_write m data) ht.maxTxNodes ?_ ?_
  · intro u hu
    rw [ht.size, ht.inUse]
    exact h.cover.allocated u (ht.allocated ▸ hu)
  · exact fun i hi => ⟨(ht.live i).mpr hi, by rw [entry_write hi.notAllocated]⟩

/-- A packet to a node that has left keeps its entry. -/
theorem submitLate (h : ServedBy given m ttl g) : ServedBy given { m with allocatedPacket := none } ttl g := by
  refine h.grow rfl rfl rfl rfl rfl (fun u hu => by cases hu) ?_
  exact fun i hi => ⟨⟨hi.lt, hi.inUse, fun hc => by cases hc⟩, rfl⟩

end ServedBy

theorem Counters.submit (c : Counters m g) {i : Nat} {p : Packet} {q : Option NodeQueue}
    (hfull : g.stop d < g.start d + 255) :
    Counters (m.submitEntry i p d q) (g.submit i d) where
  start_eq := c.start_eq
  next_eq := c.next_eq
  stop_eq x := by
    simp only [TxManager.submitEntry, Ledger.submit]
    by_cases hx : x = d
    · subst hx
      rw [Function.update_self, Function.update_self, c.stop_eq, incr_seq]
    · rw [Function.update_of_ne hx, Function.update_of_ne hx, c.stop_eq]
  start_le_next := c.start_le_next
  next_le_stop x := by
    have hle := c.next_le_stop x
    simp only [Ledger.submit]
    by_cases hx : x = d
    · subst hx
      rw [Function.update_self]
      exact Nat.le_succ_of_le hle
    · rw [Function.update_of_ne hx]
      exact hle
  window_le_255 x := by
    have hw := c.window_le_255 x
    simp only [Ledger.submit]
    by_cases hx : x = d
    · subst hx
      rw [Function.update_self]
      exact hfull
    · rw [Function.update_of_ne hx]
      exact hw

def giveNumber (given : TNodeIndex → UInt8 → Option Payload) (d : TNodeIndex) (s : UInt8)
    (payload : Option Payload) :
    TNodeIndex → UInt8 → Option Payload :=
  Function.update given d (Function.update (given d) s payload)

theorem giveNumber_self (d : TNodeIndex) (s : UInt8) (payload : Option Payload) :
    giveNumber given d s payload d s = payload := by
  unfold giveNumber
  rw [Function.update_self, Function.update_self]

theorem giveNumber_of_ne {d x : TNodeIndex} {s t : UInt8} (payload : Option Payload) (h : ¬ (x = d ∧ t = s)) :
    giveNumber given d s payload x t = given x t := by
  unfold giveNumber
  by_cases hx : x = d
  · subst hx
    rw [Function.update_self, Function.update_of_ne fun ht => h ⟨rfl, ht⟩]
  · rw [Function.update_of_ne hx]

theorem CoverInv.submit (h : CoverInv given m g) {i : Nat} {p : Packet} {q : Option NodeQueue}
    (ha : m.allocatedPacket = some i) (htable : d.toNat < m.maxTxNodes)
    (hk : entryKey true { m.entry i with packet := p } = (d, m.txSeqNumEnd d)) :
    CoverInv (giveNumber given d (m.txSeqNumEnd d) (some p.payload)) (m.submitEntry i p d q) (g.submit i d) := by
  have hroom := h.room_of_allocated ha d
  have hlive : ∀ j, (m.submitEntry i p d q).Live j ↔ j = i ∨ m.Live j := live_submit ha (h.allocated i ha)
  refine ⟨h.counters.submit hroom, ?_, fun u hu => (by cases hu), ?_⟩
  · intro x hx
    simp only [Ledger.submit] at hx
    by_cases hxd : x = d
    · rw [hxd]
      exact htable
    · rw [Function.update_of_ne hxd] at hx
      exact h.table x hx
  · intro x a hs he
    by_cases hnew : x = d ∧ a = g.stop d
    · obtain ⟨rfl, rfl⟩ := hnew
      refine ⟨i, (hlive i).mpr (Or.inl rfl), ?_, ?_⟩
      · rw [key_submit, if_pos rfl, hk, h.counters.stop_eq]
      · rw [entry_submit, if_pos rfl, h.counters.stop_eq, giveNumber_self]
    · -- an older packet: its number is not the new one
      have he' : a < g.stop x := by
        simp only [Ledger.submit] at he
        by_cases hxd : x = d
        · subst hxd
          rw [Function.update_self] at he
          have hne : a ≠ g.stop x := fun hc => hnew ⟨rfl, hc⟩
          omega
        · rwa [Function.update_of_ne hxd] at he
      obtain ⟨j, hj⟩ := h.cover x a hs he'
      have hji : j ≠ i := fun hc => hj.live.notAllocated (hc ▸ ha)
      refine ⟨j, (hlive j).mpr (Or.inr hj.live), ?_, ?_⟩
      · rw [key_submit, if_neg hji]
        exact hj.key
      · rw [entry_submit, if_neg hji, giveNumber_of_ne, hj.given]
        rintro ⟨rfl, hseq⟩
        rw [h.counters.stop_eq] at hseq
        have hs' : g.start x ≤ a := hs
        have := Cyclic.eq_of_mod_eq (seq_eq_iff.mp hseq) (by omega) (by omega)
        omega

/-- No packet is allocated, and every window is empty. -/
structure TxManager.TransmitIdle (m : TxManager) : Prop where
  allocated : m.allocatedPacket = none
  empty : ∀ d, m.txSeqNumStart d = m.txSeqNumEnd d
  next : ∀ d, m.txSeqNumNext d = m.txSeqNumStart d
  active : m.activeTxNodes.map NodeQueue.toList = some []

theorem ServedBy.window_empty (h : ServedBy given m ttl g) (hi : m.TransmitIdle) (d : TNodeIndex) :
    ¬ g.start d < g.stop d := by
  obtain ⟨q, hq, -, hmem⟩ := h.queue
  have hactive := hi.active
  rw [hq, Option.map_some, Option.some.injEq] at hactive
  intro hd
  have := (hmem d).mpr hd
  rw [hactive] at this
  exact absurd this List.not_mem_nil

theorem ServedBy.clearBuffers (h : ServedBy given m ttl g) (hi : m.TransmitIdle) :
    ServedBy given (masterTxClearBuffers m) ttl g := by
  have hc := h.cover.counters
  refine h.congr (h.cover.shrink ⟨hc.start_eq, hc.next_eq, hc.stop_eq, hc.start_le_next, hc.next_le_stop,
    hc.window_le_255⟩
    rfl ?_ (fun _ _ hs he => ⟨hs, he⟩) ?_) rfl rfl rfl rfl fun _ => id
  · intro u hu
    rw [show (masterTxClearBuffers m).allocatedPacket = m.allocatedPacket from rfl, hi.allocated] at hu
    cases hu
  · intro x a i hs he _ _
    exact absurd (hs.trans_lt he) (h.window_empty hi x)

/-- The allocated entry is neither found nor removed, and the buffers are cleared only when none
is needed. -/
def KeepsAllocated {mode : ChannelMode} (s : MasterRun) : MasterAction mode → Prop
  | .postProcess => ¬ s.master.tx.txManager.FindsPending ∧ ¬ s.master.RemovesPending
  | .processRx _ _ => ¬ s.master.tx.txManager.FindsPending
  | .processTx _ => ¬ s.master.RemovesPending
  | .resetTxCredits => s.master.tx.txManager.TransmitIdle
  | _ => True

/-- A test that `KeepsAllocated` passes: nothing is allocated when a slot runs. -/
def MasterRun.allocatesNone {mode : ChannelMode} (s : MasterRun) : MasterAction mode → Bool
  | .postProcess | .processRx _ _ | .processTx _ => s.master.tx.txManager.allocatedPacket.isNone
  | .resetTxCredits => false
  | _ => true

theorem keepsAllocated_of_allocatesNone {mode : ChannelMode} {s : MasterRun} {a : MasterAction mode}
    (h : s.allocatesNone a = true) : KeepsAllocated s a := by
  have hfind : s.master.tx.txManager.allocatedPacket.isNone = true → ¬ s.master.tx.txManager.FindsPending := by
    rintro hnone ⟨u, d, q, hu, -⟩
    rw [hu] at hnone
    cases hnone
  have hremove : s.master.tx.txManager.allocatedPacket.isNone = true → ¬ s.master.RemovesPending := by
    rintro hnone ⟨u, hu, -⟩
    rw [hu] at hnone
    cases hnone
  cases a with
  | postProcess => exact ⟨hfind h, hremove h⟩
  | processRx frame crcError => exact hfind h
  | processTx stray => exact hremove h
  | resetTxCredits => cases h
  | _ => exact trivial

def MasterRun.Served (s : MasterRun) : Prop := s.master.Tx (Microbus.Served s.given)

theorem Served.forget (h : Served given m ttl) :
    Served (fun d => if ttl d = 0 then fun _ => none else given d) m ttl := by
  obtain ⟨g, h⟩ := h
  refine ⟨g, ⟨h.cover.counters, h.cover.table, h.cover.allocated, ?_⟩, h.queue, h.table, h.there⟩
  intro d a hs he
  obtain ⟨i, hi⟩ := h.cover.cover d a hs he
  refine ⟨i, hi.live, hi.key, ?_⟩
  rw [if_neg (h.there d (hs.trans_lt he))]
  exact hi.given

theorem MasterRun.Served.step {mode : ChannelMode} {s s' : MasterRun} {a : MasterAction mode} (h : s.Served)
    (hguard : KeepsAllocated s a) (hs : s.step a = .ok s') : s'.Served := by
  have hkept : KeptBySlots True (Microbus.Served s.given) := keptBySlots_served
  cases a with
  | preProcess frame crcError stray =>
      obtain ⟨⟨m, f⟩, hpre, hs⟩ := bind_eq_ok.mp hs
      cases hs
      have hreceive : (s.master.receive frame).Tx (Microbus.Served s.given) := h
      exact hkept.preProcess hreceive hpre
  | postProcess =>
      obtain ⟨⟨k, m⟩, hpost, hs⟩ := bind_eq_ok.mp hs
      cases hs
      exact Microbus.Served.forget (hkept.postProcess h (fun _ => hguard.1) (fun _ => hguard.2) hpost)
  | processRx frame crcError =>
      obtain ⟨⟨k, m⟩, hrx, hs⟩ := bind_eq_ok.mp hs
      cases hs
      have hreceive : (s.master.receive frame).Tx (Microbus.Served s.given) := h
      exact hkept.processRx hreceive (fun _ => hguard) hrx
  | processTx stray =>
      obtain ⟨⟨k, m, f⟩, htx, hs⟩ := bind_eq_ok.mp hs
      cases hs
      exact Microbus.Served.forget (hkept.processTx h (fun _ => hguard) htx)
  | updateTimeUs usIncr =>
      cases hs
      exact hkept.updateTimeUs h usIncr
  | allocate =>
      obtain ⟨⟨r, m⟩, halloc, hs⟩ := bind_eq_ok.mp hs
      cases hs
      obtain ⟨⟨r', tm⟩, hone, halloc⟩ := bind_eq_ok.mp halloc
      cases halloc
      obtain ⟨g, h⟩ := h
      exact ⟨g, h.allocate hone⟩
  | write data =>
      cases hs
      obtain ⟨g, h⟩ := h
      exact ⟨g, h.write data⟩
  | submit dst numBytes =>
      obtain ⟨m, hsubmit, hs⟩ := bind_eq_ok.mp hs
      obtain ⟨-, -, tm, hm, rfl⟩ := masterSubmit_ok hsubmit
      obtain ⟨g, h⟩ := h
      rcases submitAllocatedTxPacket_ok hm with ⟨-, hlate, rfl⟩ | ⟨i, q, ha, hpos, -, -, htable, hadd, rfl⟩
      · rw [if_pos hlate] at hs
        cases hs
        exact ⟨g, h.submitLate⟩
      · rw [if_neg (hpos rfl).ne'] at hs
        cases hs
        refine ⟨g.submit i dst, ?_, ?_, h.table, ?_⟩
        · have hk : entryKey true { s.master.tx.txManager.entry i with
              packet := fillHeader (s.master.tx.txManager.entry i).packet true masterNodeId dst .masterData numBytes
                (s.master.tx.txManager.txSeqNumEnd dst) } = (dst, s.master.tx.txManager.txSeqNumEnd dst) :=
            key_fillHeader validDst_master
          have hcover := h.cover.submit (q := q) ha htable hk
          rw [payload_fillHeader] at hcover
          rw [ha]
          exact hcover
        · exact h.queue.submit h.cover.counters (h.cover.room_of_allocated ha dst) hadd
        · intro x hx
          simp only [Ledger.submit] at hx
          by_cases hxd : x = dst
          · subst hxd
            exact (hpos rfl).ne'
          · rw [Function.update_of_ne hxd] at hx
            exact h.there x hx
  | peek =>
      obtain ⟨⟨r, m⟩, hpeek, hs⟩ := bind_eq_ok.mp hs
      cases hs
      obtain ⟨rpm, rfl, -⟩ := masterPeek_ok hpeek
      exact h
  | pop =>
      obtain ⟨m, hpop, hs⟩ := bind_eq_ok.mp hs
      cases hs
      obtain ⟨rpm, rfl, -⟩ := masterPop_ok hpop
      exact h
  | getConnectedNodes =>
      obtain ⟨⟨m, bits⟩, hget, hs⟩ := bind_eq_ok.mp hs
      cases hs
      obtain rfl := getConnectedNodesBitField_ok hget
      refine hkept.quiet h (.refl _) ?_
      intro k hk
      change Function.update s.master.masterNodeTimeToLive 0 1 k ≠ 0
      by_cases hk0 : k = 0
      · subst hk0
        rw [Function.update_self]
        exact Nat.one_ne_zero
      · rwa [Function.update_of_ne hk0]
  | resetTxCredits =>
      cases hs
      obtain ⟨g, h⟩ := h
      exact ⟨g, h.clearBuffers hguard⟩

theorem served_init {numTx maxTx maxRx : UInt8} {entries : Nat → PacketEntry} {master : Master}
    (hi : masterInit numTx maxTx entries maxRx = .ok master) (given : TNodeIndex → UInt8 → Option Payload) :
    master.Tx (Served given) := by
  obtain ⟨rx, -, hi⟩ := bind_eq_ok.mp hi
  cases hi
  have hempty : ∀ d, ¬ Ledger.zero.start d < Ledger.zero.stop d := fun _ => Nat.lt_irrefl 0
  refine ⟨Ledger.zero, ⟨?_, ?_, ?_, ?_⟩, ?_, rfl, fun d hd => absurd hd (hempty d)⟩
  · exact ⟨fun _ => rfl, fun _ => rfl, fun _ => rfl, fun _ => Nat.le_refl _, fun _ => Nat.le_refl _, fun _ =>
      Nat.zero_le _⟩
  · exact fun d hd => absurd hd (hempty d)
  · intro u hu
    cases hu
  · exact fun d a hs he => absurd (hs.trans_lt he) (hempty d)
  · refine ⟨NodeQueue.empty, rfl, List.nodup_nil, ?_⟩
    exact fun d => ⟨fun hc => absurd hc List.not_mem_nil, fun hd => absurd hd (hempty d)⟩

theorem served_of_reachable {cfg : MasterConfig} {s : MasterRun}
    (h : (masterSystem cfg).ReachableWhen KeepsAllocated s) : s.Served := by
  refine System.ReachableWhen.invariant (P := MasterRun.Served) h ?_ ?_
  · rintro s ⟨entries, hinit, -, -⟩
    exact served_init hinit s.given
  · intro s a s' hserved hguard hs
    exact hserved.step hguard hs

end Microbus
