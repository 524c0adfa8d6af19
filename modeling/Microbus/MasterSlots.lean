import Microbus.MasterRun

/-! The transmit manager of a master through the slots: what a slot does to the queued packets
is a series of acknowledgements, of choices and of removals. -/
namespace Microbus

open Transition

/-- The number of steps of `INCR_SEQUENCE_NUM` from one counter to another. -/
def cyclicLength (start stop : UInt8) : Nat := (stop.toNat + 255 - start.toNat) % 255

/-- A packet of the window of `d` carries number `s`. -/
def TxManager.InWindow (m : TxManager) (d : TNodeIndex) (s : UInt8) : Prop :=
  s ≠ nullSequenceNum ∧ cyclicLength (m.txSeqNumStart d) s < cyclicLength (m.txSeqNumStart d) (m.txSeqNumEnd d)

instance (m : TxManager) (d : TNodeIndex) (s : UInt8) : Decidable (m.InWindow d s) := by
  unfold TxManager.InWindow
  infer_instance

theorem cyclicLength_seq {a b : Nat} (h : a ≤ b) : cyclicLength (seq a) (seq b) = (b - a) % 255 := by
  unfold cyclicLength
  rw [seq_toNat, seq_toNat]
  omega

theorem cyclicLength_lt (start stop : UInt8) : cyclicLength start stop < 255 := Nat.mod_lt _ (by decide)

theorem eq_seq_cyclicLength {start q : UInt8} (hs : start ≠ nullSequenceNum) (hq : q ≠ nullSequenceNum) :
    q = seq (start.toNat + cyclicLength start q) := by
  have hs' := toNat_lt_255 hs
  have hq' := toNat_lt_255 hq
  rw [← UInt8.toNat_inj, seq_toNat]
  unfold cyclicLength
  omega

/-- The numbers of a window are those of its positions, unless the window holds all 255 numbers. -/
theorem Counters.inWindow_iff {m : TxManager} {g : Ledger} (c : Counters m g) (d : TNodeIndex) {s : UInt8} :
    m.InWindow d s ↔ g.stop d < g.start d + 255 ∧ ∃ k, g.start d ≤ k ∧ k < g.stop d ∧ s = seq k := by
  have hle := c.start_le_stop d
  have hlen := c.window_le_255 d
  unfold TxManager.InWindow
  rw [c.start_eq, c.stop_eq, cyclicLength_seq hle]
  constructor
  · rintro ⟨hs, hlt⟩
    have hsmall := toNat_lt_255 hs
    unfold cyclicLength at hlt
    rw [seq_toNat] at hlt
    refine ⟨by omega, g.start d + (s.toNat + 255 - g.start d % 255) % 255, by omega, by omega, ?_⟩
    rw [← UInt8.toNat_inj, seq_toNat]
    omega
  · rintro ⟨hfull, k, hak, hkb, rfl⟩
    refine ⟨seq_ne_null k, ?_⟩
    rw [cyclicLength_seq hak]
    omega

/-- The cursor of the queue, the numbers received and the schedule of a frame change, and
nothing else. -/
structure TxManager.Quiet (m m' : TxManager) : Prop where
  touched : Touched true m m'
  pauseCount : m'.txSeqNumPauseCount = m.txSeqNumPauseCount
  message : ∀ i, (m.entry i).packet.SameMessage true (m'.entry i).packet
  active : m'.activeTxNodes.map NodeQueue.toList = m.activeTxNodes.map NodeQueue.toList

theorem Packet.SameMessage.refl (isMaster : Bool) (p : Packet) : p.SameMessage isMaster p :=
  ⟨rfl, rfl, rfl, rfl, rfl, rfl⟩

theorem Packet.SameMessage.payload {isMaster : Bool} {p p' : Packet} (h : p.SameMessage isMaster p') :
    p'.payload = p.payload := by
  unfold Packet.payload Packet.getPacketDataSize
  rw [h.dataSize1, h.dataSize2, h.data]

theorem Packet.SameMessage.key {e e' : PacketEntry} (h : e.packet.SameMessage true e'.packet) :
    entryKey true e' = entryKey true e := Prod.ext h.station h.txSeqNum

theorem Packet.SameMessage.key_with {e : PacketEntry} {p : Packet} (h : e.packet.SameMessage true p) :
    entryKey true { e with packet := p } = entryKey true e := Prod.ext h.station h.txSeqNum

namespace TxManager

theorem Quiet.refl (m : TxManager) : m.Quiet m := ⟨.refl true m, rfl, fun _ => .refl true _, rfl⟩

theorem Quiet.withQueue (m : TxManager) {queue : Option NodeQueue}
    (h : queue.map NodeQueue.toList = m.activeTxNodes.map NodeQueue.toList) :
    m.Quiet { m with activeTxNodes := queue } :=
  ⟨⟨rfl, rfl, rfl, rfl, rfl, rfl, fun _ => rfl, fun _ => rfl⟩, rfl, fun _ => .refl true _, h⟩

theorem Quiet.withRxSeqNum (m : TxManager) (rxSeqNum : TNodeIndex → UInt8) : m.Quiet (m.withRxSeqNum rxSeqNum) :=
  ⟨⟨rfl, rfl, rfl, rfl, rfl, rfl, fun _ => rfl, fun _ => rfl⟩, rfl, fun _ => .refl true _, rfl⟩

theorem Quiet.setPacket (m : TxManager) {i : Nat} {p : Packet} (h : (m.entry i).packet.SameMessage true p) :
    m.Quiet { m with packetStore := m.packetStore.setPacket i p } where
  touched := .setPacket m i p h.key_with
  pauseCount := rfl
  message j := by
    change (m.entry j).packet.SameMessage true ((m.packetStore.setPacket i p).entries j).packet
    rw [entry_setPacket]
    by_cases hj : j = i
    · rw [if_pos hj, hj]
      exact h
    · rw [if_neg hj]
      exact .refl true _
  active := rfl

end TxManager

/-- Packets stay in their entries, and the allocated one stays allocated. -/
structure SamePackets (m m' : TxManager) : Prop where
  allocated : m'.allocatedPacket = m.allocatedPacket
  maxTxNodes : m'.maxTxNodes = m.maxTxNodes
  size : m'.size = m.size
  packet : ∀ i, (m'.entry i).packet = (m.entry i).packet
  inUse : ∀ i, (m'.entry i).inUse = true → (m.entry i).inUse = true

namespace SamePackets

variable {m m' m'' : TxManager}

theorem refl (m : TxManager) : SamePackets m m := ⟨rfl, rfl, rfl, fun _ => rfl, fun _ => id⟩

theorem trans (h : SamePackets m m') (h' : SamePackets m' m'') : SamePackets m m'' :=
  ⟨h'.allocated.trans h.allocated, h'.maxTxNodes.trans h.maxTxNodes, h'.size.trans h.size,
    fun i => (h'.packet i).trans (h.packet i), fun i hi => h.inUse i (h'.inUse i hi)⟩

theorem of_released {freed : Nat → Prop} (h : m.packetStore.Released m'.packetStore freed)
    (halloc : m'.allocatedPacket = m.allocatedPacket) (htable : m'.maxTxNodes = m.maxTxNodes) : SamePackets m m' where
  allocated := halloc
  maxTxNodes := htable
  size := by
    unfold TxManager.size
    rw [h.maxEntries]
  packet := h.packet
  inUse i hi := ((h.inUse i).mp hi).1

end SamePackets

theorem freeAckedPackets_packets {m m' : TxManager} {d : TNodeIndex} {newStart : UInt8} {isMaster : Bool}
    {fuel count n : Nat} {seqNum : UInt8} (h : freeAckedPackets d newStart isMaster fuel seqNum count m = .ok (n, m')) :
    SamePackets m m' := by
  induction fuel generalizing m seqNum count with
  | zero => cases h
  | succ fuel ih =>
      unfold freeAckedPackets at h
      split at h
      · obtain ⟨store, hfree, h⟩ := bind_eq_ok.mp h
        dsimp only at h
        obtain ⟨i, hfind, -⟩ := bind_eq_ok.mp hfree
        obtain ⟨s', hfree', hrel⟩ := freePacket_ok hfind
        rw [hfree] at hfree'
        cases hfree'
        have hrest := ih h
        have hone : SamePackets m { m with packetStore := store } := .of_released hrel rfl rfl
        exact hone.trans ⟨hrest.allocated, hrest.maxTxNodes, hrest.size, hrest.packet, hrest.inUse⟩
      · cases h
        exact .refl _

theorem rxAckSeqNum_packets {m m' : TxManager} {d : TNodeIndex} {a : UInt8} {isMaster : Bool} {n : Nat}
    (h : rxAckSeqNum m d a isMaster = .ok (n, m')) : SamePackets m m' := by
  unfold rxAckSeqNum at h
  split at h
  · cases h
    exact .refl m
  · obtain ⟨_, -, h⟩ := bind_eq_ok.mp h
    dsimp only at h
    split at h
    · obtain ⟨⟨n₁, m₁⟩, hloop, h⟩ := bind_eq_ok.mp h
      have hsame := freeAckedPackets_packets hloop
      dsimp only at h
      split at h
      · split at h
        · cases h
        · obtain ⟨queue', -, h⟩ := bind_eq_ok.mp h
          cases h
          exact ⟨hsame.allocated, hsame.maxTxNodes, hsame.size, hsame.packet, hsame.inUse⟩
      · cases h
        exact ⟨hsame.allocated, hsame.maxTxNodes, hsame.size, hsame.packet, hsame.inUse⟩
    · split at h
      · split at h
        · cases h
          exact ⟨rfl, rfl, rfl, fun _ => rfl, fun _ => id⟩
        · cases h
          exact ⟨rfl, rfl, rfl, fun _ => rfl, fun _ => id⟩
      · cases h
        exact .refl m

theorem masterGetNext_packets {m m' : TxManager} {burstSize : Nat} {r : Option Nat}
    (h : masterGetNextTxDataPacket m burstSize = .ok (r, m')) : SamePackets m m' := by
  obtain ⟨queue, -, hround⟩ := masterGetNextTxDataPacket_ok h
  have hstore := hround.sameStore
  exact ⟨hstore.allocated, hround.maxTxNodes, hstore.size, fun i =>
    by rw [hstore.entry], fun i hi => by rwa [hstore.entry] at hi⟩

theorem masterTxManagerRemoveNode_packets {m m' : TxManager} {d : TNodeIndex} {n : Nat}
    (h : masterTxManagerRemoveNode m d = .ok (n, m')) : SamePackets m m' := by
  obtain ⟨-, hm, hrel⟩ := masterTxManagerRemoveNode_ok h
  exact .of_released hrel (by rw [hm]) (by rw [hm])

/-- The search for a packet of a window returns the entry that is allocated: its header is left
over from an earlier packet. -/
def TxManager.FindsPending (m : TxManager) : Prop :=
  ∃ u d s, m.allocatedPacket = some u ∧ m.InWindow d s ∧ findPacketEntry m.packetStore d s true = .ok u

/-- The header left over in the allocated entry names a node that is about to be removed. -/
def Master.RemovesPending (master : Master) : Prop :=
  ∃ u, master.tx.txManager.allocatedPacket = some u ∧
    firstNodeId ≤ (master.tx.txManager.entry u).packet.dstNodeId.toNat ∧
    (master.tx.txManager.entry u).packet.dstNodeId.toNat < maxNodes ∧
    master.masterNodeTimeToLive (master.tx.txManager.entry u).packet.dstNodeId = removeNodeTTL

/-- The search depends on the counters, the headers and the flags only. -/
theorem TxManager.Quiet.findsPending {m m' : TxManager} (h : m.Quiet m') (hf : m'.FindsPending) : m.FindsPending := by
  obtain ⟨u, d, s, hu, hw, hfind⟩ := hf
  refine ⟨u, d, s, h.touched.allocated ▸ hu, ?_, ?_⟩
  · unfold TxManager.InWindow at hw ⊢
    rwa [h.touched.start, h.touched.stop] at hw
  · rw [← hfind]
    have hmatch : ∀ i, (m'.packetStore.entries i).isMatch d s true = (m.packetStore.entries i).isMatch d s true := by
      intro i
      have hkey := h.touched.key i
      have huse := h.touched.inUse i
      unfold entryKey at hkey
      unfold TxManager.entry at hkey huse
      simp only [if_true, Prod.mk.injEq] at hkey
      unfold PacketEntry.isMatch
      rw [huse, hkey.1, hkey.2]
    have hsize : m'.packetStore.maxEntries.toNat = m.packetStore.maxEntries.toNat := h.touched.size
    unfold findPacketEntry
    simp only [hmatch, hsize]

section RemovesPending

variable {master master' : Master}

/-- Nothing but a timer tick makes a node due for removal. -/
theorem Master.RemovesPending.of_later
    (halloc : master'.tx.txManager.allocatedPacket = master.tx.txManager.allocatedPacket)
    (hdst : ∀ i, (master'.tx.txManager.entry i).packet.dstNodeId = (master.tx.txManager.entry i).packet.dstNodeId)
    (httl : ∀ k, master'.masterNodeTimeToLive k = removeNodeTTL → master.masterNodeTimeToLive k = removeNodeTTL)
    (h : master'.RemovesPending) : master.RemovesPending := by
  obtain ⟨u, hu, hfirst, hlast, hdue⟩ := h
  rw [hdst u] at hfirst hlast hdue
  exact ⟨u, halloc ▸ hu, hfirst, hlast, httl _ hdue⟩

end RemovesPending

/-- A property of the transmit manager and the time to live that the slots keep: if `guarded`, then
as long as the allocated entry is neither found nor removed. -/
structure KeptBySlots (guarded : Prop) (P : TxManager → TimeToLive → Prop) : Prop where
  quiet : ∀ {m m' ttl ttl'}, P m ttl → m.Quiet m' → (∀ k, ttl k ≠ 0 → ttl' k ≠ 0) → P m' ttl'
  ack : ∀ {m m' ttl d a n}, P m ttl → (guarded → ¬ m.FindsPending) →
    rxAckSeqNum m d a true = .ok (n, m') → P m' ttl
  choose : ∀ {m m' ttl r}, P m ttl → masterGetNextTxDataPacket m masterBurstSize = .ok (r, m') → P m' ttl
  remove : ∀ {m m' ttl d n}, P m ttl →
    (guarded → ∀ u, m.allocatedPacket = some u → (m.entry u).packet.dstNodeId ≠ d) →
    masterTxManagerRemoveNode m d = .ok (n, m') → P m' (Function.update ttl d 0)

def Master.Tx (P : TxManager → TimeToLive → Prop) (master : Master) : Prop :=
  P master.tx.txManager master.masterNodeTimeToLive

theorem Heard.ne_zero {ttl ttl' : TimeToLive} {src : TNodeIndex} (h : Heard ttl ttl' src) (k : TNodeIndex)
    (hk : ttl k ≠ 0) : ttl' k ≠ 0 := by
  rcases h with rfl | ⟨-, rfl⟩
  · exact hk
  · by_cases hsrc : k = src
    · subst hsrc
      rw [Function.update_self]
      decide
    · rwa [Function.update_of_ne hsrc]

theorem Heard.removeNodeTTL {ttl ttl' : TimeToLive} {src : TNodeIndex} (h : Heard ttl ttl' src) (k : TNodeIndex)
    (hk : ttl' k = removeNodeTTL) : ttl k = removeNodeTTL := by
  rcases h with rfl | ⟨-, rfl⟩
  · exact hk
  · by_cases hsrc : k = src
    · subst hsrc
      rw [Function.update_self] at hk
      exact absurd hk (by decide)
    · rwa [Function.update_of_ne hsrc] at hk

theorem registered_ttl {nw nw' : NetworkManager} {ttl ttl' : TimeToLive} {uniqueId : UInt64}
    (h : networkManagerRegisterNewNode nw ttl uniqueId = .ok (nw', ttl')) :
    (∀ k, ttl k ≠ 0 → ttl' k ≠ 0) ∧ ∀ k, ttl' k = removeNodeTTL → ttl k = removeNodeTTL := by
  rcases networkManagerRegisterNewNode_ok h with ⟨-, rfl⟩ | ⟨_, -, -, -, -, -, rfl⟩
  · exact ⟨fun _ => id, fun _ => id⟩
  · constructor
    · intro k hk
      by_cases hid : k = getNextFreeNodeId ttl
      · subst hid
        rw [Function.update_self]
        decide
      · rwa [Function.update_of_ne hid]
    · intro k hk
      by_cases hid : k = getNextFreeNodeId ttl
      · subst hid
        rw [Function.update_self] at hk
        exact absurd hk (by decide)
      · rwa [Function.update_of_ne hid] at hk

/-- What a part of a slot does to the transmit manager. -/
structure TxPart (master master' : Master) : Prop where
  allocated : master'.tx.txManager.allocatedPacket = master.tx.txManager.allocatedPacket
  message : ∀ i, (master.tx.txManager.entry i).packet.SameMessage true (master'.tx.txManager.entry i).packet
  ttl : ∀ k, master'.masterNodeTimeToLive k = removeNodeTTL → master.masterNodeTimeToLive k = removeNodeTTL

namespace TxPart

variable {master master' master'' : Master}

theorem trans (h : TxPart master master') (h' : TxPart master' master'') : TxPart master master'' :=
  ⟨h'.allocated.trans h.allocated, fun i => (h.message i).trans (h'.message i), fun k hk => h.ttl k (h'.ttl k hk)⟩

theorem of_quiet (h : master.tx.txManager.Quiet master'.tx.txManager)
    (httl : ∀ k, master'.masterNodeTimeToLive k = removeNodeTTL → master.masterNodeTimeToLive k = removeNodeTTL) :
    TxPart master master' := ⟨h.touched.allocated, h.message, httl⟩

theorem of_samePackets (h : SamePackets master.tx.txManager master'.tx.txManager)
    (httl : ∀ k, master'.masterNodeTimeToLive k = removeNodeTTL → master.masterNodeTimeToLive k = removeNodeTTL) :
    TxPart master master' where
  allocated := h.allocated
  message i := by
    rw [h.packet]
    exact .refl true _
  ttl := httl

theorem removesPending (h : TxPart master master') (hp : master'.RemovesPending) : master.RemovesPending :=
  Master.RemovesPending.of_later h.allocated (fun i => (h.message i).station) h.ttl hp

end TxPart

section Parts

variable {master master' : Master}

theorem masterUpdateSchedule_quiet (h : masterUpdateSchedule master = .ok master') :
    master.tx.txManager.Quiet master'.tx.txManager ∧ master'.masterNodeTimeToLive = master.masterNodeTimeToLive := by
  obtain ⟨_, _, _, queues, hsame, -, rfl⟩ := masterUpdateSchedule_ok h
  exact ⟨.withQueue _ hsame.activeTxNodes, rfl⟩

theorem masterQuickRx_quiet {crcError : Bool} (h : masterQuickRx master crcError = .ok master') :
    master.tx.txManager.Quiet master'.tx.txManager ∧
      (∀ k, master.masterNodeTimeToLive k ≠ 0 → master'.masterNodeTimeToLive k ≠ 0) ∧
      ∀ k, master'.masterNodeTimeToLive k = removeNodeTTL → master.masterNodeTimeToLive k = removeNodeTTL := by
  obtain ⟨rx, nw, ttl, m, rfl, -, hheard, hresult⟩ := masterQuickRx_ok h
  refine ⟨?_, hheard.ne_zero, hheard.removeNodeTTL⟩
  cases hresult with
  | dropped _ => exact .refl _
  | kept _ _ _ => exact .refl _
  | inOrder _ _ _ _ => exact .withRxSeqNum _ _

theorem masterQuickTx_quiet (master : Master) (stray : TNodeIndex → UInt8) :
    master.tx.txManager.Quiet (masterQuickTx master stray).tx.txManager := by
  obtain ⟨tx, heq, htx⟩ := masterQuickTx_eq master stray
  rw [heq]
  rcases htx with htx | ⟨i, p, hsame, htx⟩
  · change master.tx.txManager.Quiet tx.txManager
    rw [htx]
    exact .refl _
  · change master.tx.txManager.Quiet tx.txManager
    rw [htx]
    exact .setPacket _ hsame

/-- The long part of reception takes at most one acknowledgement. -/
theorem masterRx_part {k : Nat} (h : masterRx master = .ok (k, master')) :
    (master'.tx.txManager = master.tx.txManager ∨
      ∃ d a n, rxAckSeqNum master.tx.txManager d a true = .ok (n, master'.tx.txManager)) ∧
      (∀ k, master.masterNodeTimeToLive k ≠ 0 → master'.masterNodeTimeToLive k ≠ 0) ∧
      ∀ k, master'.masterNodeTimeToLive k = removeNodeTTL → master.masterNodeTimeToLive k = removeNodeTTL := by
  rcases masterRx_ok h with ⟨-, rfl⟩ | ⟨_, _, _, _, _, _, _, -, -, rfl, hresult⟩
  · exact ⟨Or.inl rfl, fun _ => id, fun _ => id⟩
  · cases hresult with
    | ignored _ => exact ⟨Or.inl rfl, fun _ => id, fun _ => id⟩
    | acked _ hack => exact ⟨Or.inr ⟨_, _, _, hack⟩, fun _ => id, fun _ => id⟩
    | stored _ _ hack _ _ => exact ⟨Or.inr ⟨_, _, _, hack⟩, fun _ => id, fun _ => id⟩
    | registered _ hrequest =>
        unfold rxNewNodePacketRequest at hrequest
        obtain ⟨_, -, hrequest⟩ := bind_eq_ok.mp hrequest
        obtain ⟨uniqueId, -, hregister⟩ := bind_eq_ok.mp hrequest
        obtain ⟨hup, hdue⟩ := registered_ttl hregister
        exact ⟨Or.inl rfl, hup, hdue⟩

theorem masterTx_part (h : masterTx master = .ok master') :
    master'.masterNodeTimeToLive = master.masterNodeTimeToLive ∧
      ((master'.tx.txManager = master.tx.txManager ∧ master'.tx.chosen = none) ∨
        masterGetNextTxDataPacket master.tx.txManager masterBurstSize = .ok
          (master'.tx.chosen, master'.tx.txManager)) := by
  obtain ⟨tx, rfl, htx⟩ := masterTx_ok h
  exact ⟨rfl, htx⟩

namespace TxPart

theorem updateSchedule (h : masterUpdateSchedule master = .ok master') : TxPart master master' := by
  obtain ⟨hquiet, httl⟩ := masterUpdateSchedule_quiet h
  exact of_quiet hquiet fun k hk => by rwa [httl] at hk

theorem quickTx (master : Master) (stray : TNodeIndex → UInt8) : TxPart master (masterQuickTx master stray) :=
  of_quiet (masterQuickTx_quiet master stray) fun _ => id

theorem rx {k : Nat} (h : masterRx master = .ok (k, master')) : TxPart master master' := by
  obtain ⟨heq | ⟨d, a, n, hack⟩, -, hdue⟩ := masterRx_part h
  · exact of_samePackets (heq ▸ .refl _) hdue
  · exact of_samePackets (rxAckSeqNum_packets hack) hdue

theorem tx (h : masterTx master = .ok master') : TxPart master master' := by
  obtain ⟨httl, ⟨heq, -⟩ | hget⟩ := masterTx_part h
  · exact of_samePackets (heq ▸ .refl _) fun k hk => by rwa [httl] at hk
  · exact of_samePackets (masterGetNext_packets hget) fun k hk => by rwa [httl] at hk

theorem removeIfTimedOut {d : TNodeIndex} {k : Nat} (h : masterRemoveIfTimedOut master d = .ok (k, master')) :
    TxPart master master' := by
  rcases masterRemoveIfTimedOut_ok h with ⟨-, rfl⟩ | ⟨_, _, _, _, _, -, -, hremove, -, rfl⟩
  · exact of_samePackets (.refl _) fun _ => id
  · refine of_samePackets (masterTxManagerRemoveNode_packets hremove) ?_
    intro k hk
    by_cases hkd : k = d
    · subst hkd
      change Function.update master.masterNodeTimeToLive k 0 k = removeNodeTTL at hk
      rw [Function.update_self] at hk
      exact absurd hk (by decide)
    · change Function.update master.masterNodeTimeToLive d 0 k = removeNodeTTL at hk
      rwa [Function.update_of_ne hkd] at hk

theorem removeAny {k : Nat} (h : masterRemoveAnyTimeoutNodes master = .ok (k, master')) : TxPart master master' :=
  masterRemoveAnyTimeoutNodes_induction (P := TxPart master)
    (fun _ _ _ _ _ _ hpart hone => hpart.trans (removeIfTimedOut hone)) (of_samePackets (.refl _) fun _ => id) h

end TxPart

namespace KeptBySlots

variable {guarded : Prop} {P : TxManager → TimeToLive → Prop}

theorem updateSchedule (hP : KeptBySlots guarded P) (h : master.Tx P) (hs : masterUpdateSchedule master = .ok master') :
    master'.Tx P := by
  obtain ⟨hquiet, httl⟩ := masterUpdateSchedule_quiet hs
  exact hP.quiet h hquiet fun k hk => by rwa [httl]

theorem quickRx (hP : KeptBySlots guarded P) (h : master.Tx P) {crcError : Bool}
    (hs : masterQuickRx master crcError = .ok master') :
    master'.Tx P := by
  obtain ⟨hquiet, hup, -⟩ := masterQuickRx_quiet hs
  exact hP.quiet h hquiet hup

theorem quickTx (hP : KeptBySlots guarded P) (h : master.Tx P) (stray : TNodeIndex → UInt8) :
    (masterQuickTx master stray).Tx P :=
  hP.quiet h (masterQuickTx_quiet master stray) fun _ => id

theorem rx (hP : KeptBySlots guarded P) (h : master.Tx P)
    (hfind : guarded → ¬ master.tx.txManager.FindsPending) {k : Nat}
    (hs : masterRx master = .ok (k, master')) : master'.Tx P := by
  obtain ⟨heq | ⟨d, a, n, hack⟩, hup, -⟩ := masterRx_part hs
  · exact hP.quiet h (heq ▸ .refl _) hup
  · exact hP.quiet (hP.ack h hfind hack) (.refl _) hup

theorem tx (hP : KeptBySlots guarded P) (h : master.Tx P) (hs : masterTx master = .ok master') : master'.Tx P := by
  obtain ⟨httl, ⟨heq, -⟩ | hget⟩ := masterTx_part hs
  · exact hP.quiet h (heq ▸ .refl _) fun k hk => by rwa [httl]
  · have hchosen := hP.choose h hget
    rw [← httl] at hchosen
    exact hchosen

theorem removeAny (hP : KeptBySlots guarded P) (h : master.Tx P)
    (hremove : guarded → ¬ master.RemovesPending) {k : Nat}
    (hs : masterRemoveAnyTimeoutNodes master = .ok (k, master')) : master'.Tx P := by
  refine (masterRemoveAnyTimeoutNodes_induction
    (P := fun master => master.Tx P ∧ (guarded → ¬ master.RemovesPending)) ?_ ⟨h, hremove⟩ hs).1
  intro d hfirst hlast master k master' h hone
  refine ⟨?_, fun hg hc => h.2 hg ((TxPart.removeIfTimedOut hone).removesPending hc)⟩
  rcases masterRemoveIfTimedOut_ok hone with ⟨-, rfl⟩ | ⟨_, _, _, _, _, hdue, -, hnode, -, rfl⟩
  · exact h.1
  · refine hP.remove h.1 ?_ hnode
    rintro hg u hu rfl
    exact h.2 hg ⟨u, hu, hfirst, hlast, hdue⟩

theorem updateTimeUs (hP : KeptBySlots guarded P) (h : master.Tx P) (usIncr : UInt32) :
    (masterUpdateTimeUs master usIncr).Tx P := by
  obtain ⟨us, ttl, heq, httl⟩ := masterUpdateTimeUs_eq master usIncr
  rw [heq]
  refine hP.quiet h (.refl _) ?_
  intro k hk
  rcases httl with rfl | httl
  · exact hk
  · change ttl k ≠ 0
    rw [httl]
    split
    · exact fun hc => hk ((decrementTimeToLive_zero _).mp hc)
    · exact hk

theorem preProcess (hP : KeptBySlots guarded P) (h : master.Tx P) {crcError : Bool} {stray : TNodeIndex → UInt8}
    {frame : Option Packet} (hs : masterDualChannelPipelinedPreProcess master crcError stray = .ok (master', frame)) :
    master'.Tx P := by
  obtain ⟨m₁, m₂, h₁, h₂, rfl⟩ := preProcess_ok hs
  exact hP.quickTx (hP.quickRx (hP.updateSchedule h h₁) h₂) stray

theorem postProcess (hP : KeptBySlots guarded P) (h : master.Tx P)
    (hfind : guarded → ¬ master.tx.txManager.FindsPending) (hremove : guarded → ¬ master.RemovesPending) {k : Nat}
    (hs : masterDualChannelPipelinedPostProcess master = .ok (k, master')) : master'.Tx P := by
  obtain ⟨m₁, m₂, k₁, k₂, h₁, h₂, h₃⟩ := postProcess_ok hs
  have hpart := (TxPart.rx h₁).trans (TxPart.tx h₂)
  exact hP.removeAny (hP.tx (hP.rx h hfind h₁) h₂) (fun hg hc => hremove hg (hpart.removesPending hc)) h₃

theorem processRx (hP : KeptBySlots guarded P) (h : master.Tx P)
    (hfind : guarded → ¬ master.tx.txManager.FindsPending) {crcError : Bool}
    {k : Nat} (hs : masterNoDelaySingleChannelProcessRx master crcError = .ok (k, master')) : master'.Tx P := by
  obtain ⟨m₁, m₂, h₁, h₂, h₃⟩ := processRx_ok hs
  refine hP.rx (hP.quickRx (hP.updateSchedule h h₁) h₂) ?_ h₃
  intro hg hc
  exact hfind hg ((masterUpdateSchedule_quiet h₁).1.findsPending ((masterQuickRx_quiet h₂).1.findsPending hc))

theorem processTx (hP : KeptBySlots guarded P) (h : master.Tx P) (hremove : guarded → ¬ master.RemovesPending)
    {stray : TNodeIndex → UInt8} {k : Nat} {frame : Option Packet}
    (hs : masterNoDelaySingleChannelProcessTx master stray = .ok (k, master', frame)) :
    master'.Tx P := by
  obtain ⟨m₁, m₂, h₁, h₂, h₃⟩ := processTx_ok hs
  have hpart := ((TxPart.tx h₁).trans (TxPart.updateSchedule h₂)).trans (TxPart.quickTx m₂ stray)
  exact hP.removeAny (hP.quickTx (hP.updateSchedule (hP.tx h h₁) h₂) stray)
    (fun hg hc => hremove hg (hpart.removesPending hc)) h₃

end KeptBySlots

end Parts

end Microbus
