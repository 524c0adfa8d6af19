import Microbus.LinkInvariant
import Microbus.UniqueIds
import Microbus.EmissionMaster

/-! What the master keeps for its nodes: the packets submitted to each of them, and how far the
conversation with it has come. -/
namespace Microbus

open Transition GoBackN

/-- A data packet of the master, for `d` and with the number `q`. -/
structure Packet.IsDataTo (p : Packet) (d : TNodeIndex) (q : UInt8) (x : Payload) : Prop where
  type : p.getPacketType = some .masterData
  dst : p.dstNodeId = d
  txSeqNum : p.txSeqNum = q
  payload : p.payload = x

theorem Packet.SameMessage.getPacketType {isMaster : Bool} {p p' : Packet} (h : p.SameMessage isMaster p') :
    p'.getPacketType = p.getPacketType := by
  unfold Packet.getPacketType
  rw [h.type]

/-- The live entries hold the packets that were submitted. -/
structure Outbox (m : TxManager) (g : Ledger) (submitted : TNodeIndex → List Payload) : Prop where
  balanced : BalancedBy m g
  length : ∀ d, (submitted d).length = g.stop d
  held : ∀ i, m.Live i → (submitted (g.owner i).1)[(g.owner i).2]? = some (m.entry i).packet.payload
  isData : ∀ i, m.Live i → (m.entry i).packet.getPacketType = some .masterData

/-- The positions for `d` are the same. -/
structure Ledger.SameAt (g g' : Ledger) (d : TNodeIndex) : Prop where
  start : g'.start d = g.start d
  next : g'.next d = g.next d
  stop : g'.stop d = g.stop d

/-- What the master knows of the conversation with `d`. -/
structure Talks (g : Ledger) (submitted : TNodeIndex → List Payload) (d : TNodeIndex)
    (c : Conversation Payload) : Prop where
  inv : c.Inv 254
  submitted : c.submitted = submitted d
  start : c.start = g.start d
  next : c.next = g.next d

variable {m m' : TxManager} {g g' g'' : Ledger} {d : TNodeIndex} {submitted submitted' : TNodeIndex → List Payload}

namespace Ledger.SameAt

theorem refl (g : Ledger) (d : TNodeIndex) : g.SameAt g d := ⟨rfl, rfl, rfl⟩

theorem trans (h : g.SameAt g' d) (h' : g'.SameAt g'' d) : g.SameAt g'' d :=
  ⟨h'.start.trans h.start, h'.next.trans h.next, h'.stop.trans h.stop⟩

end Ledger.SameAt

theorem Talks.congr {c : Conversation Payload} (h : Talks g submitted d c) (hg : g.SameAt g' d)
    (hsubmitted : submitted' d = submitted d) : Talks g' submitted' d c :=
  ⟨h.inv, h.submitted.trans hsubmitted.symm, h.start.trans hg.start.symm, h.next.trans hg.next.symm⟩

theorem AckResult.sameAt {isMaster : Bool} {a : UInt8} (h : AckResult isMaster m g d a m' g') {x : TNodeIndex}
    (hx : x ≠ d) : g.SameAt g' x := by
  cases h with
  | null _ => exact .refl g x
  | missed _ _ =>
      unfold Ledger.missAck
      split
      · exact ⟨rfl, Function.update_of_ne hx _ _, rfl⟩
      · exact .refl g x
  | valid _ _ _ _ _ => exact ⟨Function.update_of_ne hx _ _, Function.update_of_ne hx _ _, rfl⟩

theorem AckResult.stop {isMaster : Bool} {a : UInt8} (h : AckResult isMaster m g d a m' g') : g'.stop = g.stop := by
  cases h with
  | null _ => rfl
  | missed _ _ => exact g.missAck_stop m d
  | valid _ _ _ _ _ => rfl

theorem AckResult.owner {isMaster : Bool} {a : UInt8} (h : AckResult isMaster m g d a m' g') : g'.owner = g.owner := by
  cases h with
  | null _ => rfl
  | missed _ _ =>
      unfold Ledger.missAck
      split <;> rfl
  | valid _ _ _ _ _ => rfl

theorem AckResult.live {isMaster : Bool} {a : UInt8} (h : AckResult isMaster m g d a m' g') {i : Nat} (hi : m'.Live i) :
    m.Live i ∧ (m'.entry i).packet = (m.entry i).packet := by
  cases h with
  | null _ => exact ⟨hi, rfl⟩
  | missed _ _ =>
      have hs := sameStore_missAck m d
      exact ⟨(hs.live i).mp hi, by rw [hs.entry]⟩
  | @valid k s _ _ _ _ hrel =>
      have hlt : i < s.maxEntries.toNat := hi.lt
      rw [hrel.maxEntries] at hlt
      exact ⟨⟨hlt, ((hrel.inUse i).mp hi.inUse).1, hi.notAllocated⟩, hrel.packet i⟩

theorem Talks.ack {isMaster : Bool} {c : Conversation Payload} (h : Talks g submitted d c)
    (hstop : (submitted d).length = g.stop d)
    {r : Nat} {rest : List Nat} (hacks : c.acks = r :: rest) (hresult : AckResult isMaster m g d (ackOf r) m' g') :
    ∃ c', Talks g' submitted d c' ∧ c'.delivered = c.delivered ∧ c'.data = c.data ∧ c'.acks = rest := by
  have hlose := h.inv.lose (List.Sublist.refl c.data) (hacks ▸ List.sublist_cons_self r rest)
  generalize ha : ackOf r = a at hresult
  cases hresult with
  | null _ => exact ⟨c.lose c.data rest, ⟨hlose, h.submitted, h.start, h.next⟩, rfl, rfl, rfl⟩
  | missed _ _ =>
      by_cases hp : m.txSeqNumPauseCount d = 1
      · have hg : g.missAck m d = g.rewind d := if_pos hp
        refine ⟨(c.lose c.data rest).rewind, ⟨hlose.rewind, h.submitted, ?_, ?_⟩, rfl, rfl, rfl⟩
        · rw [hg]
          exact h.start
        · rw [hg]
          simp only [Conversation.rewind, Conversation.lose, Ledger.rewind, Function.update_self]
          exact h.start
      · have hg : g.missAck m d = g := if_neg hp
        rw [hg]
        exact ⟨c.lose c.data rest, ⟨hlose, h.submitted, h.start, h.next⟩, rfl, rfl, rfl⟩
  | @valid k s hs he _ hk _ =>
      have hmem : r ∈ c.acks := hacks ▸ List.mem_cons_self
      have hpos : 0 < r := by
        refine Nat.pos_of_ne_zero ?_
        rintro rfl
        exact seq_ne_null k (hk.symm.trans ha.symm)
      have hseq : (r - 1) % 255 = k % 255 := by
        rw [ackOf, if_neg hpos.ne'] at ha
        exact seq_eq_iff.mp (ha.trans hk)
      have hstart := h.start
      have hlength : c.submitted.length = g.stop d := by rw [h.submitted, hstop]
      have hrk : r = k + 1 := h.inv.ack_residue (by decide) hmem hpos (by omega) (by omega) hseq
      subst hrk
      refine ⟨(c.lose c.data rest).acknowledge (k + 1), ⟨h.inv.acknowledge hacks, h.submitted, ?_, ?_⟩,
        rfl, rfl, rfl⟩
      · simp only [Conversation.acknowledge, Conversation.lose, Ledger.acknowledge, Function.update_self]
        omega
      · simp only [Conversation.acknowledge, Conversation.lose, Ledger.acknowledge, Function.update_self, h.next]

theorem Talks.hear {c : Conversation Payload} (h : Talks g submitted d c) {acks : List UInt8}
    (hacks : acks = [] ∨ c.acks.map ackOf = acks) :
    ∃ c', Talks g submitted d c' ∧ c'.delivered = c.delivered ∧ c'.data = c.data ∧
      c'.acks.map ackOf = acks := by
  rcases hacks with rfl | hacks
  · have hinv := h.inv.lose (List.Sublist.refl _) (List.nil_sublist c.acks)
    exact ⟨c.lose c.data [], ⟨hinv, h.submitted, h.start, h.next⟩, rfl, rfl, rfl⟩
  · exact ⟨c, h, rfl, rfl, hacks⟩

theorem Ledger.advance_sameAt {x : TNodeIndex} (hx : x ≠ d) : g.SameAt (g.advance d) x :=
  ⟨rfl, Function.update_of_ne hx _ _, rfl⟩

theorem Talks.send {c : Conversation Payload} (h : Talks g submitted d c) {x : Payload}
    (hx : (submitted d)[g.next d]? = some x) : Talks (g.advance d) submitted d (c.send x) where
  inv := h.inv.send (by rw [h.submitted, h.next, hx])
  submitted := h.submitted
  start := h.start
  next := by simp only [Conversation.send, Ledger.advance, Function.update_self, h.next]

theorem Talks.submit {c : Conversation Payload} (h : Talks g submitted d c) (hstop : (submitted d).length = g.stop d)
    (hroom : g.stop d < g.start d + 254) (i : Nat) (x : Payload) :
    Talks (g.submit i d) (Function.update submitted d (submitted d ++ [x])) d (c.submit x) where
  inv := by
    have hstart := h.start
    exact h.inv.submit x (by rw [h.submitted]; omega)
  submitted := by
    rw [Function.update_self, ← h.submitted]
    rfl
  start := h.start
  next := h.next

theorem Ledger.remove_sameAt {x : TNodeIndex} (hx : x ≠ d) : g.SameAt (g.remove d) x :=
  ⟨Function.update_of_ne hx _ _, Function.update_of_ne hx _ _, Function.update_of_ne hx _ _⟩

namespace Outbox

/-- A window whose counters leave room takes one more packet. -/
theorem room_of_incr (h : Outbox m g submitted) (hroom : incrSequenceNum (m.txSeqNumEnd d) ≠ m.txSeqNumStart d) :
    g.stop d < g.start d + 254 := by
  have hlt := h.balanced.room d
  have hfull : g.stop d + 1 ≠ g.start d + 255 := by
    intro hfull
    rw [h.balanced.store.stop_eq, h.balanced.store.start_eq, incr_seq, hfull] at hroom
    exact hroom (seq_eq_iff.mpr (Nat.add_mod_right _ _))
  omega

theorem shrink (h : Outbox m g submitted) (hbalanced : BalancedBy m' g') (hstop : g'.stop = g.stop)
    (howner : g'.owner = g.owner)
    (hlive : ∀ i, m'.Live i → m.Live i ∧ (m.entry i).packet.SameMessage true (m'.entry i).packet) :
    Outbox m' g' submitted where
  balanced := hbalanced
  length x := by rw [hstop, h.length]
  held i hi := by
    obtain ⟨hl, hsame⟩ := hlive i hi
    rw [howner, h.held i hl, hsame.payload]
  isData i hi := by
    obtain ⟨hl, hsame⟩ := hlive i hi
    rw [hsame.getPacketType, h.isData i hl]

theorem quiet (h : Outbox m g submitted) (hq : m.Quiet m') : Outbox m' g submitted :=
  h.shrink (h.balanced.quiet hq) rfl rfl fun i hi => ⟨(hq.touched.live i).mp hi, hq.message i⟩

theorem rxAck (h : Outbox m g submitted) (hf : ¬ m.FindsPending) {a : UInt8} {n : Nat}
    (hack : rxAckSeqNum m d a true = .ok (n, m')) : ∃ g', Outbox m' g' submitted ∧
    AckResult true m g d a m' g' := by
  obtain ⟨g', hresult, hbalanced⟩ := h.balanced.rxAck hf hack
  refine ⟨g', h.shrink hbalanced hresult.stop hresult.owner fun i hi => ?_, hresult⟩
  obtain ⟨hl, hp⟩ := hresult.live hi
  exact ⟨hl, hp ▸ .refl true _⟩

theorem choose (h : Outbox m g submitted) (hu : Unshadowed true m) {burstSize : Nat} {r : Option Nat}
    (hget : masterGetNextTxDataPacket m burstSize = .ok (r, m')) : ∃ g', Outbox m' g' submitted ∧
    ((r = none ∧ g' = g) ∨
      ∃ d i x, r = some i ∧ g' = g.advance d ∧ (submitted d)[g.next d]? = some x ∧
        (m'.entry i).packet.IsDataTo d (seq (g.next d)) x) := by
  obtain ⟨queue, -, hround⟩ := masterGetNextTxDataPacket_ok hget
  have hsame := hround.sameStore
  have hstays : ∀ i, m'.Live i → m.Live i ∧ (m.entry i).packet.SameMessage true (m'.entry i).packet := fun i hi =>
    ⟨(hsame.live i).mp hi, by rw [hsame.entry]; exact .refl true _⟩
  obtain ⟨g', hbalanced, ⟨hr, rfl⟩ | ⟨d, i, hr, rfl, hchosen⟩⟩ := h.balanced.choose hget
  · exact ⟨g', h.shrink hbalanced rfl rfl hstays, Or.inl ⟨hr, rfl⟩⟩
  · obtain ⟨hl, ho⟩ := hchosen hu
    have hkey := h.balanced.store.owner_key i hl
    have hheld := h.held i hl
    rw [ho] at hkey hheld
    refine ⟨_, h.shrink hbalanced rfl rfl hstays, Or.inr ⟨d, i, _, hr, rfl, hheld, ?_⟩⟩
    rw [hsame.entry]
    exact ⟨h.isData i hl, congrArg Prod.fst hkey, congrArg Prod.snd hkey, rfl⟩

theorem remove (h : Outbox m g submitted) {n : Nat} (hr : masterTxManagerRemoveNode m d = .ok (n, m'))
    (hpend : ∀ u, m.allocatedPacket = some u → (m.entry u).packet.dstNodeId ≠ d) :
    Outbox m' (g.remove d) (Function.update submitted d []) := by
  have hbalanced := h.balanced.remove hr hpend
  have hpackets := masterTxManagerRemoveNode_packets hr
  have hlive : ∀ i, m'.Live i → m.Live i ∧ (g.owner i).1 ≠ d := by
    intro i hi
    obtain ⟨hs, he⟩ := hbalanced.store.owner_mem i hi
    refine ⟨⟨hpackets.size ▸ hi.lt, hpackets.inUse i hi.inUse, ?_⟩, (Ledger.remove_window hs he).1⟩
    exact hpackets.allocated ▸ hi.notAllocated
  refine ⟨hbalanced, fun x => ?_, fun i hi => ?_, fun i hi => ?_⟩
  · by_cases hx : x = d
    · subst hx
      simp only [Ledger.remove, Function.update_self, List.length_nil]
    · simp only [Ledger.remove, Function.update_of_ne hx, h.length]
  · obtain ⟨hl, hne⟩ := hlive i hi
    rw [Function.update_of_ne (show ((g.remove d).owner i).1 ≠ d from hne), hpackets.packet]
    exact h.held i hl
  · rw [hpackets.packet]
    exact h.isData i (hlive i hi).1

theorem allocate (h : Outbox m g submitted) {r : Option Nat}
    (hfull : ∀ q, m.activeTxNodes = some q → maxNodes ≤ q.numNodes → ∀ i, ¬ m.FirstFree i)
    (ha : allocateTxPacket m = .ok (r, m')) : Outbox m' g submitted := by
  refine h.shrink (h.balanced.allocate hfull ha) rfl rfl fun i hi => ?_
  rcases allocateTxPacket_ok ha with ⟨-, rfl⟩ | ⟨u, hfree, hnone, ⟨-, -, q, hq, hnum⟩ | ⟨-, rfl⟩⟩
  · exact ⟨hi, .refl true _⟩
  · exact absurd hfree (hfull q hq hnum u)
  · have hne : i ≠ u := fun hc => hi.notAllocated (congrArg some hc.symm)
    refine ⟨(live_allocate hfree hnone i).mp hi, ?_⟩
    change (m.entry i).packet.SameMessage true ((m.takeEntry u).entry i).packet
    rw [TxManager.entry_takeEntry, if_neg hne]
    exact .refl true _

theorem write (h : Outbox m g submitted) (data : PacketData) : Outbox (writeAllocatedPacket m data) g submitted := by
  have ht : Touched true m (writeAllocatedPacket m data) := touched_write m data
  refine h.shrink (h.balanced.write data) rfl rfl fun i hi => ?_
  have hl := (ht.live i).mp hi
  rw [entry_write hl.notAllocated]
  exact ⟨hl, .refl true _⟩

/-- Credits are reset only while nothing is queued. -/
theorem clearBuffers (h : Outbox m g submitted) (hi : m.TransmitIdle) :
    Outbox (masterTxClearBuffers m) g submitted := by
  have hbalanced := h.balanced.clearBuffers hi
  refine h.shrink hbalanced rfl rfl fun i hl => ?_
  obtain ⟨hs, he⟩ := hbalanced.store.owner_mem i hl
  have hroom := h.balanced.room (g.owner i).1
  have hseq := (h.balanced.store.start_eq _).symm.trans ((hi.empty (g.owner i).1).trans (h.balanced.store.stop_eq _))
  have heq := Cyclic.eq_of_mod_eq (seq_eq_iff.mp hseq) (by omega) (by omega)
  omega

theorem submit (h : Outbox m g submitted) {i : Nat} {q : Option NodeQueue} {size : UInt16}
    (ha : m.allocatedPacket = some i) (htable : d.toNat < m.maxTxNodes) (hadd : addActiveTxNode m true d = .ok q)
    (hroom : incrSequenceNum (m.txSeqNumEnd d) ≠ m.txSeqNumStart d) :
    Outbox (m.submitEntry i (fillHeader (m.entry i).packet true masterNodeId d .masterData size (m.txSeqNumEnd d)) d q)
      (g.submit i d) (Function.update submitted d (submitted d ++ [⟨size.toNat, (m.entry i).packet.data⟩])) := by
  have hpend := h.balanced.store.allocated i ha
  refine ⟨h.balanced.submit ha htable (key_fillHeader validDst_master) hadd hroom, fun x => ?_, fun j hj => ?_,
    fun j hj => ?_⟩
  · by_cases hx : x = d
    · subst hx
      simp only [Ledger.submit, Function.update_self, List.length_append, List.length_cons, List.length_nil, h.length]
    · simp only [Ledger.submit, Function.update_of_ne hx, h.length]
  · rw [entry_submit]
    rcases (live_submit ha hpend j).mp hj with rfl | hl
    · simp only [Ledger.submit, Function.update_self, if_true, payload_fillHeader, ← h.length]
      exact List.getElem?_concat_length
    · have hne : j ≠ i := fun hc => hl.notAllocated (hc ▸ ha)
      have hheld := h.held j hl
      simp only [Ledger.submit]
      rw [Function.update_of_ne hne, if_neg hne]
      by_cases hx : (g.owner j).1 = d
      · rw [hx] at hheld
        rw [hx, Function.update_self, List.getElem?_append_left (List.getElem?_eq_some_iff.mp hheld).1, hheld]
      · rw [Function.update_of_ne hx, hheld]
  · rw [entry_submit]
    rcases (live_submit ha hpend j).mp hj with rfl | hl
    · rw [if_pos rfl]
      exact (@filledAs_fillHeader true _ _ _ _ _ (m.entry j).packet).isType.type
    · rw [if_neg (show j ≠ i from fun hc => hl.notAllocated (hc ▸ ha))]
      exact h.isData j hl

end Outbox

instance (p : Packet) : Decidable p.fromNode := inferInstanceAs (Decidable (_ ∨ _))

/-- The acknowledgement in a frame that was sent with the id `d`. -/
def acksFrom (d : TNodeIndex) : Option Packet → List UInt8
  | none => []
  | some p => if p.fromNode ∧ p.srcNodeId = d then [p.ackSeqNum] else []

/-- The number and the payload of a data frame for `d`. -/
def dataTo (d : TNodeIndex) : Option Packet → List (UInt8 × Payload)
  | none => []
  | some p => if p.getPacketType = some .masterData ∧ p.dstNodeId = d then [(p.txSeqNum, p.payload)] else []

/-- A message of the conversation as it is on the wire. -/
def wire (p : Nat × Payload) : UInt8 × Payload := (seq p.1, p.2)

theorem acksFrom_eq_nil {frame : Option Packet} (h : ∀ p ∈ frame, p.fromNode → p.srcNodeId ≠ d) :
    acksFrom d frame = [] := by
  cases frame with
  | none => rfl
  | some p => exact if_neg fun hc => h p rfl hc.1 hc.2

theorem dataTo_eq_nil {frame : Option Packet}
    (h : ∀ p ∈ frame, p.getPacketType = some .masterData → p.dstNodeId ≠ d) :
    dataTo d frame = [] := by
  cases frame with
  | none => rfl
  | some p => exact if_neg fun hc => h p rfl hc.1 hc.2

theorem Packet.SameMessage.dataTo_eq {p p' : Packet} (h : p.SameMessage true p') :
    dataTo d (some p') = dataTo d (some p) := by
  have hdst : p'.dstNodeId = p.dstNodeId := h.station
  dsimp only [dataTo]
  rw [h.getPacketType, hdst, h.txSeqNum, h.payload]

theorem Packet.IsDataTo.dataTo_other {p : Packet} {q : UInt8} {x : Payload} (h : p.IsDataTo d q x) {y : TNodeIndex}
    (hy : y ≠ d) :
    dataTo y (some p) = [] :=
  if_neg fun hc => hy (hc.2.symm.trans h.dst)

theorem Packet.IsDataTo.dataTo_self {p : Packet} {q : UInt8} {x : Payload} (h : p.IsDataTo d q x) :
    dataTo d (some p) = [(q, x)] := by
  rw [← h.txSeqNum, ← h.payload]
  exact if_pos ⟨h.type, h.dst⟩

/-- The frame continues one conversation, or none. -/
structure Continues (g g' : Ledger) (submitted : TNodeIndex → List Payload) (frame : Option Packet) : Prop where
  known : ∀ d, ∀ q ∈ dataTo d frame, ∃ a, q.1 = seq a ∧ (submitted d)[a]? = some q.2
  talks : ∀ d c, Talks g submitted d c → ∃ c', Talks g' submitted d c' ∧ c'.delivered = c.delivered ∧
    c'.acks = c.acks ∧
    c'.data.map wire = c.data.map wire ++ dataTo d frame

namespace Continues

theorem other {p : Packet} (htype : p.getPacketType ≠ some .masterData) : Continues g g submitted (some p) := by
  have hnone : ∀ d, dataTo d (some p) = [] := fun d =>
    dataTo_eq_nil fun q hq hdata => absurd (Option.some.inj hq ▸ hdata) htype
  refine ⟨fun d q hq => ?_, fun d c hc => ⟨c, hc, rfl, rfl, ?_⟩⟩
  · rw [hnone] at hq
    cases hq
  · rw [hnone, List.append_nil]

theorem data {p : Packet} {x : Payload} (hx : (submitted d)[g.next d]? = some x)
    (hp : p.IsDataTo d (seq (g.next d)) x) :
    Continues g (g.advance d) submitted (some p) where
  known y q hq := by
    by_cases hy : y = d
    · subst hy
      rw [hp.dataTo_self] at hq
      obtain rfl := List.mem_singleton.mp hq
      exact ⟨g.next y, rfl, hx⟩
    · rw [hp.dataTo_other hy] at hq
      cases hq
  talks y c hc := by
    by_cases hy : y = d
    · subst hy
      refine ⟨c.send x, hc.send hx, rfl, rfl, ?_⟩
      rw [hp.dataTo_self, Conversation.send, List.map_append, hc.next]
      rfl
    · refine ⟨c, hc.congr (Ledger.advance_sameAt hy) rfl, rfl, rfl, ?_⟩
      rw [hp.dataTo_other hy, List.append_nil]

theorem congr {p p' : Packet} (h : Continues g g' submitted (some p)) (hsame : p.SameMessage true p') :
    Continues g g' submitted (some p') where
  known d q hq := h.known d q (hsame.dataTo_eq ▸ hq)
  talks d c hc := by
    rw [hsame.dataTo_eq]
    exact h.talks d c hc

end Continues

def Master.heard (master : Master) : Option Packet :=
  if master.rx.validRxPacket then master.rx.prevRxPacketEntry.map master.rx.packetAt else none

/-- What is submitted to the ids that are taken. -/
structure Master.Posts (master : Master) (g : Ledger) (submitted : TNodeIndex → List Payload) : Prop where
  outbox : Outbox master.tx.txManager g submitted
  absent : ∀ d, master.masterNodeTimeToLive d = 0 → submitted d = []
  unheard : ∀ e ∈ master.nwManager.newNodes, g.start e.2 = 0

theorem Unshadowed.mono (h : Unshadowed true m) (halloc : m'.allocatedPacket = m.allocatedPacket)
    (hkey : ∀ i, entryKey true (m'.entry i) = entryKey true (m.entry i)) (hlive : ∀ i, m'.Live i → m.Live i) :
    Unshadowed true m' := by
  intro u hu j hj huj
  rw [hkey, hkey]
  exact h u (halloc ▸ hu) j (hlive j hj) huj

namespace Master.Posts

variable {master master' : Master}

theorem start_of_empty (h : master.Posts g submitted) (hd : submitted d = []) : g.start d = 0 := by
  have hlength := h.outbox.length d
  have hle := h.outbox.balanced.store.start_le_stop d
  rw [hd, List.length_nil] at hlength
  omega

theorem congr (h : master.Posts g submitted) (hquiet : master.tx.txManager.Quiet master'.tx.txManager)
    (httl : ∀ k, master.masterNodeTimeToLive k ≠ 0 → master'.masterNodeTimeToLive k ≠ 0)
    (hnew : master'.nwManager.newNodes ⊆ master.nwManager.newNodes) : master'.Posts g submitted where
  outbox := h.outbox.quiet hquiet
  absent d hd := h.absent d (Classical.not_not.mp fun hc => httl d hc hd)
  unheard e he := h.unheard e (hnew he)

theorem updateTimeUs (h : master.Posts g submitted) (usIncr : UInt32) :
    (masterUpdateTimeUs master usIncr).Posts g submitted := by
  obtain ⟨us, ttl, heq, httl⟩ := masterUpdateTimeUs_eq master usIncr
  rw [heq]
  refine h.congr (.refl _) (fun k hk => ?_) (List.Subset.refl _)
  rcases httl with rfl | httl
  · exact hk
  · change ttl k ≠ 0
    rw [httl]
    split
    · exact fun hc => hk ((decrementTimeToLive_zero _).mp hc)
    · exact hk

theorem register (h : master.Posts g submitted) {uniqueId : UInt64} {nw : NetworkManager} {ttl : TimeToLive}
    (hr : networkManagerRegisterNewNode master.nwManager master.masterNodeTimeToLive uniqueId = .ok (nw, ttl)) :
    ∀ e ∈ nw.newNodes, g.start e.2 = 0 := by
  rcases networkManagerRegisterNewNode_ok hr with ⟨rfl, -⟩ | ⟨active, -, -, hid, -, rfl, -⟩
  · exact h.unheard
  · intro e he
    rw [newNodes_append] at he
    rcases List.mem_append.mp he with he | he
    · exact h.unheard e he
    · rw [List.mem_singleton.mp he]
      exact h.start_of_empty (h.absent _ (getNextFreeNodeId_free hid).2.2)

end Master.Posts

/-- A frame that is not of a node acknowledges nothing. -/
theorem masterRx_acks_nothing {master master' : Master} (hp : ∀ p ∈ master.heard, ¬ p.fromNode) {k : Nat}
    (h : masterRx master = .ok (k, master')) : master'.tx.txManager = master.tx.txManager := by
  obtain ⟨⟨k', c⟩, hrx, h⟩ := bind_eq_ok.mp h
  cases h
  unfold masterProcessRx at hrx
  split at hrx
  · cases hrx
    rfl
  · rename_i hvalid
    rw [Bool.not_eq_false] at hvalid
    split at hrx
    · rename_i e hprev
      have hheard : master.heard = some (master.rx.packetAt e) := by
        unfold Master.heard
        rw [if_pos (show master.rx.validRxPacket = true from hvalid),
          show master.rx.prevRxPacketEntry = some e from hprev, Option.map_some]
      have hnode : ¬ (master.rx.packetAt e).fromNode := hp _ hheard
      obtain ⟨⟨stored, k₁, c₁⟩, hpacket, hrx⟩ := bind_eq_ok.mp hrx
      cases hrx
      unfold masterProcessRxPacket at hpacket
      split at hpacket
      · rename_i htype
        exact absurd (Or.inr htype) hnode
      · rename_i htype
        exact absurd (Or.inl htype) hnode
      · obtain ⟨⟨nw, ttl⟩, -, hpacket⟩ := bind_eq_ok.mp hpacket
        cases hpacket
        rfl
      · cases hpacket
        rfl
    · cases hrx

namespace Master.Posts

variable {master master' : Master}

theorem rx (h : master.Posts g submitted) (hf : ¬ master.tx.txManager.FindsPending)
    (hnew : ∀ p ∈ master.heard, p.fromNode → ∀ e ∈ master.nwManager.newNodes, e.2 ≠ p.srcNodeId) {k : Nat}
    (hr : masterRx master = .ok (k, master')) : ∃ g', master'.Posts g' submitted ∧
    Unshadowed true master'.tx.txManager ∧
      ∀ d c later, Talks g submitted d c → c.acks.map ackOf = acksFrom d master.heard ++ later →
        ∃ c', Talks g' submitted d c' ∧ c'.delivered = c.delivered ∧ c'.data = c.data ∧
          c'.acks.map ackOf = later := by
  have hu := h.outbox.balanced.unshadowed hf
  obtain ⟨-, hup, -⟩ := masterRx_part hr
  have habsent : ∀ d, master'.masterNodeTimeToLive d = 0 → submitted d = [] := fun d hd =>
    h.absent d (Classical.not_not.mp fun hc => hup d hc hd)
  by_cases hnode : ∃ p ∈ master.heard, p.fromNode
  · obtain ⟨p, hp, hfrom⟩ := hnode
    have hresult : master'.nwManager = master.nwManager ∧ (master'.tx.txManager = master.tx.txManager ∨
        ∃ n, rxAckSeqNum master.tx.txManager p.srcNodeId p.ackSeqNum true = .ok (n, master'.tx.txManager)) := by
      rcases masterRx_ok hr with ⟨hvalid, -⟩ | ⟨e, _, _, _, _, _, _, hvalid, hprev, rfl, hresult⟩
      · unfold Master.heard at hp
        rw [hvalid] at hp
        cases hp
      · have hpe : p = master.rx.packetAt e := by
          unfold Master.heard at hp
          rw [hvalid, hprev] at hp
          exact (Option.some.inj hp).symm
        subst hpe
        cases hresult with
        | ignored _ => exact ⟨rfl, Or.inl rfl⟩
        | acked _ hack => exact ⟨rfl, Or.inr ⟨_, hack⟩⟩
        | stored _ _ hack _ _ => exact ⟨rfl, Or.inr ⟨_, hack⟩⟩
        | registered htype _ =>
            rcases hfrom with hdata | hempty
            · exact absurd (htype.symm.trans hdata) (by decide)
            · exact absurd (htype.symm.trans hempty) (by decide)
    have hother := hnew p hp hfrom
    rw [Option.mem_def] at hp
    rw [hp]
    rcases hresult with ⟨hnw, heq | ⟨n, hack⟩⟩
    · rw [heq]
      refine ⟨g, ⟨heq ▸ h.outbox, habsent, hnw ▸ h.unheard⟩, hu, fun d c later hc hacks => ?_⟩
      -- the acknowledgement has no effect, as if it were lost
      obtain ⟨acks, rest, hcacks, -, hrest⟩ := List.map_eq_append_iff.mp hacks
      have hsub : List.Sublist rest c.acks := hcacks ▸ List.sublist_append_right acks rest
      exact ⟨c.lose c.data rest, ⟨hc.inv.lose (List.Sublist.refl _) hsub, hc.submitted, hc.start, hc.next⟩,
        rfl, rfl, hrest⟩
    · obtain ⟨g', houtbox, hresult⟩ := h.outbox.rxAck hf hack
      refine ⟨g', ⟨houtbox, habsent, fun e he => ?_⟩, ?_, fun d c later hc hacks => ?_⟩
      · rw [hnw] at he
        rw [(hresult.sameAt (hother e he)).start]
        exact h.unheard e he
      · have hpart := TxPart.rx hr
        exact hu.mono hpart.allocated (fun i => (hpart.message i).key) fun i hi => (hresult.live hi).1
      · change _ = (if _ then _ else _) ++ later at hacks
        by_cases hd : p.srcNodeId = d
        · subst hd
          rw [if_pos ⟨hfrom, rfl⟩, List.singleton_append] at hacks
          obtain ⟨r, rest, hcacks, hhead, hrest⟩ := List.map_eq_cons_iff.mp hacks
          rw [← hhead] at hresult
          obtain ⟨c', hc', hdelivered, hdata, hacks'⟩ := hc.ack (h.outbox.length _) hcacks hresult
          exact ⟨c', hc', hdelivered, hdata, by rw [hacks', hrest]⟩
        · rw [if_neg (fun hc => hd hc.2), List.nil_append] at hacks
          exact ⟨c, hc.congr (hresult.sameAt (Ne.symm hd)) rfl, rfl, rfl, hacks⟩
  · have hquiet := masterRx_acks_nothing (fun p hp hc => hnode ⟨p, hp, hc⟩) hr
    refine ⟨g, ⟨hquiet ▸ h.outbox, habsent, ?_⟩, hquiet ▸ hu, fun d c later hc hacks => ?_⟩
    · rcases masterRx_ok hr with ⟨-, rfl⟩ | ⟨_, _, _, _, _, _, _, -, -, rfl, hresult⟩
      · exact h.unheard
      · cases hresult with
        | ignored _ => exact h.unheard
        | acked _ _ => exact h.unheard
        | stored _ _ _ _ _ => exact h.unheard
        | registered _ hrequest =>
            obtain ⟨_, -, hrequest⟩ := bind_eq_ok.mp hrequest
            obtain ⟨uniqueId, -, hregister⟩ := bind_eq_ok.mp hrequest
            exact h.register hregister
    · rw [acksFrom_eq_nil fun p hp hc => absurd ⟨p, hp, hc⟩ hnode, List.nil_append] at hacks
      exact ⟨c, hc, rfl, rfl, hacks⟩

/-- The frame that is chosen continues one conversation, or none. -/
theorem tx (h : master.Posts g submitted) (hu : Unshadowed true master.tx.txManager)
    (ht : masterTx master = .ok master') :
    ∃ g' r, master'.Posts g' submitted ∧ master'.tx.nextTxPacket = some r ∧
      Continues g g' submitted (some (master'.tx.deref r)) := by
  obtain ⟨tx, htx, ht⟩ := bind_eq_ok.mp ht
  cases ht
  cases masterProcessTx_ok htx with
  | reset _ =>
      have htype :=
        (Packet.isType_of_byte (p := master.tx.tmpPacket.setProtocolVersionAndPacketType .masterReset) rfl).type
      exact ⟨g, _, ⟨h.outbox, h.absent, h.unheard⟩, rfl,
        .other (by simp only [MasterTx.deref]; rw [htype]; decide)⟩
  | response _ _ _ =>
      have htype := (txNewNodeResponse_isType master.nwManager master.tx.tmpPacket).type
      exact ⟨g, _, ⟨h.outbox, h.absent, h.unheard⟩, rfl,
        .other (by simp only [MasterTx.deref]; rw [htype]; decide)⟩
  | empty _ hget =>
      obtain ⟨g', houtbox, ⟨-, rfl⟩ | ⟨d, i, x, hr, -⟩⟩ := h.outbox.choose hu hget
      · refine ⟨g', _, ⟨houtbox, h.absent, h.unheard⟩, rfl, .other ?_⟩
        simp only [MasterTx.deref, Function.update_self]
        rw [(Packet.isType_of_byte (t := .masterEmpty) rfl).type]
        decide
      · cases hr
  | data _ hget =>
      obtain ⟨g', houtbox, ⟨hr, -⟩ | ⟨d, i, x, hr, rfl, hx, hdata⟩⟩ := h.outbox.choose hu hget
      · cases hr
      · cases hr
        exact ⟨_, _, ⟨houtbox, h.absent, h.unheard⟩, rfl, .data hx hdata⟩

theorem removeAny (h : master.Posts g submitted) (hremove : ¬ master.RemovesPending) {k : Nat}
    (hr : masterRemoveAnyTimeoutNodes master = .ok (k, master')) : ∃ g' submitted', master'.Posts g' submitted' ∧
      ∀ d, master'.masterNodeTimeToLive d ≠ 0 → g.SameAt g' d ∧ submitted' d = submitted d := by
  have hloop := masterRemoveAnyTimeoutNodes_induction
    (P := fun m => ¬ m.RemovesPending ∧ ∃ g' submitted', m.Posts g' submitted' ∧
      ∀ d, m.masterNodeTimeToLive d ≠ 0 → g.SameAt g' d ∧ submitted' d = submitted d) ?_
    ⟨hremove, g, submitted, h, fun d _ => ⟨.refl g d, rfl⟩⟩ hr
  · exact hloop.2
  · rintro d hfirst hlast m k m' ⟨hm, g₁, submitted₁, hposts, hsame⟩ hone
    refine ⟨fun hc => hm ((TxPart.removeIfTimedOut hone).removesPending hc), ?_⟩
    rcases masterRemoveIfTimedOut_ok hone with ⟨-, rfl⟩
      | ⟨_, _, nw, txManager, _, hdue, hrequest, hnode, -, rfl⟩
    · exact ⟨g₁, submitted₁, hposts, hsame⟩
    · have houtbox := hposts.outbox.remove hnode fun u hu hdst => by
        subst hdst
        exact hm ⟨u, hu, hfirst, hlast, hdue⟩
      refine ⟨_, _, ⟨houtbox, fun x hx => ?_, fun e he => ?_⟩, fun x hx => ?_⟩
      · change Function.update m.masterNodeTimeToLive d 0 x = 0 at hx
        by_cases hxd : x = d
        · subst hxd
          exact Function.update_self _ _ _
        · rw [Function.update_of_ne hxd] at hx ⊢
          exact hposts.absent x hx
      · have hsub : nw.newNodes ⊆ m.nwManager.newNodes := by
          rw [networkManagerRemoveNewNodeRequest_newNodes hrequest]
          exact List.eraseP_subset
        by_cases hed : e.2 = d
        · rw [hed]
          exact Function.update_self _ _ _
        · rw [(Ledger.remove_sameAt hed).start]
          exact hposts.unheard e (hsub he)
      · change Function.update m.masterNodeTimeToLive d 0 x ≠ 0 at hx
        have hxd : x ≠ d := by
          rintro rfl
          exact hx (Function.update_self _ _ _)
        rw [Function.update_of_ne hxd] at hx ⊢
        obtain ⟨hg, hs⟩ := hsame x hx
        exact ⟨hg.trans (Ledger.remove_sameAt hxd), hs⟩

end Master.Posts

/-- The packet that is allocated, as `dataSize` bytes are submitted. -/
def TxManager.pendingPayload (m : TxManager) (dataSize : UInt16) : Option Payload :=
  m.allocatedPacket.map fun i => ⟨dataSize.toNat, (m.entry i).packet.data⟩

def MasterCall.submits (master : Master) (d : TNodeIndex) : MasterCall → List Payload
  | .submit dstNodeId numBytes => if d = dstNodeId then (master.tx.txManager.pendingPayload numBytes).toList else []
  | _ => []

/-- The calls that lose no packet: a packet is submitted to a node that is there and whose window has room, no packet is
allocated while all queues are full, and credits are reset only while nothing is queued. -/
def Master.KeepsPackets (master : Master) : MasterCall → Prop
  | .allocate => ∀ q, master.tx.txManager.activeTxNodes = some q → maxNodes ≤ q.numNodes →
      ∀ i, ¬ master.tx.txManager.FirstFree i
  | .submit d _ => master.masterNodeTimeToLive d ≠ 0 ∧
      incrSequenceNum (master.tx.txManager.txSeqNumEnd d) ≠ master.tx.txManager.txSeqNumStart d
  | .resetTxCredits => master.tx.txManager.TransmitIdle
  | _ => True

theorem MasterCall.submits_submit {master : Master} {i : Nat} (ha : master.tx.txManager.allocatedPacket = some i)
    {dst : TNodeIndex} {numBytes : UInt16} :
    (fun d => submitted d ++ (MasterCall.submit dst numBytes).submits master d) =
      Function.update submitted dst
        (submitted dst ++ [⟨numBytes.toNat, (master.tx.txManager.entry i).packet.data⟩]) := by
  funext d
  simp only [MasterCall.submits, TxManager.pendingPayload, ha]
  by_cases hd : d = dst
  · rw [hd, Function.update_self, if_pos rfl]
    rfl
  · rw [Function.update_of_ne hd, if_neg hd, List.append_nil]

section Call

variable {master master' : Master}

/-- The calls leave the frame that was heard and the tables of ids, up to the id of the master. -/
theorem Master.call_keeps {call : MasterCall} (hc : master.call call = .ok master') : master'.heard = master.heard ∧
    master'.nwManager = master.nwManager ∧ ∀ d, d ≠ masterNodeId →
    master'.masterNodeTimeToLive d = master.masterNodeTimeToLive d := by
  have hrx : ∀ {rxPacketManager : RxPacketManager},
      (∀ i, (rxPacketManager.rxPacketEntries i).packet = (master.rx.rxPacketManager.rxPacketEntries i).packet) →
      ({ master with rx := { master.rx with rxPacketManager } } : Master).heard = master.heard := by
    intro rpm hpackets
    unfold Master.heard
    have hpacketAt : ({ master.rx with rxPacketManager := rpm } : MasterRx).packetAt =
      master.rx.packetAt := funext hpackets
    rw [hpacketAt]
  cases call with
  | allocate =>
      obtain ⟨⟨r, m⟩, halloc, hc⟩ := bind_eq_ok.mp hc
      obtain ⟨⟨r', tm⟩, -, halloc⟩ := bind_eq_ok.mp halloc
      cases halloc
      cases hc
      exact ⟨rfl, rfl, fun _ _ => rfl⟩
  | write data =>
      cases hc
      exact ⟨rfl, rfl, fun _ _ => rfl⟩
  | submit dst numBytes =>
      obtain ⟨-, -, tm, -, rfl⟩ := masterSubmit_ok hc
      exact ⟨rfl, rfl, fun _ _ => rfl⟩
  | peek =>
      obtain ⟨⟨r, m⟩, hpeek, hc⟩ := bind_eq_ok.mp hc
      cases hc
      obtain ⟨rpm, rfl, hpackets⟩ := masterPeek_ok hpeek
      exact ⟨hrx hpackets, rfl, fun _ _ => rfl⟩
  | pop =>
      obtain ⟨rpm, rfl, hpackets⟩ := masterPop_ok hc
      exact ⟨hrx hpackets, rfl, fun _ _ => rfl⟩
  | getConnectedNodes =>
      obtain ⟨⟨m, bits⟩, hget, hc⟩ := bind_eq_ok.mp hc
      cases hc
      obtain rfl := getConnectedNodesBitField_ok hget
      exact ⟨rfl, rfl, fun d hd => Function.update_of_ne hd _ _⟩
  | resetTxCredits =>
      cases hc
      exact ⟨rfl, rfl, fun _ _ => rfl⟩

theorem Master.Posts.call (h : master.Posts g submitted) {call : MasterCall} (hkeeps : master.KeepsPackets call)
    (hc : master.call call = .ok master') :
    ∃ g', master'.Posts g' (fun d => submitted d ++ call.submits master d) ∧
      ∀ d c, Talks g submitted d c → ∃ c', Talks g' (fun d => submitted d ++ call.submits master d) d c' ∧
        c'.delivered = c.delivered ∧ c'.data = c.data ∧ c'.acks = c.acks := by
  have hsame : master'.Posts g submitted → (∀ d, call.submits master d = []) →
      ∃ g', master'.Posts g' (fun d => submitted d ++ call.submits master d) ∧
        ∀ d c, Talks g submitted d c → ∃ c', Talks g' (fun d => submitted d ++ call.submits master d) d c' ∧
          c'.delivered = c.delivered ∧ c'.data = c.data ∧ c'.acks = c.acks := by
    intro hposts hnone
    have heq : (fun d => submitted d ++ call.submits master d) = submitted := by
      funext d
      rw [hnone, List.append_nil]
    rw [heq]
    exact ⟨g, hposts, fun d c hc => ⟨c, hc, rfl, rfl, rfl⟩⟩
  cases call with
  | allocate =>
      obtain ⟨⟨r, m⟩, halloc, hc⟩ := bind_eq_ok.mp hc
      obtain ⟨⟨r', tm⟩, hone, halloc⟩ := bind_eq_ok.mp halloc
      cases halloc
      cases hc
      exact hsame ⟨h.outbox.allocate hkeeps hone, h.absent, h.unheard⟩ fun _ => rfl
  | write data =>
      cases hc
      exact hsame ⟨h.outbox.write data, h.absent, h.unheard⟩ fun _ => rfl
  | submit dst numBytes =>
      obtain ⟨-, -, tm, hm, rfl⟩ := masterSubmit_ok hc
      obtain ⟨hthere, hroom⟩ := hkeeps
      rcases submitAllocatedTxPacket_ok hm with ⟨-, hlate, -⟩ | ⟨i, q, ha, -, -, -, htable, hadd, rfl⟩
      · exact absurd hlate hthere
      · rw [MasterCall.submits_submit ha]
        refine ⟨g.submit i dst, ⟨h.outbox.submit ha htable hadd hroom, fun d hd => ?_, h.unheard⟩,
          fun d c htalks => ?_⟩
        · have hne : d ≠ dst := fun heq => hthere (heq ▸ hd)
          rw [Function.update_of_ne hne]
          exact h.absent d hd
        · by_cases hd : d = dst
          · subst hd
            exact ⟨_, htalks.submit (h.outbox.length d) (h.outbox.room_of_incr hroom) i _, rfl, rfl, rfl⟩
          · exact ⟨c, htalks.congr ⟨rfl, rfl, Function.update_of_ne hd _ _⟩ (Function.update_of_ne hd _ _),
              rfl, rfl, rfl⟩
  | peek =>
      obtain ⟨⟨r, m⟩, hpeek, hc⟩ := bind_eq_ok.mp hc
      cases hc
      obtain ⟨rpm, rfl, -⟩ := masterPeek_ok hpeek
      exact hsame ⟨h.outbox, h.absent, h.unheard⟩ fun _ => rfl
  | pop =>
      obtain ⟨rpm, rfl, -⟩ := masterPop_ok hc
      exact hsame ⟨h.outbox, h.absent, h.unheard⟩ fun _ => rfl
  | getConnectedNodes =>
      obtain ⟨⟨m, bits⟩, hget, hc⟩ := bind_eq_ok.mp hc
      cases hc
      obtain rfl := getConnectedNodesBitField_ok hget
      refine hsame ⟨h.outbox, fun d hd => h.absent d ?_, h.unheard⟩ fun _ => rfl
      have hd : Function.update master.masterNodeTimeToLive 0 1 d = 0 := hd
      by_cases hmaster : d = 0
      · rw [hmaster, Function.update_self] at hd
        exact absurd hd (by decide)
      · rw [Function.update_of_ne hmaster] at hd
        exact hd
  | resetTxCredits =>
      cases hc
      exact hsame ⟨h.outbox.clearBuffers hkeeps, h.absent, h.unheard⟩ fun _ => rfl

end Call

section Slot

variable {master master' : Master} {crcError : Bool}

/-- Once a node is heard its request has left the table of new nodes. -/
theorem masterRecordHeard_forgets {nw nw' : NetworkManager} {ttl ttl' : TimeToLive} {frame : Packet}
    (hmembers : Members nw ttl) (hnode : frame.fromNode) (h : masterRecordHeard nw ttl frame = .ok (nw', ttl')) :
    ∀ e ∈ nw'.newNodes, e.2 ≠ frame.srcNodeId := by
  unfold masterRecordHeard at h
  rw [if_pos (show _ ∨ _ from hnode)] at h
  obtain ⟨_, -, h⟩ := bind_eq_ok.mp h
  split at h
  · unfold networkManagerRecordRxPacket at h
    obtain ⟨_, -, h⟩ := bind_eq_ok.mp h
    obtain ⟨⟨found, nw₁⟩, hremove, h⟩ := bind_eq_ok.mp h
    cases h
    intro e he hsrc
    have hthere := ((hmembers.remove hremove).there e he).2
    rw [hsrc, Function.update_self] at hthere
    exact hthere rfl
  · rename_i hzero
    cases h
    exact fun e he hsrc => hzero (Nat.pos_of_ne_zero (hsrc ▸ (hmembers.there e he).2))

/-- The frame that is kept is the one that arrived, and its node is no new node. -/
theorem masterQuickRx_heard (hmembers : Members master.nwManager master.masterNodeTimeToLive)
    (h : masterQuickRx master crcError = .ok master') : ∀ p ∈ master'.heard,
      p = master.rx.packetAt master.rx.nextRxPacketEntry ∧ masterAcceptsFrame p crcError ∧
        (p.fromNode → ∀ e ∈ master'.nwManager.newNodes, e.2 ≠ p.srcNodeId) := by
  obtain ⟨⟨rx, nw, m, ttl⟩, hquick, h⟩ := bind_eq_ok.mp h
  cases h
  unfold masterQuickProcessPrevRx at hquick
  dsimp only at hquick
  split at hquick
  · cases hquick
    exact nofun
  · rename_i haccept
    rw [not_not] at haccept
    obtain ⟨⟨nw₁, ttl₁⟩, hrecord, hquick⟩ := bind_eq_ok.mp hquick
    have hkept : ∀ {rpm : RxPacketManager} {free : Nat} {valid : Bool} {p : Packet},
        findFreeRxPacket master.rx.rxPacketManager = some (free, rpm) →
        p ∈ ({ master with rx := ⟨rpm, free, some master.rx.nextRxPacketEntry, true, valid⟩, nwManager :=
          nw₁ } : Master).heard →
        p = master.rx.packetAt master.rx.nextRxPacketEntry ∧ masterAcceptsFrame p crcError ∧
          (p.fromNode → ∀ e ∈ nw₁.newNodes, e.2 ≠ p.srcNodeId) := by
      intro rpm free valid p hfind hp
      obtain rfl : (rpm.rxPacketEntries master.rx.nextRxPacketEntry).packet = p := Option.some.inj hp
      rw [packetAt_findFree hfind]
      exact ⟨rfl, haccept, fun hnode => masterRecordHeard_forgets hmembers hnode hrecord⟩
    dsimp only at hquick
    split at hquick
    · cases hquick
      exact nofun
    · rename_i e rpm hfind
      split at hquick
      · obtain ⟨⟨valid, m₁⟩, -, hquick⟩ := bind_eq_ok.mp hquick
        cases hquick
        exact fun p hp => hkept hfind hp
      · cases hquick
        exact fun p hp => hkept hfind hp

section Quick

variable {m₁ m₂ : Master} {stray : TNodeIndex → UInt8}

theorem preProcess_timeToLive (hschedule : masterUpdateSchedule master = .ok m₁)
    (hquick : masterQuickRx m₁ crcError = .ok m₂)
    (d : TNodeIndex) : (masterQuickTx m₂ stray).masterNodeTimeToLive d = 0 ↔ master.masterNodeTimeToLive d = 0 := by
  obtain ⟨_, _, _, _, -, -, rfl⟩ := masterUpdateSchedule_ok hschedule
  obtain ⟨_, _, _, _, rfl, -, hheard, -⟩ := masterQuickRx_ok hquick
  exact CleanInv.heard_zero_iff hheard d

theorem preProcess_heard {m : Master} (hmembers : Members m.nwManager m.masterNodeTimeToLive) {received : Packet}
    {crcError : Bool} {stray : TNodeIndex → UInt8} {frame : Option Packet}
    (hpre : masterDualChannelPipelinedPreProcess (m.receive received) crcError stray = .ok (master', frame)) :
    ∀ p ∈ master'.heard, p = received ∧ masterAcceptsFrame p crcError ∧
      (p.fromNode → ∀ e ∈ master'.nwManager.newNodes, e.2 ≠ p.srcNodeId) := by
  obtain ⟨m₁, m₂, h₁, h₂, rfl⟩ := preProcess_ok hpre
  have hmembers' : Members (m.receive received).nwManager (m.receive received).masterNodeTimeToLive := hmembers
  have hheard := masterQuickRx_heard (keptByNetwork_members.updateSchedule hmembers' h₁) h₂
  have hpacket : m₁.rx.packetAt m₁.rx.nextRxPacketEntry = received := by
    rw [masterUpdateSchedule_rx h₁]
    exact RxPacketManager.packet_receive _ _
  rw [hpacket] at hheard
  obtain ⟨tx, heq, -⟩ := masterQuickTx_eq m₂ stray
  rw [heq]
  exact hheard

theorem Master.Posts.preProcess (h : master.Posts g submitted) (hschedule : masterUpdateSchedule master = .ok m₁)
    (hquick : masterQuickRx m₁ crcError = .ok m₂) : (masterQuickTx m₂ stray).Posts g submitted := by
  obtain ⟨hquiet₁, -⟩ := masterUpdateSchedule_quiet hschedule
  obtain ⟨hquiet₂, -, -⟩ := masterQuickRx_quiet hquick
  refine ⟨((h.outbox.quiet hquiet₁).quiet hquiet₂).quiet (masterQuickTx_quiet m₂ stray),
    fun d hd => h.absent d ((preProcess_timeToLive hschedule hquick d).mp hd), fun e he => h.unheard e ?_⟩
  obtain ⟨_, _, _, _, -, -, rfl⟩ := masterUpdateSchedule_ok hschedule
  obtain ⟨_, _, _, _, rfl, hanswered, -, -⟩ := masterQuickRx_ok hquick
  exact hanswered.newNodes_subset he

end Quick

/-- What was submitted to the ids that are still taken. -/
def Master.stillSubmitted (master : Master) (submitted : TNodeIndex → List Payload) (d : TNodeIndex) : List Payload :=
  if master.masterNodeTimeToLive d = 0 then [] else submitted d

/-- A slot of the dual channel: the frame that waits is worked through, and the next frame is sent. -/
structure Master.PostsSlot (master master' : Master) (g g' : Ledger) (submitted : TNodeIndex → List Payload)
    (frame : Option Packet) : Prop where
  posts : master'.Posts g' (master'.stillSubmitted submitted)
  known : ∀ d, master'.masterNodeTimeToLive d ≠ 0 → ∀ q ∈ dataTo d frame, ∃ a, q.1 = seq a ∧
    (submitted d)[a]? = some q.2
  talks : ∀ d, master'.masterNodeTimeToLive d ≠ 0 → ∀ c later, Talks g submitted d c →
    c.acks.map ackOf = acksFrom d master.heard ++ later →
      ∃ c', Talks g' (master'.stillSubmitted submitted) d c' ∧ c'.delivered = c.delivered ∧
        c'.acks.map ackOf = later ∧
        c'.data.map wire = c.data.map wire ++ dataTo d frame

theorem Master.Posts.dualSlot (h : master.Posts g submitted) (hf : ¬ master.tx.txManager.FindsPending)
    (hremove : ¬ master.RemovesPending)
    (hnew : ∀ p ∈ master.heard, p.fromNode → ∀ e ∈ master.nwManager.newNodes, e.2 ≠ p.srcNodeId)
    {k : Nat} {m : Master} {received : Packet} {stray : TNodeIndex → UInt8} {frame : Option Packet}
    (hpost : masterDualChannelPipelinedPostProcess master = .ok (k, m))
    (hpre : masterDualChannelPipelinedPreProcess (m.receive received) crcError stray = .ok (master', frame)) :
    ∃ g', master.PostsSlot master' g g' submitted frame := by
  obtain ⟨m₁, m₂, k₁, k₂, h₁, h₂, h₃⟩ := postProcess_ok hpost
  obtain ⟨m₃, h₄, hpre⟩ := bind_eq_ok.mp hpre
  obtain ⟨m₄, h₅, hpre⟩ := bind_eq_ok.mp hpre
  cases hpre
  obtain ⟨g₁, hposts₁, hu, hacked⟩ := h.rx hf hnew h₁
  obtain ⟨g₂, r, hposts₂, hr, hsent⟩ := hposts₁.tx hu h₂
  have hpart := (TxPart.rx h₁).trans (TxPart.tx h₂)
  obtain ⟨g₃, submitted₃, hposts₃, hkept⟩ :=
    hposts₂.removeAny (fun hc => hremove (hpart.removesPending hc)) h₃
  have httl : ∀ d, (masterQuickTx m₄ stray).masterNodeTimeToLive d = 0 ↔ m.masterNodeTimeToLive d = 0 := by
    intro d
    exact (preProcess_timeToLive h₄ h₅ d).trans Iff.rfl
  have hreceived : (m.receive received).Posts g₃ submitted₃ :=
    ⟨hposts₃.outbox, hposts₃.absent, hposts₃.unheard⟩
  have hposts₄ : (masterQuickTx m₄ stray).Posts g₃ submitted₃ := hreceived.preProcess h₄ h₅
  have hstill : (masterQuickTx m₄ stray).stillSubmitted submitted = submitted₃ := by
    funext d
    unfold Master.stillSubmitted
    split
    · rename_i hd
      exact (hposts₄.absent d hd).symm
    · rename_i hd
      exact (hkept d fun hc => hd ((httl d).mpr hc)).2.symm
  have hframe : ∃ p, masterTxGetNextTxPacket (masterQuickTx m₄ stray).tx = some p ∧
    (m₂.tx.deref r).SameMessage true p := by
    have hreceive : m.SameFrames (m.receive received) := .of_packets rfl fun _ => rfl
    have hsame := ((masterRemoveAny_frames h₃).trans hreceive).trans
      ((masterUpdateSchedule_frames h₄).trans (masterQuickRx_frames h₅))
    refine ⟨_, masterQuickTx_frame (hsame.nextTxPacket.trans hr) stray, ?_⟩
    rw [hsame.deref]
    exact fillSchedule_sameMessage _ _ _ _ _
  obtain ⟨p, hframe, hp⟩ := hframe
  rw [hframe]
  have hsent := hsent.congr hp
  refine ⟨g₃, hstill ▸ hposts₄, fun d _ => hsent.known d, fun d hd c later hc hacks => ?_⟩
  obtain ⟨c₁, hc₁, hdelivered₁, hdata₁, hacks₁⟩ := hacked d c later hc hacks
  obtain ⟨c₂, hc₂, hdelivered₂, hacks₂, hdata₂⟩ := hsent.talks d c₁ hc₁
  obtain ⟨hg, hs⟩ := hkept d fun hc => hd ((httl d).mpr hc)
  rw [hstill]
  exact ⟨c₂, hc₂.congr hg hs, hdelivered₂.trans hdelivered₁,
    by rw [hacks₂, hacks₁], by rw [hdata₂, hdata₁]⟩

end Slot

end Microbus
