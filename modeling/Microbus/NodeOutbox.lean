import Microbus.NodeReplies
import Microbus.DualChannel

/-! What a node keeps for the master: the packets that its application submitted, and how far the conversation
has come. -/
namespace Microbus

open Transition GoBackN

/-- A data packet of a node that has the id `d`, with the number `q`. -/
structure Packet.IsDataFrom (p : Packet) (d : TNodeIndex) (q : UInt8) (x : Payload) : Prop where
  type : p.getPacketType = some .nodeData
  src : p.srcNodeId = d
  txSeqNum : p.txSeqNum = q
  payload : p.payload = x

/-- The live entries of a node hold the packets that were submitted. -/
structure NodeOutbox (m : TxManager) (g : Ledger) (submitted : List Payload) : Prop where
  sender : SenderInv false m g
  queue : m.activeTxNodes = none
  table : m.maxTxNodes = 1
  length : submitted.length = g.stop masterNodeId
  held : ∀ i, m.Live i → submitted[(g.owner i).2]? = some (m.entry i).packet.payload
  isData : ∀ i, m.Live i → (m.entry i).packet.getPacketType = some .nodeData

namespace NodeOutbox

variable {m m' : TxManager} {g g' : Ledger} {submitted : List Payload}

theorem shrink (h : NodeOutbox m g submitted) (hsender : SenderInv false m' g') (hqueue : m'.activeTxNodes = none)
    (htable : m'.maxTxNodes = 1) (hstop : g'.stop = g.stop) (howner : g'.owner = g.owner)
    (hlive : ∀ i, m'.Live i → m.Live i ∧ (m.entry i).packet.SameMessage false (m'.entry i).packet) :
    NodeOutbox m' g' submitted where
  sender := hsender
  queue := hqueue
  table := htable
  length := by rw [hstop, h.length]
  held i hi := by
    obtain ⟨hl, hsame⟩ := hlive i hi
    rw [howner, h.held i hl, hsame.payload]
  isData i hi := by
    obtain ⟨hl, hsame⟩ := hlive i hi
    rw [hsame.getPacketType, h.isData i hl]

theorem touched (h : NodeOutbox m g submitted) (t : Touched false m m') (hqueue : m'.activeTxNodes = m.activeTxNodes)
    (hmessage : ∀ i, (m.entry i).packet.SameMessage false (m'.entry i).packet) : NodeOutbox m' g submitted :=
  h.shrink (h.sender.touched t hqueue) (hqueue.trans h.queue) (t.maxTxNodes.trans h.table) rfl rfl
    fun i hi => ⟨(t.live i).mp hi, hmessage i⟩

theorem setPacket (h : NodeOutbox m g submitted) {i : Nat} {p : Packet}
    (hsame : (m.entry i).packet.SameMessage false p) :
    NodeOutbox { m with packetStore := m.packetStore.setPacket i p } g submitted := by
  refine h.touched (.setPacket m i p (Prod.ext rfl hsame.txSeqNum)) rfl fun j => ?_
  change (m.entry j).packet.SameMessage false ((m.packetStore.setPacket i p).entries j).packet
  rw [entry_setPacket]
  split
  · rename_i hij
    rw [hij]
    exact hsame
  · exact .refl false _

theorem withRxSeqNum (h : NodeOutbox m g submitted) (rxSeqNum : TNodeIndex → UInt8) :
    NodeOutbox (m.withRxSeqNum rxSeqNum) g submitted :=
  h.touched (touched_withRxSeqNum m rxSeqNum) rfl fun _ => .refl false _

theorem owner_eq (h : NodeOutbox m g submitted) {i : Nat} (hi : m.Live i) : g.owner i = (masterNodeId, (g.owner i).2) :=
  Prod.ext (congrArg Prod.fst (h.sender.store.owner_key i hi)).symm rfl

theorem buffered (h : NodeOutbox m g submitted) {k : Nat} {x : Payload} (hk : g.start masterNodeId ≤ k)
    (hx : submitted[k]? = some x) :
    ∃ i, m.Live i ∧ (m.entry i).packet.getPacketType = some .nodeData ∧ (m.entry i).packet.txSeqNum = seq k ∧
      (m.entry i).packet.payload = x := by
  have hstop := (List.getElem?_eq_some_iff.mp hx).1
  rw [h.length] at hstop
  obtain ⟨i, hlive, howner⟩ := h.sender.store.owner_surj _ k hk hstop
  have hkey := h.sender.store.owner_key i hlive
  have hheld := h.held i hlive
  rw [howner] at hkey hheld
  rw [hheld] at hx
  exact ⟨i, hlive, h.isData i hlive, congrArg Prod.snd hkey, Option.some.inj hx⟩

theorem masterNodeId_lt (h : NodeOutbox m g submitted) : masterNodeId.toNat < m.maxTxNodes := by
  rw [h.table]
  decide

theorem init {maxEntries : UInt8} (hsize : maxEntries.toNat ≤ 254) (entries : Nat → PacketEntry) :
    NodeOutbox (initTxManager 1 none maxEntries entries) Ledger.zero [] where
  sender := senderInv_init hsize nofun
  queue := rfl
  table := rfl
  length := rfl
  held i hi := absurd hi (not_live_init i)
  isData i hi := absurd hi (not_live_init i)

theorem ack (h : NodeOutbox m g submitted) {a : UInt8} {n : Nat}
    (hack : rxAckSeqNum m masterNodeId a false = .ok (n, m')) :
    ∃ g', NodeOutbox m' g' submitted ∧ AckResult false m g masterNodeId a m' g' := by
  obtain ⟨n', m'', g', hack', hresult⟩ := h.sender.rxAck a fun _ => ⟨h.masterNodeId_lt, fun _ => rfl⟩
  rw [hack] at hack'
  cases hack'
  have hpackets := rxAckSeqNum_packets hack
  have hkept : SenderInv false m' g' ∧ m'.activeTxNodes = none := by
    cases hresult with
    | null _ => exact ⟨h.sender, h.queue⟩
    | missed _ _ => exact ⟨h.sender.missAck, (missAck_activeTxNodes m masterNodeId).trans h.queue⟩
    | valid hs he _ _ hrel =>
        refine ⟨h.sender.acknowledge hs he hrel, ?_⟩
        unfold TxManager.acknowledge queueAfterAck
        rw [if_neg fun hc => Bool.noConfusion hc.2]
        exact h.queue
  refine ⟨g', h.shrink hkept.1 hkept.2 (hpackets.maxTxNodes.trans h.table) hresult.stop hresult.owner
    fun i hi => ?_, hresult⟩
  obtain ⟨hl, hp⟩ := hresult.live hi
  exact ⟨hl, hp ▸ .refl false _⟩

theorem choose {node : Node} (h : NodeOutbox node.txManager g submitted) {r : Option Nat}
    (hget : nodeGetNextTxDataPacket node.txManager = .ok (r, m')) :
    ∃ g', NodeOutbox m' g' submitted ∧
      ((r = none ∧ g' = g) ∨ ∃ i x, r = some i ∧ g' = g.advance masterNodeId ∧ m'.Live i ∧
      g'.owner i = (masterNodeId, g.next masterNodeId) ∧ submitted[g.next masterNodeId]? = some x) := by
  have hmessage : ∀ i, (node.txManager.entry i).packet.SameMessage false (m'.entry i).packet := by
    intro i
    by_cases hi : r = some i
    · subst hi
      rw [(nodeGetNext_some hget).1]
      exact ⟨rfl, rfl, rfl, rfl, rfl, rfl⟩
    · rw [nodeGetNext_entry hget hi]
      exact .refl false _
  obtain ⟨hlive, -, htable, hsends⟩ := h.sender.nodeGetNext hget
  have hqueue := (SenderInv.nodeGetNext_activeTxNodes hget).trans h.queue
  have hstays : ∀ i, m'.Live i → node.txManager.Live i ∧
    (node.txManager.entry i).packet.SameMessage false (m'.entry i).packet :=
    fun i hi => ⟨(hlive i).mp hi, hmessage i⟩
  rcases hsends with ⟨hr, hsender⟩ | ⟨i, d, hr, hl, howner, -, hsender⟩
  · exact ⟨g, h.shrink hsender hqueue (htable.trans h.table) rfl rfl hstays, Or.inl ⟨hr, rfl⟩⟩
  · obtain rfl : masterNodeId = d := congrArg Prod.fst ((h.owner_eq hl).symm.trans howner)
    have hheld := h.held i hl
    rw [howner] at hheld
    exact ⟨_, h.shrink hsender hqueue (htable.trans h.table) rfl rfl hstays,
      Or.inr ⟨i, _, hr, rfl, (hlive i).mpr hl, howner, hheld⟩⟩

theorem allocate (h : NodeOutbox m g submitted) {r : Option Nat} (ha : allocateTxPacket m = .ok (r, m')) :
    NodeOutbox m' g submitted ∧ (∀ i, m'.Live i ↔ m.Live i) ∧
    ∀ i, (m'.entry i).packet = (m.entry i).packet := by
  rcases h.sender.allocate ha fun _ => h.queue with ⟨-, rfl⟩ | ⟨u, -, hfree, hnone, rfl, hsender⟩
  · exact ⟨h, fun _ => Iff.rfl, fun _ => rfl⟩
  · have hlive := live_allocate hfree hnone
    have hpacket : ∀ i, (({ m.takeEntry u with allocatedPacket := some u } : TxManager).entry i).packet =
      (m.entry i).packet := by
      intro i
      change ((m.takeEntry u).entry i).packet = _
      rw [TxManager.entry_takeEntry]
      split
      · rename_i hiu
        rw [hiu]
      · rfl
    exact ⟨h.shrink hsender h.queue h.table rfl rfl fun i hi => ⟨(hlive i).mp hi, hpacket i ▸ .refl false _⟩,
      hlive, hpacket⟩

theorem write (h : NodeOutbox m g submitted) (data : PacketData) :
    NodeOutbox (writeAllocatedPacket m data) g submitted := by
  have ht : Touched false m (writeAllocatedPacket m data) := touched_write m data
  have hqueue := activeTxNodes_write m data
  refine h.shrink (h.sender.touched ht hqueue) (hqueue.trans h.queue) (ht.maxTxNodes.trans h.table) rfl
    rfl fun i hi => ?_
  have hl := (ht.live i).mp hi
  rw [entry_write hl.notAllocated]
  exact ⟨hl, .refl false _⟩

theorem room (h : NodeOutbox m g submitted) {i : Nat} (ha : m.allocatedPacket = some i) :
    g.stop masterNodeId < g.start masterNodeId + 254 :=
  (h.sender.store.window_lt_of_allocated ha masterNodeId).trans_le (Nat.add_le_add_left h.sender.size _)

theorem submit (h : NodeOutbox m g submitted) {i : Nat} {src : TNodeIndex} {size : UInt16} {q : Option NodeQueue}
    (ha : m.allocatedPacket = some i) (hadd : addActiveTxNode m false masterNodeId = .ok q) :
    NodeOutbox
    (m.submitEntry i (fillHeader (m.entry i).packet false src masterNodeId .nodeData size (m.txSeqNumEnd masterNodeId))
      masterNodeId q) (g.submit i masterNodeId) (submitted ++ [⟨size.toNat, (m.entry i).packet.data⟩]) := by
  have hpend := h.sender.store.allocated i ha
  refine ⟨h.sender.submit ha h.masterNodeId_lt nofun (key_fillHeader fun _ => rfl) hadd,
    (addActiveTxNode_node hadd).trans h.queue,
    h.table, ?_, fun j hj => ?_, fun j hj => ?_⟩
  · simp only [Ledger.submit, Function.update_self, List.length_append, List.length_cons, List.length_nil, h.length]
  · rw [entry_submit]
    rcases (live_submit ha hpend j).mp hj with rfl | hl
    · simp only [Ledger.submit, Function.update_self, if_true, payload_fillHeader, ← h.length]
      exact List.getElem?_concat_length
    · have hne : j ≠ i := fun hc => hl.notAllocated (hc ▸ ha)
      have hheld := h.held j hl
      simp only [Ledger.submit]
      rw [Function.update_of_ne hne, if_neg hne,
        List.getElem?_append_left (List.getElem?_eq_some_iff.mp hheld).1, hheld]
  · rw [entry_submit]
    rcases (live_submit ha hpend j).mp hj with rfl | hl
    · rw [if_pos rfl]
      exact (@filledAs_fillHeader false _ _ _ _ _ (m.entry j).packet).isType.type
    · rw [if_neg (show j ≠ i from fun hc => hl.notAllocated (hc ▸ ha))]
      exact h.isData j hl

end NodeOutbox

def dataFrom (d : TNodeIndex) : Option Packet → List (UInt8 × Payload)
  | none => []
  | some p => if p.getPacketType = some .nodeData ∧ p.srcNodeId = d then [(p.txSeqNum, p.payload)] else []

theorem dataFrom_eq_nil {d : TNodeIndex} {frame : Option Packet}
    (h : ∀ p ∈ frame, p.getPacketType = some .nodeData → p.srcNodeId ≠ d) : dataFrom d frame = [] := by
  cases frame with
  | none => rfl
  | some p => exact if_neg fun hc => h p rfl hc.1 hc.2

def Node.savedAcks (node : Node) : List UInt8 := if node.savedRxAckValid then [node.savedRxAck] else []

/-- What a node has for the master. Without an id it has nothing. -/
structure Node.Posts (node : Node) (g : Ledger) (submitted : List Payload) : Prop where
  outbox : NodeOutbox node.txManager g submitted
  headers : ∀ j, (node.tmpEmptyPacketHeader j).getPacketType ≠ some .nodeData
  idle : node.nodeId = unallocatedNodeId → submitted = [] ∧ node.savedAcks = []

/-- The data frame that the node is to send next: its packet waits in the store, or is acknowledged. -/
inductive Node.Pends (node : Node) (g : Ledger) : List (Nat × Payload) → Prop
  | nothing : (∀ i, node.nextTxPacket ≠ some (.entry i)) → node.Pends g []
  | packet {i a x} : node.nextTxPacket = some (.entry i) →
      (node.txManager.entry i).packet.getPacketType = some .nodeData →
      (node.txManager.entry i).packet.txSeqNum = seq a →
      (a < g.start masterNodeId ∨ (node.txManager.Live i ∧ g.owner i = (masterNodeId, a))) → node.Pends g [(a, x)]

/-- What the node knows of its conversation with the master. The messages of `flying` have left it, and behind
them comes the frame that it is to send next. -/
structure Node.Converses (node : Node) (g : Ledger) (submitted : List Payload) (flying : List (Nat × Payload))
    (c : Conversation Payload) : Prop where
  talks : Talks g (fun _ => submitted) masterNodeId c
  pending : ∃ pending, c.data = flying ++ pending ∧ node.Pends g pending

namespace Node

variable {node node' : Node} {g g' : Ledger} {submitted : List Payload} {flying : List (Nat × Payload)}
  {c : Conversation Payload}

theorem savedAcks_of_invalid (h : node.savedRxAckValid = false) : node.savedAcks = [] := by
  unfold savedAcks
  rw [h]
  rfl

theorem savedAcks_of_eq {a : UInt8} (h : ∀ b ∈ node.savedAcks, b = a) :
    node.savedAcks = [] ∨ [a] = node.savedAcks := by
  unfold savedAcks at h ⊢
  split
  · rename_i hsaved
    rw [if_pos hsaved] at h
    exact Or.inr (congrArg (fun b => [b]) (h _ (List.mem_singleton_self _)).symm)
  · exact Or.inl rfl

theorem Posts.congr (h : node.Posts g submitted) (htx : node'.txManager = node.txManager)
    (hheader : node'.tmpEmptyPacketHeader = node.tmpEmptyPacketHeader)
    (hidle : node'.nodeId = unallocatedNodeId → submitted = [] ∧ node'.savedAcks = []) : node'.Posts g submitted :=
  ⟨htx ▸ h.outbox, hheader ▸ h.headers, hidle⟩

theorem Pends.congr {pending : List (Nat × Payload)} (h : node.Pends g pending)
    (hnext : node'.nextTxPacket = node.nextTxPacket)
    (hmessage : ∀ i, (node'.txManager.entry i).packet.getPacketType =
      (node.txManager.entry i).packet.getPacketType ∧
      (node'.txManager.entry i).packet.txSeqNum = (node.txManager.entry i).packet.txSeqNum)
    (hstart : g.start masterNodeId ≤ g'.start masterNodeId)
    (hlive : ∀ i a, node.txManager.Live i → g.owner i = (masterNodeId, a) →
      a < g'.start masterNodeId ∨
        (node'.txManager.Live i ∧ g'.owner i = (masterNodeId, a))) : node'.Pends g' pending := by
  cases h with
  | nothing hnone => exact .nothing fun i => hnext ▸ hnone i
  | @packet i a x hr htype hseq hwaits =>
      obtain ⟨htype', hseq'⟩ := hmessage i
      refine .packet (hnext.trans hr) (htype'.trans htype) (hseq'.trans hseq) ?_
      rcases hwaits with hlt | ⟨hl, howner⟩
      · exact Or.inl (hlt.trans_le hstart)
      · exact hlive i a hl howner

theorem Converses.congr (h : node.Converses g submitted flying c) (hnext : node'.nextTxPacket = node.nextTxPacket)
    {rxSeqNum : TNodeIndex → UInt8} (htx : node'.txManager = node.txManager.withRxSeqNum rxSeqNum) :
    node'.Converses g submitted flying c where
  talks := h.talks
  pending := by
    obtain ⟨pending, hdata, hpends⟩ := h.pending
    refine ⟨pending, hdata, hpends.congr hnext (fun i => ?_) (Nat.le_refl _) fun i a hl howner =>
      Or.inr ⟨?_, howner⟩⟩
    · rw [htx]
      exact ⟨rfl, rfl⟩
    · rw [htx]
      exact ⟨hl.lt, hl.inUse, hl.notAllocated⟩

theorem Converses.hear (h : node.Converses g submitted flying c) {acks : List UInt8}
    (hacks : acks = [] ∨ c.acks.map ackOf = acks) :
    ∃ c', node.Converses g submitted flying c' ∧ c'.delivered = c.delivered ∧ c'.acks.map ackOf = acks := by
  obtain ⟨c', htalks, hdelivered, hdata, hacks'⟩ := h.talks.hear hacks
  exact ⟨c', ⟨htalks, hdata ▸ h.pending⟩, hdelivered, hacks'⟩

theorem Converses.refuse {sent : List (Nat × Payload)} (h : node.Converses g submitted (flying ++ sent) c) :
    ∃ c', node.Converses g submitted sent c' ∧ c'.delivered = c.delivered ∧ c'.acks = c.acks := by
  obtain ⟨pending, hdata, hpends⟩ := h.pending
  rw [List.append_assoc] at hdata
  have hsub : List.Sublist (sent ++ pending) c.data := hdata ▸ List.sublist_append_right flying _
  have hinv := h.talks.inv.lose hsub (List.Sublist.refl c.acks)
  exact ⟨c.lose (sent ++ pending) c.acks,
    ⟨⟨hinv, h.talks.submitted, h.talks.start, h.talks.next⟩, pending, rfl, hpends⟩, rfl, rfl⟩

/-- The frame at the head has the number that is expected: it carries the next packet. -/
theorem Converses.deliver {p : Nat × Payload} {sent : List (Nat × Payload)}
    (h : node.Converses g submitted (p :: sent) c)
    {q : UInt8} {x : Payload} (hframe : q = seq p.1 ∧ (p.1 < g.start masterNodeId ∨ x = p.2))
    (hnext : q = seq c.delivered.length) :
    ∃ c', node.Converses g submitted sent c' ∧ c'.delivered = c.delivered ++ [x] ∧ c'.acks = c.acks := by
  obtain ⟨pending, hdata, hpends⟩ := h.pending
  rw [← h.talks.start] at hframe
  obtain rfl := h.talks.inv.framed_next (by decide) (fun _ _ => seq_eq_iff) hdata hframe hnext
  rw [List.cons_append] at hdata
  have hnumber : c.delivered.length = (c.lose (sent ++ pending) c.acks).delivered.length := rfl
  have hinv := h.talks.inv.deliver hdata
  rw [Conversation.deliver, if_pos hnumber] at hinv
  exact ⟨_, ⟨⟨hinv, h.talks.submitted, h.talks.start, h.talks.next⟩, pending, rfl, hpends⟩, rfl, rfl⟩

theorem Converses.sendAck (h : node.Converses g submitted flying c) : node.Converses g submitted flying c.sendAck :=
  ⟨⟨h.talks.inv.sendAck, h.talks.submitted, h.talks.start, h.talks.next⟩, h.pending⟩

theorem Blank.posts (h : node.Blank) (hsize : node.txManager.size ≤ 254) : node.Posts Ledger.zero [] where
  outbox := by
    obtain ⟨maxEntries, entries, htx⟩ := h.fresh.tx
    rw [htx] at hsize ⊢
    exact .init hsize entries
  headers j := by
    rw [h.tmpEmptyPacketHeader]
    exact (by decide : Packet.zero.getPacketType ≠ some .nodeData)
  idle _ := ⟨rfl, savedAcks_of_invalid h.fresh.savedRxAckValid⟩

theorem Posts.begin (h : node.Posts g submitted) (hlabelled : node.Labelled) (hid : node.nodeId = unallocatedNodeId) :
    node.Converses g submitted [] Conversation.initial.sendAck := by
  obtain ⟨rfl, -⟩ := h.idle hid
  have hstop : 0 = g.stop masterNodeId := h.outbox.length
  have hnext := h.outbox.sender.store.next_le_stop masterNodeId
  have hstart := h.outbox.sender.store.start_le_next masterNodeId
  refine ⟨⟨(Conversation.inv_initial 254).sendAck, rfl, ?_, ?_⟩, [], rfl, .nothing fun i hi => ?_⟩
  · change 0 = g.start masterNodeId
    omega
  · change 0 = g.next masterNodeId
    omega
  · exact (hlabelled.next _ hi (fun hc => TxRef.noConfusion hc)).1 hid

end Node

section Node

variable {node node' : Node} {g : Ledger} {submitted : List Payload}

theorem nodeInit_size {uniqueId : UInt64} {maxTx maxRx : UInt8} {entries : Nat → PacketEntry}
    (h : nodeInit uniqueId maxTx entries maxRx = .ok node) : node.txManager.size = maxTx.toNat := by
  obtain ⟨_, -, h⟩ := bind_eq_ok.mp h
  split at h
  · cases h
  · cases h
    rfl

theorem nodeReset_size (h : nodeReset node = .ok node') : node'.txManager.size = node.txManager.size := nodeInit_size h

theorem nodeRemoveFromNetwork_size (h : nodeRemoveFromNetwork node = .ok node') :
    node'.txManager.size = node.txManager.size := by
  unfold nodeRemoveFromNetwork at h
  split at h
  · obtain ⟨n, hreset, h⟩ := bind_eq_ok.mp h
    cases h
    have hsize := nodeReset_size hreset
    exact hsize
  · cases h
    rfl

theorem nodeCheckIfTimedOut_posts (h : node.Posts g submitted) (hc : nodeCheckIfTimedOut node = .ok node') :
    node' = node ∨ (node'.Blank ∧ node'.Posts Ledger.zero []) := by
  rcases nodeCheckIfTimedOut_cases hc with ⟨-, hsame⟩ | ⟨-, hblank, -⟩
  · exact Or.inl hsame
  · refine Or.inr ⟨hblank, hblank.posts ?_⟩
    unfold nodeCheckIfTimedOut at hc
    split at hc
    · rw [nodeRemoveFromNetwork_size hc]
      exact h.outbox.sender.size
    · cases hc
      exact h.outbox.sender.size

theorem nodeQuickRx_size (hinit : node.initialised = true) {crcError : Bool}
    (h : nodeQuickProcessPrevRx node crcError = .ok node') :
    node'.txManager.size = node.txManager.size := by
  cases nodeQuickProcessPrevRx_ok hinit h with
  | unread _ => rfl
  | reset _ _ hremove =>
      have hsize := nodeRemoveFromNetwork_size hremove
      exact hsize
  | dropped _ _ _ =>
      rw [nodeRecordSchedule_txManager]
      rfl
  | kept _ _ _ _ _ =>
      rw [nodeRecordSchedule_eq_ackIn]
      rfl
  | inOrder _ _ _ _ _ _ => rfl

/-- The quick part of reception starts the node anew, or leaves what it has for the master. -/
theorem nodeQuickRx_posts (h : node.Posts g submitted) (hinit : node.initialised = true) {crcError : Bool}
    (hq : nodeQuickProcessPrevRx node crcError = .ok node') : (node'.Blank ∧ node'.Posts Ledger.zero []) ∨
      (node'.nodeId = node.nodeId ∧ node'.Posts g submitted ∧
        ∀ flying c, node.Converses g submitted flying c → node'.Converses g submitted flying c) := by
  rcases nodeQuickProcessPrevRx_frames hinit hq with hblank | ⟨hsame, hid, rxSeqNum, htx⟩
  · refine Or.inl ⟨hblank, hblank.posts ?_⟩
    rw [nodeQuickRx_size hinit hq]
    exact h.outbox.sender.size
  · refine Or.inr ⟨hid, ⟨?_, ?_, fun hun => ?_⟩, fun flying c hc => hc.congr hsame.nextTxPacket htx⟩
    · rw [htx]
      exact h.outbox.withRxSeqNum rxSeqNum
    · rw [hsame.tmpEmptyPacketHeader]
      exact h.headers
    · refine ⟨(h.idle (hid ▸ hun)).1, Node.savedAcks_of_invalid (Bool.eq_false_iff.mpr fun hsaved => ?_)⟩
      obtain ⟨-, -, hjoined, -⟩ := nodeQuick_savedRxAck hinit hq hsaved
      exact hjoined (hid ▸ hun)

theorem AckResult.start_le {m m' : TxManager} {g' : Ledger} {isMaster : Bool} {d : TNodeIndex} {a : UInt8}
    (h : AckResult isMaster m g d a m' g') (x : TNodeIndex) : g.start x ≤ g'.start x := by
  cases h with
  | null _ => exact Nat.le_refl _
  | missed _ _ => rw [Ledger.missAck_start]
  | @valid k s hs _ _ _ _ =>
      by_cases hx : x = d
      · subst hx
        change g.start x ≤ Function.update g.start x (k + 1) x
        rw [Function.update_self]
        exact Nat.le_succ_of_le hs
      · exact Nat.le_of_eq (Function.update_of_ne hx _ _).symm

theorem nodeProcessRx_savedAcks (h : nodeProcessRx node = .ok node') : node'.savedAcks = node.savedAcks := by
  obtain ⟨m, -, hframe⟩ := nodeProcessRx_ok h
  rcases hframe with ⟨-, rfl⟩ | ⟨e, -, -, hresult⟩
  · rfl
  · cases hresult <;> rfl

theorem nodeProcessRx_posts (h : node.Posts g submitted) (hr : nodeProcessRx node = .ok node') :
    ∃ g', node'.Posts g' submitted ∧ g.start masterNodeId ≤ g'.start masterNodeId ∧
      ∀ flying c later, node.Converses g submitted flying c → c.acks.map ackOf = node.savedAcks ++ later →
        ∃ c', node'.Converses g' submitted flying c' ∧ c'.delivered = c.delivered ∧
          c'.acks.map ackOf = later := by
  obtain ⟨hsame, hid, -, hack⟩ := nodeProcessRx_frames hr
  have hheaders : ∀ j, (node'.tmpEmptyPacketHeader j).getPacketType ≠ some .nodeData := by
    rw [hsame.tmpEmptyPacketHeader]
    exact h.headers
  have hidle : node'.nodeId = unallocatedNodeId → submitted = [] ∧ node'.savedAcks = [] := by
    intro hun
    rw [nodeProcessRx_savedAcks hr]
    rcases hid with heq | ⟨hun', -⟩
    · exact h.idle (heq ▸ hun)
    · exact h.idle hun'
  rcases hack with ⟨hnone, htx⟩ | ⟨k, hsaved, hack⟩
  · refine ⟨g, ⟨htx ▸ h.outbox, hheaders, hidle⟩, Nat.le_refl _, fun flying c later hc hacks => ?_⟩
    rw [Node.savedAcks_of_invalid hnone, List.nil_append] at hacks
    exact ⟨c, hc.congr hsame.nextTxPacket (htx.trans rfl), rfl, hacks⟩
  · obtain ⟨g', houtbox, hresult⟩ := h.outbox.ack hack
    refine ⟨g', ⟨houtbox, hheaders, hidle⟩, hresult.start_le _, fun flying c later hc hacks => ?_⟩
    unfold Node.savedAcks at hacks
    rw [if_pos hsaved, List.singleton_append] at hacks
    obtain ⟨r, rest, hcacks, hhead, hrest⟩ := List.map_eq_cons_iff.mp hacks
    rw [← hhead] at hresult
    obtain ⟨c', htalks, hdelivered, hdata, hacks'⟩ := hc.talks.ack h.outbox.length hcacks hresult
    obtain ⟨pending, hpending, hpends⟩ := hc.pending
    have hpacket := (rxAckSeqNum_packets hack).packet
    refine ⟨c', ⟨htalks, pending, hdata.trans hpending, ?_⟩, hdelivered, by rw [hacks', hrest]⟩
    refine hpends.congr hsame.nextTxPacket (fun i => ?_) (hresult.start_le _) fun i a hl howner => ?_
    · rw [hpacket]
      exact ⟨rfl, rfl⟩
    · -- the window moved past the packet, or it still holds it
      rcases Nat.lt_or_ge a (g'.start masterNodeId) with hlt | hge
      · exact Or.inl hlt
      · have hstop := (h.outbox.sender.store.owner_mem i hl).2
        rw [howner, ← hresult.stop] at hstop
        obtain ⟨j, hj, hjowner⟩ := houtbox.sender.store.owner_surj masterNodeId a hge hstop
        have hji : j = i := by
          refine h.outbox.sender.store.owner_inj j i (hresult.live hj).1 hl ?_
          rw [← hresult.owner, hjowner, hresult.owner, howner]
        exact Or.inr ⟨hji ▸ hj, hji ▸ hjowner⟩

theorem Node.Pends.eq_nil {pending : List (Nat × Payload)} (h : node.Pends g pending)
    (hkeeps : ¬ node.keepsTxPacket) : pending = [] := by
  cases h with
  | nothing _ => rfl
  | packet hr htype _ _ => exact absurd ⟨_, hr, Or.inl htype⟩ hkeeps

/-- A node that has no frame to keep, and chooses no data frame, has nothing more to send. -/
theorem Node.Converses.chooseNone {flying : List (Nat × Payload)} {c : Conversation Payload}
    (h : node.Converses g submitted flying c)
    (hkeeps : ¬ node.keepsTxPacket) (hnone : ∀ i, node'.nextTxPacket ≠ some (.entry i)) :
    node'.Converses g submitted flying c := by
  obtain ⟨pending, hdata, hpends⟩ := h.pending
  rw [hpends.eq_nil hkeeps] at hdata
  exact ⟨h.talks, [], hdata, .nothing hnone⟩

/-- A node with an id takes the next packet of its window, or an empty frame. -/
theorem nodeProcessTxAllocated_posts (h : node.Posts g submitted) (hid : node.nodeId ≠ unallocatedNodeId)
    (hkeeps : ¬ node.keepsTxPacket) (ht : nodeProcessTxAllocated node = .ok node') :
    ∃ g', node'.Posts g' submitted ∧ g'.start = g.start ∧ ∀ flying c, node.Converses g submitted flying c →
      ∃ c', node'.Converses g' submitted flying c' ∧ c'.delivered = c.delivered ∧ c'.acks = c.acks := by
  unfold nodeProcessTxAllocated at ht
  obtain ⟨⟨r, m⟩, hget, ht⟩ := bind_eq_ok.mp ht
  obtain ⟨g', houtbox, hchoice⟩ := h.outbox.choose hget
  cases r with
  | none =>
      cases ht
      rcases hchoice with ⟨-, rfl⟩ | ⟨i, x, hi, -⟩
      · refine ⟨g', ⟨houtbox, ?_, fun hun => absurd hun hid⟩, rfl, fun flying c hc =>
          ⟨c, hc.chooseNone hkeeps fun i hr => ?_, rfl, rfl⟩⟩
        · refine (Function.forall_update_iff _ fun _ (p : Packet) => p.getPacketType ≠ some .nodeData).mpr
            ⟨?_, fun j _ => h.headers j⟩
          rw [(Packet.isType_of_byte (t := .nodeEmpty) rfl).type]
          decide
        · cases hr
      · cases hi
  | some e =>
      cases ht
      rcases hchoice with ⟨hnone, -⟩ | ⟨i, x, hi, rfl, hl, howner, hx⟩
      · cases hnone
      · cases hi
        have hsame : (m.entry e).packet.SameMessage false
            ((m.entry e).packet.setBufferLevel (getNumInTxBuffer m masterNodeId)) := ⟨rfl, rfl, rfl, rfl, rfl, rfl⟩
        have hentry :
          ((m.packetStore.setPacket e ((m.entry e).packet.setBufferLevel (getNumInTxBuffer m masterNodeId))).entries
            e).packet = (m.entry e).packet.setBufferLevel (getNumInTxBuffer m masterNodeId) := by
          rw [entry_setPacket, if_pos rfl]
        have hkey := houtbox.sender.store.owner_key e hl
        rw [howner] at hkey
        have hstored := houtbox.setPacket hsame
        refine ⟨_, ⟨hstored, h.headers, fun hun => absurd hun hid⟩, rfl, fun flying c hc => ?_⟩
        obtain ⟨pending, hdata, hpends⟩ := hc.pending
        rw [hpends.eq_nil hkeeps, List.append_nil] at hdata
        refine ⟨c.send x, ⟨hc.talks.send hx, [(c.next, x)], ?_, ?_⟩, rfl, rfl⟩
        · rw [Conversation.send, hdata]
        · refine .packet (i := e) rfl ?_ ?_ (Or.inr ⟨?_, ?_⟩)
          · exact (congrArg Packet.getPacketType hentry).trans (houtbox.isData e hl)
          · exact (congrArg Packet.txSeqNum hentry).trans
              ((congrArg Prod.snd hkey).trans (congrArg seq hc.talks.next.symm))
          · have t := @Touched.setPacket false m e
              ((m.entry e).packet.setBufferLevel (getNumInTxBuffer m masterNodeId))
              (Prod.ext rfl hsame.txSeqNum)
            exact (t.live e).mpr hl
          · rw [howner, hc.talks.next]

/-- A node without an id asks for one, or waits. -/
theorem nodeProcessTxUnallocated_posts (h : node.Posts g submitted) (hid : node.nodeId = unallocatedNodeId)
    (hkeeps : ¬ node.keepsTxPacket) : (nodeProcessTxUnallocated node).Posts g submitted ∧
      ∀ flying c, node.Converses g submitted flying c →
        (nodeProcessTxUnallocated node).Converses g submitted flying c := by
  have hsame : (nodeProcessTxUnallocated node).txManager = node.txManager ∧
      (nodeProcessTxUnallocated node).tmpEmptyPacketHeader = node.tmpEmptyPacketHeader ∧
      (nodeProcessTxUnallocated node).savedAcks = node.savedAcks ∧
      ∀ i, (nodeProcessTxUnallocated node).nextTxPacket ≠ some (.entry i) := by
    unfold nodeProcessTxUnallocated
    split
    · refine ⟨rfl, rfl, rfl, fun i hr => ?_⟩
      cases hr
    · refine ⟨rfl, rfl, rfl, fun i hr => ?_⟩
      cases hr
  obtain ⟨htx, hheader, hacks, hnone⟩ := hsame
  refine ⟨h.congr htx hheader fun _ => ?_, fun flying c hc => hc.chooseNone hkeeps hnone⟩
  rw [hacks]
  exact h.idle hid

theorem nodeProcessTx_posts (h : node.Posts g submitted) (ht : nodeProcessTx node = .ok node') :
    ∃ g', node'.Posts g' submitted ∧ g'.start = g.start ∧ ∀ flying c, node.Converses g submitted flying c →
      ∃ c', node'.Converses g' submitted flying c' ∧ c'.delivered = c.delivered ∧ c'.acks = c.acks := by
  unfold nodeProcessTx at ht
  split at ht
  · cases ht
    exact ⟨g, h, rfl, fun flying c hc => ⟨c, hc, rfl, rfl⟩⟩
  · rename_i hkeeps
    split at ht
    · rename_i hid
      exact nodeProcessTxAllocated_posts h hid hkeeps ht
    · rename_i hid
      cases ht
      obtain ⟨hposts, hconverses⟩ := nodeProcessTxUnallocated_posts h (not_not.mp hid) hkeeps
      exact ⟨g, hposts, rfl, fun flying c hc => ⟨c, hconverses flying c hc, rfl, rfl⟩⟩

theorem Node.SameReception.savedAcks (h : node.SameReception node') : node'.savedAcks = node.savedAcks := by
  unfold Node.savedAcks
  rw [h.savedRxAckValid, h.savedRxAck]

theorem nodeGetTxPacket_posts (h : node.Posts g submitted) (hlabelled : node.Labelled) :
    (nodeGetTxPacket node).1.Posts g submitted ∧ ∀ flying c, node.Converses g submitted flying c →
      ∃ sent, (nodeGetTxPacket node).1.Converses g submitted (flying ++ sent) c ∧
        Framed seq (g.start masterNodeId) sent (dataFrom node.nodeId (nodeGetTxPacket node).2) := by
  have hreception := nodeGetTxPacket_same node
  have hidle : (nodeGetTxPacket node).1.nodeId = unallocatedNodeId → submitted = [] ∧
    (nodeGetTxPacket node).1.savedAcks = [] := by
    rw [hreception.nodeId, hreception.savedAcks]
    exact h.idle
  rcases nodeGetTxPacket_frames node with ⟨hnone, hsame, -, hm⟩ | ⟨r, hr, hsome, hsame, -, hm⟩
  · refine ⟨h.congr hm hsame.tmpEmptyPacketHeader hidle, fun flying c hc => ⟨[], ?_, ?_⟩⟩
    · rw [List.append_nil]
      exact hc.congr hsame.nextTxPacket (hm.trans rfl)
    · rw [hnone]
      exact .nil
  · have hposts : NodeOutbox (node.sent r).txManager g submitted ∧
        ∀ j, ((node.sent r).tmpEmptyPacketHeader j).getPacketType ≠ some .nodeData := by
      cases r with
      | entry i => exact ⟨h.outbox.setPacket ⟨rfl, rfl, rfl, rfl, rfl, rfl⟩, h.headers⟩
      | tmpPacket => exact ⟨h.outbox, h.headers⟩
      | tmpEmptyPacketHeader j =>
          exact ⟨h.outbox, (Function.forall_update_iff _ fun _ (p : Packet) => p.getPacketType ≠ some .nodeData).mpr
            ⟨h.headers j, fun k _ => h.headers k⟩⟩
    refine ⟨⟨hm ▸ hposts.1, hsame.tmpEmptyPacketHeader ▸ hposts.2, hidle⟩, fun flying c hc => ?_⟩
    obtain ⟨pending, hdata, hpends⟩ := hc.pending
    refine ⟨pending, ⟨hc.talks, [], by rw [hdata, List.append_nil], .nothing fun i => ?_⟩, ?_⟩
    · rw [hsame.nextTxPacket]
      exact nofun
    · rw [hsome, node.sent_deref]
      cases hpends with
      | nothing hnone =>
          rw [dataFrom_eq_nil]
          · exact .nil
          · rintro p hp htype
            obtain rfl := Option.some.inj hp
            cases r with
            | entry i => exact absurd hr (hnone i)
            | tmpPacket => exact absurd (Or.inl htype) hlabelled.tmpPacket
            | tmpEmptyPacketHeader j => exact absurd htype (h.headers j)
      | @packet i a x hnext htype hseq hwaits =>
          cases hr.symm.trans hnext
          have hframe : dataFrom node.nodeId
            (some ((node.deref (.entry i)).setAckSeqNum (node.txManager.rxSeqNum masterNodeId))) =
              [((node.txManager.entry i).packet.txSeqNum, (node.txManager.entry i).packet.payload)] :=
            if_pos ⟨htype, (hlabelled.next _ hr nofun).2⟩
          rw [hframe]
          refine .cons ⟨hseq, hwaits.imp_right fun ⟨hl, howner⟩ => ?_⟩ .nil
          have hheld := h.outbox.held i hl
          rw [howner] at hheld
          have hx := hc.talks.inv.content (a, x) (hdata ▸ List.mem_append_right _ (List.mem_singleton_self _))
          rw [hc.talks.submitted] at hx
          exact Option.some.inj (hheld.symm.trans hx)

/-- The packets submitted since the node last had no id. -/
def Node.stillSubmitted (node : Node) (submitted : List Payload) : List Payload :=
  if node.nodeId = unallocatedNodeId then [] else submitted

/-- The store and the conversation behind a part of a slot, or an empty store if the node started anew. -/
inductive Node.PostsPart (node node' : Node) (g : Ledger) (submitted : List Payload) (acks : List UInt8) : Prop
  | anew {g'} : node'.Posts g' [] → node'.nodeId = unallocatedNodeId → node.PostsPart node' g submitted acks
  | kept {g'} : node'.Posts g' submitted → g.start masterNodeId ≤ g'.start masterNodeId →
      (∀ flying c later, node.Converses g submitted flying c → c.acks.map ackOf = acks ++ later →
        ∃ c', node'.Converses g' submitted flying c' ∧ c'.delivered = c.delivered ∧ c'.acks.map ackOf = later) →
      node.PostsPart node' g submitted acks

theorem nodePostProcess_posts (h : node.Posts g submitted) (hinit : node.initialised = true)
    (hpost : nodeDualChannelPipelinedPostProcess node = .ok node') :
    node.PostsPart node' g submitted node.savedAcks := by
  obtain ⟨m₁, m₂, h₁, h₂, h₃⟩ := nodePostProcess_ok hinit hpost
  have hid : node'.nodeId = m₂.nodeId := (nodeProcessTx_same h₃).nodeId
  rcases nodeCheckIfTimedOut_posts h h₁ with rfl | ⟨hblank, hposts⟩
  · obtain ⟨g₁, hposts₁, hle, htalks₁⟩ := nodeProcessRx_posts h h₂
    obtain ⟨g₂, hposts₂, hstart, htalks₂⟩ := nodeProcessTx_posts hposts₁ h₃
    refine .kept hposts₂ (hstart ▸ hle) fun flying c later hc hacks => ?_
    obtain ⟨c₁, hc₁, hdelivered₁, hacks₁⟩ := htalks₁ flying c later hc hacks
    obtain ⟨c₂, hc₂, hdelivered₂, hacks₂⟩ := htalks₂ flying c₁ hc₁
    exact ⟨c₂, hc₂, hdelivered₂.trans hdelivered₁, by rw [hacks₂, hacks₁]⟩
  · obtain ⟨g₁, hposts₁, -⟩ := nodeProcessRx_posts hposts h₂
    obtain ⟨g₂, hposts₂, -⟩ := nodeProcessTx_posts hposts₁ h₃
    refine .anew hposts₂ (hid.trans ?_)
    -- a node that started anew takes no id in the same slot
    obtain ⟨-, heq | ⟨-, hsent⟩, -⟩ := nodeProcessRx_frames h₂
    · exact heq.trans hblank.fresh.nodeId
    · exact absurd (hblank.fresh.sentNewNodeRequest.symm.trans hsent) Bool.false_ne_true

/-- What a slot does with the packets for the master. -/
structure Node.PostsSlot (node node' : Node) (g g' : Ledger) (submitted : List Payload) (downlink frame : Option Packet)
    (hearing : Hearing) : Prop where
  posts : node'.Posts g' (node'.stillSubmitted submitted)
  saved : ∀ a ∈ node'.savedAcks, hearing = .intact ∧
    ∃ p ∈ downlink, ∃ j, p.nextTxNodeId j = node'.nodeId ∧
    a = p.nextTxNodeAckSeqNum j
  converses : node'.nodeId ≠ unallocatedNodeId → ∀ flying c later, node.Converses g submitted flying c →
    c.acks.map ackOf = node.savedAcks ++ later → ∃ c' sent, node'.Converses g' submitted (flying ++ sent) c' ∧
      c'.delivered = c.delivered ∧ c'.acks.map ackOf = later ∧
      Framed seq (g'.start masterNodeId) sent (dataFrom node'.nodeId frame)
  start_le : node'.nodeId ≠ unallocatedNodeId → g.start masterNodeId ≤ g'.start masterNodeId

theorem Node.Posts.runDualChannel (h : node.Posts g submitted) (hlabelled : node.Labelled) (hready : node.Ready)
    (htx : ∃ g, NodeTxInv node.txManager g) {usIncr : UInt32} {downlink frame : Option Packet} {hearing : Hearing}
    (hs : node.runDualChannel usIncr downlink hearing = .ok (node', frame)) :
    ∃ g', node.PostsSlot node' g g' submitted downlink frame hearing := by
  obtain ⟨m, n, hpost, hinit, hquick, hscheduled, hturn⟩ := Node.runDualChannel_turn hlabelled hready htx hs
  have hticked : (nodeUpdateTimeUs node usIncr).Posts g submitted := ⟨h.outbox, h.headers, h.idle⟩
  have hready' : (nodeUpdateTimeUs node usIncr).Ready := hready.congr rfl rfl rfl
  have hpart := nodePostProcess_posts hticked hready'.initialised hpost
  -- the schedule moves on and the frame goes out
  have hsends : ∀ {g'} {xs : List Payload}, n.Posts g' xs → node'.Posts g' xs ∧ node'.nodeId = n.nodeId ∧
      node'.savedAcks = n.savedAcks ∧ ∀ flying c, n.Converses g' xs flying c →
        ∃ sent, node'.Converses g' xs (flying ++ sent) c ∧
          Framed seq (g'.start masterNodeId) sent (dataFrom node'.nodeId frame) := by
    intro g' xs hn
    have hnext : (nodeUpdateSchedule n).Posts g' xs := ⟨hn.outbox, hn.headers, hn.idle⟩
    have hconverses : ∀ {flying c}, n.Converses g' xs flying c → (nodeUpdateSchedule n).Converses g' xs flying c :=
      fun hc => hc.congr rfl rfl
    rcases hturn with hsent | ⟨rfl, rfl⟩
    · have hreception := nodeGetTxPacket_same (nodeUpdateSchedule n)
      obtain ⟨hposts, htalks⟩ := nodeGetTxPacket_posts hnext hscheduled
      rw [← hreception.nodeId] at htalks
      rw [hsent] at hposts htalks hreception
      exact ⟨hposts, hreception.nodeId, hreception.savedAcks, fun flying c hc => htalks flying c (hconverses hc)⟩
    · refine ⟨hnext, rfl, rfl, fun flying c hc => ⟨[], ?_, .nil⟩⟩
      rw [List.append_nil]
      exact hconverses hc
  have hinit' : (m.receive (hearing.received downlink).1).initialised = true := hinit
  have hsaved : n.savedAcks = [] ∨ ∀ a ∈ n.savedAcks, hearing = .intact ∧ ∃ p ∈ downlink, ∃ j,
    p.nextTxNodeId j = n.nodeId ∧
      a = p.nextTxNodeAckSeqNum j := by
    by_cases hvalid : n.savedRxAckValid = true
    · obtain ⟨hcarries, hid, -, j, hj, hack⟩ := nodeQuick_savedRxAck hinit' hquick hvalid
      rw [m.packetAt_receive] at hcarries hj hack
      obtain ⟨hintact, p, hp, hpacket⟩ := Hearing.read hcarries.1
      rw [hpacket] at hj hack
      refine Or.inr fun a ha => ⟨hintact, p, hp, j, hj.trans hid.symm, ?_⟩
      unfold Node.savedAcks at ha
      rw [if_pos hvalid] at ha
      exact (List.mem_singleton.mp ha).trans hack
    · exact Or.inl (Node.savedAcks_of_invalid (Bool.eq_false_iff.mpr hvalid))
  have hsaves : node'.nodeId = n.nodeId → node'.savedAcks = n.savedAcks → ∀ a ∈ node'.savedAcks,
      hearing = .intact ∧ ∃ p ∈ downlink, ∃ j, p.nextTxNodeId j = node'.nodeId ∧
        a = p.nextTxNodeAckSeqNum j := by
    intro hid hacks
    rw [hid, hacks]
    exact hsaved.elim (fun hnone a ha => absurd (hnone ▸ ha) List.not_mem_nil) id
  -- without an id nothing was submitted
  have hanew : ∀ {g'}, n.Posts g' [] → n.nodeId = unallocatedNodeId →
    node.PostsSlot node' g g' submitted downlink frame hearing := by
    intro g' hn hun
    obtain ⟨hposts, hid, hacks, -⟩ := hsends hn
    refine ⟨?_, hsaves hid hacks, fun hc => absurd (hid.trans hun) hc, fun hc => absurd (hid.trans hun) hc⟩
    unfold Node.stillSubmitted
    rw [if_pos (hid.trans hun)]
    exact hposts
  have hreceived : ∀ {g'} {xs : List Payload}, m.Posts g' xs →
    (m.receive (hearing.received downlink).1).Posts g' xs :=
    fun hm => ⟨hm.outbox, hm.headers, hm.idle⟩
  cases hpart with
  | anew hm hun =>
      rcases nodeQuickRx_posts (hreceived hm) hinit' hquick with ⟨hblank, hn⟩ | ⟨hid, hn, -⟩
      · exact ⟨_, hanew hn hblank.fresh.nodeId⟩
      · exact ⟨_, hanew hn (hid.trans hun)⟩
  | @kept g' hm hle htalks =>
      rcases nodeQuickRx_posts (hreceived hm) hinit' hquick with ⟨hblank, hn⟩ | ⟨-, hn, htalks'⟩
      · exact ⟨_, hanew hn hblank.fresh.nodeId⟩
      · obtain ⟨hposts, hid, hacks, hsent⟩ := hsends hn
        refine ⟨g', ?_, hsaves hid hacks, fun _ flying c later hc hlater => ?_, fun _ => hle⟩
        · unfold Node.stillSubmitted
          split
          · rename_i hun
            have hnone := (hposts.idle hun).1
            exact hnone ▸ hposts
          · exact hposts
        · have hticked' : (nodeUpdateTimeUs node usIncr).Converses g submitted flying c := hc.congr rfl rfl
          obtain ⟨c', hc', hdelivered, hacks'⟩ := htalks flying c later hticked' hlater
          have hmreceived : (m.receive (hearing.received downlink).1).Converses g' submitted flying c' :=
            hc'.congr rfl rfl
          obtain ⟨sent, hconverses, hframed⟩ := hsent flying c' (htalks' flying c' hmreceived)
          exact ⟨c', sent, hconverses, hdelivered, hacks', hframed⟩

def NodeCall.submits (node : Node) : NodeCall → List Payload
  | .submit numBytes => (node.txManager.pendingPayload numBytes).toList
  | _ => []

/-- What a call does with the packets for the master, when it submits `more`. -/
structure Node.PostsCall (node node' : Node) (g g' : Ledger) (submitted more : List Payload) : Prop where
  posts : node'.Posts g' (node'.stillSubmitted (submitted ++ more))
  kept : node'.nodeId ≠ unallocatedNodeId → node'.nodeId = node.nodeId ∧ node'.savedAcks = node.savedAcks ∧
    g'.start = g.start
  converses : node'.nodeId ≠ unallocatedNodeId → ∀ flying c, node.Converses g submitted flying c →
    ∃ c', node'.Converses g' (submitted ++ more) flying c' ∧ c'.delivered = c.delivered ∧ c'.acks = c.acks

theorem Node.Posts.stillSubmitted (h : node.Posts g submitted) : node.stillSubmitted submitted = submitted := by
  unfold Node.stillSubmitted
  split
  · rename_i hun
    exact (h.idle hun).1.symm
  · rfl

theorem Node.Posts.sameCall (h : node.Posts g submitted) (hid : node'.nodeId = node.nodeId)
    (hacks : node'.savedAcks = node.savedAcks) (houtbox : NodeOutbox node'.txManager g submitted)
    (hheader : node'.tmpEmptyPacketHeader = node.tmpEmptyPacketHeader)
    (hnext : node'.nextTxPacket = node.nextTxPacket)
    (hmessage : ∀ i, (node'.txManager.entry i).packet.getPacketType =
      (node.txManager.entry i).packet.getPacketType ∧
      (node'.txManager.entry i).packet.txSeqNum = (node.txManager.entry i).packet.txSeqNum)
    (hlive : ∀ i, node.txManager.Live i → node'.txManager.Live i) : node.PostsCall node' g g submitted [] := by
  have hposts : node'.Posts g submitted := by
    refine ⟨houtbox, hheader ▸ h.headers, ?_⟩
    rw [hid, hacks]
    exact h.idle
  rw [← List.append_nil submitted] at hposts
  refine ⟨?_, fun _ => ⟨hid, hacks, rfl⟩, fun _ flying c hc => ⟨c, ⟨?_, ?_⟩, rfl, rfl⟩⟩
  · rw [hposts.stillSubmitted]
    exact hposts
  · rw [List.append_nil]
    exact hc.talks
  · obtain ⟨pending, hdata, hpends⟩ := hc.pending
    exact ⟨pending, hdata, hpends.congr hnext hmessage (Nat.le_refl _) fun i a hl howner =>
      Or.inr ⟨hlive i hl, howner⟩⟩

/-- If the node was to send a packet that is acknowledged, and its buffer is submitted anew, it sends the new packet. -/
theorem Node.Pends.submit {pending : List (Nat × Payload)} (h : node.Pends g pending)
    (houtbox : NodeOutbox node.txManager g submitted)
    {i : Nat} (ha : node.txManager.allocatedPacket = some i) {size : UInt16} {q : Option NodeQueue}
    (hnode : node' = { node with
      txManager := node.txManager.submitEntry i
        (fillHeader (node.txManager.entry i).packet false node.nodeId masterNodeId .nodeData size
          (node.txManager.txSeqNumEnd masterNodeId)) masterNodeId q }) :
    node'.Pends (g.submit i masterNodeId) pending ∨
      ∀ x, node'.Pends (g.submit i masterNodeId) [(g.stop masterNodeId, x)] := by
  have hpend := houtbox.sender.store.allocated i ha
  have hlive : ∀ j, node'.txManager.Live j ↔ j = i ∨ node.txManager.Live j := by
    intro j
    rw [hnode]
    exact live_submit ha hpend j
  have hnext' : node'.nextTxPacket = node.nextTxPacket := by rw [hnode]
  cases h with
  | nothing hnone => exact Or.inl (.nothing fun j => hnext' ▸ hnone j)
  | @packet j a x hnext htype hseq hwaits =>
      by_cases hji : j = i
      · subst hji
        refine Or.inr fun x => .packet (hnext'.trans hnext) ?_ ?_ (Or.inr ⟨(hlive j).mpr (Or.inl rfl), ?_⟩)
        · rw [hnode, entry_submit, if_pos rfl]
          exact (@filledAs_fillHeader false _ _ _ _ _ (node.txManager.entry j).packet).isType.type
        · rw [hnode, entry_submit, if_pos rfl, ← houtbox.sender.store.stop_eq]
          rfl
        · simp only [Ledger.submit, Function.update_self]
      · refine Or.inl (.packet (hnext'.trans hnext) ?_ ?_
          (hwaits.imp_right fun hheld => ⟨(hlive j).mpr (Or.inr hheld.1), ?_⟩))
        · rw [hnode, entry_submit, if_neg hji]
          exact htype
        · rw [hnode, entry_submit, if_neg hji]
          exact hseq
        · simp only [Ledger.submit]
          rw [Function.update_of_ne hji, hheld.2]

theorem Node.Posts.submit (h : node.Posts g submitted) (hready : node.Ready) {numBytes : UInt16}
    (hs : nodeSubmitAllocatedTxPacket node numBytes = .ok node') :
    ∃ g', node.PostsCall node' g g' submitted ((NodeCall.submit numBytes).submits node) := by
  have hid : node.nodeId ≠ unallocatedNodeId := by
    intro hid
    obtain ⟨_, hsize, -⟩ := bind_eq_ok.mp hs
    have hlt := ((completes_nodeSubmit (microbusAssert_ok.mp hsize) hready.table).mp ⟨node', hs⟩).2
    rw [hid] at hlt
    exact absurd hlt (by decide)
  obtain ⟨i, q, ha, hadd, hnode⟩ := nodeSubmit_ok hs
  obtain ⟨x, hx⟩ : ∃ x : Payload, x = ⟨numBytes.toNat, (node.txManager.entry i).packet.data⟩ := ⟨_, rfl⟩
  have hsubmits : (NodeCall.submit numBytes).submits node = [x] := by
    unfold NodeCall.submits TxManager.pendingPayload
    rw [ha, hx]
    rfl
  rw [hsubmits]
  have hposts : node'.Posts (g.submit i masterNodeId) (submitted ++ [x]) := by
    rw [hnode, hx]
    exact ⟨h.outbox.submit ha hadd, h.headers, fun hun => absurd hun hid⟩
  refine ⟨g.submit i masterNodeId, ?_, fun _ => ?_, fun _ flying c hc => ?_⟩
  · rw [hposts.stillSubmitted]
    exact hposts
  · rw [hnode]
    exact ⟨rfl, rfl, rfl⟩
  · have htalks : Talks (g.submit i masterNodeId) (fun _ => submitted ++ [x]) masterNodeId (c.submit x) :=
      (hc.talks.submit h.outbox.length (h.outbox.room ha) i x).congr ⟨rfl, rfl, rfl⟩ (by rw [Function.update_self])
    obtain ⟨pending, hdata, hpends⟩ := hc.pending
    rcases hpends.submit h.outbox ha hnode with hkeeps | hnew
    · exact ⟨_, ⟨htalks, pending, hdata, hkeeps⟩, rfl, rfl⟩
    · have hsub : List.Sublist flying (c.submit x).data := by
        change List.Sublist flying c.data
        rw [hdata]
        exact List.sublist_append_left flying pending
      have hlost := htalks.inv.lose hsub (List.Sublist.refl _)
      have hlength : (c.submit x).submitted = submitted ++ [x] := htalks.submitted
      have hstop : submitted.length = g.stop masterNodeId := h.outbox.length
      have hresent : (((c.submit x).lose flying (c.submit x).acks).resend (g.stop masterNodeId) x).Inv 254 := by
        refine hlost.resend ?_ ?_
        · change (c.submit x).submitted[g.stop masterNodeId]? = some x
          rw [hlength, ← hstop]
          exact List.getElem?_concat_length
        · change c.start ≤ _
          rw [hc.talks.start]
          exact (h.outbox.sender.store.start_le_next _).trans (h.outbox.sender.store.next_le_stop _)
      exact ⟨_, ⟨⟨hresent, htalks.submitted, htalks.start, htalks.next⟩, [(g.stop masterNodeId, x)], rfl,
        hnew x⟩, rfl, rfl⟩

/-- A call submits behind what was submitted, or starts the node anew. -/
theorem Node.Posts.call (h : node.Posts g submitted) (hready : node.Ready) {mode : ChannelMode} {call : NodeCall}
    (hs : node.step (call.action mode) = .ok node') :
    ∃ g', node.PostsCall node' g g' submitted (call.submits node) := by
  cases call with
  | allocate =>
      obtain ⟨⟨r, n⟩, halloc, hs⟩ := bind_eq_ok.mp hs
      cases hs
      have hreception := nodeAllocateTxPacket_same halloc
      obtain ⟨⟨r', m⟩, hone, halloc⟩ := bind_eq_ok.mp halloc
      cases halloc
      obtain ⟨houtbox, hlive, hpacket⟩ := h.outbox.allocate hone
      refine ⟨g, h.sameCall hreception.nodeId hreception.savedAcks houtbox rfl rfl (fun i => ?_) fun i =>
        (hlive i).mpr⟩
      exact ⟨congrArg Packet.getPacketType (hpacket i), congrArg Packet.txSeqNum (hpacket i)⟩
  | write data =>
      cases hs
      have ht : Touched false node.txManager (writeAllocatedPacket node.txManager data) := touched_write _ data
      have hreception := nodeWriteAllocatedPacket_same node data
      refine ⟨g, h.sameCall hreception.nodeId hreception.savedAcks (h.outbox.write data) rfl rfl (fun i => ?_)
        fun i => (ht.live i).mpr⟩
      change ((writeAllocatedPacket node.txManager data).entry i).packet.getPacketType = _ ∧
        ((writeAllocatedPacket node.txManager data).entry i).packet.txSeqNum = _
      by_cases hi : node.txManager.allocatedPacket = some i
      · unfold writeAllocatedPacket
        rw [hi]
        have hentry := entry_setPacket node.txManager i { (node.txManager.entry i).packet with data := data } i
        rw [if_pos rfl] at hentry
        exact ⟨congrArg (fun e => e.packet.getPacketType) hentry, congrArg (fun e => e.packet.txSeqNum) hentry⟩
      · rw [entry_write hi]
        exact ⟨rfl, rfl⟩
  | submit numBytes => exact h.submit hready hs
  | peek =>
      obtain ⟨r, -, hs⟩ := bind_eq_ok.mp hs
      cases hs
      exact ⟨g, h.sameCall rfl rfl h.outbox rfl rfl (fun _ => ⟨rfl, rfl⟩) fun _ => id⟩
  | pop =>
      obtain ⟨rpm, -, hs⟩ := bind_eq_ok.mp hs
      cases hs
      exact ⟨g, h.sameCall rfl rfl h.outbox rfl rfl (fun _ => ⟨rfl, rfl⟩) fun _ => id⟩
  | reset =>
      obtain ⟨hblank, -⟩ := nodeReset_blank hs
      have hposts := hblank.posts (by rw [nodeReset_size hs]; exact h.outbox.sender.size)
      refine ⟨Ledger.zero, ?_, fun hc => absurd hblank.fresh.nodeId hc, fun hc => absurd hblank.fresh.nodeId hc⟩
      unfold Node.stillSubmitted
      rw [if_pos hblank.fresh.nodeId]
      exact hposts

end Node

end Microbus
