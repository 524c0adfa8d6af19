import Microbus.Sender

/-! A link carries, for each destination, a conversation of a retransmitting sender with a
receiver that takes packets in order. -/
namespace Microbus

open Transition GoBackN

variable {cfg : LinkConfig} {s s' : Link} {g g' : Ledger} {d : TNodeIndex}

/-- The acknowledgement of a receiver that has accepted `n` packets. -/
def ackOf (n : Nat) : UInt8 := if n = 0 then nullSequenceNum else seq (n - 1)

theorem ackOf_succ (n : Nat) : ackOf (n + 1) = seq n := by
  rw [ackOf, if_neg (Nat.succ_ne_zero n), Nat.add_sub_cancel]

theorem expectedSeqNum_ackOf (n : Nat) : expectedSeqNum (ackOf n) = seq n := by
  cases n with
  | zero => exact expectedSeqNum_null
  | succ n => rw [ackOf_succ, expectedSeqNum_seq]

/-- The traffic to one destination is the conversation `c` with its numbers reduced. -/
structure Carries (cfg : LinkConfig) (s : Link) (g : Ledger) (d : TNodeIndex) (c : Conversation Payload) : Prop where
  inv : c.Inv 254
  submitted : c.submitted = s.submitted d
  start : c.start = g.start d
  next : c.next = g.next d
  stop : c.submitted.length = g.stop d
  delivered : c.delivered = s.accepted d
  data : s.data d = c.data.map fun p => (seq p.1, p.2)
  acks : s.acks d = c.acks.map ackOf
  rxSeqNum : (s.receiver d).rxSeqNum cfg.srcNodeId = ackOf c.delivered.length
  peer : cfg.srcNodeId.toNat < (s.receiver d).maxTxNodes
  used : c.submitted ≠ [] → d.toNat < s.sender.maxTxNodes ∧ ValidDst cfg.isMaster d

/-- What the conversation of a destination depends on. -/
structure SameAt (s s' : Link) (g g' : Ledger) (d : TNodeIndex) : Prop where
  submitted : s'.submitted d = s.submitted d
  start : g'.start d = g.start d
  next : g'.next d = g.next d
  stop : g'.stop d = g.stop d
  accepted : s'.accepted d = s.accepted d
  data : s'.data d = s.data d
  acks : s'.acks d = s.acks d
  receiver : s'.receiver d = s.receiver d
  maxTxNodes : s'.sender.maxTxNodes = s.sender.maxTxNodes

theorem Carries.congr {c : Conversation Payload} (h : Carries cfg s g d c) (t : SameAt s s' g g' d) :
    Carries cfg s' g' d c where
  inv := h.inv
  submitted := h.submitted.trans t.submitted.symm
  start := h.start.trans t.start.symm
  next := h.next.trans t.next.symm
  stop := h.stop.trans t.stop.symm
  delivered := h.delivered.trans t.accepted.symm
  data := t.data.trans h.data
  acks := t.acks.trans h.acks
  rxSeqNum := by rw [t.receiver, h.rxSeqNum]
  peer := by rw [t.receiver]; exact h.peer
  used := by rw [t.maxTxNodes]; exact h.used

/-- The conversations behind a link, and what the entries of the store hold. -/
structure LinkInv (cfg : LinkConfig) (s : Link) (g : Ledger) : Prop where
  sender : SenderInv cfg.isMaster s.sender g
  node : cfg.isMaster = false → s.sender.activeTxNodes = none ∧ masterNodeId.toNat < s.sender.maxTxNodes
  carries : ∀ d, ∃ c, Carries cfg s g d c
  held : ∀ i, s.sender.Live i →
    s.holder i = some (g.owner i) ∧
      (s.submitted (g.owner i).1)[(g.owner i).2]? = some (s.sender.entry i).packet.payload
  freed : ∀ x ∈ s.freed, ∃ d n, x = some (d, n) ∧ n < (s.accepted d).length

namespace LinkInv

theorem carries_update (h : LinkInv cfg s g) (d : TNodeIndex) (hother : ∀ x, x ≠ d → SameAt s s' g g' x)
    (hd : ∀ c, Carries cfg s g d c → ∃ c', Carries cfg s' g' d c') : ∀ x, ∃ c, Carries cfg s' g' x c := by
  intro x
  obtain ⟨c, hc⟩ := h.carries x
  by_cases hx : x = d
  · subst hx
    exact hd c hc
  · exact ⟨c, hc.congr (hother x hx)⟩

/-- The sender changes only in what no conversation sees. -/
theorem of_sender (h : LinkInv cfg s g) {m : TxManager} {holder : Nat → Option (TNodeIndex × Nat)}
    (hm : SenderInv cfg.isMaster m g) (htable : m.maxTxNodes = s.sender.maxTxNodes)
    (hq : cfg.isMaster = false → m.activeTxNodes = s.sender.activeTxNodes)
    (hlive : ∀ i, m.Live i → s.sender.Live i ∧ holder i = s.holder i ∧
      (m.entry i).packet.payload = (s.sender.entry i).packet.payload) :
    LinkInv cfg { s with sender := m, holder } g where
  sender := hm
  node hn := ⟨(hq hn).trans (h.node hn).1, by rw [htable]; exact (h.node hn).2⟩
  carries d := by
    obtain ⟨c, hc⟩ := h.carries d
    exact ⟨c, hc.congr ⟨rfl, rfl, rfl, rfl, rfl, rfl, rfl, rfl, htable⟩⟩
  held i hi := by
    obtain ⟨hl, hh, hp⟩ := hlive i hi
    obtain ⟨h1, h2⟩ := h.held i hl
    exact ⟨hh.trans h1, by rw [hp]; exact h2⟩
  freed := h.freed

theorem allocate (h : LinkInv cfg s g) (hs : s.allocate = .ok s') : LinkInv cfg s' g := by
  unfold Link.allocate at hs
  obtain ⟨⟨r, m⟩, ha, hs⟩ := bind_eq_ok.mp hs
  rcases h.sender.allocate ha (fun hn => (h.node hn).1) with ⟨rfl, rfl⟩ | ⟨i, rfl, hf, hn, rfl, hinv⟩
  · cases hs
    exact h
  · cases hs
    refine h.of_sender hinv rfl (fun _ => rfl) ?_
    intro j hj
    have hl := (live_allocate hf hn j).mp hj
    have hne : j ≠ i := by
      rintro rfl
      exact hj.notAllocated rfl
    refine ⟨hl, Function.update_of_ne hne _ _, ?_⟩
    change ((s.sender.takeEntry i).entry j).packet.payload = _
    rw [TxManager.entry_takeEntry, if_neg hne]

theorem write (h : LinkInv cfg s g) (data : PacketData) :
    LinkInv cfg { s with sender := writeAllocatedPacket s.sender data } g := by
  have t : Touched cfg.isMaster s.sender (writeAllocatedPacket s.sender data) := touched_write s.sender data
  refine h.of_sender (h.sender.touched t (activeTxNodes_write _ _)) t.maxTxNodes (fun _ => activeTxNodes_write _ _) ?_
  intro i hi
  have hl := (t.live i).mp hi
  exact ⟨hl, rfl, by rw [entry_write hl.notAllocated]⟩

theorem submit (h : LinkInv cfg s g) {ttl : Nat} {dst : TNodeIndex} {type : PacketType} {size : UInt16}
    (hself : cfg.isMaster = true → dst ≠ masterNodeId) (httl : cfg.isMaster = true → ttl ≠ 0)
    (hs : s.submit cfg ttl dst type size = .ok s') : ∃ g', LinkInv cfg s' g' := by
  unfold Link.submit at hs
  obtain ⟨m, hm, hs⟩ := bind_eq_ok.mp hs
  rcases submitAllocatedTxPacket_ok hm with ⟨hmaster, hzero, -⟩ | ⟨i, q, ha, -, hvalid, -, htable, hadd, rfl⟩
  · exact absurd hzero (httl hmaster)
  · rw [if_neg (fun hc => httl hc.1 hc.2), ha] at hs
    simp only [Link.pendingPayload, ha, Option.map_some, Option.toList_some] at hs
    cases hs
    have hkey : entryKey cfg.isMaster
        { s.sender.entry i with
          packet := fillHeader (s.sender.entry i).packet cfg.isMaster cfg.srcNodeId dst type size
            (s.sender.txSeqNumEnd dst) } = (dst, s.sender.txSeqNumEnd dst) := key_fillHeader hvalid
    have hinv := h.sender.submit ha htable hself hkey hadd
    have hpend := h.sender.store.allocated i ha
    have hsub : ∀ x, (Function.update s.submitted dst (s.submitted dst ++
        [⟨size.toNat, (s.sender.entry i).packet.data⟩]) x) = s.submitted x ++
          if x = dst then [⟨size.toNat, (s.sender.entry i).packet.data⟩] else [] := by
      intro x
      by_cases hx : x = dst
      · subst hx
        rw [Function.update_self, if_pos rfl]
      · rw [Function.update_of_ne hx, if_neg hx, List.append_nil]
    refine ⟨g.submit i dst, hinv, ?_, ?_, ?_, h.freed⟩
    · intro hn
      refine ⟨?_, (h.node hn).2⟩
      rw [hn] at hadd
      exact (addActiveTxNode_node hadd).trans (h.node hn).1
    · refine h.carries_update dst ?_ ?_
      · intro x hx
        exact ⟨Function.update_of_ne hx _ _, rfl, rfl, Function.update_of_ne hx _ _, rfl, rfl, rfl, rfl, rfl⟩
      · intro c hc
        refine ⟨c.submit ⟨size.toNat, (s.sender.entry i).packet.data⟩, hc.inv.submit _ ?_, ?_,
          hc.start, hc.next, ?_,
          hc.delivered, hc.data, hc.acks, hc.rxSeqNum, hc.peer, fun _ => ⟨htable, hvalid⟩⟩
        · have hroom := h.sender.store.window_lt_of_allocated ha dst
          have hsize := h.sender.size
          have hstop := hc.stop
          have hstart := hc.start
          omega
        · simp only [Conversation.submit, hc.submitted, Function.update_self]
        · simp only [Conversation.submit, List.length_append, List.length_cons, List.length_nil, hc.stop,
            Ledger.submit, Function.update_self]
    · intro j hj
      obtain ⟨c, hc⟩ := h.carries dst
      have hlen : (s.submitted dst).length = g.stop dst := by rw [← hc.submitted, hc.stop]
      simp only [Ledger.submit, hsub]
      rw [entry_submit]
      rcases (live_submit ha hpend j).mp hj with rfl | hl
      · simp only [Function.update_self, if_true, payload_fillHeader, ← hlen]
        exact ⟨trivial, List.getElem?_concat_length⟩
      · have hne : j ≠ i := fun hc => hl.notAllocated (hc ▸ ha)
        obtain ⟨h1, h2⟩ := h.held j hl
        rw [Function.update_of_ne hne, Function.update_of_ne hne, if_neg hne]
        exact ⟨h1, by rw [List.getElem?_append_left (List.getElem?_eq_some_iff.mp h2).1, h2]⟩

theorem sends (h : LinkInv cfg s g) {burstSize : Nat} {r : Option Nat} {m : TxManager}
    (hget : Link.getNextTxDataPacket cfg s.sender burstSize = .ok (r, m)) :
    SenderInv.Sends cfg.isMaster s.sender g r m ∧ m.activeTxNodes = s.sender.activeTxNodes := by
  unfold Link.getNextTxDataPacket at hget
  have hinv := h.sender
  split at hget
  · rename_i hm
    rw [hm] at hinv ⊢
    obtain ⟨queue, -, hround⟩ := masterGetNextTxDataPacket_ok hget
    exact ⟨hinv.masterGetNext hget, hround.activeTxNodes⟩
  · rename_i hm
    rw [Bool.not_eq_true] at hm
    rw [hm] at hinv ⊢
    exact ⟨hinv.nodeGetNext hget, SenderInv.nodeGetNext_activeTxNodes hget⟩

/-- Either nothing is sent, or packet number `next` of one destination. -/
theorem transmit (h : LinkInv cfg s g) {burstSize : Nat} {r : Option Nat} {m : TxManager}
    (hget : Link.getNextTxDataPacket cfg s.sender burstSize = .ok (r, m)) :
    (r = none ∧ s.transmit cfg burstSize = .ok { s with sender := m } ∧ LinkInv cfg { s with sender := m } g) ∨
      ∃ d x, r ≠ none ∧ g.next d < g.stop d ∧ s.transmit cfg burstSize =
          .ok { s with sender := m, data := Function.update s.data d (s.data d ++ [(seq (g.next d), x)]) } ∧
        LinkInv cfg
          { s with sender := m, data := Function.update s.data d (s.data d ++ [(seq (g.next d), x)]) }
            (g.advance d) := by
  obtain ⟨⟨hlive, hpay, htable, hr⟩, hqueue⟩ := h.sends hget
  have hstay : ∀ i, m.Live i → s.sender.Live i ∧ s.holder i = s.holder i ∧
      (m.entry i).packet.payload = (s.sender.entry i).packet.payload :=
    fun i hi => ⟨(hlive i).mp hi, rfl, hpay i⟩
  unfold Link.transmit
  rw [hget]
  rcases hr with ⟨rfl, hinv⟩ | ⟨i, d, rfl, hl, ho, hlt, hinv⟩
  · exact Or.inl ⟨rfl, rfl, h.of_sender hinv htable (fun _ => hqueue) hstay⟩
  · have hkey := hinv.store.owner_key i ((hlive i).mpr hl)
    rw [show (g.advance d).owner i = (d, g.next d) from ho] at hkey
    obtain ⟨hdst, hseq⟩ := Prod.mk.inj hkey
    have hheld := (h.held i hl).2
    rw [ho] at hheld
    refine Or.inr ⟨d, (s.sender.entry i).packet.payload, Option.some_ne_none i, hlt, ?_, hinv, ?_, ?_, ?_, h.freed⟩
    · simp only [bind, Except.bind, pure, Except.pure, hdst, hseq, hpay]
    · exact fun hn => ⟨hqueue.trans (h.node hn).1, by rw [htable]; exact (h.node hn).2⟩
    · refine h.carries_update d ?_ ?_
      · intro x hx
        exact ⟨rfl, rfl, Function.update_of_ne hx _ _, rfl, rfl, Function.update_of_ne hx _ _, rfl, rfl, htable⟩
      · intro c hc
        have hnext : c.submitted[c.next]? = some (s.sender.entry i).packet.payload := by
          rw [hc.submitted, hc.next, hheld]
        refine ⟨c.send (s.sender.entry i).packet.payload, hc.inv.send hnext, hc.submitted, hc.start, ?_, hc.stop,
          hc.delivered, ?_, hc.acks, hc.rxSeqNum, hc.peer, ?_⟩
        · simp only [Conversation.send, Ledger.advance, Function.update_self, hc.next]
        · simp only [Conversation.send, List.map_append, List.map_cons, List.map_nil, Function.update_self,
            hc.data, hc.next]
        · rw [htable]
          exact hc.used
    · intro j hj
      obtain ⟨h1, h2⟩ := h.held j ((hlive j).mp hj)
      exact ⟨h1, h2.trans (congrArg some (hpay j).symm)⟩

theorem lose (h : LinkInv cfg s g) (d : TNodeIndex) {data : List (UInt8 × Payload)} {acks : List UInt8}
    (hd : List.Sublist data (s.data d)) (ha : List.Sublist acks (s.acks d)) :
    LinkInv cfg { s with data := Function.update s.data d data, acks := Function.update s.acks d acks } g where
  sender := h.sender
  node := h.node
  carries := by
    refine h.carries_update d ?_ ?_
    · intro x hx
      exact ⟨rfl, rfl, rfl, rfl, rfl, Function.update_of_ne hx _ _, Function.update_of_ne hx _ _, rfl, rfl⟩
    · intro c hc
      rw [hc.data] at hd
      rw [hc.acks] at ha
      obtain ⟨data', hdata', rfl⟩ := List.sublist_map_iff.mp hd
      obtain ⟨acks', hacks', rfl⟩ := List.sublist_map_iff.mp ha
      exact ⟨c.lose data' acks', hc.inv.lose hdata' hacks', hc.submitted, hc.start, hc.next, hc.stop, hc.delivered,
        Function.update_self _ _ _, Function.update_self _ _ _, hc.rxSeqNum, hc.peer, hc.used⟩
  held := h.held
  freed := h.freed

theorem loseData (h : LinkInv cfg s g) (d : TNodeIndex) {data : List (UInt8 × Payload)}
    (hd : List.Sublist data (s.data d)) : LinkInv cfg { s with data := Function.update s.data d data } g := by
  have hl := h.lose d hd (List.Sublist.refl (s.acks d))
  rwa [Function.update_eq_self] at hl

theorem loseAck (h : LinkInv cfg s g) (d : TNodeIndex) {acks : List UInt8}
    (ha : List.Sublist acks (s.acks d)) : LinkInv cfg { s with acks := Function.update s.acks d acks } g := by
  have hl := h.lose d (List.Sublist.refl (s.data d)) ha
  rwa [Function.update_eq_self] at hl

theorem sendAck (h : LinkInv cfg s g) (d : TNodeIndex) :
    LinkInv cfg
      { s with acks := Function.update s.acks d (s.acks d ++ [(s.receiver d).rxSeqNum cfg.srcNodeId]) } g where
  sender := h.sender
  node := h.node
  carries := by
    refine h.carries_update d ?_ ?_
    · intro x hx
      exact ⟨rfl, rfl, rfl, rfl, rfl, rfl, Function.update_of_ne hx _ _, rfl, rfl⟩
    · intro c hc
      refine ⟨c.sendAck, hc.inv.sendAck, hc.submitted, hc.start, hc.next, hc.stop, hc.delivered, hc.data, ?_,
        hc.rxSeqNum, hc.peer, hc.used⟩
      simp only [Conversation.sendAck, List.map_append, List.map_cons, List.map_nil, Function.update_self, hc.acks,
        hc.rxSeqNum]
  held := h.held
  freed := h.freed

theorem receive (h : LinkInv cfg s g) {q : UInt8} {x : Payload} {rest : List (UInt8 × Payload)}
    (hdata : s.data d = (q, x) :: rest) :
    ∃ valid m, (valid = true ↔ q = seq (s.accepted d).length) ∧
      s.receive cfg d = .ok
        { s with
          data := Function.update s.data d rest
          receiver := Function.update s.receiver d m
          accepted := if valid then Function.update s.accepted d (s.accepted d ++ [x]) else s.accepted } ∧
      LinkInv cfg
        { s with
          data := Function.update s.data d rest
          receiver := Function.update s.receiver d m
          accepted := if valid then Function.update s.accepted d (s.accepted d ++ [x]) else s.accepted } g := by
  obtain ⟨c, hc⟩ := h.carries d
  have hmap := hc.data
  rw [hdata] at hmap
  obtain ⟨⟨a, y⟩, rest', hcdata, hhead, hrest⟩ := List.map_eq_cons_iff.mp hmap.symm
  obtain ⟨rfl, rfl⟩ := Prod.mk.inj hhead
  have hmem : (a, y) ∈ c.data := by rw [hcdata]; exact List.mem_cons_self
  unfold Link.receive
  simp only [hdata, rxPacketCheck hc.peer, hc.rxSeqNum, expectedSeqNum_ackOf, ← hc.delivered]
  by_cases ha : a = c.delivered.length
  · refine ⟨true, _, ⟨fun _ => by rw [ha], fun _ => rfl⟩, by rw [if_pos (by rw [ha])]; rfl, h.sender, h.node, ?_,
      h.held, ?_⟩
    · refine h.carries_update d ?_ ?_
      · intro y hy
        exact ⟨rfl, rfl, rfl, rfl, Function.update_of_ne hy _ _, Function.update_of_ne hy _ _, rfl,
          Function.update_of_ne hy _ _, rfl⟩
      · intro _ _
        have hdeliver := hc.inv.deliver hcdata
        have ha' : a = (c.lose rest' c.acks).delivered.length := ha
        rw [Conversation.deliver, if_pos ha'] at hdeliver
        refine ⟨_, hdeliver, hc.submitted, hc.start, hc.next, hc.stop, ?_, ?_, hc.acks, ?_, ?_, hc.used⟩
        · simp only [Conversation.lose, if_true, Function.update_self, hc.delivered]
        · simp only [Conversation.lose, Function.update_self, hrest]
        · simp only [Conversation.lose, Function.update_self, List.length_append, List.length_cons, List.length_nil,
            Nat.zero_add, ackOf_succ, ha]
        · simp only [Function.update_self]
          exact hc.peer
    · intro y hy
      obtain ⟨x', n, rfl, hn⟩ := h.freed y hy
      refine ⟨x', n, rfl, ?_⟩
      simp only [if_true]
      by_cases hx : x' = d
      · subst hx
        rw [Function.update_self, List.length_append, hc.delivered]
        omega
      · rw [Function.update_of_ne hx]
        exact hn
  · have hne : seq a ≠ seq c.delivered.length := by
      rw [Ne, seq_eq_iff]
      exact fun he => ha ((hc.inv.data_residue (by decide) hmem).mp he)
    refine ⟨false, s.receiver d, ⟨fun hf => absurd hf Bool.false_ne_true, fun he => absurd he hne⟩,
      by rw [if_neg hne]; rfl, ?_⟩
    have hsub : List.Sublist rest (s.data d) := by rw [hdata]; exact List.sublist_cons_self _ _
    have hl := h.loseData d hsub
    simpa only [Bool.false_eq_true, if_false, Function.update_eq_self] using hl

theorem freedBetween_eq_nil {holder : Nat → Option (TNodeIndex × Nat)} {m m' : TxManager} (t : SameStore m m') :
    Link.freedBetween holder m m' = [] := by
  unfold Link.freedBetween
  rw [List.map_eq_nil_iff, List.filter_eq_nil_iff]
  intro i _
  rw [t.entry, Bool.and_not_self]
  exact Bool.false_ne_true

/-- Every entry that is given back held an accepted packet. -/
theorem mem_freedBetween (h : LinkInv cfg s g) {r : Nat} {store : PacketStore} {m : TxManager}
    (hrel : s.sender.packetStore.Released store (AckedBelow s.sender g d r)) (hm : m.packetStore = store)
    {x : Option (TNodeIndex × Nat)} (hx : x ∈ Link.freedBetween s.holder s.sender m) :
    ∃ n, x = some (d, n) ∧ n < r := by
  obtain ⟨i, hi, rfl⟩ := List.mem_map.mp hx
  obtain ⟨-, hfreed⟩ := List.mem_filter.mp hi
  obtain ⟨huse, hfree⟩ := (Bool.and_eq_true _ _).mp hfreed
  have hacked : AckedBelow s.sender g d r i := by
    by_contra hc
    have hu := (hrel.inUse i).mpr ⟨huse, hc⟩
    rw [TxManager.entry, hm, hu] at hfree
    exact Bool.noConfusion hfree
  refine ⟨(g.owner i).2, ?_, hacked.2.2⟩
  rw [(h.held i hacked.1).1, ← hacked.2.1]

/-- The sender reads back the count of accepted packets from the number of an acknowledgement. -/
theorem ack_valid {a : UInt8} {rest : List UInt8} (hacks : s.acks d = a :: rest) {k : Nat}
    (hs : g.start d ≤ k) (he : k < g.stop d) (ha : a = seq k) {c : Conversation Payload} (hc : Carries cfg s g d c) :
    ∃ rest', c.acks = (k + 1) :: rest' ∧ rest = rest'.map ackOf := by
  have hmap := hc.acks
  rw [hacks] at hmap
  obtain ⟨r, rest', hcacks, hr, hrest⟩ := List.map_eq_cons_iff.mp hmap.symm
  have hmem : r ∈ c.acks := by rw [hcacks]; exact List.mem_cons_self
  have hpos : 0 < r := by
    refine Nat.pos_of_ne_zero ?_
    rintro rfl
    exact seq_ne_null k (ha.symm.trans hr.symm)
  have hseq : (r - 1) % 255 = k % 255 := by
    rw [ackOf, if_neg hpos.ne'] at hr
    exact seq_eq_iff.mp (hr.trans ha)
  have hstart := hc.start
  have hstop := hc.stop
  have hrk : r = k + 1 := hc.inv.ack_residue (by decide) hmem hpos (by omega) (by omega) hseq
  exact ⟨rest', by rw [hcacks, hrk], hrest.symm⟩

/-- An acknowledgement is from a destination to which something was submitted, or it is null. -/
theorem ack_used (h : LinkInv cfg s g) {a : UInt8} {rest : List UInt8} (hacks : s.acks d = a :: rest)
    (ha : a ≠ nullSequenceNum) : d.toNat < s.sender.maxTxNodes ∧ ValidDst cfg.isMaster d := by
  obtain ⟨c, hc⟩ := h.carries d
  have hmap := hc.acks
  rw [hacks] at hmap
  obtain ⟨r, rest', hcacks, hr, -⟩ := List.map_eq_cons_iff.mp hmap.symm
  have hrange := hc.inv.acks_range r (by rw [hcacks]; exact List.mem_cons_self)
  have hle := hc.inv.delivered_le
  refine hc.used ?_
  intro hnil
  rw [hnil, List.length_nil] at hle
  have hz : r = 0 := by omega
  rw [hz] at hr
  exact ha hr.symm

theorem missAck (h : LinkInv cfg s g) (d : TNodeIndex) :
    LinkInv cfg { s with sender := s.sender.missAck d } (g.missAck s.sender d) := by
  have t := sameStore_missAck s.sender d
  have hq : (s.sender.missAck d).activeTxNodes = s.sender.activeTxNodes := by
    unfold TxManager.missAck; split <;> rfl
  have htable : (s.sender.missAck d).maxTxNodes = s.sender.maxTxNodes := by
    unfold TxManager.missAck; split <;> rfl
  have hstop : (g.missAck s.sender d).stop = g.stop := by unfold Ledger.missAck; split <;> rfl
  have hstart : (g.missAck s.sender d).start = g.start := by unfold Ledger.missAck; split <;> rfl
  have howner : (g.missAck s.sender d).owner = g.owner := by unfold Ledger.missAck; split <;> rfl
  refine ⟨h.sender.missAck, fun hn => ⟨hq.trans (h.node hn).1, by rw [htable]; exact (h.node hn).2⟩,
    ?_, ?_, h.freed⟩
  · refine h.carries_update d ?_ ?_
    · intro x hx
      refine ⟨rfl, congrFun hstart x, ?_, congrFun hstop x, rfl, rfl, rfl, rfl, htable⟩
      unfold Ledger.missAck
      split
      · exact Function.update_of_ne hx _ _
      · rfl
    · intro c hc
      by_cases hp : s.sender.txSeqNumPauseCount d = 1
      · have hg : g.missAck s.sender d = g.rewind d := if_pos hp
        refine ⟨c.rewind, hc.inv.rewind, hc.submitted, hc.start.trans (congrFun hstart d).symm, ?_,
          hc.stop.trans (congrFun hstop d).symm, hc.delivered, hc.data, hc.acks, hc.rxSeqNum, hc.peer, ?_⟩
        · rw [hg]
          simp only [Conversation.rewind, Ledger.rewind, Function.update_self, hc.start]
        · rw [htable]
          exact hc.used
      · have hg : g.missAck s.sender d = g := if_neg hp
        rw [hg]
        exact ⟨c, hc.congr ⟨rfl, rfl, rfl, rfl, rfl, rfl, rfl, rfl, htable⟩⟩
  · intro i hi
    rw [howner, t.entry]
    exact h.held i ((t.live i).mp hi)

theorem acknowledge (h : LinkInv cfg s g) {a : UInt8} {rest : List UInt8} (hacks : s.acks d = a :: rest) {k : Nat}
    (hs : g.start d ≤ k) (he : k < g.stop d) (ha : a = seq k) {store : PacketStore}
    (hrel : s.sender.packetStore.Released store (AckedBelow s.sender g d (k + 1))) :
    LinkInv cfg
      { s with
        sender := s.sender.acknowledge cfg.isMaster g d (k + 1) store
        acks := Function.update s.acks d rest
        freed := s.freed ++
          Link.freedBetween s.holder s.sender (s.sender.acknowledge cfg.isMaster g d (k + 1) store) }
      (g.acknowledge d (k + 1)) := by
  have hlive : ∀ i, (s.sender.acknowledge cfg.isMaster g d (k + 1) store).Live i → s.sender.Live i := by
    intro i hi
    have hlt : i < store.maxEntries.toNat := hi.lt
    rw [hrel.maxEntries] at hlt
    exact ⟨hlt, ((hrel.inUse i).mp hi.inUse).1, hi.notAllocated⟩
  refine ⟨h.sender.acknowledge hs he hrel, ?_, ?_, ?_, ?_⟩
  · intro hn
    refine ⟨?_, (h.node hn).2⟩
    simp only [TxManager.acknowledge, queueAfterAck, hn, Bool.false_eq_true, and_false, if_false]
    exact (h.node hn).1
  · refine h.carries_update d ?_ ?_
    · intro x hx
      exact ⟨rfl, Function.update_of_ne hx _ _, Function.update_of_ne hx _ _, rfl, rfl, rfl,
        Function.update_of_ne hx _ _, rfl, rfl⟩
    · intro c hc
      obtain ⟨rest', hcacks, hrest⟩ := ack_valid hacks hs he ha hc
      have hstart := hc.start
      refine ⟨(c.lose c.data rest').acknowledge (k + 1), hc.inv.acknowledge hcacks, hc.submitted, ?_, ?_, hc.stop,
        hc.delivered, hc.data, ?_, hc.rxSeqNum, hc.peer, hc.used⟩
      · simp only [Conversation.acknowledge, Conversation.lose, Ledger.acknowledge, Function.update_self]
        omega
      · simp only [Conversation.acknowledge, Conversation.lose, Ledger.acknowledge, Function.update_self, hc.next]
      · simp only [Conversation.acknowledge, Conversation.lose, Function.update_self, hrest]
  · intro i hi
    obtain ⟨h1, h2⟩ := h.held i (hlive i hi)
    refine ⟨h1, h2.trans ?_⟩
    exact congrArg (fun p => some p.payload) (hrel.packet i).symm
  · intro x hx
    rcases List.mem_append.mp hx with hx | hx
    · exact h.freed x hx
    · obtain ⟨n, rfl, hn⟩ := h.mem_freedBetween hrel rfl hx
      refine ⟨d, n, rfl, ?_⟩
      obtain ⟨c, hc⟩ := h.carries d
      obtain ⟨rest', hcacks, -⟩ := ack_valid hacks hs he ha hc
      have hrange := hc.inv.acks_range (k + 1) (by rw [hcacks]; exact List.mem_cons_self)
      rw [← hc.delivered]
      omega

theorem receiveAck (h : LinkInv cfg s g) {a : UInt8} {rest : List UInt8} (hacks : s.acks d = a :: rest) :
    ∃ m g', AckResult cfg.isMaster s.sender g d a m g' ∧
      s.receiveAck cfg d = .ok
        { s with
          sender := m
          acks := Function.update s.acks d rest
          freed := s.freed ++ Link.freedBetween s.holder s.sender m } ∧
      LinkInv cfg
        { s with
          sender := m
          acks := Function.update s.acks d rest
          freed := s.freed ++ Link.freedBetween s.holder s.sender m } g' := by
  have hsub : List.Sublist rest (s.acks d) := by rw [hacks]; exact List.sublist_cons_self _ _
  have hlose := h.loseAck d hsub
  obtain ⟨n, m, g', hack, hres⟩ := h.sender.rxAck a (h.ack_used hacks)
  refine ⟨m, g', hres, ?_, ?_⟩
  · unfold Link.receiveAck
    simp only [hacks, hack]
    rfl
  · cases hres with
    | null ha =>
        rw [freedBetween_eq_nil ⟨rfl, rfl⟩, List.append_nil]
        exact hlose
    | missed ha hno =>
        rw [freedBetween_eq_nil (sameStore_missAck s.sender d), List.append_nil]
        exact hlose.missAck d
    | valid hs he _ hk hrel => exact h.acknowledge hacks hs he hk hrel

/-- Submissions are to other stations that have not left. -/
def ToPeer (cfg : LinkConfig) : LinkAction → Prop
  | .submit ttl dst _ _ => cfg.isMaster = true → dst ≠ masterNodeId ∧ ttl ≠ 0
  | _ => True

theorem step (h : LinkInv cfg s g) {a : LinkAction} (ha : ToPeer cfg a) (hs : s.step cfg a = .ok s') :
    ∃ g', LinkInv cfg s' g' := by
  cases a with
  | allocate => exact ⟨g, h.allocate hs⟩
  | write data =>
      cases hs
      exact ⟨g, h.write data⟩
  | submit ttl dst type size => exact h.submit (fun hm => (ha hm).1) (fun hm => (ha hm).2) hs
  | transmit burstSize =>
      cases hget : Link.getNextTxDataPacket cfg s.sender burstSize with
      | error f =>
          change s.transmit cfg burstSize = _ at hs
          unfold Link.transmit at hs
          rw [hget] at hs
          cases hs
      | ok r =>
          obtain ⟨r, m⟩ := r
          rcases h.transmit hget with ⟨-, ht, hinv⟩ | ⟨d, x, -, -, ht, hinv⟩
          · obtain rfl := Except.ok.inj (ht.symm.trans hs)
            exact ⟨g, hinv⟩
          · obtain rfl := Except.ok.inj (ht.symm.trans hs)
            exact ⟨g.advance d, hinv⟩
  | loseData d i =>
      cases hs
      exact ⟨g, h.loseData d (List.eraseIdx_sublist _ _)⟩
  | loseAck d i =>
      cases hs
      exact ⟨g, h.loseAck d (List.eraseIdx_sublist _ _)⟩
  | refuse d =>
      cases hs
      exact ⟨g, h.loseData d (List.tail_sublist _)⟩
  | receive d =>
      cases hdata : s.data d with
      | nil =>
          change s.receive cfg d = _ at hs
          unfold Link.receive at hs
          rw [hdata] at hs
          cases hs
          exact ⟨g, h⟩
      | cons p rest =>
          obtain ⟨valid, m, -, ht, hinv⟩ := h.receive hdata
          obtain rfl := Except.ok.inj (ht.symm.trans hs)
          exact ⟨g, hinv⟩
  | sendAck d =>
      cases hs
      exact ⟨g, h.sendAck d⟩
  | receiveAck d =>
      cases hacks : s.acks d with
      | nil =>
          change s.receiveAck cfg d = _ at hs
          unfold Link.receiveAck at hs
          rw [hacks] at hs
          cases hs
          exact ⟨g, h⟩
      | cons a rest =>
          obtain ⟨m, g', -, ht, hinv⟩ := h.receiveAck hacks
          obtain rfl := Except.ok.inj (ht.symm.trans hs)
          exact ⟨g', hinv⟩

theorem accepted_prefix (h : LinkInv cfg s g) (d : TNodeIndex) : s.accepted d <+: s.submitted d := by
  obtain ⟨c, hc⟩ := h.carries d
  rw [← hc.delivered, ← hc.submitted]
  exact hc.inv.delivered_prefix

end LinkInv

theorem linkInv_fresh {sender : TxManager} {receiver : TNodeIndex → TxManager}
    (hsender : SenderInv cfg.isMaster sender Ledger.zero)
    (hnode : cfg.isMaster = false → sender.activeTxNodes = none ∧ masterNodeId.toNat < sender.maxTxNodes)
    (hlive : ∀ i, ¬ sender.Live i)
    (hpeer : ∀ d, cfg.srcNodeId.toNat < (receiver d).maxTxNodes ∧
      (receiver d).rxSeqNum cfg.srcNodeId = nullSequenceNum) :
    LinkInv cfg (Link.fresh sender receiver) Ledger.zero where
  sender := hsender
  node := hnode
  carries d := ⟨Conversation.initial, Conversation.inv_initial 254, rfl, rfl, rfl, rfl, rfl, rfl, rfl,
    (hpeer d).2, (hpeer d).1,
    fun hc => absurd rfl hc⟩
  held i hi := absurd hi (hlive i)
  freed _ hx := by cases hx

end Microbus
