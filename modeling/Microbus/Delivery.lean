import Microbus.LinkInvariant

/-! Reliable delivery in both directions. -/
namespace Microbus

open Transition

variable {s : Link}

theorem linkInv_uplink {src : TNodeIndex} {maxEntries : UInt8} (hsrc : src.toNat < maxNodes)
    (hsize : maxEntries.toNat ≤ 254) (h : (uplinkSystem src maxEntries).Reachable s) :
    ∃ g, LinkInv { isMaster := false, srcNodeId := src } s g := by
  refine System.ReachableWhen.invariant (P := fun s => ∃ g, LinkInv { isMaster := false, srcNodeId := src } s g) h ?_
    ?_
  · rintro s ⟨entries, rxEntries, rxMaxEntries, rfl⟩
    refine ⟨Ledger.zero, linkInv_fresh (senderInv_init hsize fun hc => by cases hc) (fun _ => ⟨rfl, Nat.one_pos⟩)
      not_live_init fun _ => ⟨hsrc, rfl⟩⟩
  · rintro s a s' ⟨g, hinv⟩ - hs
    refine hinv.step ?_ hs
    cases a with
    | submit ttl dst type size => exact fun hc => by cases hc
    | _ => exact trivial

/-- The master accepts what the node submitted, in order and without a gap, and the node frees
no packet before the master has accepted it. -/
theorem uplink_delivers_in_order {src : TNodeIndex} {maxEntries : UInt8} (hsrc : src.toNat < maxNodes)
    (hsize : maxEntries.toNat ≤ 254) (h : (uplinkSystem src maxEntries).Reachable s) :
    s.accepted masterNodeId <+: s.submitted masterNodeId ∧
      ∀ x ∈ s.freed, ∃ n, x = some (masterNodeId, n) ∧ n < (s.accepted masterNodeId).length := by
  obtain ⟨g, hinv⟩ := linkInv_uplink hsrc hsize h
  refine ⟨hinv.accepted_prefix _, ?_⟩
  intro x hx
  obtain ⟨d, n, rfl, hn⟩ := hinv.freed x hx
  obtain ⟨c, hc⟩ := hinv.carries d
  have hd : d = masterNodeId := by
    refine (hc.used ?_).2 rfl
    rintro hnil
    have hle := hc.inv.delivered_le
    rw [hnil, hc.delivered, List.length_nil] at hle
    omega
  exact ⟨n, by rw [hd], by rw [← hd]; exact hn⟩

/-- A node with id 5 that starts with four empty entries. -/
def uplinkStart : Link :=
  Link.fresh (initTxManager 1 none 4 fun _ => ⟨false, Packet.zero⟩)
    fun _ => initTxManager maxNodes (some NodeQueue.empty) 4 fun _ => ⟨false, Packet.zero⟩

theorem uplinkStart_init : (uplinkSystem 5 4).init uplinkStart := ⟨_, _, _, rfl⟩

/-- One packet is sent, accepted and freed. -/
theorem uplink_delivers_one :
    ∃ s, (uplinkSystem 5 4).Reachable s ∧ s.freed = [some (masterNodeId, 0)] ∧
      s.accepted masterNodeId <+: s.submitted masterNodeId ∧
      ∀ x ∈ s.freed, ∃ n, x = some (masterNodeId, n) ∧ n < (s.accepted masterNodeId).length := by
  obtain ⟨s, hrun, hfreed⟩ : ∃ s, (uplinkSystem 5 4).run uplinkStart
      [.allocate, .submit 0 masterNodeId .nodeData 3, .transmit 1, .receive masterNodeId, .sendAck masterNodeId,
        .receiveAck masterNodeId] = .ok s ∧ s.freed = [some (masterNodeId, 0)] := ⟨_, rfl, rfl⟩
  have hs : (uplinkSystem 5 4).Reachable s := System.Reachable.run (.init uplinkStart_init) hrun
  exact ⟨s, hs, hfreed, uplink_delivers_in_order (by decide) (by decide) hs⟩

/-- The master submits to nodes that are registered. -/
def ToRegistered (_ : Link) : LinkAction → Prop
  | .submit ttl dst _ _ => 1 ≤ dst.toNat ∧ dst.toNat < maxNodes ∧ ttl ≠ 0
  | _ => True

theorem linkInv_downlink {maxEntries : UInt8} (hsize : maxEntries.toNat ≤ 254)
    (h : (downlinkSystem maxEntries).ReachableWhen ToRegistered s) :
    ∃ g, LinkInv { isMaster := true, srcNodeId := masterNodeId } s g := by
  refine System.ReachableWhen.invariant (P := fun s => ∃ g,
    LinkInv { isMaster := true, srcNodeId := masterNodeId } s g)
    h ?_ ?_
  · rintro s ⟨entries, rxEntries, rxMaxEntries, rfl⟩
    exact ⟨Ledger.zero, linkInv_fresh (senderInv_init hsize fun _ => ⟨rfl, rfl⟩) (fun hc => by cases hc)
      not_live_init fun _ => ⟨Nat.one_pos, rfl⟩⟩
  · rintro s a s' ⟨g, hinv⟩ hg hs
    refine hinv.step ?_ hs
    cases a with
    | submit ttl dst type size =>
        intro _
        obtain ⟨hpos, -, httl⟩ := hg
        refine ⟨?_, httl⟩
        rintro rfl
        exact absurd hpos (by decide)
    | _ => exact trivial

/-- Only the application's own mistakes fail: an allocation before the last packet is submitted,
and a submission without an allocation. -/
theorem downlink_fault {g : Ledger} (h : LinkInv { isMaster := true, srcNodeId := masterNodeId } s g) {a : LinkAction}
    (ha : ToRegistered s a) {f : Fault} (hs : s.step { isMaster := true, srcNodeId := masterNodeId } a = .error f) :
    f = .assertFailed .allocateTxPacket ∨ f = .nullPointer .submitAllocatedTxPacket := by
  have hsender : SenderInv true s.sender g := h.sender
  cases a with
  | allocate =>
      left
      change s.allocate = _ at hs
      unfold Link.allocate at hs
      cases hr : allocateTxPacket s.sender with
      | error e =>
          rw [hr] at hs
          cases hs
          exact allocateTxPacket_error hr
      | ok r =>
          obtain ⟨i, m⟩ := r
          rw [hr] at hs
          cases i <;> cases hs
  | submit ttl dst type size =>
      right
      obtain ⟨-, hdst, httl⟩ := ha
      change s.submit _ ttl dst type size = _ at hs
      unfold Link.submit at hs
      cases hr : submitAllocatedTxPacket s.sender true ttl masterNodeId dst type size with
      | error e =>
          simp only [hr, bind, Except.bind] at hs
          cases hs
          refine submitAllocatedTxPacket_error httl (by decide) hdst ?_ ?_ hr
          · rw [hsender.table rfl]
            exact hdst
          · intro hne
            obtain ⟨i, hi⟩ := Option.ne_none_iff_exists'.mp hne
            exact addActiveTxNode_total hsender.store.counters (hsender.queue rfl)
              (fun x hx => (hsender.store.table x hx).trans_le (hsender.table rfl).le)
                (hsender.store.room_of_allocated hi dst) hdst
      | ok m =>
          simp only [hr, bind, Except.bind, httl, and_false, if_false] at hs
          cases ha : s.sender.allocatedPacket with
          | none => simp only [ha] at hs; cases hs
          | some i => simp only [ha] at hs; cases hs
  | transmit burstSize =>
      obtain ⟨r, hr⟩ := hsender.masterGetNext_total burstSize
      change s.transmit _ burstSize = _ at hs
      unfold Link.transmit Link.getNextTxDataPacket at hs
      rw [if_pos rfl, hr] at hs
      obtain ⟨i, m⟩ := r
      cases i <;> cases hs
  | receive d =>
      cases hdata : s.data d with
      | nil =>
          change s.receive _ d = _ at hs
          unfold Link.receive at hs
          rw [hdata] at hs
          cases hs
      | cons p rest =>
          obtain ⟨valid, m, -, ht, -⟩ := h.receive hdata
          cases ht.symm.trans hs
  | receiveAck d =>
      cases hacks : s.acks d with
      | nil =>
          change s.receiveAck _ d = _ at hs
          unfold Link.receiveAck at hs
          rw [hacks] at hs
          cases hs
      | cons a rest =>
          obtain ⟨m, g', -, ht, -⟩ := h.receiveAck hacks
          cases ht.symm.trans hs
  | write data => cases hs
  | loseData d i => cases hs
  | loseAck d i => cases hs
  | refuse d => cases hs
  | sendAck d => cases hs

/-- Each node accepts what was submitted to it, in order and without a gap; the queue of active
destinations lists those with unacknowledged packets once each; and nothing but a mistake of the
application faults. -/
theorem downlink_delivers_in_order {maxEntries : UInt8} (hsize : maxEntries.toNat ≤ 254)
    (h : (downlinkSystem maxEntries).ReachableWhen ToRegistered s) :
    (∀ d, s.accepted d <+: s.submitted d) ∧
      (∃ q, s.sender.activeTxNodes = some q ∧ q.toList.Nodup ∧
        ∀ d, d ∈ q.toList ↔ s.sender.txSeqNumStart d ≠ s.sender.txSeqNumEnd d) ∧
      ∀ a f, ToRegistered s a → (downlinkSystem maxEntries).step s a = .error f →
        f = .assertFailed .allocateTxPacket ∨ f = .nullPointer .submitAllocatedTxPacket := by
  obtain ⟨g, hinv⟩ := linkInv_downlink hsize h
  refine ⟨hinv.accepted_prefix, ?_, fun a f ha hs => downlink_fault hinv ha hs⟩
  have hsender : SenderInv true s.sender g := hinv.sender
  obtain ⟨q, hq, hnodup, hmem⟩ := hsender.queue rfl
  refine ⟨q, hq, hnodup, ?_⟩
  intro d
  have hle := hsender.store.start_le_stop d
  have hfull := hsender.full d
  rw [hmem, hsender.store.start_eq, hsender.store.stop_eq, Ne, seq_start_eq_end hle hfull.le]
  omega

def downlinkStart : Link :=
  Link.fresh (initTxManager maxNodes (some NodeQueue.empty) 4 fun _ => ⟨false, Packet.zero⟩)
    fun _ => initTxManager 1 none 4 fun _ => ⟨false, Packet.zero⟩

theorem downlinkStart_init : (downlinkSystem 4).init downlinkStart := ⟨_, _, _, rfl⟩

/-- A packet to node 1 is lost while one to node 2 arrives. -/
theorem downlink_delivers_one :
    ∃ s, (downlinkSystem 4).ReachableWhen ToRegistered s ∧ (s.submitted 1).length = 1 ∧ s.accepted 1 = [] ∧
      (s.accepted 2).length = 1 ∧ (∀ d, s.accepted d <+: s.submitted d) ∧
      (∃ q, s.sender.activeTxNodes = some q ∧ q.toList.Nodup ∧
        ∀ d, d ∈ q.toList ↔ s.sender.txSeqNumStart d ≠ s.sender.txSeqNumEnd d) ∧
      ∀ a f, ToRegistered s a → (downlinkSystem 4).step s a = .error f →
        f = .assertFailed .allocateTxPacket ∨ f = .nullPointer .submitAllocatedTxPacket := by
  obtain ⟨s, hrun, h1, h2, h3⟩ : ∃ s, (downlinkSystem 4).run downlinkStart
      [.allocate, .submit 128 1 .masterData 3, .allocate, .submit 128 2 .masterData 5, .transmit 1, .transmit 1,
        .loseData 1 0, .receive 2] = .ok s ∧ (s.submitted 1).length = 1 ∧ s.accepted 1 = [] ∧
      (s.accepted 2).length = 1 := ⟨_, rfl, rfl, rfl, rfl⟩
  have hmeets : (downlinkSystem 4).RunMeets ToRegistered downlinkStart
      [.allocate, .submit 128 1 .masterData 3, .allocate, .submit 128 2 .masterData 5, .transmit 1, .transmit 1,
        .loseData 1 0, .receive 2] := by
    refine ⟨trivial, fun _ _ => ⟨⟨by decide, by decide, by decide⟩, fun _ _ => ⟨trivial, fun _ _ =>
      ⟨⟨by decide, by decide, by decide⟩, fun _ _ =>
        ⟨trivial, fun _ _ => ⟨trivial, fun _ _ => ⟨trivial, fun _ _ =>
        ⟨trivial, fun _ _ => trivial⟩⟩⟩⟩⟩⟩⟩⟩
  have hs := System.ReachableWhen.run (.init downlinkStart_init) hmeets hrun
  exact ⟨s, hs, h1, h2, h3, downlink_delivers_in_order (by decide) hs⟩

end Microbus
