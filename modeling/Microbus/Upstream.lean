import Microbus.NodeOutbox
import Microbus.MasterInbox
import Microbus.FrameOwners
import Microbus.OneSender

/-! The packets for the master from end to end: what the applications of the nodes submit, and what the
application of the master takes. -/
namespace Microbus

open Transition GoBackN

def BusAction.nodeSubmits {n : Nat} (bus : Bus n) (i : Fin n) : BusAction n → List Payload
  | .node j call => if i = j then call.submits (bus.node i) else []
  | _ => []

def BusAction.masterTakes {n : Nat} (bus : Bus n) (d : TNodeIndex) : BusAction n → List Payload
  | .master call => call.takes bus.master d
  | _ => []

/-- A bus and the history of its applications: the packets that each node has submitted since it had no id, and
those that were taken from each id since the master last gave it out. -/
structure Upstream (n : Nat) where
  bus : Bus n
  submitted : Fin n → List Payload
  taken : TNodeIndex → List Payload

/-- The history goes on as long as the node has an id, and the id is taken. -/
def Upstream.record {n : Nat} (s : Upstream n) (a : BusAction n) (bus : Bus n) : Upstream n where
  bus
  submitted i := (bus.node i).stillSubmitted (s.submitted i ++ a.nodeSubmits s.bus i)
  taken d := if bus.master.masterNodeTimeToLive d = 0 then [] else s.taken d ++ a.masterTakes s.bus d

def Upstream.system {n : Nat} (cfg : BusConfig n) : System (Upstream n) (BusAction n) Fault where
  init s := (busSystem cfg).init s.bus ∧ s.submitted = (fun _ => []) ∧ s.taken = fun _ => []
  step s a := do
    let bus ← (busSystem cfg).step s.bus a
    return s.record a bus

/-- The nodes give up their ids first and take in announced slots only, and the master removes no node while a
frame of it is on the bus. -/
def Upstream.HearsFirst {n : Nat} (width : Nat) (s : Upstream n) : BusAction n → Prop
  | .slot input => s.bus.GivesUpFirst input ∧ TakesAnnounced width s.bus (.slot input) ∧
      ∀ j, ∀ p ∈ s.bus.uplink j, p.fromNode → ¬ s.bus.master.Marks input.masterUs p.srcNodeId
  | _ => True

instance {n : Nat} (width : Nat) (s : Upstream n) : (a : BusAction n) → Decidable (s.HearsFirst width a)
  | .slot input => inferInstanceAs (Decidable (s.bus.GivesUpFirst input ∧ TakesAnnounced width s.bus (.slot input) ∧
      ∀ j, ∀ p ∈ s.bus.uplink j, p.fromNode → ¬ s.bus.master.Marks input.masterUs p.srcNodeId))
  | .master _ => inferInstanceAs (Decidable True)
  | .node _ _ => inferInstanceAs (Decidable True)

/-- The conversation of node `i` with the master, which knows the node as `d`. The number of the packet that was
accepted last is on its way to the node all the time. -/
structure Upstream.Talk {n : Nat} (s : Upstream n) (g : Ledger) (i : Fin n) (d : TNodeIndex)
    (c : Conversation Payload) :
    Prop where
  converses : ∃ flying, (s.bus.node i).Converses g (s.submitted i) flying c ∧
    Framed seq (g.start masterNodeId) flying (dataFrom d (s.bus.uplink i))
  delivered : c.delivered = s.taken d ++ s.bus.master.receivedFrom d
  acks : c.acks.map ackOf = (s.bus.node i).savedAcks ++ [s.bus.master.tx.txManager.rxSeqNum d]
  expects : s.bus.master.tx.txManager.rxSeqNum d = ackOf c.delivered.length

/-- A node with what it has submitted, and its conversation if it has an id. -/
structure Upstream.Sends {n : Nat} (s : Upstream n) (g : Ledger) (i : Fin n) : Prop where
  posts : (s.bus.node i).Posts g (s.submitted i)
  talk : (s.bus.node i).nodeId ≠ unallocatedNodeId → ∃ c, s.Talk g i (s.bus.node i).nodeId c

/-- What holds between two actions. -/
structure Upstream.Inv {n : Nat} (cfg : BusConfig n) (s : Upstream n) : Prop where
  signed : s.bus.Signed cfg
  present : ∀ j, ∀ p ∈ s.bus.uplink j, p.fromNode → Station p.srcNodeId ∧
    s.bus.master.masterNodeTimeToLive p.srcNodeId ≠ 0
  announced : ∀ p ∈ s.bus.downlink, ∀ k : Fin maxTxNodesScheduled,
    k.val < cfg.master.numTxNodesScheduled.toNat →
    Station (p.nextTxNodeId k) → p.nextTxNodeAckSeqNum k = s.bus.master.tx.txManager.rxSeqNum (p.nextTxNodeId k)
  inbox : s.bus.master.Inbox (some .pre)
  untaken : ∀ d, Station d → s.bus.master.Unheard d → s.taken d = []
  sends : ∀ i, ∃ g, s.Sends g i

section Slot

variable {n : Nat} {cfg : BusConfig n} {s s' : Upstream n} {g g' : Ledger} {input : SlotInput n} {i : Fin n}
  {d : TNodeIndex}

/-- A slot of a conversation: the node takes in the number that was on its way and sends, and the master reads
the frame of the slot before. -/
theorem Upstream.Talk.slot {c : Conversation Payload} (h : s.Talk g i d c) {hearing : Hearing} {received : Packet}
    {crcError : Bool}
    (hslot : (s.bus.node i).PostsSlot (s'.bus.node i) g g' (s.submitted i) s.bus.downlink (s'.bus.uplink i) hearing)
    (hid : (s'.bus.node i).nodeId = d) (hjoined : d ≠ unallocatedNodeId)
    (hsubmitted : s'.submitted i = s.submitted i) (htaken : s'.taken d = s.taken d)
    (hsaved : ∀ a ∈ (s'.bus.node i).savedAcks, a = s.bus.master.tx.txManager.rxSeqNum d)
    (haccepts : s.bus.master.Accepts s'.bus.master d received crcError)
    (hread : masterAcceptsFrame received crcError → received.getPacketType = some .nodeData →
      received.srcNodeId = d →
      s.bus.uplink i = some received) : ∃ c', s'.Talk g' i d c' := by
  obtain ⟨flying, hconverses, hframed⟩ := h.converses
  obtain ⟨c₁, sent, h₁, hdelivered₁, hacks₁, hsent⟩ :=
    hslot.converses (hid.symm ▸ hjoined) flying c _ hconverses h.acks
  have hflying := hframed.mono (hslot.start_le (hid.symm ▸ hjoined))
  rw [hid] at hsent
  rw [← hsubmitted] at h₁
  obtain ⟨c₂, h₂, hdelivered₂, hacks₂⟩ := h₁.hear (hacks₁ ▸ Node.savedAcks_of_eq hsaved)
  have htakes : ∃ c₃, (s'.bus.node i).Converses g' (s'.submitted i) sent c₃ ∧
      c₃.delivered = s'.taken d ++ s'.bus.master.receivedFrom d ∧ c₃.acks = c₂.acks ∧
      s'.bus.master.tx.txManager.rxSeqNum d = ackOf c₃.delivered.length := by
    rw [htaken]
    cases haccepts with
    | nothing hreceived hexpects =>
        obtain ⟨c₃, h₃, hdelivered₃, hacks₃⟩ := h₂.refuse
        refine ⟨c₃, h₃, ?_, hacks₃, ?_⟩
        · rw [hdelivered₃, hdelivered₂, hdelivered₁, h.delivered, hreceived]
        · rw [hdelivered₃, hdelivered₂, hdelivered₁, hexpects, h.expects]
    | packet haccept hdata hsrc hexpected hreceived hnext =>
        rw [hread haccept hdata hsrc, dataFrom, if_pos ⟨hdata, hsrc⟩] at hflying
        rw [h.expects, expectedSeqNum_ackOf, ← hdelivered₁, ← hdelivered₂] at hexpected hnext
        cases hflying with
        | cons hframe hrest =>
            cases hrest
            obtain ⟨c₃, h₃, hdelivered₃, hacks₃⟩ := h₂.deliver hframe hexpected
            refine ⟨c₃, h₃, ?_, hacks₃, ?_⟩
            · rw [hdelivered₃, hdelivered₂, hdelivered₁, h.delivered, hreceived, List.append_assoc]
            · rw [hnext, hdelivered₃, List.length_append, List.length_singleton, ackOf_succ]
  obtain ⟨c₃, h₃, hdelivered₃, hacks₃, hexpects₃⟩ := htakes
  refine ⟨c₃.sendAck, ⟨⟨sent, h₃.sendAck, hsent⟩, hdelivered₃, ?_, hexpects₃⟩⟩
  rw [Conversation.sendAck, List.map_append, hacks₃, hacks₂, hexpects₃]
  rfl

namespace Upstream.Inv

/-- A node that keeps an id in the slot is in a conversation, and one that is offered an id begins one. -/
theorem meets (h : s.Inv cfg) (hids : Function.Injective cfg.uniqueId) (hfirst : s.bus.GivesUpFirst input)
    (hsends : s.Sends g i)
    (hclaim : (s.bus.node i).kept (input.nodeUs i) = some d ∨ (s.bus.node i).offered = some d) :
    ∃ c, s.Talk g i d c := by
  rcases hclaim with hkept | hoffered
  · obtain rfl := Node.nodeId_of_kept hkept
    refine hsends.talk fun hid => ?_
    rw [Node.kept, if_neg (fun hc => hc.1 hid)] at hkept
    cases hkept
  · have hun : (s.bus.node i).nodeId = unallocatedNodeId := by
      by_contra hid
      rw [Node.offered, if_neg (fun hc => hid hc.1)] at hoffered
      cases hoffered
    obtain ⟨hrequest, -⟩ := hfirst.offered i d hoffered
    obtain ⟨hstation, -⟩ := (members_of_bus h.signed.reachable).there _ hrequest
    have hunheard : s.bus.master.Unheard d := Or.inr ⟨_, hrequest, rfl⟩
    obtain ⟨hnull, hnone⟩ := h.inbox.unheard d hstation hunheard
    refine ⟨Conversation.initial.sendAck, ⟨[], hsends.posts.begin (h.signed.labelled i) hun, ?_⟩, ?_, ?_, hnull⟩
    · rw [dataFrom_eq_nil fun p hp htype => h.signed.silent hids hfirst hoffered i p hp (Or.inl htype)]
      exact .nil
    · rw [h.untaken d hstation hunheard, hnone]
      rfl
    · rw [(hsends.posts.idle hun).2, hnull]
      rfl

theorem slot (h : s.Inv cfg) (hdual : cfg.master.mode = .dual) (hids : Function.Injective cfg.uniqueId)
    (hguard : s.HearsFirst cfg.master.numTxNodesScheduled.toNat (.slot input)) {bus : Bus n}
    (hs : (busSystem cfg).step s.bus (.slot input) = .ok bus) : (s.record (.slot input) bus).Inv cfg := by
  obtain ⟨hfirst, htakes, hunmarked⟩ := hguard
  have hdevices := devices_of_reachable h.signed.reachable
  have hready := ready_of_bus h.signed.reachable
  obtain ⟨hsigned, hreplies⟩ := h.signed.slot hdual hids hfirst hs
  have hvalid := (validIds_of_reachable hsigned.reachable).nodeId
  have hs : s.bus.step cfg.master.mode (.slot input) = .ok bus := hs
  rw [hdual] at hs
  have hannounced := Bus.runDualChannel_acks hdevices.1 (devices_of_reachable hsigned.reachable).1 hs
  obtain ⟨k, m, master, downlink, slots, hpost, hpre, hslots, rfl⟩ := Bus.runDualChannel_ok hs
  obtain ⟨hstays, hasked⟩ := dualSlot_asksSince hpost hpre
  have hm := members_of_postProcess hdual (hdevices.1.updateTimeUs input.masterUs) hpost
  have hthere : masterAcceptsFrame (input.uplink.received s.bus.uplink).1 (input.uplink.received s.bus.uplink).2 →
      (input.uplink.received s.bus.uplink).1.fromNode →
      m.masterNodeTimeToLive (input.uplink.received s.bus.uplink).1.srcNodeId ≠ 0 := by
    intro haccept hnode hzero
    obtain ⟨j, hj⟩ := Uplink.read haccept
    obtain ⟨hstation, hold⟩ := h.present j _ hj hnode
    refine hstays _ hstation hold (hunmarked j _ hj hnode) ?_
    obtain ⟨m₁, m₂, h₁, h₂, rfl⟩ := preProcess_ok hpre
    exact (preProcess_timeToLive h₁ h₂ _).mpr hzero
  obtain ⟨hinbox, haccepts⟩ := h.inbox.dualSlot hpost hm hthere hpre
  refine ⟨hsigned, fun j p hp hnode => ?_, hannounced, hinbox, fun d hd hunheard => ?_, fun i => ?_⟩
  · have hreply := hreplies j p hp hnode
    have hjoined : (slots j).1.nodeId ≠ unallocatedNodeId := hreply.joined
    rw [hreply.srcNodeId]
    exact ⟨(hvalid j).resolve_left hjoined, hsigned.apart.taken j hjoined⟩
  · by_cases hzero : master.masterNodeTimeToLive d = 0
    · exact if_pos hzero
    · obtain ⟨e, he, heq⟩ := hunheard.resolve_left hzero
      have hold : s.bus.master.Unheard d := (hasked e he).elim (fun hmem => Or.inr ⟨e, hmem, heq⟩) fun hfree =>
        Or.inl (heq ▸ hfree)
      refine (if_neg hzero).trans ?_
      rw [h.untaken d hd hold]
      rfl
  · obtain ⟨g, hsends⟩ := h.sends i
    obtain ⟨g', hslot⟩ := hsends.posts.runDualChannel (h.signed.labelled i) (hready i)
      (txInv_of_reachable (hdevices.2 i)) (hslots i)
    have hsubmitted : (s.record (.slot input) (.afterSlot master downlink slots)).submitted i =
        (slots i).1.stillSubmitted (s.submitted i) := congrArg (slots i).1.stillSubmitted (List.append_nil _)
    refine ⟨g', hsubmitted ▸ hslot.posts, fun hid => ?_⟩
    have hid : (slots i).1.nodeId ≠ unallocatedNodeId := hid
    have hclaim := ((Node.runDualChannel_holds (hready i) (hslots i)).2 hid).2
    obtain ⟨c, htalk⟩ := h.meets hids hfirst hsends hclaim
    have hzero : master.masterNodeTimeToLive (slots i).1.nodeId ≠ 0 := hsigned.apart.taken i hid
    have hstation : Station (slots i).1.nodeId := (hvalid i).resolve_left hid
    refine htalk.slot hslot rfl hid (hsubmitted.trans (if_neg hid)) ((if_neg hzero).trans (List.append_nil _))
      (fun a ha => ?_) (haccepts _ hzero) fun haccept hdata hsrc => ?_
    · obtain ⟨hintact, p, hp, j, hj, rfl⟩ := hslot.saved a ha
      have hj : p.nextTxNodeId j = (slots i).1.nodeId := hj
      rw [← hj] at hstation ⊢
      rcases Nat.lt_or_ge j.val cfg.master.numTxNodesScheduled.toNat with hlt | hge
      · exact h.announced p hp j hlt hstation
      · exact absurd hstation (NoOwner.not_station (htakes i hintact p hp j hge))
    · obtain ⟨j, hj⟩ := Uplink.read haccept
      have hij := h.signed.own hids hfirst hclaim j _ hj (Or.inl hdata) hsrc
      exact hij ▸ hj

end Upstream.Inv

end Slot

section Call

variable {n : Nat} {cfg : BusConfig n} {s s' : Upstream n} {g g' : Ledger} {i : Fin n} {d : TNodeIndex}

theorem Upstream.Sends.nodeCall (h : s.Sends g i) {more : List Payload}
    (hcall : (s.bus.node i).PostsCall (s'.bus.node i) g g' (s.submitted i) more)
    (hmaster : s'.bus.master = s.bus.master) (huplink : s'.bus.uplink = s.bus.uplink)
    (hsubmitted : s'.submitted i = (s'.bus.node i).stillSubmitted (s.submitted i ++ more))
    (htaken : (s'.bus.node i).nodeId ≠ unallocatedNodeId → s'.taken (s'.bus.node i).nodeId =
      s.taken (s'.bus.node i).nodeId) :
    s'.Sends g' i := by
  refine ⟨hsubmitted ▸ hcall.posts, fun hid => ?_⟩
  obtain ⟨hsame, hacks, hstart⟩ := hcall.kept hid
  have htaken := htaken hid
  rw [Node.stillSubmitted, if_neg hid] at hsubmitted
  rw [hsame] at htaken ⊢
  obtain ⟨c, htalk⟩ := h.talk (hsame ▸ hid)
  obtain ⟨flying, hflying, hframed⟩ := htalk.converses
  obtain ⟨c', hc', hdelivered, hacks'⟩ := hcall.converses hid flying c hflying
  refine ⟨c', ⟨flying, hsubmitted ▸ hc', ?_⟩, ?_, ?_, ?_⟩
  · rw [hstart, huplink]
    exact hframed
  · rw [hdelivered, htalk.delivered, htaken, hmaster]
  · rw [hacks', htalk.acks, hacks, hmaster]
  · rw [hdelivered, hmaster, htalk.expects]

namespace Upstream.Inv

theorem masterCall (h : s.Inv cfg) {call : MasterCall} {master : Master} (hc : s.bus.master.call call = .ok master) :
    (s.record (.master call) { s.bus with master }).Inv cfg := by
  obtain ⟨-, hnw, httl⟩ := Master.call_keeps hc
  obtain ⟨hinbox, htakes, hseq⟩ := h.inbox.call hc
  have hsigned := h.signed.masterCall hc
  have hkept : ∀ d, Station d → master.masterNodeTimeToLive d = s.bus.master.masterNodeTimeToLive d := fun d hd =>
    httl d fun hzero => absurd (hzero ▸ hd.1) (by decide)
  refine ⟨hsigned, fun j p hp hnode => ?_, fun p hp k hk hstation => ?_, hinbox, fun d hd hunheard =>
    ?_, fun i => ?_⟩
  · obtain ⟨hstation, hold⟩ := h.present j p hp hnode
    exact ⟨hstation, (hkept _ hstation).symm ▸ hold⟩
  · exact (h.announced p hp k hk hstation).trans (congrFun hseq _).symm
  · by_cases hzero : master.masterNodeTimeToLive d = 0
    · exact if_pos hzero
    · obtain ⟨e, he, heq⟩ := hunheard.resolve_left hzero
      have hold : s.bus.master.Unheard d := Or.inr ⟨e, hnw ▸ he, heq⟩
      have hnone := htakes d
      rw [(h.inbox.unheard d hd hold).2] at hnone
      refine (if_neg hzero).trans ?_
      rw [h.untaken d hd hold]
      exact (List.append_eq_nil_iff.mp hnone).1
  · obtain ⟨g, hsends⟩ := h.sends i
    have hsubmitted : (s.record (.master call) { s.bus with master }).submitted i = s.submitted i :=
      (congrArg (s.bus.node i).stillSubmitted (List.append_nil _)).trans hsends.posts.stillSubmitted
    refine ⟨g, hsubmitted ▸ hsends.posts, fun hid => ?_⟩
    obtain ⟨c, htalk⟩ := hsends.talk hid
    refine ⟨c, hsubmitted ▸ htalk.converses, ?_, ?_, (congrFun hseq _).trans htalk.expects⟩
    · have htaken : (s.record (.master call) { s.bus with master }).taken (s.bus.node i).nodeId =
          s.taken (s.bus.node i).nodeId ++ call.takes s.bus.master (s.bus.node i).nodeId :=
            if_neg (hsigned.apart.taken i hid)
      change c.delivered = (s.record (.master call) { s.bus with master }).taken (s.bus.node i).nodeId ++ _
      rw [htaken, htalk.delivered, List.append_assoc]
      exact congrArg _ (htakes _).symm
    · rw [htalk.acks]
      exact congrArg (fun a => _ ++ [a]) (congrFun hseq _).symm

theorem nodeCall (h : s.Inv cfg) {i : Fin n} {call : NodeCall} {node : Node}
    (hc : (s.bus.node i).step (call.action cfg.master.mode) = .ok node) :
    (s.record (.node i call) { s.bus with node := Function.update s.bus.node i node }).Inv cfg := by
  have hsigned := h.signed.nodeCall hc
  have htaken : ∀ d, (s.record (.node i call) { s.bus with node := Function.update s.bus.node i node }).taken d =
      if s.bus.master.masterNodeTimeToLive d = 0 then [] else s.taken d := by
    intro d
    change (if _ then [] else s.taken d ++ []) = _
    rw [List.append_nil]
  refine ⟨hsigned, h.present, h.announced, h.inbox, fun d hd hunheard => ?_, fun j => ?_⟩
  · rw [htaken, h.untaken d hd hunheard, ite_self]
  · obtain ⟨g, hsends⟩ := h.sends j
    have hcall : ∃ g', (s.bus.node j).PostsCall (Function.update s.bus.node i node j) g g' (s.submitted j)
        (if j = i then call.submits (s.bus.node j) else []) := by
      by_cases hj : j = i
      · subst hj
        rw [Function.update_self, if_pos rfl]
        exact hsends.posts.call (ready_of_bus h.signed.reachable j) hc
      · rw [Function.update_of_ne hj, if_neg hj]
        exact ⟨g, hsends.posts.sameCall rfl rfl hsends.posts.outbox rfl rfl (fun _ => ⟨rfl, rfl⟩) fun _ => id⟩
    obtain ⟨g', hcall⟩ := hcall
    exact ⟨g', hsends.nodeCall hcall rfl rfl rfl fun hid => (htaken _).trans (if_neg (hsigned.apart.taken j hid))⟩

end Upstream.Inv

end Call

section Run

variable {n : Nat} {cfg : BusConfig n} {s s' : Upstream n}

theorem Upstream.Inv.init (hsize : ∀ i, (cfg.maxTxPacketEntries i).toNat ≤ 254)
    (h : (Upstream.system cfg).init s) : s.Inv cfg := by
  obtain ⟨bus, submitted, taken⟩ := s
  obtain ⟨hinit, rfl, rfl⟩ := h
  have hsigned : bus.Signed cfg := .init hinit
  obtain ⟨⟨entries, hmaster⟩, hnodes, hdown, hup⟩ := hinit
  refine ⟨hsigned, fun j p hp => ?_, fun p hp => ?_, .init hmaster, fun _ _ _ => rfl, fun i => ?_⟩
  · cases (congrFun hup j).symm.trans hp
  · cases hdown.symm.trans hp
  · obtain ⟨entries, hnode⟩ := hnodes i
    have hblank := (nodeInit_blank hnode).1
    exact ⟨_, hblank.posts ((nodeInit_size hnode).trans_le (hsize i)), fun hid => absurd hblank.fresh.nodeId hid⟩

theorem Upstream.Inv.step (h : s.Inv cfg) (hdual : cfg.master.mode = .dual) (hids : Function.Injective cfg.uniqueId)
    {a : BusAction n} (hguard : s.HearsFirst cfg.master.numTxNodesScheduled.toNat a)
    (hs : (Upstream.system cfg).step s a = .ok s') : s'.Inv cfg := by
  obtain ⟨bus, hbus, hs⟩ := bind_eq_ok.mp hs
  cases hs
  cases a with
  | slot input => exact h.slot hdual hids hguard hbus
  | master call =>
      obtain ⟨master, hcall, hbus⟩ := bind_eq_ok.mp hbus
      cases hbus
      exact h.masterCall hcall
  | node i call =>
      obtain ⟨node, hcall, hbus⟩ := bind_eq_ok.mp hbus
      cases hbus
      exact h.nodeCall hcall

/-- What the application of the master takes from a node that has an id, and what is there for it, is what the
application of the node submitted, from the first packet on and in order; and every packet behind that is still
in a buffer of the node. -/
theorem master_takes_what_was_submitted (hdual : cfg.master.mode = .dual) (hids : Function.Injective cfg.uniqueId)
    (hsize : ∀ i, (cfg.maxTxPacketEntries i).toNat ≤ 254)
    (h : (Upstream.system cfg).ReachableWhen (Upstream.HearsFirst cfg.master.numTxNodesScheduled.toNat) s)
    {i : Fin n} {d : TNodeIndex} (hid : (s.bus.node i).nodeId = d) (hjoined : d ≠ unallocatedNodeId) :
    s.taken d ++ s.bus.master.receivedFrom d <+: s.submitted i ∧
      ∀ k x, (s.taken d ++ s.bus.master.receivedFrom d).length ≤ k → (s.submitted i)[k]? = some x →
        ∃ e, (s.bus.node i).txManager.Live e ∧
          ((s.bus.node i).txManager.entry e).packet.IsDataFrom d (seq k) x := by
  have hinv : s.Inv cfg :=
    System.ReachableWhen.invariant h (fun _ hinit => .init hsize hinit) fun _ _ _ hinv hguard hs =>
      hinv.step hdual hids hguard hs
  obtain ⟨g, hsends⟩ := hinv.sends i
  subst hid
  obtain ⟨c, hc⟩ := hsends.talk hjoined
  obtain ⟨_, hconverses, -⟩ := hc.converses
  have htalks := hconverses.talks
  rw [← hc.delivered]
  refine ⟨htalks.submitted ▸ htalks.inv.delivered_prefix, fun k x hk hx => ?_⟩
  have hstart := htalks.inv.start_le
  rw [htalks.start] at hstart
  obtain ⟨e, hlive, htype, hseq, hpayload⟩ := hsends.posts.outbox.buffered (hstart.trans hk) hx
  exact ⟨e, hlive, htype, ((hinv.signed.labelled i).live e hlive).2, hseq, hpayload⟩

def twoReplies (i : Fin 1) : List (BusAction 1) :=
  List.replicate 28 (.slot clearSlot) ++ [.node i .allocate, .node i (.submit 5), .node i .allocate,
    .node i (.submit 6)] ++
    List.replicate 4 (.slot clearSlot)

theorem master_takes_what_was_submitted_twoReplies : ∃ s : Upstream 1,
    (Upstream.system (oneNodeConfig .dual 1)).ReachableWhen (Upstream.HearsFirst 1) s ∧ (s.bus.node 0).nodeId = 1 ∧
      (s.taken 1).map Payload.size = [5] ∧ (s.bus.master.receivedFrom 1).map Payload.size = [6] ∧
      s.taken 1 ++ s.bus.master.receivedFrom 1 <+: s.submitted 0 := by
  obtain ⟨s, hreach, hs⟩ := System.exists_of_decidedRun (S := Upstream.system (oneNodeConfig .dual 1))
    (s := ⟨freshBus 1 fun _ => ⟨false, Packet.zero⟩, fun _ => [], fun _ => []⟩) (Upstream.HearsFirst 1)
    (p := fun s => (s.bus.node 0).nodeId == 1 && (s.taken 1).map Payload.size == [5] &&
      (s.bus.master.receivedFrom 1).map Payload.size == [6])
    (twoReplies 0 ++ [.master .pop]) (.init ⟨freshBus_init .dual 1 _, rfl, rfl⟩) (by decide +kernel)
  simp only [Bool.and_eq_true, beq_iff_eq] at hs
  obtain ⟨⟨hid, htaken⟩, hreceived⟩ := hs
  exact ⟨s, hreach, hid, htaken, hreceived,
    (master_takes_what_was_submitted rfl (fun i j _ => Subsingleton.elim i j)
      (fun _ => (by decide : (4 : UInt8).toNat ≤ 254))
      hreach hid (by decide)).1⟩

end Run

end Microbus
