import Microbus.Inbox
import Microbus.FrameOwners

/-! The packets for the nodes from end to end: what the application of the master submits, and what the applications of
the nodes take. -/
namespace Microbus

open Transition GoBackN

def BusAction.submits {n : Nat} (bus : Bus n) (d : TNodeIndex) : BusAction n → List Payload
  | .master call => call.submits bus.master d
  | _ => []

def BusAction.takes {n : Nat} (bus : Bus n) (i : Fin n) : BusAction n → List Payload
  | .node j call => if i = j then call.takes (bus.node i) else []
  | _ => []

/-- A bus and the history of its applications: the packets submitted to each id since the master last gave it out, and
those that each node has taken since it had no id. -/
structure Downlink (n : Nat) where
  bus : Bus n
  submitted : TNodeIndex → List Payload
  taken : Fin n → List Payload

/-- The history goes on as long as the id is taken, and the node has one. -/
def Downlink.record {n : Nat} (s : Downlink n) (a : BusAction n) (bus : Bus n) : Downlink n where
  bus
  submitted := bus.master.stillSubmitted fun d => s.submitted d ++ a.submits s.bus d
  taken i := if (bus.node i).nodeId = unallocatedNodeId then [] else s.taken i ++ a.takes s.bus i

def Downlink.system {n : Nat} (cfg : BusConfig n) : System (Downlink n) (BusAction n) Fault where
  init s := (busSystem cfg).init s.bus ∧ s.submitted = (fun _ => []) ∧ s.taken = fun _ => []
  step s a := do
    let bus ← (busSystem cfg).step s.bus a
    return s.record a bus

/-- The nodes give up their ids first, and the master loses no packet: not the allocated one to a search or a
removal, and none to a call. -/
def Downlink.LosesNothing {n : Nat} (s : Downlink n) : BusAction n → Prop
  | .slot input => s.bus.GivesUpFirst input ∧ ¬ s.bus.master.tx.txManager.FindsPending ∧
      ¬ (masterUpdateTimeUs s.bus.master input.masterUs).RemovesPending
  | .master call => s.bus.master.KeepsPackets call
  | .node _ _ => True

/-- The conversation of the master with node `i`, which has the id `d` or is about to take it. -/
structure Downlink.Talk {n : Nat} (s : Downlink n) (g : Ledger) (i : Fin n) (d : TNodeIndex)
    (c : Conversation Payload) :
    Prop where
  talks : Talks g s.submitted d c
  delivered : c.delivered = s.taken i ++ (s.bus.node i).received
  data : c.data.map wire = dataTo d s.bus.downlink
  acks : c.acks.map ackOf = acksFrom d s.bus.master.heard ++ acksFrom d (s.bus.uplink i)
  expects : (s.bus.node i).txManager.rxSeqNum masterNodeId = ackOf c.delivered.length

/-- What holds between two actions. -/
structure Downlink.Inv {n : Nat} (cfg : BusConfig n) (s : Downlink n) (g : Ledger) : Prop where
  reachable : (busSystem cfg).Reachable s.bus
  apart : s.bus.IdsApart cfg
  posts : s.bus.master.Posts g s.submitted
  heard : ∀ p ∈ s.bus.master.heard, p.fromNode → ∀ e ∈ s.bus.master.nwManager.newNodes, e.2 ≠ p.srcNodeId
  known : ∀ d, Station d → s.bus.master.masterNodeTimeToLive d ≠ 0 →
    ∀ q ∈ dataTo d s.bus.downlink, ∃ a, q.1 = seq a ∧ (s.submitted d)[a]? = some q.2
  labelled : ∀ i, (s.bus.node i).Labelled
  inbox : ∀ i, (s.bus.node i).Inbox
  idle : ∀ i, (s.bus.node i).nodeId = unallocatedNodeId → s.taken i = []
  answers : ∀ j, ∀ p ∈ s.bus.uplink j, p.fromNode → s.bus.Answers cfg j p.srcNodeId
  talk : ∀ i, (s.bus.node i).nodeId ≠ unallocatedNodeId → ∃ c, s.Talk g i (s.bus.node i).nodeId c

section Conversation

variable {m : TxManager} {g : Ledger} {d : TNodeIndex} {submitted : TNodeIndex → List Payload}
  {c : Conversation Payload}

theorem exists_wire {frame : Option Packet}
    (h : ∀ q ∈ dataTo d frame, ∃ a, q.1 = seq a ∧ (submitted d)[a]? = some q.2) :
    ∃ data : List (Nat × Payload), data.map wire = dataTo d frame ∧ data.length ≤ 1 ∧ ∀ p ∈ data,
      (submitted d)[p.1]? = some p.2 := by
  have hshort : dataTo d frame = [] ∨ ∃ q, dataTo d frame = [q] := by
    cases frame with
    | none => exact Or.inl rfl
    | some p =>
        dsimp only [dataTo]
        split
        · exact Or.inr ⟨_, rfl⟩
        · exact Or.inl rfl
  rcases hshort with hnone | ⟨q, hq⟩
  · exact ⟨[], hnone.symm, Nat.zero_le _, fun p hp => absurd hp List.not_mem_nil⟩
  · obtain ⟨a, ha, hx⟩ := h q (hq ▸ List.mem_singleton_self q)
    refine ⟨[(a, q.2)], ?_, Nat.le_refl _, fun p hp => List.mem_singleton.mp hp ▸ hx⟩
    rw [hq, List.map_singleton, wire, ← ha]

theorem Talks.begin (h : Outbox m g submitted) (hstart : g.start d = 0) {data : List (Nat × Payload)}
    (hlength : data.length ≤ 1) (hdata : ∀ p ∈ data, (submitted d)[p.1]? = some p.2) :
    Talks g submitted d ⟨submitted d, 0, g.next d, [], data, []⟩ where
  inv := by
    have hnext := h.balanced.store.next_le_stop d
    have hroom := h.balanced.room d
    have hstop := h.length d
    refine ⟨Nat.le_refl _, Nat.zero_le _, ?_, ?_, List.nil_prefix, hdata, ?_, fun p _ => Nat.zero_le _,
      List.Pairwise.nil,
      fun r hr => absurd hr List.not_mem_nil⟩
    · change g.next d ≤ (submitted d).length
      omega
    · change (submitted d).length ≤ 0 + 254
      omega
    · rcases data with - | ⟨p, - | ⟨q, rest⟩⟩
      · exact List.Pairwise.nil
      · exact List.pairwise_singleton _ _
      · exact absurd hlength (by simp)
  submitted := rfl
  start := hstart.symm
  next := rfl

theorem Talks.refuse (h : Talks g submitted d c) {old new : List (UInt8 × Payload)}
    (hdata : c.data.map wire = old ++ new) :
    ∃ c', Talks g submitted d c' ∧ c'.delivered = c.delivered ∧ c'.data.map wire = new ∧ c'.acks = c.acks := by
  obtain ⟨first, rest, hcdata, -, hrest⟩ := List.map_eq_append_iff.mp hdata
  have hsub : List.Sublist rest c.data := hcdata ▸ List.sublist_append_right first rest
  exact ⟨c.lose rest c.acks, ⟨h.inv.lose hsub (List.Sublist.refl _), h.submitted, h.start, h.next⟩,
    rfl, hrest, rfl⟩

theorem Talks.deliver (h : Talks g submitted d c) {x : Payload} {new : List (UInt8 × Payload)}
    (hdata : c.data.map wire = (expectedSeqNum (ackOf c.delivered.length), x) :: new) :
    ∃ c', Talks g submitted d c' ∧ c'.delivered = c.delivered ++ [x] ∧ c'.data.map wire = new ∧
      c'.acks = c.acks := by
  obtain ⟨⟨a, y⟩, rest, hcdata, hhead, hrest⟩ := List.map_eq_cons_iff.mp hdata
  rw [expectedSeqNum_ackOf] at hhead
  obtain ⟨hseq, hx⟩ := Prod.mk.inj hhead
  have hmem : (a, y) ∈ c.data := hcdata ▸ List.mem_cons_self
  have ha : a = c.delivered.length := (h.inv.data_residue (by decide) hmem).mp (seq_eq_iff.mp hseq)
  have ha' : a = (c.lose rest c.acks).delivered.length := ha
  have hinv := h.inv.deliver hcdata
  rw [Conversation.deliver, if_pos ha'] at hinv
  exact ⟨_, ⟨hinv, h.submitted, h.start, h.next⟩, hx ▸ rfl, hrest, rfl⟩

theorem Talks.reply (h : Talks g submitted d c) {frame : Option Packet}
    (hframe : ∀ p ∈ frame, p.fromNode → p.srcNodeId = d ∧ p.ackSeqNum = ackOf c.delivered.length) :
    ∃ c', Talks g submitted d c' ∧ c'.delivered = c.delivered ∧ c'.data = c.data ∧
      c'.acks.map ackOf = c.acks.map ackOf ++ acksFrom d frame := by
  by_cases hnode : ∃ p ∈ frame, p.fromNode
  · obtain ⟨p, hp, hfrom⟩ := hnode
    obtain ⟨hsrc, hack⟩ := hframe p hp hfrom
    refine ⟨c.sendAck, ⟨h.inv.sendAck, h.submitted, h.start, h.next⟩, rfl, rfl, ?_⟩
    rw [Option.mem_def.mp hp, Conversation.sendAck, List.map_append, acksFrom, if_pos ⟨hfrom, hsrc⟩, hack]
    rfl
  · refine ⟨c, h, rfl, rfl, ?_⟩
    rw [acksFrom_eq_nil fun p hp hc => absurd ⟨p, hp, hc⟩ hnode, List.append_nil]

end Conversation

section Slot

variable {n : Nat} {cfg : BusConfig n} {s s' : Downlink n} {g g' : Ledger} {input : SlotInput n} {i : Fin n}
  {d : TNodeIndex}

/-- A slot of a conversation: the master works through what it heard and sends, and the node reads and answers. -/
theorem Downlink.Talk.slot {c : Conversation Payload} (h : s.Talk g i d c) {master : Master}
    (hheard : master.heard = s.bus.master.heard)
    (hposts : master.PostsSlot s'.bus.master g g' s.submitted s'.bus.downlink)
    (hsubmitted : s'.submitted = s'.bus.master.stillSubmitted s.submitted) (htaken : s'.taken i = s.taken i)
    (hthere : s'.bus.master.masterNodeTimeToLive d ≠ 0) (hid : (s'.bus.node i).nodeId = d)
    (haccepts : (s.bus.node i).Accepts (s'.bus.node i) s.bus.downlink)
    (hears : acksFrom d s'.bus.master.heard = [] ∨ acksFrom d (s.bus.uplink i) = acksFrom d s'.bus.master.heard)
    (hreplies : ∀ p ∈ s'.bus.uplink i, p.fromNode → (s'.bus.node i).Replies p) : ∃ c', s'.Talk g' i d c' := by
  obtain ⟨c₁, h₁, hdelivered₁, hacks₁, hdata₁⟩ :=
    hposts.talks d hthere c _ h.talks (hheard.symm ▸ h.acks)
  rw [← hsubmitted] at h₁
  rw [h.data] at hdata₁
  have hread : ∃ c₂, Talks g' s'.submitted d c₂ ∧ c₂.delivered = s'.taken i ++ (s'.bus.node i).received ∧
      c₂.data.map wire = dataTo d s'.bus.downlink ∧ c₂.acks = c₁.acks ∧
      (s'.bus.node i).txManager.rxSeqNum masterNodeId = ackOf c₂.delivered.length := by
    rw [htaken]
    cases haccepts with
    | nothing hreceived hexpects =>
        obtain ⟨c₂, h₂, hdelivered₂, hdata₂, hacks₂⟩ := h₁.refuse hdata₁
        refine ⟨c₂, h₂, ?_, hdata₂, hacks₂, ?_⟩
        · rw [hdelivered₂, hdelivered₁, h.delivered, hreceived]
        · rw [hdelivered₂, hdelivered₁, hexpects, h.expects]
    | @packet x hdata hreceived hexpects =>
        rw [hid] at hdata
        rw [hdata, h.expects, ← hdelivered₁] at hdata₁
        obtain ⟨c₂, h₂, hdelivered₂, hdata₂, hacks₂⟩ := h₁.deliver hdata₁
        refine ⟨c₂, h₂, ?_, hdata₂, hacks₂, ?_⟩
        · rw [hdelivered₂, hdelivered₁, h.delivered, hreceived, List.append_assoc]
        · rw [hexpects, h.expects, expectedSeqNum_ackOf, hdelivered₂, hdelivered₁, List.length_append,
            List.length_singleton,
            ackOf_succ]
  obtain ⟨c₂, h₂, hdelivered₂, hdata₂, hacks₂, hexpects₂⟩ := hread
  obtain ⟨c₃, h₃, hdelivered₃, hdata₃, hacks₃⟩ :=
    h₂.hear (hears.imp_right fun heq => by rw [hacks₂, hacks₁, heq])
  obtain ⟨c₄, h₄, hdelivered₄, hdata₄, hacks₄⟩ := h₃.reply fun p hp hnode =>
    ⟨(hreplies p hp hnode).srcNodeId.trans hid,
      (hreplies p hp hnode).ackSeqNum.trans (hdelivered₃ ▸ hexpects₂)⟩
  refine ⟨c₄, h₄, ?_, ?_, ?_, ?_⟩
  · rw [hdelivered₄, hdelivered₃, hdelivered₂]
  · rw [hdata₄, hdata₃, hdata₂]
  · rw [hacks₄, hacks₃]
  · rw [hdelivered₄, hdelivered₃, hexpects₂]

namespace Downlink.Inv

theorem signed (h : s.Inv cfg g) : s.bus.Signed cfg := ⟨h.reachable, h.apart, h.labelled, h.answers⟩

/-- A node that keeps an id in the slot is in a conversation, and one that is offered an id begins one. -/
theorem meets (h : s.Inv cfg g) (hids : Function.Injective cfg.uniqueId) (hfirst : s.bus.GivesUpFirst input)
    (hclaim : (s.bus.node i).kept (input.nodeUs i) = some d ∨ (s.bus.node i).offered = some d) :
    ∃ c, s.Talk g i d c := by
  rcases hclaim with hkept | hoffered
  · obtain rfl := Node.nodeId_of_kept hkept
    refine h.talk i fun hid => ?_
    rw [Node.kept, if_neg (fun hc => hc.1 hid)] at hkept
    cases hkept
  · have hun : (s.bus.node i).nodeId = unallocatedNodeId := by
      by_contra hid
      rw [Node.offered, if_neg (fun hc => hid hc.1)] at hoffered
      cases hoffered
    obtain ⟨hrequest, -⟩ := hfirst.offered i d hoffered
    obtain ⟨hstation, hthere⟩ := (members_of_bus h.reachable).there _ hrequest
    obtain ⟨data, hdata, hlength, hknown⟩ := exists_wire (h.known d hstation hthere)
    obtain ⟨hreceived, hexpects⟩ := (h.inbox i).idle hun
    refine ⟨_, Talks.begin h.posts.outbox (h.posts.unheard _ hrequest) hlength hknown, ?_, hdata, ?_, hexpects⟩
    · rw [h.idle i hun, hreceived]
      rfl
    · rw [acksFrom_eq_nil fun p hp hnode hsrc => h.heard p hp hnode _ hrequest hsrc.symm,
        acksFrom_eq_nil (h.signed.silent hids hfirst hoffered i)]
      rfl

theorem slot (h : s.Inv cfg g) (hdual : cfg.master.mode = .dual) (hids : Function.Injective cfg.uniqueId)
    (hguard : s.LosesNothing (.slot input)) {bus : Bus n} (hs : (busSystem cfg).step s.bus (.slot input) = .ok bus) :
    ∃ g', (s.record (.slot input) bus).Inv cfg g' := by
  obtain ⟨hfirst, hfind, hremove⟩ := hguard
  have hready := ready_of_bus h.reachable
  obtain ⟨hsigned, hreplies⟩ := h.signed.slot hdual hids hfirst hs
  have hs : s.bus.step cfg.master.mode (.slot input) = .ok bus := hs
  rw [hdual] at hs
  have hsubmitted : (s.record (.slot input) bus).submitted = bus.master.stillSubmitted s.submitted :=
    congrArg bus.master.stillSubmitted (funext fun d => List.append_nil _)
  obtain ⟨k, m, master, downlink, slots, hpost, hpre, hslots, rfl⟩ := Bus.runDualChannel_ok hs
  have hm := members_of_postProcess hdual ((devices_of_reachable h.reachable).1.updateTimeUs input.masterUs) hpost
  have hposts := h.posts.updateTimeUs input.masterUs
  have hticked : (masterUpdateTimeUs s.bus.master input.masterUs).heard = s.bus.master.heard ∧
      (masterUpdateTimeUs s.bus.master input.masterUs).nwManager.newNodes = s.bus.master.nwManager.newNodes ∧
      (masterUpdateTimeUs s.bus.master input.masterUs).tx = s.bus.master.tx := by
    obtain ⟨us, ttl, htime, -⟩ := masterUpdateTimeUs_eq s.bus.master input.masterUs
    rw [htime]
    exact ⟨rfl, rfl, rfl⟩
  obtain ⟨hsame, hnew, htx⟩ := hticked
  obtain ⟨g', hslot⟩ := hposts.dualSlot (htx ▸ hfind) hremove (hsame ▸ hnew ▸ h.heard) hpost hpre
  have hheard := preProcess_heard hm hpre
  refine ⟨g', hsigned.reachable, hsigned.apart, ?_, fun p hp => (hheard p hp).2.2, fun d _ hthere q hq => ?_,
    hsigned.labelled,
    fun i => ((h.inbox i).runDualChannel (hslots i)).1, fun i hid => if_pos hid, hsigned.answers, fun i hid => ?_⟩
  · rw [hsubmitted]
    exact hslot.posts
  · rw [hsubmitted]
    obtain ⟨a, ha, hx⟩ := hslot.known d hthere q hq
    exact ⟨a, ha, (congrArg (·[a]?) (if_neg hthere)).trans hx⟩
  · have hid : (slots i).1.nodeId ≠ unallocatedNodeId := hid
    have hclaim := ((Node.runDualChannel_holds (hready i) (hslots i)).2 hid).2
    obtain ⟨c, htalk⟩ := h.meets hids hfirst hclaim
    have htaken : (s.record (.slot input) (.afterSlot master downlink slots)).taken i = s.taken i :=
      (if_neg hid).trans (List.append_nil _)
    refine htalk.slot hsame hslot hsubmitted htaken (hsigned.apart.taken i hid) rfl
      (((h.inbox i).runDualChannel (hslots i)).2 hid) ?_ (hreplies i)
    by_cases hcalls : ∃ p ∈ master.heard, p.fromNode ∧ p.srcNodeId = (slots i).1.nodeId
    · obtain ⟨p, hp, hnode, hsrc⟩ := hcalls
      obtain ⟨rfl, haccepts, -⟩ := hheard p hp
      obtain ⟨j, hj⟩ := Uplink.read haccepts
      have hij := h.signed.own hids hfirst hclaim j _ hj hnode hsrc
      subst hij
      exact Or.inr (congrArg (acksFrom _) (hj.trans (Option.mem_def.mp hp).symm))
    · exact Or.inl (acksFrom_eq_nil fun p hp hnode hsrc => hcalls ⟨p, hp, hnode, hsrc⟩)

end Downlink.Inv

end Slot

section Call

variable {n : Nat} {cfg : BusConfig n} {s s' : Downlink n} {g g' : Ledger}

theorem Master.Posts.stillSubmitted {master : Master} {submitted : TNodeIndex → List Payload}
    (h : master.Posts g submitted) :
    master.stillSubmitted submitted = submitted := by
  funext d
  unfold Master.stillSubmitted
  split
  · rename_i hd
    exact (h.absent d hd).symm
  · rfl

namespace Downlink.Inv

theorem masterCall (h : s.Inv cfg g) {call : MasterCall} (hkeeps : s.bus.master.KeepsPackets call) {master : Master}
    (hc : s.bus.master.call call = .ok master) : ∃ g',
    (s.record (.master call) { s.bus with master }).Inv cfg g' := by
  obtain ⟨hheard, hnw, httl⟩ := Master.call_keeps hc
  obtain ⟨g', hposts, htalks⟩ := h.posts.call hkeeps hc
  have hsubmitted : (s.record (.master call) { s.bus with master }).submitted =
      fun d => s.submitted d ++ call.submits s.bus.master d := hposts.stillSubmitted
  have htaken : (s.record (.master call) { s.bus with master }).taken = s.taken := by
    funext i
    by_cases hid : (s.bus.node i).nodeId = unallocatedNodeId
    · exact (if_pos hid).trans (h.idle i hid).symm
    · exact (if_neg hid).trans (List.append_nil _)
  have hsigned := h.signed.masterCall hc
  refine ⟨g', hsigned.reachable, hsigned.apart, ?_, fun p hp => ?_, fun d hstation hthere q hq => ?_,
    hsigned.labelled, h.inbox,
    fun i hid => if_pos hid, hsigned.answers, fun i hid => ?_⟩
  · rw [hsubmitted]
    exact hposts
  · change p ∈ master.heard at hp
    change p.fromNode → ∀ e ∈ master.nwManager.newNodes, _
    rw [hheard] at hp
    rw [hnw]
    exact h.heard p hp
  · change master.masterNodeTimeToLive d ≠ 0 at hthere
    rw [httl d (fun hc => absurd (hc ▸ hstation.1) (by decide))] at hthere
    obtain ⟨a, ha, hx⟩ := h.known d hstation hthere q hq
    rw [hsubmitted]
    refine ⟨a, ha, ?_⟩
    rw [List.getElem?_append_left (List.getElem?_eq_some_iff.mp hx).1, hx]
  · obtain ⟨c, hc⟩ := h.talk i hid
    obtain ⟨c', htalks', hdelivered, hdata, hacks⟩ := htalks _ c hc.talks
    refine ⟨c', hsubmitted ▸ htalks', ?_, ?_, ?_, ?_⟩
    · rw [hdelivered, hc.delivered, htaken]
      rfl
    · rw [hdata, hc.data]
      rfl
    · rw [hacks, hc.acks, ← hheard]
      rfl
    · rw [hdelivered]
      exact hc.expects

theorem nodeCall (h : s.Inv cfg g) {i : Fin n} {call : NodeCall} {node : Node}
    (hc : (s.bus.node i).step (call.action cfg.master.mode) = .ok node) :
    (s.record (.node i call) { s.bus with node := Function.update s.bus.node i node }).Inv cfg g := by
  obtain ⟨hinbox, hcall⟩ := (h.inbox i).call hc
  have hsubmitted : (s.record (.node i call) { s.bus with node := Function.update s.bus.node i node }).submitted =
    s.submitted :=
    (congrArg s.bus.master.stillSubmitted (funext fun d => List.append_nil _)).trans h.posts.stillSubmitted
  have hsigned := h.signed.nodeCall hc
  refine ⟨hsigned.reachable, hsigned.apart, hsubmitted ▸ h.posts, h.heard, hsubmitted ▸ h.known,
    hsigned.labelled, fun j => ?_,
    fun j hj => if_pos hj, hsigned.answers, fun j hj => ?_⟩
  · change (Function.update s.bus.node i node j).Inbox
    by_cases hj : j = i
    · subst hj
      rwa [Function.update_self]
    · rw [Function.update_of_ne hj]
      exact h.inbox j
  · have hj : (Function.update s.bus.node i node j).nodeId ≠ unallocatedNodeId := hj
    have hid := nodeId_of_call hc j hj
    obtain ⟨c, htalk⟩ := h.talk j (hid.symm ▸ hj)
    rw [hid] at htalk
    have htaken : (s.record (.node i call) { s.bus with node := Function.update s.bus.node i node }).taken j =
        s.taken j ++ if j = i then call.takes (s.bus.node j) else [] := if_neg hj
    have hreads : (if j = i then call.takes (s.bus.node j) else []) ++ (Function.update s.bus.node i node j).received =
        (s.bus.node j).received ∧
        (Function.update s.bus.node i node j).txManager.rxSeqNum = (s.bus.node j).txManager.rxSeqNum := by
      by_cases hji : j = i
      · subst hji
        rw [Function.update_self] at hj ⊢
        rw [if_pos rfl]
        rcases hcall with ⟨-, hfresh⟩ | ⟨-, htakes, hseq⟩
        · exact absurd hfresh.nodeId hj
        · exact ⟨htakes, hseq⟩
      · rw [Function.update_of_ne hji, if_neg hji]
        exact ⟨rfl, rfl⟩
    refine ⟨c, hsubmitted ▸ htalk.talks, ?_, htalk.data, htalk.acks, (congrFun hreads.2 _).trans htalk.expects⟩
    rw [htaken, htalk.delivered, ← hreads.1, List.append_assoc]
    rfl

end Downlink.Inv

end Call

section Run

variable {n : Nat} {cfg : BusConfig n} {s s' : Downlink n} {g : Ledger}

theorem Master.Posts.init {numTx maxTx maxRx : UInt8} {entries : Nat → PacketEntry} {master : Master}
    (h : masterInit numTx maxTx entries maxRx = .ok master) : master.Posts Ledger.zero (fun _ => []) ∧
    master.heard = none := by
  obtain ⟨rx, hrx, h⟩ := bind_eq_ok.mp h
  cases h
  obtain ⟨_, -, hrx⟩ := bind_eq_ok.mp hrx
  have hqueue : QueueInv (initTxManager maxNodes (some NodeQueue.empty) maxTx entries) Ledger.zero := by
    refine ⟨NodeQueue.empty, rfl, List.nodup_nil, fun d => ⟨fun hc => absurd hc List.not_mem_nil, fun hd => ?_⟩⟩
    exact absurd hd (Nat.lt_irrefl 0)
  constructor
  · refine ⟨⟨⟨storeInv_init _ _ _ _, hqueue, rfl, fun _ => Nat.lt_add_of_pos_right (by decide)⟩,
      fun _ => rfl, ?_, ?_⟩,
      fun _ _ => rfl, fun _ _ => rfl⟩
    · exact fun i hi => absurd hi (not_live_init i)
    · exact fun i hi => absurd hi (not_live_init i)
  · split at hrx
    · cases hrx
    · cases hrx
      rfl

theorem Downlink.Inv.init (h : (Downlink.system cfg).init s) : s.Inv cfg Ledger.zero := by
  obtain ⟨bus, submitted, taken⟩ := s
  obtain ⟨hinit, rfl, rfl⟩ := h
  have hsigned : bus.Signed cfg := .init hinit
  obtain ⟨⟨entries, hmaster⟩, hnodes, hdown, -⟩ := hinit
  obtain ⟨hposts, hheard⟩ := Master.Posts.init hmaster
  have hfresh : ∀ i, (bus.node i).Fresh := fun i => by
    obtain ⟨entries, hnode⟩ := hnodes i
    exact (nodeInit_ok hnode).1
  refine ⟨hsigned.reachable, hsigned.apart, hposts, fun p hp => ?_, fun d _ _ q hq => ?_, hsigned.labelled,
    fun i => (hfresh i).inbox, fun _ _ => rfl, hsigned.answers, fun i hid => absurd (hfresh i).nodeId hid⟩
  · cases hheard.symm.trans hp
  · rw [hdown] at hq
    cases hq

theorem Downlink.Inv.step (h : s.Inv cfg g) (hdual : cfg.master.mode = .dual) (hids : Function.Injective cfg.uniqueId)
    {a : BusAction n} (hguard : s.LosesNothing a) (hs : (Downlink.system cfg).step s a = .ok s') :
    ∃ g', s'.Inv cfg g' := by
  obtain ⟨bus, hbus, hs⟩ := bind_eq_ok.mp hs
  cases hs
  cases a with
  | slot input => exact h.slot hdual hids hguard hbus
  | master call =>
      obtain ⟨master, hcall, hbus⟩ := bind_eq_ok.mp hbus
      cases hbus
      exact h.masterCall hguard hcall
  | node i call =>
      obtain ⟨node, hcall, hbus⟩ := bind_eq_ok.mp hbus
      cases hbus
      exact ⟨g, h.nodeCall hcall⟩

/-- What the application of a node takes, and what is there for it, is what the application of the master
submitted to it, from the first packet on and in order; and every packet behind that is still in a buffer of the
master. -/
theorem node_takes_what_was_submitted (hdual : cfg.master.mode = .dual) (hids : Function.Injective cfg.uniqueId)
    (h : (Downlink.system cfg).ReachableWhen Downlink.LosesNothing s) {i : Fin n} {d : TNodeIndex}
    (hid : (s.bus.node i).nodeId = d) (hjoined : d ≠ unallocatedNodeId) :
    s.taken i ++ (s.bus.node i).received <+: s.submitted d ∧
      ∀ k x, (s.taken i ++ (s.bus.node i).received).length ≤ k → (s.submitted d)[k]? = some x →
        ∃ e, s.bus.master.tx.txManager.Live e ∧
          (s.bus.master.tx.txManager.entry e).packet.IsDataTo d (seq k) x := by
  obtain ⟨g, hinv⟩ : ∃ g, s.Inv cfg g := by
    refine System.ReachableWhen.invariant (P := fun s => ∃ g, s.Inv cfg g) h (fun s hinit => ⟨_, .init hinit⟩) ?_
    rintro s a s' ⟨g, hinv⟩ hguard hs
    exact hinv.step hdual hids hguard hs
  subst hid
  obtain ⟨c, hc⟩ := hinv.talk i hjoined
  rw [← hc.delivered, ← hc.talks.submitted]
  refine ⟨hc.talks.inv.delivered_prefix, fun k x hk hx => ?_⟩
  have houtbox := hinv.posts.outbox
  have hstart := hc.talks.inv.start_le
  rw [hc.talks.start] at hstart
  have hstop := (List.getElem?_eq_some_iff.mp hx).1
  rw [hc.talks.submitted, houtbox.length] at hstop
  obtain ⟨e, hlive, howner⟩ := houtbox.balanced.store.owner_surj _ k (hstart.trans hk) hstop
  have hkey := houtbox.balanced.store.owner_key e hlive
  have hheld := houtbox.held e hlive
  rw [howner] at hkey hheld
  rw [hc.talks.submitted, hheld] at hx
  exact ⟨e, hlive, houtbox.isData e hlive, congrArg Prod.fst hkey, congrArg Prod.snd hkey, Option.some.inj hx⟩

/-- A test that is enough: no packet is allocated when a slot starts, and credits are not reset. -/
def Downlink.passes (s : Downlink n) : BusAction n → Bool
  | .slot input => decide (s.bus.GivesUpFirst input) && s.bus.master.tx.txManager.allocatedPacket.isNone
  | .master .allocate => s.bus.master.tx.txManager.activeTxNodes.all fun q => decide (q.numNodes < maxNodes)
  | .master (.submit d _) => decide (s.bus.master.masterNodeTimeToLive d ≠ 0 ∧
      incrSequenceNum (s.bus.master.tx.txManager.txSeqNumEnd d) ≠ s.bus.master.tx.txManager.txSeqNumStart d)
  | .master .resetTxCredits => false
  | _ => true

theorem Downlink.losesNothing_of_passes {a : BusAction n} (h : s.passes a = true) : s.LosesNothing a := by
  cases a with
  | slot input =>
      obtain ⟨hfirst, hnone⟩ := Bool.and_eq_true_iff.mp h
      have hnone := Option.isNone_iff_eq_none.mp hnone
      refine ⟨of_decide_eq_true hfirst, ?_, ?_⟩
      · rintro ⟨u, -, -, hu, -⟩
        cases hnone.symm.trans hu
      · obtain ⟨us, ttl, htime, -⟩ := masterUpdateTimeUs_eq s.bus.master input.masterUs
        rw [htime]
        rintro ⟨u, hu, -⟩
        cases hnone.symm.trans hu
  | master call =>
      cases call with
      | allocate =>
          intro q hq hfull
          have hroom : s.bus.master.tx.txManager.activeTxNodes.all (fun q => decide (q.numNodes < maxNodes)) = true := h
          rw [hq] at hroom
          exact absurd (of_decide_eq_true hroom) (Nat.not_lt_of_le hfull)
      | submit d numBytes =>
          have htest : decide (s.bus.master.masterNodeTimeToLive d ≠ 0 ∧
            incrSequenceNum (s.bus.master.tx.txManager.txSeqNumEnd d) ≠ s.bus.master.tx.txManager.txSeqNumStart d) =
              true := h
          have hsubmit := of_decide_eq_true htest
          exact hsubmit
      | resetTxCredits => exact Bool.noConfusion h
      | write data => exact trivial
      | peek => exact trivial
      | pop => exact trivial
      | getConnectedNodes => exact trivial
  | node i call => exact trivial

def twoPackets : List (BusAction 1) :=
  List.replicate 28 (.slot clearSlot) ++
    [.master .allocate, .master (.submit 1 5), .master .allocate, .master (.submit 1 6)] ++
    List.replicate 4 (.slot clearSlot)

theorem node_takes_what_was_submitted_twoPackets : ∃ s : Downlink 1,
    (Downlink.system (oneNodeConfig .dual 1)).ReachableWhen Downlink.LosesNothing s ∧ (s.bus.node 0).nodeId = 1 ∧
      (s.taken 0).map Payload.size = [5] ∧ (s.bus.node 0).received.map Payload.size = [6] ∧
      s.taken 0 ++ (s.bus.node 0).received <+: s.submitted 1 := by
  obtain ⟨s, hreach, hs⟩ := System.exists_of_checkedRun (S := Downlink.system (oneNodeConfig .dual 1))
    (s := ⟨freshBus 1 fun _ => ⟨false, Packet.zero⟩, fun _ => [], fun _ => []⟩)
    (p := fun s => (s.bus.node 0).nodeId == 1 && (s.taken 0).map Payload.size == [5] &&
      (s.bus.node 0).received.map Payload.size == [6])
    (twoPackets ++ [.node 0 .pop]) (fun s a (h : s.passes a = true) => Downlink.losesNothing_of_passes h)
    (.init ⟨freshBus_init .dual 1 _, rfl, rfl⟩) (by decide +kernel)
  simp only [Bool.and_eq_true, beq_iff_eq] at hs
  obtain ⟨⟨hid, htaken⟩, hreceived⟩ := hs
  exact ⟨s, hreach, hid, htaken, hreceived,
    (node_takes_what_was_submitted rfl (fun i j _ => Subsingleton.elim i j) hreach hid (by decide)).1⟩

end Run

end Microbus
