import Microbus.Inbox
import Microbus.RingRemoval
import Microbus.UniqueIds

/-! What the master has accepted from each node for its application. -/
namespace Microbus

open Transition

def payloadsFrom (d : TNodeIndex) (packets : List Packet) : List Payload :=
  (packets.filter fun p => p.srcNodeId == d).map Packet.payload

section Payloads

variable {d : TNodeIndex} {p : Packet} {packets packets' : List Packet}

theorem payloadsFrom_append :
    payloadsFrom d (packets ++ packets') = payloadsFrom d packets ++ payloadsFrom d packets' := by
  unfold payloadsFrom
  rw [List.filter_append, List.map_append]

theorem payloadsFrom_singleton (h : p.srcNodeId = d) : payloadsFrom d [p] = [p.payload] := by
  unfold payloadsFrom
  rw [List.filter_cons, if_pos (beq_iff_eq.mpr h)]
  rfl

theorem payloadsFrom_other (h : p.srcNodeId ≠ d) : payloadsFrom d [p] = [] := by
  unfold payloadsFrom
  rw [List.filter_cons, if_neg fun hc => h (beq_iff_eq.mp hc)]
  rfl

theorem payloadsFrom_remove (x : TNodeIndex) : payloadsFrom x (packets.filter fun p => p.srcNodeId != d) =
    if x = d then [] else payloadsFrom x packets := by
  unfold payloadsFrom
  rw [List.filter_filter]
  split
  · rename_i hx
    rw [List.filter_eq_nil_iff.mpr]
    · rfl
    · intro p _ hc
      rw [Bool.and_eq_true, beq_iff_eq, bne_iff_ne, hx] at hc
      exact hc.2 hc.1
  · rename_i hx
    congr 1
    refine List.filter_congr fun p _ => ?_
    by_cases hp : p.srcNodeId = x
    · rw [beq_iff_eq.mpr hp, bne_iff_ne.mpr (hp ▸ hx)]
      rfl
    · rw [beq_eq_false_iff_ne.mpr hp]
      rfl

end Payloads

theorem RxPacketManager.packets_remove {rpm rpm' : RxPacketManager} {nodeId : TNodeIndex}
    (hs : rpm.start < rpm.maxRxPacketEntries)
    (he : rpm.endIndex < rpm.maxRxPacketEntries) (h : rxManagerRemoveAllPackets rpm nodeId = .ok rpm') :
    rpm'.packets = rpm.packets.filter fun p => p.srcNodeId != nodeId := by
  have hremoves := removesAt_of_ok hs he h
  unfold packets
  rw [hremoves.queued hs he, List.filter_map]
  exact List.map_congr_left fun e _ => hremoves.packet e

/-- What was accepted from `d` and is not taken yet. -/
def Master.receivedFrom (master : Master) (d : TNodeIndex) : List Payload :=
  payloadsFrom d (master.rx.rxPacketManager.packets ++ master.waitingFrames)

def MasterCall.takes (master : Master) (d : TNodeIndex) : MasterCall → List Payload
  | .pop => payloadsFrom d (master.rx.rxPacketManager.packets.take 1)
  | _ => []

/-- The id is free, or the node that it is promised to has not been heard. -/
def Master.Unheard (master : Master) (d : TNodeIndex) : Prop :=
  master.masterNodeTimeToLive d = 0 ∨ ∃ e ∈ master.nwManager.newNodes, e.2 = d

/-- A master after a part of a slot. Where nobody was heard, nothing was accepted and the first packet is expected. -/
structure Master.Inbox (master : Master) (last : Option SlotPart) : Prop where
  holds : MasterHolds master last
  unheard : ∀ d, Station d → master.Unheard d → master.tx.txManager.rxSeqNum d = nullSequenceNum ∧
    master.receivedFrom d = []

/-- The master accepts the frame that it received if that is the next of node `d`, or nothing of that node. -/
inductive Master.Accepts (master master' : Master) (d : TNodeIndex) (received : Packet) (crcError : Bool) : Prop
  | nothing : master'.receivedFrom d = master.receivedFrom d →
      master'.tx.txManager.rxSeqNum d = master.tx.txManager.rxSeqNum d → master.Accepts master' d received crcError
  | packet : masterAcceptsFrame received crcError → received.getPacketType = some .nodeData →
      received.srcNodeId = d →
      received.txSeqNum = expectedSeqNum (master.tx.txManager.rxSeqNum d) →
      master'.receivedFrom d = master.receivedFrom d ++ [received.payload] →
      master'.tx.txManager.rxSeqNum d = expectedSeqNum (master.tx.txManager.rxSeqNum d) →
      master.Accepts master' d received crcError

section Master

variable {master master' : Master} {last last' : Option SlotPart} {d : TNodeIndex}

theorem AsksSince.refl (master : Master) : AsksSince master master.nwManager master.masterNodeTimeToLive :=
  ⟨fun _ _ => id, fun _ he => Or.inl he⟩

theorem AsksSince.unheard (h : AsksSince master master'.nwManager master'.masterNodeTimeToLive) (hd : Station d)
    (hunheard : master'.Unheard d) : master.Unheard d := by
  rcases hunheard with hzero | ⟨e, he, rfl⟩
  · exact Or.inl (by_contra fun hc => h.taken d hd hc hzero)
  · exact (h.asked e he).elim (fun hold => Or.inr ⟨e, hold, rfl⟩) Or.inl

namespace Master.Inbox

theorem since (h : master.Inbox last) (hholds : MasterHolds master' last')
    (hasks : AsksSince master master'.nwManager master'.masterNodeTimeToLive)
    (hreceived : ∀ d, master'.receivedFrom d = master.receivedFrom d)
    (hseq : master'.tx.txManager.rxSeqNum = master.tx.txManager.rxSeqNum) : master'.Inbox last' where
  holds := hholds
  unheard d hd hunheard := by
    rw [hreceived, hseq]
    exact h.unheard d hd (hasks.unheard hd hunheard)

end Master.Inbox

theorem Master.receivedFrom_congr (hrx : master'.rx = master.rx) (d : TNodeIndex) :
    master'.receivedFrom d = master.receivedFrom d := by
  unfold receivedFrom
  rw [waitingFrames_congr hrx, hrx]

theorem Master.receivedFrom_of_invalid (h : master.rx.validRxPacket = false) (d : TNodeIndex) :
    master.receivedFrom d = payloadsFrom d master.rx.rxPacketManager.packets := by
  unfold receivedFrom
  rw [waitingFrames_of_invalid h, List.append_nil]

theorem Master.Inbox.init {numTx maxTx maxRx : UInt8} {entries : Nat → PacketEntry}
    (h : masterInit numTx maxTx entries maxRx = .ok master) :
    master.Inbox (some .pre) := by
  obtain ⟨rx, hrx, h⟩ := bind_eq_ok.mp h
  cases h
  obtain ⟨_, hmax, hrx⟩ := bind_eq_ok.mp hrx
  split at hrx
  · cases hrx
  · rename_i next rpm hfind
    cases hrx
    obtain ⟨hstore, hring⟩ := rxInv_init (microbusAssert_ok.mp hmax) hfind
    refine ⟨.of_invalid hstore rfl, fun d _ _ => ⟨rfl, ?_⟩⟩
    rw [Master.receivedFrom_of_invalid rfl]
    dsimp only
    rw [RxPacketManager.packets_of_ring_nil hring]
    rfl

theorem masterRx_receivedFrom {k : Nat}
    (hstore : RxInv master.rx.rxPacketManager master.rx.nextRxPacketEntry master.waiting)
    (h : masterRx master = .ok (k, master')) (d : TNodeIndex) : master'.receivedFrom d = master.receivedFrom d := by
  obtain ⟨-, hvalid, happended, -⟩ := masterRx_queues hstore h
  rw [Master.receivedFrom_of_invalid hvalid, (masterRx_extends hstore h).packets_eq, happended]
  rfl

/-- One node is removed: its packets and its number are gone, and its id is free. -/
theorem masterRemoveIfTimedOut_inbox {k : Nat} (h : master.Inbox (some .post))
    (hr : masterRemoveIfTimedOut master d = .ok (k, master')) :
    master' = master ∨ (MasterHolds master' (some .post) ∧ master'.masterNodeTimeToLive =
      Function.update master.masterNodeTimeToLive d 0 ∧
      master'.nwManager.newNodes ⊆ master.nwManager.newNodes ∧
      ∀ x, master'.receivedFrom x = (if x = d then [] else master.receivedFrom x) ∧
        master'.tx.txManager.rxSeqNum x = if x = d then nullSequenceNum else master.tx.txManager.rxSeqNum x) := by
  rcases masterRemoveIfTimedOut_ok hr with ⟨-, heq⟩ | ⟨_, _, nw, tx, rpm, -, hrequest, htx, hrpm, heq⟩
  · exact Or.inl heq
  · have hvalid := h.holds.between nofun
    have hstore : RxInv master.rx.rxPacketManager master.rx.nextRxPacketEntry none :=
      h.holds.waiting_none nofun ▸ h.holds.store
    obtain ⟨hnull, -, -, -, -, hothers, -⟩ := masterTxManagerRemoveNode_tables htx
    have hvalid' : master'.rx.validRxPacket = false := by rw [heq]; exact hvalid
    have hstore' : RxInv master'.rx.rxPacketManager master'.rx.nextRxPacketEntry none := by
      rw [heq]
      exact hstore.removeAll hrpm
    refine Or.inr ⟨.of_invalid hstore' hvalid', by rw [heq], ?_, fun x => ⟨?_, ?_⟩⟩
    · rw [heq]
      change nw.newNodes ⊆ master.nwManager.newNodes
      rw [networkManagerRemoveNewNodeRequest_newNodes hrequest]
      exact List.eraseP_subset
    · rw [Master.receivedFrom_of_invalid hvalid', Master.receivedFrom_of_invalid hvalid, heq]
      dsimp only
      rw [RxPacketManager.packets_remove hstore.start_lt hstore.end_lt hrpm, payloadsFrom_remove]
    · rw [heq]
      dsimp only
      split
      · rename_i hx
        rw [hx, hnull]
      · rename_i hx
        rw [(hothers x hx).rxSeqNum]

/-- A removal takes away the packets and the number of the ids that it frees. -/
theorem Master.Inbox.removeAny {k : Nat} (h : master.Inbox (some .post))
    (hr : masterRemoveAnyTimeoutNodes master = .ok (k, master')) :
    master'.Inbox (some .post) ∧ ∀ d, master'.masterNodeTimeToLive d ≠ 0 →
      master'.receivedFrom d = master.receivedFrom d ∧
        master'.tx.txManager.rxSeqNum d = master.tx.txManager.rxSeqNum d := by
  refine masterRemoveAnyTimeoutNodes_induction
    (P := fun m => m.Inbox (some .post) ∧ ∀ d, m.masterNodeTimeToLive d ≠ 0 →
    m.receivedFrom d = master.receivedFrom d ∧ m.tx.txManager.rxSeqNum d = master.tx.txManager.rxSeqNum d) ?_
    ⟨h, fun _ _ => ⟨rfl, rfl⟩⟩ hr
  rintro d - - m n m' ⟨hm, hsame⟩ hone
  rcases masterRemoveIfTimedOut_inbox hm hone with rfl | ⟨hholds, httl, hnew, hkept⟩
  · exact ⟨hm, hsame⟩
  · refine ⟨⟨hholds, fun x hx hunheard => ?_⟩, fun x hx => ?_⟩
    · rw [(hkept x).1, (hkept x).2]
      split
      · exact ⟨rfl, rfl⟩
      · rename_i hxd
        refine hm.unheard x hx ?_
        rcases hunheard with hzero | ⟨e, he, heq⟩
        · rw [httl, Function.update_of_ne hxd] at hzero
          exact Or.inl hzero
        · exact Or.inr ⟨e, hnew he, heq⟩
    · have hxd : x ≠ d := by
        rintro rfl
        rw [httl, Function.update_self] at hx
        exact hx rfl
      rw [httl, Function.update_of_ne hxd] at hx
      rw [(hkept x).1, (hkept x).2, if_neg hxd, if_neg hxd]
      exact hsame x hx

theorem Master.Inbox.postProcess {k : Nat} (h : master.Inbox (some .pre))
    (hpost : masterDualChannelPipelinedPostProcess master = .ok (k, master')) :
    master'.Inbox (some .post) ∧ ∀ d, master'.masterNodeTimeToLive d ≠ 0 →
      master'.receivedFrom d = master.receivedFrom d ∧
        master'.tx.txManager.rxSeqNum d = master.tx.txManager.rxSeqNum d := by
  obtain ⟨m₁, m₂, k₁, k₂, h₁, h₂, h₃⟩ := postProcess_ok hpost
  obtain ⟨hstore, hvalid, -, hseq₁⟩ := masterRx_queues h.holds.store h₁
  have hm₁ : m₁.Inbox (some .post) := h.since (.of_invalid hstore hvalid)
    ((keptBetweenTicks_asksSince master).rx (AsksSince.refl master) h₁)
      (masterRx_receivedFrom h.holds.store h₁) hseq₁
  have hrx := masterTx_rx h₂
  have hseq₂ := masterTx_rxSeqNum h₂
  have hm₂ : m₂.Inbox (some .post) := hm₁.since (hm₁.holds.sameRx hrx)
    ((keptBetweenTicks_asksSince m₁).tx (AsksSince.refl m₁) h₂) (Master.receivedFrom_congr hrx) hseq₂
  obtain ⟨hm, hsame⟩ := hm₂.removeAny h₃
  refine ⟨hm, fun d hd => ?_⟩
  obtain ⟨hreceived, hseq⟩ := hsame d hd
  rw [hreceived, hseq, Master.receivedFrom_congr hrx, hseq₂, hseq₁, masterRx_receivedFrom h.holds.store h₁]
  exact ⟨rfl, rfl⟩

theorem Master.heard_of_waiting {p : Packet} (h : p ∈ master.waitingFrames) : p ∈ master.heard := by
  obtain ⟨hp, -⟩ := List.mem_filter.mp h
  obtain ⟨e, he, rfl⟩ := List.mem_map.mp hp
  unfold waiting at he
  unfold heard
  split at he
  · rename_i hvalid
    rw [if_pos hvalid, Option.mem_toList.mp he]
    rfl
  · exact absurd he List.not_mem_nil

theorem Master.Inbox.preProcess (h : master.Inbox (some .post))
    (hmembers : Members master.nwManager master.masterNodeTimeToLive)
    {received : Packet} {crcError : Bool} {stray : TNodeIndex → UInt8} {frame : Option Packet}
    (hthere : masterAcceptsFrame received crcError → received.fromNode →
      master.masterNodeTimeToLive received.srcNodeId ≠ 0)
    (hpre : masterDualChannelPipelinedPreProcess (master.receive received) crcError stray = .ok (master', frame)) :
    master'.Inbox (some .pre) ∧ ∀ d, master.Accepts master' d received crcError := by
  have hheard := preProcess_heard hmembers hpre
  obtain ⟨m₁, m₂, h₁, h₂, rfl⟩ := preProcess_ok hpre
  obtain ⟨hholds, hring, hcase⟩ := receive_takes h.holds nofun h₁ h₂
  obtain ⟨hrx, hseq⟩ := masterQuickTx_rx m₂ stray
  have hasks : AsksSince master (masterQuickTx m₂ stray).nwManager
    (masterQuickTx m₂ stray).masterNodeTimeToLive := by
    have hkept := keptBetweenTicks_asksSince master
    exact hkept.quickTx
      (hkept.quickRx (hkept.updateSchedule (hkept.receive (AsksSince.refl master) received) h₁) h₂) stray
  have hstore : RxInv master.rx.rxPacketManager master.rx.nextRxPacketEntry none :=
    h.holds.waiting_none nofun ▸ h.holds.store
  have hpackets : (masterQuickTx m₂ stray).rx.rxPacketManager.packets = master.rx.rxPacketManager.packets := by
    have hquick := masterQuickRx_extends h₂
    rw [masterUpdateSchedule_rx h₁] at hquick
    rw [hrx]
    exact ((RxPacketManager.Extends.receive hstore.next_not_queued received).trans hquick).packets_same hring
  have hreceived : ∀ d, (masterQuickTx m₂ stray).receivedFrom d = master.receivedFrom d ++
    payloadsFrom d m₂.waitingFrames := by
    intro d
    rw [Master.receivedFrom_of_invalid (h.holds.between nofun)]
    unfold Master.receivedFrom
    rw [Master.waitingFrames_congr hrx, hpackets, payloadsFrom_append]
  rcases hcase with ⟨⟨haccepts, hdata, hexpected, -⟩, hwaiting, hupdate⟩ | ⟨-, hwaiting, hsame⟩
  · have hother : ∀ d, d ≠ received.srcNodeId →
      (masterQuickTx m₂ stray).receivedFrom d = master.receivedFrom d ∧
        (masterQuickTx m₂ stray).tx.txManager.rxSeqNum d = master.tx.txManager.rxSeqNum d := by
      intro d hd
      rw [hreceived, hwaiting, payloadsFrom_other hd.symm, List.append_nil, hseq, hupdate, Function.update_of_ne hd]
      exact ⟨rfl, rfl⟩
    refine ⟨⟨hholds.sameRx hrx, fun d hd hunheard => ?_⟩, fun d => ?_⟩
    · have hne : d ≠ received.srcNodeId := by
        rintro rfl
        rcases hunheard with hzero | ⟨e, he, heq⟩
        · exact hthere haccepts (Or.inl hdata) ((preProcess_timeToLive h₁ h₂ _).mp hzero)
        · refine (hheard received (Master.heard_of_waiting ?_)).2.2 (Or.inl hdata) e he heq
          rw [Master.waitingFrames_congr hrx, hwaiting]
          exact List.mem_singleton_self received
      rw [(hother d hne).1, (hother d hne).2]
      exact h.unheard d hd (hasks.unheard hd hunheard)
    · by_cases hd : d = received.srcNodeId
      · subst hd
        refine .packet haccepts hdata rfl hexpected ?_ ?_
        · rw [hreceived, hwaiting, payloadsFrom_singleton rfl]
        · rw [hseq, hupdate, Function.update_self, hexpected]
      · exact .nothing (hother d hd).1 (hother d hd).2
  · have hnothing : ∀ d, (masterQuickTx m₂ stray).receivedFrom d = master.receivedFrom d := by
      intro d
      rw [hreceived, hwaiting]
      exact List.append_nil _
    exact ⟨h.since (hholds.sameRx hrx) hasks hnothing (hseq.trans hsame),
      fun d => .nothing (hnothing d) (congrFun (hseq.trans hsame) d)⟩

theorem Master.Inbox.updateTimeUs (h : master.Inbox last) (usIncr : UInt32) :
    (masterUpdateTimeUs master usIncr).Inbox last := by
  obtain ⟨us, ttl, heq, httl⟩ := masterUpdateTimeUs_eq master usIncr
  rw [heq]
  refine h.since (h.holds.sameRx rfl) ⟨fun d hd hthere hzero => ?_, fun e he => Or.inl he⟩
    (Master.receivedFrom_congr rfl) rfl
  exact hthere ((CleanInv.timer_zero_iff httl hd).mp hzero)

theorem Master.Inbox.dualSlot (h : master.Inbox (some .pre)) {k : Nat} {m : Master} {usIncr : UInt32}
    (hpost : masterDualChannelPipelinedPostProcess (masterUpdateTimeUs master usIncr) = .ok (k, m))
    (hmembers : Members m.nwManager m.masterNodeTimeToLive)
    {received : Packet} {crcError : Bool} {stray : TNodeIndex → UInt8} {frame : Option Packet}
    (hthere : masterAcceptsFrame received crcError → received.fromNode →
      m.masterNodeTimeToLive received.srcNodeId ≠ 0)
    (hpre : masterDualChannelPipelinedPreProcess (m.receive received) crcError stray = .ok (master', frame)) :
    master'.Inbox (some .pre) ∧ ∀ d, master'.masterNodeTimeToLive d ≠ 0 →
    master.Accepts master' d received crcError := by
  have hticked : (masterUpdateTimeUs master usIncr).rx = master.rx ∧
    (masterUpdateTimeUs master usIncr).tx = master.tx := by
    obtain ⟨us, ttl, heq, -⟩ := masterUpdateTimeUs_eq master usIncr
    rw [heq]
    exact ⟨rfl, rfl⟩
  obtain ⟨hm, hkept⟩ := (h.updateTimeUs usIncr).postProcess hpost
  obtain ⟨hinbox, haccepts⟩ := hm.preProcess hmembers hthere hpre
  refine ⟨hinbox, fun d hd => ?_⟩
  obtain ⟨m₁, m₂, h₁, h₂, rfl⟩ := preProcess_ok hpre
  obtain ⟨hreceived, hseq⟩ := hkept d fun hc => hd ((preProcess_timeToLive h₁ h₂ d).mpr hc)
  rw [Master.receivedFrom_congr hticked.1] at hreceived
  rw [hticked.2] at hseq
  have hone := haccepts d
  cases hone with
  | nothing hsame hsameSeq => exact .nothing (hsame.trans hreceived) (hsameSeq.trans hseq)
  | packet haccept hdata hsrc hexpected happended hnext =>
      rw [hseq] at hexpected hnext
      rw [hreceived] at happended
      exact .packet haccept hdata hsrc hexpected happended hnext

theorem Master.Inbox.call (h : master.Inbox (some .pre)) {call : MasterCall} (hc : master.call call = .ok master') :
    master'.Inbox (some .pre) ∧ (∀ d, call.takes master d ++ master'.receivedFrom d = master.receivedFrom d) ∧
      master'.tx.txManager.rxSeqNum = master.tx.txManager.rxSeqNum := by
  obtain ⟨-, hnw, httl⟩ := Master.call_keeps hc
  have hasks : AsksSince master master'.nwManager master'.masterNodeTimeToLive := by
    rw [hnw]
    refine ⟨fun d hd hthere hzero => hthere ?_, fun e he => Or.inl he⟩
    rw [← httl d fun hc => absurd (hc ▸ hd.1) (by decide)]
    exact hzero
  have hsame : master'.rx = master.rx → master'.tx.txManager.rxSeqNum = master.tx.txManager.rxSeqNum →
      (∀ d, call.takes master d = []) → master'.Inbox (some .pre) ∧
        (∀ d, call.takes master d ++ master'.receivedFrom d = master.receivedFrom d) ∧
        master'.tx.txManager.rxSeqNum = master.tx.txManager.rxSeqNum := by
    intro hrx hseq htakes
    refine ⟨h.since (h.holds.sameRx hrx) hasks (Master.receivedFrom_congr hrx) hseq, fun d => ?_, hseq⟩
    rw [htakes, List.nil_append, Master.receivedFrom_congr hrx]
  cases call with
  | allocate =>
      obtain ⟨⟨r, m⟩, halloc, hc⟩ := bind_eq_ok.mp hc
      cases hc
      obtain ⟨hrx, hseq⟩ := masterAllocate_rx halloc
      exact hsame hrx hseq fun _ => rfl
  | write data =>
      cases hc
      exact hsame rfl (writeAllocatedPacket_rxSeqNum _ data) fun _ => rfl
  | submit dst numBytes =>
      obtain ⟨-, -, m, hm, rfl⟩ := masterSubmit_ok hc
      refine hsame rfl ?_ fun _ => rfl
      rcases submitAllocatedTxPacket_ok hm with ⟨-, -, rfl⟩ | ⟨i, q, -, -, -, -, -, -, rfl⟩ <;> rfl
  | peek =>
      obtain ⟨⟨r, m⟩, hpeek, hc⟩ := bind_eq_ok.mp hc
      cases hc
      obtain ⟨e, rpm, hstored, rfl⟩ := masterPeek_store hpeek
      obtain ⟨hstore, hqueued, -, hlength, hmax, hentries⟩ := h.holds.store.peek hstored
      have hframes := master.waitingFrames_withStore rpm fun i => by rw [hentries]
      have hreceived : ∀ d, Master.receivedFrom { master with rx := { master.rx with rxPacketManager := rpm } } d =
          master.receivedFrom d := by
        intro d
        unfold Master.receivedFrom RxPacketManager.packets
        rw [hframes]
        dsimp only
        rw [hqueued, hentries]
      exact ⟨h.since (h.holds.withStore hstore hmax hlength) hasks hreceived rfl, hreceived, rfl⟩
  | pop =>
      obtain ⟨rpm, hstored, hc⟩ := bind_eq_ok.mp hc
      cases hc
      obtain ⟨hstore, hmax, hpackets, e, hring⟩ := h.holds.store.pop hstored
      have hframes := master.waitingFrames_withStore rpm hpackets
      have htakes : ∀ d, MasterCall.pop.takes master d ++
          Master.receivedFrom { master with rx := { master.rx with rxPacketManager := rpm } } d =
            master.receivedFrom d := by
        intro d
        have hqueue := RxPacketManager.packets_pop h.holds.store hstored
        unfold Master.receivedFrom
        rw [hframes, ← hqueue, payloadsFrom_append, payloadsFrom_append, payloadsFrom_append, ← List.append_assoc]
        rfl
      refine ⟨⟨h.holds.withStore hstore hmax (by rw [hring]; exact Nat.le_succ _), fun d hd hunheard => ?_⟩,
        htakes, rfl⟩
      obtain ⟨hnull, hnone⟩ := h.unheard d hd (hasks.unheard hd hunheard)
      have hempty := htakes d
      rw [hnone] at hempty
      exact ⟨hnull, (List.append_eq_nil_iff.mp hempty).2⟩
  | getConnectedNodes =>
      obtain ⟨⟨m, bits⟩, hget, hc⟩ := bind_eq_ok.mp hc
      cases hc
      obtain rfl := getConnectedNodesBitField_ok hget
      exact hsame rfl rfl fun _ => rfl
  | resetTxCredits =>
      cases hc
      exact hsame rfl rfl fun _ => rfl

end Master

end Microbus
