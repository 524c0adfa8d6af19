import Microbus.Schedule
import Microbus.EmissionMaster

/-! The dual channel with one announced slot: whose pairs of owners and acknowledgements a node reads. -/
namespace Microbus

open Transition Announce

/-- Behind the first pair, the only one that the master fills in, a frame names no station. -/
def Packet.NamesOnlyFirst (p : Packet) : Prop :=
  ∀ j : Fin maxTxNodesScheduled, 0 < j.val → ¬ Station (p.nextTxNodeId j)

def firstPair : Fin maxTxNodesScheduled := ⟨0, by decide⟩

theorem eq_firstPair {p : Packet} (h : p.NamesOnlyFirst) {j : Fin maxTxNodesScheduled}
    (hj : Station (p.nextTxNodeId j)) :
    j = firstPair := by
  refine Fin.ext (Nat.eq_zero_of_not_pos fun hpos => ?_)
  exact h j hpos hj

section Node

variable {node node' : Node}

/-- No register of the schedule names a station. -/
def Node.KnowsNoStation (node : Node) : Prop := ∀ k < maxTxNodesScheduled, ¬ Station (node.nextTxNodeId k)

theorem NoOwner.not_station {nodeId : TNodeIndex} (h : NoOwner nodeId) : ¬ Station nodeId :=
  fun hstation => ValidNodeId.not_noOwner (Or.inr hstation) h

theorem Node.Fresh.knowsNoStation (h : node.Fresh) : node.KnowsNoStation := by
  intro k _
  rw [h.nextTxNodeId]
  exact NoOwner.not_station (Or.inl rfl)

/-- The acknowledgement that a node saves is one of its pairs in the frame that it reads. -/
theorem nodeQuick_savedRxAck (hinit : node.initialised = true) {crcError : Bool}
    (h : nodeQuickProcessPrevRx node crcError = .ok node') (hsaved : node'.savedRxAckValid = true) :
    CarriesSchedule (node.packetAt node.nextRxPacketEntry) crcError ∧ node'.nodeId = node.nodeId ∧
      node.nodeId ≠ unallocatedNodeId ∧ ∃ j,
        (node.packetAt node.nextRxPacketEntry).nextTxNodeId j = node.nodeId ∧
        node'.savedRxAck = (node.packetAt node.nextRxPacketEntry).nextTxNodeAckSeqNum j := by
  have hresult := nodeQuickProcessPrevRx_ok hinit h
  generalize node.packetAt node.nextRxPacketEntry = frame at hresult ⊢
  have hpair : ∀ old : UInt8, (node.opened.ackIn frame).isSome = true → node.nodeId ≠ unallocatedNodeId ∧
      ∃ j, frame.nextTxNodeId j = node.nodeId ∧
        (node.opened.ackIn frame).getD old = frame.nextTxNodeAckSeqNum j := by
    intro old hsome
    unfold Node.ackIn at hsome ⊢
    change (if node.nodeId ≠ unallocatedNodeId then (frame.lastPair node.nodeId).map _ else none).isSome =
      true at hsome
    by_cases hid : node.nodeId ≠ unallocatedNodeId
    · rw [if_pos hid, Option.isSome_map] at hsome
      obtain ⟨j, hj⟩ := Option.isSome_iff_exists.mp hsome
      have hmatch : frame.nextTxNodeId j = node.nodeId := by
        unfold Packet.lastPair at hj
        exact of_decide_eq_true (List.find?_some (p := fun i => decide (frame.nextTxNodeId i = node.nodeId)) hj)
      refine ⟨hid, j, hmatch, ?_⟩
      change (if node.nodeId ≠ unallocatedNodeId then (frame.lastPair node.nodeId).map _ else none).getD old = _
      rw [if_pos hid, hj]
      rfl
    · rw [if_neg hid] at hsome
      cases hsome
  cases hresult with
  | unread _ => cases hsaved
  | reset _ _ hremove =>
      rcases nodeRemoveFromNetwork_ok hremove with ⟨-, rfl⟩ | ⟨-, hfresh, -⟩
      · cases hsaved
      · rw [hfresh.savedRxAckValid] at hsaved
        cases hsaved
  | dropped hreads htype _ =>
      rw [nodeRecordSchedule_eq_ackIn] at hsaved ⊢
      obtain ⟨hid, hmatch⟩ := hpair node.opened.savedRxAck hsaved
      exact ⟨⟨hreads, htype⟩, rfl, hid, hmatch⟩
  | kept hreads htype _ _ _ =>
      rw [nodeRecordSchedule_eq_ackIn] at hsaved ⊢
      obtain ⟨hid, hmatch⟩ := hpair node.opened.savedRxAck hsaved
      exact ⟨⟨hreads, htype⟩, rfl, hid, hmatch⟩
  | inOrder hreads _ _ _ hdata _ =>
      have htype : frame.getPacketType ≠ some .masterReset := by
        rw [hdata]
        decide
      rw [nodeRecordSchedule_eq_ackIn] at hsaved ⊢
      obtain ⟨hid, hmatch⟩ := hpair node.opened.savedRxAck hsaved
      exact ⟨⟨hreads, htype⟩, rfl, hid, hmatch⟩

/-- The post-process keeps the schedule, or the node is started anew. -/
theorem nodePostProcess_knowsNoStation (hinit : node.initialised = true) (hknows : node.KnowsNoStation)
    (h : nodeDualChannelPipelinedPostProcess node = .ok node') : node'.KnowsNoStation := by
  obtain ⟨n₁, n₂, h₁, h₂, h₃⟩ := nodePostProcess_ok hinit h
  have hn₁ : n₁.KnowsNoStation := by
    rcases nodeCheckIfTimedOut_ok h₁ with ⟨-, rfl⟩ | ⟨-, hfresh, -⟩
    · exact hknows
    · exact hfresh.knowsNoStation
  have hslots : node'.slots = n₁.slots := (nodeProcessTx_same h₃).slots.trans (nodeProcessRx_slots h₂)
  intro k hk
  have hsame : node'.nextTxNodeId k = n₁.nextTxNodeId k := congrFun hslots (k + 1)
  rw [hsame]
  exact hn₁ k hk

/-- What a node makes of a frame that names no station behind the first pair: the registers name none, and what it does
as a station it takes from the first pair. -/
theorem Node.runDualChannel_pairs {downlink frame : Option Packet} {usIncr : UInt32} {hearing : Hearing}
    (hready : node.Ready) (hknows : node.KnowsNoStation) (hvalid' : ValidNodeId node'.nodeId)
    (hpairs : hearing = .intact → ∀ p ∈ downlink, p.NamesOnlyFirst)
    (h : node.runDualChannel usIncr downlink hearing = .ok (node', frame)) :
    node'.KnowsNoStation ∧
      (frame ≠ none → node'.nodeId ≠ unallocatedNodeId → ∃ p ∈ downlink, p.nextTxNodeId firstPair =
        node'.nodeId) ∧
      (node'.savedRxAckValid = true → node'.nodeId ≠ unallocatedNodeId ∧ ∃ p ∈ downlink,
        p.nextTxNodeId firstPair = node'.nodeId ∧ node'.savedRxAck = p.nextTxNodeAckSeqNum firstPair) := by
  have hready' : (nodeUpdateTimeUs node usIncr).Ready := hready.congr rfl rfl rfl
  obtain ⟨m, hpost, hpre⟩ := Node.runDualChannel_ok h
  have hm : m.KnowsNoStation := nodePostProcess_knowsNoStation hready'.initialised hknows hpost
  have hinit : m.initialised = true := by
    obtain ⟨m₁, m₂, hcheck, hrx, htx⟩ := nodePostProcess_ok hready'.initialised hpost
    exact (((hready'.checkIfTimedOut hcheck).processRx hrx).processTx htx).initialised
  have hinit' : (m.receive (hearing.received downlink).1).initialised = true := hinit
  obtain ⟨q, hquick, hsent, hturn⟩ := nodePreProcess_ok hinit' hpre
  have hid : node'.nodeId = q.nodeId := hsent.nodeId
  obtain ⟨hshift, hlast⟩ := nodeUpdateSchedule_slots q
  have hregister : ∀ k, k + 1 < maxTxNodesScheduled → node'.nextTxNodeId k = q.nextTxNodeId (k + 1) := by
    intro k hk
    rw [hsent.nextTxNodeId]
    exact hshift (k + 1) hk
  have hregister' : ¬ Station (node'.nextTxNodeId (maxTxNodesScheduled - 1)) := by
    rw [hsent.nextTxNodeId]
    change ¬ Station ((nodeUpdateSchedule q).slots maxTxNodesScheduled)
    rw [hlast]
    exact NoOwner.not_station (Or.inr rfl)
  have hknows' : (∀ k, k + 1 < maxTxNodesScheduled → ¬ Station (q.nextTxNodeId (k + 1))) →
    node'.KnowsNoStation := by
    intro hq k hk
    by_cases hk' : k + 1 < maxTxNodesScheduled
    · rw [hregister k hk']
      exact hq k hk'
    · obtain rfl : k = maxTxNodesScheduled - 1 := by omega
      exact hregister'
  have hfirst : frame ≠ none → q.nextTxNodeId 0 = node'.nodeId := by
    intro hframe
    rw [hid]
    exact hturn hframe
  have hreceived := m.packetAt_receive (hearing.received downlink).1
  -- what the node heard, if it takes over the schedule
  have hheard : CarriesSchedule (hearing.received downlink).1 (hearing.received downlink).2 →
      ∃ p ∈ downlink, (hearing.received downlink).1 = p ∧ p.NamesOnlyFirst := by
    intro hcarries
    obtain ⟨hintact, p, hp, hpacket⟩ := Hearing.read hcarries.1
    exact ⟨p, hp, by rw [hpacket], hpairs hintact p hp⟩
  refine ⟨?_, fun hframe hjoined => ?_, fun hsaved => ?_⟩
  · refine hknows' fun k hk => ?_
    rcases nodeQuick_slots hinit' hreceived hquick with
      ⟨-, hfresh⟩ | ⟨-, -, -, ⟨hcarries, hnext⟩ | ⟨-, hsame⟩⟩
    · exact hfresh.knowsNoStation (k + 1) hk
    · obtain ⟨p, -, hpacket, honly⟩ := hheard hcarries
      have hpair : q.nextTxNodeId (k + 1) = _ := hnext (k + 1) hk
      rw [hpair, hpacket]
      exact honly ⟨k + 1, hk⟩ (Nat.succ_pos k)
    · have hkept : q.nextTxNodeId (k + 1) = m.nextTxNodeId (k + 1) := congrFun hsame (k + 2)
      rw [hkept]
      exact hm (k + 1) hk
  · have hstation := hvalid'.resolve_left hjoined
    rcases nodeQuick_slots hinit' hreceived hquick with
      ⟨-, hfresh⟩ | ⟨-, -, -, ⟨hcarries, hnext⟩ | ⟨-, hsame⟩⟩
    · exact absurd (hid.trans hfresh.nodeId) hjoined
    · obtain ⟨p, hp, hpacket, -⟩ := hheard hcarries
      refine ⟨p, hp, ?_⟩
      rw [← hfirst hframe, ← hpacket]
      exact (hnext 0 (by decide)).symm
    · have hkept : q.nextTxNodeId 0 = m.nextTxNodeId 0 := congrFun hsame 1
      rw [← hfirst hframe, hkept] at hstation
      exact absurd hstation (hm 0 (by decide))
  · rw [hsent.savedRxAckValid] at hsaved
    obtain ⟨hcarries, hsame, hjoined, j, hj, hack⟩ := nodeQuick_savedRxAck hinit' hquick hsaved
    rw [hreceived] at hcarries hj hack
    obtain ⟨p, hp, hpacket, honly⟩ := hheard hcarries
    rw [← hsame, ← hid] at hj hjoined
    rw [hpacket] at hj
    obtain rfl := eq_firstPair honly (j := j) (by rw [hj]; exact hvalid'.resolve_left hjoined)
    refine ⟨hjoined, p, hp, hj, ?_⟩
    rw [hsent.savedRxAck, ← hpacket]
    exact hack

end Node

section Bus

variable {n : Nat} {cfg : BusConfig n} {bus bus' : Bus n} {input : SlotInput n}

/-- The frame on the bus announces the next slot of the master, with the number that the master held for its owner. -/
structure Bus.Announces (bus : Bus n) : Prop where
  first : ∀ p ∈ bus.downlink, p.nextTxNodeId firstPair = bus.master.nextTxNodeId 0
  ack : ∀ p ∈ bus.downlink, Station (p.nextTxNodeId firstPair) →
    p.nextTxNodeAckSeqNum firstPair = bus.heldRxSeqNum (p.nextTxNodeId firstPair)

theorem masterQuickTx_rxSeqNum (master : Master) (stray : TNodeIndex → UInt8) :
    (masterQuickTx master stray).tx.txManager.rxSeqNum = master.tx.txManager.rxSeqNum := by
  unfold masterQuickTx masterQuickUpdateTxPacket
  split
  · rfl
  · rename_i r _
    cases r <;> rfl

theorem dualSlot_slots {master m m₁ m₂ m₃ m₄ : Master} {width k₁ k₂ : Nat} {usIncr : UInt32}
    {received : Packet} {crcError : Bool} (h : master.Scheduled width) (hpos : 0 < width)
    (h₁ : masterRx (masterUpdateTimeUs master usIncr) = .ok (k₁, m₁)) (h₂ : masterTx m₁ = .ok m₂)
    (h₃ : masterRemoveAnyTimeoutNodes m₂ = .ok (k₂, m))
    (h₄ : masterUpdateSchedule (m.receive received) = .ok m₃)
    (h₅ : masterQuickRx m₃ crcError = .ok m₄) : m₄.Scheduled width ∧
    Shifted width master.slots m₄.slots := by
  have hbefore := (masterUpdateTimeUs_schedule master usIncr).trans ((masterRx_schedule h₁).trans
    ((masterTx_schedule h₂).trans ((masterRemoveAny_schedule h₃).trans (m.receive_schedule received))))
  have hafter := masterQuickRx_schedule h₅
  obtain ⟨hmid, hshift, -⟩ := (hbefore.scheduled h).updateSchedule hpos h₄
  rw [hbefore.slots, ← hafter.slots] at hshift
  exact ⟨hafter.scheduled hmid, hshift⟩

theorem Bus.runDualChannel_announces (hmaster : cfg.master.Reaches bus.master)
    (hnum : cfg.master.numTxNodesScheduled = 1)
    (hreach : cfg.master.Reaches bus'.master) (hs : bus.runDualChannel input = .ok bus') :
    bus'.Announces ∧ bus'.master.currentTxNodeId = bus.master.nextTxNodeId 0 := by
  have hwidth : cfg.master.numTxNodesScheduled.toNat = 1 := by
    rw [hnum]
    rfl
  have hpos : 0 < cfg.master.numTxNodesScheduled.toNat := by
    rw [hwidth]
    decide
  have hscheduled := scheduled_of_reaches hpos hmaster
  obtain ⟨s, hs', htable⟩ := hreach
  have htable' : bus'.master.tx.txManager.maxTxNodes = maxNodes := by
    rw [← htable]
    exact (numbered_of_reachable hs').table
  obtain ⟨k, m, master, downlink, slots, hpost, hpre, -, rfl⟩ := Bus.runDualChannel_ok hs
  obtain ⟨k₁, k₂, m₁, m₂, m₃, m₄, p, h₁, h₂, h₃, h₄, h₅, rfl, -, hdown⟩ :=
    dualSlot_frame hpost hpre
  obtain ⟨hmid, hshift⟩ := dualSlot_slots hscheduled hpos h₁ h₂ h₃ h₄ h₅
  have hpair : 0 < m₄.scheduler.numTxNodesScheduled := by
    rw [hmid.numTx]
    exact hpos
  refine ⟨⟨?_, ?_⟩, ?_⟩
  · intro q hq
    rw [show (Bus.afterSlot (masterQuickTx m₄ input.stray) downlink slots).downlink = _ from hdown] at hq
    cases hq
    change (if 0 < m₄.scheduler.numTxNodesScheduled then m₄.nextTxNodeId 0 else _) =
      (masterQuickTx m₄ input.stray).nextTxNodeId 0
    rw [if_pos hpair, (masterQuickTx_schedule m₄ input.stray).nextTxNodeId]
  · intro q hq
    rw [show (Bus.afterSlot (masterQuickTx m₄ input.stray) downlink slots).downlink = _ from hdown] at hq
    cases hq
    change Station (if 0 < m₄.scheduler.numTxNodesScheduled then m₄.nextTxNodeId 0 else _) →
      (if 0 < m₄.scheduler.numTxNodesScheduled then _ else _) = (masterQuickTx m₄ input.stray).tx.txManager.rxSeqNum
        (if 0 < m₄.scheduler.numTxNodesScheduled then m₄.nextTxNodeId 0 else _)
    rw [if_pos hpair, if_pos hpair, masterQuickTx_rxSeqNum]
    intro hstation
    have htable₄ : m₄.tx.txManager.maxTxNodes = maxNodes :=
      (masterQuickTx_quiet m₄ input.stray).touched.maxTxNodes.symm.trans htable'
    rw [if_pos (by rw [htable₄]; exact hstation.2)]
    rfl
  · change (masterQuickTx m₄ input.stray).currentTxNodeId = _
    rw [(masterQuickTx_schedule m₄ input.stray).currentTxNodeId]
    exact hshift 0 hpos

/-- The nodes take in no frame that names a station behind the first pair. -/
def TakesOwnPairs (bus : Bus n) : BusAction n → Prop
  | .slot input => ∀ i, input.hearing i = .intact → ∀ p ∈ bus.downlink, p.NamesOnlyFirst
  | _ => True

/-- A node that has an id sends in its slot only, and saves the number that the master held for it when it built the
frame. -/
structure Bus.PairsAreMasters (bus bus' : Bus n) : Prop where
  sends : ∀ i, bus'.uplink i ≠ none → (bus'.node i).nodeId ≠ unallocatedNodeId →
    (bus'.node i).nodeId = bus'.master.currentTxNodeId
  saves : ∀ i, (bus'.node i).savedRxAckValid = true →
    (bus'.node i).savedRxAck = bus.heldRxSeqNum (bus'.node i).nodeId

/-- What every state of such runs has. -/
structure Bus.InPairs (bus : Bus n) : Prop where
  announces : bus.Announces
  knowsNoStation : ∀ i, (bus.node i).KnowsNoStation

theorem Bus.InPairs.slot (h : bus.InPairs) (hdual : cfg.master.mode = .dual) (hnum : cfg.master.numTxNodesScheduled = 1)
    (hreach : (busSystem cfg).Reachable bus) (htakes : TakesOwnPairs bus (.slot input))
    (hs : (busSystem cfg).step bus (.slot input) = .ok bus') : bus'.InPairs ∧ bus.PairsAreMasters bus' := by
  have hreach' : (busSystem cfg).Reachable bus' := .step hreach trivial hs
  obtain ⟨hmaster, hnodes⟩ := devices_of_reachable hreach
  have hvalid := (validIds_of_reachable hreach').nodeId
  have hs : bus.step cfg.master.mode (.slot input) = .ok bus' := hs
  rw [hdual] at hs
  have hs : bus.runDualChannel input = .ok bus' := hs
  obtain ⟨hannounces, hcurrent⟩ := Bus.runDualChannel_announces hmaster hnum (devices_of_reachable hreach').1 hs
  obtain ⟨_, _, _, _, slots, -, -, hslots, rfl⟩ := Bus.runDualChannel_ok hs
  have hnode := fun i => Node.runDualChannel_pairs (ready_of_reachable (hnodes i)) (h.knowsNoStation i) (hvalid i)
    (htakes i) (hslots i)
  refine ⟨⟨hannounces, fun i => (hnode i).1⟩, ⟨fun i hsent hjoined => ?_, fun i hsaved => ?_⟩⟩
  · obtain ⟨p, hp, hpair⟩ := (hnode i).2.1 hsent hjoined
    rw [← hpair, h.announces.first p hp]
    exact hcurrent.symm
  · obtain ⟨hjoined, p, hp, hpair, hack⟩ := (hnode i).2.2 hsaved
    have hstation := (hvalid i).resolve_left hjoined
    rw [← hpair] at hstation ⊢
    rw [← h.announces.ack p hp hstation]
    exact hack

theorem Bus.InPairs.init (h : (busSystem cfg).init bus) : bus.InPairs := by
  obtain ⟨-, hnodes, hdown, -⟩ := h
  refine ⟨⟨fun p hp => ?_, fun p hp => ?_⟩, fun i => ?_⟩
  · rw [hdown] at hp
    cases hp
  · rw [hdown] at hp
    cases hp
  · obtain ⟨entries, hnode⟩ := hnodes i
    exact (nodeInit_ok hnode).1.knowsNoStation

theorem Bus.InPairs.step (h : bus.InPairs) (hdual : cfg.master.mode = .dual) (hnum : cfg.master.numTxNodesScheduled = 1)
    (hreach : (busSystem cfg).Reachable bus) {a : BusAction n} (htakes : TakesOwnPairs bus a)
    (hs : (busSystem cfg).step bus a = .ok bus') : bus'.InPairs := by
  cases a with
  | slot input => exact (h.slot hdual hnum hreach htakes hs).1
  | master call =>
      obtain ⟨master, hcall, hs⟩ := bind_eq_ok.mp hs
      cases hs
      refine ⟨⟨fun p hp => ?_, h.announces.ack⟩, h.knowsNoStation⟩
      rw [show (_ : Bus n).master.nextTxNodeId = _ from (Master.call_schedule hcall).nextTxNodeId]
      exact h.announces.first p hp
  | node i call =>
      obtain ⟨node, hcall, hs⟩ := bind_eq_ok.mp hs
      cases hs
      refine ⟨⟨h.announces.first, h.announces.ack⟩, fun j => ?_⟩
      change (Function.update bus.node i node j).KnowsNoStation
      by_cases hj : j = i
      · subst hj
        rw [Function.update_self]
        rcases Node.call_same hcall with ⟨-, hfresh⟩ | ⟨-, -, hnext, -, -⟩
        · exact hfresh.knowsNoStation
        · intro k hk
          rw [hnext]
          exact h.knowsNoStation j k hk
      · rw [Function.update_of_ne hj]
        exact h.knowsNoStation j

end Bus

theorem Packet.NamesOnlyFirst.congr {p p' : Packet} (h : p.NamesOnlyFirst) (hsame : p'.nextTxNodeId = p.nextTxNodeId) :
    p'.NamesOnlyFirst := by
  intro j hj
  rw [hsame]
  exact h j hj

theorem Packet.zero_namesOnlyFirst : Packet.zero.NamesOnlyFirst := fun _ _ => NoOwner.not_station (Or.inl rfl)

theorem newNodeResponseLoop_nextTxNodeId (nw : NetworkManager) (maxNum : Nat) : ∀ fuel i num (p : Packet),
    (newNodeResponseLoop nw maxNum fuel i num p).2.nextTxNodeId = p.nextTxNodeId := by
  intro fuel
  induction fuel with
  | zero => exact fun _ _ _ => rfl
  | succ fuel ih =>
      intro i num p
      unfold newNodeResponseLoop
      split
      · dsimp only
        split
        · rfl
        · exact ih _ _ _
      · exact ih _ _ _

theorem txNewNodeResponse_nextTxNodeId (nw : NetworkManager) (p : Packet) :
    (txNewNodeResponse nw p).nextTxNodeId = p.nextTxNodeId := by
  unfold txNewNodeResponse
  dsimp only
  exact newNodeResponseLoop_nextTxNodeId nw _ maxNodesAllocatedAtOnce 0 0
    { p.setProtocolVersionAndPacketType .newNodeResponse with dstNodeId := unallocatedNodeId }

/-- With one announced slot the master leaves all pairs but the first. -/
theorem fillSchedule_namesOnlyFirst {m : TxManager} {numTx : Nat} {next : Nat → TNodeIndex}
    {stray : TNodeIndex → UInt8}
    {p : Packet} (hnum : numTx = 1) (h : p.NamesOnlyFirst) : (fillSchedule m numTx next stray p).NamesOnlyFirst := by
  intro j hj
  change ¬ Station (if j.val < numTx then next j else p.nextTxNodeId j)
  rw [if_neg (by omega)]
  exact h j hj

/-- The store has the same size, and its packets name the same owners. -/
structure TxManager.SamePairs (m m' : TxManager) : Prop where
  size : m'.size = m.size
  nextTxNodeId : ∀ i, (m'.entry i).packet.nextTxNodeId = (m.entry i).packet.nextTxNodeId

/-- Nothing that the master can send names a station behind the first pair. -/
structure MasterTx.NamesOnlyFirst (tx : MasterTx) : Prop where
  entry : ∀ i < tx.txManager.size, (tx.txManager.entry i).packet.NamesOnlyFirst
  tmpPacket : tx.tmpPacket.NamesOnlyFirst
  header : ∀ i, (tx.tmpEmptyPacketHeader i).NamesOnlyFirst

namespace MasterTx.NamesOnlyFirst

variable {tx tx' : MasterTx} {nw : NetworkManager} {master master' : Master}

theorem withTxManager (h : tx.NamesOnlyFirst) {m : TxManager} (hm : tx.txManager.SamePairs m) :
    ({ tx with txManager := m } : MasterTx).NamesOnlyFirst where
  entry i hi := (h.entry i (hi.trans_eq hm.size)).congr (hm.nextTxNodeId i)
  tmpPacket := h.tmpPacket
  header := h.header

theorem sameFrames (h : master.tx.NamesOnlyFirst) (hframes : master.SameFrames master')
    (hsize : master'.tx.txManager.size = master.tx.txManager.size) : master'.tx.NamesOnlyFirst where
  entry i hi := (h.entry i (hi.trans_eq hsize)).congr (congrArg Packet.nextTxNodeId (hframes.deref (.entry i)))
  tmpPacket := h.tmpPacket.congr (congrArg Packet.nextTxNodeId (hframes.deref .tmpPacket))
  header i := (h.header i).congr (congrArg Packet.nextTxNodeId (hframes.deref (.tmpEmptyPacketHeader i)))

theorem next (h : tx.NamesOnlyFirst) (hn : tx.Next nw tx') : tx'.NamesOnlyFirst := by
  have hpackets : ∀ {m : TxManager}, SamePackets tx.txManager m → tx.txManager.SamePairs m := fun hm =>
    ⟨hm.size, fun i => congrArg Packet.nextTxNodeId (hm.packet i)⟩
  cases hn with
  | reset _ => exact ⟨h.entry, h.tmpPacket.congr rfl, h.header⟩
  | response _ _ _ => exact ⟨h.entry, h.tmpPacket.congr (txNewNodeResponse_nextTxNodeId nw tx.tmpPacket), h.header⟩
  | data _ hget =>
      have hm := h.withTxManager (hpackets (masterGetNext_packets hget))
      exact ⟨hm.entry, hm.tmpPacket, hm.header⟩
  | empty _ hget =>
      have hm := h.withTxManager (hpackets (masterGetNext_packets hget))
      refine ⟨hm.entry, hm.tmpPacket, fun i => ?_⟩
      dsimp only
      by_cases hi : i = tx.nextCycle % 2
      · subst hi
        rw [Function.update_self]
        exact (h.header _).congr rfl
      · rw [Function.update_of_ne hi]
        exact h.header i

theorem frame {p : Packet} (h : master.tx.NamesOnlyFirst) (hp : MasterFrame master p) : p.NamesOnlyFirst := by
  cases hp with
  | reset _ => exact h.tmpPacket.congr rfl
  | response _ => exact h.tmpPacket.congr (txNewNodeResponse_nextTxNodeId _ _)
  | empty i _ => exact (h.header i).congr rfl
  | data _ _ _ _ _ _ hfind => exact h.entry _ (findPacketEntry_ok hfind).1

theorem quickTx (h : master.tx.NamesOnlyFirst) (hnum : master.scheduler.numTxNodesScheduled = 1)
    (stray : TNodeIndex → UInt8) : (masterQuickTx master stray).tx.NamesOnlyFirst := by
  unfold masterQuickTx masterQuickUpdateTxPacket
  dsimp only
  split
  · exact h
  · rename_i r _
    cases r with
    | tmpPacket => exact ⟨h.entry, fillSchedule_namesOnlyFirst hnum h.tmpPacket, h.header⟩
    | tmpEmptyPacketHeader i =>
        refine ⟨h.entry, h.tmpPacket, fun j => ?_⟩
        dsimp only [MasterTx.assign]
        by_cases hj : j = i
        · subst hj
          rw [Function.update_self]
          exact fillSchedule_namesOnlyFirst hnum (h.header j)
        · rw [Function.update_of_ne hj]
          exact h.header j
    | entry i =>
        refine ⟨fun j hj => ?_, h.tmpPacket, h.header⟩
        by_cases hji : j = i
        · subst hji
          change (Function.update master.tx.txManager.packetStore.entries j _ j).packet.NamesOnlyFirst
          rw [Function.update_self]
          exact fillSchedule_namesOnlyFirst hnum (h.entry j hj)
        · change (Function.update master.tx.txManager.packetStore.entries i _ j).packet.NamesOnlyFirst
          rw [Function.update_of_ne hji]
          exact h.entry j hj

theorem call (h : master.tx.NamesOnlyFirst) {call : MasterCall} (hc : master.call call = .ok master') :
    master'.tx.NamesOnlyFirst := by
  cases call with
  | allocate =>
      obtain ⟨⟨r, m⟩, halloc, hc⟩ := bind_eq_ok.mp hc
      cases hc
      obtain ⟨⟨r', tm⟩, hone, halloc⟩ := bind_eq_ok.mp halloc
      cases halloc
      have htake : ∀ i, master.tx.txManager.SamePairs (master.tx.txManager.takeEntry i) := by
        refine fun i => ⟨rfl, fun j => ?_⟩
        rw [TxManager.entry_takeEntry]
        split
        · rename_i hj
          rw [hj]
        · rfl
      rcases allocateTxPacket_ok hone with ⟨-, rfl⟩ | ⟨i, -, -, ⟨-, rfl, -⟩ | ⟨-, rfl⟩⟩
      · exact h
      · exact h.withTxManager (htake i)
      · exact h.withTxManager ⟨rfl, (htake i).nextTxNodeId⟩
  | write data =>
      cases hc
      have ht : Touched true master.tx.txManager (writeAllocatedPacket master.tx.txManager data) := touched_write _ data
      refine h.withTxManager ⟨ht.size, fun j => ?_⟩
      unfold writeAllocatedPacket
      split
      · rfl
      · rename_i i _
        change (Function.update master.tx.txManager.packetStore.entries i _ j).packet.nextTxNodeId = _
        by_cases hj : j = i
        · subst hj
          rw [Function.update_self]
          rfl
        · rw [Function.update_of_ne hj]
          rfl
  | submit dst numBytes =>
      obtain ⟨-, -, tm, hm, rfl⟩ := masterSubmit_ok hc
      rcases submitAllocatedTxPacket_ok hm with ⟨-, -, rfl⟩ | ⟨i, q, -, -, -, -, -, -, rfl⟩
      · exact h.withTxManager ⟨rfl, fun _ => rfl⟩
      · refine h.withTxManager ⟨rfl, fun j => ?_⟩
        rw [entry_submit]
        split
        · rename_i hj
          rw [hj]
          rfl
        · rfl
  | peek =>
      obtain ⟨⟨r, m⟩, hpeek, hc⟩ := bind_eq_ok.mp hc
      obtain ⟨rpm, rfl, -⟩ := masterPeek_ok hpeek
      cases hc
      exact h
  | pop =>
      obtain ⟨rpm, rfl, -⟩ := masterPop_ok hc
      exact h
  | getConnectedNodes =>
      obtain ⟨⟨m, bits⟩, hget, hc⟩ := bind_eq_ok.mp hc
      obtain rfl := getConnectedNodesBitField_ok hget
      cases hc
      exact h
  | resetTxCredits =>
      cases hc
      refine h.withTxManager ⟨rfl, fun j => ?_⟩
      unfold masterTxClearBuffers TxManager.entry
      dsimp only
      split <;> rfl

end MasterTx.NamesOnlyFirst

section Buffers

variable {n : Nat} {cfg : BusConfig n} {bus bus' : Bus n}

/-- What every state has when the buffers name no station. -/
structure Bus.NamesOnlyFirst (bus : Bus n) : Prop where
  tx : bus.master.tx.NamesOnlyFirst
  downlink : ∀ p ∈ bus.downlink, p.NamesOnlyFirst

theorem Bus.NamesOnlyFirst.step (h : bus.NamesOnlyFirst) (hdual : cfg.master.mode = .dual)
    (hscheduled : bus.master.Scheduled 1) {a : BusAction n} (hs : bus.step cfg.master.mode a = .ok bus') :
    bus'.NamesOnlyFirst := by
  cases a with
  | slot input =>
      rw [hdual] at hs
      have hs : bus.runDualChannel input = .ok bus' := hs
      obtain ⟨k, m, master, downlink, slots, hpost, hpre, -, rfl⟩ := Bus.runDualChannel_ok hs
      obtain ⟨k₁, k₂, m₁, m₂, m₃, m₄, p, h₁, h₂, h₃, h₄, h₅, rfl, hp, hdown⟩ :=
        dualSlot_frame hpost hpre
      have htime : (masterUpdateTimeUs bus.master input.masterUs).tx.NamesOnlyFirst := by
        obtain ⟨us, ttl, heq, -⟩ := masterUpdateTimeUs_eq bus.master input.masterUs
        rw [heq]
        exact h.tx
      have hm₁ : m₁.tx.NamesOnlyFirst := htime.sameFrames (masterRx_frames h₁) (masterRx_choice h₁).2.size
      have hm : m.tx.NamesOnlyFirst :=
        (hm₁.next (masterTx_next h₂).1).sameFrames (masterRemoveAny_frames h₃) (masterRemoveAny_choice h₃).size
      have hm₃ : m₃.tx.NamesOnlyFirst := by
        refine MasterTx.NamesOnlyFirst.sameFrames ?_ (masterUpdateSchedule_frames h₄)
          (masterUpdateSchedule_choice h₄).size
        exact hm
      have hm₄ : m₄.tx.NamesOnlyFirst := hm₃.sameFrames (masterQuickRx_frames h₅)
        (masterQuickRx_choice h₅).size
      have hnum₄ := (dualSlot_slots hscheduled Nat.one_pos h₁ h₂ h₃ h₄ h₅).1.numTx
      refine ⟨hm₄.quickTx hnum₄ input.stray, fun q hq => ?_⟩
      rw [show (Bus.afterSlot (masterQuickTx m₄ input.stray) downlink slots).downlink = _ from hdown] at hq
      cases hq
      exact fillSchedule_namesOnlyFirst hnum₄ (hm₁.frame hp)
  | master call =>
      obtain ⟨master, hcall, hs⟩ := bind_eq_ok.mp hs
      cases hs
      exact ⟨h.tx.call hcall, h.downlink⟩
  | node i call =>
      obtain ⟨node, hcall, hs⟩ := bind_eq_ok.mp hs
      cases hs
      exact ⟨h.tx, h.downlink⟩

theorem Bus.NamesOnlyFirst.init (h : (busSystem cfg).init bus)
    (hentries : ∀ i < bus.master.tx.txManager.size, (bus.master.tx.txManager.entry i).packet.NamesOnlyFirst) :
    bus.NamesOnlyFirst := by
  obtain ⟨⟨entries, hmaster⟩, -, hdown, -⟩ := h
  have hshared : bus.master.tx.tmpPacket.NamesOnlyFirst ∧
    ∀ i, (bus.master.tx.tmpEmptyPacketHeader i).NamesOnlyFirst := by
    obtain ⟨rx, -, hmaster⟩ := bind_eq_ok.mp hmaster
    rw [← pure_eq_ok.mp hmaster]
    exact ⟨Packet.zero_namesOnlyFirst.congr rfl, fun _ => Packet.zero_namesOnlyFirst⟩
  refine ⟨⟨hentries, hshared.1, hshared.2⟩, fun p hp => ?_⟩
  rw [hdown] at hp
  cases hp

/-- What the slot does is what the first pairs say. -/
def Bus.FollowsPairs (cfg : BusConfig n) (bus : Bus n) : BusAction n → Prop
  | .slot input => ∀ bus', (busSystem cfg).step bus (.slot input) = .ok bus' → bus.PairsAreMasters bus'
  | _ => True

/-- The nodes follow the master's own pairs in every run in which they take in no frame that names a station behind the
first pair, and that is every run if no packet buffer names one there at the start. -/
theorem nodes_follow_pairs (hdual : cfg.master.mode = .dual) (hnum : cfg.master.numTxNodesScheduled = 1)
    (h : (busSystem cfg).init bus) (as : List (BusAction n)) :
    ((busSystem cfg).RunMeets TakesOwnPairs bus as → (busSystem cfg).RunMeets (Bus.FollowsPairs cfg) bus as) ∧
      ((∀ i < bus.master.tx.txManager.size, (bus.master.tx.txManager.entry i).packet.NamesOnlyFirst) →
        (busSystem cfg).RunMeets TakesOwnPairs bus as) := by
  constructor
  · intro htakes
    refine System.runMeets_of_kept (I := fun bus => (busSystem cfg).Reachable bus ∧ bus.InPairs) ?_ ?_
      ⟨.init h, .init h⟩
      htakes
    · intro bus a hbus htakes
      cases a with
      | slot input => exact fun bus' hs => (hbus.2.slot hdual hnum hbus.1 htakes hs).2
      | master call => exact trivial
      | node i call => exact trivial
    · exact fun bus a bus' hbus htakes hs => ⟨.step hbus.1 trivial hs, hbus.2.step hdual hnum hbus.1 htakes hs⟩
  · intro hentries
    have hwidth : cfg.master.numTxNodesScheduled.toNat = 1 := by
      rw [hnum]
      rfl
    refine System.runMeets_of_invariant (I := fun bus => (busSystem cfg).Reachable bus ∧ bus.NamesOnlyFirst) ?_ ?_
      ⟨.init h, .init h hentries⟩ as
    · intro bus a hbus
      cases a with
      | slot input => exact fun i _ => hbus.2.downlink
      | master call => exact trivial
      | node i call => exact trivial
    · intro bus a bus' hbus _ hs
      refine ⟨.step hbus.1 trivial hs, hbus.2.step hdual ?_ hs⟩
      rw [← hwidth]
      exact scheduled_of_reaches (by rw [hwidth]; decide) (devices_of_reachable hbus.1).1

/-- With zeroed buffers the node joins and sends in its slot. -/
theorem nodes_follow_pairs_zeroed : ∃ bus : Bus 1, (busSystem (oneNodeConfig .dual 1)).run
    (freshBus 1 fun _ => ⟨false, Packet.zero⟩) (List.replicate 28 (.slot clearSlot)) = .ok bus ∧
    (bus.node 0).nodeId = 1 ∧ (bus.uplink 0).isSome = true ∧
    (busSystem (oneNodeConfig .dual 1)).RunMeets (Bus.FollowsPairs (oneNodeConfig .dual 1))
      (freshBus 1 fun _ => ⟨false, Packet.zero⟩) (List.replicate 28 (.slot clearSlot)) := by
  obtain ⟨bus, hs, hsent⟩ := System.exists_of_holdsAfter (x := (busSystem (oneNodeConfig .dual 1)).run
      (freshBus 1 fun _ => ⟨false, Packet.zero⟩) (List.replicate 28 (.slot clearSlot)))
    (p := fun bus => (bus.node 0).nodeId == 1 && (bus.uplink 0).isSome) (by decide +kernel)
  simp only [Bool.and_eq_true, beq_iff_eq] at hsent
  obtain ⟨hfollows, htakes⟩ := nodes_follow_pairs rfl rfl
    (freshBus_init .dual 1 fun _ => ⟨false, Packet.zero⟩) (List.replicate 28 (.slot clearSlot))
  refine ⟨bus, hs, hsent.1, hsent.2, hfollows (htakes fun i _ => ?_)⟩
  have hzero : ((freshBus 1 fun _ => ⟨false, Packet.zero⟩).master.tx.txManager.entry i).packet = Packet.zero := by
    change (if i < 4 then (⟨false, Packet.zero⟩ : PacketEntry) else ⟨false, Packet.zero⟩).packet = Packet.zero
    split <;> rfl
  rw [hzero]
  exact Packet.zero_namesOnlyFirst

/-- A packet buffer that names node 1 in its second pair, with acknowledgement 77. -/
def usedPacket : Packet :=
  { Packet.zero with
    nextTxNodeId := fun j => if j.val = 1 then 1 else 0
    nextTxNodeAckSeqNum := fun j => if j.val = 1 then 77 else 0 }

/-- The node takes the acknowledgement of the second pair, which the master never wrote. -/
theorem used_buffer_misleads_node : ∃ bus bus' : Bus 1, (busSystem (oneNodeConfig .dual 1)).Reachable bus ∧
    (busSystem (oneNodeConfig .dual 1)).step bus (.slot clearSlot) = .ok bus' ∧ ¬ bus.PairsAreMasters bus' := by
  obtain ⟨bus, hrun, hafter⟩ := System.exists_of_holdsAfter (x := (busSystem (oneNodeConfig .dual 1)).run
      (freshBus 1 fun _ => ⟨false, usedPacket⟩)
      (List.replicate 30 (.slot clearSlot) ++ [.master .allocate, .master (.submit 1 10)] ++ [.slot clearSlot]))
    (p := fun bus => System.holdsAfter ((busSystem (oneNodeConfig .dual 1)).step bus (.slot clearSlot)) fun bus' =>
      (bus'.node 0).savedRxAckValid && ((bus'.node 0).savedRxAck == 77) &&
        (bus.heldRxSeqNum (bus'.node 0).nodeId == nullSequenceNum)) (by decide +kernel)
  obtain ⟨bus', hs, hsaved⟩ := System.exists_of_holdsAfter hafter
  simp only [Bool.and_eq_true, beq_iff_eq] at hsaved
  obtain ⟨⟨hvalid, hack⟩, hheld⟩ := hsaved
  refine ⟨bus, bus', System.Reachable.run (.init (freshBus_init .dual 1 _)) hrun, hs, fun hpairs => ?_⟩
  have hsame := hpairs.saves 0 hvalid
  rw [hack, hheld] at hsame
  exact absurd hsame (by decide)

end Buffers

end Microbus
