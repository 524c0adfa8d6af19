import Microbus.EmissionNode

/-! The frames on the wire in every run. -/
namespace Microbus

open Transition

/-- The states that the post-process of a node passes through. -/
inductive Node.PassesPost (node : Node) : Node → Prop
  | checked {n₁} : nodeCheckIfTimedOut node = .ok n₁ → node.PassesPost n₁
  | rx {n₁ n₂} : nodeCheckIfTimedOut node = .ok n₁ → nodeProcessRx n₁ = .ok n₂ → node.PassesPost n₂
  | tx {n₁ n₂ n₃} : nodeCheckIfTimedOut node = .ok n₁ → nodeProcessRx n₁ = .ok n₂ →
      nodeProcessTx n₂ = .ok n₃ →
      node.PassesPost n₃

def nodePasses {mode : ChannelMode} (node : Node) (a : NodeAction mode) (node' : Node) : Prop :=
  match a with
  | .postProcess => node.PassesPost node'
  | _ => False

/-- The frame that the pre-process hands out is the next one of the node that has taken in the frame that came. -/
def nodeSent {mode : ChannelMode} (node : Node) (a : NodeAction mode) : Option TxRef :=
  match a with
  | .preProcess frame crcError =>
      match nodeQuickProcessPrevRx (node.receive frame) crcError with
      | .ok n =>
          let n := nodeUpdateSchedule n
          if n.currentTxNodeId = n.nodeId ∧ (nodeGetTxPacket n).2.isSome then n.nextTxPacket else none
      | .error _ => none
  | _ => none

def nodeAllocated {mode : ChannelMode} (node : Node) (a : NodeAction mode) : Option Nat :=
  match a with
  | .allocate =>
      match nodeAllocateTxPacket node with
      | .ok (packet, _) => packet
      | .error _ => none
  | _ => none

def nodeEmitter (mode : ChannelMode) : Emitter Node (NodeAction mode) where
  part := NodeAction.part
  sent := fun node a _ => nodeSent node a
  passes := nodePasses
  allocated := nodeAllocated
  nextTxPacket := Node.nextTxPacket
  txManager := Node.txManager
  deref := Node.deref

/-- No late acknowledgement names the data packet that is kept, or a later one. -/
def Node.KeepsChosen (node : Node) : Prop :=
  ∀ i, node.nextTxPacket = some (.entry i) → node.keepsTxPacket → ¬ node.timedOut →
    node.savedRxAckValid = true →
    ¬ node.txManager.Acknowledges node.savedRxAck i

/-- Only data packets are on the wire when the node times out, and no request is built over a shared buffer that holds
something else. -/
structure Node.SparesFrame (node : Node) (r : TxRef) : Prop where
  timeOut : node.timedOut → ∃ i, r = .entry i
  request : r = .tmpPacket → node.nodeId = unallocatedNodeId → node.nextNewNodeResponseCountdown = 0 →
    node.tmpPacket.getPacketType = some .newNodeRequest

def NodeKeepsNext {mode : ChannelMode} (s : OnWire Node) : NodeAction mode → Prop
  | .postProcess => s.device.KeepsChosen
  | _ => True

def NodeSpares {mode : ChannelMode} (s : OnWire Node) : NodeAction mode → Prop
  | .postProcess => ∀ r, s.wire = some r → s.device.SparesFrame r
  | .allocate => ∀ i, s.wire = some (.entry i) → ¬ s.device.txManager.Offers i
  | _ => True

section Post

variable {node n₁ n₂ n₃ : Node} {r : TxRef}

theorem keepsTxPacket_congr (hnext : n₂.nextTxPacket = n₁.nextTxPacket)
    (hderef : ∀ r, n₂.deref r = n₁.deref r) :
    n₂.keepsTxPacket ↔ n₁.keepsTxPacket := by
  unfold Node.keepsTxPacket
  rw [hnext]
  refine exists_congr fun r => and_congr_right fun _ => ?_
  rw [hderef]

theorem nodeProcessRx_keeps (h : nodeProcessRx n₁ = .ok n₂) : n₂.keepsTxPacket ↔ n₁.keepsTxPacket :=
  keepsTxPacket_congr (nodeProcessRx_frames h).1.nextTxPacket (nodeProcessRx_deref h)

/-- The node whose frame is chosen: the frames and the packets are those of before unless it timed out. -/
theorem nodePostProcess_frameInv (h : node.FrameInv) (h₁ : nodeCheckIfTimedOut node = .ok n₁)
    (h₂ : nodeProcessRx n₁ = .ok n₂) :
    n₂.FrameInv := by
  obtain ⟨hsame, hid, -, -⟩ := nodeProcessRx_frames h₂
  rcases nodeCheckIfTimedOut_cases h₁ with ⟨-, rfl⟩ | ⟨-, hblank, -⟩
  · exact h.congr hsame hid
  · exact hblank.frameInv.congr hsame hid

theorem nodePostProcess_store (h : ∃ g, NodeTxInv node.txManager g) (h₁ : nodeCheckIfTimedOut node = .ok n₁)
    (h₂ : nodeProcessRx n₁ = .ok n₂) : ∃ g, NodeTxInv n₂.txManager g :=
  keptByNode_txInv.processRx (KeptByNode.checkIfTimedOut (P := fun m => ∃ g, NodeTxInv m g) (fun _ => h)
    (fun _ => holdsAnew_txInv) h₁) h₂

/-- Unless it is given back by a late acknowledgement, the packet that is kept stays chosen. -/
theorem nodePostProcess_nextChosen (h : node.FrameInv) (hstore : ∃ g, NodeTxInv node.txManager g)
    (hchosen : node.NextChosen)
    (hkeeps : node.KeepsChosen) (h₁ : nodeCheckIfTimedOut node = .ok n₁) (h₂ : nodeProcessRx n₁ = .ok n₂)
    (h₃ : nodeProcessTx n₂ = .ok n₃) : n₃.NextChosen := by
  have hframe := nodePostProcess_frameInv h h₁ h₂
  refine Node.NextChosen.next ?_ (nodePostProcess_store hstore h₁ h₂) (nodeProcessTx_next hframe.cycle h₃)
  obtain ⟨hsame, -, -, hack⟩ := nodeProcessRx_frames h₂
  by_cases hkept : n₂.keepsTxPacket
  · refine Or.inr fun i hi => ?_
    rw [hsame.nextTxPacket] at hi
    rcases nodeCheckIfTimedOut_cases h₁ with ⟨hin, rfl⟩ | ⟨-, hblank, -⟩
    · rcases hack with ⟨-, heq⟩ | ⟨k, hvalid, hack⟩
      · rw [heq]
        exact hchosen i hi
      · obtain ⟨g, hg⟩ := hchosen i hi
        have hnot := hkeeps i hi ((nodeProcessRx_keeps h₂).mp hkept) hin hvalid
        exact ((hg.ack hack).resolve_left fun hc => hnot hc.1).2
    · rw [hblank.nextTxPacket] at hi
      cases hi
  · exact Or.inl hkept

theorem nodePostProcess_freed (hchosen : node.NextChosen) (hkeeps : ¬ node.KeepsChosen)
    (h₁ : nodeCheckIfTimedOut node = .ok n₁)
    (h₂ : nodeProcessRx n₁ = .ok n₂) (h₃ : nodeProcessTx n₂ = .ok n₃) :
    ∃ i, n₃.nextTxPacket = some (.entry i) ∧ (n₃.txManager.entry i).inUse = false := by
  unfold Node.KeepsChosen at hkeeps
  simp only [not_forall, exists_prop, not_not] at hkeeps
  obtain ⟨i, hi, hkept, hin, hvalid, hacked⟩ := hkeeps
  obtain rfl : n₁ = node := by
    rcases nodeCheckIfTimedOut_cases h₁ with ⟨-, rfl⟩ | ⟨hout, -, -⟩
    · rfl
    · exact absurd hout hin
  obtain ⟨hsame, -, -, hack⟩ := nodeProcessRx_frames h₂
  obtain rfl : n₂ = n₃ := by
    unfold nodeProcessTx at h₃
    rw [if_pos ((nodeProcessRx_keeps h₂).mpr hkept)] at h₃
    exact pure_eq_ok.mp h₃
  refine ⟨i, hsame.nextTxPacket.trans hi, ?_⟩
  rcases hack with ⟨hno, -⟩ | ⟨k, -, hack⟩
  · rw [hno] at hvalid
    cases hvalid
  · obtain ⟨g, hg⟩ := hchosen i hi
    exact ((hg.ack hack).resolve_right fun hc => hc.1 hacked).2

/-- The shared buffer is written to exactly when a request is built in it. -/
theorem Node.Next.tmpPacket_iff (h : n₂.FrameInv) (hn : n₂.Next n₃) : n₃.tmpPacket = n₂.tmpPacket ↔
    (n₂.nodeId = unallocatedNodeId → n₂.nextNewNodeResponseCountdown = 0 →
      n₂.tmpPacket.getPacketType = some .newNodeRequest) := by
  cases hn with
  | kept hkeeps =>
      refine iff_of_true rfl fun hid _ => ?_
      obtain ⟨r, hr, htype⟩ := hkeeps
      obtain rfl : r = .tmpPacket := by
        rcases h.waiting hid with hc | hc
        · cases hr.symm.trans hc
        · exact Option.some.inj (hr.symm.trans hc)
      exact htype.resolve_left h.notData
  | data _ _ hid _ _ => exact iff_of_true rfl fun hc => absurd hc hid
  | empty _ _ _ hid _ _ _ _ => exact iff_of_true rfl fun hc => absurd hc hid
  | request seed countdown hkeeps hid hcount =>
      constructor
      · intro heq _ _
        have htype := (txNewNodeRequest_isType n₂.tmpPacket n₂.uniqueId).type
        change txNewNodeRequest n₂.tmpPacket n₂.uniqueId = n₂.tmpPacket at heq
        rw [heq] at htype
        exact htype
      · exact fun htype => h.request (htype hid hcount)
  | waits _ hid hcount => exact iff_of_true rfl fun _ hc => absurd hc hcount

/-- A packet that was chosen and not chosen again stays, and so does the header of this cycle. -/
theorem Node.Next.deref (hn : n₂.Next n₃) (hr : r ≠ .tmpPacket)
    (hentry : ∀ i, r = .entry i → n₂.nodeId ≠ unallocatedNodeId →
      ∀ m, nodeGetNextTxDataPacket n₂.txManager ≠ .ok (some i, m))
    (hheader : ∀ j, r = .tmpEmptyPacketHeader j → n₂.nodeId ≠ unallocatedNodeId → j = n₂.tmpPacketCycle) :
    n₃.deref r = n₂.deref r := by
  cases r with
  | tmpPacket => exact absurd rfl hr
  | entry i =>
      cases hn with
      | kept _ => rfl
      | @data j m packet _ hid hget _ =>
          have hij : j ≠ i := fun hc => hentry i rfl hid m (hc ▸ hget)
          have hsame := nodeGetNext_entry hget (j := i) fun hc => hij (Option.some.inj hc)
          change (Function.update m.packetStore.entries j _ i).packet = _
          rw [Function.update_of_ne hij.symm]
          exact congrArg PacketEntry.packet hsame
      | empty _ _ _ _ hget _ _ _ => exact congrArg PacketEntry.packet (nodeGetNext_entry hget nofun)
      | request _ _ _ _ _ => rfl
      | waits _ _ _ => rfl
  | tmpEmptyPacketHeader j =>
      cases hn with
      | kept _ => rfl
      | data _ _ _ _ _ => rfl
      | empty cycle header _ hid _ _ hcycle _ =>
          exact Function.update_of_ne (fun hc => hcycle (hc.symm.trans (hheader j rfl hid))) _ _
      | request _ _ _ _ _ => rfl
      | waits _ _ _ => rfl

/-- A node that does not time out leaves the frame that it carries, the shared buffer apart. -/
theorem nodePostProcess_deref (hstore : ∃ g, NodeTxInv n₁.txManager g) (h : n₁.FrameInv)
    (hcarries : n₁.Carries r)
    (hr : r ≠ .tmpPacket) (h₂ : nodeProcessRx n₁ = .ok n₂) (h₃ : nodeProcessTx n₂ = .ok n₃) :
    n₃.deref r = n₁.deref r := by
  obtain ⟨hsame, hid, -, hack⟩ := nodeProcessRx_frames h₂
  have hframe := h.congr hsame hid
  -- a node that was started anew asked for nothing and has not joined
  have hanew : n₁.Anew → n₂.nodeId = unallocatedNodeId := by
    rintro ⟨hun, hsent⟩
    rcases hid with hid | ⟨-, hc⟩
    · exact hid.trans hun
    · rw [hsent] at hc
      cases hc
  refine (Node.Next.deref (nodeProcessTx_next hframe.cycle h₃) hr ?_ ?_).trans (nodeProcessRx_deref h₂ r)
  · rintro i rfl hjoined m hget
    rcases hcarries with hc | ⟨-, hchosen⟩
    · exact hjoined (hanew hc)
    · have hboth : (n₂.txManager.entry i).inUse = false ∨ n₂.txManager.Chosen i := by
        rcases hack with ⟨-, heq⟩ | ⟨k, -, hack⟩
        · rw [heq]
          exact Or.inr hchosen
        · obtain ⟨g, hg⟩ := hchosen
          exact (hg.ack hack).imp And.right And.right
      rcases hboth with hfree | ⟨g, hg⟩
      · obtain ⟨g, hg⟩ := keptByNode_txInv.processRx hstore h₂
        obtain ⟨g', -, hnext⟩ := hg.choose hget
        have huse := (hnext i rfl).2.1.inUse
        rw [hfree] at huse
        cases huse
      · exact hg.ne_next hget rfl
  · rintro j rfl hjoined
    rcases hcarries with hc | ⟨-, hcycle, -⟩
    · exact absurd (hanew hc) hjoined
    · exact hcycle.trans hsame.tmpPacketCycle.symm

/-- The shared buffer stays exactly when no request is built over something else. -/
theorem nodePostProcess_tmpPacket_iff (h : n₁.FrameInv) (h₂ : nodeProcessRx n₁ = .ok n₂)
    (h₃ : nodeProcessTx n₂ = .ok n₃) :
    n₃.tmpPacket = n₁.tmpPacket ↔ (n₁.nodeId = unallocatedNodeId → n₁.nextNewNodeResponseCountdown = 0 →
      n₁.tmpPacket.getPacketType = some .newNodeRequest) := by
  obtain ⟨hsame, hid, hcount, -⟩ := nodeProcessRx_frames h₂
  have hframe := h.congr hsame hid
  have hiff := (nodeProcessTx_next hframe.cycle h₃).tmpPacket_iff hframe
  rw [hsame.tmpPacket, hcount] at hiff
  rw [hiff]
  rcases hid with hid | ⟨-, hsent⟩
  · rw [hid]
  · exact iff_of_true (fun _ _ => h.requested hsent) fun _ _ => h.requested hsent

/-- What the node leaves when it times out: the packets stay, and all other frames are zeroed. -/
theorem nodeTimeOut_deref_iff (h : node.FrameInv) (hcarries : node.Carries r) (hout : node.timedOut)
    (h₁ : nodeCheckIfTimedOut node = .ok n₁) : n₁.deref r = node.deref r ↔ ∃ i, r = .entry i := by
  rcases nodeCheckIfTimedOut_cases h₁ with ⟨hin, -⟩ | ⟨-, hblank, hpacket⟩
  · exact absurd hout hin
  cases r with
  | entry i => exact iff_of_true (hpacket i) ⟨i, rfl⟩
  | tmpPacket =>
      refine iff_of_false (fun hc => ?_) nofun
      have htype := h.requested (h.joined hout.1)
      rw [← show n₁.tmpPacket = node.tmpPacket from hc, hblank.tmpPacket] at htype
      exact absurd htype (by decide)
  | tmpEmptyPacketHeader j =>
      refine iff_of_false (fun hc => ?_) nofun
      rcases hcarries with ⟨hun, -⟩ | ⟨-, -, hbyte⟩
      · exact hout.1 hun
      · have hzero : n₁.tmpEmptyPacketHeader j = Packet.zero := congrFun hblank.tmpEmptyPacketHeader j
        rw [← show n₁.tmpEmptyPacketHeader j = node.tmpEmptyPacketHeader j from hc, hzero] at hbyte
        exact hbyte rfl

/-- The frame that the node carries stays during the whole post-process exactly when the node spares it. -/
theorem sparesFrame_iff (h : node.FrameInv) (hstore : ∃ g, NodeTxInv node.txManager g) (hcarries : node.Carries r)
    (h₁ : nodeCheckIfTimedOut node = .ok n₁) (h₂ : nodeProcessRx n₁ = .ok n₂)
    (h₃ : nodeProcessTx n₂ = .ok n₃) :
    (∀ n, node.PassesPost n → n.deref r = node.deref r) ↔ node.SparesFrame r := by
  have hall : (∀ n, node.PassesPost n → n.deref r = node.deref r) ↔
      n₁.deref r = node.deref r ∧ n₃.deref r = node.deref r := by
    constructor
    · exact fun hn => ⟨hn n₁ (.checked h₁), hn n₃ (.tx h₁ h₂ h₃)⟩
    · rintro ⟨hchecked, htx⟩ n hn
      cases hn with
      | checked h₁' =>
          cases h₁.symm.trans h₁'
          exact hchecked
      | rx h₁' h₂' =>
          cases h₁.symm.trans h₁'
          exact (nodeProcessRx_deref h₂' r).trans hchecked
      | tx h₁' h₂' h₃' =>
          cases h₁.symm.trans h₁'
          cases h₂.symm.trans h₂'
          cases h₃.symm.trans h₃'
          exact htx
  rw [hall]
  by_cases hout : node.timedOut
  · rw [nodeTimeOut_deref_iff h hcarries hout h₁]
    constructor
    · rintro ⟨hentry, -⟩
      exact ⟨fun _ => hentry, fun _ hid => absurd hid hout.1⟩
    · intro hspares
      have hentry := hspares.timeOut hout
      refine ⟨hentry, ?_⟩
      rcases nodeCheckIfTimedOut_cases h₁ with ⟨hin, -⟩ | ⟨-, hblank, hpacket⟩
      · exact absurd hout hin
      obtain ⟨i, rfl⟩ := hentry
      have hanew := KeptByNode.fresh (P := fun m => ∃ g, NodeTxInv m g) holdsAnew_txInv hblank.fresh
      have hcarries' : n₁.Carries (.entry i) := hblank.carries _
      exact (nodePostProcess_deref hanew hblank.frameInv hcarries' nofun h₂ h₃).trans (hpacket i)
  · obtain rfl : n₁ = node := by
      rcases nodeCheckIfTimedOut_cases h₁ with ⟨-, rfl⟩ | ⟨hc, -, -⟩
      · rfl
      · exact absurd hc hout
    by_cases hr : r = .tmpPacket
    · subst hr
      have hiff := nodePostProcess_tmpPacket_iff h h₂ h₃
      constructor
      · exact fun hstays => ⟨fun hc => absurd hc hout, fun _ => hiff.mp hstays.2⟩
      · exact fun hspares => ⟨rfl, hiff.mpr (hspares.request rfl)⟩
    · refine iff_of_true ⟨rfl, nodePostProcess_deref hstore h hcarries hr h₂ h₃⟩ ?_
      exact ⟨fun hc => absurd hc hout, fun hc => absurd hc hr⟩

end Post

section Step

variable {node node' : Node} {r : TxRef}

theorem withRxSeqNum_chosen {m : TxManager} {i : Nat} (h : m.Chosen i) (rxSeqNum : TNodeIndex → UInt8) :
    (m.withRxSeqNum rxSeqNum).Chosen i := by
  obtain ⟨g, h⟩ := h
  exact ⟨g, h.touched (touched_withRxSeqNum m rxSeqNum) rfl rfl⟩

theorem Node.NextChosen.congr (h : node.NextChosen) (hs : node.SameFrames node')
    (hchosen : ∀ i, node.txManager.Chosen i → node'.txManager.Chosen i) : node'.NextChosen :=
  fun i hi => hchosen i (h i (hs.nextTxPacket.symm.trans hi))

theorem nodePreProcess_frames {frame : Packet} {crcError : Bool} (hinit : node.initialised = true) (h : node.FrameInv)
    (hchosen : node.NextChosen) {sent : Option Packet}
    (hs : nodeDualChannelPipelinedPreProcess (node.receive frame) crcError = .ok (node', sent)) :
    node'.FrameInv ∧ node'.NextChosen ∧ ∀ r, nodeSent node (.preProcess frame crcError) = some r →
      node'.Carries r := by
  have hinit' : (node.receive frame).initialised = true := hinit
  unfold nodeDualChannelPipelinedPreProcess at hs
  rw [if_neg (by rw [hinit']; decide)] at hs
  obtain ⟨n, hquick, hs⟩ := bind_eq_ok.mp hs
  have hboth : n.FrameInv ∧ n.NextChosen := by
    rcases nodeQuickProcessPrevRx_frames hinit' hquick with hblank | ⟨hsame, hid, rxSeqNum, hm⟩
    · exact ⟨hblank.frameInv, hblank.nextChosen⟩
    · have hsame' : node.SameFrames n := ⟨hsame.1, hsame.2, hsame.3, hsame.4, hsame.5, hsame.6⟩
      refine ⟨h.congr hsame' (Or.inl hid), hchosen.congr hsame' fun i hi => ?_⟩
      rw [hm]
      exact withRxSeqNum_chosen hi rxSeqNum
  have hscheduled : n.SameFrames (nodeUpdateSchedule n) := ⟨rfl, rfl, rfl, rfl, rfl, rfl⟩
  have hframe : (nodeUpdateSchedule n).FrameInv := hboth.1.congr hscheduled (Or.inl rfl)
  have hnext : (nodeUpdateSchedule n).NextChosen := hboth.2.congr hscheduled fun _ => id
  unfold nodeSent
  dsimp only at hs ⊢
  rw [hquick]
  dsimp only
  generalize nodeUpdateSchedule n = m at hs hframe hnext ⊢
  by_cases hturn : m.currentTxNodeId = m.nodeId ∧ m.nextTxPacket ≠ none
  · rw [if_pos hturn] at hs
    have hpair := pure_eq_ok.mp hs
    rcases nodeGetTxPacket_frames m with ⟨hnone, hsame, hid, hm⟩ | ⟨r, hr, hsome, hsame, hid, hm⟩
    · rw [hpair] at hnone hsame hid hm
      refine ⟨hframe.congr hsame (Or.inl hid), hnext.congr hsame fun i hi => ?_, fun r hc => ?_⟩
      · rw [hm]
        exact hi
      · rw [if_neg fun hc => by rw [hpair, hnone] at hc; exact Bool.noConfusion hc.2] at hc
        cases hc
    · rw [hpair] at hsame hid hm
      refine ⟨(hframe.sent r).congr hsame (Or.inl hid), fun i hi => ?_, fun r' hc => ?_⟩
      · rw [hsame.nextTxPacket] at hi
        cases hi
      · obtain rfl : r' = r := by
          split at hc
          · exact Option.some.inj (hc.symm.trans hr)
          · cases hc
        refine (Node.Carries.sent (hframe.carries hnext hr)).congr hsame hid fun i hi => ?_
        rw [hm]
        exact hi
  · rw [if_neg hturn] at hs
    cases hs
    refine ⟨hframe, hnext, fun r hc => ?_⟩
    split at hc
    · rename_i hcond
      exact absurd ⟨hcond.1, fun hnone => Option.some_ne_none r (hc.symm.trans hnone)⟩ hturn
    · cases hc

theorem nodeApplication_frames {mode : ChannelMode} {a : NodeAction mode} (hmode : mode = .dual) (hpart : a.part = none)
    (h : node.FrameInv) (hchosen : node.NextChosen) (hs : node.step a = .ok node') :
    node'.FrameInv ∧ node'.NextChosen ∧ ∀ r, node.Carries r → node'.Carries r := by
  have hkept : node.SameFrames node' → node'.nodeId = node.nodeId →
      (∀ i, node.txManager.Chosen i → node'.txManager.Chosen i) →
      node'.FrameInv ∧ node'.NextChosen ∧ ∀ r, node.Carries r → node'.Carries r :=
    fun hsame hid hm => ⟨h.congr hsame (Or.inl hid), hchosen.congr hsame hm, fun _ hr => hr.congr hsame hid hm⟩
  cases a with
  | preProcess frame crcError => cases hpart
  | postProcess => cases hpart
  | isTxMode => cases hmode
  | processRx frame crcError => cases hmode
  | processTx => cases hmode
  | updateTimeUs usIncr =>
      cases hs
      exact hkept ⟨rfl, rfl, rfl, rfl, rfl, rfl⟩ rfl fun _ => id
  | allocate =>
      obtain ⟨⟨r, n⟩, halloc, hs⟩ := bind_eq_ok.mp hs
      cases hs
      obtain ⟨⟨r', m⟩, hone, hret⟩ := bind_eq_ok.mp halloc
      cases hret
      refine hkept ⟨rfl, rfl, rfl, rfl, rfl, rfl⟩ rfl ?_
      rintro i ⟨g, hg⟩
      exact ⟨g, hg.allocate hone⟩
  | write data =>
      cases hs
      have hpause : (writeAllocatedPacket node.txManager data).txSeqNumPauseCount =
        node.txManager.txSeqNumPauseCount := by
        unfold writeAllocatedPacket
        split <;> rfl
      refine hkept ⟨rfl, rfl, rfl, rfl, rfl, rfl⟩ rfl ?_
      rintro i ⟨g, hg⟩
      exact ⟨g, hg.touched (touched_write _ data) (activeTxNodes_write _ data) hpause⟩
  | submit numBytes =>
      obtain ⟨_, -, hs⟩ := bind_eq_ok.mp hs
      obtain ⟨_, -, hs⟩ := bind_eq_ok.mp hs
      obtain ⟨m, hm, hs⟩ := bind_eq_ok.mp hs
      cases hs
      refine hkept ⟨rfl, rfl, rfl, rfl, rfl, rfl⟩ rfl ?_
      rintro i ⟨g, hg⟩
      rcases submitAllocatedTxPacket_ok hm with ⟨hc, -, -⟩ | ⟨u, q, ha, -, -, -, -, hadd, rfl⟩
      · cases hc
      · exact ⟨_, hg.submit ha hadd⟩
  | peek =>
      obtain ⟨r, -, hs⟩ := bind_eq_ok.mp hs
      cases hs
      exact hkept (.refl _) rfl fun _ => id
  | pop =>
      obtain ⟨rpm, -, hs⟩ := bind_eq_ok.mp hs
      cases hs
      exact hkept ⟨rfl, rfl, rfl, rfl, rfl, rfl⟩ rfl fun _ => id
  | reset =>
      have hblank := (nodeReset_blank hs).1
      exact ⟨hblank.frameInv, hblank.nextChosen, fun r _ => hblank.carries r⟩

end Step

section Run

variable {cfg : NodeConfig} {s s' : OnWire Node} {a : NodeAction cfg.mode}

/-- Between the two parts of a slot the wire carries what the node has sent. -/
structure NodeEmits (s : OnWire Node) : Prop where
  ready : s.device.Ready
  store : ∃ g, NodeTxInv s.device.txManager g
  frame : s.device.FrameInv
  chosen : s.device.NextChosen
  wire : s.last = some .pre → ∀ r, s.wire = some r → s.device.Carries r
  silent : s.last = none → s.wire = none

theorem NodeEmits.start (h : ((nodeEmitter cfg.mode).system (nodeSystem cfg)).init s) : NodeEmits s := by
  obtain ⟨⟨entries, hinit⟩, hwire, hlast⟩ := h
  have hblank := (nodeInit_blank hinit).1
  refine ⟨hblank.fresh.ready, ?_, hblank.frameInv, hblank.nextChosen, fun hc => ?_, fun _ => hwire⟩
  · exact KeptByNode.fresh (P := fun m => ∃ g, NodeTxInv m g) holdsAnew_txInv hblank.fresh
  · rw [hlast] at hc
    cases hc

theorem NodeEmits.nextInUse (h : NodeEmits s) : (nodeEmitter cfg.mode).NextInUse s.device :=
  fun i hi => (h.chosen i hi).inUse

theorem NodeEmits.step (h : NodeEmits s) (hmode : cfg.mode = .dual) (hkeeps : NodeKeepsNext s a)
    (hs : ((nodeEmitter cfg.mode).system (nodeSystem cfg)).step s a = .ok s') : NodeEmits s' := by
  obtain ⟨hstep, hwire, hlast⟩ := Emitter.step_ok hs
  have hready : s'.device.Ready := h.ready.step hstep
  have hstore := Node.step_txInv h.ready.initialised h.store hstep
  change s'.wire = if a.part = some .pre then nodeSent s.device a else s.wire at hwire
  change s'.last = a.part.or s.last at hlast
  replace hstep : s.device.step a = .ok s'.device := hstep
  clear hs
  generalize cfg.mode = mode at a hmode
  cases hpart : a.part with
  | none =>
      obtain ⟨hframe, hchosen, hcarries⟩ := nodeApplication_frames hmode hpart h.frame h.chosen hstep
      rw [hpart] at hwire hlast
      have hlast' : s'.last = s.last := hlast
      have hwire' : s'.wire = s.wire := hwire
      refine ⟨hready, hstore, hframe, hchosen, fun hpre r hr => ?_, ?_⟩
      · exact hcarries r (h.wire (hlast'.symm.trans hpre) r (hwire'.symm.trans hr))
      · rw [hlast', hwire']
        exact h.silent
  | some part =>
      rw [hpart] at hwire hlast
      have hlast' : s'.last = some part := hlast
      have hsilent : s'.last = none → s'.wire = none := by
        intro hc
        rw [hlast'] at hc
        cases hc
      cases a with
      | preProcess frame crcError =>
          cases hpart
          obtain ⟨⟨n, f⟩, hpre, hret⟩ := bind_eq_ok.mp hstep
          cases hret
          obtain ⟨hframe, hchosen, hcarries⟩ := nodePreProcess_frames h.ready.initialised h.frame h.chosen hpre
          refine ⟨hready, hstore, hframe, hchosen, fun _ r hr => ?_, hsilent⟩
          rw [if_pos rfl] at hwire
          exact hcarries r (hwire.symm.trans hr)
      | postProcess =>
          cases hpart
          obtain ⟨n₁, n₂, h₁, h₂, h₃⟩ := nodePostProcess_ok h.ready.initialised hstep
          have hframe := nodePostProcess_frameInv h.frame h₁ h₂
          refine ⟨hready, hstore, hframe.next (nodeProcessTx_next hframe.cycle h₃), ?_, fun hc => ?_, hsilent⟩
          · exact nodePostProcess_nextChosen h.frame h.store h.chosen hkeeps h₁ h₂ h₃
          · rw [hlast'] at hc
            cases hc
      | isTxMode => cases hmode
      | processRx frame crcError => cases hmode
      | processTx => cases hmode
      | updateTimeUs usIncr => cases hpart
      | allocate => cases hpart
      | write data => cases hpart
      | submit numBytes => cases hpart
      | peek => cases hpart
      | pop => cases hpart
      | reset => cases hpart

/-- Only a late acknowledgement gives back the packet that is to be sent next. -/
theorem NodeEmits.freed {mode : ChannelMode} {a : NodeAction mode} {node : Node} (h : NodeEmits s)
    (hkeeps : ¬ NodeKeepsNext s a) (hs : s.device.step a = .ok node) : ¬ (nodeEmitter mode).NextInUse node := by
  cases a with
  | postProcess =>
      obtain ⟨n₁, n₂, h₁, h₂, h₃⟩ := nodePostProcess_ok h.ready.initialised hs
      obtain ⟨i, hi, hfree⟩ := nodePostProcess_freed h.chosen hkeeps h₁ h₂ h₃
      intro hin
      have huse : (node.txManager.entry i).inUse = true := hin i hi
      rw [hfree] at huse
      cases huse
  | _ => exact absurd trivial hkeeps

theorem nodeAllocated_iff (mode : ChannelMode) {node : Node} {i : Nat} :
    nodeAllocated node (.allocate : NodeAction mode) = some i ↔ node.txManager.Offers i := by
  rw [← allocateTxPacket_some_iff]
  unfold nodeAllocated nodeAllocateTxPacket
  cases allocateTxPacket node.txManager with
  | error e => exact iff_of_false nofun fun hc => Completes.not_error ⟨_, hc.choose_spec⟩
  | ok r =>
      obtain ⟨r, m⟩ := r
      constructor
      · rintro hr
        obtain rfl : r = some i := hr
        exact ⟨m, rfl⟩
      · rintro ⟨m', hm'⟩
        cases hm'
        rfl

theorem NodeEmits.frame_iff {mode : ChannelMode} {a : NodeAction mode} {node : Node} (h : NodeEmits s)
    (halt : (nodeEmitter mode).guard s a) (hs : s.device.step a = .ok node) :
    (nodeEmitter mode).FrameIsStable s a ↔ NodeSpares s a := by
  cases a with
  | postProcess =>
      have hcarries : ∀ r, s.wire = some r → s.device.Carries r := by
        cases hlast : s.last with
        | none =>
            rw [h.silent hlast]
            exact nofun
        | some part =>
            cases part with
            | pre => exact h.wire hlast
            | post => exact absurd hlast (halt .post rfl)
      obtain ⟨n₁, n₂, h₁, h₂, h₃⟩ := nodePostProcess_ok h.ready.initialised hs
      refine forall_congr' fun r => forall_congr' fun hr => ?_
      have hiff := sparesFrame_iff h.frame h.store (hcarries r hr) h₁ h₂ h₃
      exact ⟨fun hstable => hiff.mp hstable.1, fun hspares => ⟨hiff.mpr hspares, nofun⟩⟩
  | allocate =>
      have hiff : ∀ i, (nodeEmitter mode).allocated s.device .allocate = some i ↔ s.device.txManager.Offers i :=
        fun i => nodeAllocated_iff mode
      constructor
      · intro hstable i hi hoffers
        exact (hstable _ hi).2 i ((hiff i).mpr hoffers) rfl
      · intro hspares r hr
        refine ⟨fun d hd => hd.elim, fun i hi hri => ?_⟩
        rw [hri] at hr
        exact hspares i hr ((hiff i).mp hi)
  | _ => exact iff_of_true (Emitter.frameIsStable_of_idle (fun _ => id) rfl) trivial

theorem node_frames_stable (hmode : cfg.mode = .dual) :
    (nodeEmitter cfg.mode).StableWhen (nodeSystem cfg) fun s a => NodeKeepsNext s a ∧ NodeSpares s a := by
  refine Emitter.stableWhen (I := NodeEmits) (fun _ => NodeEmits.start) (fun _ h => h.nextInUse) ?_ ?_ ?_
  · exact fun s a s' h hkeeps hs => h.step hmode hkeeps hs
  · exact fun s a s' h hkeeps hs => h.freed hkeeps (Emitter.step_ok hs).1
  · exact fun s a s' h halt hs => h.frame_iff halt (Emitter.step_ok hs).1

end Run

/-- In runs of the dual channel whose slots alternate, a master and a node keep the frames that they hand out and the
packets that they are to send exactly when no step builds another frame over them or gives them back. -/
theorem frames_are_stable_iff {mcfg : MasterConfig} {ncfg : NodeConfig} (hm : mcfg.mode = .dual)
    (hn : ncfg.mode = .dual) :
    ((masterEmitter mcfg.mode).StableWhen (masterSystem mcfg) fun s a => MasterKeepsNext s a ∧ MasterSpares s a) ∧
      (nodeEmitter ncfg.mode).StableWhen (nodeSystem ncfg) fun s a => NodeKeepsNext s a ∧ NodeSpares s a :=
  ⟨master_frames_stable hm, node_frames_stable hn⟩

/-- A test that the conditions of the master and the order of the slots pass. -/
def masterSparesTest {mode : ChannelMode} (s : OnWire MasterRun) (a : MasterAction mode) : Bool :=
  decide (Alternates s.last a.part) &&
    match a with
    | .postProcess =>
        match masterRx s.device.master with
        | .ok (_, m₁) =>
            ((m₁.tx.txManager.turn true masterBurstSize).all fun d =>
                decide (m₁.masterNodeTimeToLive d ≠ removeNodeTTL)) &&
              (s.wire != some .tmpPacket || decide ((0 < s.device.master.tx.masterResetCycles →
                  s.device.master.tx.tmpPacket.getPacketType = some .masterReset) ∧
                (s.device.master.tx.masterResetCycles = 0 → m₁.tx.DataTurn m₁.nwManager)))
        | .error _ => true
    | .resetTxCredits => false
    | .allocate => (masterAllocated s.device (.allocate : MasterAction mode)).all fun i => s.wire != some (.entry i)
    | _ => true

theorem spares_of_masterSparesTest {mode : ChannelMode} {s : OnWire MasterRun} {a : MasterAction mode}
    (h : masterSparesTest s a = true) :
    (masterEmitter mode).guard s a ∧ MasterKeepsNext s a ∧ MasterSpares s a := by
  obtain ⟨hpart, h⟩ := Bool.and_eq_true_iff.mp h
  refine ⟨of_decide_eq_true (p := Alternates s.last a.part) hpart, ?_⟩
  cases a with
  | postProcess =>
      dsimp only at h
      refine ⟨?_, ?_⟩
      · intro k m₁ d hrx _ hd _
        rw [hrx] at h
        obtain ⟨hturn, -⟩ := Bool.and_eq_true_iff.mp h
        rw [hd] at hturn
        exact of_decide_eq_true hturn
      · intro hwire k m₁ hrx
        rw [hrx] at h
        obtain ⟨-, hspare⟩ := Bool.and_eq_true_iff.mp h
        rw [hwire, bne_self_eq_false, Bool.false_or] at hspare
        exact of_decide_eq_true hspare
  | resetTxCredits => cases h
  | allocate =>
      refine ⟨trivial, fun i hwire hoffers => ?_⟩
      dsimp only at h
      rw [(masterAllocated_iff mode).mpr hoffers, Option.all_some, hwire, bne_self_eq_false] at h
      cases h
  | _ => exact ⟨trivial, trivial⟩

/-- A test that the conditions of the node and the order of the slots pass. -/
def nodeSparesTest {mode : ChannelMode} (s : OnWire Node) (a : NodeAction mode) : Bool :=
  decide (Alternates s.last a.part) &&
    match a with
    | .postProcess =>
        (match s.device.nextTxPacket with
          | some (.entry i) => decide (s.device.savedRxAckValid = true →
              ¬ s.device.txManager.Acknowledges s.device.savedRxAck i)
          | _ => true) &&
          (s.wire.isNone || decide (¬ s.device.timedOut)) &&
          (s.wire != some .tmpPacket || decide (s.device.nodeId = unallocatedNodeId →
            s.device.nextNewNodeResponseCountdown = 0 → s.device.tmpPacket.getPacketType = some .newNodeRequest))
    | .allocate => (nodeAllocated s.device (.allocate : NodeAction mode)).all fun i => s.wire != some (.entry i)
    | _ => true

theorem spares_of_nodeSparesTest {mode : ChannelMode} {s : OnWire Node} {a : NodeAction mode}
    (h : nodeSparesTest s a = true) : (nodeEmitter mode).guard s a ∧ NodeKeepsNext s a ∧ NodeSpares s a := by
  obtain ⟨hpart, h⟩ := Bool.and_eq_true_iff.mp h
  refine ⟨of_decide_eq_true (p := Alternates s.last a.part) hpart, ?_⟩
  cases a with
  | postProcess =>
      obtain ⟨h, hrequest⟩ := Bool.and_eq_true_iff.mp h
      obtain ⟨hkeeps, hout⟩ := Bool.and_eq_true_iff.mp h
      refine ⟨?_, ?_⟩
      · intro i hnext _ _ hvalid
        rw [hnext] at hkeeps
        exact of_decide_eq_true hkeeps hvalid
      · intro r hwire
        rw [hwire] at hout hrequest
        refine ⟨fun hc => absurd hc (of_decide_eq_true hout), ?_⟩
        rintro rfl
        rw [bne_self_eq_false, Bool.false_or] at hrequest
        exact of_decide_eq_true hrequest
  | allocate =>
      refine ⟨trivial, fun i hwire hoffers => ?_⟩
      dsimp only at h
      rw [(nodeAllocated_iff mode).mpr hoffers, Option.all_some, hwire, bne_self_eq_false] at h
      cases h
  | _ => exact ⟨trivial, trivial⟩

/-- The frames of reset are sent, a node joins, and two packets are sent to it, the second one while the answer to its
request is on the wire. -/
def masterSendsTwo : List (MasterAction .dual) :=
  [.postProcess] ++ (List.replicate 20 (slot Packet.zero)).flatten ++ slot (joinFrame 11) ++ [.allocate, .submit 1 5] ++
    (List.replicate 4 (slot Packet.zero)).flatten ++ slot (nodeDataFrame 1 0 nullSequenceNum) ++
    [.allocate, .submit 1 6] ++ slot (nodeDataFrame 1 1 0) ++ [.preProcess Packet.zero false fun _ => 0]

/-- A node joins and sends two packets. The first one is acknowledged, and a third one takes its entry while the second
one is on the wire. -/
def nodeSendsThree : List (NodeAction .dual) :=
  nodeSlot Packet.zero ++ nodeSlot responseFrame ++ [.allocate, .submit 4, .allocate, .submit 5] ++
    nodeSlot (scheduledFrame 0 invalidSequenceNum) ++ nodeSlot (scheduledFrame 0 invalidSequenceNum) ++
    nodeSlot (scheduledFrame 0 0) ++ [.allocate, .submit 6] ++ nodeSlot (scheduledFrame 0 1) ++
    [.preProcess (scheduledFrame 0 1) false]

/-- Frames of every kind are on the wire in these runs. -/
theorem frames_are_stable_iff_sent :
    (∃ s, ((masterEmitter .dual).system (masterSystem dualConfig)).run
        ⟨blankRun, none, none⟩ masterSendsTwo = .ok s ∧
      s.wire = some (.entry 1) ∧
      (masterEmitter .dual).KeepsFrames (masterSystem dualConfig) ⟨blankRun, none, none⟩ masterSendsTwo s) ∧
    ∃ s, ((nodeEmitter .dual).system (nodeSystem dualNodeConfig)).run
        ⟨blankNode, none, none⟩ nodeSendsThree = .ok s ∧
      s.wire = some (.entry 0) ∧ s.device.txManager.txSeqNumStart masterNodeId = 2 ∧
      (nodeEmitter .dual).KeepsFrames (nodeSystem dualNodeConfig) ⟨blankNode, none, none⟩ nodeSendsThree s := by
  obtain ⟨hmaster, hnode⟩ := @frames_are_stable_iff dualConfig dualNodeConfig rfl rfl
  constructor
  · obtain ⟨s, hchecked, hwire⟩ := System.exists_of_any
      (x := ((masterEmitter .dual).system (masterSystem dualConfig)).checkedRun masterSparesTest
        ⟨blankRun, none, none⟩
        masterSendsTwo) (p := fun s => s.wire == some (.entry 1)) (by decide +kernel)
    obtain ⟨hrun, hmeets⟩ := System.run_of_checkedRun (fun _ _ => spares_of_masterSparesTest) hchecked
    obtain ⟨hguard, hcondition⟩ := System.runMeets_and.mp hmeets
    exact ⟨s, hrun, eq_of_beq hwire, (hmaster ⟨blankRun_init, rfl, rfl⟩ hguard hrun).mpr hcondition⟩
  · obtain ⟨s, hchecked, hend⟩ := System.exists_of_any
      (x := ((nodeEmitter .dual).system (nodeSystem dualNodeConfig)).checkedRun nodeSparesTest
        ⟨blankNode, none, none⟩
        nodeSendsThree)
      (p := fun s => decide (s.wire = some (.entry 0) ∧ s.device.txManager.txSeqNumStart masterNodeId = 2))
      (by decide +kernel)
    obtain ⟨hrun, hmeets⟩ := System.run_of_checkedRun (fun _ _ => spares_of_nodeSparesTest) hchecked
    obtain ⟨hguard, hcondition⟩ := System.runMeets_and.mp hmeets
    obtain ⟨hwire, hstart⟩ := of_decide_eq_true hend
    exact ⟨s, hrun, hwire, hstart, (hnode ⟨blankNode_init, rfl, rfl⟩ hguard hrun).mpr hcondition⟩

/-- The second packet of a node is sent and chosen again before its acknowledgement comes. -/
def lateAck : List (NodeAction .dual) :=
  nodeSlot Packet.zero ++ nodeSlot responseFrame ++ [.allocate, .submit 4] ++
    (nodeSlot (scheduledFrame 0 invalidSequenceNum) ++ nodeSlot (scheduledFrame 0 invalidSequenceNum) ++
      nodeSlot (scheduledFrame 1 0)) ++ [.allocate, .submit 4] ++
    (nodeSlot (scheduledFrame 1 0) ++ nodeSlot (scheduledFrame 0 0) ++ nodeSlot (scheduledFrame 1 0) ++
      nodeSlot (scheduledFrame 1 0) ++ nodeSlot (scheduledFrame 1 1))

/-- The first post-process of a master builds a reset over the frame on the wire, and a node gives back the packet that
it is about to send. -/
theorem frames_are_rewritten :
    (∃ s s', ((masterEmitter .dual).system (masterSystem dualConfig)).run ⟨blankRun, none, none⟩
        [.preProcess Packet.zero false fun _ => 0] = .ok s ∧
      ((masterEmitter .dual).system (masterSystem dualConfig)).step s .postProcess = .ok s' ∧
      ¬ (masterEmitter .dual).FrameIsStable s .postProcess) ∧
    ∃ s, ((nodeEmitter .dual).system (nodeSystem dualNodeConfig)).run ⟨blankNode, none, none⟩ lateAck = .ok s ∧
      ¬ (nodeEmitter .dual).NextInUse s.device := by
  constructor
  · obtain ⟨s, hrun, hs⟩ := System.exists_of_holdsAfter
      (x := ((masterEmitter .dual).system (masterSystem dualConfig)).run
        ⟨blankRun, none, none⟩ [.preProcess Packet.zero false fun _ => 0])
      (p := fun s => s.wire = some .tmpPacket ∧ System.holdsAfter
        (((masterEmitter .dual).system (masterSystem dualConfig)).step s .postProcess) fun s' =>
          s'.device.master.tx.tmpPacket.protocolVersionAndPacketType ≠
            s.device.master.tx.tmpPacket.protocolVersionAndPacketType) (by decide +kernel)
    obtain ⟨hwire, hpost⟩ := of_decide_eq_true hs
    obtain ⟨s', hstep, hne⟩ := System.exists_of_holdsAfter hpost
    refine ⟨s, s', hrun, hstep, fun hstable => ?_⟩
    obtain ⟨⟨k, m⟩, hslot, hret⟩ := bind_eq_ok.mp (Emitter.step_ok hstep).1
    injection hret with hret
    obtain ⟨m₁, m₂, k₁, k₂, h₁, h₂, h₃⟩ := postProcess_ok hslot
    have hsame : m.tx.tmpPacket = s.device.master.tx.tmpPacket :=
      (hstable .tmpPacket hwire).1 { s.device with master := m } (.remove h₁ h₂ h₃)
    refine of_decide_eq_true hne ?_
    rw [← hret]
    exact congrArg Packet.protocolVersionAndPacketType hsame
  · obtain ⟨s, hrun, hs⟩ := System.exists_of_holdsAfter
      (x := ((nodeEmitter .dual).system (nodeSystem dualNodeConfig)).run
        ⟨blankNode, none, none⟩ lateAck)
      (p := fun s => s.device.nextTxPacket = some (.entry 0) ∧ (s.device.txManager.entry 0).inUse = false)
      (by decide +kernel)
    obtain ⟨hnext, hfree⟩ := of_decide_eq_true hs
    refine ⟨s, hrun, fun hin => ?_⟩
    have huse := hin 0 hnext
    exact Bool.false_ne_true (hfree.symm.trans huse)

end Microbus
