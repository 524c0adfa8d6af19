import Microbus.NodeLevels
import Microbus.Acceptance
import Microbus.RingRemoval

/-! The pop that follows a peek, with slots in between. -/
namespace Microbus

open Transition

theorem map_filter_true {α : Type} {p : α → Bool} (h : ∀ e, p e = true) (l : List (Option α)) :
    l.map (Option.filter p) = l := by
  have hid : Option.filter p = id := by
    funext slot
    cases slot with
    | none => rfl
    | some e => rw [Option.filter_some, h, if_pos rfl]; rfl
  rw [hid, List.map_id]

namespace RxPacketManager

variable {rpm rpm' rpm'' : RxPacketManager}

/-- Slots may be added behind the ring, and the queued packets stay as they are. -/
structure Extends (rpm rpm' : RxPacketManager) : Prop where
  ring : ∃ added, rpm'.ring = rpm.ring ++ added
  packets : ∀ e ∈ rpm.queued, (rpm'.rxPacketEntries e).packet = (rpm.rxPacketEntries e).packet

namespace Extends

theorem refl (rpm : RxPacketManager) : rpm.Extends rpm := ⟨⟨[], (List.append_nil _).symm⟩, fun _ _ => rfl⟩

theorem of_ring (hring : rpm'.ring = rpm.ring)
    (h : ∀ e, (rpm'.rxPacketEntries e).packet = (rpm.rxPacketEntries e).packet) : rpm.Extends rpm' :=
  ⟨⟨[], hring.trans (List.append_nil _).symm⟩, fun e _ => h e⟩

theorem queued (h : rpm.Extends rpm') {e : Nat} (he : e ∈ rpm.queued) : e ∈ rpm'.queued := by
  obtain ⟨added, hring⟩ := h.ring
  unfold RxPacketManager.queued at he ⊢
  rw [hring, List.reduceOption_append]
  exact List.mem_append_left _ he

theorem trans (h : rpm.Extends rpm') (h' : rpm'.Extends rpm'') : rpm.Extends rpm'' where
  ring := by
    obtain ⟨added, hring⟩ := h.ring
    obtain ⟨added', hring'⟩ := h'.ring
    exact ⟨added ++ added', by rw [hring', hring, List.append_assoc]⟩
  packets e he := (h'.packets e (h.queued he)).trans (h.packets e he)

theorem setInUse (rpm : RxPacketManager) (e : Nat) (inUse : Bool) : rpm.Extends (rpm.setInUse e inUse) :=
  .of_ring rfl (packet_setInUse e inUse)

theorem receive {i : Nat} (hi : i ∉ rpm.queued) (frame : Packet) : rpm.Extends (rpm.receive i frame) where
  ring := ⟨[], (List.append_nil _).symm⟩
  packets e he := by
    have hne : e ≠ i := by
      rintro rfl
      exact hi he
    simp [RxPacketManager.receive, hne]

theorem add {next e : Nat} (h : RxInv rpm next (some e)) (hadd : addRxDataPacket rpm e = .ok rpm') :
    rpm.Extends rpm' := by
  obtain ⟨-, -, -, hentries⟩ := addRxDataPacket_fields hadd
  exact ⟨⟨_, (h.add hadd).2⟩, fun i _ => by rw [hentries]⟩

theorem head (h : rpm.Extends rpm') {slot : Option Nat} (hhead : rpm.ring.head? = some slot) :
    rpm'.ring.head? = some slot := by
  obtain ⟨added, hring⟩ := h.ring
  rw [hring, List.head?_append, hhead]
  rfl

end Extends

theorem queued_of_head {e : Nat} (h : rpm.ring.head? = some (some e)) : e ∈ rpm.queued :=
  List.reduceOption_mem_iff.mpr (List.mem_of_mem_head? (Option.mem_def.mpr h))

/-- The pop after a peek that returned the packet in `e`: it goes through, takes the packet if that
is still queued, and takes no other. -/
def PopsPeeked (peeked rpm : RxPacketManager) (e : Nat) (still : Prop) : Prop :=
  ∃ popped, popNextDataPacket rpm = .ok popped ∧
    (still → rpm.ring = some e :: popped.ring ∧
      (rpm.rxPacketEntries e).packet = (peeked.rxPacketEntries e).packet) ∧
    (¬ still → popped.queued = rpm.queued)

end RxPacketManager

namespace Master

def due (master : Master) (src : TNodeIndex) : Prop :=
  Station src ∧ master.masterNodeTimeToLive src = removeNodeTTL

instance (master : Master) (src : TNodeIndex) : Decidable (master.due src) := by
  unfold due Station; infer_instance

end Master

def MasterRun.removesNode (s : MasterRun) {mode : ChannelMode} (a : MasterAction mode) (src : TNodeIndex) : Prop :=
  match a with
  | .postProcess => s.master.due src
  | .processTx _ => s.master.due src
  | _ => False

instance {mode : ChannelMode} (s : MasterRun) (a : MasterAction mode) (src : TNodeIndex) :
    Decidable (s.removesNode a src) :=
  match a with
  | .postProcess | .processTx _ => inferInstanceAs (Decidable (s.master.due src))
  | .preProcess _ _ _ | .processRx _ _ | .updateTimeUs _ | .allocate | .write _ | .submit _ _ | .peek | .pop
  | .getConnectedNodes | .resetTxCredits => inferInstanceAs (Decidable False)

section MasterSteps

variable {master master' : Master}

theorem masterQuickRx_extends {crcError : Bool} (h : masterQuickRx master crcError = .ok master') :
    master.rx.rxPacketManager.Extends master'.rx.rxPacketManager := by
  obtain ⟨rx, nw, ttl, m, rfl, -, -, hresult⟩ := masterQuickRx_ok h
  cases hresult with
  | dropped _ => exact .refl _
  | kept _ hfind _ =>
      obtain ⟨-, rfl⟩ := RxPacketManager.findFreeRxPacket_some hfind
      exact .setInUse _ _ _
  | inOrder _ hfind _ _ =>
      obtain ⟨-, rfl⟩ := RxPacketManager.findFreeRxPacket_some hfind
      exact .setInUse _ _ _

theorem masterRx_extends {k : Nat} (hstore : RxInv master.rx.rxPacketManager master.rx.nextRxPacketEntry master.waiting)
    (h : masterRx master = .ok (k, master')) : master.rx.rxPacketManager.Extends master'.rx.rxPacketManager := by
  rcases masterRx_ok h with ⟨-, heq⟩ | ⟨e, _, _, _, _, _, _, hvalid, hprev, rfl, hresult⟩
  · rw [heq]
    exact .refl _
  · have hwaiting : master.waiting = some e := by
      unfold Master.waiting
      rw [hvalid, ← hprev]
      rfl
    rw [hwaiting] at hstore
    cases hresult with
    | ignored _ => exact .setInUse _ _ _
    | acked _ _ => exact .setInUse _ _ _
    | stored _ _ _ _ hadd => exact .add hstore hadd
    | registered _ _ => exact .setInUse _ _ _

theorem masterRx_due {k : Nat} (h : masterRx master = .ok (k, master')) {src : TNodeIndex} :
    master'.due src ↔ master.due src := by
  unfold Master.due
  obtain ⟨-, -, hback⟩ := masterRx_part h
  refine and_congr_right fun _ => ⟨hback src, fun hdue => ?_⟩
  rcases masterRx_ok h with ⟨-, heq⟩ | ⟨_, _, _, _, _, _, _, -, -, rfl, hresult⟩
  · rw [heq]
    exact hdue
  · cases hresult with
    | ignored _ => exact hdue
    | acked _ _ => exact hdue
    | stored _ _ _ _ _ => exact hdue
    | registered _ hrequest =>
        obtain ⟨_, -, hrequest⟩ := bind_eq_ok.mp hrequest
        obtain ⟨uniqueId, -, hregister⟩ := bind_eq_ok.mp hrequest
        rcases networkManagerRegisterNewNode_ok hregister with ⟨-, rfl⟩ | ⟨_, -, -, hid, -, -, rfl⟩
        · exact hdue
        · obtain ⟨-, -, hz⟩ := getNextFreeNodeId_free hid
          have hne : src ≠ getNextFreeNodeId master.masterNodeTimeToLive := by
            rintro rfl
            rw [hz] at hdue
            exact absurd hdue (by decide)
          exact (Function.update_of_ne hne _ _).trans hdue

theorem masterRemoveAny_ring {k : Nat} (hstore : RxInv master.rx.rxPacketManager master.rx.nextRxPacketEntry none)
    (h : masterRemoveAnyTimeoutNodes master = .ok (k, master')) :
    master'.rx.rxPacketManager.ring = master.rx.rxPacketManager.ring.map
        (Option.filter fun e => !decide (master.due (master.rx.packetAt e).srcNodeId)) ∧
      ∀ e, master'.rx.packetAt e = master.rx.packetAt e := by
  -- the nodes below `i` that were due are gone
  have hrounds := masterRemoveAnyTimeoutNodes_rounds (P := fun i m =>
      RxInv m.rx.rxPacketManager m.rx.nextRxPacketEntry none ∧ (∀ e, m.rx.packetAt e = master.rx.packetAt e) ∧
      (∀ d : TNodeIndex, i ≤ d.toNat → m.masterNodeTimeToLive d = master.masterNodeTimeToLive d) ∧
      m.rx.rxPacketManager.ring = master.rx.rxPacketManager.ring.map (Option.filter fun e =>
        !decide ((master.rx.packetAt e).srcNodeId.toNat < i ∧ master.due (master.rx.packetAt e).srcNodeId)))
    ?_ ⟨hstore, fun _ => rfl, fun _ _ => rfl, ?_⟩ h
  · obtain ⟨-, hpackets, -, hring⟩ := hrounds
    refine ⟨hring.trans ?_, hpackets⟩
    congr 2
    funext e
    have hiff : ((master.rx.packetAt e).srcNodeId.toNat < maxNodes ∧ master.due (master.rx.packetAt e).srcNodeId) ↔
        master.due (master.rx.packetAt e).srcNodeId := ⟨And.right, fun hdue => ⟨hdue.1.2, hdue⟩⟩
    simp only [hiff]
  · rintro d hfirst hlast m n m' ⟨hinv, hpackets, httl, hring⟩ hone
    rcases masterRemoveIfTimedOut_ok hone with ⟨hstays, rfl⟩ | ⟨_, _, nw, tx, rpm, hgone, -, -, hrpm, rfl⟩
    · refine ⟨hinv, hpackets, fun d' hd' => httl d' (Nat.le_of_succ_le hd'), hring.trans ?_⟩
      congr 2
      funext e
      have hiff : ((master.rx.packetAt e).srcNodeId.toNat < d.toNat + 1 ∧
          master.due (master.rx.packetAt e).srcNodeId) ↔ (master.rx.packetAt e).srcNodeId.toNat < d.toNat ∧
          master.due (master.rx.packetAt e).srcNodeId := by
        refine ⟨fun ⟨hlt, hdue⟩ => ⟨?_, hdue⟩, fun ⟨hlt, hdue⟩ => ⟨Nat.lt_succ_of_lt hlt, hdue⟩⟩
        rcases Nat.lt_succ_iff_lt_or_eq.mp hlt with hlt | heq
        · exact hlt
        · exfalso
          apply hstays
          rw [httl d (Nat.le_refl _), ← UInt8.toNat_inj.mp heq]
          exact hdue.2
      simp only [hiff]
    · have hremoves := RxPacketManager.removesAt_of_ok hinv.start_lt hinv.end_lt hrpm
      have hring' := hremoves.ring hinv.start_lt hinv.end_lt
      refine ⟨hinv.removeAll hrpm, fun e => (hremoves.packet e).trans (hpackets e), ?_, ?_⟩
      · intro d' hd'
        have hne : d' ≠ d := by
          rintro rfl
          omega
        change Function.update m.masterNodeTimeToLive d 0 d' = _
        rw [Function.update_of_ne hne]
        exact httl d' (Nat.le_of_succ_le hd')
      · change rpm.ring = _
        rw [hring', hring, List.map_map]
        apply List.map_congr_left
        intro slot _
        cases slot with
        | none => rfl
        | some e =>
            have hpacket : ((m.rx.rxPacketManager.rxPacketEntries e).packet).srcNodeId =
                (master.rx.packetAt e).srcNodeId := congrArg Packet.srcNodeId (hpackets e)
            have hdue : master.due d := ⟨⟨hfirst, hlast⟩, (httl d (Nat.le_refl _)).symm.trans hgone⟩
            by_cases hsrc : (master.rx.packetAt e).srcNodeId = d
            · simp [Option.filter, hpacket, hsrc, hdue]
            · have hlt : (master.rx.packetAt e).srcNodeId.toNat < d.toNat + 1 ↔
                  (master.rx.packetAt e).srcNodeId.toNat < d.toNat := by
                have hne : (master.rx.packetAt e).srcNodeId.toNat ≠ d.toNat := fun hc => hsrc (UInt8.toNat_inj.mp hc)
                omega
              by_cases hgone' : (master.rx.packetAt e).srcNodeId.toNat < d.toNat ∧
                  master.due (master.rx.packetAt e).srcNodeId
              · simp [Option.filter, hlt, hgone'.1, hgone'.2]
              · simp only [Function.comp_apply, Option.filter_some, hlt, hgone', decide_false, Bool.not_false, if_true,
                  hpacket, bne_iff_ne, ne_eq, hsrc, not_false_eq_true]
  · refine (map_filter_true ?_ _).symm
    intro e
    rw [decide_eq_false (fun hc => absurd hc.2.1.1 (Nat.not_le_of_lt hc.1))]
    rfl

end MasterSteps

/-- Packets are added to the ring, and those of the nodes that the action removes go. -/
def MasterRun.MovesRing {mode : ChannelMode} (s s' : MasterRun) (a : MasterAction mode) : Prop :=
  ∃ rpm, s.master.rx.rxPacketManager.Extends rpm ∧
    s'.master.rx.rxPacketManager.ring = rpm.ring.map
      (Option.filter fun e => !decide (s.removesNode a (rpm.rxPacketEntries e).packet.srcNodeId)) ∧
    ∀ e, s'.master.rx.packetAt e = (rpm.rxPacketEntries e).packet

namespace MasterRun.MovesRing

variable {mode : ChannelMode} {s s' : MasterRun} {last : Option SlotPart}

theorem of_extends {a : MasterAction mode}
    (hextends : s.master.rx.rxPacketManager.Extends s'.master.rx.rxPacketManager)
    (hnone : ∀ src, ¬ s.removesNode a src) : s.MovesRing s' a := by
  refine ⟨_, hextends, (map_filter_true ?_ _).symm, fun _ => rfl⟩
  intro e
  rw [decide_eq_false (hnone _)]
  rfl

theorem of_same {a : MasterAction mode} (hrx : s'.master.rx = s.master.rx) (hnone : ∀ src, ¬ s.removesNode a src) :
    s.MovesRing s' a := by
  refine of_extends ?_ hnone
  rw [hrx]
  exact .refl _

theorem updateSchedule_extends {master m : Master} (h : MasterHolds master last) {frame : Packet}
    (hs : masterUpdateSchedule (master.receive frame) = .ok m) :
    master.rx.rxPacketManager.Extends m.rx.rxPacketManager := by
  rw [masterUpdateSchedule_rx hs]
  exact .receive h.store.next_not_queued frame

theorem preProcess (h : MasterHolds s.master last) {frame : Packet} {crcError : Bool} {stray : TNodeIndex → UInt8}
    (hs : s.step (.preProcess frame crcError stray) = .ok s') :
    s.MovesRing s' (.preProcess frame crcError stray) := by
  obtain ⟨⟨m, f⟩, hpre, hs⟩ := bind_eq_ok.mp hs
  cases hs
  obtain ⟨m₁, m₂, h₁, h₂, rfl⟩ := preProcess_ok hpre
  refine of_extends ((updateSchedule_extends h h₁).trans ?_) fun _ => id
  change m₁.rx.rxPacketManager.Extends (masterQuickTx m₂ stray).rx.rxPacketManager
  rw [(masterQuickTx_rx m₂ stray).1]
  exact masterQuickRx_extends h₂

theorem postProcess (h : MasterHolds s.master last) (hs : s.step .postProcess = .ok s') :
    s.MovesRing s' .postProcess := by
  obtain ⟨⟨k, m⟩, hpost, hs⟩ := bind_eq_ok.mp hs
  cases hs
  obtain ⟨m₁, m₂, k₁, k₂, h₁, h₂, h₃⟩ := postProcess_ok hpost
  have hrx := masterTx_rx h₂
  obtain ⟨hstore, -, -, -⟩ := masterRx_queues h.store h₁
  rw [← hrx] at hstore
  obtain ⟨hring, hpackets⟩ := masterRemoveAny_ring hstore h₃
  refine ⟨m₂.rx.rxPacketManager, hrx ▸ masterRx_extends h.store h₁, hring.trans ?_, hpackets⟩
  congr 2
  funext e
  have hdue : ∀ src, m₂.due src ↔ s.master.due src := by
    intro src
    rw [← masterRx_due h₁]
    unfold Master.due
    rw [(masterTx_scheduler h₂).2]
  simp only [hdue]
  rfl

theorem processRx (h : MasterHolds s.master last) (hlast : last ≠ some .pre) {frame : Packet} {crcError : Bool}
    (hs : s.step (.processRx frame crcError) = .ok s') : s.MovesRing s' (.processRx frame crcError) := by
  obtain ⟨⟨k, m⟩, hrx, hs⟩ := bind_eq_ok.mp hs
  cases hs
  obtain ⟨m₁, m₂, h₁, h₂, h₃⟩ := processRx_ok hrx
  obtain ⟨hholds, -, -⟩ := receive_takes h hlast h₁ h₂
  have hquick := (updateSchedule_extends h h₁).trans (masterQuickRx_extends h₂)
  exact of_extends (hquick.trans (masterRx_extends hholds.store h₃)) fun _ => id

theorem processTx (h : MasterHolds s.master last) (hlast : last ≠ some .pre) {stray : TNodeIndex → UInt8}
    (hs : s.step (.processTx stray) = .ok s') : s.MovesRing s' (.processTx stray) := by
  obtain ⟨⟨k, m, f⟩, htx, hs⟩ := bind_eq_ok.mp hs
  cases hs
  obtain ⟨m₁, m₂, h₁, h₂, h₃⟩ := processTx_ok htx
  have hrx : (masterQuickTx m₂ stray).rx = s.master.rx :=
    (masterQuickTx_rx m₂ stray).1.trans ((masterUpdateSchedule_rx h₂).trans (masterTx_rx h₁))
  have hheld := h.sameRx hrx
  obtain ⟨hring, hpackets⟩ := masterRemoveAny_ring (hheld.waiting_none hlast ▸ hheld.store) h₃
  refine ⟨(masterQuickTx m₂ stray).rx.rxPacketManager, hrx ▸ .refl _, hring.trans ?_, hpackets⟩
  congr 2
  funext e
  have httl : (masterQuickTx m₂ stray).masterNodeTimeToLive = s.master.masterNodeTimeToLive := by
    obtain ⟨tx, heq, -⟩ := masterQuickTx_eq m₂ stray
    rw [heq]
    exact (masterUpdateSchedule_quiet h₂).2.trans (masterTx_scheduler h₁).2
  have hdue : ∀ src, (masterQuickTx m₂ stray).due src ↔ s.master.due src := by
    intro src
    unfold Master.due
    rw [httl]
  simp only [hdue]
  rfl

end MasterRun.MovesRing

/-- What an action of the master other than a peek or a pop does to the ring. -/
theorem masterRing_step {mode : ChannelMode} {s s' : MasterRun} {a : MasterAction mode} {last : Option SlotPart}
    (h : MasterHolds s.master last) (hmode : mode = .single → last = none) (hpeek : a ≠ .peek) (hpop : a ≠ .pop)
    (hs : s.step a = .ok s') : s.MovesRing s' a := by
  have hsingle : mode = .single → last ≠ some .pre := fun hm => hmode hm ▸ nofun
  cases a with
  | preProcess frame crcError stray => exact .preProcess h hs
  | postProcess => exact .postProcess h hs
  | processRx frame crcError => exact .processRx h (hsingle rfl) hs
  | processTx stray => exact .processTx h (hsingle rfl) hs
  | updateTimeUs usIncr =>
      cases hs
      obtain ⟨us, ttl, heq, -⟩ := masterUpdateTimeUs_eq s.master usIncr
      refine .of_same ?_ fun _ => id
      change (masterUpdateTimeUs s.master usIncr).rx = _
      rw [heq]
  | allocate =>
      obtain ⟨⟨r, m⟩, halloc, hs⟩ := bind_eq_ok.mp hs
      cases hs
      exact .of_same (masterAllocate_rx halloc).1 fun _ => id
  | write data =>
      cases hs
      exact .of_same rfl fun _ => id
  | submit dst numBytes =>
      obtain ⟨m, hsubmit, hs⟩ := bind_eq_ok.mp hs
      have hresult : s'.master = m := by
        split at hs <;> cases hs <;> rfl
      exact .of_same (hresult ▸ (masterSubmit_rx hsubmit).1) fun _ => id
  | peek => exact absurd rfl hpeek
  | pop => exact absurd rfl hpop
  | getConnectedNodes =>
      obtain ⟨⟨m, bits⟩, hget, hs⟩ := bind_eq_ok.mp hs
      cases hs
      obtain rfl := getConnectedNodesBitField_ok hget
      exact .of_same rfl fun _ => id
  | resetTxCredits =>
      cases hs
      exact .of_same rfl fun _ => id

/-- The slot at the head of the ring stays there, and its packet goes with its node. -/
theorem masterHead_step {mode : ChannelMode} {s s' : MasterRun} {a : MasterAction mode} {last : Option SlotPart}
    (h : MasterHolds s.master last) (hmode : mode = .single → last = none) (hpeek : a ≠ .peek) (hpop : a ≠ .pop)
    (hs : s.step a = .ok s') :
    (s.master.rx.rxPacketManager.ring.head? = some none → s'.master.rx.rxPacketManager.ring.head? = some none) ∧
      ∀ e, s.master.rx.rxPacketManager.ring.head? = some (some e) →
        (s.removesNode a (s.master.rx.packetAt e).srcNodeId →
          s'.master.rx.rxPacketManager.ring.head? = some none) ∧
        (¬ s.removesNode a (s.master.rx.packetAt e).srcNodeId →
          s'.master.rx.rxPacketManager.ring.head? = some (some e) ∧
            s'.master.rx.packetAt e = s.master.rx.packetAt e) := by
  obtain ⟨rpm, hextends, hring, hpackets⟩ := masterRing_step h hmode hpeek hpop hs
  rw [hring, List.head?_map]
  refine ⟨fun hhead => ?_, fun e hhead => ?_⟩
  · rw [hextends.head hhead]
    rfl
  · have hpacket : (rpm.rxPacketEntries e).packet = s.master.rx.packetAt e :=
      hextends.packets e (RxPacketManager.queued_of_head hhead)
    rw [hextends.head hhead]
    refine ⟨fun hremoves => ?_, fun hstays => ⟨?_, (hpackets e).trans hpacket⟩⟩
    · simp only [Option.map_some, Option.filter_some, hpacket, hremoves, decide_true]
      rfl
    · simp only [Option.map_some, Option.filter_some, hpacket, hstays, decide_false]
      rfl

section MasterRuns

variable {cfg : MasterConfig} {r r' : Reception MasterRun} {as : List (MasterAction cfg.mode)}

abbrev masterReceptions (cfg : MasterConfig) : System (Reception MasterRun) (MasterAction cfg.mode) Fault :=
  (masterReceiver cfg.mode).system (masterSystem cfg)

theorem masterHolds_run (h : MasterHolds r.device.master r.last) (hmode : cfg.mode = .single → r.last = none)
    {a : MasterAction cfg.mode} (halt : (masterReceiver cfg.mode).guard r a)
    (hs : (masterReceptions cfg).step r a = .ok r') :
    MasterHolds r'.device.master r'.last ∧ (cfg.mode = .single → r'.last = none) ∧
    r.device.step a = .ok r'.device := by
  obtain ⟨hs, hlast, -⟩ := Receiver.step_ok hs
  obtain ⟨hholds, -⟩ := h.step hmode halt hs
  rw [hlast]
  refine ⟨hholds, fun hsingle => ?_, hs⟩
  rw [hmode hsingle, Option.or_none]
  exact MasterAction.part_single hsingle a

theorem masterHead_run (h : MasterHolds r.device.master r.last) (hmode : cfg.mode = .single → r.last = none)
    (hmeets : (masterReceptions cfg).RunMeets (masterReceiver cfg.mode).guard r as)
    (hquiet : ∀ a ∈ as, a ≠ .peek ∧ a ≠ .pop) (hrun : (masterReceptions cfg).run r as = .ok r') :
    MasterHolds r'.device.master r'.last ∧
      (r.device.master.rx.rxPacketManager.ring.head? = some none →
        r'.device.master.rx.rxPacketManager.ring.head? = some none) ∧
      ∀ e src, r.device.master.rx.rxPacketManager.ring.head? = some (some e) →
        (r.device.master.rx.packetAt e).srcNodeId = src →
        ((masterReceptions cfg).RunMeets (fun r a => ¬ r.device.removesNode a src) r as →
          (masterReceptions cfg).RunKeeps (fun r => e ∈ r.device.master.rx.rxPacketManager.queued) r as r' ∧
            r'.device.master.rx.rxPacketManager.ring.head? = some (some e) ∧
            r'.device.master.rx.packetAt e = r.device.master.rx.packetAt e) ∧
        (¬ (masterReceptions cfg).RunMeets (fun r a => ¬ r.device.removesNode a src) r as →
          r'.device.master.rx.rxPacketManager.ring.head? = some none) := by
  induction as generalizing r with
  | nil =>
      cases hrun
      refine ⟨h, id, fun e src hhead _ =>
        ⟨fun _ => ⟨⟨trivial, RxPacketManager.queued_of_head hhead⟩, hhead, rfl⟩, ?_⟩⟩
      intro hremoved
      exact absurd trivial hremoved
  | cons a rest ih =>
      obtain ⟨t, ht, hrest⟩ := bind_eq_ok.mp hrun
      rw [System.runMeets_cons ht] at hmeets
      obtain ⟨hpeek, hpop⟩ := hquiet a List.mem_cons_self
      obtain ⟨hholds, hmode', hstep⟩ := masterHolds_run h hmode hmeets.1 ht
      obtain ⟨hempty, hfull⟩ := masterHead_step h hmode hpeek hpop hstep
      obtain ⟨hend, hempty', hfull'⟩ :=
        ih hholds hmode' hmeets.2 (fun b hb => hquiet b (List.mem_cons_of_mem a hb)) hrest
      refine ⟨hend, fun hhead => hempty' (hempty hhead), fun e src hhead hsrc => ?_⟩
      obtain ⟨hgoes, hstays⟩ := hfull e hhead
      rw [hsrc] at hgoes hstays
      rw [System.runMeets_cons ht, System.runKeeps_cons ht]
      by_cases hremoves : r.device.removesNode a src
      · exact ⟨fun hc => absurd hremoves hc.1, fun _ => hempty' (hgoes hremoves)⟩
      · obtain ⟨hhead', hpacket⟩ := hstays hremoves
        obtain ⟨hkeeps, hloses⟩ := hfull' e src hhead' (hpacket ▸ hsrc)
        refine ⟨fun ⟨_, hall⟩ => ?_, fun hc => hloses fun hall => hc ⟨hremoves, hall⟩⟩
        obtain ⟨hqueued, hlast, hsame⟩ := hkeeps hall
        exact ⟨⟨RxPacketManager.queued_of_head hhead, hqueued⟩, hlast, hsame.trans hpacket⟩

def Packet.rxData (p : Packet) : RxData := ⟨p.srcNodeId, p.getPacketDataSize, p.data⟩

/-- The pop after a peek does what it should exactly when the sender is not removed in between. -/
theorem masterPop_after_peek {peeked : Reception MasterRun} {data : RxData} {master : Master}
    (h : (masterReceptions cfg).ReachableWhen (masterReceiver cfg.mode).guard r)
    (hpeek : masterPeekNextRxDataPacket r.device.master = .ok (some data, master))
    (hstep : (masterReceptions cfg).step r .peek = .ok peeked)
    (hmeets : (masterReceptions cfg).RunMeets (masterReceiver cfg.mode).guard peeked as)
    (hquiet : ∀ a ∈ as, a ≠ .peek ∧ a ≠ .pop) (hrun : (masterReceptions cfg).run peeked as = .ok r') :
    ∃ e, data = (peeked.device.master.rx.packetAt e).rxData ∧
      (peeked.device.master.rx.rxPacketManager.PopsPeeked r'.device.master.rx.rxPacketManager e
          ((masterReceptions cfg).RunKeeps (fun r => e ∈ r.device.master.rx.rxPacketManager.queued) peeked as r') ↔
        (masterReceptions cfg).RunMeets (fun r a => ¬ r.device.removesNode a data.srcNodeId) peeked as) := by
  obtain ⟨⟨hholds, hmode⟩, -⟩ := masterReception h
  obtain ⟨hheld, hmode', hdevice⟩ := masterHolds_run hholds hmode (fun p hp => by cases hp) hstep
  obtain ⟨⟨found, rpm⟩, hloop, hfound⟩ := bind_eq_ok.mp hpeek
  cases found with
  | none => cases hfound
  | some e =>
      cases hfound
      have hmaster : peeked.device.master =
          { r.device.master with rx := { r.device.master.rx with rxPacketManager := rpm } } := by
        obtain ⟨⟨found, m⟩, hagain, hdevice⟩ := bind_eq_ok.mp hdevice
        rw [hpeek] at hagain
        cases hagain
        rw [← pure_eq_ok.mp hdevice]
      obtain ⟨-, -, hhead, -⟩ := hholds.store.peek hloop
      have hhead' : peeked.device.master.rx.rxPacketManager.ring.head? = some (some e) := by
        rw [hmaster]
        exact hhead
      obtain ⟨hend, -, hfull⟩ := masterHead_run hheld hmode' hmeets hquiet hrun
      have hpacket : peeked.device.master.rx.packetAt e = (rpm.rxPacketEntries e).packet := by
        rw [hmaster]
        rfl
      have hsrc := congrArg Packet.srcNodeId hpacket
      obtain ⟨hkeeps, hloses⟩ := hfull e _ hhead' hsrc
      refine ⟨e, congrArg Packet.rxData hpacket.symm, ⟨fun hpops => ?_, fun hstays => ?_⟩⟩
      · by_contra hremoved
        obtain ⟨popped, hpop, -⟩ := hpops
        obtain ⟨-, -, -, e', hring⟩ := hend.store.pop hpop
        have hnone := hloses hremoved
        rw [hring] at hnone
        cases hnone
      · obtain ⟨hqueued, hlast, hsame⟩ := hkeeps hstays
        obtain ⟨popped, hpop⟩ := hend.store.pop_total hlast
        obtain ⟨-, -, -, e', hring⟩ := hend.store.pop hpop
        rw [hring] at hlast
        cases hlast
        exact ⟨popped, hpop, fun _ => ⟨hring, hsame⟩, fun hc => absurd hqueued hc⟩

end MasterRuns

section NodeSteps

variable {node node' : Node}

theorem nodeQuickRx_extends {crcError : Bool} {frame : Packet} (hinit : node.initialised = true)
    (hframe : node.packetAt node.nextRxPacketEntry = frame) (hstays : ¬ node.resetBy frame crcError)
    (h : nodeQuickProcessPrevRx node crcError = .ok node') :
    node.rxPacketManager.Extends node'.rxPacketManager := by
  have hresult := nodeQuickProcessPrevRx_ok hinit h
  rw [hframe] at hresult
  cases hresult with
  | unread _ => exact .refl _
  | reset hreads htype hremove =>
      rcases nodeRemoveFromNetwork_ok hremove with ⟨-, rfl⟩ | ⟨hid, -, -⟩
      · exact .refl _
      · exact absurd ⟨hid, hreads, htype⟩ hstays
  | dropped _ _ _ =>
      rw [nodeRecordSchedule_rxPacketManager]
      exact .refl _
  | kept _ _ _ hfind _ =>
      obtain ⟨-, rfl⟩ := RxPacketManager.findFreeRxPacket_some hfind
      exact .setInUse _ _ _
  | inOrder _ _ hfind _ _ _ =>
      obtain ⟨-, rfl⟩ := RxPacketManager.findFreeRxPacket_some hfind
      exact .setInUse _ _ _

theorem nodeProcessRx_extends (hkeeps : NodeKeeps node) (h : nodeProcessRx node = .ok node') :
    node.rxPacketManager.Extends node'.rxPacketManager := by
  obtain ⟨m, -, ⟨-, rfl⟩ | ⟨e, hvalid, hprev, hresult⟩⟩ := nodeProcessRx_ok h
  · exact .refl _
  · have hstore := hkeeps.store
    have hpending : node.pending = some e := by
      unfold Node.pending
      rw [hvalid, ← hprev]
      rfl
    rw [hpending] at hstore
    cases hresult with
    | freed _ => exact .setInUse _ _ _
    | joined _ _ _ _ => exact .setInUse _ _ _
    | stored _ _ _ _ _ hadd => exact .add hstore hadd

theorem nodePeek_ok {next : Nat} {waiting : Option Nat} {data : RxData}
    (hstore : RxInv node.rxPacketManager next waiting) (h : nodePeekNextRxDataPacket node = .ok (some data)) :
    ∃ e, data = ⟨masterNodeId, (node.packetAt e).getPacketDataSize, (node.packetAt e).data⟩ ∧
      node.rxPacketManager.ring.head? = some (some e) := by
  unfold nodePeekNextRxDataPacket at h
  split at h
  · cases h
  · rename_i hempty
    have hring : node.rxPacketManager.ring = _ :: _ :=
      Ring.contents_cons node.rxPacketManager.rxPacketQueue hstore.start_lt hstore.end_lt hempty
    split at h
    · rename_i e hslot
      obtain ⟨_, -, h⟩ := bind_eq_ok.mp h
      cases h
      rw [hring, hslot]
      exact ⟨e, rfl, rfl⟩
    · cases h

/-- An action other than a pop that does not reset the node adds packets to the ring. -/
theorem nodeRing_step {mode : ChannelMode} {a : NodeAction mode} {last : Option SlotPart}
    (h : NodeHolds mode node last) (halt : Alternates last a.part) (hpop : a ≠ .pop) (hstays : ¬ node.resets a)
    (hs : node.step a = .ok node') : node.rxPacketManager.Extends node'.rxPacketManager := by
  have hsame : node.SameReception node' → node.rxPacketManager.Extends node'.rxPacketManager := by
    intro hsame
    rw [hsame.rxPacketManager]
    exact .refl _
  have hquick : ∀ frame crcError n, ¬ node.resetBy frame crcError →
      nodeQuickProcessPrevRx (node.receive frame) crcError = .ok n →
      node.rxPacketManager.Extends n.rxPacketManager := by
    intro frame crcError n hreset hq
    have hinit : (node.receive frame).initialised = true := h.initialised
    have hquick := nodeQuickRx_extends hinit (RxPacketManager.packet_receive _ _) hreset hq
    exact (RxPacketManager.Extends.receive h.store.next_not_queued frame).trans hquick
  cases a with
  | preProcess frame crcError =>
      obtain ⟨⟨n', f⟩, hpre, hs⟩ := bind_eq_ok.mp hs
      cases hs
      have hinit : (node.receive frame).initialised = true := h.initialised
      obtain ⟨n, hq, hsent, -⟩ := nodePreProcess_ok hinit hpre
      rw [hsent.rxPacketManager]
      exact hquick frame crcError n hstays hq
  | postProcess =>
      obtain ⟨hkeeps, -⟩ := h.keeps_at_post (halt .post rfl)
      obtain ⟨n₁, n₂, h₁, h₂, h₃⟩ := nodePostProcess_ok h.initialised hs
      rw [(nodeProcessTx_same h₃).rxPacketManager]
      rcases nodeCheckIfTimedOut_ok h₁ with ⟨-, hn⟩ | ⟨htime, -⟩
      · rw [hn] at h₂
        exact nodeProcessRx_extends hkeeps h₂
      · exact absurd htime hstays
  | isTxMode =>
      obtain ⟨⟨isTx, n'⟩, htx, hs⟩ := bind_eq_ok.mp hs
      cases hs
      obtain ⟨n, hn, -, rfl⟩ := nodeIsTxMode_ok h.initialised htx
      rcases nodeCheckIfTimedOut_ok hn with ⟨-, rfl⟩ | ⟨htime, -⟩
      · exact .refl _
      · exact absurd htime hstays
  | processRx frame crcError =>
      have hinit : (node.receive frame).initialised = true := h.initialised
      obtain ⟨n, hq, hrx⟩ := nodeNoDelayProcessRx_ok hinit hs
      have hstore : RxInv (node.receive frame).rxPacketManager (node.receive frame).nextRxPacketEntry none := by
        have hbetween := h.between (by rw [h.single rfl]; exact nofun)
        exact hbetween.receive _ _
      rcases nodeQuickRx_takes hinit hstore (RxPacketManager.packet_receive _ _) hq with ⟨hreset, -⟩
        | ⟨-, hkeeps, -⟩
      · exact absurd hreset hstays
      · exact (hquick frame crcError n hstays hq).trans (nodeProcessRx_extends hkeeps hrx)
  | processTx =>
      obtain ⟨⟨n, f⟩, htx, hs⟩ := bind_eq_ok.mp hs
      cases hs
      exact hsame (nodeNoDelayProcessTx_ok h.initialised htx)
  | updateTimeUs usIncr =>
      cases hs
      exact hsame (nodeUpdateTimeUs_same node usIncr)
  | allocate =>
      obtain ⟨⟨r, n⟩, halloc, hs⟩ := bind_eq_ok.mp hs
      cases hs
      exact hsame (nodeAllocateTxPacket_same halloc)
  | write data =>
      cases hs
      exact hsame (nodeWriteAllocatedPacket_same node data)
  | submit numBytes => exact hsame (nodeSubmitAllocatedTxPacket_same hs)
  | peek =>
      obtain ⟨r, -, hs⟩ := bind_eq_ok.mp hs
      cases hs
      exact .refl _
  | pop => exact absurd rfl hpop
  | reset => exact absurd trivial hstays

end NodeSteps

section NodeRuns

variable {cfg : NodeConfig} {r r' : Reception Node} {as : List (NodeAction cfg.mode)}

abbrev nodeReceptions (cfg : NodeConfig) : System (Reception Node) (NodeAction cfg.mode) Fault :=
  (nodeReceiver cfg.mode).system (nodeSystem cfg)

theorem nodeHead_run {e : Nat} (h : NodeHolds cfg.mode r.device r.last)
    (hmeets : (nodeReceptions cfg).RunMeets (nodeReceiver cfg.mode).guard r as) (hquiet : ∀ a ∈ as, a ≠ .pop)
    (hrun : (nodeReceptions cfg).run r as = .ok r') :
    NodeHolds cfg.mode r'.device r'.last ∧
      (r.device.rxPacketManager.ring.head? = some (some e) →
        (nodeReceptions cfg).RunMeets (fun r a => ¬ r.device.resets a) r as →
        (nodeReceptions cfg).RunKeeps (fun r => e ∈ r.device.rxPacketManager.queued) r as r' ∧
          r'.device.rxPacketManager.ring.head? = some (some e) ∧ r'.device.packetAt e = r.device.packetAt e) ∧
      (¬ (nodeReceptions cfg).RunMeets (fun r a => ¬ r.device.resets a) r as →
        ¬ (nodeReceptions cfg).RunKeeps (fun r => e ∈ r.device.rxPacketManager.queued) r as r') := by
  induction as generalizing r with
  | nil =>
      cases hrun
      exact ⟨h, fun hhead _ => ⟨⟨trivial, RxPacketManager.queued_of_head hhead⟩, hhead, rfl⟩, fun hc =>
        absurd trivial hc⟩
  | cons a rest ih =>
      obtain ⟨t, ht, hrest⟩ := bind_eq_ok.mp hrun
      rw [System.runMeets_cons ht] at hmeets
      obtain ⟨hs, hlast, -⟩ := Receiver.step_ok ht
      obtain ⟨hholds, hreset, -⟩ := h.step hmeets.1 hs
      have hheld : NodeHolds cfg.mode t.device t.last := hlast ▸ hholds
      obtain ⟨hend, hkeeps, hloses⟩ := ih hheld hmeets.2 (fun b hb => hquiet b (List.mem_cons_of_mem a hb)) hrest
      rw [System.runMeets_cons ht, System.runKeeps_cons ht]
      refine ⟨hend, ?_, ?_⟩
      · rintro hhead ⟨hstays, hall⟩
        have hextends := nodeRing_step h hmeets.1 (hquiet a List.mem_cons_self) hstays hs
        have hqueued := RxPacketManager.queued_of_head hhead
        obtain ⟨hkept, hlast, hpacket⟩ := hkeeps (hextends.head hhead) hall
        exact ⟨⟨hqueued, hkept⟩, hlast, hpacket.trans (hextends.packets e hqueued)⟩
      · rintro hresets ⟨-, hkept⟩
        by_cases hreset' : r.device.resets a
        · -- the ring is empty after the reset
          have hqueued := hkept.start hrest
          obtain ⟨-, hring, -⟩ := hreset hreset'
          unfold RxPacketManager.queued at hqueued
          rw [hring] at hqueued
          cases hqueued
        · exact hloses (fun hall => hresets ⟨hreset', hall⟩) hkept

/-- The pop after a peek does what it should exactly when the node is not reset in between. -/
theorem nodePop_after_peek {data : RxData} (h : (nodeReceptions cfg).ReachableWhen (nodeReceiver cfg.mode).guard r)
    (hpeek : nodePeekNextRxDataPacket r.device = .ok (some data))
    (hmeets : (nodeReceptions cfg).RunMeets (nodeReceiver cfg.mode).guard r as) (hquiet : ∀ a ∈ as, a ≠ .pop)
    (hrun : (nodeReceptions cfg).run r as = .ok r') :
    ∃ e, data = ⟨masterNodeId, (r.device.packetAt e).getPacketDataSize, (r.device.packetAt e).data⟩ ∧
      (r.device.rxPacketManager.PopsPeeked r'.device.rxPacketManager e
          ((nodeReceptions cfg).RunKeeps (fun r => e ∈ r.device.rxPacketManager.queued) r as r') ↔
        (nodeReceptions cfg).RunMeets (fun r a => ¬ r.device.resets a) r as) := by
  obtain ⟨hholds, -⟩ := nodeReception h
  obtain ⟨e, hdata, hhead⟩ := nodePeek_ok hholds.store hpeek
  obtain ⟨hend, hkeeps, hloses⟩ := nodeHead_run (e := e) hholds hmeets hquiet hrun
  refine ⟨e, hdata, ⟨fun ⟨popped, hpop, _, hnothing⟩ => ?_, fun hstays => ?_⟩⟩
  · by_contra hreset
    obtain ⟨-, -, -, e', hring⟩ := hend.store.pop hpop
    have hqueued := hnothing (hloses hreset)
    unfold RxPacketManager.queued at hqueued
    rw [hring, List.reduceOption_cons_of_some] at hqueued
    exact List.cons_ne_self _ _ hqueued.symm
  · obtain ⟨hqueued, hlast, hpacket⟩ := hkeeps hhead hstays
    obtain ⟨popped, hpop⟩ := hend.store.pop_total hlast
    obtain ⟨-, -, -, e', hring⟩ := hend.store.pop hpop
    rw [hring] at hlast
    cases hlast
    exact ⟨popped, hpop, fun _ => ⟨hring, hpacket⟩, fun hc => absurd hqueued hc⟩

end NodeRuns

/-- Whatever the slots between a peek and the pop after it do, the pop goes through and takes the peeked
packet and no other one exactly when, at a master, no slot removes the sender and, at a node, no action
resets the node. -/
theorem pop_after_peek_iff (masterCfg : MasterConfig) (nodeCfg : NodeConfig) :
    (∀ {r peeked r' : Reception MasterRun} {as : List (MasterAction masterCfg.mode)} {data : RxData}
      {master : Master}, (masterReceptions masterCfg).ReachableWhen (masterReceiver masterCfg.mode).guard r →
      masterPeekNextRxDataPacket r.device.master = .ok (some data, master) →
      (masterReceptions masterCfg).step r .peek = .ok peeked →
      (masterReceptions masterCfg).RunMeets (masterReceiver masterCfg.mode).guard peeked as →
      (∀ a ∈ as, a ≠ .peek ∧ a ≠ .pop) → (masterReceptions masterCfg).run peeked as = .ok r' →
      ∃ e, data = (peeked.device.master.rx.packetAt e).rxData ∧
        (peeked.device.master.rx.rxPacketManager.PopsPeeked r'.device.master.rx.rxPacketManager e
            ((masterReceptions masterCfg).RunKeeps (fun r => e ∈ r.device.master.rx.rxPacketManager.queued)
              peeked as r') ↔
          (masterReceptions masterCfg).RunMeets (fun r a => ¬ r.device.removesNode a data.srcNodeId) peeked as)) ∧
    (∀ {r r' : Reception Node} {as : List (NodeAction nodeCfg.mode)} {data : RxData},
      (nodeReceptions nodeCfg).ReachableWhen (nodeReceiver nodeCfg.mode).guard r →
      nodePeekNextRxDataPacket r.device = .ok (some data) →
      (nodeReceptions nodeCfg).RunMeets (nodeReceiver nodeCfg.mode).guard r as →
      (∀ a ∈ as, a ≠ .pop) → (nodeReceptions nodeCfg).run r as = .ok r' →
      ∃ e, data = ⟨masterNodeId, (r.device.packetAt e).getPacketDataSize, (r.device.packetAt e).data⟩ ∧
        (r.device.rxPacketManager.PopsPeeked r'.device.rxPacketManager e
            ((nodeReceptions nodeCfg).RunKeeps (fun r => e ∈ r.device.rxPacketManager.queued) r as r') ↔
          (nodeReceptions nodeCfg).RunMeets (fun r a => ¬ r.device.resets a) r as)) :=
  ⟨masterPop_after_peek, nodePop_after_peek⟩

def MasterAction.isQuiet {mode : ChannelMode} : MasterAction mode → Bool
  | .peek | .pop => false
  | _ => true

theorem MasterAction.quiet_of_all {mode : ChannelMode} {as : List (MasterAction mode)} (h : as.all isQuiet = true) :
    ∀ a ∈ as, a ≠ .peek ∧ a ≠ .pop := by
  intro a ha
  have hquiet := List.all_eq_true.mp h a ha
  constructor
  · rintro rfl
    cases hquiet
  · rintro rfl
    cases hquiet

def NodeAction.isQuiet {mode : ChannelMode} : NodeAction mode → Bool
  | .pop => false
  | _ => true

theorem NodeAction.quiet_of_all {mode : ChannelMode} {as : List (NodeAction mode)} (h : as.all isQuiet = true) :
    ∀ a ∈ as, a ≠ .pop := by
  rintro a ha rfl
  cases List.all_eq_true.mp h _ ha

/-- Nodes 1 and 2 join, and each sends a packet. -/
def bothSend : List (MasterAction .dual) :=
  slot (joinFrame 7) ++ slot (joinFrame 8) ++ slot (dataFrame 0 3) ++ slot (nodeDataFrame 2 0 nullSequenceNum)

/-- Node 1 is heard once more, and node 2 is removed. -/
def secondLeaves : List (MasterAction .dual) :=
  List.replicate 100 (.updateTimeUs 5000) ++ slot (ackFrame 1 nullSequenceNum) ++
    List.replicate 28 (.updateTimeUs 5000) ++ slot Packet.zero

/-- A node that has a packet of the master to take goes on sending. -/
def nodeGoesOn : List (NodeAction .dual) :=
  [.updateTimeUs 5000, .allocate, .submit 4] ++ nodeSlot (scheduledFrame 0 invalidSequenceNum) ++
    nodeSlot (scheduledFrame 0 0)

/-- Slots, ticks and the removal of another sender lie between the peek and the pop of the master, slots and a call
between those of the node. -/
theorem pop_after_peek_iff_slots :
    (∃ r peeked r' e data master, masterPeekNextRxDataPacket r.device.master = .ok (some data, master) ∧
      (masterReceptions dualConfig).step r .peek = .ok peeked ∧
      (masterReceptions dualConfig).run peeked secondLeaves = .ok r' ∧
      r.device.master.masterNodeTimeToLive 2 ≠ 0 ∧ r'.device.master.masterNodeTimeToLive 2 = 0 ∧
      peeked.device.master.rx.rxPacketManager.PopsPeeked r'.device.master.rx.rxPacketManager e
        ((masterReceptions dualConfig).RunKeeps (fun r => e ∈ r.device.master.rx.rxPacketManager.queued) peeked
          secondLeaves r')) ∧
    (∃ r r' e data, nodePeekNextRxDataPacket r.device = .ok (some data) ∧
      (nodeReceptions dualNodeConfig).run r nodeGoesOn = .ok r' ∧
      r.device.rxPacketManager.PopsPeeked r'.device.rxPacketManager e
        ((nodeReceptions dualNodeConfig).RunKeeps (fun r => e ∈ r.device.rxPacketManager.queued) r
          nodeGoesOn r')) := by
  refine ⟨?_, ?_⟩
  · obtain ⟨r, hr, hcheck⟩ := System.exists_of_checkedRun (S := masterReceptions dualConfig) (s := .start blankRun)
      (p := fun r => System.holdsAfter (masterPeekNextRxDataPacket r.device.master)
          (fun x => x.1.any fun data => data.srcNodeId == 1) &&
        decide (r.device.master.masterNodeTimeToLive 2 ≠ 0) &&
        System.holdsAfter ((masterReceptions dualConfig).step r .peek) fun peeked =>
          ((masterReceptions dualConfig).checkedRun (fun r a => decide (Alternates r.last a.part) &&
            decide (¬ r.device.removesNode a 1)) peeked secondLeaves).any
              fun r' => r'.device.master.masterNodeTimeToLive 2 == 0)
      bothSend (Receiver.guard_of_check (R := masterReceiver dualConfig.mode))
      (.init ⟨blankRun_init, rfl, rfl, rfl⟩) (by decide +kernel)
    simp only [Bool.and_eq_true] at hcheck
    obtain ⟨⟨hpeek, hthere⟩, hstep⟩ := hcheck
    obtain ⟨⟨found, master⟩, hfound, hsome⟩ := System.exists_of_holdsAfter hpeek
    obtain ⟨data, rfl, hsrc⟩ := System.exists_of_any hsome
    obtain ⟨peeked, hpeeked, hrun⟩ := System.exists_of_holdsAfter hstep
    obtain ⟨r', hchecked, hleft⟩ := System.exists_of_any hrun
    obtain ⟨hrun, hmeets⟩ := System.run_of_checkedRun
      (g := fun r a => (masterReceiver dualConfig.mode).guard r a ∧ ¬ r.device.removesNode a 1)
      (fun r a h => ⟨of_decide_eq_true (p := Alternates r.last a.part) (Bool.and_eq_true_iff.mp h).1,
        of_decide_eq_true (Bool.and_eq_true_iff.mp h).2⟩) hchecked
    obtain ⟨hguard, hstays⟩ := System.runMeets_and.mp hmeets
    obtain ⟨e, -, hiff⟩ := (pop_after_peek_iff dualConfig dualNodeConfig).1 hr hfound hpeeked hguard
      (MasterAction.quiet_of_all (by decide)) hrun
    rw [eq_of_beq hsrc] at hiff
    exact ⟨r, peeked, r', e, data, master, hfound, hpeeked, hrun, of_decide_eq_true hthere, eq_of_beq hleft,
      hiff.mpr hstays⟩
  · obtain ⟨r, hr, hcheck⟩ := System.exists_of_checkedRun (S := nodeReceptions dualNodeConfig)
      (s := .start blankNode)
      (p := fun r => System.holdsAfter (nodePeekNextRxDataPacket r.device) Option.isSome &&
        ((nodeReceptions dualNodeConfig).checkedRun (fun r a => decide (Alternates r.last a.part) &&
          decide (¬ r.device.resets a)) r nodeGoesOn).isSome)
      (nodeSlot Packet.zero ++ nodeSlot responseFrame ++ nodeSlot firstMasterFrame)
      (Receiver.guard_of_check (R := nodeReceiver dualNodeConfig.mode)) (.init ⟨blankNode_init, rfl, rfl, rfl⟩)
      (by decide +kernel)
    obtain ⟨hpeek, hgoes⟩ := Bool.and_eq_true_iff.mp hcheck
    obtain ⟨found, hfound, hsome⟩ := System.exists_of_holdsAfter hpeek
    obtain ⟨data, rfl⟩ := Option.isSome_iff_exists.mp hsome
    obtain ⟨r', hchecked⟩ := Option.isSome_iff_exists.mp hgoes
    obtain ⟨hrun, hmeets⟩ := System.run_of_checkedRun
      (g := fun r a => (nodeReceiver dualNodeConfig.mode).guard r a ∧ ¬ r.device.resets a)
      (fun r a h => ⟨of_decide_eq_true (p := Alternates r.last a.part) (Bool.and_eq_true_iff.mp h).1,
        of_decide_eq_true (Bool.and_eq_true_iff.mp h).2⟩) hchecked
    obtain ⟨hguard, hstays⟩ := System.runMeets_and.mp hmeets
    obtain ⟨e, -, hiff⟩ := (pop_after_peek_iff dualConfig dualNodeConfig).2 hr hfound hguard
      (NodeAction.quiet_of_all (by decide)) hrun
    exact ⟨r, r', e, data, hfound, hrun, hiff.mpr hstays⟩

/-- The removal of the sender at a master and a reset of a node leave nothing to pop, and the pop
follows a null pointer. -/
theorem pop_after_peek_faults :
    (∃ r data master, (masterReceptions dualConfig).ReachableWhen (masterReceiver dualConfig.mode).guard r ∧
      masterPeekNextRxDataPacket r.device.master = .ok (some data, master) ∧
      (masterReceptions dualConfig).run r (.peek :: (timeOut ++ slot Packet.zero ++ [.pop])) =
        .error (.nullPointer .popNextDataPacket)) ∧
    (∃ r data, (nodeReceptions dualNodeConfig).ReachableWhen (nodeReceiver dualNodeConfig.mode).guard r ∧
      nodePeekNextRxDataPacket r.device = .ok (some data) ∧
      (nodeReceptions dualNodeConfig).run r [.peek, .reset, .pop] = .error (.nullPointer .popNextDataPacket)) := by
  refine ⟨?_, ?_⟩
  · obtain ⟨r, hr, hcheck⟩ := System.exists_of_checkedRun (S := masterReceptions dualConfig) (s := .start blankRun)
      (p := fun r => System.holdsAfter (masterPeekNextRxDataPacket r.device.master) (fun x => x.1.isSome) &&
        (System.faultOf ((masterReceptions dualConfig).run r (.peek :: (timeOut ++ slot Packet.zero ++ [.pop]))) ==
          some (.nullPointer .popNextDataPacket)))
      (slot (joinFrame 7) ++ slot (dataFrame 0 3)) (Receiver.guard_of_check (R := masterReceiver dualConfig.mode))
      (.init ⟨blankRun_init, rfl, rfl, rfl⟩) (by decide +kernel)
    obtain ⟨hpeek, hfault⟩ := Bool.and_eq_true_iff.mp hcheck
    obtain ⟨⟨found, master⟩, hfound, hsome⟩ := System.exists_of_holdsAfter hpeek
    obtain ⟨data, rfl⟩ := Option.isSome_iff_exists.mp hsome
    exact ⟨r, data, master, hr, hfound, System.eq_error_of_faultOf (beq_iff_eq.mp hfault)⟩
  · obtain ⟨r, hr, hcheck⟩ := System.exists_of_checkedRun (S := nodeReceptions dualNodeConfig)
      (s := .start blankNode)
      (p := fun r => System.holdsAfter (nodePeekNextRxDataPacket r.device) Option.isSome &&
        (System.faultOf ((nodeReceptions dualNodeConfig).run r [.peek, .reset, .pop]) ==
          some (.nullPointer .popNextDataPacket)))
      (nodeSlot Packet.zero ++ nodeSlot responseFrame ++ nodeSlot firstMasterFrame)
      (Receiver.guard_of_check (R := nodeReceiver dualNodeConfig.mode)) (.init ⟨blankNode_init, rfl, rfl, rfl⟩)
      (by decide +kernel)
    obtain ⟨hpeek, hfault⟩ := Bool.and_eq_true_iff.mp hcheck
    obtain ⟨found, hfound, hsome⟩ := System.exists_of_holdsAfter hpeek
    obtain ⟨data, rfl⟩ := Option.isSome_iff_exists.mp hsome
    exact ⟨r, data, hr, hfound, System.eq_error_of_faultOf (beq_iff_eq.mp hfault)⟩

end Microbus
