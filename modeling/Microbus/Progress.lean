import Microbus.Delivery

/-! What happens on a link that loses nothing any more. -/
namespace Microbus

open Transition

/-- Positions in the stream: of the sender's window, of the receiver, and the acknowledgements
that a sent window still waits for. -/
structure Window where
  start : Nat
  next : Nat
  stop : Nat
  delivered : Nat
  pause : Nat

namespace Window

/-- The sender's turn; `atEnd` says that the code finds the window sent. -/
def transmit (w : Window) (atEnd : Prop) [Decidable atEnd] : Window × Option Nat :=
  if w.pause > 0 ∨ w.start = w.stop then (w, none)
  else if atEnd then ({ w with pause := 2 }, none)
  else ({ w with next := w.next + 1 }, some w.next)

def receive (w : Window) (sent : Option Nat) : Window :=
  if sent = some w.delivered then { w with delivered := w.delivered + 1 } else w

/-- The acknowledgement says nothing before the first packet is delivered. -/
def acknowledge (w : Window) : Window :=
  if w.delivered = 0 then w
  else if w.start < w.delivered then
    { w with start := w.delivered, next := max w.next w.delivered, pause := 0 }
  else if w.pause > 0 then
    { w with pause := w.pause - 1, next := if w.pause - 1 = 0 then w.start else w.next }
  else w

def round (w : Window) (atEnd : Prop) [Decidable atEnd] : Window :=
  ((w.transmit atEnd).1.receive (w.transmit atEnd).2).acknowledge

structure Ok (w : Window) : Prop where
  start_le_next : w.start ≤ w.next
  next_le_stop : w.next ≤ w.stop
  start_le_delivered : w.start ≤ w.delivered
  delivered_le_stop : w.delivered ≤ w.stop
  paused : w.pause > 0 → w.start < w.next

/-- The sender sends on until everything is sent, and does not stop at the first packet. -/
structure EndOk (w : Window) (atEnd : Prop) : Prop where
  sent : w.next = w.stop → atEnd
  moved : w.start < w.stop → atEnd → w.start < w.next

variable {w : Window} {atEnd : Prop} [Decidable atEnd]

/-- How far the window is from being sent again. -/
def phase (w : Window) : Nat :=
  if w.pause > 0 then w.pause
  else if w.next = w.start then 0
  else 3 + (w.stop - w.next)

/-- Nothing was delivered and the sender is past the first packet. -/
def Stuck (w : Window) : Prop := w.delivered = 0 ∧ w.next ≠ w.start

theorem transmit_ok (h : w.Ok) (he : w.EndOk atEnd) :
    (w.transmit atEnd).1.Ok ∧ ∀ n, (w.transmit atEnd).2 = some n → n < w.stop := by
  obtain ⟨h1, h2, h3, h4, h5⟩ := h
  obtain ⟨e1, e2⟩ := he
  unfold transmit
  by_cases hidle : w.pause > 0 ∨ w.start = w.stop
  · rw [if_pos hidle]
    exact ⟨⟨h1, h2, h3, h4, h5⟩, fun _ hn => by cases hn⟩
  · rw [if_neg hidle]
    have hlt : w.start < w.stop := by omega
    by_cases hend : atEnd
    · rw [if_pos hend]
      exact ⟨⟨h1, h2, h3, h4, fun _ => e2 hlt hend⟩, fun _ hn => by cases hn⟩
    · rw [if_neg hend]
      have hnext : w.next < w.stop := lt_of_le_of_ne h2 fun hc => hend (e1 hc)
      refine ⟨⟨Nat.le_succ_of_le h1, hnext, h3, h4, fun _ => Nat.lt_succ_of_le h1⟩, ?_⟩
      intro n hn
      cases hn
      exact hnext

theorem receive_ok (h : w.Ok) {sent : Option Nat} (hs : ∀ n, sent = some n → n < w.stop) : (w.receive sent).Ok := by
  obtain ⟨h1, h2, h3, h4, h5⟩ := h
  unfold receive
  split
  · rename_i hsent
    exact ⟨h1, h2, Nat.le_succ_of_le h3, hs _ hsent, h5⟩
  · exact ⟨h1, h2, h3, h4, h5⟩

theorem acknowledge_ok (h : w.Ok) : w.acknowledge.Ok := by
  obtain ⟨h1, h2, h3, h4, h5⟩ := h
  unfold acknowledge
  split
  · exact ⟨h1, h2, h3, h4, h5⟩
  · split
    · exact ⟨Nat.le_max_right _ _, Nat.max_le.mpr ⟨h2, h4⟩, Nat.le_refl _, h4, fun hc =>
        absurd hc (Nat.lt_irrefl 0)⟩
    · split
      · rename_i hp
        have h6 := h5 hp
        by_cases hz : w.pause - 1 = 0
        · simp only [hz, if_true]
          exact ⟨Nat.le_refl _, h1.trans h2, h3, h4, fun hc => absurd hc (Nat.lt_irrefl 0)⟩
        · simp only [hz, if_false]
          exact ⟨h1, h2, h3, h4, fun _ => h6⟩
      · exact ⟨h1, h2, h3, h4, h5⟩

@[simp] theorem transmit_stop (w : Window) : (w.transmit atEnd).1.stop = w.stop := by
  unfold transmit
  split
  · rfl
  · split <;> rfl

theorem round_ok (h : w.Ok) (he : w.EndOk atEnd) : (w.round atEnd).Ok := by
  obtain ⟨h1, h2⟩ := transmit_ok h he
  exact acknowledge_ok (receive_ok h1 (by rw [transmit_stop]; exact h2))

/-! The four things that an acknowledgement can do. -/

theorem acknowledge_zero (hd : w.delivered = 0) : w.acknowledge = w := if_pos hd

theorem acknowledge_forward (hd : w.start < w.delivered) :
    w.acknowledge = { w with start := w.delivered, next := max w.next w.delivered, pause := 0 } := by
  unfold acknowledge
  rw [if_neg (by omega), if_pos hd]

theorem acknowledge_paused (hz : w.delivered ≠ 0) (hd : ¬ w.start < w.delivered) (hp : w.pause > 0) :
    w.acknowledge = { w with pause := w.pause - 1, next := if w.pause - 1 = 0 then w.start else w.next } := by
  unfold acknowledge
  rw [if_neg hz, if_neg hd, if_pos hp]

theorem acknowledge_idle (hz : w.delivered ≠ 0) (hd : ¬ w.start < w.delivered) (hp : ¬ w.pause > 0) :
    w.acknowledge = w := by
  unfold acknowledge
  rw [if_neg hz, if_neg hd, if_neg hp]

/-! The three things that a round can be. -/

theorem round_idle (hidle : w.pause > 0 ∨ w.start = w.stop) : w.round atEnd = w.acknowledge := by
  have ht : w.transmit atEnd = (w, none) := if_pos hidle
  unfold round
  rw [ht]
  rfl

theorem round_end (hidle : ¬ (w.pause > 0 ∨ w.start = w.stop)) (hend : atEnd) :
    w.round atEnd = ({ w with pause := 2 } : Window).acknowledge := by
  have ht : w.transmit atEnd = ({ w with pause := 2 }, none) := by
    unfold transmit
    rw [if_neg hidle, if_pos hend]
  unfold round
  rw [ht]
  rfl

theorem round_send (hidle : ¬ (w.pause > 0 ∨ w.start = w.stop)) (hend : ¬ atEnd) :
    w.round atEnd =
      ({ w with
        next := w.next + 1
        delivered := if w.next = w.delivered then w.delivered + 1 else w.delivered } : Window).acknowledge := by
  have ht : w.transmit atEnd = ({ w with next := w.next + 1 }, some w.next) := by
    unfold transmit
    rw [if_neg hidle, if_neg hend]
  unfold round receive
  rw [ht]
  simp only [Option.some.injEq]
  split <;> rfl

/-- A round never moves a stuck window. -/
theorem round_stuck (h : w.Ok) (hs : w.Stuck) :
    (w.round atEnd).Stuck ∧ (w.round atEnd).start = w.start ∧ (w.round atEnd).stop = w.stop := by
  obtain ⟨hd, hn⟩ := hs
  have h1 := h.start_le_next
  have h3 := h.start_le_delivered
  by_cases hidle : w.pause > 0 ∨ w.start = w.stop
  · rw [round_idle hidle, acknowledge_zero hd]
    exact ⟨⟨hd, hn⟩, rfl, rfl⟩
  · by_cases hend : atEnd
    · have ha : ({ w with pause := 2 } : Window).acknowledge = { w with pause := 2 } := acknowledge_zero hd
      rw [round_end hidle hend, ha]
      exact ⟨⟨hd, hn⟩, rfl, rfl⟩
    · have hne : w.next ≠ w.delivered := by omega
      have ha : ({ w with next := w.next + 1 } : Window).acknowledge = { w with next := w.next + 1 } :=
        acknowledge_zero hd
      rw [round_send hidle hend, if_neg hne, ha]
      refine ⟨⟨hd, ?_⟩, rfl, rfl⟩
      simp only
      omega

/-- Any other round moves the window on, or brings it closer to being sent again. -/
theorem round_progress (h : w.Ok) (he : w.EndOk atEnd) (hs : ¬ w.Stuck) (hlt : w.start < w.stop) :
    ¬ (w.round atEnd).Stuck ∧ (w.round atEnd).stop = w.stop ∧
      (w.start < (w.round atEnd).start ∨ (w.round atEnd).start = w.start ∧ (w.round atEnd).phase < w.phase) := by
  obtain ⟨h1, h2, h3, h4, h5⟩ := h
  obtain ⟨e1, e2⟩ := he
  -- once something is delivered, an acknowledgement of it moves the window
  have hforward : ∀ v : Window, v.start = w.start → v.stop = w.stop → v.start < v.delivered →
      ¬ v.acknowledge.Stuck ∧ v.acknowledge.stop = w.stop ∧ (w.start < v.acknowledge.start ∨
        v.acknowledge.start = w.start ∧ v.acknowledge.phase < w.phase) := by
    intro v hv hv' hd
    rw [acknowledge_forward hd]
    refine ⟨fun hc => ?_, hv', Or.inl (by rw [← hv]; exact hd)⟩
    have := hc.1
    simp only at this
    omega
  by_cases hp : w.pause > 0
  · have hz : w.delivered ≠ 0 := fun hc => hs ⟨hc, (h5 hp).ne'⟩
    rw [round_idle (Or.inl hp)]
    by_cases hd : w.start < w.delivered
    · exact hforward w rfl rfl hd
    · rw [acknowledge_paused hz hd hp]
      refine ⟨fun hc => hz hc.1, rfl, Or.inr ⟨rfl, ?_⟩⟩
      unfold phase
      rw [if_pos hp]
      by_cases hz' : w.pause - 1 = 0
      · simp only [hz', if_true, Nat.lt_irrefl, gt_iff_lt, if_false]
        exact hp
      · have hpos : w.pause - 1 > 0 := Nat.pos_of_ne_zero hz'
        simp only [hpos, if_true]
        omega
  · have hidle : ¬ (w.pause > 0 ∨ w.start = w.stop) := by omega
    have hphase : w.next ≠ w.start → w.phase = 3 + (w.stop - w.next) := by
      intro hn
      unfold phase
      rw [if_neg hp, if_neg hn]
    by_cases hend : atEnd
    · have hmoved := e2 hlt hend
      have hz : w.delivered ≠ 0 := fun hc => hs ⟨hc, hmoved.ne'⟩
      rw [round_end hidle hend]
      by_cases hd : w.start < w.delivered
      · exact hforward { w with pause := 2 } rfl rfl hd
      · have ha : ({ w with pause := 2 } : Window).acknowledge = { w with pause := 1 } :=
          acknowledge_paused hz hd Nat.two_pos
        rw [ha]
        refine ⟨fun hc => hz hc.1, rfl, Or.inr ⟨rfl, ?_⟩⟩
        rw [hphase hmoved.ne']
        unfold phase
        rw [if_pos Nat.one_pos]
        simp only
        omega
    · have hnext : w.next < w.stop := lt_of_le_of_ne h2 fun hc => hend (e1 hc)
      rw [round_send hidle hend]
      by_cases hacc : w.next = w.delivered
      · rw [if_pos hacc]
        exact hforward { w with next := w.next + 1, delivered := w.delivered + 1 } rfl rfl (Nat.lt_succ_of_le h3)
      · rw [if_neg hacc]
        by_cases hd : w.start < w.delivered
        · exact hforward { w with next := w.next + 1 } rfl rfl hd
        · -- the window was sent before and its first packet is the one that is missing
          have hn : w.next ≠ w.start := by omega
          have hz : w.delivered ≠ 0 := fun hc => hs ⟨hc, hn⟩
          have ha : ({ w with next := w.next + 1 } : Window).acknowledge = { w with next := w.next + 1 } :=
            acknowledge_idle hz hd hp
          rw [ha]
          refine ⟨fun hc => hz hc.1, rfl, Or.inr ⟨rfl, ?_⟩⟩
          rw [hphase hn]
          unfold phase
          rw [if_neg hp, if_neg (by simp only; omega)]
          simp only
          omega

end Window

variable {s : Link} {g : Ledger} {src : TNodeIndex}

/-- The node asks for its next packet once, the master takes what it gets, and the node hears
the master's acknowledgement. -/
def roundActions : List LinkAction :=
  [.transmit 1, .receive masterNodeId, .sendAck masterNodeId, .receiveAck masterNodeId]

def Link.rounds (src : TNodeIndex) : Nat → Link → Except Fault Link
  | 0, s => .ok s
  | n + 1, s => do Link.rounds src n (← (uplinkSystem src 0).run s roundActions)

def Link.discard (s : Link) : Link := { s with data := fun _ => [], acks := fun _ => [] }

/-- After finitely many rounds the window is empty and every packet is accepted. -/
def Link.Drains (src : TNodeIndex) (s : Link) : Prop :=
  ∃ n s', Link.rounds src n s.discard = .ok s' ∧
    s'.sender.txSeqNumStart masterNodeId = s'.sender.txSeqNumEnd masterNodeId ∧
    s'.accepted masterNodeId = s.submitted masterNodeId

/-- The counters of the node and its receiver. -/
def windowOf (g : Ledger) (s : Link) : Window where
  start := g.start masterNodeId
  next := g.next masterNodeId
  stop := g.stop masterNodeId
  delivered := (s.accepted masterNodeId).length
  pause := s.sender.txSeqNumPauseCount masterNodeId

structure Quiet (s : Link) : Prop where
  data : s.data masterNodeId = []
  acks : s.acks masterNodeId = []

abbrev UplinkInv (src : TNodeIndex) (s : Link) (g : Ledger) : Prop :=
  LinkInv { isMaster := false, srcNodeId := src } s g

namespace UplinkInv

instance (m : TxManager) (d : TNodeIndex) : Decidable (m.AtWindowEnd d) := by
  unfold TxManager.AtWindowEnd; infer_instance

theorem endOk (h : UplinkInv src s g) : (windowOf g s).EndOk (s.sender.AtWindowEnd masterNodeId) := by
  have hfull := h.sender.full masterNodeId
  have hstore := h.sender.store
  constructor
  · intro hn
    left
    rw [hstore.next_eq, hstore.stop_eq]
    exact congrArg seq hn
  · intro hlt hend
    refine lt_of_le_of_ne (hstore.start_le_next _) ?_
    intro hn
    unfold TxManager.AtWindowEnd at hend
    rw [hstore.next_eq, ← show g.start masterNodeId = g.next masterNodeId from hn, hstore.start_eq, hstore.stop_eq,
      seq_start_eq_end (hstore.start_le_stop _) hfull.le] at hend
    rcases hend with hend | hend
    · have hlt' : g.start masterNodeId < g.stop masterNodeId := hlt
      omega
    · have hz := congrArg UInt8.toNat hend
      have hsize : slidingWindowSize.toNat = 4 := rfl
      have hlt' := (seq (g.start masterNodeId)).toNat_lt
      rw [UInt8.toNat_add, hsize] at hz
      omega

theorem idle_iff (h : UplinkInv src s g) :
    s.sender.Idle masterNodeId ↔ (windowOf g s).pause > 0 ∨ (windowOf g s).start = (windowOf g s).stop := by
  have hfull := h.sender.full masterNodeId
  have hstore := h.sender.store
  unfold TxManager.Idle windowOf
  rw [hstore.start_eq, hstore.stop_eq, seq_start_eq_end (hstore.start_le_stop _) hfull.le]
  simp only
  omega

/-- The receiver answers with the number of the last packet it accepted. -/
theorem rxSeqNum_eq (h : UplinkInv src s g) :
    (s.receiver masterNodeId).rxSeqNum src = ackOf (windowOf g s).delivered := by
  obtain ⟨c, hc⟩ := h.carries masterNodeId
  have hrx := hc.rxSeqNum
  rw [hc.delivered] at hrx
  exact hrx

theorem transmit (h : UplinkInv src s g) (hq : Quiet s) :
    ∃ s' g', s.transmit { isMaster := false, srcNodeId := src } 1 = .ok s' ∧ UplinkInv src s' g' ∧
      s'.acks = s.acks ∧ s'.submitted = s.submitted ∧
      windowOf g' s' = ((windowOf g s).transmit (s.sender.AtWindowEnd masterNodeId)).1 ∧
      (((windowOf g s).transmit (s.sender.AtWindowEnd masterNodeId)).2 = none ∧ s'.data masterNodeId = [] ∨
        ∃ n x, ((windowOf g s).transmit (s.sender.AtWindowEnd masterNodeId)).2 = some n ∧
          g'.start masterNodeId ≤ n ∧ n < g'.stop masterNodeId ∧ s'.data masterNodeId = [(seq n, x)]) := by
  have hidle := h.idle_iff
  unfold Window.transmit
  rcases h.sender.nodeGetNext_cases (h.node rfl).2 with ⟨hi, hget⟩ | ⟨hi, he, hget⟩
    | ⟨hi, he, i, m, hget, hpause⟩
  · have hget' : Link.getNextTxDataPacket { isMaster := false, srcNodeId := src } s.sender 1 =
      .ok (none, s.sender) := hget
    rw [if_pos (hidle.mp hi)]
    rcases LinkInv.transmit h hget' with ⟨-, ht, hinv⟩ | ⟨_, _, hc, _⟩
    · exact ⟨s, g, ht, hinv, rfl, rfl, rfl, Or.inl ⟨rfl, hq.data⟩⟩
    · exact absurd rfl hc
  · have hget' : Link.getNextTxDataPacket { isMaster := false, srcNodeId := src } s.sender 1 =
        .ok (none, s.sender.pause masterNodeId) := hget
    rw [if_neg fun hc => hi (hidle.mpr hc), if_pos he]
    rcases LinkInv.transmit h hget' with ⟨-, ht, hinv⟩ | ⟨_, _, hc, _⟩
    · refine ⟨_, g, ht, hinv, rfl, rfl, ?_, Or.inl ⟨rfl, hq.data⟩⟩
      simp only [windowOf, TxManager.pause, Function.update_self]
    · exact absurd rfl hc
  · have hget' : Link.getNextTxDataPacket { isMaster := false, srcNodeId := src } s.sender 1 = .ok (some i, m) := hget
    rw [if_neg fun hc => hi (hidle.mpr hc), if_neg he]
    rcases LinkInv.transmit h hget' with ⟨hc, -, -⟩ | ⟨d, x, -, hlt, ht, hinv⟩
    · exact absurd hc (Option.some_ne_none i)
    · obtain ⟨c, hc⟩ := h.carries d
      have hd : d = masterNodeId := by
        refine (hc.used ?_).2 rfl
        intro hnil
        have hstop := hc.stop
        rw [hnil, List.length_nil] at hstop
        omega
      subst hd
      refine ⟨_, _, ht, hinv, rfl, rfl, ?_, Or.inr ⟨_, x, rfl, h.sender.store.start_le_next _, hlt, ?_⟩⟩
      · simp only [windowOf, Ledger.advance, Function.update_self, hpause]
      · simp only [Function.update_self, hq.data, List.nil_append]
        rfl

theorem receive (h : UplinkInv src s g) {sent : Option Nat}
    (hdata : sent = none ∧ s.data masterNodeId = [] ∨
      ∃ n x, sent = some n ∧ g.start masterNodeId ≤ n ∧ n < g.stop masterNodeId ∧
        s.data masterNodeId = [(seq n, x)]) :
    ∃ s', s.receive { isMaster := false, srcNodeId := src } masterNodeId = .ok s' ∧ UplinkInv src s' g ∧
      s'.data masterNodeId = [] ∧ s'.acks = s.acks ∧ s'.submitted = s.submitted ∧
      windowOf g s' = (windowOf g s).receive sent := by
  unfold Window.receive
  rcases hdata with ⟨rfl, hdata⟩ | ⟨n, x, rfl, hs, he, hdata⟩
  · refine ⟨s, ?_, h, hdata, rfl, rfl, by rw [if_neg (by exact (Option.some_ne_none _).symm)]⟩
    unfold Link.receive
    rw [hdata]
  · obtain ⟨valid, m, hvalid, hr, hinv⟩ := LinkInv.receive h hdata
    refine ⟨_, hr, hinv, by simp only [Function.update_self], rfl, rfl, ?_⟩
    obtain ⟨c, hc⟩ := h.carries masterNodeId
    have hsd := hc.inv.start_le
    have hds := hc.inv.delivered_le
    rw [hc.start, hc.delivered] at hsd
    rw [hc.delivered, hc.stop] at hds
    have hfull := h.sender.full masterNodeId
    have hiff : valid = true ↔ n = (s.accepted masterNodeId).length := by
      rw [hvalid, seq_eq_iff]
      exact ⟨fun hm => Cyclic.eq_of_mod_eq hm (by omega) (by omega), fun hm => by rw [hm]⟩
    by_cases hn : n = (s.accepted masterNodeId).length
    · have hsome : some n = some (windowOf g s).delivered := congrArg some hn
      rw [if_pos hsome]
      simp only [windowOf, hiff.mpr hn, if_true, Function.update_self, List.length_append, List.length_cons,
        List.length_nil]
    · have hv : valid = false := by rw [← Bool.not_eq_true]; exact fun hc => hn (hiff.mp hc)
      have hsome : some n ≠ some (windowOf g s).delivered := fun hc => hn (Option.some.inj hc)
      rw [if_neg hsome]
      simp only [windowOf, hv, Bool.false_eq_true, if_false]

theorem acknowledge (h : UplinkInv src s g) (hok : (windowOf g s).Ok)
    (hacks : s.acks masterNodeId = [ackOf (windowOf g s).delivered]) :
    ∃ s' g', s.receiveAck { isMaster := false, srcNodeId := src } masterNodeId = .ok s' ∧ UplinkInv src s' g' ∧
      s'.data = s.data ∧ s'.acks masterNodeId = [] ∧ s'.submitted = s.submitted ∧
      windowOf g' s' = (windowOf g s).acknowledge := by
  obtain ⟨m, g', hres, hr, hinv⟩ := LinkInv.receiveAck h hacks
  refine ⟨_, g', hr, hinv, rfl, by simp only [Function.update_self], rfl, ?_⟩
  have hfull := h.sender.full masterNodeId
  have hsd := hok.start_le_delivered
  have hds := hok.delivered_le_stop
  have hstart : (windowOf g s).start = g.start masterNodeId := rfl
  have hstop : (windowOf g s).stop = g.stop masterNodeId := rfl
  have hack : (windowOf g s).delivered ≠ 0 → ackOf (windowOf g s).delivered = seq ((windowOf g s).delivered - 1) :=
    fun hz => if_neg hz
  cases hres with
  | null ha =>
      have hz : (windowOf g s).delivered = 0 := by
        by_contra hz
        rw [hack hz] at ha
        exact seq_ne_null _ ha
      rw [Window.acknowledge_zero hz]
      rfl
  | missed ha hno =>
      have hz : (windowOf g s).delivered ≠ 0 := fun hz => ha (by rw [hz]; rfl)
      have hd : ¬ (windowOf g s).start < (windowOf g s).delivered := by
        intro hd
        exact hno hfull _ (by omega) (by omega) (hack hz)
      by_cases hp : (windowOf g s).pause > 0
      · rw [Window.acknowledge_paused hz hd hp]
        have hp' : s.sender.txSeqNumPauseCount masterNodeId > 0 := hp
        by_cases h1 : s.sender.txSeqNumPauseCount masterNodeId = 1
        · simp only [windowOf, TxManager.missAck, Ledger.missAck, h1, if_true, Ledger.rewind, gt_iff_lt, Nat.one_pos,
            Function.update_self, Nat.sub_self]
        · have h1' : ¬ s.sender.txSeqNumPauseCount masterNodeId - 1 = 0 := by omega
          simp only [windowOf, TxManager.missAck, Ledger.missAck, h1, h1', hp', if_true, if_false,
            Function.update_self]
      · rw [Window.acknowledge_idle hz hd hp]
        have hp' : ¬ s.sender.txSeqNumPauseCount masterNodeId > 0 := hp
        have h1 : ¬ s.sender.txSeqNumPauseCount masterNodeId = 1 := by omega
        simp only [windowOf, TxManager.missAck, Ledger.missAck, h1, hp', if_false]
  | @valid k store hs he _ hk hrel =>
      have hz : (windowOf g s).delivered ≠ 0 := fun hz => seq_ne_null k (by rw [← hk, hz]; rfl)
      rw [hack hz] at hk
      have hk' := Cyclic.eq_of_mod_eq (seq_eq_iff.mp hk) (by omega) (by omega)
      have hd : (windowOf g s).delivered = k + 1 := by omega
      rw [Window.acknowledge_forward (by omega), hd]
      have hd' : (s.accepted masterNodeId).length = k + 1 := hd
      simp only [windowOf, TxManager.acknowledge, Ledger.acknowledge, Function.update_self, hd']

theorem round (h : UplinkInv src s g) (hq : Quiet s) (hok : (windowOf g s).Ok) :
    ∃ s' g', (uplinkSystem src 0).run s roundActions = .ok s' ∧ UplinkInv src s' g' ∧ Quiet s' ∧
      s'.submitted = s.submitted ∧ windowOf g' s' = (windowOf g s).round (s.sender.AtWindowEnd masterNodeId) := by
  obtain ⟨hok₁, hsent⟩ := Window.transmit_ok hok h.endOk
  obtain ⟨s₁, g₁, ht, h₁, hacks₁, hsub₁, hw₁, hdata₁⟩ := h.transmit hq
  obtain ⟨s₂, hr, h₂, hdata₂, hacks₂, hsub₂, hw₂⟩ := UplinkInv.receive h₁ hdata₁
  have h₃ := LinkInv.sendAck h₂ masterNodeId
  have hok₂ : (windowOf g₁ s₂).Ok := by
    rw [hw₂, hw₁]
    exact Window.receive_ok hok₁ (by rw [Window.transmit_stop]; exact hsent)
  have hacks₃ :
      Function.update s₂.acks masterNodeId (s₂.acks masterNodeId ++ [(s₂.receiver masterNodeId).rxSeqNum src])
        masterNodeId = [ackOf (windowOf g₁ s₂).delivered] := by
    rw [Function.update_self, hacks₂, hacks₁, hq.acks, rxSeqNum_eq h₂, List.nil_append]
  obtain ⟨s', g', ha, hinv, hdata', hacks', hsub', hw'⟩ := UplinkInv.acknowledge h₃ hok₂ hacks₃
  refine ⟨s', g', ?_, hinv, ⟨by rw [hdata']; exact hdata₂, hacks'⟩, hsub'.trans (hsub₂.trans hsub₁), ?_⟩
  · unfold roundActions
    simp only [System.run, uplinkSystem, Link.step, ht, hr, ha, bind, Except.bind]
  · -- sending the acknowledgement moves no counter
    change windowOf g' s' = (windowOf g₁ s₂).acknowledge at hw'
    rw [hw', hw₂, hw₁]
    rfl

theorem rounds_drain (N : Nat) :
    ∀ (P : Nat) (s : Link) (g : Ledger), UplinkInv src s g → Quiet s → (windowOf g s).Ok →
    ¬ (windowOf g s).Stuck → (windowOf g s).stop - (windowOf g s).start = N → (windowOf g s).phase = P →
    ∃ n s', Link.rounds src n s = .ok s' ∧
      s'.sender.txSeqNumStart masterNodeId = s'.sender.txSeqNumEnd masterNodeId ∧
      s'.accepted masterNodeId = s.submitted masterNodeId := by
  induction N using Nat.strong_induction_on with
  | _ N ihN =>
    intro P
    induction P using Nat.strong_induction_on with
    | _ P ihP =>
      intro s g h hq hok hs hN hP
      by_cases hlt : (windowOf g s).start < (windowOf g s).stop
      · obtain ⟨s', g', hrun, h', hq', hsub, hw⟩ := h.round hq hok
        obtain ⟨hs', hstop, hmove⟩ := Window.round_progress hok h.endOk hs hlt
        have hok' := Window.round_ok hok h.endOk
        rw [← hw] at hs' hstop hmove hok'
        have hrest : ∃ n t, Link.rounds src n s' = .ok t ∧
            t.sender.txSeqNumStart masterNodeId = t.sender.txSeqNumEnd masterNodeId ∧
            t.accepted masterNodeId = s'.submitted masterNodeId := by
          rcases hmove with hmove | ⟨hstart, hphase⟩
          · exact ihN _ (by omega) _ s' g' h' hq' hok' hs' rfl rfl
          · exact ihP _ (by omega) s' g' h' hq' hok' hs' (by omega) rfl
        obtain ⟨n, t, ht, hempty, hacc⟩ := hrest
        refine ⟨n + 1, t, ?_, hempty, by rw [← hsub]; exact hacc⟩
        unfold Link.rounds
        rw [hrun]
        exact ht
      · -- an empty window: the receiver has everything
        have hse : (windowOf g s).start = (windowOf g s).stop := by
          have := hok.start_le_next
          have := hok.next_le_stop
          omega
        refine ⟨0, s, rfl, ?_, ?_⟩
        · rw [h.sender.store.start_eq, h.sender.store.stop_eq]
          exact congrArg seq hse
        · obtain ⟨c, hc⟩ := h.carries masterNodeId
          have hdelivered := hok.start_le_delivered
          have hlen : (s.submitted masterNodeId).length ≤ (s.accepted masterNodeId).length := by
            rw [← hc.submitted, hc.stop, show g.stop masterNodeId = g.start masterNodeId from hse.symm]
            exact hdelivered
          exact (h.accepted_prefix masterNodeId).eq_of_length_le hlen

theorem rounds_stuck (n : Nat) : ∀ {s s' : Link} {g : Ledger}, UplinkInv src s g → Quiet s → (windowOf g s).Ok →
    (windowOf g s).Stuck → Link.rounds src n s = .ok s' →
    s'.sender.txSeqNumStart masterNodeId ≠ s'.sender.txSeqNumEnd masterNodeId := by
  induction n with
  | zero =>
      intro s s' g h hq hok hs hr
      cases hr
      have hlt : g.start masterNodeId < g.stop masterNodeId := by
        have h1 := hok.start_le_next
        have h2 := hok.next_le_stop
        exact (lt_of_le_of_ne h1 hs.2.symm).trans_le h2
      have hfull := h.sender.full masterNodeId
      rw [h.sender.store.start_eq, h.sender.store.stop_eq, Ne, seq_start_eq_end hlt.le hfull.le]
      omega
  | succ n ih =>
      intro s s' g h hq hok hs hr
      obtain ⟨t, g', hrun, h', hq', -, hw⟩ := h.round hq hok
      unfold Link.rounds at hr
      rw [hrun] at hr
      have hs' : ((windowOf g s).round (s.sender.AtWindowEnd masterNodeId)).Stuck := (Window.round_stuck hok hs).1
      have hok' := Window.round_ok hok h.endOk
      rw [← hw] at hs' hok'
      exact ih h' hq' hok' hs' hr

/-- A paused window was sent beyond its first packet. -/
def PausedMoved (s : Link) : Prop :=
  s.sender.txSeqNumPauseCount masterNodeId > 0 →
    s.sender.txSeqNumNext masterNodeId ≠ s.sender.txSeqNumStart masterNodeId

namespace PausedMoved

variable {s' : Link}

/-- A node that finds its window sent has moved on from its start. -/
theorem getNext (h : UplinkInv src s g) (hp : PausedMoved s) {burstSize : Nat} {r : Option Nat}
    (hs : Link.getNextTxDataPacket { isMaster := false, srcNodeId := src } s.sender burstSize = .ok (r, s'.sender)) :
    PausedMoved s' := by
  unfold PausedMoved
  rcases h.sender.nodeGetNext_cases (h.node rfl).2 with
    ⟨-, hget⟩ | ⟨hi, he, hget⟩ | ⟨hi, -, i, m, hget, hpause⟩
  · rw [← (Prod.mk.inj (Except.ok.inj (hget.symm.trans hs))).2]
    exact hp
  · rw [← (Prod.mk.inj (Except.ok.inj (hget.symm.trans hs))).2]
    intro _
    change s.sender.txSeqNumNext masterNodeId ≠ s.sender.txSeqNumStart masterNodeId
    obtain ⟨-, hlt, -⟩ := h.sender.store.counters.of_not_idle hi
    have hmoved := h.endOk.moved hlt he
    have hfull := h.sender.full masterNodeId
    have hle := h.sender.store.next_le_stop masterNodeId
    rw [h.sender.store.next_eq, h.sender.store.start_eq, Ne, seq_eq_iff]
    intro hc
    have hmoved' : g.start masterNodeId < g.next masterNodeId := hmoved
    have := Cyclic.eq_of_mod_eq hc (by omega) (by omega)
    omega
  · rw [← (Prod.mk.inj (Except.ok.inj (hget.symm.trans hs))).2, hpause]
    exact fun hc => absurd (Or.inl hc) hi

/-- The pause runs out, or the window stays where it was. -/
theorem missAck (hp : PausedMoved s) {d : TNodeIndex} (hs : s'.sender = s.sender.missAck d) : PausedMoved s' := by
  unfold PausedMoved at *
  rw [hs]
  unfold TxManager.missAck
  by_cases hd : d = masterNodeId
  · subst hd
    by_cases hpd : s.sender.txSeqNumPauseCount masterNodeId > 0
    · have hne := hp hpd
      simp only [hpd, if_true, Function.update_self]
      intro hlt
      rw [if_neg hlt.ne']
      exact hne
    · simpa only [hpd, if_false] using hp
  · have hd' : masterNodeId ≠ d := fun hc => hd hc.symm
    by_cases hpd : s.sender.txSeqNumPauseCount d > 0
    · simp only [hpd, if_true, Function.update_of_ne hd']
      split
      · rw [Function.update_of_ne hd']
        exact hp
      · exact hp
    · simpa only [hpd, if_false] using hp

/-- An acknowledgement ends the pause. -/
theorem acknowledge (hp : PausedMoved s) {d : TNodeIndex} {r : Nat} {store : PacketStore}
    (hs : s'.sender = s.sender.acknowledge false g d r store) : PausedMoved s' := by
  unfold PausedMoved at *
  rw [hs]
  unfold TxManager.acknowledge
  by_cases hd : d = masterNodeId
  · subst hd
    intro hc
    simp only [Function.update_self] at hc
    exact absurd hc (Nat.lt_irrefl 0)
  · have hd' : masterNodeId ≠ d := fun hc => hd hc.symm
    simpa only [Function.update_of_ne hd'] using hp

end PausedMoved

theorem pausedMoved_step (h : UplinkInv src s g) (hp : PausedMoved s) {a : LinkAction} {s' : Link}
    (hs : (uplinkSystem src 0).step s a = .ok s') : PausedMoved s' := by
  cases a with
  | allocate =>
      change s.allocate = _ at hs
      unfold Link.allocate at hs
      obtain ⟨⟨r, m⟩, ha, hs⟩ := bind_eq_ok.mp hs
      rcases h.sender.allocate ha (fun hn => (h.node hn).1) with ⟨rfl, rfl⟩ | ⟨i, rfl, -, -, rfl, -⟩
      · cases hs
        exact hp
      · cases hs
        exact hp
  | write data =>
      cases hs
      change _ → (writeAllocatedPacket s.sender data).txSeqNumNext _ ≠ _
      unfold PausedMoved at hp
      unfold writeAllocatedPacket
      cases ha : s.sender.allocatedPacket with
      | none => simpa only [writeAllocatedPacket, ha] using hp
      | some i => simpa only [writeAllocatedPacket, ha] using hp
  | submit ttl dst type size =>
      change s.submit _ ttl dst type size = _ at hs
      unfold Link.submit at hs
      obtain ⟨m, hm, hs⟩ := bind_eq_ok.mp hs
      rcases submitAllocatedTxPacket_ok hm with ⟨hmaster, -, -⟩ | ⟨i, q, ha, -, -, -, -, -, rfl⟩
      · cases hmaster
      · rw [if_neg (fun hc => Bool.noConfusion hc.1), ha] at hs
        cases hs
        exact hp
  | transmit burstSize =>
      change s.transmit _ burstSize = _ at hs
      obtain ⟨⟨r, m⟩, hget, -⟩ := bind_eq_ok.mp hs
      have hsent : s'.sender = m := by
        rcases LinkInv.transmit h hget with ⟨-, ht, -⟩ | ⟨d, x, -, -, ht, -⟩
        · rw [← Except.ok.inj (ht.symm.trans hs)]
        · rw [← Except.ok.inj (ht.symm.trans hs)]
      exact hp.getNext h (hsent ▸ hget)
  | receiveAck d =>
      change s.receiveAck _ d = _ at hs
      cases hacks : s.acks d with
      | nil =>
          unfold Link.receiveAck at hs
          rw [hacks] at hs
          cases hs
          exact hp
      | cons a rest =>
          obtain ⟨m, g', hres, ht, -⟩ := LinkInv.receiveAck h hacks
          rw [← Except.ok.inj (ht.symm.trans hs)]
          cases hres with
          | null _ => exact hp
          | missed _ _ => exact hp.missAck rfl
          | valid _ _ _ _ _ => exact hp.acknowledge rfl
  | receive d =>
      change s.receive _ d = _ at hs
      unfold Link.receive at hs
      cases hdata : s.data d with
      | nil =>
          rw [hdata] at hs
          cases hs
          exact hp
      | cons p rest =>
          rw [hdata] at hs
          obtain ⟨_, -, hs⟩ := bind_eq_ok.mp hs
          cases hs
          exact hp
  | loseData d i => cases hs; exact hp
  | loseAck d i => cases hs; exact hp
  | refuse d => cases hs; exact hp
  | sendAck d => cases hs; exact hp

end UplinkInv

theorem uplinkInv_reachable {maxEntries : UInt8} (hsrc : src.toNat < maxNodes) (hsize : maxEntries.toNat ≤ 254)
    (h : (uplinkSystem src maxEntries).Reachable s) : ∃ g, UplinkInv src s g ∧ (windowOf g s).Ok := by
  obtain ⟨hp, g, hinv⟩ : UplinkInv.PausedMoved s ∧ ∃ g, UplinkInv src s g := by
    refine System.ReachableWhen.invariant (P := fun s => UplinkInv.PausedMoved s ∧ ∃ g, UplinkInv src s g) h ?_ ?_
    · intro s hs
      refine ⟨?_, linkInv_uplink hsrc hsize (.init hs)⟩
      obtain ⟨entries, rxEntries, rxMaxEntries, rfl⟩ := hs
      exact fun hc => absurd hc (Nat.lt_irrefl 0)
    · rintro s a s' ⟨hp, g, hinv⟩ - hs
      refine ⟨UplinkInv.pausedMoved_step hinv hp hs, hinv.step ?_ hs⟩
      cases a with
      | submit ttl dst type size => exact fun hc => by cases hc
      | _ => exact trivial
  refine ⟨g, hinv, ?_⟩
  obtain ⟨c, hc⟩ := hinv.carries masterNodeId
  have hsd := hc.inv.start_le
  have hds := hc.inv.delivered_le
  rw [hc.start, hc.delivered] at hsd
  rw [hc.delivered, hc.stop] at hds
  refine ⟨hinv.sender.store.start_le_next _, hinv.sender.store.next_le_stop _, hsd, hds, ?_⟩
  intro hpause
  refine lt_of_le_of_ne (hinv.sender.store.start_le_next _) ?_
  intro hne
  refine hp hpause ?_
  rw [hinv.sender.store.next_eq, hinv.sender.store.start_eq]
  exact congrArg seq hne.symm

theorem UplinkInv.discard (h : UplinkInv src s g) : UplinkInv src s.discard g where
  sender := h.sender
  node := h.node
  carries d := by
    obtain ⟨c, hc⟩ := h.carries d
    exact ⟨c.lose [] [], hc.inv.lose (List.nil_sublist _) (List.nil_sublist _), hc.submitted, hc.start, hc.next,
      hc.stop, hc.delivered, rfl, rfl, hc.rxSeqNum, hc.peer, hc.used⟩
  held := h.held
  freed := h.freed

/-- The window that the code shows as stuck. -/
theorem UplinkInv.stuck_iff (h : UplinkInv src s g) (hok : (windowOf g s).Ok) : (windowOf g s).Stuck ↔
    (s.receiver masterNodeId).rxSeqNum src = nullSequenceNum ∧
      s.sender.txSeqNumNext masterNodeId ≠ s.sender.txSeqNumStart masterNodeId := by
  have h1 := hok.start_le_next
  have h2 := hok.next_le_stop
  have hfull := h.sender.full masterNodeId
  have hstart : (windowOf g s).start = g.start masterNodeId := rfl
  have hnext : (windowOf g s).next = g.next masterNodeId := rfl
  have hstop : (windowOf g s).stop = g.stop masterNodeId := rfl
  rw [h.rxSeqNum_eq, h.sender.store.next_eq, h.sender.store.start_eq, Ne, seq_eq_iff]
  unfold Window.Stuck
  have hnull : ackOf (windowOf g s).delivered = nullSequenceNum ↔ (windowOf g s).delivered = 0 := by
    constructor
    · intro ha
      by_contra hz
      rw [ackOf, if_neg hz] at ha
      exact seq_ne_null _ ha
    · intro hz
      rw [hz]
      rfl
  rw [hnull, hstart, hnext]
  refine and_congr_right fun _ => not_congr ⟨fun hc => by rw [hc], fun hc => ?_⟩
  exact Cyclic.eq_of_mod_eq hc (by omega) (by omega)

/-- The link drains exactly when the master has accepted something already, or the node is to send
its first packet next: before the first packet the master acknowledges with the null number,
which the node takes for no acknowledgement at all. -/
theorem uplink_drains_iff {maxEntries : UInt8} (hsrc : src.toNat < maxNodes) (hsize : maxEntries.toNat ≤ 254)
    (h : (uplinkSystem src maxEntries).Reachable s) :
    s.Drains src ↔ (s.receiver masterNodeId).rxSeqNum src ≠ nullSequenceNum ∨
      s.sender.txSeqNumNext masterNodeId = s.sender.txSeqNumStart masterNodeId := by
  obtain ⟨g, hinv, hok⟩ := uplinkInv_reachable hsrc hsize h
  have hstuck := hinv.stuck_iff hok
  constructor
  · rintro ⟨n, s', hr, hempty, -⟩
    by_contra hc
    rw [not_or, not_not] at hc
    exact UplinkInv.rounds_stuck n hinv.discard ⟨rfl, rfl⟩ hok (hstuck.mpr hc) hr hempty
  · intro hc
    refine UplinkInv.rounds_drain _ _ s.discard g hinv.discard ⟨rfl, rfl⟩ hok ?_ rfl rfl
    intro hs
    obtain ⟨h1, h2⟩ := hstuck.mp hs
    rcases hc with hc | hc
    · exact hc h1
    · exact h2 hc

/-- The packets after a first one that arrived get through although one is lost. -/
theorem uplink_drains_after_loss :
    ∃ s, (uplinkSystem 5 4).Reachable s ∧ (s.submitted masterNodeId).length = 2 ∧
      (s.accepted masterNodeId).length = 1 ∧ s.Drains 5 := by
  obtain ⟨s, hrun, h1, h2, h3⟩ : ∃ s, (uplinkSystem 5 4).run uplinkStart
      [.allocate, .submit 0 masterNodeId .nodeData 3, .allocate, .submit 0 masterNodeId .nodeData 4, .transmit 1,
        .transmit 1, .receive masterNodeId, .loseData masterNodeId 0] = .ok s ∧
          (s.submitted masterNodeId).length = 2 ∧
      (s.accepted masterNodeId).length = 1 ∧ (s.receiver masterNodeId).rxSeqNum 5 = 0 := ⟨_, rfl, rfl, rfl, rfl⟩
  have hs : (uplinkSystem 5 4).Reachable s := System.Reachable.run (.init uplinkStart_init) hrun
  refine ⟨s, hs, h1, h2, (uplink_drains_iff (by decide) (by decide) hs).mpr (Or.inl ?_)⟩
  rw [h3]
  decide

/-- A link whose only packet was lost never drains. -/
theorem uplink_stalls_after_first_loss : ∃ s, (uplinkSystem 5 4).Reachable s ∧ ¬ s.Drains 5 := by
  obtain ⟨s, hrun, h1, h2⟩ : ∃ s, (uplinkSystem 5 4).run uplinkStart
      [.allocate, .submit 0 masterNodeId .nodeData 3, .transmit 1, .loseData masterNodeId 0] = .ok s ∧
      (s.receiver masterNodeId).rxSeqNum 5 = nullSequenceNum ∧
      s.sender.txSeqNumNext masterNodeId ≠ s.sender.txSeqNumStart masterNodeId := ⟨_, rfl, rfl, by decide⟩
  have hs : (uplinkSystem 5 4).Reachable s := System.Reachable.run (.init uplinkStart_init) hrun
  obtain ⟨g, hinv, hok⟩ := uplinkInv_reachable (by decide) (by decide) hs
  refine ⟨s, hs, ?_⟩
  rintro ⟨n, s', hr, hempty, -⟩
  exact UplinkInv.rounds_stuck n hinv.discard ⟨rfl, rfl⟩ hok ((hinv.stuck_iff hok).mpr ⟨h1, h2⟩) hr hempty

end Microbus
