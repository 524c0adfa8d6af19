import Microbus.Arrival
import Microbus.Foundation.Ring
import Mathlib.Data.List.ReduceOption

/-! The buffers of the receive side and who holds them. -/
namespace Microbus

open Transition

namespace RxPacketManager

variable {rpm rpm' : RxPacketManager}

/-- The slots of the ring in the order in which they were filled. -/
def ring (rpm : RxPacketManager) : List (Option Nat) :=
  Ring.contents rpm.maxRxPacketEntries rpm.start rpm.endIndex rpm.rxPacketQueue

/-- The buffers that the application can still read. -/
def queued (rpm : RxPacketManager) : List Nat := rpm.ring.reduceOption

/-- The buffers that are held: by the receive hardware, by a frame that waits for the long part of
reception, and by the ring. -/
def holders (rpm : RxPacketManager) (next : Nat) (waiting : Option Nat) : List Nat :=
  next :: (waiting.toList ++ rpm.queued)

theorem inUse_setInUse (i : Nat) (b : Bool) (j : Nat) :
    ((rpm.setInUse i b).rxPacketEntries j).inUse = if j = i then b else (rpm.rxPacketEntries j).inUse := by
  by_cases hj : j = i
  · subst hj
    simp [setInUse]
  · simp [setInUse, hj]

theorem inUse_receive (i : Nat) (p : Packet) (j : Nat) :
    ((rpm.receive i p).rxPacketEntries j).inUse = (rpm.rxPacketEntries j).inUse := by
  by_cases hj : j = i
  · subst hj
    simp [receive]
  · simp [receive, hj]

theorem findFreeRxPacket_free {free : Nat} (h : findFreeRxPacket rpm = some (free, rpm')) :
    free < rpm.maxRxPacketEntries ∧ (rpm.rxPacketEntries free).inUse = false := by
  unfold findFreeRxPacket at h
  split at h
  · cases h
  · split at h
    · rename_i i hfind
      cases h
      exact ⟨List.mem_range.mp (List.mem_of_find?_eq_some hfind), by simpa using List.find?_some hfind⟩
    · cases h

theorem addRxDataPacket_fields {e : Nat} (h : addRxDataPacket rpm e = .ok rpm') :
    rpm'.maxRxPacketEntries = rpm.maxRxPacketEntries ∧ rpm'.start = rpm.start ∧
      rpm'.endIndex = Ring.place rpm.maxRxPacketEntries rpm.endIndex 1 ∧
        rpm'.rxPacketEntries = rpm.rxPacketEntries := by
  unfold addRxDataPacket at h
  split at h
  · cases h
  · cases h
    exact ⟨rfl, rfl, rfl, rfl⟩

theorem ring_add {e : Nat} (hs : rpm.start < rpm.maxRxPacketEntries) (he : rpm.endIndex < rpm.maxRxPacketEntries)
    (h : addRxDataPacket rpm e = .ok rpm') : rpm'.ring = rpm.ring ++ [some e] := by
  unfold addRxDataPacket at h
  split at h
  · cases h
  · rename_i hfull
    cases h
    exact Ring.contents_append hs he hfull _

/-- The body of the loop of `rxManagerRemoveAllPackets` for a packet of the node: its buffer is freed
and its slot emptied. -/
def clearSlot (rpm : RxPacketManager) (slot e : Nat) : RxPacketManager :=
  { rpm.setInUse e false with rxPacketQueue := Function.update rpm.rxPacketQueue slot none }

/-- The ring lies in the same slots. -/
structure SameEnds (rpm rpm' : RxPacketManager) : Prop where
  maxRxPacketEntries : rpm'.maxRxPacketEntries = rpm.maxRxPacketEntries
  start : rpm'.start = rpm.start
  endIndex : rpm'.endIndex = rpm.endIndex

theorem SameEnds.refl (rpm : RxPacketManager) : rpm.SameEnds rpm := ⟨rfl, rfl, rfl⟩

/-- The loop passes by index 0: it wraps behind the exit test. -/
theorem removeAllPacketsLoop_endless {nodeId : TNodeIndex} {fuel i : Nat} (hend : rpm.endIndex = 0) (hi : 0 < i) :
    removeAllPacketsLoop nodeId fuel i rpm ≠ .ok rpm' := by
  induction fuel generalizing i rpm with
  | zero => exact nofun
  | succ fuel ih =>
      unfold removeAllPacketsLoop
      rw [if_pos (by omega)]
      dsimp only
      split
      · split
        · exact ih hend (Nat.succ_pos _)
        · exact ih hend (Nat.succ_pos _)
      · exact ih hend (Nat.succ_pos _)

theorem removeAllPackets_visits {P : Nat → RxPacketManager → Prop} {nodeId : TNodeIndex}
    (hs : rpm.start < rpm.maxRxPacketEntries) (he : rpm.endIndex < rpm.maxRxPacketEntries)
    (hskip : ∀ q k, rpm.SameEnds q → P k q → k < q.ring.length →
      (∀ e, q.ring[k]? = some (some e) → (q.rxPacketEntries e).packet.srcNodeId ≠ nodeId) → P (k + 1) q)
    (hclear : ∀ q k e, rpm.SameEnds q → P k q → q.ring[k]? = some (some e) →
      (q.rxPacketEntries e).packet.srcNodeId = nodeId →
      P (k + 1) (q.clearSlot (Ring.place q.maxRxPacketEntries q.start k) e))
    (h0 : P 0 rpm) (h : rxManagerRemoveAllPackets rpm nodeId = .ok rpm') : P rpm.ring.length rpm' := by
  -- the index is at place `k`, or at the end of the array and place `k` is slot 0
  have hloop : ∀ fuel i k q, rpm.SameEnds q → P k q →
    k ≤ Ring.count rpm.maxRxPacketEntries rpm.start rpm.endIndex →
      (i = Ring.place rpm.maxRxPacketEntries rpm.start k ∨
        (i = rpm.maxRxPacketEntries ∧ Ring.place rpm.maxRxPacketEntries rpm.start k = 0)) →
      removeAllPacketsLoop nodeId fuel i q = .ok rpm' →
      P (Ring.count rpm.maxRxPacketEntries rpm.start rpm.endIndex) rpm' := by
    have hcount := Ring.count_lt hs he
    intro fuel
    induction fuel with
    | zero =>
        intro i k q _ _ _ _ h
        cases h
    | succ fuel ih =>
        intro i k q hsame hp hk hi h
        have hplace : Ring.place rpm.maxRxPacketEntries rpm.start k < rpm.maxRxPacketEntries :=
          Ring.place_lt hs (by omega)
        by_cases hlast : k = Ring.count rpm.maxRxPacketEntries rpm.start rpm.endIndex
        · subst hlast
          rw [Ring.place_count hs he] at hi
          rcases hi with rfl | ⟨rfl, hzero⟩
          · unfold removeAllPacketsLoop at h
            rw [if_neg (by rw [hsame.endIndex]; exact fun hc => hc rfl)] at h
            cases h
            exact hp
          · exact absurd h (removeAllPacketsLoop_endless (by rw [hsame.endIndex, hzero]) (by omega))
        · have hnext := ih (Ring.place rpm.maxRxPacketEntries rpm.start k + 1) (k + 1)
          have hplace' := Ring.place_succ_cases hs (k := k) (by omega)
          have hindex : (if i ≥ q.maxRxPacketEntries then 0 else i) =
            Ring.place rpm.maxRxPacketEntries rpm.start k := by
            rw [hsame.maxRxPacketEntries]
            rcases hi with rfl | ⟨rfl, hzero⟩
            · rw [if_neg (by omega)]
            · rw [if_pos (Nat.le_refl _), hzero]
          have hslot : q.ring[k]? = some (q.rxPacketQueue (Ring.place rpm.maxRxPacketEntries rpm.start k)) := by
            unfold ring
            rw [Ring.getElem?_contents, hsame.maxRxPacketEntries, hsame.start, hsame.endIndex, if_pos (by omega)]
          unfold removeAllPacketsLoop at h
          split at h
          · dsimp only at h
            rw [hindex] at h
            split at h
            · rename_i e hslot'
              rw [hslot'] at hslot
              split at h
              · rename_i hsrc
                have hone := hclear q k e hsame hp hslot hsrc
                rw [hsame.maxRxPacketEntries, hsame.start] at hone
                exact hnext (q.clearSlot _ e)
                  ⟨hsame.maxRxPacketEntries, hsame.start, hsame.endIndex⟩ hone (by omega)
                  (by omega) h
              · rename_i hsrc
                have hone := hskip q k hsame hp (List.getElem?_eq_some_iff.mp hslot).1 fun e' he' => by
                  rw [hslot] at he'
                  cases he'
                  exact hsrc
                exact hnext q hsame hone (by omega) (by omega) h
            · rename_i hslot'
              have hone := hskip q k hsame hp (List.getElem?_eq_some_iff.mp hslot).1 fun e' he' => by
                rw [hslot, hslot'] at he'
                cases he'
              exact hnext q hsame hone (by omega) (by omega) h
          · rename_i hstop
            rw [not_not, hsame.endIndex] at hstop
            exfalso
            have hinj : Ring.place rpm.maxRxPacketEntries rpm.start k = rpm.endIndex := by
              rcases hi with hi | ⟨hi, -⟩
              · rw [← hi, hstop]
              · omega
            rw [← Ring.place_count hs he] at hinj
            exact hlast (Ring.place_inj (by omega) hcount hinj)
  unfold ring
  rw [Ring.length_contents]
  exact hloop _ _ 0 rpm (.refl rpm) h0 (Nat.zero_le _) (Or.inl (Ring.place_zero hs).symm) h

theorem removeAllPackets_induction {P : RxPacketManager → Prop} {nodeId : TNodeIndex}
    (hs : rpm.start < rpm.maxRxPacketEntries) (he : rpm.endIndex < rpm.maxRxPacketEntries)
    (hclear : ∀ q k e, rpm.SameEnds q → P q → q.ring[k]? = some (some e) →
      (q.rxPacketEntries e).packet.srcNodeId = nodeId →
      P (q.clearSlot (Ring.place q.maxRxPacketEntries q.start k) e))
    (h0 : P rpm) (h : rxManagerRemoveAllPackets rpm nodeId = .ok rpm') : P rpm' :=
  removeAllPackets_visits (P := fun _ => P) hs he (fun _ _ _ hp _ _ => hp) hclear h0 h

end RxPacketManager

/-- Each buffer in use is held once. -/
structure RxInv (rpm : RxPacketManager) (next : Nat) (waiting : Option Nat) : Prop where
  start_lt : rpm.start < rpm.maxRxPacketEntries
  end_lt : rpm.endIndex < rpm.maxRxPacketEntries
  nodup : (rpm.holders next waiting).Nodup
  bound : ∀ i ∈ rpm.holders next waiting, i < rpm.maxRxPacketEntries
  inUse : ∀ i < rpm.maxRxPacketEntries, ((rpm.rxPacketEntries i).inUse = true ↔ i ∈ rpm.holders next waiting)

namespace RxInv

variable {rpm rpm' : RxPacketManager} {next next' e : Nat} {waiting waiting' : Option Nat}

/-- The hardware never writes what the application can read. -/
theorem next_not_queued (h : RxInv rpm next waiting) : next ∉ rpm.queued := by
  intro hc
  obtain ⟨hnext, -⟩ := List.nodup_cons.mp h.nodup
  exact hnext (List.mem_append_right _ hc)

theorem perm (h : RxInv rpm next waiting) (hmax : rpm'.maxRxPacketEntries = rpm.maxRxPacketEntries)
    (hstart : rpm'.start < rpm.maxRxPacketEntries) (hend : rpm'.endIndex < rpm.maxRxPacketEntries)
    (hperm : (rpm.holders next waiting).Perm (rpm'.holders next' waiting'))
    (huse : ∀ i, (rpm'.rxPacketEntries i).inUse = (rpm.rxPacketEntries i).inUse) : RxInv rpm' next' waiting' where
  start_lt := by rw [hmax]; exact hstart
  end_lt := by rw [hmax]; exact hend
  nodup := hperm.nodup_iff.mp h.nodup
  bound i hi := by
    rw [hmax]
    exact h.bound i (hperm.mem_iff.mpr hi)
  inUse i hi := by
    rw [huse, ← hperm.mem_iff]
    exact h.inUse i (hmax ▸ hi)

theorem drop (h : RxInv rpm next waiting) (hmax : rpm'.maxRxPacketEntries = rpm.maxRxPacketEntries)
    (hstart : rpm'.start < rpm.maxRxPacketEntries) (hend : rpm'.endIndex < rpm.maxRxPacketEntries)
    (hperm : (rpm.holders next waiting).Perm (e :: rpm'.holders next' waiting'))
    (huse : ∀ i, (rpm'.rxPacketEntries i).inUse = if i = e then false else (rpm.rxPacketEntries i).inUse) :
    RxInv rpm' next' waiting' := by
  obtain ⟨he, hnodup⟩ := List.nodup_cons.mp (hperm.nodup_iff.mp h.nodup)
  refine ⟨by rw [hmax]; exact hstart, by rw [hmax]; exact hend, hnodup, ?_, ?_⟩
  · intro i hi
    rw [hmax]
    exact h.bound i (hperm.mem_iff.mpr (List.mem_cons_of_mem e hi))
  · intro i hi
    rw [huse]
    by_cases hie : i = e
    · subst hie
      rw [if_pos rfl]
      exact ⟨fun hc => absurd hc Bool.false_ne_true, fun hc => absurd hc he⟩
    · rw [if_neg hie, h.inUse i (hmax ▸ hi), hperm.mem_iff, List.mem_cons]
      exact ⟨fun hc => hc.resolve_left hie, Or.inr⟩

theorem receive (h : RxInv rpm next waiting) (i : Nat) (p : Packet) : RxInv (rpm.receive i p) next waiting :=
  h.perm rfl h.start_lt h.end_lt (List.Perm.refl _) (RxPacketManager.inUse_receive i p)

theorem take (h : RxInv rpm next none) {free : Nat} (hf : findFreeRxPacket rpm = some (free, rpm')) :
    RxInv rpm' free (some next) := by
  obtain ⟨hlt, hfree⟩ := RxPacketManager.findFreeRxPacket_free hf
  obtain ⟨-, rfl⟩ := RxPacketManager.findFreeRxPacket_some hf
  have hnew : free ∉ rpm.holders next none := by
    intro hc
    rw [(h.inUse free hlt).mpr hc] at hfree
    cases hfree
  refine ⟨h.start_lt, h.end_lt, List.nodup_cons.mpr ⟨hnew, h.nodup⟩, ?_, ?_⟩
  · intro i hi
    rcases List.mem_cons.mp hi with rfl | hi
    · exact hlt
    · exact h.bound i hi
  · intro i hi
    rw [RxPacketManager.inUse_setInUse]
    change _ ↔ i ∈ free :: rpm.holders next none
    by_cases hif : i = free
    · subst hif
      rw [if_pos rfl]
      exact ⟨fun _ => List.mem_cons_self, fun _ => rfl⟩
    · rw [if_neg hif, h.inUse i hi, List.mem_cons]
      exact ⟨Or.inr, fun hc => hc.resolve_left hif⟩

theorem release (h : RxInv rpm next (some e)) : RxInv (rpm.setInUse e false) next none :=
  h.drop rfl h.start_lt h.end_lt (List.Perm.swap _ _ _) (RxPacketManager.inUse_setInUse e false)

theorem add (h : RxInv rpm next (some e)) (ha : addRxDataPacket rpm e = .ok rpm') :
    RxInv rpm' next none ∧ rpm'.ring = rpm.ring ++ [some e] := by
  have hring := RxPacketManager.ring_add h.start_lt h.end_lt ha
  obtain ⟨hmax, hstart, hend, huse⟩ := RxPacketManager.addRxDataPacket_fields ha
  refine ⟨h.perm hmax (hstart ▸ h.start_lt) ?_ ?_ (fun i => by rw [huse]), hring⟩
  · have hpos := h.start_lt
    rw [hend]
    exact Ring.place_lt h.end_lt (by omega)
  · unfold RxPacketManager.holders RxPacketManager.queued
    rw [hring, List.reduceOption_append]
    exact (List.perm_append_comm).cons next

theorem clear (h : RxInv rpm next waiting) {k : Nat} (hk : rpm.ring[k]? = some (some e)) :
    RxInv (rpm.clearSlot (Ring.place rpm.maxRxPacketEntries rpm.start k) e) next waiting ∧
      (rpm.clearSlot (Ring.place rpm.maxRxPacketEntries rpm.start k) e).ring = rpm.ring.set k none := by
  obtain ⟨hlt, hget⟩ := List.getElem?_eq_some_iff.mp hk
  have hring : (rpm.clearSlot (Ring.place rpm.maxRxPacketEntries rpm.start k) e).ring = rpm.ring.set k none := by
    refine Ring.contents_set h.start_lt h.end_lt ?_ none
    rwa [RxPacketManager.ring, Ring.length_contents] at hlt
  refine ⟨h.drop rfl h.start_lt h.end_lt ?_ (RxPacketManager.inUse_setInUse e false), hring⟩
  obtain ⟨l₁, l₂, hsplit, -, hset⟩ : ∃ l₁ l₂, rpm.ring = l₁ ++ rpm.ring[k] :: l₂ ∧
    l₁.length = k ∧
      rpm.ring.set k none = l₁ ++ none :: l₂ := List.exists_of_set hlt
  unfold RxPacketManager.holders RxPacketManager.queued
  rw [hring, hset, hsplit, hget]
  simp only [List.reduceOption_append, List.reduceOption_cons_of_some, List.reduceOption_cons_of_none]
  -- the freed buffer moves to the front
  rw [← List.append_assoc, ← List.append_assoc, ← List.cons_append, ← List.cons_append]
  exact List.perm_middle

theorem removeAll (h : RxInv rpm next waiting) {nodeId : TNodeIndex}
    (hr : rxManagerRemoveAllPackets rpm nodeId = .ok rpm') : RxInv rpm' next waiting :=
  RxPacketManager.removeAllPackets_induction (P := fun q => RxInv q next waiting) h.start_lt h.end_lt
    (fun _ _ _ _ hq hk _ => (hq.clear hk).1) h hr

/-- Peeking drops the slots that a removal emptied. -/
theorem peek (h : RxInv rpm next waiting) {r : Option Nat} (hp : peekNextRxDataPacket rpm = .ok (r, rpm')) :
    RxInv rpm' next waiting ∧ rpm'.queued = rpm.queued ∧ rpm'.ring.head? = r.map some ∧
      rpm'.ring.length ≤ rpm.ring.length ∧ rpm'.maxRxPacketEntries = rpm.maxRxPacketEntries ∧
      rpm'.rxPacketEntries = rpm.rxPacketEntries := by
  have hloop : ∀ fuel rpm, RxInv rpm next waiting → peekLoop fuel rpm = .ok (r, rpm') →
      RxInv rpm' next waiting ∧ rpm'.queued = rpm.queued ∧ rpm'.ring.head? = r.map some ∧
        rpm'.ring.length ≤ rpm.ring.length ∧ rpm'.maxRxPacketEntries = rpm.maxRxPacketEntries ∧
        rpm'.rxPacketEntries = rpm.rxPacketEntries := by
    intro fuel
    induction fuel with
    | zero =>
        intro rpm _ hp
        cases hp
    | succ fuel ih =>
        intro rpm h hp
        unfold peekLoop at hp
        split at hp
        · rename_i hempty
          have hring : rpm.ring = [] := by
            unfold RxPacketManager.ring
            rw [← show rpm.start = rpm.endIndex from hempty, Ring.contents_self]
          cases hp
          exact ⟨h, rfl, by rw [hring]; rfl, Nat.le_refl _, rfl, rfl⟩
        · rename_i hempty
          have hcons := Ring.contents_cons rpm.rxPacketQueue h.start_lt h.end_lt hempty
          split at hp
          · rename_i hslot
            obtain ⟨rpm₁, hpop, hp⟩ := bind_eq_ok.mp hp
            unfold RxPacketManager.pop at hpop
            rw [if_neg hempty] at hpop
            cases hpop
            rw [hslot] at hcons
            -- the ring without its empty head
            obtain ⟨rest, hrest⟩ : ∃ rest, { rpm with
                start := incrAndWrap rpm.start 1 rpm.maxRxPacketEntries } = (rest : RxPacketManager) := ⟨_, rfl⟩
            have hring : rpm.ring = none :: rest.ring := by
              rw [← hrest]
              exact hcons
            have hqueued : rpm.queued = rest.queued := by
              unfold RxPacketManager.queued
              rw [hring, List.reduceOption_cons_of_none]
            have hpos := h.start_lt
            have hnext : RxInv rest next waiting := by
              rw [← hrest]
              refine h.perm rfl (Ring.place_lt h.start_lt (by omega)) h.end_lt ?_ (fun _ => rfl)
              unfold RxPacketManager.holders
              rw [hqueued, hrest]
            rw [hrest] at hp
            obtain ⟨hinv, hsame, hhead, hlength, hmax, hentries⟩ := ih rest hnext hp
            refine ⟨hinv, hsame.trans hqueued.symm, hhead, ?_, ?_, ?_⟩
            · rw [hring, List.length_cons]
              omega
            · rw [hmax, ← hrest]
            · rw [hentries, ← hrest]
          · rename_i e hslot
            have hring : rpm.ring.head? = some (some e) := by
              rw [show rpm.ring = _ from hcons, hslot]
              rfl
            cases hp
            exact ⟨h, rfl, hring, Nat.le_refl _, rfl, rfl⟩
  exact hloop _ rpm h hp

theorem pop (h : RxInv rpm next waiting) (hp : popNextDataPacket rpm = .ok rpm') :
    RxInv rpm' next waiting ∧ rpm'.maxRxPacketEntries = rpm.maxRxPacketEntries ∧
      (∀ i, (rpm'.rxPacketEntries i).packet = (rpm.rxPacketEntries i).packet) ∧
      ∃ e, rpm.ring = some e :: rpm'.ring := by
  unfold popNextDataPacket at hp
  by_cases hempty : rpm.isEmpty
  · simp only [hempty, if_true] at hp
    cases hp
  · simp only [hempty, if_false] at hp
    have hcons := Ring.contents_cons rpm.rxPacketQueue h.start_lt h.end_lt hempty
    split at hp
    · rename_i e hslot
      unfold RxPacketManager.pop at hp
      split at hp
      · cases hp
      · cases hp
        rw [hslot] at hcons
        have hpos : 1 ≤ rpm.maxRxPacketEntries := Nat.one_le_of_lt h.start_lt
        refine ⟨h.drop rfl (Ring.place_lt h.start_lt hpos) h.end_lt ?_
          (RxPacketManager.inUse_setInUse e false), rfl, RxPacketManager.packet_setInUse e false, e, hcons⟩
        unfold RxPacketManager.holders RxPacketManager.queued
        rw [show rpm.ring = _ from hcons, List.reduceOption_cons_of_some, ← List.cons_append, ← List.cons_append]
        exact List.perm_middle
    · cases hp

theorem pop_total (h : RxInv rpm next waiting) (hhead : rpm.ring.head? = some (some e)) :
    ∃ rpm', popNextDataPacket rpm = .ok rpm' := by
  have hempty : ¬ rpm.isEmpty := by
    intro hc
    unfold RxPacketManager.ring at hhead
    rw [← show rpm.start = rpm.endIndex from hc, Ring.contents_self] at hhead
    cases hhead
  have hcons := Ring.contents_cons rpm.rxPacketQueue h.start_lt h.end_lt hempty
  have hslot : rpm.rxPacketQueue rpm.start = some e := by
    rw [show rpm.ring = _ from hcons] at hhead
    exact Option.some.inj hhead
  have hempty' : ¬ (rpm.setInUse e false).isEmpty := hempty
  unfold popNextDataPacket RxPacketManager.pop
  simp only [hempty, if_false, hslot, hempty']
  exact ⟨_, rfl⟩

/-- The ring is full when one slot is left. -/
theorem isFull_iff (h : RxInv rpm next waiting) : rpm.isFull ↔ rpm.ring.length + 1 = rpm.maxRxPacketEntries := by
  have hs := h.start_lt
  have he := h.end_lt
  unfold RxPacketManager.isFull RxPacketManager.ring incrAndWrap
  rw [Ring.length_contents]
  unfold Ring.count
  split <;> split <;> omega

theorem notFull (h : RxInv rpm next waiting) (h' : RxInv rpm' next' waiting') (hf : ¬ rpm.isFull)
    (hmax : rpm'.maxRxPacketEntries = rpm.maxRxPacketEntries) (hlength : rpm'.ring.length ≤ rpm.ring.length) :
    ¬ rpm'.isFull := by
  have hlt : rpm.ring.length < rpm.maxRxPacketEntries := by
    unfold RxPacketManager.ring
    rw [Ring.length_contents]
    exact Ring.count_lt h.start_lt h.end_lt
  rw [h.isFull_iff] at hf
  rw [h'.isFull_iff, hmax]
  omega

end RxInv

/-- The first buffer of a fresh store is handed to the receive hardware. -/
theorem rxInv_init {maxRxPacketEntries : UInt8} {next : Nat} {rpm : RxPacketManager} (hmax : maxRxPacketEntries > 2)
    (hf : findFreeRxPacket (rxManagerInit maxRxPacketEntries) = some (next, rpm)) :
    RxInv rpm next none ∧ rpm.ring = [] := by
  obtain ⟨hlt, -⟩ := RxPacketManager.findFreeRxPacket_free hf
  obtain ⟨-, rfl⟩ := RxPacketManager.findFreeRxPacket_some hf
  have hpos : 0 < maxRxPacketEntries.toNat := by
    have := UInt8.lt_iff_toNat_lt.mp hmax
    omega
  have hring : ((rxManagerInit maxRxPacketEntries).setInUse next true).ring = [] := Ring.contents_self
  refine ⟨⟨hpos, hpos, ?_, ?_, ?_⟩, hring⟩
  all_goals unfold RxPacketManager.holders RxPacketManager.queued
  all_goals rw [hring]
  · exact List.nodup_singleton next
  · intro i hi
    rw [List.mem_singleton.mp hi]
    exact hlt
  · intro i _
    rw [RxPacketManager.inUse_setInUse]
    change (if i = next then true else false) = true ↔ i ∈ [next]
    rw [List.mem_singleton]
    simp

end Microbus
