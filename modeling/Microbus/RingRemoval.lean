import Microbus.RxStore

/-! The removal of the packets of one node from the ring of received packets. -/
namespace Microbus

open Transition

namespace RxPacketManager

variable {rpm q rpm' : RxPacketManager} {nodeId : TNodeIndex} {visited visited' : Nat → Prop} {i e k : Nat}

def Between (rpm : RxPacketManager) (i : Nat) : Prop :=
  if rpm.start ≤ rpm.endIndex then rpm.start ≤ i ∧ i < rpm.endIndex
  else (rpm.start ≤ i ∧ i < rpm.maxRxPacketEntries) ∨ i < rpm.endIndex

/-- Slot `i` points to entry `e`, which holds a packet of the node. -/
def HoldsFrom (rpm : RxPacketManager) (nodeId : TNodeIndex) (i e : Nat) : Prop :=
  rpm.rxPacketQueue i = some e ∧ (rpm.rxPacketEntries e).packet.srcNodeId = nodeId

/-- The visited slots that hold packets of the node are emptied and their entries freed, and nothing else changes. -/
structure RemovesAt (rpm : RxPacketManager) (nodeId : TNodeIndex) (visited : Nat → Prop)
    (rpm' : RxPacketManager) : Prop where
  ends : rpm.SameEnds rpm'
  level : rpm'.rxBufferLevel = rpm.rxBufferLevel
  cleared : ∀ i e, visited i → rpm.HoldsFrom nodeId i e → rpm'.rxPacketQueue i = none
  slots : ∀ i, (¬ ∃ e, visited i ∧ rpm.HoldsFrom nodeId i e) → rpm'.rxPacketQueue i = rpm.rxPacketQueue i
  freed : ∀ i e, visited i → rpm.HoldsFrom nodeId i e →
    rpm'.rxPacketEntries e = { rpm.rxPacketEntries e with inUse := false }
  entries : ∀ e, (¬ ∃ i, visited i ∧ rpm.HoldsFrom nodeId i e) → rpm'.rxPacketEntries e = rpm.rxPacketEntries e

namespace RemovesAt

theorem refl (rpm : RxPacketManager) (nodeId : TNodeIndex) : rpm.RemovesAt nodeId (fun _ => False) rpm :=
  ⟨.refl rpm, rfl, fun _ _ hc => hc.elim, fun _ _ => rfl, fun _ _ hc => hc.elim, fun _ _ => rfl⟩

theorem packet (h : rpm.RemovesAt nodeId visited q) (e : Nat) :
    (q.rxPacketEntries e).packet = (rpm.rxPacketEntries e).packet := by
  by_cases hfreed : ∃ i, visited i ∧ rpm.HoldsFrom nodeId i e
  · obtain ⟨i, hi, he⟩ := hfreed
    rw [h.freed i e hi he]
  · rw [h.entries e hfreed]

/-- A slot that still points to an entry was not emptied. -/
theorem slot_eq (h : rpm.RemovesAt nodeId visited q) (hslot : q.rxPacketQueue i = some e) :
    rpm.rxPacketQueue i = some e := by
  by_cases hcleared : ∃ e, visited i ∧ rpm.HoldsFrom nodeId i e
  · obtain ⟨e', hi, he⟩ := hcleared
    rw [h.cleared i e' hi he] at hslot
    cases hslot
  · rw [← h.slots i hcleared]
    exact hslot

theorem skip (h : rpm.RemovesAt nodeId visited q) (hnone : ∀ e, ¬ q.HoldsFrom nodeId i e) :
    rpm.RemovesAt nodeId (fun x => visited x ∨ x = i) q := by
  have hvisited : ∀ {x e}, (visited x ∨ x = i) → rpm.HoldsFrom nodeId x e → visited x := by
    rintro x e (hx | rfl) hholds
    · exact hx
    · by_contra hnew
      have hslot := h.slots x fun ⟨_, hx, _⟩ => hnew hx
      refine hnone e ⟨hslot.trans hholds.1, ?_⟩
      rw [h.packet]
      exact hholds.2
  refine ⟨h.ends, h.level, fun x e hx hholds => h.cleared x e (hvisited hx hholds) hholds, fun x hx => ?_,
    fun x e hx hholds => h.freed x e (hvisited hx hholds) hholds, fun e he => ?_⟩
  · exact h.slots x fun ⟨e, hv, hholds⟩ => hx ⟨e, Or.inl hv, hholds⟩
  · exact h.entries e fun ⟨x, hv, hholds⟩ => he ⟨x, Or.inl hv, hholds⟩

theorem clear (h : rpm.RemovesAt nodeId visited q) (hi : q.HoldsFrom nodeId i e) :
    rpm.RemovesAt nodeId (fun x => visited x ∨ x = i) (q.clearSlot i e) := by
  have hslot := h.slot_eq hi.1
  have hsrc : (rpm.rxPacketEntries e).packet.srcNodeId = nodeId := by
    rw [← h.packet]
    exact hi.2
  have hqueue : ∀ x, (q.clearSlot i e).rxPacketQueue x = if x = i then none else q.rxPacketQueue x :=
    fun x => Function.update_apply _ _ _ _
  have hentries : ∀ x, (q.clearSlot i e).rxPacketEntries x = if x = e then { q.rxPacketEntries e with inUse := false }
      else q.rxPacketEntries x := fun x => Function.update_apply _ _ _ _
  have hfree : ({ q.rxPacketEntries e with inUse := false } : PacketEntry) =
    { rpm.rxPacketEntries e with inUse := false } := by
    dsimp only
    rw [h.packet]
  refine ⟨⟨h.ends.maxRxPacketEntries, h.ends.start, h.ends.endIndex⟩, h.level, fun x e' hx hholds =>
    ?_, fun x hx => ?_,
    fun x e' hx hholds => ?_, fun e' he' => ?_⟩
  · rw [hqueue]
    split
    · rfl
    · rename_i hne
      exact h.cleared x e' (hx.resolve_right hne) hholds
  · have hne : x ≠ i := by
      rintro rfl
      exact hx ⟨e, Or.inr rfl, hslot, hsrc⟩
    rw [hqueue, if_neg hne]
    exact h.slots x fun ⟨e', hv, hholds⟩ => hx ⟨e', Or.inl hv, hholds⟩
  · rw [hentries]
    split
    · rename_i heq
      rw [heq, hfree]
    · rename_i hne
      rcases hx with hx | rfl
      · exact h.freed x e' hx hholds
      · exact absurd (Option.some.inj (hholds.1.symm.trans hslot)) hne
  · have hne : e' ≠ e := by
      rintro rfl
      exact he' ⟨i, Or.inr rfl, hslot, hsrc⟩
    rw [hentries, if_neg hne]
    exact h.entries e' fun ⟨x, hv, hholds⟩ => he' ⟨x, Or.inl hv, hholds⟩

theorem congr (h : rpm.RemovesAt nodeId visited rpm') (hv : ∀ i, visited i ↔ visited' i) :
    rpm.RemovesAt nodeId visited' rpm' := by
  obtain rfl : visited = visited' := funext fun i => propext (hv i)
  exact h

end RemovesAt

def FirstPlaces (rpm : RxPacketManager) (k i : Nat) : Prop :=
  ∃ j < k, Ring.place rpm.maxRxPacketEntries rpm.start j = i

theorem firstPlaces_succ :
    rpm.FirstPlaces (k + 1) i ↔ rpm.FirstPlaces k i ∨ i = Ring.place rpm.maxRxPacketEntries rpm.start k := by
  constructor
  · rintro ⟨j, hj, rfl⟩
    rcases Nat.lt_succ_iff_lt_or_eq.mp hj with hlt | rfl
    · exact Or.inl ⟨j, hlt, rfl⟩
    · exact Or.inr rfl
  · rintro (⟨j, hj, rfl⟩ | rfl)
    · exact ⟨j, Nat.lt_succ_of_lt hj, rfl⟩
    · exact ⟨k, Nat.lt_succ_self k, rfl⟩

theorem firstPlaces_ring (hs : rpm.start < rpm.maxRxPacketEntries) (he : rpm.endIndex < rpm.maxRxPacketEntries) :
    rpm.FirstPlaces rpm.ring.length i ↔ rpm.Between i := by
  unfold FirstPlaces ring Between
  rw [Ring.length_contents]
  unfold Ring.count
  constructor
  · rintro ⟨j, hj, rfl⟩
    unfold Ring.place
    split at hj <;> split <;> split <;> omega
  · intro hi
    by_cases hstart : rpm.start ≤ i
    · refine ⟨i - rpm.start, ?_, ?_⟩
      · split at hi <;> split <;> omega
      · unfold Ring.place
        split at hi <;> split <;> omega
    · refine ⟨i + rpm.maxRxPacketEntries - rpm.start, ?_, ?_⟩
      · split at hi <;> split <;> omega
      · unfold Ring.place
        split at hi <;> split <;> omega

theorem getElem?_ring (hk : k < rpm.ring.length) :
    rpm.ring[k]? = some (rpm.rxPacketQueue (Ring.place rpm.maxRxPacketEntries rpm.start k)) := by
  unfold ring at hk ⊢
  rw [Ring.length_contents] at hk
  rw [Ring.getElem?_contents, if_pos hk]

/-- A removal that ends has visited the slots of the ring. -/
theorem removesAt_of_ok (hs : rpm.start < rpm.maxRxPacketEntries) (he : rpm.endIndex < rpm.maxRxPacketEntries)
    (h : rxManagerRemoveAllPackets rpm nodeId = .ok rpm') : rpm.RemovesAt nodeId rpm.Between rpm' := by
  have hvisits := removeAllPackets_visits (P := fun k q => rpm.RemovesAt nodeId (rpm.FirstPlaces k) q) hs he ?_ ?_ ?_ h
  · exact hvisits.congr fun i => firstPlaces_ring hs he
  · intro q k hends hq hk hother
    refine (hq.skip fun e hholds => hother e ?_ hholds.2).congr fun i => firstPlaces_succ.symm
    rw [getElem?_ring hk, hends.maxRxPacketEntries, hends.start]
    exact congrArg some hholds.1
  · intro q k e hends hq hslot hsrc
    obtain ⟨hk, -⟩ := List.getElem?_eq_some_iff.mp hslot
    rw [getElem?_ring hk, hends.maxRxPacketEntries, hends.start] at hslot
    rw [hends.maxRxPacketEntries, hends.start]
    exact (hq.clear ⟨Option.some.inj hslot, hsrc⟩).congr fun i => firstPlaces_succ.symm
  · exact (RemovesAt.refl rpm nodeId).congr fun i =>
      ⟨False.elim, fun ⟨_, hj, _⟩ => absurd hj (Nat.not_lt_zero _)⟩

theorem RemovesAt.ring (h : rpm.RemovesAt nodeId rpm.Between rpm') (hs : rpm.start < rpm.maxRxPacketEntries)
    (he : rpm.endIndex < rpm.maxRxPacketEntries) :
    rpm'.ring = rpm.ring.map (Option.filter fun e => (rpm.rxPacketEntries e).packet.srcNodeId != nodeId) := by
  unfold RxPacketManager.ring Ring.contents
  rw [h.ends.maxRxPacketEntries, h.ends.start, h.ends.endIndex, List.map_map]
  apply List.map_congr_left
  intro k hk
  have hbetween : rpm.Between (Ring.place rpm.maxRxPacketEntries rpm.start k) := by
    refine (firstPlaces_ring hs he).mp ⟨k, ?_, rfl⟩
    unfold RxPacketManager.ring
    rw [Ring.length_contents]
    exact List.mem_range.mp hk
  rw [Function.comp_apply]
  cases hslot : rpm.rxPacketQueue (Ring.place rpm.maxRxPacketEntries rpm.start k) with
  | none =>
      rw [h.slots _ fun ⟨e, _, hholds⟩ => (by rw [hholds.1] at hslot; cases hslot), hslot]
      rfl
  | some e =>
      by_cases hsrc : (rpm.rxPacketEntries e).packet.srcNodeId = nodeId
      · rw [h.cleared _ e hbetween ⟨hslot, hsrc⟩]
        simp [Option.filter, hsrc]
      · rw [h.slots _ fun ⟨e', _, hholds⟩ => (by rw [hholds.1] at hslot; cases hslot; exact hsrc hholds.2), hslot]
        simp [Option.filter, hsrc]

theorem RemovesAt.queued (h : rpm.RemovesAt nodeId rpm.Between rpm') (hs : rpm.start < rpm.maxRxPacketEntries)
    (he : rpm.endIndex < rpm.maxRxPacketEntries) :
    rpm'.queued = rpm.queued.filter fun e => (rpm.rxPacketEntries e).packet.srcNodeId != nodeId := by
  unfold RxPacketManager.queued
  rw [h.ring hs he]
  induction rpm.ring with
  | nil => rfl
  | cons slot rest ih =>
      cases slot with
      | none => exact ih
      | some e =>
          rw [List.map_cons, List.reduceOption_cons_of_some, List.filter_cons, ← ih]
          by_cases hsrc : (rpm.rxPacketEntries e).packet.srcNodeId = nodeId
          · simp [Option.filter, hsrc]
          · simp [Option.filter, hsrc]

/-- From the `k`-th place the loop comes to the end of the ring, unless it has to stop at slot 0 and did not begin
there. -/
theorem removeAllPacketsLoop_total (hs : rpm.start < rpm.maxRxPacketEntries)
    (he : rpm.endIndex < rpm.maxRxPacketEntries) (hend : rpm.endIndex ≠ 0 ∨ rpm.start = 0) :
    ∀ n k fuel i q, k + n = rpm.ring.length → n < fuel → rpm.SameEnds q →
      (i = Ring.place rpm.maxRxPacketEntries rpm.start k ∨
        (i = rpm.maxRxPacketEntries ∧ 0 < k ∧ Ring.place rpm.maxRxPacketEntries rpm.start k = 0)) →
      Completes (removeAllPacketsLoop nodeId fuel i q) := by
  have hlength : rpm.ring.length = Ring.count rpm.maxRxPacketEntries rpm.start rpm.endIndex := Ring.length_contents
  have hcount := Ring.count_lt hs he
  intro n
  induction n with
  | zero =>
      intro k fuel i q hk hfuel hsame hi
      have hlast : Ring.place rpm.maxRxPacketEntries rpm.start k = rpm.endIndex := by
        rw [← Ring.place_count hs he, ← hlength]
        congr 1
      have hstop : i = rpm.endIndex := by
        rcases hi with hi | ⟨-, hpos, hzero⟩
        · rw [hi, hlast]
        · rcases hend with hend | hstart
          · exact absurd (hlast.symm.trans hzero) hend
          · rw [hlength] at hk
            unfold Ring.count at hk
            split at hk <;> omega
      obtain ⟨fuel, rfl⟩ := Nat.exists_eq_add_of_lt hfuel
      unfold removeAllPacketsLoop
      rw [if_neg (by rw [hsame.endIndex, hstop]; exact not_not.mpr rfl)]
      exact .ok q
  | succ n ih =>
      intro k fuel i q hk hfuel hsame hi
      have hnext := Ring.place_succ_cases hs (k := k) (by omega)
      have hplace : Ring.place rpm.maxRxPacketEntries rpm.start k < rpm.maxRxPacketEntries :=
        Ring.place_lt hs (by omega)
      have hgo : Ring.place rpm.maxRxPacketEntries rpm.start k ≠ rpm.endIndex := by
        intro hc
        rw [← Ring.place_count hs he] at hc
        have := Ring.place_inj (by omega) hcount hc
        omega
      have hindex : (if i ≥ q.maxRxPacketEntries then 0 else i) = Ring.place rpm.maxRxPacketEntries rpm.start k := by
        rw [hsame.maxRxPacketEntries]
        rcases hi with rfl | ⟨rfl, -, hzero⟩
        · rw [if_neg (by omega)]
        · rw [if_pos (Nat.le_refl _), hzero]
      have hrest : ∀ q, rpm.SameEnds q →
          Completes (removeAllPacketsLoop nodeId (fuel - 1) (Ring.place rpm.maxRxPacketEntries rpm.start k + 1) q) :=
        fun q hq => ih (k + 1) (fuel - 1) _ q (by omega) (by omega) hq (by omega)
      obtain ⟨fuel, rfl⟩ := Nat.exists_eq_add_of_lt hfuel
      unfold removeAllPacketsLoop
      rw [if_pos (by rw [hsame.endIndex]; omega)]
      dsimp only
      rw [hindex]
      split
      · split
        · exact hrest _ ⟨hsame.maxRxPacketEntries, hsame.start, hsame.endIndex⟩
        · exact hrest q hsame
      · exact hrest q hsame

end RxPacketManager

/-- The removal of the packets of a node ends, with exactly its packets gone from the ring, exactly when the end of the
ring is not slot 0 or the ring is empty. In all other cases no number of steps is enough. -/
theorem removal_terminates_iff {rpm : RxPacketManager} (hs : rpm.start < rpm.maxRxPacketEntries)
    (he : rpm.endIndex < rpm.maxRxPacketEntries) (nodeId : TNodeIndex) :
    ((∃ rpm', rxManagerRemoveAllPackets rpm nodeId = .ok rpm' ∧ rpm.RemovesAt nodeId rpm.Between rpm' ∧
        rpm'.queued = rpm.queued.filter fun e => (rpm.rxPacketEntries e).packet.srcNodeId != nodeId) ↔
      rpm.endIndex ≠ 0 ∨ rpm.start = 0) ∧
    ((∃ fuel, Completes (removeAllPacketsLoop nodeId fuel rpm.start rpm)) ↔
      rpm.endIndex ≠ 0 ∨ rpm.start = 0) := by
  have hendless : (∃ fuel, Completes (removeAllPacketsLoop nodeId fuel rpm.start rpm)) → rpm.endIndex ≠ 0 ∨
    rpm.start = 0 := by
    rintro ⟨fuel, rpm', hloop⟩
    by_contra hc
    obtain ⟨hend, hstart⟩ := not_or.mp hc
    exact RxPacketManager.removeAllPacketsLoop_endless (not_not.mp hend) (Nat.pos_of_ne_zero hstart) hloop
  have hends : rpm.endIndex ≠ 0 ∨ rpm.start = 0 → Completes (rxManagerRemoveAllPackets rpm nodeId) := by
    intro hend
    have hlength : rpm.ring.length = Ring.count rpm.maxRxPacketEntries rpm.start rpm.endIndex := Ring.length_contents
    have hcount := Ring.count_lt hs he
    exact RxPacketManager.removeAllPacketsLoop_total hs he hend rpm.ring.length 0
      (2 * rpm.maxRxPacketEntries + 2) rpm.start
      rpm (Nat.zero_add _) (by omega) (.refl rpm) (Or.inl (Ring.place_zero hs).symm)
  refine ⟨⟨?_, ?_⟩, hendless, fun hend => ⟨_, hends hend⟩⟩
  · rintro ⟨rpm', hremove, -⟩
    exact hendless ⟨_, rpm', hremove⟩
  · intro hend
    obtain ⟨rpm', hremove⟩ := hends hend
    have hremoves := RxPacketManager.removesAt_of_ok hs he hremove
    exact ⟨rpm', hremove, hremoves, hremoves.queued hs he⟩

/-- Packets of nodes 2 and 1 in the last two of four slots, and one of node 1 in slot 0. -/
def wrappedRing (endIndex : Nat) : RxPacketManager where
  maxRxPacketEntries := 4
  rxPacketEntries i := ⟨true, Packet.zero.setSrcNodeId (if i = 2 then 2 else 1)⟩
  rxPacketQueue i := some i
  start := 2
  endIndex
  rxBufferLevel := 3

/-- The packets of node 1 are removed, and that of node 2 is left. -/
theorem removal_terminates_iff_wrapped : ∃ rpm', rxManagerRemoveAllPackets (wrappedRing 1) 1 = .ok rpm' ∧
    rpm'.queued = [2] := by
  obtain ⟨⟨-, hends⟩, -⟩ := @removal_terminates_iff (wrappedRing 1) (by decide) (by decide) 1
  obtain ⟨rpm', hremove, -, hqueued⟩ := hends (Or.inl (by decide))
  exact ⟨rpm', hremove, hqueued.trans (by decide)⟩

/-- The loop runs past slot 0, where the ring ends. -/
theorem removal_is_endless : (wrappedRing 0).start < (wrappedRing 0).maxRxPacketEntries ∧
    (wrappedRing 0).endIndex < (wrappedRing 0).maxRxPacketEntries ∧
    ∀ fuel, ¬ Completes (removeAllPacketsLoop 1 fuel (wrappedRing 0).start (wrappedRing 0)) := by
  refine ⟨by decide, by decide, fun fuel hc => ?_⟩
  obtain ⟨rpm', hloop⟩ := hc
  exact RxPacketManager.removeAllPacketsLoop_endless rfl (by decide) hloop

end Microbus
