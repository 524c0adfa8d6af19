import Microbus.Foundation.Bytes
import Microbus.MasterFrames

/-! The table of new nodes, and the response that carries it. -/
namespace Microbus

open Transition

/-- A request registered with any times to live, or a request answered. -/
inductive TableAction
  | register (masterNodeTimeToLive : TimeToLive) (uniqueId : UInt64)
  | removeRequest (rxNodeId : TNodeIndex)

def tableSystem : System NetworkManager TableAction Fault where
  init nw := nw = networkManagerInit
  step nw
    | .register masterNodeTimeToLive uniqueId => do
        let (nw, _) ← networkManagerRegisterNewNode nw masterNodeTimeToLive uniqueId
        return nw
    | .removeRequest rxNodeId => do
        let (_, nw) ← networkManagerRemoveNewNodeRequest nw rxNodeId
        return nw

/-- The requests in the table are of different nodes, and there is room for them. -/
structure NetworkManager.TableOk (nw : NetworkManager) : Prop where
  room : nw.numNewNodes ≤ maxNodesAllocatedAtOnce
  nodup : (nw.newNodes.map Prod.fst).Nodup
  nonzero : ∀ e ∈ nw.newNodes, e.1 ≠ 0

namespace NetworkManager.TableOk

variable {nw nw' : NetworkManager}

theorem register {ttl ttl' : TimeToLive} {uniqueId : UInt64} (h : nw.TableOk)
    (hr : networkManagerRegisterNewNode nw ttl uniqueId = .ok (nw', ttl')) : nw'.TableOk := by
  unfold networkManagerRegisterNewNode at hr
  obtain ⟨_, hassert, hr⟩ := bind_eq_ok.mp hr
  have hnonzero : uniqueId ≠ 0 := microbusAssert_ok.mp hassert
  split at hr
  · cases hr
    exact h
  · rename_i hroom
    split at hr
    · cases hr
      exact h
    · rename_i hnew
      dsimp only at hr
      split at hr
      · cases hr
        exact h
      · obtain ⟨active, -, hr⟩ := bind_eq_ok.mp hr
        cases hr
        have habsent : uniqueId ∉ nw.newNodes.map Prod.fst := by
          intro hin
          obtain ⟨e, he, rfl⟩ := List.mem_map.mp hin
          obtain ⟨i, hi, rfl⟩ := NetworkManager.mem_newNodes.mp he
          exact hnew (List.any_eq_true.mpr ⟨i, List.mem_range.mpr hi, beq_self_eq_true _⟩)
        have hle := h.room
        refine ⟨by change nw.numNewNodes + 1 ≤ _; omega, ?_, ?_⟩
        · rw [newNodes_append, List.map_append, List.nodup_append]
          refine ⟨h.nodup, List.nodup_singleton _, ?_⟩
          intro u hu v hv
          rintro rfl
          have heq : u = uniqueId := List.mem_singleton.mp hv
          exact habsent (heq ▸ hu)
        · rw [newNodes_append]
          intro e he
          rcases List.mem_append.mp he with he | he
          · exact h.nonzero e he
          · exact List.mem_singleton.mp he ▸ hnonzero

theorem removeRequest {d : TNodeIndex} {found : Bool} (h : nw.TableOk)
    (hr : networkManagerRemoveNewNodeRequest nw d = .ok (found, nw')) : nw'.TableOk := by
  have hsub : nw'.newNodes.Sublist nw.newNodes := networkManagerRemoveNewNodeRequest_newNodes hr ▸ List.eraseP_sublist
  refine ⟨?_, h.nodup.sublist (hsub.map Prod.fst), fun e he => h.nonzero e (hsub.subset he)⟩
  rw [← NetworkManager.length_newNodes]
  exact hsub.length_le.trans (NetworkManager.length_newNodes nw ▸ h.room)

theorem of_reachable (h : tableSystem.Reachable nw) : nw.TableOk := by
  apply System.ReachableWhen.invariant (P := NetworkManager.TableOk) h
  · rintro nw rfl
    exact ⟨by decide, List.nodup_nil, nofun⟩
  · intro nw a nw' h _ hs
    cases a with
    | register ttl uniqueId =>
        obtain ⟨⟨nw₁, ttl'⟩, hr, hs⟩ := bind_eq_ok.mp hs
        cases hs
        exact h.register hr
    | removeRequest d =>
        obtain ⟨⟨found, nw₁⟩, hr, hs⟩ := bind_eq_ok.mp hs
        cases hs
        exact h.removeRequest hr

end NetworkManager.TableOk

/-- Byte `i` from the data field on; there is nothing behind the field. -/
def Packet.byteAt (p : Packet) (i : Nat) : UInt8 := if h : i < masterPacketDataSize then p.data ⟨i, h⟩ else 0

/-- The unique id in entry `j` of a response. -/
def Packet.entryUniqueId (p : Packet) (j : Nat) : UInt64 :=
  uniqueIdOfBytes ((List.range 8).map fun k => p.byteAt (j * newNodeResponseEntrySize + k))

def Packet.writeEntry (p : Packet) (num : Nat) (uniqueId : UInt64) (nodeId : TNodeIndex) : Packet :=
  (p.setUniqueId (num * newNodeResponseEntrySize) uniqueId).setData (8 + num * newNodeResponseEntrySize) nodeId

section Entries

variable {p : Packet} {i j num offset : Nat} {uniqueId : UInt64} {nodeId : TNodeIndex} {s : Site}

theorem uniqueIdOfBytes_bytes (uniqueId : UInt64) :
    uniqueIdOfBytes ((List.range 8).map (uniqueIdByte uniqueId)) = uniqueId := by
  have hvalue : Bytes.value ((List.range 8).map (Bytes.byte uniqueId.toNat)) = uniqueId.toNat := by
    rw [Bytes.value_bytes]
    exact Nat.mod_eq_of_lt uniqueId.toNat_lt
  exact (congrArg UInt64.ofNat hvalue).trans (UInt64.ofNat_toNat)

theorem readData_eq (hi : i < masterPacketDataSize) : p.readData i s = .ok (p.byteAt i) := by
  simp [Packet.readData, Packet.byteAt, hi]

theorem getUniqueId_eq (h : offset + 8 ≤ masterPacketDataSize) :
    p.getUniqueId offset s = .ok (uniqueIdOfBytes ((List.range 8).map fun k => p.byteAt (offset + k))) := by
  have hread : ∀ l : List Nat, (∀ k ∈ l, offset + k < masterPacketDataSize) →
      l.mapM (fun k => p.readData (offset + k) s) = .ok (l.map fun k => p.byteAt (offset + k)) := by
    intro l
    induction l with
    | nil => exact fun _ => rfl
    | cons k l ih =>
        intro hl
        rw [List.mapM_cons, readData_eq (hl k List.mem_cons_self), ih fun k hk => hl k (List.mem_cons_of_mem _ hk)]
        rfl
  unfold Packet.getUniqueId
  rw [hread _ fun k hk => Nat.lt_of_lt_of_le (Nat.add_lt_add_left (List.mem_range.mp hk) offset) h]
  rfl

theorem entryFor_iff (hj : j < maxResponseEntries) : p.entryFor uniqueId j ↔ p.entryUniqueId j = uniqueId := by
  have hfield : j * newNodeResponseEntrySize + 8 ≤ masterPacketDataSize := by
    change j < 19 at hj
    change j * 9 + 8 ≤ 178
    omega
  rw [Packet.entryFor, getUniqueId_eq hfield, Except.ok.injEq]
  rfl

theorem byteAt_setData {k : Nat} {v : UInt8} (hi : i < masterPacketDataSize) :
    (p.setData k v).byteAt i = if i = k then v else p.byteAt i := by
  simp [Packet.byteAt, Packet.setData, hi]

theorem byteAt_setUniqueId (hi : i < masterPacketDataSize) : (p.setUniqueId offset uniqueId).byteAt i =
    if offset ≤ i ∧ i < offset + 8 then uniqueIdByte uniqueId (i - offset) else p.byteAt i := by
  simp [Packet.byteAt, Packet.setUniqueId, hi]

theorem entryUniqueId_writeEntry (hj : j ≤ num) (hnum : num < maxResponseEntries) :
    (p.writeEntry num uniqueId nodeId).entryUniqueId j = if j = num then uniqueId else p.entryUniqueId j := by
  have hbyte : ∀ k < 8, (p.writeEntry num uniqueId nodeId).byteAt (j * newNodeResponseEntrySize + k) =
      if j = num then uniqueIdByte uniqueId k else p.byteAt (j * newNodeResponseEntrySize + k) := by
    intro k hk
    have hfield : j * newNodeResponseEntrySize + k < masterPacketDataSize := by
      change num < 19 at hnum
      change j * 9 + k < 178
      omega
    rw [Packet.writeEntry, byteAt_setData hfield, byteAt_setUniqueId hfield]
    by_cases heq : j = num
    · subst heq
      rw [if_neg (by omega), if_pos (by omega), if_pos rfl, Nat.add_sub_cancel_left]
    · have hapart : j * newNodeResponseEntrySize + 9 ≤ num * newNodeResponseEntrySize := by
        change j * 9 + 9 ≤ num * 9
        omega
      rw [if_neg (by omega), if_neg (by omega), if_neg heq]
  unfold Packet.entryUniqueId
  by_cases heq : j = num
  · rw [if_pos heq]
    refine (congrArg uniqueIdOfBytes (List.map_congr_left fun k hk => ?_)).trans (uniqueIdOfBytes_bytes uniqueId)
    rw [hbyte k (List.mem_range.mp hk), if_pos heq]
  · rw [if_neg heq]
    refine congrArg uniqueIdOfBytes (List.map_congr_left fun k hk => ?_)
    rw [hbyte k (List.mem_range.mp hk), if_neg heq]

end Entries

/-- Entry `j` of the packet is row `j` of the table. -/
def Packet.CarriesRow (p : Packet) (nw : NetworkManager) (j : Nat) : Prop :=
  p.entryUniqueId j = nw.newNodeUniqueId j ∧ p.entryNodeId j = nw.newNodeId j

section Response

variable {nw : NetworkManager} {p : Packet} {n : Nat}

theorem newNodeResponseLoop_row {fuel i num : Nat} (hrow : nw.newNodeUniqueId i > 0) :
    newNodeResponseLoop nw n (fuel + 1) i num p =
      if num + 1 = n then (num + 1, p.writeEntry num (nw.newNodeUniqueId i) (nw.newNodeId i))
      else newNodeResponseLoop nw n fuel (i + 1) (num + 1)
        (p.writeEntry num (nw.newNodeUniqueId i) (nw.newNodeId i)) := by
  rw [newNodeResponseLoop, if_pos hrow]
  rfl

/-- The loop, entered at row `num`, writes the rows up to `n` and stops there. -/
theorem newNodeResponseLoop_carries (hnonzero : ∀ j < n, nw.newNodeUniqueId j ≠ 0)
    (hroom : n ≤ maxResponseEntries)
    (fuel : Nat) : ∀ num (p : Packet), num < n → n ≤ num + fuel → (∀ j < num, p.CarriesRow nw j) →
      (newNodeResponseLoop nw n fuel num num p).1 = n ∧
        ∀ j < n, (newNodeResponseLoop nw n fuel num num p).2.CarriesRow nw j := by
  induction fuel with
  | zero => exact fun num p hlt hle _ => absurd hlt (by omega)
  | succ fuel ih =>
      intro num p hlt hle hrows
      have hpos : nw.newNodeUniqueId num > 0 := UInt64.pos_iff_ne_zero.mpr (hnonzero num hlt)
      have hnext : ∀ j < num + 1, (p.writeEntry num (nw.newNodeUniqueId num) (nw.newNodeId num)).CarriesRow nw j := by
        intro j hj
        have hle' : j ≤ num := Nat.lt_succ_iff.mp hj
        have hnum : num < maxResponseEntries := Nat.lt_of_lt_of_le hlt hroom
        rw [Packet.CarriesRow, entryUniqueId_writeEntry hle' hnum, Packet.writeEntry,
          entryNodeId_setEntry p _ _ hle' hnum]
        by_cases heq : j = num
        · rw [if_pos heq, if_pos heq, heq]
          exact ⟨rfl, rfl⟩
        · rw [if_neg heq, if_neg heq]
          exact hrows j (by omega)
      rw [newNodeResponseLoop_row hpos]
      by_cases hlast : num + 1 = n
      · rw [if_pos hlast]
        exact ⟨hlast, fun j hj => hnext j (hlast ▸ hj)⟩
      · rw [if_neg hlast]
        exact ih (num + 1) _ (by omega) (by omega) hnext

/-- A response carries as many entries as there are rows, and row for row. -/
theorem txNewNodeResponse_carries (h : nw.TableOk) (hpos : 0 < nw.numNewNodes) (p : Packet) :
    (txNewNodeResponse nw p).numEntries = nw.numNewNodes ∧
      ∀ j < nw.numNewNodes, (txNewNodeResponse nw p).CarriesRow nw j := by
  have hroom : nw.numNewNodes ≤ 10 := h.room
  have hmin : min nw.numNewNodes (masterPacketDataSize / newNodeResponseEntrySize) = nw.numNewNodes := by
    change min nw.numNewNodes 19 = nw.numNewNodes
    omega
  have hnonzero : ∀ j < nw.numNewNodes, nw.newNodeUniqueId j ≠ 0 := fun j hj =>
    h.nonzero _ (NetworkManager.mem_newNodes.mpr ⟨j, hj, rfl⟩)
  obtain ⟨hnum, hrows⟩ := newNodeResponseLoop_carries hnonzero (hroom.trans (by decide)) maxNodesAllocatedAtOnce 0
    { p.setProtocolVersionAndPacketType .newNodeResponse with dstNodeId := unallocatedNodeId } hpos
    ((Nat.zero_add maxNodesAllocatedAtOnce).symm ▸ hroom) (fun j hj => absurd hj (Nat.not_lt_zero j))
  unfold txNewNodeResponse
  dsimp only
  rw [hmin]
  generalize newNodeResponseLoop nw nw.numNewNodes maxNodesAllocatedAtOnce 0 0 _ = r at hnum hrows ⊢
  obtain ⟨num, q⟩ := r
  have hnum : num = nw.numNewNodes := hnum
  subst hnum
  refine ⟨?_, hrows⟩
  unfold Packet.numEntries
  rw [Packet.getPacketDataSize_set, UInt16.toNat_ofNat_of_lt' (by change nw.numNewNodes * 9 < 65536; omega)]
  change nw.numNewNodes * 9 / 9 % 256 = nw.numNewNodes
  omega

/-- What an entry writes: the places in the data field, and the bytes. -/
def entryWrites (num : Nat) (uniqueId : UInt64) (nodeId : TNodeIndex) : List (Nat × UInt8) :=
  (List.range 8).map (fun k => (num * newNodeResponseEntrySize + k, uniqueIdByte uniqueId k)) ++
    [(8 + num * newNodeResponseEntrySize, nodeId)]

/-- What the loop of `txNewNodeResponse` writes, in its order. -/
def newNodeResponseWrites (nw : NetworkManager) (maxNum : Nat) : Nat → Nat → Nat → List (Nat × UInt8)
  | 0, _, _ => []
  | fuel + 1, i, num =>
      if nw.newNodeUniqueId i > 0 then
        entryWrites num (nw.newNodeUniqueId i) (nw.newNodeId i) ++
          if num + 1 = maxNum then [] else newNodeResponseWrites nw maxNum fuel (i + 1) (num + 1)
      else newNodeResponseWrites nw maxNum fuel (i + 1) num

def Packet.writeAll (p : Packet) (writes : List (Nat × UInt8)) : Packet :=
  writes.foldl (fun p w => p.setData w.1 w.2) p

theorem writeAll_data {p q : Packet} (h : p.data = q.data) (writes : List (Nat × UInt8)) :
    (p.writeAll writes).data = (q.writeAll writes).data := by
  induction writes generalizing p q with
  | nil => exact h
  | cons w writes ih =>
      apply ih
      simp only [Packet.setData, h]

theorem setUniqueId_eq (p : Packet) (offset : Nat) (uniqueId : UInt64) : p.setUniqueId offset uniqueId =
    p.writeAll ((List.range 8).map fun k => (offset + k, uniqueIdByte uniqueId k)) := by
  have hbytes : ∀ n, p.writeAll ((List.range n).map fun k => (offset + k, uniqueIdByte uniqueId k)) =
      { p with data := fun j =>
        if offset ≤ j.val ∧ j.val < offset + n then uniqueIdByte uniqueId (j.val - offset) else p.data j } := by
    intro n
    induction n with
    | zero =>
        have hnone : ∀ j : Fin masterPacketDataSize, ¬ (offset ≤ j.val ∧ j.val < offset + 0) := by
          intro j
          omega
        simp only [hnone, if_false]
        rfl
    | succ n ih =>
        rw [List.range_succ, List.map_append, Packet.writeAll, List.foldl_append]
        change (Packet.writeAll _ _).setData _ _ = _
        rw [ih]
        unfold Packet.setData
        congr 1
        funext j
        by_cases hlast : j.val = offset + n
        · simp [hlast]
        · have hsame : (offset ≤ j.val ∧ j.val < offset + n) ↔
            (offset ≤ j.val ∧ j.val < offset + (n + 1)) := by omega
          simp only [hlast, if_false, hsame]
  exact (hbytes 8).symm

theorem newNodeResponseLoop_writes (nw : NetworkManager) (maxNum fuel : Nat) : ∀ i num (p : Packet),
    (newNodeResponseLoop nw maxNum fuel i num p).2 = p.writeAll (newNodeResponseWrites nw maxNum fuel i num) := by
  have happend : ∀ (p : Packet) (writes writes' : List (Nat × UInt8)),
      p.writeAll (writes ++ writes') = (p.writeAll writes).writeAll writes' := fun p writes writes' => List.foldl_append
  induction fuel with
  | zero => exact fun i num p => rfl
  | succ fuel ih =>
      intro i num p
      by_cases hrow : nw.newNodeUniqueId i > 0
      · have hentry : p.writeEntry num (nw.newNodeUniqueId i) (nw.newNodeId i) =
            p.writeAll (entryWrites num (nw.newNodeUniqueId i) (nw.newNodeId i)) := by
          rw [entryWrites, happend, ← setUniqueId_eq]
          rfl
        rw [newNodeResponseLoop_row hrow, newNodeResponseWrites, if_pos hrow, happend, ← hentry]
        by_cases hlast : num + 1 = maxNum
        · rw [if_pos hlast, if_pos hlast]
          rfl
        · rw [if_neg hlast, if_neg hlast]
          exact ih (i + 1) (num + 1) _
      · rw [newNodeResponseLoop, if_neg hrow, newNodeResponseWrites, if_neg hrow]
        exact ih (i + 1) num p

/-- All of it lies in the data field. -/
theorem newNodeResponseWrites_lt (nw : NetworkManager) (maxNum fuel : Nat) :
    ∀ i num, num + fuel ≤ maxResponseEntries →
    ∀ w ∈ newNodeResponseWrites nw maxNum fuel i num, w.1 < masterPacketDataSize := by
  induction fuel with
  | zero => exact fun i num _ w hw => absurd hw List.not_mem_nil
  | succ fuel ih =>
      intro i num hroom w hw
      unfold newNodeResponseWrites at hw
      have hentry : ∀ w ∈ entryWrites num (nw.newNodeUniqueId i) (nw.newNodeId i), w.1 < masterPacketDataSize := by
        intro w hw
        change num + (fuel + 1) ≤ 19 at hroom
        rcases List.mem_append.mp hw with hw | hw
        · obtain ⟨k, hk, rfl⟩ := List.mem_map.mp hw
          have hk := List.mem_range.mp hk
          change num * 9 + k < 178
          omega
        · rw [List.mem_singleton.mp hw]
          change 8 + num * 9 < 178
          omega
      split at hw
      · rcases List.mem_append.mp hw with hw | hw
        · exact hentry w hw
        · split at hw
          · exact absurd hw List.not_mem_nil
          · exact ih (i + 1) (num + 1) (by omega) w hw
      · exact ih (i + 1) num (by omega) w hw

end Response

def NetworkManager.responseWrites (nw : NetworkManager) : List (Nat × UInt8) :=
  newNodeResponseWrites nw (min nw.numNewNodes (masterPacketDataSize / newNodeResponseEntrySize))
    maxNodesAllocatedAtOnce 0 0

/-- A node that reads the response joins with the id of its row in the table, and a node that is not in the
table is left as it is. All is written and read in the data field. -/
theorem response_decodes_to_table {nw : NetworkManager} (h : tableSystem.Reachable nw) (hpos : 0 < nw.numNewNodes)
    (packet : Packet) (u : UInt64) (node : NodeMembership) :
    ∃ node', rxNewNodePacketResponse (txNewNodeResponse nw packet) u node = .ok node' ∧
      (∀ i < nw.numNewNodes, nw.newNodeUniqueId i = u →
        node' = ⟨nw.newNodeId i, nodeTimeoutUs, node.nodeJoinedNw + 1⟩) ∧
      ((∀ i < nw.numNewNodes, nw.newNodeUniqueId i ≠ u) → node' = node) ∧
      (txNewNodeResponse nw packet).data = (packet.writeAll nw.responseWrites).data ∧
      ∀ w ∈ nw.responseWrites, w.1 < masterPacketDataSize := by
  have htable := NetworkManager.TableOk.of_reachable h
  obtain ⟨hnum, hrows⟩ := txNewNodeResponse_carries htable hpos packet
  have hroom : nw.numNewNodes ≤ maxResponseEntries := htable.room.trans (by decide)
  have hfor : ∀ i < nw.numNewNodes, (txNewNodeResponse nw packet).entryFor u i ↔ nw.newNodeUniqueId i = u := by
    intro i hi
    rw [entryFor_iff (Nat.lt_of_lt_of_le hi hroom), (hrows i hi).1]
  have hinj : ∀ i < nw.numNewNodes, ∀ j < nw.numNewNodes, nw.newNodeUniqueId i =
    nw.newNodeUniqueId j → i = j := by
    have hnodup := htable.nodup
    rw [NetworkManager.newNodes, List.map_map, List.nodup_map_iff_inj_on List.nodup_range] at hnodup
    exact fun i hi j hj heq => hnodup i (List.mem_range.mpr hi) j (List.mem_range.mpr hj) heq
  have hdata : (txNewNodeResponse nw packet).data = (packet.writeAll nw.responseWrites).data := by
    have hloop := newNodeResponseLoop_writes nw (min nw.numNewNodes (masterPacketDataSize / newNodeResponseEntrySize))
      maxNodesAllocatedAtOnce 0 0 { packet.setProtocolVersionAndPacketType .newNodeResponse with dstNodeId :=
        unallocatedNodeId }
    refine (congrArg Packet.data hloop).trans ?_
    apply writeAll_data
    rfl
  have hwrites := newNodeResponseWrites_lt nw
    (min nw.numNewNodes (masterPacketDataSize / newNodeResponseEntrySize)) maxNodesAllocatedAtOnce 0 0 (by decide)
  have hmin : min nw.numNewNodes maxResponseEntries = nw.numNewNodes := Nat.min_eq_left hroom
  cases hfind : (txNewNodeResponse nw packet).findEntry u with
  | some i =>
      have hread : rxNewNodePacketResponse (txNewNodeResponse nw packet) u node = .ok
          ⟨(txNewNodeResponse nw packet).entryNodeId i, nodeTimeoutUs, node.nodeJoinedNw + 1⟩ := by
        rw [rxNewNodePacketResponse_iff, hfind]
      unfold Packet.findEntry at hfind
      rw [hnum, hmin] at hfind
      obtain ⟨hentry, hi, -⟩ := List.find?_range_eq_some.mp hfind
      have hi := List.mem_range.mp hi
      have hrow := (hfor i hi).mp (of_decide_eq_true hentry)
      refine ⟨_, hread, ?_, ?_, hdata, hwrites⟩
      · intro j hj hu
        rw [(hrows i hi).2, hinj i hi j hj (hrow.trans hu.symm)]
      · exact fun hnone => absurd hrow (hnone i hi)
  | none =>
      have hread : rxNewNodePacketResponse (txNewNodeResponse nw packet) u node = .ok node := by
        rw [rxNewNodePacketResponse_iff, hfind, hnum]
        exact ⟨hroom, rfl⟩
      unfold Packet.findEntry at hfind
      rw [hnum, hmin, List.find?_range_eq_none] at hfind
      refine ⟨node, hread, ?_, fun _ => rfl, hdata, hwrites⟩
      intro j hj hu
      have hno := hfind j hj
      simp only [(hfor j hj).mpr hu, decide_true, Bool.not_true, Bool.false_eq_true] at hno

/-- Three requests of which the first one was answered: the second row was moved to the first, and the third one is
behind the table too. -/
theorem response_decodes_to_table_two :
    ∃ nw : NetworkManager, nw.newNodes = [(8, 2), (9, 3)] ∧ nw.newNodeUniqueId 2 = 9 ∧
    ∃ node', rxNewNodePacketResponse (txNewNodeResponse nw .zero) 9 ⟨unallocatedNodeId, 0, 4⟩ = .ok node' ∧
      node'.nodeId = 3 ∧ node'.nodeJoinedNw = 5 := by
  obtain ⟨nw, hnw, htable⟩ := System.exists_of_decidedRun (S := tableSystem) (s := networkManagerInit)
    (fun _ _ => True)
    (p := fun nw => nw.newNodes == [(8, 2), (9, 3)] && nw.newNodeUniqueId 2 == 9)
    [.register (fun _ => 0) 7, .register (fun d => if d = 1 then 128 else 0) 8,
      .register (fun d => if d = 1 ∨ d = 2 then 128 else 0) 9, .removeRequest 1] (.init rfl) (by decide +kernel)
  obtain ⟨hrows, hstale⟩ := Bool.and_eq_true_iff.mp htable
  have hrows := beq_iff_eq.mp hrows
  have hnum : nw.numNewNodes = 2 := by rw [← NetworkManager.length_newNodes, hrows]; rfl
  have hthird : (nw.newNodeUniqueId 1, nw.newNodeId 1) = (9, 3) := by
    have hget := NetworkManager.getElem?_newNodes nw 1
    rw [hrows, hnum] at hget
    exact (Option.some.inj hget).symm
  obtain ⟨huid, hid⟩ := Prod.mk.inj hthird
  obtain ⟨node', hread, hjoins, -⟩ := response_decodes_to_table hnw (by omega) .zero 9 ⟨unallocatedNodeId, 0, 4⟩
  have hnode := hjoins 1 (by omega) huid
  rw [hid] at hnode
  exact ⟨nw, hrows, beq_iff_eq.mp hstale, node', hread, hnode ▸ rfl, hnode ▸ rfl⟩

end Microbus
