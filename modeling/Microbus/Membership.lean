import Microbus.Network

/-! Who is a member: the times to live, the active nodes and the table of new nodes agree. -/
namespace Microbus

open Transition

/-- The table of new nodes: the unique id that asked and the id it was given. -/
def NetworkManager.newNodes (nw : NetworkManager) : List (UInt64 × TNodeIndex) :=
  (List.range nw.numNewNodes).map fun i => (nw.newNodeUniqueId i, nw.newNodeId i)

namespace NetworkManager

@[simp] theorem length_newNodes (nw : NetworkManager) : nw.newNodes.length = nw.numNewNodes := by simp [newNodes]

theorem mem_newNodes {nw : NetworkManager} {e : UInt64 × TNodeIndex} :
    e ∈ nw.newNodes ↔ ∃ i < nw.numNewNodes, (nw.newNodeUniqueId i, nw.newNodeId i) = e := by
  simp [newNodes]

theorem getElem?_newNodes (nw : NetworkManager) (i : Nat) :
    nw.newNodes[i]? = if i < nw.numNewNodes then some (nw.newNodeUniqueId i, nw.newNodeId i) else none := by
  by_cases h : i < nw.numNewNodes
  · simp [newNodes, h]
  · simp [newNodes, h]

end NetworkManager

theorem shiftNewNodes_apply (i n : Nat) (nw : NetworkManager) (k : Nat) :
    (shiftNewNodes i n nw).newNodeUniqueId k =
        (if i ≤ k ∧ k + 1 < n then nw.newNodeUniqueId (k + 1) else nw.newNodeUniqueId k) ∧
      (shiftNewNodes i n nw).newNodeId k =
        (if i ≤ k ∧ k + 1 < n then nw.newNodeId (k + 1) else nw.newNodeId k) := by
  -- the loop moves the two columns alike
  have hcolumns : ∀ (l : List Nat) (nw : NetworkManager),
      (l.foldl (fun nw j => { nw with
          newNodeUniqueId := Function.update nw.newNodeUniqueId j (nw.newNodeUniqueId (j + 1))
          newNodeId := Function.update nw.newNodeId j (nw.newNodeId (j + 1)) }) nw).newNodeUniqueId =
        l.foldl (fun ids j => Function.update ids j (ids (j + 1))) nw.newNodeUniqueId ∧
      (l.foldl (fun nw j => { nw with
          newNodeUniqueId := Function.update nw.newNodeUniqueId j (nw.newNodeUniqueId (j + 1))
          newNodeId := Function.update nw.newNodeId j (nw.newNodeId (j + 1)) }) nw).newNodeId =
        l.foldl (fun ids j => Function.update ids j (ids (j + 1))) nw.newNodeId := by
    intro l
    induction l with
    | nil => exact fun _ => ⟨rfl, rfl⟩
    | cons j l ih => exact fun nw => ih _
  have hrange : (i ≤ k ∧ k < i + (n - 1 - i)) ↔ (i ≤ k ∧ k + 1 < n) := by omega
  obtain ⟨huid, hid⟩ := hcolumns (List.range' i (n - 1 - i)) nw
  unfold shiftNewNodes
  rw [huid, hid, foldl_moveDown, foldl_moveDown]
  simp only [hrange, and_self]

theorem networkManagerRemoveNewNodeRequest_newNodes {nw nw' : NetworkManager} {d : TNodeIndex} {found : Bool}
    (h : networkManagerRemoveNewNodeRequest nw d = .ok (found, nw')) :
    nw'.newNodes = nw.newNodes.eraseP (fun e => e.2 == d) := by
  unfold networkManagerRemoveNewNodeRequest at h
  split at h
  · rename_i hfind
    cases h
    rw [List.find?_range_eq_none] at hfind
    symm
    apply List.eraseP_of_forall_not
    intro e he
    obtain ⟨i, hi, rfl⟩ := NetworkManager.mem_newNodes.mp he
    simpa using hfind i hi
  · rename_i i hfind
    obtain ⟨_, -, h⟩ := bind_eq_ok.mp h
    cases h
    obtain ⟨hp, hi, hmin⟩ := List.find?_range_eq_some.mp hfind
    have hi' : i < nw.numNewNodes := List.mem_range.mp hi
    have hlen : i < nw.newNodes.length := by rwa [NetworkManager.length_newNodes]
    have hidx : nw.newNodes.findIdx? (fun e => e.2 == d) = some i := by
      refine List.findIdx?_eq_some_iff_getElem.mpr ⟨hlen, ?_, ?_⟩
      · simpa [NetworkManager.newNodes] using hp
      · intro j hj
        simpa [NetworkManager.newNodes] using hmin j hj
    rw [List.eraseP_eq_eraseIdx, hidx]
    apply List.ext_getElem?
    intro k
    rw [List.getElem?_eraseIdx]
    simp only [NetworkManager.getElem?_newNodes, shiftNewNodes_apply]
    by_cases hk : k < i
    · rw [if_pos hk, if_pos (by omega), if_neg (by omega), if_neg (by omega), if_pos (by omega)]
    · rw [if_neg hk]
      by_cases hk' : k + 1 < nw.numNewNodes
      · rw [if_pos (by omega), if_pos (by omega), if_pos (by omega), if_pos hk']
      · rw [if_neg (by omega), if_neg hk']

theorem newNodes_append (nw : NetworkManager) (active : NodeQueue) (uniqueId : UInt64) (d : TNodeIndex) :
    NetworkManager.newNodes
        { nw with
          newNodeUniqueId := Function.update nw.newNodeUniqueId nw.numNewNodes uniqueId
          newNodeId := Function.update nw.newNodeId nw.numNewNodes d
          numNewNodes := nw.numNewNodes + 1
          activeNodes := active } = nw.newNodes ++ [(uniqueId, d)] := by
  simp only [NetworkManager.newNodes, List.range_succ, List.map_append, List.map_cons, List.map_nil,
    Function.update_self]
  congr 1
  apply List.map_congr_left
  intro i hi
  have : i ≠ nw.numNewNodes := (List.mem_range.mp hi).ne
  rw [Function.update_of_ne this, Function.update_of_ne this]

/-- The tables of who is there agree. -/
structure Members (nw : NetworkManager) (ttl : TimeToLive) : Prop where
  nodup : nw.activeNodes.toList.Nodup
  active : ∀ k, k ∈ nw.activeNodes.toList ↔ Station k ∧ ttl k ≠ 0
  room : nw.numNewNodes ≤ maxNodesAllocatedAtOnce
  uniqueIds : (nw.newNodes.map Prod.fst).Nodup
  nodeIds : (nw.newNodes.map Prod.snd).Nodup
  there : ∀ e ∈ nw.newNodes, Station e.2 ∧ ttl e.2 ≠ 0

namespace Members

variable {nw nw' : NetworkManager} {ttl ttl' : TimeToLive} {d : TNodeIndex}

theorem congr (h : Members nw ttl) (hactive : nw'.activeNodes.toList = nw.activeNodes.toList)
    (hnew : nw'.newNodes.Sublist nw.newNodes) (httl : ∀ k, Station k → (ttl' k = 0 ↔ ttl k = 0)) :
    Members nw' ttl' where
  nodup := by rw [hactive]; exact h.nodup
  active k := by
    rw [hactive, h.active k]
    constructor
    · rintro ⟨hk, hz⟩
      exact ⟨hk, fun hc => hz ((httl k hk).mp hc)⟩
    · rintro ⟨hk, hz⟩
      exact ⟨hk, fun hc => hz ((httl k hk).mpr hc)⟩
  room := by
    rw [← NetworkManager.length_newNodes]
    exact hnew.length_le.trans (NetworkManager.length_newNodes nw ▸ h.room)
  uniqueIds := (hnew.map _).nodup h.uniqueIds
  nodeIds := (hnew.map _).nodup h.nodeIds
  there e he := by
    obtain ⟨hk, hz⟩ := h.there e (hnew.subset he)
    exact ⟨hk, fun hc => hz ((httl _ hk).mp hc)⟩

theorem answered (h : Members nw ttl) (ha : nw.Answered nw' d) (hheard : Heard ttl ttl' d) : Members nw' ttl' := by
  refine h.congr (congrArg _ ha.activeNodes) ?_ (fun k _ => CleanInv.heard_zero_iff hheard k)
  rcases ha with rfl | ⟨found, ha⟩
  · exact List.Sublist.refl _
  · rw [networkManagerRemoveNewNodeRequest_newNodes ha]
    exact List.eraseP_sublist

theorem free (h : Members nw ttl) (hz : ttl d = 0) :
    d ∉ nw.activeNodes.toList ∧ d ∉ nw.newNodes.map Prod.snd := by
  constructor
  · intro hd
    exact ((h.active d).mp hd).2 hz
  · intro hd
    obtain ⟨e, he, rfl⟩ := List.mem_map.mp hd
    exact (h.there e he).2 hz

theorem register (h : Members nw ttl) {uniqueId : UInt64}
    (hr : networkManagerRegisterNewNode nw ttl uniqueId = .ok (nw', ttl')) : Members nw' ttl' := by
  rcases networkManagerRegisterNewNode_ok hr with ⟨rfl, rfl⟩ | ⟨active, hroom, hnew, hid, hadd, rfl, rfl⟩
  · exact h
  · obtain ⟨hfirst, hlast, hz⟩ := getNextFreeNodeId_free hid
    generalize getNextFreeNodeId ttl = d at *
    obtain ⟨hd, hd'⟩ := h.free hz
    have hlist : active.toList = nw.activeNodes.toList ++ [d] := by
      rw [(nodeQueueAdd_ok hadd).1, if_neg hd]
    have htable := newNodes_append nw active uniqueId d
    have hpositive : masterMaxTimeToLive ≠ 0 := by decide
    exact {
      nodup := (nodup_nodeQueueAdd hadd h.nodup).1
      active := by
        intro k
        change k ∈ active.toList ↔ _
        rw [hlist, List.mem_append, List.mem_singleton, h.active k]
        by_cases hk : k = d
        · subst hk
          rw [Function.update_self]
          exact ⟨fun _ => ⟨⟨hfirst, hlast⟩, hpositive⟩, fun _ => Or.inr rfl⟩
        · rw [Function.update_of_ne hk]
          exact ⟨fun hc => hc.resolve_right hk, Or.inl⟩
      room := Nat.lt_of_le_of_ne h.room hroom
      uniqueIds := by
        rw [htable, List.map_append, List.nodup_append]
        refine ⟨h.uniqueIds, List.nodup_singleton _, ?_⟩
        rintro u hu _ huid rfl
        obtain ⟨e, he, rfl⟩ := List.mem_map.mp hu
        obtain ⟨i, hi, rfl⟩ := NetworkManager.mem_newNodes.mp he
        exact hnew i hi (List.mem_singleton.mp huid)
      nodeIds := by
        rw [htable, List.map_append, List.nodup_append]
        refine ⟨h.nodeIds, List.nodup_singleton _, ?_⟩
        rintro k hk _ hkd rfl
        obtain rfl : k = d := List.mem_singleton.mp hkd
        exact hd' hk
      there := by
        intro e he
        rw [htable] at he
        rcases List.mem_append.mp he with he | he
        · obtain ⟨hk, hzero⟩ := h.there e he
          have hne : e.2 ≠ d := fun hc => hzero (hc ▸ hz)
          exact ⟨hk, by rwa [Function.update_of_ne hne]⟩
        · obtain rfl := List.mem_singleton.mp he
          exact ⟨⟨hfirst, hlast⟩, by rw [Function.update_self]; exact hpositive⟩ }

theorem remove (h : Members nw ttl) {found : Bool} (hr : networkManagerRemoveNewNodeRequest nw d = .ok (found, nw')) :
    Members { nw' with activeNodes := nodeQueueRemoveIfExists nw'.activeNodes d } (Function.update ttl d 0) := by
  have htable := networkManagerRemoveNewNodeRequest_newNodes hr
  have hactive := (networkManagerRemoveNewNodeRequest_ok hr).1
  obtain ⟨hnodup, hmem⟩ := nodup_removeIfExists d h.nodup
  have hsub : nw'.newNodes.Sublist nw.newNodes := htable ▸ List.eraseP_sublist
  have hids : nw'.newNodes.map Prod.snd = (nw.newNodes.map Prod.snd).erase d := by
    rw [htable, List.erase_eq_eraseP', List.eraseP_map]
    rfl
  exact {
    nodup := by
      rw [hactive]
      exact hnodup
    active := by
      intro k
      rw [hactive, hmem k, h.active k]
      by_cases hk : k = d
      · subst hk
        rw [Function.update_self]
        exact ⟨fun hc => absurd rfl hc.1, fun hc => absurd rfl hc.2⟩
      · rw [Function.update_of_ne hk]
        exact ⟨And.right, fun hc => ⟨hk, hc⟩⟩
    room := by
      have hle := hsub.length_le
      rw [NetworkManager.length_newNodes, NetworkManager.length_newNodes] at hle
      exact hle.trans h.room
    uniqueIds := (hsub.map _).nodup h.uniqueIds
    nodeIds := (hsub.map _).nodup h.nodeIds
    there := by
      intro e he
      obtain ⟨hk, hz⟩ := h.there e (hsub.subset he)
      have hne : e.2 ≠ d := by
        have hmem' : e.2 ∈ nw'.newNodes.map Prod.snd := List.mem_map_of_mem he
        rw [hids, h.nodeIds.mem_erase_iff] at hmem'
        exact hmem'.1
      exact ⟨hk, by rwa [Function.update_of_ne hne]⟩ }

end Members

theorem keptByNetwork_members : KeptByNetwork fun master => Members master.nwManager master.masterNodeTimeToLive where
  same h hs := by rw [hs.nwManager, hs.masterNodeTimeToLive]; exact h
  updateSchedule h hs := by
    obtain ⟨_, _, _, queues, hsame, -, rfl⟩ := masterUpdateSchedule_ok hs
    exact h.congr hsame.activeNodes (List.Sublist.refl _) (fun _ _ => Iff.rfl)
  quickRx h hq := by
    obtain ⟨rx, nw, ttl, m, rfl, hanswered, hheard, -⟩ := masterQuickRx_ok hq
    exact h.answered hanswered hheard
  rx h hr := by
    rcases masterRx_ok hr with ⟨-, rfl⟩ | ⟨_, _, _, _, _, nw, ttl, -, -, rfl, hresult⟩
    · exact h
    · cases hresult with
      | ignored _ => exact h
      | acked _ _ => exact h
      | stored _ _ _ _ _ => exact h
      | registered _ hrequest =>
          obtain ⟨_, -, hrequest⟩ := bind_eq_ok.mp hrequest
          obtain ⟨uniqueId, -, hregister⟩ := bind_eq_ok.mp hrequest
          exact h.register hregister
  updateTimeUs usIncr h := by
    rename_i master
    obtain ⟨us, ttl, heq, httl⟩ := masterUpdateTimeUs_eq master usIncr
    rw [heq]
    exact h.congr rfl (List.Sublist.refl _) (fun _ hk => CleanInv.timer_zero_iff httl hk)
  connected h := h.congr rfl (List.Sublist.refl _) (fun _ hk => CleanInv.connected_zero_iff _ hk)

theorem members_of_reachable {cfg : MasterConfig} {s : MasterRun} (h : (masterSystem cfg).Reachable s) :
    Members s.master.nwManager s.master.masterNodeTimeToLive := by
  refine keptByNetwork_members.reachable ?_ ?_ h
  · intro numTx maxTx maxRx entries master hi
    obtain ⟨rx, -, hi⟩ := bind_eq_ok.mp hi
    cases hi
    refine ⟨List.nodup_nil, ?_, Nat.zero_le _, List.nodup_nil, List.nodup_nil, fun _ he =>
      absurd he List.not_mem_nil⟩
    exact fun k => ⟨fun hc => absurd hc List.not_mem_nil, fun hc => absurd rfl hc.2⟩
  · intro master master' d k _ hm hr
    rcases masterRemoveIfTimedOut_ok hr with ⟨-, rfl⟩ | ⟨_, _, nw, _, _, -, hrequest, -, -, rfl⟩
    · exact hm
    · exact hm.remove hrequest

/-- In every run the tables of who is there agree, and a node that registers is given an id that is
in none of them. -/
theorem membership_is_consistent {cfg : MasterConfig} {s : MasterRun} (h : (masterSystem cfg).Reachable s) :
    Members s.master.nwManager s.master.masterNodeTimeToLive ∧
      ∀ (a : MasterAction cfg.mode) (m : Master), s.Processes a m → ∀ uniqueId nw ttl,
        networkManagerRegisterNewNode m.nwManager m.masterNodeTimeToLive uniqueId = .ok (nw, ttl) →
        (nw = m.nwManager ∧ ttl = m.masterNodeTimeToLive) ∨
          ∃ id, nw.newNodes = m.nwManager.newNodes ++ [(uniqueId, id)] ∧ Station id ∧
            m.masterNodeTimeToLive id = 0 ∧
            id ∉ m.nwManager.activeNodes.toList ∧ id ∉ m.nwManager.newNodes.map Prod.snd := by
  have hmembers := members_of_reachable h
  refine ⟨hmembers, ?_⟩
  intro a m hm uniqueId nw ttl hr
  have hmembers' := keptByNetwork_members.betweenTicks.processes hmembers hm
  rcases networkManagerRegisterNewNode_ok hr with ⟨rfl, rfl⟩ | ⟨active, -, -, hid, -, rfl, -⟩
  · exact Or.inl ⟨rfl, rfl⟩
  · right
    obtain ⟨hfirst, hlast, hz⟩ := getNextFreeNodeId_free hid
    obtain ⟨hactive, hnew⟩ := hmembers'.free hz
    exact ⟨_, newNodes_append _ _ _ _, ⟨hfirst, hlast⟩, hz, hactive, hnew⟩

/-- Two nodes have asked to join, and the second is given another id than the first. -/
theorem membership_is_consistent_joined : ∃ s, (masterSystem dualConfig).Reachable s ∧
    s.master.nwManager.newNodes = [(7, 1), (8, 2)] ∧ Members s.master.nwManager s.master.masterNodeTimeToLive := by
  obtain ⟨s, hrun, hnew⟩ := System.exists_of_holdsAfter
    (x := (masterSystem dualConfig).run blankRun (slot (joinFrame 7) ++ slot (joinFrame 8)))
    (p := fun s => s.master.nwManager.newNodes == [(7, 1), (8, 2)]) (by decide +kernel)
  have hs := System.Reachable.run (.init blankRun_init) hrun
  exact ⟨s, hs, beq_iff_eq.mp hnew, (membership_is_consistent hs).1⟩

end Microbus
