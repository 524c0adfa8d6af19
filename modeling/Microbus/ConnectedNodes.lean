import Microbus.Foundation.BitField
import Microbus.Membership

/-! The connected nodes as the application of the master reads them, in an array of its own. -/
namespace Microbus

open Transition

def getConnectedNodesBitFieldInto (master : Master) (connectedNodesBitfield : Nat → UInt8) :
    Except Fault (Master × (Nat → UInt8)) := do
  let masterNodeTimeToLive := Function.update master.masterNodeTimeToLive 0 1
  let connectedNodesBitfield := (List.range maxNodes).foldl (fun bitfield node =>
    if masterNodeTimeToLive (UInt8.ofNat node) > 0 then BitField.insert bitfield node else bitfield)
      connectedNodesBitfield
  let connectedNodesBitfield ← (List.range master.nwManager.numNewNodes).foldlM (fun bitfield i => do
    let node := master.nwManager.newNodeId i
    microbusAssert (node ≠ 0) .getConnectedNodesBitField
    return BitField.erase bitfield node.toNat) connectedNodesBitfield
  return ({ master with masterNodeTimeToLive }, connectedNodesBitfield)

theorem foldlM_erase_ok {ids : Nat → TNodeIndex} :
    ∀ {l : List Nat}, (∀ i ∈ l, ids i ≠ 0) → ∀ bitfield : Nat → UInt8,
    l.foldlM (fun bitfield i => do
      let node := ids i
      microbusAssert (node ≠ 0) .getConnectedNodesBitField
      return BitField.erase bitfield node.toNat) bitfield =
        .ok ((l.map fun i => (ids i).toNat).foldl BitField.erase bitfield) := by
  intro l
  induction l with
  | nil => exact fun _ _ => rfl
  | cons i l ih =>
      intro hids bitfield
      have hrest := ih (fun i' hi' => hids i' (List.mem_cons_of_mem i hi')) (BitField.erase bitfield (ids i).toNat)
      have hassert : microbusAssert (ids i ≠ 0) .getConnectedNodesBitField = .ok () :=
        microbusAssert_ok.mpr (hids i List.mem_cons_self)
      rw [List.foldlM_cons, List.map_cons, List.foldl_cons, ← hrest]
      dsimp only
      rw [hassert]
      rfl

section Connected

variable {master : Master}

def NetworkManager.newNodeIds (nw : NetworkManager) : List TNodeIndex := nw.newNodes.map Prod.snd

theorem NetworkManager.newNodeIds_toNat (nw : NetworkManager) :
    nw.newNodeIds.map UInt8.toNat = (List.range nw.numNewNodes).map fun i => (nw.newNodeId i).toNat := by
  simp [newNodeIds, newNodes]

theorem mem_newNodeIds_toNat {nw : NetworkManager} {node : Nat} (hnode : node < maxNodes) :
    node ∈ nw.newNodeIds.map UInt8.toNat ↔ UInt8.ofNat node ∈ nw.newNodeIds := by
  have hsmall : node < 256 := hnode.trans (by decide)
  constructor
  · intro h
    obtain ⟨d, hd, rfl⟩ := List.mem_map.mp h
    rwa [UInt8.ofNat_toNat]
  · intro h
    exact List.mem_map.mpr ⟨_, h, by simp [Nat.mod_eq_of_lt hsmall]⟩

theorem Members.station_of_new (h : Members master.nwManager master.masterNodeTimeToLive) :
    ∀ d ∈ master.nwManager.newNodeIds, Station d := by
  intro d hd
  obtain ⟨e, he, rfl⟩ := List.mem_map.mp hd
  exact (h.there e he).1

theorem Members.active_of_new (h : Members master.nwManager master.masterNodeTimeToLive) :
    ∀ d ∈ master.nwManager.newNodeIds, d ∈ master.nwManager.activeNodes.toList := by
  intro d hd
  obtain ⟨e, he, rfl⟩ := List.mem_map.mp hd
  exact (h.active e.2).mpr (h.there e he)

theorem Station.ne_zero {d : TNodeIndex} (h : Station d) : d ≠ 0 := by
  rintro rfl
  exact absurd h.1 (by decide)

/-- With the id of the master marked, a time to live that runs is a member's. -/
theorem Members.live_iff (h : Members master.nwManager master.masterNodeTimeToLive) {node : Nat}
    (hnode : node < maxNodes) :
    Function.update master.masterNodeTimeToLive 0 1 (UInt8.ofNat node) > 0 ↔
      UInt8.ofNat node = masterNodeId ∨ UInt8.ofNat node ∈ master.nwManager.activeNodes.toList := by
  have hsmall : node % 256 = node := Nat.mod_eq_of_lt (hnode.trans (by decide))
  have hfirst : UInt8.ofNat node = (0 : UInt8) ↔ node = 0 := by
    rw [← UInt8.toNat_inj, UInt8.toNat_ofNat', hsmall]
    rfl
  rw [h.active]
  by_cases hzero : UInt8.ofNat node = (0 : UInt8)
  · rw [hzero, Function.update_self]
    exact ⟨fun _ => Or.inl rfl, fun _ => by decide⟩
  · rw [Function.update_of_ne hzero]
    have hstation : Station (UInt8.ofNat node) := by
      unfold Station
      rw [UInt8.toNat_ofNat', hsmall]
      exact ⟨Nat.pos_of_ne_zero fun hc => hzero (hfirst.mpr hc), hnode⟩
    constructor
    · exact fun hlive => Or.inr ⟨hstation, Nat.ne_of_gt hlive⟩
    · rintro (hc | ⟨-, hlive⟩)
      · exact absurd hc hzero
      · exact Nat.pos_of_ne_zero hlive

/-- The call in a state with consistent tables: which bits it leaves in the array, and how far it writes. -/
theorem Members.getConnectedNodes_into (h : Members master.nwManager master.masterNodeTimeToLive)
    (bitfield : Nat → UInt8) :
    ∃ bytes, getConnectedNodesBitFieldInto master bitfield =
        .ok ({ master with masterNodeTimeToLive := Function.update master.masterNodeTimeToLive 0 1 }, bytes) ∧
      (∀ node < maxNodes, BitField.contains bytes node = true ↔
        (BitField.contains bitfield node = true ∨ UInt8.ofNat node = masterNodeId ∨
          UInt8.ofNat node ∈ master.nwManager.activeNodes.toList) ∧
            UInt8.ofNat node ∉ master.nwManager.newNodeIds) ∧
      ∀ i, maxNodes / 8 ≤ i → bytes i = bitfield i := by
  have hrows : ∀ i ∈ List.range master.nwManager.numNewNodes, Station (master.nwManager.newNodeId i) := by
    intro i hi
    apply h.station_of_new
    rw [NetworkManager.newNodeIds, NetworkManager.newNodes, List.map_map]
    exact List.mem_map.mpr ⟨i, hi, rfl⟩
  refine ⟨_, bind_eq_ok.mpr ⟨_, foldlM_erase_ok (fun i hi => (hrows i hi).ne_zero) _, rfl⟩, fun node hnode => ?_,
    fun i hi => ?_⟩
  · rw [BitField.contains_foldl_erase, BitField.contains_foldl_insert, ← NetworkManager.newNodeIds_toNat,
      mem_newNodeIds_toNat hnode, h.live_iff hnode]
    refine and_congr_left fun _ => or_congr_right ?_
    exact ⟨And.right, fun hc => ⟨List.mem_range.mpr hnode, hc⟩⟩
  · rw [BitField.foldl_erase_apply_of_le _ ?_ hi, BitField.foldl_insert_apply_of_le _ _ ?_ hi]
    · intro node hnode
      exact (List.mem_range.mp hnode).trans_le (by decide)
    · intro node hnode
      obtain ⟨k, hk, rfl⟩ := List.mem_map.mp hnode
      exact (hrows k hk).2

/-- The model's answer is what the call writes in an array that holds no bit yet. -/
theorem getConnectedNodesBitField_eq (h : Members master.nwManager master.masterNodeTimeToLive)
    {bitfield bytes : Nat → UInt8} {master' : Master} (hzero : ∀ i < maxNodes / 8, bitfield i = 0)
    (hinto : getConnectedNodesBitFieldInto master bitfield = .ok (master', bytes)) :
    getConnectedNodesBitField master = .ok (master', fun node => node < maxNodes && BitField.contains bytes node) := by
  obtain ⟨bytes', hinto', hbits, -⟩ := h.getConnectedNodes_into bitfield
  obtain ⟨rfl, rfl⟩ := Prod.mk.inj (Except.ok.inj (hinto'.symm.trans hinto))
  have hids : (List.range master.nwManager.numNewNodes).map master.nwManager.newNodeId =
    master.nwManager.newNodeIds := by
    simp [NetworkManager.newNodeIds, NetworkManager.newNodes]
  unfold getConnectedNodesBitField
  dsimp only
  rw [hids]
  refine bind_eq_ok.mpr ⟨(), microbusAssert_ok.mpr fun d hd => (h.station_of_new d hd).ne_zero, ?_⟩
  refine congrArg Except.ok (Prod.ext rfl (funext fun node => ?_))
  by_cases hnode : node < maxNodes
  · have hbit := BitField.contains_of_zero (hzero (node / 8) (Nat.div_lt_of_lt_mul hnode))
    rw [Bool.eq_iff_iff, decide_eq_true_iff, Bool.and_eq_true, decide_eq_true_iff, hbits node hnode,
      h.live_iff hnode, hbit]
    simp
  · simp [hnode]

/-- The bits that are set in a cleared array: one for the master and one for each member that is not in the
table of new nodes. -/
theorem Members.count_connected (h : Members master.nwManager master.masterNodeTimeToLive) {p : Nat → Bool}
    (hp : ∀ node < maxNodes, p node = true ↔ (UInt8.ofNat node = masterNodeId ∨
      UInt8.ofNat node ∈ master.nwManager.activeNodes.toList) ∧ UInt8.ofNat node ∉ master.nwManager.newNodeIds) :
    (List.range maxNodes).countP p + master.nwManager.newNodes.length =
    master.nwManager.activeNodes.toList.length + 1 := by
  have hmaster : masterNodeId ∉ master.nwManager.activeNodes.toList := fun hc => ((h.active _).mp hc).1.ne_zero rfl
  have hnodup : (((List.range maxNodes).filter p).map UInt8.ofNat).Nodup := by
    refine List.Nodup.map_on ?_ (List.nodup_range.filter p)
    intro i hi j hj heq
    have hlt : ∀ k ∈ (List.range maxNodes).filter p, k < 256 := fun k hk =>
      (List.mem_range.mp (List.mem_filter.mp hk).1).trans (by decide)
    have hnat := congrArg UInt8.toNat heq
    rwa [UInt8.toNat_ofNat', UInt8.toNat_ofNat', Nat.mod_eq_of_lt (hlt i hi), Nat.mod_eq_of_lt (hlt j hj)] at hnat
  have hmem : ∀ d, d ∈ ((List.range maxNodes).filter p).map UInt8.ofNat ↔
      (d = masterNodeId ∨ d ∈ master.nwManager.activeNodes.toList) ∧ d ∉ master.nwManager.newNodeIds := by
    intro d
    constructor
    · intro hd
      obtain ⟨node, hnode, rfl⟩ := List.mem_map.mp hd
      obtain ⟨hrange, hpnode⟩ := List.mem_filter.mp hnode
      exact (hp node (List.mem_range.mp hrange)).mp hpnode
    · intro hd
      have hlt : d.toNat < maxNodes := by
        rcases hd.1 with rfl | hactive
        · decide
        · exact ((h.active d).mp hactive).1.2
      refine List.mem_map.mpr ⟨d.toNat, List.mem_filter.mpr ⟨List.mem_range.mpr hlt, ?_⟩, UInt8.ofNat_toNat⟩
      rw [hp _ hlt, UInt8.ofNat_toNat]
      exact hd
  have hperm : (((List.range maxNodes).filter p).map UInt8.ofNat ++ master.nwManager.newNodeIds).Perm
      (masterNodeId :: master.nwManager.activeNodes.toList) := by
    refine (List.perm_ext_iff_of_nodup ?_ (List.nodup_cons.mpr ⟨hmaster, h.nodup⟩)).mpr fun d => ?_
    · exact hnodup.append h.nodeIds fun d hd hnew => ((hmem d).mp hd).2 hnew
    · rw [List.mem_append, hmem, List.mem_cons]
      constructor
      · rintro (hd | hd)
        · exact hd.1
        · exact Or.inr (h.active_of_new d hd)
      · intro hd
        by_cases hnew : d ∈ master.nwManager.newNodeIds
        · exact Or.inr hnew
        · exact Or.inl ⟨hd, hnew⟩
  have hlength := hperm.length_eq
  rw [List.length_append, List.length_map, List.length_cons, ← List.countP_eq_length_filter] at hlength
  rwa [NetworkManager.newNodeIds, List.length_map] at hlength

end Connected

/-- In every reachable state the call completes and touches no byte behind the bit field. A bit that is set
afterwards was set before, or stands for the master or a member, and never for a node that has not sent since it
was registered. In an array that was cleared there is one bit for the master and one for each other member. -/
theorem connected_nodes_are_read {cfg : MasterConfig} {s : MasterRun} (h : (masterSystem cfg).Reachable s)
    (bitfield : Nat → UInt8) :
    ∃ master bytes, getConnectedNodesBitFieldInto s.master bitfield = .ok (master, bytes) ∧
      (∀ node < maxNodes, BitField.contains bytes node = true ↔
        (BitField.contains bitfield node = true ∨ UInt8.ofNat node = masterNodeId ∨
          UInt8.ofNat node ∈ s.master.nwManager.activeNodes.toList) ∧
            UInt8.ofNat node ∉ s.master.nwManager.newNodeIds) ∧
      (∀ i, maxNodes / 8 ≤ i → bytes i = bitfield i) ∧
      ((∀ i < maxNodes / 8, bitfield i = 0) →
        getConnectedNodesBitField s.master = .ok
          (master, fun node => node < maxNodes && BitField.contains bytes node) ∧
        (List.range maxNodes).countP (BitField.contains bytes) + s.master.nwManager.newNodes.length =
          s.master.nwManager.activeNodes.toList.length + 1) := by
  have hmembers := members_of_reachable h
  obtain ⟨bytes, hinto, hbits, hbehind⟩ := hmembers.getConnectedNodes_into bitfield
  refine ⟨_, bytes, hinto, hbits, hbehind, fun hzero => ⟨getConnectedNodesBitField_eq hmembers hzero hinto, ?_⟩⟩
  refine hmembers.count_connected fun node hnode => ?_
  have hbit := BitField.contains_of_zero (hzero (node / 8) (Nat.div_lt_of_lt_mul hnode))
  rw [hbits node hnode, hbit]
  simp

/-- Two nodes have asked and neither has sent: only the master is connected. -/
theorem connected_nodes_are_read_joined : ∃ s master bytes, (masterSystem dualConfig).Reachable s ∧
    s.master.nwManager.newNodes = [(7, 1), (8, 2)] ∧
    getConnectedNodesBitFieldInto s.master (fun _ => 0) = .ok (master, bytes) ∧ BitField.contains bytes 0 = true ∧
    (List.range maxNodes).countP (BitField.contains bytes) = 1 := by
  obtain ⟨s, hrun, hnew⟩ := System.exists_of_holdsAfter
    (x := (masterSystem dualConfig).run blankRun (slot (joinFrame 7) ++ slot (joinFrame 8)))
    (p := fun s => s.master.nwManager.newNodes == [(7, 1), (8, 2)] && s.master.nwManager.activeNodes.toList.length == 2)
    (by decide +kernel)
  have hs := System.Reachable.run (.init blankRun_init) hrun
  obtain ⟨master, bytes, hinto, hbits, -, hcount⟩ := connected_nodes_are_read hs fun _ => 0
  obtain ⟨-, hcount⟩ := hcount fun _ _ => rfl
  simp only [beq_iff_eq, Bool.and_eq_true] at hnew
  have hids : s.master.nwManager.newNodeIds = [1, 2] := by
    rw [NetworkManager.newNodeIds, hnew.1]
    rfl
  refine ⟨s, master, bytes, hs, hnew.1, hinto,
    (hbits 0 (by decide)).mpr ⟨Or.inr (Or.inl rfl), by rw [hids]; decide⟩, ?_⟩
  rw [hnew.1, hnew.2] at hcount
  exact Nat.add_right_cancel hcount

end Microbus
