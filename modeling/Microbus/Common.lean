import Microbus.Types
import Microbus.Foundation.Transition
import Mathlib.Data.List.Basic

/-! `common.c`: the node queues. -/
namespace Microbus

/-- `tNodeQueue` -/
structure NodeQueue where
  nodeIds : Nat → TNodeIndex
  numNodes : Nat
  lastIndex : Nat

namespace NodeQueue

def empty : NodeQueue := ⟨fun _ => 0, 0, 0⟩

def toList (q : NodeQueue) : List TNodeIndex := (List.range q.numNodes).map q.nodeIds

end NodeQueue

def nodeQueueAdd (queue : NodeQueue) (nodeId : TNodeIndex) : Except Fault NodeQueue :=
  if queue.numNodes < maxNodes then
    if (List.range queue.numNodes).any (fun i => queue.nodeIds i == nodeId) then
      .ok queue
    else
      .ok { queue with
        nodeIds := Function.update queue.nodeIds queue.numNodes nodeId
        numNodes := queue.numNodes + 1 }
  else
    .error (.assertFailed .nodeQueueAdd)

/-- `for (j=i; j<numNodes-1; j++) nodeIds[j] = nodeIds[j+1]` -/
def shiftDown (nodeIds : Nat → TNodeIndex) (i numNodes : Nat) : Nat → TNodeIndex :=
  (List.range' i (numNodes - 1 - i)).foldl (fun ids j => Function.update ids j (ids (j + 1))) nodeIds

def nodeQueueRemoveIfExists (queue : NodeQueue) (nodeId : TNodeIndex) : NodeQueue :=
  match (List.range queue.numNodes).find? (fun i => queue.nodeIds i == nodeId) with
  | none => queue
  | some i =>
      let numNodes := queue.numNodes - 1
      { nodeIds := shiftDown queue.nodeIds i queue.numNodes
        numNodes
        lastIndex := if queue.lastIndex ≥ numNodes then 0 else queue.lastIndex }

def nodeQueueRemove (queue : NodeQueue) (nodeId : TNodeIndex) : Except Fault NodeQueue := do
  let prevNum := queue.numNodes
  microbusAssert (queue.numNodes > 0) .nodeQueueRemove
  let queue := nodeQueueRemoveIfExists queue nodeId
  microbusAssert (prevNum = queue.numNodes + 1) .nodeQueueRemove
  return queue

/-- Returns the picked id and the queue with its cursor advanced. -/
def getNextNodeInQueue (queue : NodeQueue) : TNodeIndex × NodeQueue :=
  let node := queue.nodeIds queue.lastIndex
  let lastIndex := queue.lastIndex + 1
  (node, { queue with lastIndex := if lastIndex ≥ queue.numNodes then 0 else lastIndex })

open Transition

theorem microbusAssert_ok {p : Prop} [Decidable p] {s : Site} {u : Unit} :
    microbusAssert p s = .ok u ↔ p := by
  by_cases h : p <;> simp [microbusAssert, h]

theorem checkIndex_ok {size : Nat} {i : TNodeIndex} {s : Site} {u : Unit} :
    checkIndex size i s = .ok u ↔ i.toNat < size := by
  by_cases h : i.toNat < size <;> simp [checkIndex, h]

namespace NodeQueue

@[simp] theorem length_toList (q : NodeQueue) : q.toList.length = q.numNodes := by simp [toList]

@[simp] theorem toList_empty : empty.toList = [] := rfl

theorem mem_toList {q : NodeQueue} {d : TNodeIndex} :
    d ∈ q.toList ↔ ∃ i < q.numNodes, q.nodeIds i = d := by
  simp [toList]

theorem getElem?_toList (q : NodeQueue) (i : Nat) :
    q.toList[i]? = if i < q.numNodes then some (q.nodeIds i) else none := by
  by_cases h : i < q.numNodes
  · simp [toList, h]
  · simp [toList, h]

theorem nodeIds_mem {q : NodeQueue} {i : Nat} (h : i < q.numNodes) : q.nodeIds i ∈ q.toList :=
  mem_toList.mpr ⟨i, h, rfl⟩

/-- Two queues with the same list and cursor are walked alike. -/
theorem any_eq_mem (q : NodeQueue) (d : TNodeIndex) :
    (List.range q.numNodes).any (fun i => q.nodeIds i == d) = true ↔ d ∈ q.toList := by
  simp [mem_toList]

end NodeQueue

theorem nodeQueueAdd_ok {q q' : NodeQueue} {d : TNodeIndex} (h : nodeQueueAdd q d = .ok q') :
    q'.toList = (if d ∈ q.toList then q.toList else q.toList ++ [d]) ∧ q'.lastIndex = q.lastIndex := by
  unfold nodeQueueAdd at h
  by_cases hlt : q.numNodes < maxNodes
  · rw [if_pos hlt] at h
    by_cases hd : d ∈ q.toList
    · rw [if_pos ((q.any_eq_mem d).mpr hd)] at h
      cases h
      exact ⟨by rw [if_pos hd], rfl⟩
    · rw [if_neg (fun hc => hd ((q.any_eq_mem d).mp hc))] at h
      cases h
      refine ⟨?_, rfl⟩
      rw [if_neg hd]
      simp only [NodeQueue.toList, List.range_succ, List.map_append, List.map_cons, List.map_nil,
        Function.update_self]
      congr 1
      apply List.map_congr_left
      intro i hi
      have : i ≠ q.numNodes := (List.mem_range.mp hi).ne
      rw [Function.update_of_ne this]
  · rw [if_neg hlt] at h
    cases h

theorem nodeQueueAdd_total {q : NodeQueue} (d : TNodeIndex) (h : q.numNodes < maxNodes) :
    ∃ q', nodeQueueAdd q d = .ok q' := by
  unfold nodeQueueAdd
  rw [if_pos h]
  split <;> exact ⟨_, rfl⟩

/-- A loop that copies entry `j + 1` to `j` moves the entries behind `i` down by one. -/
theorem foldl_moveDown {α : Type*} (ids : Nat → α) (i len k : Nat) :
    (List.range' i len).foldl (fun ids j => Function.update ids j (ids (j + 1))) ids k =
      if i ≤ k ∧ k < i + len then ids (k + 1) else ids k := by
  induction len generalizing k with
  | zero =>
      rw [if_neg (by omega)]
      rfl
  | succ len ih =>
      rw [List.range'_concat, List.foldl_append]
      simp only [List.foldl_cons, List.foldl_nil, Nat.one_mul]
      by_cases hk : k = i + len
      · subst hk
        rw [Function.update_self, ih, if_neg (by omega), if_pos (by omega)]
      · rw [Function.update_of_ne hk, ih]
        by_cases hr : i ≤ k ∧ k < i + len
        · rw [if_pos hr, if_pos (by omega)]
        · rw [if_neg hr, if_neg (by omega)]

theorem shiftDown_apply (ids : Nat → TNodeIndex) (i n k : Nat) :
    shiftDown ids i n k = if i ≤ k ∧ k + 1 < n then ids (k + 1) else ids k := by
  unfold shiftDown
  rw [foldl_moveDown]
  by_cases hr : i ≤ k ∧ k + 1 < n
  · rw [if_pos hr, if_pos (by omega)]
  · rw [if_neg hr, if_neg (by omega)]

theorem toList_removeIfExists (q : NodeQueue) (d : TNodeIndex) :
    (nodeQueueRemoveIfExists q d).toList = q.toList.erase d := by
  unfold nodeQueueRemoveIfExists
  cases hf : (List.range q.numNodes).find? (fun i => q.nodeIds i == d) with
  | none =>
      rw [List.find?_range_eq_none] at hf
      have hd : d ∉ q.toList := by
        intro hd
        obtain ⟨i, hi, rfl⟩ := NodeQueue.mem_toList.mp hd
        simpa using hf i hi
      exact (List.erase_of_not_mem hd).symm
  | some i =>
      obtain ⟨hp, hi, hmin⟩ := List.find?_range_eq_some.mp hf
      have hi' : i < q.numNodes := List.mem_range.mp hi
      have hlen : i < q.toList.length := by rw [NodeQueue.length_toList]; exact hi'
      have hidx : q.toList.idxOf? d = some i := by
        refine List.idxOf?_eq_some_iff.mpr ⟨hlen, ?_, ?_⟩
        · simpa [NodeQueue.toList] using hp
        · intro j hj
          simpa [NodeQueue.toList] using hmin j hj
      rw [List.erase_eq_eraseIdx, hidx]
      apply List.ext_getElem?
      intro k
      rw [List.getElem?_eraseIdx]
      simp only [NodeQueue.getElem?_toList, shiftDown_apply]
      by_cases hk : k < i
      · rw [if_pos hk, if_pos (by omega), if_neg (by omega), if_pos (by omega)]
      · rw [if_neg hk]
        by_cases hk' : k + 1 < q.numNodes
        · rw [if_pos (by omega), if_pos hk', if_pos (by omega)]
        · rw [if_neg (by omega), if_neg hk']

theorem numNodes_eq_length (q : NodeQueue) : q.numNodes = q.toList.length :=
  q.length_toList.symm

theorem nodeQueueRemove_total {q : NodeQueue} {d : TNodeIndex} (h : d ∈ q.toList) :
    nodeQueueRemove q d = .ok (nodeQueueRemoveIfExists q d) := by
  have hpos : 0 < q.numNodes := by
    rw [numNodes_eq_length]
    exact List.length_pos_of_mem h
  have hlen : q.numNodes = (nodeQueueRemoveIfExists q d).numNodes + 1 := by
    rw [numNodes_eq_length, numNodes_eq_length, toList_removeIfExists, List.length_erase_of_mem h]
    have := List.length_pos_of_mem h
    omega
  simp [nodeQueueRemove, microbusAssert, hpos, ← hlen]
  rfl

theorem nodeQueueRemove_mem {q q' : NodeQueue} {d : TNodeIndex} (h : nodeQueueRemove q d = .ok q') :
    d ∈ q.toList := by
  -- the removal asserts that the queue got shorter
  by_contra hc
  obtain ⟨_, -, h⟩ := bind_eq_ok.mp h
  obtain ⟨_, hshort, -⟩ := bind_eq_ok.mp h
  have hshort' := microbusAssert_ok.mp hshort
  rw [numNodes_eq_length, numNodes_eq_length, toList_removeIfExists, List.erase_of_not_mem hc] at hshort'
  omega

theorem nodeQueueRemove_ok {q q' : NodeQueue} {d : TNodeIndex} (h : nodeQueueRemove q d = .ok q') :
    q' = nodeQueueRemoveIfExists q d := by
  unfold nodeQueueRemove at h
  obtain ⟨-, -, h⟩ := bind_eq_ok.mp h
  obtain ⟨-, -, h⟩ := bind_eq_ok.mp h
  exact (pure_eq_ok.mp h).symm

@[simp] theorem toList_getNextNodeInQueue (q : NodeQueue) : (getNextNodeInQueue q).2.toList = q.toList := rfl

end Microbus
