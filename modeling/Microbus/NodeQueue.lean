import Microbus.Foundation.Rotation
import Microbus.NodeLevels

/-! Runs of a node queue: the list that it holds, and the turns of its members. -/
namespace Microbus

open Transition

namespace NodeQueue

/-- The cursor is on an entry or at the start. -/
def CursorOk (q : NodeQueue) : Prop := q.lastIndex < q.numNodes ∨ q.lastIndex = 0

/-- Every member is there once, and the cursor is on one of them. -/
structure WellFormed (q : NodeQueue) : Prop where
  nodup : q.toList.Nodup
  cursor : q.CursorOk

def rotation (q : NodeQueue) : Rotation TNodeIndex := ⟨q.toList.drop q.lastIndex, q.toList.take q.lastIndex⟩

variable {q q' : NodeQueue} {d : TNodeIndex}

theorem rotation_congr (hlist : q'.toList = q.toList) (hcursor : q'.lastIndex = q.lastIndex) :
    q'.rotation = q.rotation := by
  simp [rotation, hlist, hcursor]

theorem order_perm (q : NodeQueue) : q.rotation.order.Perm q.toList := by
  have h : (q.toList.drop q.lastIndex ++ q.toList.take q.lastIndex).Perm
      (q.toList.take q.lastIndex ++ q.toList.drop q.lastIndex) := List.perm_append_comm
  rwa [List.take_append_drop] at h

theorem ahead_eq (h : q.CursorOk) (hpos : 0 < q.numNodes) :
    q.rotation.ahead = (getNextNodeInQueue q).1 :: q.toList.drop (q.lastIndex + 1) := by
  have hlt : q.lastIndex < q.toList.length := by
    rw [length_toList]
    rcases h with h | h <;> omega
  have hget : q.toList[q.lastIndex] = q.nodeIds q.lastIndex := by simp [toList]
  simp only [rotation, List.drop_eq_getElem_cons hlt, hget]
  rfl

theorem rotation_getNext (h : q.CursorOk) (hpos : 0 < q.numNodes) :
    (getNextNodeInQueue q).2.rotation = q.rotation.turn := by
  have hlt : q.lastIndex < q.toList.length := by
    rw [length_toList]
    rcases h with h | h <;> omega
  have hget : q.toList[q.lastIndex] = q.nodeIds q.lastIndex := by simp [toList]
  have htake : q.toList.take q.lastIndex ++ [q.nodeIds q.lastIndex] = q.toList.take (q.lastIndex + 1) := by
    rw [List.take_succ_eq_append_getElem hlt, hget]
  rw [Rotation.turn, ahead_eq h hpos]
  simp only [Rotation.renew, List.drop_eq_nil_iff, length_toList]
  by_cases hend : q.lastIndex + 1 ≥ q.numNodes
  · have hall : q.toList.take (q.lastIndex + 1) = q.toList := by
      apply List.take_of_length_le
      rw [length_toList]
      exact hend
    rw [if_pos hend]
    change Rotation.mk (List.drop (if _ then 0 else _) q.toList) (List.take (if _ then 0 else _) q.toList) = _
    rw [if_pos hend]
    simp only [List.drop_zero, List.take_zero, Rotation.mk.injEq, and_true]
    exact (htake.trans hall).symm
  · rw [if_neg hend]
    change Rotation.mk (List.drop (if _ then 0 else _) q.toList) (List.take (if _ then 0 else _) q.toList) = _
    rw [if_neg hend]
    exact congrArg _ htake.symm

theorem cursorOk_getNext (q : NodeQueue) : (getNextNodeInQueue q).2.CursorOk := by
  unfold CursorOk getNextNodeInQueue
  dsimp only
  split
  · exact Or.inr rfl
  · exact Or.inl (by omega)

theorem WellFormed.getNext (h : q.WellFormed) : (getNextNodeInQueue q).2.WellFormed :=
  ⟨h.nodup, cursorOk_getNext q⟩

theorem rotation_add (h : q.CursorOk) (hadd : nodeQueueAdd q d = .ok q') (hd : d ∉ q.toList) :
    q'.rotation = q.rotation.add d := by
  obtain ⟨hlist, hcursor⟩ := nodeQueueAdd_ok hadd
  have hle : q.lastIndex ≤ q.toList.length := by
    rw [length_toList]
    rcases h with h | h <;> omega
  rw [if_neg hd] at hlist
  simp [rotation, Rotation.add, hlist, hcursor, List.drop_append_of_le_length hle, List.take_append_of_le_length hle]

theorem WellFormed.add (h : q.WellFormed) (hadd : nodeQueueAdd q d = .ok q') : q'.WellFormed := by
  obtain ⟨hlist, hcursor⟩ := nodeQueueAdd_ok hadd
  have hle : q.numNodes ≤ q'.numNodes := by
    rw [numNodes_eq_length, numNodes_eq_length, hlist]
    split
    · exact Nat.le_refl _
    · simp
  refine ⟨(nodup_nodeQueueAdd hadd h.nodup).1, ?_⟩
  unfold CursorOk
  rw [hcursor]
  exact h.cursor.imp_left (Nat.lt_of_lt_of_le · hle)

theorem removeIfExists_of_notMem (hd : d ∉ q.toList) : nodeQueueRemoveIfExists q d = q := by
  have hfind : (List.range q.numNodes).find? (fun i => q.nodeIds i == d) = none := by
    rw [List.find?_range_eq_none]
    intro i hi
    have hne : q.nodeIds i ≠ d := fun hc => hd (hc ▸ nodeIds_mem (List.mem_range.mp (List.mem_range.mpr hi)))
    simpa using hne
  simp [nodeQueueRemoveIfExists, hfind]

/-- A removal takes the cursor back to the start if it falls off the end. -/
theorem lastIndex_removeIfExists (hd : d ∈ q.toList) : (nodeQueueRemoveIfExists q d).lastIndex =
    if q.lastIndex ≥ q.numNodes - 1 then 0 else q.lastIndex := by
  unfold nodeQueueRemoveIfExists
  cases hfind : (List.range q.numNodes).find? (fun i => q.nodeIds i == d) with
  | none =>
      obtain ⟨i, hi, hid⟩ := mem_toList.mp hd
      rw [List.find?_range_eq_none] at hfind
      simpa [hid] using hfind i hi
  | some i => rfl

theorem numNodes_removeIfExists (hd : d ∈ q.toList) : (nodeQueueRemoveIfExists q d).numNodes = q.numNodes - 1 := by
  rw [numNodes_eq_length, toList_removeIfExists, List.length_erase_of_mem hd, length_toList]

theorem WellFormed.removeIfExists (h : q.WellFormed) (d : TNodeIndex) : (nodeQueueRemoveIfExists q d).WellFormed := by
  refine ⟨(nodup_removeIfExists d h.nodup).1, ?_⟩
  by_cases hd : d ∈ q.toList
  · unfold CursorOk
    rw [lastIndex_removeIfExists hd, numNodes_removeIfExists hd]
    split
    · exact Or.inr rfl
    · exact Or.inl (by omega)
  · rw [removeIfExists_of_notMem hd]
    exact h.cursor

/-- The removal does not take out an entry in front of the cursor, unless one entry is left. -/
def KeepsTurns (q : NodeQueue) (d : TNodeIndex) : Prop := d ∈ q.toList.take q.lastIndex → q.numNodes ≤ 2

instance (q : NodeQueue) (d : TNodeIndex) : Decidable (q.KeepsTurns d) := by
  unfold KeepsTurns
  infer_instance

/-- An entry in front of the cursor that may go is the only one there. -/
theorem KeepsTurns.alone (hkeeps : q.KeepsTurns d) (hcursor : q.CursorOk) (hd : d ∈ q.rotation.behind) :
    q.rotation.behind = [d] := by
  have hfew : q.numNodes ≤ 2 := hkeeps hd
  have hpos := List.length_pos_of_mem hd
  simp only [rotation, List.length_take, length_toList] at hpos
  have hlen : q.rotation.behind.length = 1 := by
    simp only [rotation, List.length_take, length_toList]
    rcases hcursor with h | h <;> omega
  obtain ⟨x, hx⟩ := List.length_eq_one_iff.mp hlen
  rw [hx, List.mem_singleton] at hd
  rw [hx, hd]

/-- Such a removal leaves the others in their order. -/
theorem rotation_removeIfExists (h : q.WellFormed) (hd : d ∈ q.toList) (hkeeps : q.KeepsTurns d) :
    (nodeQueueRemoveIfExists q d).rotation = q.rotation.remove d := by
  have hsplit : q.toList = q.rotation.behind ++ q.rotation.ahead := (List.take_append_drop q.lastIndex q.toList).symm
  have hpos : 0 < q.numNodes := by
    rw [numNodes_eq_length]
    exact List.length_pos_of_mem hd
  have hlt : q.lastIndex < q.numNodes := by
    rcases h.cursor with h | h <;> omega
  have hbehind : q.rotation.behind.length = q.lastIndex := by
    simp only [rotation, List.length_take, length_toList]
    omega
  have hcount : q.numNodes = q.rotation.behind.length + q.rotation.ahead.length := by
    rw [← length_toList, ← List.length_append, ← hsplit]
  have hnodup := h.nodup
  have halone := hkeeps.alone h.cursor
  have hfew : d ∈ q.rotation.behind → q.numNodes ≤ 2 := hkeeps
  have hrotation : (nodeQueueRemoveIfExists q d).rotation =
      Rotation.mk ((q.toList.erase d).drop (if q.lastIndex ≥ q.numNodes - 1 then 0 else q.lastIndex))
        ((q.toList.erase d).take (if q.lastIndex ≥ q.numNodes - 1 then 0 else q.lastIndex)) := by
    rw [rotation, toList_removeIfExists, lastIndex_removeIfExists hd]
  rw [hrotation]
  rw [hsplit] at hd hnodup ⊢
  unfold Rotation.remove
  generalize q.rotation.behind = behind at *
  generalize q.rotation.ahead = ahead at *
  by_cases hin : d ∈ behind
  · -- two entries, of which the one under the cursor stays
    obtain rfl := halone hin
    have hone : ahead.length = 1 := by
      have := hfew hin
      simp only [List.length_singleton] at hbehind hcount
      omega
    obtain ⟨y, rfl⟩ := List.length_eq_one_iff.mp hone
    have hne : y ≠ d := by simpa [eq_comm] using hnodup
    simp only [List.length_singleton] at hbehind hcount
    have hwrap : q.lastIndex ≥ q.numNodes - 1 := by omega
    simp [hwrap, hne, Rotation.renew]
  · have hout : (behind ++ ahead).erase d = behind ++ ahead.erase d := List.erase_append_right _ hin
    have hahead : d ∈ ahead := (List.mem_append.mp hd).resolve_left hin
    have hlen := List.length_erase_of_mem hahead
    have hpos' := List.length_pos_of_mem hahead
    rw [hout, List.erase_of_not_mem hin, ← hbehind, hcount]
    by_cases hnil : ahead.erase d = []
    · rw [hnil, List.length_nil] at hlen
      rw [if_pos (by omega)]
      simp [hnil, Rotation.renew]
    · have hlen' := List.length_pos_iff.mpr hnil
      rw [if_neg (by omega)]
      simp [hnil, Rotation.renew]

/-- Any other removal passes over the entry that was next. -/
theorem next_removeIfExists_ne (h : q.WellFormed) (hkeeps : ¬ q.KeepsTurns d) :
    (getNextNodeInQueue (nodeQueueRemoveIfExists q d)).1 ≠ (getNextNodeInQueue q).1 := by
  obtain ⟨hin, hmany⟩ := Classical.not_imp.mp hkeeps
  have hd : d ∈ q.toList := List.mem_of_mem_take hin
  have hlt : q.lastIndex < q.numNodes := by
    rcases h.cursor with h | h <;> omega
  have hfront : (q.toList.take q.lastIndex).length = q.lastIndex := by
    rw [List.length_take, length_toList]
    omega
  have hlen := List.length_erase_of_mem hin
  have hpos := List.length_pos_of_mem hin
  rw [hfront] at hlen hpos
  have hwf := h.removeIfExists d
  have hcursor := lastIndex_removeIfExists hd
  have hcount := numNodes_removeIfExists hd
  -- the entry that was next is now in front of the cursor's old place
  have hplace : (nodeQueueRemoveIfExists q d).toList[q.lastIndex - 1]? = some (getNextNodeInQueue q).1 := by
    have hsplit : q.toList.erase d = (q.toList.take q.lastIndex).erase d ++ q.toList.drop q.lastIndex := by
      rw [← List.erase_append_left _ hin, List.take_append_drop]
    rw [toList_removeIfExists, hsplit, List.getElem?_append_right (by omega), hlen, Nat.sub_self, List.getElem?_drop,
      Nat.add_zero, getElem?_toList, if_pos hlt]
    rfl
  generalize nodeQueueRemoveIfExists q d = q' at *
  have hlt' : q'.lastIndex < q'.numNodes := by
    rcases hwf.cursor with h | h <;> omega
  have hnext : q'.toList[q'.lastIndex]? = some (getNextNodeInQueue q').1 := by
    rw [getElem?_toList, if_pos hlt']
    rfl
  intro heq
  rw [heq, ← hplace] at hnext
  have hsame : q'.lastIndex = q.lastIndex - 1 := by
    apply (List.getElem?_inj _ hwf.nodup).mp hnext
    rwa [length_toList]
  rw [hcursor] at hsame
  split at hsame <;> omega

end NodeQueue

inductive QueueAction
  | add (nodeId : TNodeIndex)
  | removeIfExists (nodeId : TNodeIndex)
  | remove (nodeId : TNodeIndex)
  | getNext
  deriving DecidableEq, Repr

/-- The id that a call picked, and the members after the call. -/
structure QueueEvent where
  picked : Option TNodeIndex
  nodes : List TNodeIndex
  deriving DecidableEq, Repr

/-- A queue with the calls made so far, the latest first. -/
structure QueueRun where
  queue : NodeQueue
  history : List QueueEvent

namespace QueueRun

def record (s : QueueRun) (picked : Option TNodeIndex) (queue : NodeQueue) : QueueRun where
  queue := queue
  history := ⟨picked, queue.toList⟩ :: s.history

def step (s : QueueRun) : QueueAction → Except Fault QueueRun
  | .add nodeId => do
      let queue ← nodeQueueAdd s.queue nodeId
      return s.record none queue
  | .removeIfExists nodeId => .ok (s.record none (nodeQueueRemoveIfExists s.queue nodeId))
  | .remove nodeId => do
      let queue ← nodeQueueRemove s.queue nodeId
      return s.record none queue
  | .getNext =>
      let (node, queue) := getNextNodeInQueue s.queue
      .ok (s.record (some node) queue)

end QueueRun

def queueSystem (start : NodeQueue → Prop) : System QueueRun QueueAction Fault where
  init s := start s.queue ∧ s.history = []
  step := QueueRun.step

namespace QueueAction

/-- What a call does to the list of members. -/
def effect : QueueAction → List TNodeIndex → List TNodeIndex
  | .add nodeId, ids => if nodeId ∈ ids then ids else ids ++ [nodeId]
  | .removeIfExists nodeId, ids => ids.erase nodeId
  | .remove nodeId, ids => ids.erase nodeId
  | .getNext, ids => ids

/-- The ids are node ids, `nodeQueueRemove` is asked for a member, and there is a member to pick. -/
def Admissible : QueueAction → List TNodeIndex → Prop
  | .add nodeId, _ => Station nodeId
  | .removeIfExists nodeId, _ => Station nodeId
  | .remove nodeId, ids => nodeId ∈ ids
  | .getNext, ids => ids ≠ []

/-- Every call is admissible when its turn comes. -/
def AllAdmissible : List QueueAction → List TNodeIndex → Prop
  | [], _ => True
  | a :: as, ids => a.Admissible ids ∧ AllAdmissible as (a.effect ids)

end QueueAction

/-- The queue holds the list, and all picks were of members. -/
structure QueueRun.HoldsList (s : QueueRun) (ids : List TNodeIndex) : Prop where
  list : s.queue.toList = ids
  wellFormed : s.queue.WellFormed
  stations : ∀ d ∈ ids, Station d
  picks : ∀ e ∈ s.history, ∀ d, e.picked = some d → d ∈ e.nodes

namespace QueueRun.HoldsList

variable {s : QueueRun} {ids : List TNodeIndex}

theorem numNodes_lt (h : s.HoldsList ids) : s.queue.numNodes < maxNodes := by
  have hzero : (0 : TNodeIndex) ∉ s.queue.toList := by
    rw [h.list]
    intro hc
    exact absurd (h.stations 0 hc).1 (by decide)
  apply NodeQueue.numNodes_lt (d := 0) h.wellFormed.nodup _ (by decide) hzero
  rw [h.list]
  exact fun d hd => (h.stations d hd).2

theorem record (h : s.HoldsList ids) {q : NodeQueue} {ids' : List TNodeIndex} {picked : Option TNodeIndex}
    (hlist : q.toList = ids') (hwf : q.WellFormed) (hstations : ∀ d ∈ ids', Station d)
    (hpick : ∀ d, picked = some d → d ∈ ids') : (s.record picked q).HoldsList ids' where
  list := hlist
  wellFormed := hwf
  stations := hstations
  picks := by
    intro e he d hd
    rcases List.mem_cons.mp he with rfl | he
    · exact hlist ▸ hpick d hd
    · exact h.picks e he d hd

theorem step (h : s.HoldsList ids) {a : QueueAction} (ha : a.Admissible ids) :
    ∃ s', s.step a = .ok s' ∧ s'.HoldsList (a.effect ids) := by
  cases a with
  | add d =>
      obtain ⟨q, hadd⟩ := nodeQueueAdd_total d h.numNodes_lt
      have hlist := (nodeQueueAdd_ok hadd).1
      rw [h.list] at hlist
      refine ⟨s.record none q, bind_eq_ok.mpr ⟨q, hadd, rfl⟩,
        h.record hlist (h.wellFormed.add hadd) ?_ (by simp)⟩
      intro k hk
      change k ∈ (if d ∈ ids then ids else ids ++ [d]) at hk
      split at hk
      · exact h.stations k hk
      · rcases List.mem_append.mp hk with hk | hk
        · exact h.stations k hk
        · exact List.mem_singleton.mp hk ▸ ha
  | removeIfExists d =>
      refine ⟨_, rfl, h.record ?_ (h.wellFormed.removeIfExists d) ?_ (by simp)⟩
      · rw [toList_removeIfExists, h.list]
        rfl
      · exact fun k hk => h.stations k (List.mem_of_mem_erase hk)
  | remove d =>
      have hremove := nodeQueueRemove_total (h.list ▸ ha : d ∈ s.queue.toList)
      refine ⟨_, bind_eq_ok.mpr ⟨_, hremove, rfl⟩, h.record ?_ (h.wellFormed.removeIfExists d) ?_ (by simp)⟩
      · rw [toList_removeIfExists, h.list]
        rfl
      · exact fun k hk => h.stations k (List.mem_of_mem_erase hk)
  | getNext =>
      have hpos : 0 < s.queue.numNodes := by
        rw [numNodes_eq_length, h.list]
        exact List.length_pos_iff.mpr ha
      refine ⟨_, rfl, h.record h.list h.wellFormed.getNext h.stations ?_⟩
      rintro d ⟨⟩
      have hhead := NodeQueue.ahead_eq h.wellFormed.cursor hpos
      rw [QueueAction.effect, ← h.list]
      apply List.mem_of_mem_drop (i := s.queue.lastIndex)
      change _ ∈ s.queue.rotation.ahead
      rw [hhead]
      exact List.mem_cons_self

end QueueRun.HoldsList

/-- From an empty queue every sequence of calls comes to its end, and the queue is the list of its members. -/
theorem queue_is_list {q : NodeQueue} (hempty : q.numNodes = 0) (hcursor : q.lastIndex = 0) (as : List QueueAction)
    (has : QueueAction.AllAdmissible as []) :
    ∃ s, (queueSystem (· = q)).run ⟨q, []⟩ as = .ok s ∧
      s.queue.toList = as.foldl (fun ids a => a.effect ids) [] ∧ s.queue.toList.Nodup ∧
      s.queue.numNodes < maxNodes ∧ (s.queue.lastIndex < s.queue.numNodes ∨ s.queue.lastIndex = 0) ∧
      ∀ e ∈ s.history, ∀ d, e.picked = some d → d ∈ e.nodes := by
  have hrun : ∀ (as : List QueueAction) (s : QueueRun) (ids : List TNodeIndex), s.HoldsList ids →
      QueueAction.AllAdmissible as ids → ∃ s', (queueSystem (· = q)).run s as = .ok s' ∧
        s'.HoldsList (as.foldl (fun ids a => a.effect ids) ids) := by
    intro as
    induction as with
    | nil => exact fun s ids h _ => ⟨s, rfl, h⟩
    | cons a as ih =>
        rintro s ids h ⟨ha, has⟩
        obtain ⟨t, ht, hlist⟩ := h.step ha
        obtain ⟨s', hs', hlist'⟩ := ih t _ hlist has
        exact ⟨s', bind_eq_ok.mpr ⟨t, ht, hs'⟩, hlist'⟩
  have hnil : q.toList = [] := by simp [NodeQueue.toList, hempty]
  have hstart : QueueRun.HoldsList ⟨q, []⟩ [] :=
    ⟨hnil, ⟨by rw [hnil]; exact List.nodup_nil, Or.inr hcursor⟩, by simp, by simp⟩
  obtain ⟨s, hs, h⟩ := hrun as ⟨q, []⟩ [] hstart has
  exact ⟨s, hs, h.list, h.wellFormed.nodup, h.numNodes_lt, h.wellFormed.cursor, h.picks⟩

/-- Three nodes join, one is picked, one leaves and comes back. -/
theorem queue_is_list_three : ∃ s, (queueSystem (· = .empty)).run ⟨.empty, []⟩
      [.add 3, .add 5, .add 7, .getNext, .removeIfExists 3, .add 3, .remove 7, .getNext] = .ok s ∧
    s.queue.toList = [5, 3] := by
  obtain ⟨s, hs, hlist, -⟩ := queue_is_list (q := .empty) rfl rfl
    [.add 3, .add 5, .add 7, .getNext, .removeIfExists 3, .add 3, .remove 7, .getNext]
    (by simp [QueueAction.AllAdmissible, QueueAction.Admissible, QueueAction.effect, Station, firstNodeId, maxNodes])
  exact ⟨s, hs, hlist.trans (by decide)⟩

/-- Between two picks of a node with none of it between them, every other node that was there the whole time is
picked. -/
def RoundRobin (history : List QueueEvent) : Prop :=
  ∀ x nodes nodes' later between earlier, history = later ++
    ⟨some x, nodes'⟩ :: (between ++ ⟨some x, nodes⟩ :: earlier) →
    (∀ e ∈ between, e.picked ≠ some x) → ∀ y, y ≠ x → y ∈ nodes →
      (∀ e ∈ between, y ∈ e.nodes) →
    ∃ e ∈ between, e.picked = some y

/-- Node `y` has been there since the last pick of `x` and has not been picked since. -/
def Waits (x y : TNodeIndex) : List QueueEvent → Prop
  | [] => False
  | e :: earlier => y ∈ e.nodes ∧ e.picked ≠ some y ∧ (e.picked = some x ∨ Waits x y earlier)

theorem waits_of_between {x y : TNodeIndex} {nodes : List TNodeIndex}
    {between earlier : List QueueEvent} (hne : y ≠ x)
    (hy : y ∈ nodes) (hthere : ∀ e ∈ between, y ∈ e.nodes) (hno : ∀ e ∈ between, e.picked ≠ some y) :
    Waits x y (between ++ ⟨some x, nodes⟩ :: earlier) := by
  induction between with
  | nil => exact ⟨hy, by simpa using hne.symm, Or.inl rfl⟩
  | cons e between ih =>
      simp only [List.mem_cons, forall_eq_or_imp] at hthere hno
      exact ⟨hthere.1, hno.1, Or.inr (ih hthere.2 hno.2)⟩

theorem RoundRobin.cons {e : QueueEvent} {history : List QueueEvent} (h : RoundRobin history)
    (hpick : ∀ x, e.picked = some x → ∀ y, ¬ Waits x y history) : RoundRobin (e :: history) := by
  intro x nodes nodes' later between earlier heq hbetween y hne hy hthere
  cases later with
  | nil =>
      obtain ⟨rfl, rfl⟩ := List.cons.inj heq
      by_contra hno
      simp only [not_exists, not_and] at hno
      exact hpick x rfl y (waits_of_between hne hy hthere hno)
  | cons e' later =>
      obtain ⟨-, heq⟩ := List.cons.inj heq
      exact h x nodes nodes' later between earlier heq hbetween y hne hy hthere

/-- A node is only asked for when there is one. -/
def QueueRun.PicksMember (s : QueueRun) : QueueAction → Prop
  | .getNext => 0 < s.queue.numNodes
  | _ => True

instance (s : QueueRun) (a : QueueAction) : Decidable (s.PicksMember a) := by
  cases a <;> unfold QueueRun.PicksMember <;> infer_instance

/-- No entry in front of the cursor leaves, unless one entry is left. -/
def QueueRun.KeepsTurns (s : QueueRun) : QueueAction → Prop
  | .removeIfExists nodeId => s.queue.KeepsTurns nodeId
  | .remove nodeId => s.queue.KeepsTurns nodeId
  | _ => True

instance (s : QueueRun) (a : QueueAction) : Decidable (s.KeepsTurns a) := by
  cases a <;> unfold QueueRun.KeepsTurns <;> infer_instance

/-- Who waits since a pick of `x` is before `x`. -/
structure QueueRun.InTurn (s : QueueRun) : Prop where
  wellFormed : s.queue.WellFormed
  waits : ∀ x y, Waits x y s.history → y ∈ s.queue.rotation.before x
  roundRobin : RoundRobin s.history

namespace QueueRun.InTurn

variable {s s' : QueueRun} {q : NodeQueue} {d : TNodeIndex}

theorem record (h : s.InTurn) (hwf : q.WellFormed)
    (hwaits : ∀ x y, y ∈ q.toList → Waits x y s.history → y ∈ q.rotation.before x) :
    (s.record none q).InTurn where
  wellFormed := hwf
  waits := by
    rintro x y ⟨hy, -, hpick | hw⟩
    · cases hpick
    · exact hwaits x y hy hw
  roundRobin := h.roundRobin.cons (by simp)

theorem add (h : s.InTurn) (hadd : nodeQueueAdd s.queue d = .ok q) : (s.record none q).InTurn := by
  apply h.record (h.wellFormed.add hadd)
  intro x y _ hw
  have hy := h.waits x y hw
  by_cases hd : d ∈ s.queue.toList
  · obtain ⟨hlist, hcursor⟩ := nodeQueueAdd_ok hadd
    rw [if_pos hd] at hlist
    rwa [NodeQueue.rotation_congr hlist hcursor]
  · rw [NodeQueue.rotation_add h.wellFormed.cursor hadd hd]
    exact Rotation.mem_before_add d hy

theorem remove (h : s.InTurn) (hkeeps : s.queue.KeepsTurns d) :
    (s.record none (nodeQueueRemoveIfExists s.queue d)).InTurn := by
  apply h.record (h.wellFormed.removeIfExists d)
  intro x y hy hw
  have hy' := h.waits x y hw
  by_cases hd : d ∈ s.queue.toList
  · have hne : y ≠ d := (((nodup_removeIfExists d h.wellFormed.nodup).2 y).mp hy).1
    rw [NodeQueue.rotation_removeIfExists h.wellFormed hd hkeeps]
    apply Rotation.mem_before_remove _ (hkeeps.alone h.wellFormed.cursor) hy' hne
    exact s.queue.order_perm.nodup_iff.mpr h.wellFormed.nodup
  · rwa [NodeQueue.removeIfExists_of_notMem hd]

theorem getNext (h : s.InTurn) (hpos : 0 < s.queue.numNodes) :
    (s.record (some (getNextNodeInQueue s.queue).1) (getNextNodeInQueue s.queue).2).InTurn := by
  have hcursor := h.wellFormed.cursor
  have hnodup : s.queue.rotation.order.Nodup := s.queue.order_perm.nodup_iff.mpr h.wellFormed.nodup
  have hhead := NodeQueue.ahead_eq hcursor hpos
  refine ⟨h.wellFormed.getNext, ?_, ?_⟩
  · rintro x y ⟨hy, hne, hw⟩
    simp only [ne_eq, Option.some.injEq] at hne hw
    rw [QueueRun.record, NodeQueue.rotation_getNext hcursor hpos]
    rcases hw with rfl | hw
    · exact Rotation.mem_before_turn_head hnodup hhead (s.queue.order_perm.mem_iff.mpr hy) (Ne.symm hne)
    · by_cases hx : (getNextNodeInQueue s.queue).1 = x
      · subst hx
        exact Rotation.mem_before_turn_head hnodup hhead (s.queue.order_perm.mem_iff.mpr hy) (Ne.symm hne)
      · exact Rotation.mem_before_turn hhead hx (h.waits x y hw) (Ne.symm hne)
  · apply h.roundRobin.cons
    rintro x ⟨⟩ y hw
    have hy := h.waits _ y hw
    rw [Rotation.before_head hnodup hhead] at hy
    exact List.not_mem_nil hy

theorem step (h : s.InTurn) {a : QueueAction} (hpick : s.PicksMember a) (hkeeps : s.KeepsTurns a)
    (hs : s.step a = .ok s') : s'.InTurn := by
  cases a with
  | add d =>
      obtain ⟨q, hadd, hs⟩ := bind_eq_ok.mp hs
      cases hs
      exact h.add hadd
  | removeIfExists d =>
      cases hs
      exact h.remove hkeeps
  | remove d =>
      obtain ⟨q, hremove, hs⟩ := bind_eq_ok.mp hs
      cases hs
      rw [nodeQueueRemove_ok hremove]
      exact h.remove hkeeps
  | getNext =>
      cases hs
      exact h.getNext hpick

end QueueRun.InTurn

/-- As long as no entry in front of the cursor leaves, the members take turns; a removal of another entry passes over
the member that is next. -/
theorem members_take_turns {s : QueueRun}
    (h : (queueSystem NodeQueue.WellFormed).ReachableWhen (fun s a => s.PicksMember a ∧ s.KeepsTurns a) s) :
    RoundRobin s.history ∧ ∀ d, ¬ s.queue.KeepsTurns d →
      (getNextNodeInQueue (nodeQueueRemoveIfExists s.queue d)).1 ≠ (getNextNodeInQueue s.queue).1 := by
  have hturn : s.InTurn := by
    refine System.ReachableWhen.invariant (P := QueueRun.InTurn) h ?_ ?_
    · rintro ⟨q, history⟩ ⟨hwf, rfl⟩
      refine ⟨hwf, fun _ _ hw => hw.elim, ?_⟩
      intro x nodes nodes' later between earlier heq
      simp at heq
    · intro s a s' h hguard hs
      exact h.step hguard.1 hguard.2 hs
  exact ⟨hturn.roundRobin, fun d hd => NodeQueue.next_removeIfExists_ne hturn.wellFormed hd⟩

theorem emptyQueue_wellFormed : NodeQueue.empty.WellFormed := ⟨by simp, Or.inr rfl⟩

/-- Node 2 leaves from behind the cursor, and the turns go on. -/
theorem members_take_turns_three : ∃ s,
    (queueSystem NodeQueue.WellFormed).ReachableWhen (fun s a => s.PicksMember a ∧ s.KeepsTurns a) s ∧
      s.history.filterMap QueueEvent.picked = [3, 1, 3, 1] ∧ RoundRobin s.history := by
  obtain ⟨s, hs, hpicks⟩ := System.exists_of_decidedRun (S := queueSystem NodeQueue.WellFormed)
    (s := ⟨.empty, []⟩) (fun s a => s.PicksMember a ∧ s.KeepsTurns a)
      (p := fun s => s.history.filterMap QueueEvent.picked == [3, 1, 3, 1])
    [.add 1, .add 2, .add 3, .getNext, .removeIfExists 2, .getNext, .getNext, .getNext]
    (.init ⟨emptyQueue_wellFormed, rfl⟩) (by decide +kernel)
  exact ⟨s, hs, beq_iff_eq.mp hpicks, (members_take_turns hs).1⟩

/-- Nodes 1, 2 and 3 are picked in turn; then 1 is picked again and leaves: 3 is picked twice while 2 waits. -/
theorem removal_skips_waiting : ∃ s, (queueSystem NodeQueue.WellFormed).ReachableWhen QueueRun.PicksMember s ∧
    ¬ RoundRobin s.history := by
  obtain ⟨s, hs, hhistory⟩ := System.exists_of_decidedRun (S := queueSystem NodeQueue.WellFormed)
    (s := ⟨.empty, []⟩)
    QueueRun.PicksMember
    (p := fun s => s.history == [⟨some 3, [2, 3]⟩, ⟨none, [2, 3]⟩, ⟨some 1, [1, 2, 3]⟩,
      ⟨some 3, [1, 2, 3]⟩,
      ⟨some 2, [1, 2, 3]⟩, ⟨some 1, [1, 2, 3]⟩, ⟨none, [1, 2, 3]⟩, ⟨none, [1, 2]⟩, ⟨none, [1]⟩])
    [.add 1, .add 2, .add 3, .getNext, .getNext, .getNext, .getNext, .removeIfExists 1, .getNext]
    (.init ⟨emptyQueue_wellFormed, rfl⟩) (by decide +kernel)
  refine ⟨s, hs, fun hrobin => ?_⟩
  obtain ⟨e, he, hpicked⟩ := hrobin 3 [1, 2, 3] [2, 3] [] [⟨none, [2, 3]⟩, ⟨some 1, [1, 2, 3]⟩]
    [⟨some 2, [1, 2, 3]⟩, ⟨some 1, [1, 2, 3]⟩, ⟨none, [1, 2, 3]⟩, ⟨none, [1, 2]⟩, ⟨none, [1]⟩]
    (beq_iff_eq.mp hhistory) (by decide) 2 (by decide) (by decide) (by decide)
  revert hpicked
  revert e
  decide

end Microbus
