import Mathlib.Data.List.Basic
import Mathlib.Logic.Function.Basic
import Mathlib.Data.Nat.Find

/-! A ring of slots of which those from `start` up to `stop` are in use. -/
namespace Ring

variable {α : Type*}

/-- The slot `k` places behind `start`. -/
def place (size start k : Nat) : Nat := if start + k ≥ size then k + start - size else start + k

def count (size start stop : Nat) : Nat := if stop < start then size + stop - start else stop - start

/-- What the slots in use hold, from `start` on. -/
def contents (size start stop : Nat) (slots : Nat → α) : List α :=
  (List.range (count size start stop)).map fun k => slots (place size start k)

section Places

variable {size start stop k j : Nat}

theorem place_zero (hs : start < size) : place size start 0 = start := by
  unfold place
  rw [if_neg (by omega), Nat.add_zero]

theorem place_lt (hs : start < size) (hk : k ≤ size) : place size start k < size := by
  unfold place
  split <;> omega

theorem place_inj (hk : k < size) (hj : j < size) (h : place size start k = place size start j) :
    k = j := by
  unfold place at h
  split at h <;> split at h <;> omega

theorem place_succ (hs : start < size) (hk : k < size) :
    place size (place size start k) 1 = place size start (k + 1) := by
  unfold place
  split <;> split <;> split <;> omega

theorem place_succ_cases (hs : start < size) (hk : k < size) : place size start (k + 1) = place size start k + 1 ∨
    (place size start k + 1 = size ∧ place size start (k + 1) = 0) := by
  unfold place
  split <;> split <;> omega

theorem place_next (hs : start < size) (hk : k < size) :
    place size (place size start 1) k = place size start (k + 1) := by
  unfold place
  split <;> split <;> split <;> omega

theorem count_lt (hs : start < size) (he : stop < size) : count size start stop < size := by
  unfold count
  split <;> omega

theorem place_count (hs : start < size) (he : stop < size) : place size start (count size start stop) = stop := by
  unfold place count
  split <;> split <;> omega

theorem count_append (hs : start < size) (he : stop < size) (hfull : start ≠ place size stop 1) :
    count size start (place size stop 1) = count size start stop + 1 := by
  by_cases hwrap : stop + 1 ≥ size
  · have hnext : place size stop 1 = 0 := by
      unfold place
      rw [if_pos hwrap]
      omega
    rw [hnext] at hfull ⊢
    unfold count
    split <;> split <;> omega
  · have hnext : place size stop 1 = stop + 1 := by
      unfold place
      rw [if_neg hwrap]
    rw [hnext] at hfull ⊢
    unfold count
    split <;> split <;> omega

theorem count_pop (hs : start < size) (he : stop < size) (hempty : start ≠ stop) :
    count size start stop = count size (place size start 1) stop + 1 := by
  unfold count place
  split <;> split <;> split <;> omega

end Places

section Contents

variable {size start stop : Nat} {slots : Nat → α}

@[simp] theorem length_contents : (contents size start stop slots).length = count size start stop := by simp [contents]

theorem getElem?_contents (k : Nat) : (contents size start stop slots)[k]? =
    if k < count size start stop then some (slots (place size start k)) else none := by
  by_cases h : k < count size start stop
  · simp [contents, h]
  · simp [contents, h]

theorem contents_self : contents size start start slots = [] := by
  simp [contents, count]

theorem contents_append (hs : start < size) (he : stop < size) (hfull : start ≠ place size stop 1) (x : α) :
    contents size start (place size stop 1) (Function.update slots stop x) = contents size start stop slots ++ [x] := by
  have hlt := count_lt hs he
  have hlast := place_count hs he
  unfold contents
  rw [count_append hs he hfull, List.range_succ, List.map_append, List.map_cons, List.map_nil, hlast,
    Function.update_self]
  congr 1
  apply List.map_congr_left
  intro k hk
  have hk' := List.mem_range.mp hk
  refine Function.update_of_ne ?_ _ _
  intro hc
  rw [← hlast] at hc
  have := place_inj (Nat.lt_trans hk' hlt) hlt hc
  omega

theorem contents_cons (slots : Nat → α) (hs : start < size) (he : stop < size) (hempty : start ≠ stop) :
    contents size start stop slots = slots start :: contents size (place size start 1) stop slots := by
  have hlt := count_lt hs he
  have hcount := count_pop hs he hempty
  unfold contents
  rw [hcount, List.range_succ_eq_map, List.map_cons, List.map_map, place_zero hs]
  congr 1
  apply List.map_congr_left
  intro k hk
  have hk' := List.mem_range.mp hk
  change slots (place size start (k + 1)) = slots (place size (place size start 1) k)
  rw [place_next hs (by omega)]

theorem contents_set (hs : start < size) (he : stop < size) {k : Nat} (hk : k < count size start stop) (x : α) :
    contents size start stop (Function.update slots (place size start k) x) =
    (contents size start stop slots).set k x := by
  have hlt := count_lt hs he
  apply List.ext_getElem?
  intro j
  rw [List.getElem?_set]
  simp only [getElem?_contents, length_contents]
  by_cases hj : j < count size start stop
  · rw [if_pos hj]
    by_cases hkj : k = j
    · subst hkj
      rw [if_pos rfl, if_pos hk, Function.update_self]
    · rw [if_neg hkj, if_pos hj, Function.update_of_ne]
      intro hc
      exact hkj (place_inj (Nat.lt_trans hk hlt) (Nat.lt_trans hj hlt) hc.symm)
  · rw [if_neg hj]
    by_cases hkj : k = j
    · exact absurd (hkj ▸ hk) hj
    · rw [if_neg hkj, if_neg hj]

end Contents

/-- Position `k` behind `last` is the first one with the property. -/
structure FirstAfter (size last : Nat) (p : Nat → Prop) (k : Nat) : Prop where
  pos : 1 ≤ k
  le : k ≤ size
  hit : p (place size last k)
  before : ∀ j, 1 ≤ j → j < k → ¬ p (place size last j)

section Round

variable {size last j k i : Nat} {p : Nat → Prop}

/-- A round meets every position once. -/
theorem place_inj_round (hj : 1 ≤ j) (hj' : j ≤ size) (hk : 1 ≤ k) (hk' : k ≤ size)
    (h : place size last j = place size last k) : j = k := by
  unfold place at h
  split at h <;> split at h <;> omega

theorem place_eq_last_iff (hk : 1 ≤ k) : place size last k = last ↔ k = size := by
  unfold place
  split <;> omega

theorem place_wrap (hl : last < size) (hk : k < size) :
    (if place size last k + 1 ≥ size then 0 else place size last k + 1) = place size last (k + 1) := by
  unfold place
  split <;> split <;> split <;> omega

theorem exists_place (hl : last < size) (hi : i < size) : ∃ k, 1 ≤ k ∧ k ≤ size ∧ place size last k = i := by
  by_cases h : last < i
  · refine ⟨i - last, by omega, by omega, ?_⟩
    unfold place
    split <;> omega
  · refine ⟨i + size - last, by omega, by omega, ?_⟩
    unfold place
    split <;> omega

theorem FirstAfter.lt (h : FirstAfter size last p k) (hl : last < size) : place size last k < size :=
  place_lt hl h.le

end Round
end Ring
