import Mathlib.Data.List.Basic
import Mathlib.Data.List.Nodup

/-! A row of entries that a cursor goes round: entries join at the end of the row and leave anywhere. -/

/-- The entries from the cursor on, and those before it. -/
structure Rotation (α : Type*) where
  ahead : List α
  behind : List α

namespace Rotation

variable {α : Type*}

/-- The entries as the cursor comes to them. -/
def order (r : Rotation α) : List α := r.ahead ++ r.behind

/-- At the end of the row the cursor goes back to its start. -/
def renew (r : Rotation α) : Rotation α := if r.ahead = [] then ⟨r.behind, []⟩ else r

def turn (r : Rotation α) : Rotation α :=
  match r.ahead with
  | [] => r
  | x :: rest => renew ⟨rest, r.behind ++ [x]⟩

def add (r : Rotation α) (x : α) : Rotation α := ⟨r.ahead ++ [x], r.behind⟩

section Before

variable [DecidableEq α]

def upTo (x : α) (l : List α) : List α := l.takeWhile (· ≠ x)

section UpTo

variable {l : List α} {x y z d : α}

@[simp] theorem upTo_nil : upTo x [] = [] := rfl

@[simp] theorem mem_upTo_cons : y ∈ upTo x (z :: l) ↔ z ≠ x ∧ (y = z ∨ y ∈ upTo x l) := by
  by_cases hz : z = x
  · simp [upTo, hz]
  · simp [upTo, hz]

theorem mem_of_mem_upTo (hy : y ∈ upTo x l) : y ∈ l := (List.takeWhile_prefix _).subset hy

theorem mem_upTo_append (m : List α) (hy : y ∈ upTo x l) : y ∈ upTo x (l ++ m) := by
  induction l with
  | nil => simp at hy
  | cons z l ih =>
      rw [mem_upTo_cons] at hy
      rw [List.cons_append, mem_upTo_cons]
      exact hy.imp_right (Or.imp_right ih)

theorem mem_upTo_of_notMem (hx : x ∉ l) (hy : y ∈ l) (m : List α) : y ∈ upTo x (l ++ m) := by
  induction l with
  | nil => simp at hy
  | cons z l ih =>
      simp only [List.mem_cons, not_or] at hx
      rw [List.cons_append, mem_upTo_cons]
      exact ⟨Ne.symm hx.1, (List.mem_cons.mp hy).imp_right (ih hx.2)⟩

theorem mem_upTo_erase (hy : y ∈ upTo x l) (hd : y ≠ d) (hx : d ≠ x) : y ∈ upTo x (l.erase d) := by
  induction l with
  | nil => exact hy
  | cons z l ih =>
      obtain ⟨hz, hy⟩ := mem_upTo_cons.mp hy
      by_cases hzd : z = d
      · subst hzd
        simpa [hd] using hy
      · rw [List.erase_cons_tail (by simpa using hzd), mem_upTo_cons]
        exact ⟨hz, hy.imp_right ih⟩

end UpTo

def remove (r : Rotation α) (x : α) : Rotation α := renew ⟨r.ahead.erase x, r.behind.erase x⟩

/-- The entries that the cursor comes to before `x`; an entry that is not there is expected at the end of
the row. -/
def before (r : Rotation α) (x : α) : List α := if x ∈ r.behind then r.ahead ++ upTo x r.behind else upTo x r.ahead

variable {r : Rotation α} {x y z d : α} {rest : List α}

theorem before_head (hnodup : r.order.Nodup) (h : r.ahead = x :: rest) : r.before x = [] := by
  have hbehind : x ∉ r.behind := by
    unfold order at hnodup
    rw [h, List.cons_append, List.nodup_cons] at hnodup
    exact fun hc => hnodup.1 (List.mem_append_right _ hc)
  simp [before, hbehind, h, upTo]

/-- All others are before the entry that the cursor has just left. -/
theorem mem_before_turn_head (hnodup : r.order.Nodup) (h : r.ahead = x :: rest) (hy : y ∈ r.order) (hne : y ≠ x) :
    y ∈ r.turn.before x := by
  unfold order at hnodup hy
  rw [h, List.cons_append, List.nodup_cons, List.mem_append, not_or] at hnodup
  rw [h, List.cons_append, List.mem_cons, List.mem_append, or_iff_right hne] at hy
  have hlast : y ∈ r.behind → y ∈ upTo x (r.behind ++ [x]) := fun hb => mem_upTo_of_notMem hnodup.1.2 hb [x]
  unfold turn
  rw [h]
  cases rest with
  | nil => simpa [renew, before] using hlast (by simpa using hy)
  | cons z rest =>
      have hy' := hy.imp_right hlast
      simpa [renew, before, or_assoc] using hy'

theorem mem_before_turn (h : r.ahead = z :: rest) (hx : z ≠ x) (hy : y ∈ r.before x) (hz : y ≠ z) :
    y ∈ r.turn.before x := by
  have hbehind : x ∈ r.behind ++ [z] ↔ x ∈ r.behind := by simp [Ne.symm hx]
  unfold turn
  rw [h]
  by_cases hin : x ∈ r.behind
  · have hy' : y ∈ rest ∨ y ∈ upTo x (r.behind ++ [z]) := by
      have hy : y ∈ rest ∨ y ∈ upTo x r.behind := by simpa [before, hin, h, hz] using hy
      exact hy.imp_right (mem_upTo_append [z])
    cases rest with
    | nil => simpa [renew, before] using hy'
    | cons w rest =>
        simp only [renew, before, List.cons_ne_nil, if_false, hbehind, hin, if_true, List.mem_append]
        exact hy'
  · have hy' : y ∈ upTo x rest := by simpa [before, hin, h, hx, hz] using hy
    cases rest with
    | nil => simp at hy'
    | cons w rest =>
        simp only [renew, before, List.cons_ne_nil, if_false, hbehind, hin]
        exact hy'

theorem mem_before_add (d : α) (hy : y ∈ r.before x) : y ∈ (r.add d).before x := by
  unfold before add at *
  by_cases hin : x ∈ r.behind
  · simp only [hin, if_true, List.mem_append] at hy ⊢
    exact hy.imp_left Or.inl
  · simp only [hin, if_false] at hy ⊢
    exact mem_upTo_append [d] hy

/-- An entry leaves, and what was before `x` otherwise stays before it. Behind the cursor only a single entry may
leave: if it comes back it is in front of the others that were behind. -/
theorem mem_before_remove (hnodup : r.order.Nodup) (halone : d ∈ r.behind → r.behind = [d]) (hy : y ∈ r.before x)
    (hd : y ≠ d) : y ∈ (r.remove d).before x := by
  obtain ⟨hahead, -, hapart⟩ := List.nodup_append.mp hnodup
  have hkeep : ∀ {w}, w ∈ r.ahead → w ≠ d → w ∈ r.ahead.erase d := fun hw hne =>
    (List.mem_erase_of_ne hne).mpr hw
  have hout : d ∉ r.ahead.erase d := hahead.not_mem_erase
  unfold remove
  by_cases hin : x ∈ r.behind
  · by_cases hxd : d = x
    · subst hxd
      have hone := halone hin
      have hy' : y ∈ r.ahead.erase d := hkeep (by simpa [before, hone] using hy) hd
      have hne : r.ahead.erase d ≠ [] := List.ne_nil_of_mem hy'
      have hfront := mem_upTo_of_notMem hout hy' []
      simpa [renew, hone, hne, before] using hfront
    · have hin' : x ∈ r.behind.erase d := (List.mem_erase_of_ne (Ne.symm hxd)).mpr hin
      simp only [before, hin, if_true, List.mem_append] at hy
      have hy' : y ∈ r.ahead.erase d ∨ y ∈ upTo x (r.behind.erase d) :=
        hy.imp (hkeep · hd) (mem_upTo_erase · hd hxd)
      by_cases hnil : r.ahead.erase d = []
      · simpa [renew, hnil, before] using hy'
      · simpa [renew, hnil, before, hin'] using hy'
  · have hin' : x ∉ r.behind.erase d := fun hc => hin (List.mem_of_mem_erase hc)
    have hy' : y ∈ upTo x r.ahead := by simpa [before, hin] using hy
    have hy'' : y ∈ upTo x (r.ahead.erase d) := by
      by_cases hxd : d = x
      · subst hxd
        simpa using mem_upTo_of_notMem hout (hkeep (mem_of_mem_upTo hy') hd) []
      · exact mem_upTo_erase hy' hd hxd
    have hne : r.ahead.erase d ≠ [] := List.ne_nil_of_mem (mem_of_mem_upTo hy'')
    simpa [renew, hne, before, hin'] using hy''

end Before

end Rotation
