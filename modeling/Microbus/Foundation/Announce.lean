import Mathlib.Order.Basic

/-! A schedule that one party announces some slots ahead. The announcer and each follower keep the
owners of the coming slots in a register: position 0 is the slot that starts, and with every slot the
register moves down by one position. -/
namespace Announce

variable {α : Type*} {width : Nat} {r r' s s' : Nat → α}

/-- The positions up to `width` move down; what comes in at `width` is left open. -/
def Shifted (width : Nat) (r r' : Nat → α) : Prop := ∀ k < width, r' k = r (k + 1)

/-- An entry of the follower is blank or that of the announcer. -/
def Follows (blank : α → Prop) (width : Nat) (r s : Nat → α) : Prop := ∀ k ≤ width, s k = r k ∨ blank (s k)

namespace Follows

variable {blank : α → Prop}

theorem of_blank (h : ∀ k ≤ width, blank (s k)) : Follows blank width r s := fun k hk => Or.inr (h k hk)

theorem shift (h : Follows blank width r s) (hr : Shifted width r r') (hs : Shifted width s s')
    (hlast : blank (s' width)) :
    Follows blank width r' s' := by
  intro k hk
  rcases Nat.lt_or_eq_of_le hk with hlt | rfl
  · rw [hr k hlt, hs k hlt]
    exact h (k + 1) hlt
  · exact Or.inr hlast

theorem announce (h : Follows blank width r s) (hcurrent : s' 0 = s 0)
    (hnext : ∀ k, 1 ≤ k → k ≤ width → s' k = r k) : Follows blank width r s' := by
  intro k hk
  rcases Nat.eq_zero_or_pos k with rfl | hpos
  · rw [hcurrent]
    exact h 0 hk
  · exact Or.inl (hnext k hpos hk)

end Follows

/-- One of the coming slots, beside the one that starts, is for announcements. -/
def Renewed (announces : α → Prop) (width : Nat) (r : Nat → α) : Prop :=
  ∃ p, 1 ≤ p ∧ p ≤ width ∧ announces (r p)

/-- The last position known is reached before the register of the follower runs out. -/
def Recurs (announces : α → Prop) (width : Nat) (r : Nat → α) : Prop := ∃ p < width, announces (r p)

/-- The follower knows the slots up to the one after the next announcement. -/
def InStep (announces : α → Prop) (width : Nat) (r s : Nat → α) : Prop :=
  ∃ p < width, announces (r p) ∧ ∀ k, 1 ≤ k → k ≤ p + 1 → s k = r k

section InStep

variable {announces : α → Prop}

theorem Renewed.recurs (h : Renewed announces width r) (hr : Shifted width r r') : Recurs announces width r' := by
  obtain ⟨p, hpos, hp, hann⟩ := h
  refine ⟨p - 1, by omega, ?_⟩
  rw [hr (p - 1) (by omega), Nat.sub_add_cancel hpos]
  exact hann

namespace InStep

theorem announce (h : Recurs announces width r) (hs : ∀ k, 1 ≤ k → k ≤ width → s k = r k) :
    InStep announces width r s := by
  obtain ⟨p, hp, hann⟩ := h
  exact ⟨p, hp, hann, fun k hpos hk => hs k hpos (by omega)⟩

theorem shift (h : InStep announces width r s) (hslot : ¬ announces (r 0)) (hr : Shifted width r r')
    (hs : Shifted width s s') : InStep announces width r' s' := by
  obtain ⟨p, hp, hann, hknown⟩ := h
  obtain ⟨p, rfl⟩ : ∃ q, p = q + 1 := Nat.exists_eq_succ_of_ne_zero fun hc => hslot (hc ▸ hann)
  refine ⟨p, by omega, ?_, fun k hpos hk => ?_⟩
  · rw [hr p (by omega)]
    exact hann
  · rw [hr k (by omega), hs k (by omega)]
    exact hknown (k + 1) (by omega) (by omega)

theorem next (h : InStep announces width r s) : s 1 = r 1 := by
  obtain ⟨p, -, -, hknown⟩ := h
  exact hknown 1 (Nat.le_refl 1) (by omega)

theorem current (h : InStep announces width r s) (hr : Shifted width r r') (hs : Shifted width s s') : s' 0 = r' 0 := by
  have hwidth : 0 < width := by
    obtain ⟨p, hp, -⟩ := h
    omega
  rw [hr 0 hwidth, hs 0 hwidth]
  exact h.next

end InStep
end InStep

end Announce
